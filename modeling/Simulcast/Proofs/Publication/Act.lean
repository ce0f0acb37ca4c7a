import Simulcast.Publication.Basic
import Simulcast.Proofs.Liveness.Notices
import Mathlib.Data.List.Induction

/-!
# Runs of a publication

What happens to a publication, as one type: calls from outside, and turns of the workers that read
its intakes and deliver the notices of its trackers. A run is a list of acts in any order, so that
a worker may be kept waiting for as long as the run likes; what is emitted on it is its log.

The equations of this file say what the longer operations do, field by field: `close_of_open`,
`feedLayer_eq`, and for a turn at an intake `turned`. What holds of a publication and its log before
anything has happened, and is kept by each act, holds after every run: that is `run_induction`.
-/

namespace Simulcast

namespace Publication

/-- What is offered when a track is published. -/
structure Offer where
  track : String
  stream : String
  peer : String
  kind : MediaKind
  codec : Codec
  simulcast : Bool
  settings : PublicationSettings
  watchSettings : WatchSettings
  maxExpected : Int

/-- The publication of an offer, before anything has happened to it. -/
def Offer.published (o : Offer) : Publication :=
  { track := o.track
    stream := o.stream
    peer := o.peer
    kind := o.kind
    codec := o.codec
    simulcast := o.simulcast
    settings := o.settings
    watch := { settings := o.watchSettings, maxExpected := o.maxExpected } }

/-- What happens to a publication. -/
inductive Act where
  /-- A subscriber comes. It may end the publication as soon as it learns what kind of track it
  gets. -/
  | subscribe (handle : Nat) (ends : Bool)
  | unsubscribe (peer : String)
  | addUpTrack (rid : String) (i : Intake)
  | write (intake : Nat) (now : Time) (raw : Octets)
  | closeIntake (intake : Nat)
  | setPaused (paused : Bool)
  | setMaxExpected (layer : Int)
  | advance (nanos : Nat)
  | measure (now : Time)
  | setChannel (capacity : Nat)
  | askKeyFrame (layer : Int) (now : Time)
  | close
  /-- The reader of an intake has its turn. -/
  | read (f : Feed)
  /-- The queue of the notices of a layer has its turn. There is one for each layer, and they go on in
  any order. -/
  | deliver (layer : LayerIndex)

/-- A turn at an intake: the next packet is handed out, or its end is acted on. -/
def turn (p : Publication) (f : Feed) : Result :=
  if f ∈ p.feeds then
    match p.intakes[f.intake]? with
    | none => p.quiet
    | some i => match i.read with
      | (i, .packet a) => (p.modifyIntake f.intake fun _ => i).handOut f a
      | (_, .ended) => (p.dropFeed f).endLayer f.layer f.intake
      | (_, .pending) => p.quiet
  else p.quiet

section

variable (peerOf : Nat → String)

/-- A publication after an act, and what it emits. The peer of each subscriber is given. -/
def perform (p : Publication) : Act → Result
  | .subscribe h ends => p.subscribe (peerOf h) h (if ends then close else quiet)
  | .unsubscribe peer => (p.unsubscribe peer).quiet
  | .addUpTrack rid i => p.addUpTrack rid i
  | .write intake now raw => match p.write intake now raw with
    | .ok p => p.quiet
    | .error _ => p.quiet
  | .closeIntake intake => (p.modifyIntake intake Intake.close).quiet
  | .setPaused paused => (p.setPaused paused).quiet
  | .setMaxExpected layer => (p.setMaxExpected layer).quiet
  | .advance nanos => p.advance nanos
  | .measure now => (p.bitrates now).1.quiet
  | .setChannel capacity => (p.setChannel capacity).quiet
  | .askKeyFrame layer now => (p.askKeyFrame layer now).quiet
  | .close => p.close
  | .read f => p.turn f
  | .deliver layer => p.onWatch fun w => w.deliverNext layer

/-- A publication after some acts, and all that it emits on the way. -/
def run : Publication → List Act → Result
  | p, [] => p.quiet
  | p, a :: as => andThen (p.perform peerOf a) fun p => run p as

end

variable {peerOf : Nat → String} {p q : Publication}

theorem run_cons (p : Publication) (a : Act) (as : List Act) :
    p.run peerOf (a :: as) =
      (((p.perform peerOf a).1.run peerOf as).1,
        (p.perform peerOf a).2 ++ ((p.perform peerOf a).1.run peerOf as).2) := rfl

theorem run_append (p : Publication) (as bs : List Act) :
    p.run peerOf (as ++ bs) =
      (((p.run peerOf as).1.run peerOf bs).1,
        (p.run peerOf as).2 ++ ((p.run peerOf as).1.run peerOf bs).2) := by
  induction as generalizing p with
  | nil => rfl
  | cons a as ih =>
    simp only [List.cons_append, run, andThen, ih, List.append_assoc]

theorem run_concat (p : Publication) (as : List Act) (a : Act) :
    p.run peerOf (as ++ [a]) =
      (((p.run peerOf as).1.perform peerOf a).1,
        (p.run peerOf as).2 ++ ((p.run peerOf as).1.perform peerOf a).2) := by
  rw [run_append]
  simp only [run, andThen, quiet, List.append_nil]

/-- A run with one act more comes apart at that act, or where it did without it. -/
theorem split_concat {as before later : List Act} {a b : Act}
    (same : as ++ [a] = before ++ b :: later) :
    as = before ∧ a = b ∧ later = [] ∨ ∃ rest, later = rest ++ [a] ∧ as = before ++ b :: rest := by
  rcases List.eq_nil_or_concat' later with rfl | ⟨rest, c, rfl⟩
  · obtain ⟨rfl, last⟩ := List.append_inj' same rfl
    exact .inl ⟨rfl, List.head_eq_of_cons_eq last, rfl⟩
  · rw [← List.cons_append, ← List.append_assoc] at same
    obtain ⟨rfl, last⟩ := List.append_inj' same rfl
    exact .inr ⟨rest, by rw [List.head_eq_of_cons_eq last], rfl⟩

/-- What holds at first, and is kept by each act, holds after every run. -/
theorem run_induction {P : Publication → List PublicationEvent → Prop} (init : P p [])
    (step : ∀ p log a, P p log → P (p.perform peerOf a).1 (log ++ (p.perform peerOf a).2))
    (as : List Act) : P (p.run peerOf as).1 (p.run peerOf as).2 := by
  induction as using List.reverseRecOn with
  | nil => exact init
  | append_singleton as a ih =>
    rw [run_concat]
    exact step _ _ a ih

/-! ## A video -/

/-- A video that is offered in one size. -/
def Offer.video : Offer where
  track := "t"
  stream := "s"
  peer := "p"
  kind := .video
  codec := { mime := "video/VP8", clockRate := 90000 }
  simulcast := false
  settings := {}
  watchSettings := {}
  maxExpected := Layers.maxSpatial

/-- An intake for it. -/
def videoIntake : Intake := .empty 1234 Offer.video.codec {}

/-- Its first packet as it comes in. -/
def firstPacket : Octets :=
  [0x80, 0x60, 0, 1, 0, 0, 0, 0, 0, 0, 0x04, 0xd2, 0x90, 0x80, 1, 0, 0xaa, 0xbb]

/-- Its feed, if it is the first intake. -/
def firstFeed : Feed := ⟨0, 0, some ⟨0, 0⟩⟩

/-- The first packet of the base layer comes in and is handed out, and the layer flows. -/
def starting : List Act :=
  [.addUpTrack "q" videoIntake, .write 0 0 firstPacket, .read firstFeed, .deliver 0]

example (peerOf : Nat → String) : (Offer.video.published.run peerOf starting).1.available = [0] := rfl

/-! ## Acts aside -/

/-- Two publications that differ in what their intakes hold and in their requests to the publisher
alone. -/
structure Alike (p q : Publication) : Prop where
  kind : q.kind = p.kind
  simulcast : q.simulcast = p.simulcast
  settings : q.settings = p.settings
  watch : q.watch = p.watch
  closed : q.closed = p.closed
  upTracks : q.upTracks = p.upTracks
  feeds : q.feeds = p.feeds
  subscribers : q.subscribers = p.subscribers
  intakes : q.intakes.length = p.intakes.length

theorem Alike.refl (p : Publication) : p.Alike p := ⟨rfl, rfl, rfl, rfl, rfl, rfl, rfl, rfl, rfl⟩

theorem Alike.trans {r : Publication} (h : p.Alike q) (h' : q.Alike r) : p.Alike r :=
  ⟨h'.kind.trans h.kind, h'.simulcast.trans h.simulcast, h'.settings.trans h.settings,
    h'.watch.trans h.watch, h'.closed.trans h.closed, h'.upTracks.trans h.upTracks,
    h'.feeds.trans h.feeds, h'.subscribers.trans h.subscribers, h'.intakes.trans h.intakes⟩

theorem alike_modifyIntake (p : Publication) (intake : Nat) (change : Intake → Intake) :
    p.Alike (p.modifyIntake intake change) :=
  ⟨rfl, rfl, rfl, rfl, rfl, rfl, rfl, rfl, List.length_modify _ _ _⟩

theorem alike_measure (p : Publication) (now : Time) (layer : LayerIndex) :
    p.Alike (measure now p layer) := by
  unfold measure
  split
  · exact .refl p
  · split
    · exact alike_modifyIntake p _ _
    · exact .refl p

theorem alike_bitrates (p : Publication) (now : Time) : p.Alike (p.bitrates now).1 := by
  suffices all : ∀ (ls : List LayerIndex) q, p.Alike q → p.Alike (ls.foldl (measure now) q) from
    all _ p (.refl p)
  intro ls
  induction ls with
  | nil => exact fun _ h => h
  | cons l ls ih => exact fun q h => ih _ (h.trans (alike_measure q now l))

theorem alike_askKeyFrame (p : Publication) (layer : Int) (now : Time) :
    p.Alike (p.askKeyFrame layer now) := by
  unfold askKeyFrame
  split
  · exact .refl p
  · split
    · exact .refl p
    · exact ⟨rfl, rfl, rfl, rfl, rfl, rfl, rfl, rfl, rfl⟩

/-- Acts that concern the intakes and the publisher alone. -/
def Act.isAside : Act → Bool
  | .write _ _ _ | .closeIntake _ | .measure _ | .setChannel _ | .askKeyFrame _ _ => true
  | _ => false

theorem perform_aside {a : Act} (h : a.isAside = true) :
    p.Alike (p.perform peerOf a).1 ∧ (p.perform peerOf a).2 = [] := by
  cases a with
  | write intake now raw =>
    simp only [perform, write]
    cases p.intakes[intake]? with
    | none => exact ⟨.refl p, rfl⟩
    | some i =>
      dsimp only
      cases i.write now raw with
      | ok i => exact ⟨alike_modifyIntake p _ _, rfl⟩
      | error e => exact ⟨.refl p, rfl⟩
  | closeIntake intake => exact ⟨alike_modifyIntake p _ _, rfl⟩
  | measure now => exact ⟨alike_bitrates p now, rfl⟩
  | setChannel capacity => exact ⟨⟨rfl, rfl, rfl, rfl, rfl, rfl, rfl, rfl, rfl⟩, rfl⟩
  | askKeyFrame layer now => exact ⟨alike_askKeyFrame p layer now, rfl⟩
  | _ => cases h

/-! ## The longer operations -/

/-- Intakes of which some are closed. -/
def closing (intakes : List Intake) (which : List Nat) : List Intake :=
  which.foldl (fun is i => is.modify i Intake.close) intakes

theorem close_of_closed (h : p.closed = true) : p.close = p.quiet := if_pos h

theorem close_of_open (h : p.closed = false) :
    p.close = ({ p with
        closed := true
        watch := p.watch.stop
        subscribers := {}
        upTracks := Vector.replicate 3 none
        intakes := closing p.intakes p.liveIntakes },
      p.subscribers.members.map (fun h => .deliver h .close) ++ [.closed]) := by
  have fold (which : List Nat) (q : Publication) :
      which.foldl (fun p i => p.modifyIntake i Intake.close) q =
        { q with intakes := closing q.intakes which } := by
    induction which generalizing q with
    | nil => rfl
    | cons i which ih => rw [List.foldl_cons, ih]; rfl
  unfold close
  rw [if_neg (by rw [h]; exact Bool.false_ne_true), fold]

theorem closed_close (p : Publication) : p.close.1.closed = true := by
  cases opened : p.closed with
  | true => rw [close_of_closed opened]; exact opened
  | false => rw [close_of_open opened]

theorem not_open_close (p : Publication) : p.close.1.closed ≠ false := by
  rw [closed_close]
  exact Bool.noConfusion

/-- What `announce` tells when the watch has become another one. -/
theorem onWatch_eq (p : Publication) (change : LayerWatch → LayerWatch) :
    p.onWatch change = ({ p with watch := (change p.watch).collect.1 },
      (change p.watch).announcements.flatMap (layersFor p.subscribers)) := rfl

/-- The watch when a layer comes to be expected. -/
def expecting (p : Publication) (layer : LayerIndex) : LayerWatch := (p.expectLayer layer).1.watch

theorem expecting_of_watched (h : p.kind = .video ∧ p.settings.watchesLiveness = true)
    (layer : LayerIndex) : p.expecting layer = (p.watch.addTracker layer.val).1 := by
  rw [expecting, expectLayer, if_pos h]

theorem expecting_of_unwatched (h : ¬(p.kind = .video ∧ p.settings.watchesLiveness = true))
    (layer : LayerIndex) : p.expecting layer = p.watch.addAvailable layer.val := by
  rw [expecting, expectLayer, if_neg h]

theorem feedLayer_eq (p : Publication) (rid : String) (layer : LayerIndex) (ssrc : UInt32)
    (intake : Nat) :
    p.feedLayer rid layer ssrc intake = ({ p with
        intakes := (p.retire layer).intakes
        upTracks := p.upTracks.set layer (some { rid, ssrc, intake }) layer.lt
        watch := (p.expecting layer).collect.1
        feeds := p.feeds ++ [{ layer, intake, tracker := (p.expectLayer layer).2 }] },
      (p.expecting layer).announcements.flatMap (layersFor p.subscribers)) := by
  unfold feedLayer expecting expectLayer retire
  cases p.upTracks.get layer <;> dsimp only [modifyIntake] <;> split <;> rfl

theorem addUpTrack_of_layer (h : p.closed = false) {rid : String} {layer : LayerIndex} (i : Intake)
    (hl : layerIndex? (layerOfRid rid) = some layer) :
    p.addUpTrack rid i =
      { p with intakes := p.intakes ++ [i] }.feedLayer rid layer i.ssrc p.intakes.length := by
  simp only [addUpTrack, h, Bool.false_eq_true, if_false, hl]

theorem addUpTrack_refused {rid : String} (i : Intake)
    (h : p.closed = true ∨ layerIndex? (layerOfRid rid) = none) :
    p.addUpTrack rid i = quiet { p with intakes := p.intakes ++ [i] } := by
  unfold addUpTrack
  dsimp only
  split
  · rfl
  · rename_i opened
    rw [h.resolve_left opened]

/-! ## Subscribing -/

theorem not_closed_of_admits {peer : String} (h : p.admits peer = true) : p.closed = false := by
  rw [admits, Bool.and_eq_true, Bool.not_eq_true'] at h
  exact h.1

theorem not_contains_of_admits {peer : String} (h : p.admits peer = true) :
    p.subscribers.contains peer = false := by
  rw [admits, Bool.and_eq_true, Bool.not_eq_true', Bool.not_eq_true'] at h
  exact h.2

theorem not_admits_of_closed (h : p.closed = true) (peer : String) : p.admits peer = false := by
  rw [admits, h]
  rfl

theorem subscribe_refused {peer : String} {h : Nat} {reaction : Publication → Result}
    (no : p.admits peer = false) : p.subscribe peer h reaction = p.quiet :=
  if_neg (by rw [no]; exact Bool.false_ne_true)

theorem subscribe_entered {peer : String} {h : Nat} (yes : p.admits peer = true) :
    p.subscribe peer h quiet = ({ p with subscribers := p.subscribers.add peer h },
      .deliver h (.trackType p.simulcast) :: p.greeting h) := by
  simp only [subscribe, yes, if_true, andThen, quiet, enter, List.append_nil, List.cons_append,
    List.nil_append]

theorem subscribe_ending {peer : String} {h : Nat} (yes : p.admits peer = true) :
    p.subscribe peer h close = (p.close.1,
      .deliver h (.trackType p.simulcast) :: (p.close.2 ++ p.close.1.greeting h)) := by
  have closed : p.close.1.closed = true := by rw [close_of_open (not_closed_of_admits yes)]
  simp only [subscribe, yes, if_true, andThen, enter, not_admits_of_closed closed,
    Bool.false_eq_true, if_false, List.cons_append, List.nil_append]

theorem unsubscribe_of_closed {peer : String} (h : p.closed = true) : p.unsubscribe peer = p :=
  if_pos h

theorem unsubscribe_of_open {peer : String} (h : p.closed = false) :
    p.unsubscribe peer = { p with subscribers := p.subscribers.remove peer } :=
  if_neg (by rw [h]; exact Bool.false_ne_true)

/-! ## Turns at an intake -/

/-- The next packet that a feed hands out. -/
def Next (p : Publication) (f : Feed) (a : Arrival) : Prop :=
  f ∈ p.feeds ∧ ∃ i, p.intakes[f.intake]? = some i ∧ i.queue.head? = some a

/-- A feed has come to the end of its intake. -/
def AtEnd (p : Publication) (f : Feed) : Prop :=
  f ∈ p.feeds ∧ ∃ i, p.intakes[f.intake]? = some i ∧ i.queue = [] ∧ i.closed = true

/-- A feed is that of the up track of its layer, and not of one that has been replaced. -/
def Feeds (p : Publication) (f : Feed) : Prop :=
  (p.upTracks.get f.layer).map UpTrack.intake = some f.intake

/-- The layer of a feed is the only one with an up track. -/
def FeedsAlone (p : Publication) (f : Feed) : Prop :=
  p.Feeds f ∧ ∀ layer, layer ≠ f.layer → p.upTracks.get layer = none

/-- A publication without a layer. -/
def without (p : Publication) (layer : LayerIndex) : Publication :=
  { p with
    upTracks := p.upTracks.set layer none layer.lt
    watch := ((p.watch.removeTracker layer.val).removeAvailable layer.val).collect.1 }

/-- The announcements when a layer is forgotten. -/
def farewell (p : Publication) (layer : LayerIndex) : List PublicationEvent :=
  ((p.watch.removeTracker layer.val).removeAvailable layer.val).announcements.flatMap
    (layersFor p.subscribers)

/-- What a turn at an intake comes to. -/
inductive Turned (p : Publication) (f : Feed) : Result → Prop where
  | idle (noPacket : ∀ a, ¬p.Next f a) (goesOn : ¬p.AtEnd f) : Turned p f p.quiet
  | handed {i : Intake} {a : Arrival} {rest : List Arrival} (live : f ∈ p.feeds)
      (found : p.intakes[f.intake]? = some i) (queue : i.queue = a :: rest) :
      Turned p f ((p.modifyIntake f.intake fun _ => { i with queue := rest }).handOut f a)
  | replaced (ends : p.AtEnd f) (other : ¬p.Feeds f) : Turned p f (p.dropFeed f).quiet
  | ended (ends : p.AtEnd f) (own : p.Feeds f) (notLast : ¬p.FeedsAlone f) :
      Turned p f ((p.dropFeed f).without f.layer, p.farewell f.layer)
  | lastEnded (ends : p.AtEnd f) (last : p.FeedsAlone f) :
      Turned p f (((p.dropFeed f).without f.layer).close.1,
        p.farewell f.layer ++ ((p.dropFeed f).without f.layer).close.2)

/-- No layer is left if and only if each is without an up track. -/
theorem upTrackCount_eq_zero_iff : p.upTrackCount = 0 ↔ ∀ layer, p.upTracks.get layer = none := by
  rw [upTrackCount, List.length_eq_zero_iff, liveIntakes, List.filterMap_eq_nil_iff]
  simp only [Option.map_eq_none_iff, Vector.mem_toList_iff]
  constructor
  · exact fun h layer => h _ (Vector.getElem_mem layer.isLt)
  · intro h x hx
    obtain ⟨i, hi, rfl⟩ := Vector.mem_iff_getElem.1 hx
    exact h ⟨i, hi⟩

theorem endLayer_of_replaced {layer : LayerIndex} {intake : Nat}
    (h : (p.upTracks.get layer).map UpTrack.intake ≠ some intake) :
    p.endLayer layer intake = p.quiet := if_neg h

theorem endLayer_of_feeds {layer : LayerIndex} {intake : Nat}
    (h : (p.upTracks.get layer).map UpTrack.intake = some intake) :
    p.endLayer layer intake = andThen (p.without layer, p.farewell layer) closeIfEmpty := if_pos h

theorem without_empty_iff {layer : LayerIndex} :
    (p.without layer).upTrackCount = 0 ↔ ∀ l, l ≠ layer → p.upTracks.get l = none := by
  rw [upTrackCount_eq_zero_iff]
  simp only [without, get_set]
  constructor
  · intro h l hl
    have := h l
    rwa [if_neg (Ne.symm hl)] at this
  · intro h l
    split
    · rfl
    · rename_i hl
      exact h l (Ne.symm hl)

/-- The end of an intake is acted on if the intake feeds its layer. -/
theorem AtEnd.turned {f : Feed} (ends : p.AtEnd f) :
    p.Turned f ((p.dropFeed f).endLayer f.layer f.intake) := by
  by_cases own : p.Feeds f
  swap
  · rw [endLayer_of_replaced (p := p.dropFeed f) own]
    exact .replaced ends own
  rw [endLayer_of_feeds (p := p.dropFeed f) own]
  simp only [andThen, closeIfEmpty]
  by_cases last : p.FeedsAlone f
  · rw [if_pos ((without_empty_iff (p := p.dropFeed f)).2 last.2)]
    exact .lastEnded ends last
  · rw [if_neg fun empty => last ⟨own, (without_empty_iff (p := p.dropFeed f)).1 empty⟩]
    simp only [quiet, List.append_nil]
    exact .ended ends own last

theorem turned (p : Publication) (f : Feed) : p.Turned f (p.turn f) := by
  unfold turn
  by_cases live : f ∈ p.feeds
  swap
  · rw [if_neg live]
    exact .idle (fun _ next => live next.1) fun ends => live ends.1
  rw [if_pos live]
  cases found : p.intakes[f.intake]? with
  | none =>
    refine .idle (fun a next => ?_) fun ends => ?_
    · obtain ⟨-, i, hi, -⟩ := next
      rw [found] at hi
      cases hi
    · obtain ⟨-, i, hi, -⟩ := ends
      rw [found] at hi
      cases hi
  | some i =>
    dsimp only [Intake.read]
    cases queue : i.queue with
    | cons a rest => exact .handed live found queue
    | nil =>
      cases closed : i.closed with
      | true => exact AtEnd.turned ⟨live, i, found, queue, closed⟩
      | false =>
        refine .idle (fun a next => ?_) fun ends => ?_
        · obtain ⟨-, j, hj, ha⟩ := next
          cases found.symm.trans hj
          rw [queue] at ha
          cases ha
        · obtain ⟨-, j, hj, -, hc⟩ := ends
          cases found.symm.trans hj
          rw [closed] at hc
          cases hc

/-! ## What an act comes to -/

/-- What an act comes to, with each way that it can go. -/
inductive Performed (peerOf : Nat → String) (p : Publication) : Act → Result → Prop where
  | aside {a : Act} {q : Publication} (act : a.isAside = true) (alike : p.Alike q) :
      Performed peerOf p a q.quiet
  | refused {h : Nat} {ends : Bool} (no : p.admits (peerOf h) = false) :
      Performed peerOf p (.subscribe h ends) p.quiet
  | entered {h : Nat} (yes : p.admits (peerOf h) = true) :
      Performed peerOf p (.subscribe h false)
        ({ p with subscribers := p.subscribers.add (peerOf h) h },
          .deliver h (.trackType p.simulcast) :: p.greeting h)
  | enteredLast {h : Nat} (yes : p.admits (peerOf h) = true) :
      Performed peerOf p (.subscribe h true)
        (p.close.1, .deliver h (.trackType p.simulcast) :: (p.close.2 ++ p.close.1.greeting h))
  | stayed {peer : String} (closed : p.closed = true) : Performed peerOf p (.unsubscribe peer) p.quiet
  | left {peer : String} (opened : p.closed = false) :
      Performed peerOf p (.unsubscribe peer) (quiet { p with subscribers := p.subscribers.remove peer })
  | unfed {rid : String} {i : Intake} :
      Performed peerOf p (.addUpTrack rid i) (quiet { p with intakes := p.intakes ++ [i] })
  | fed {rid : String} {i : Intake} {layer : LayerIndex} (opened : p.closed = false) :
      Performed peerOf p (.addUpTrack rid i)
        ({ p with intakes := p.intakes ++ [i] }.feedLayer rid layer i.ssrc p.intakes.length)
  | paused {paused : Bool} : Performed peerOf p (.setPaused paused) (p.setPaused paused).quiet
  | expecting {layer : Int} : Performed peerOf p (.setMaxExpected layer) (p.setMaxExpected layer).quiet
  | advanced {nanos : Nat} : Performed peerOf p (.advance nanos) (p.onWatch (·.advance nanos))
  | delivered {layer : LayerIndex} :
    Performed peerOf p (.deliver layer) (p.onWatch fun w => w.deliverNext layer)
  | closed : Performed peerOf p .close p.close
  | read {f : Feed} {r : Result} (turned : p.Turned f r) : Performed peerOf p (.read f) r

theorem performed (p : Publication) (a : Act) : Performed peerOf p a (p.perform peerOf a) := by
  by_cases aside : a.isAside = true
  · obtain ⟨alike, silent⟩ := @perform_aside peerOf p a aside
    have quiet : p.perform peerOf a = (p.perform peerOf a).1.quiet := Prod.ext rfl silent
    rw [quiet]
    exact .aside aside alike
  cases a with
  | subscribe h ends =>
    rw [perform]
    cases yes : p.admits (peerOf h) with
    | false => rw [subscribe_refused yes]; exact .refused yes
    | true => cases ends with
      | false => rw [if_neg Bool.false_ne_true, subscribe_entered yes]; exact .entered yes
      | true => rw [if_pos rfl, subscribe_ending yes]; exact .enteredLast yes
  | unsubscribe peer =>
    rw [perform]
    cases closed : p.closed with
    | true => rw [unsubscribe_of_closed closed]; exact .stayed closed
    | false => rw [unsubscribe_of_open closed]; exact .left closed
  | addUpTrack rid i =>
    rw [perform]
    cases closed : p.closed with
    | true => rw [addUpTrack_refused i (.inl closed)]; exact .unfed
    | false => cases hl : layerIndex? (layerOfRid rid) with
      | none => rw [addUpTrack_refused i (.inr hl)]; exact .unfed
      | some layer => rw [addUpTrack_of_layer closed i hl]; exact .fed closed
  | setPaused paused => exact .paused
  | setMaxExpected layer => exact .expecting
  | advance nanos => exact .advanced
  | deliver => exact .delivered
  | close => exact .closed
  | read f => exact .read (turned p f)
  | _ => exact absurd rfl aside

end Publication
end Simulcast
