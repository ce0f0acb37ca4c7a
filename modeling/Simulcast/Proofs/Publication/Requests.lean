import Simulcast.Proofs.Publication.Act
import Simulcast.Proofs.Sorted

/-!
# Requests for key frames

Subscribers ask for key frames at any time, while the channel to the publisher is absent, full, or
has room. `Exchange` is a publication with a clock and with the requests made so far.

A request counts if its layer has a source and no other one of that layer counted less than the
request interval before (`Request.Fits`); the layers do not disturb each other. What counts is
handed to the channel if there is room. Otherwise it is lost, and still keeps those that follow it
from counting. So whoever asks while there is room is heard, or another one was heard less than
the interval before, if and only if no lost request came less than the interval before
(`served_iff`). `request_unheard` is a run where one did.
-/

namespace Simulcast

namespace Publication

/-- A request for a key frame of a layer, and what comes of it. -/
structure Request where
  layer : Int
  time : Time
  /-- The source of the layer, zero where there is none. -/
  source : UInt32
  /-- The layer has a source, and the request comes late enough after the one before. -/
  counts : Bool
  /-- The channel to the publisher is there, and not full. -/
  room : Bool
  /-- The batches that the channel gets. -/
  handed : List (List Octets)
  deriving DecidableEq

/-- The channel to the publisher is there, and not full. -/
def hasRoom (p : Publication) : Bool := p.channel.any FeedbackChannel.accepts

/-- The batches on their way to the publisher. -/
def pending (p : Publication) : List (List Octets) :=
  (p.channel.map FeedbackChannel.batches).getD []

/-- A request that is made now is not held back. -/
def letsThrough (p : Publication) (layer : Int) (now : Time) : Bool :=
  (layerIndex? layer).any fun i => p.ssrc layer != 0 && !p.isThrottled i now

/-- A request that is made now. -/
def request (p : Publication) (layer : Int) (now : Time) : Request where
  layer
  time := now
  source := p.ssrc layer
  counts := p.letsThrough layer now
  room := p.hasRoom
  handed := (p.askKeyFrame layer now).pending.drop p.pending.length

variable {p q : Publication} {layer : Int} {now : Time} {i : LayerIndex}

theorem letsThrough_eq_true_iff :
    p.letsThrough layer now = true ↔
      ∃ i, layerIndex? layer = some i ∧ p.ssrc layer ≠ 0 ∧ p.isThrottled i now = false := by
  rw [letsThrough]
  cases layerIndex? layer with
  | none => simp only [Option.any_none, Bool.false_eq_true, reduceCtorEq, false_and, exists_false]
  | some i =>
    simp only [Option.any_some, Bool.and_eq_true, bne_iff_ne, Bool.not_eq_true', Option.some.injEq,
      exists_eq_left']

theorem askKeyFrame_held (h : p.letsThrough layer now = false) : p.askKeyFrame layer now = p := by
  unfold askKeyFrame
  rw [letsThrough] at h
  cases hi : layerIndex? layer with
  | none => rfl
  | some i =>
    rw [hi, Option.any_some] at h
    refine if_pos ?_
    rcases Bool.and_eq_false_iff.1 h with none | throttled
    · exact .inl (bne_eq_false_iff_eq.1 none)
    · exact .inr (by rwa [Bool.not_eq_false'] at throttled)

theorem askKeyFrame_through (hi : layerIndex? layer = some i)
    (h : p.letsThrough layer now = true) :
    p.askKeyFrame layer now =
      { p with
        lastRequest := p.lastRequest.set i (some now) i.lt
        channel := p.channel.map fun c => c.offer [Rtcp.encodePictureLoss (p.ssrc layer)] } := by
  obtain ⟨j, hj, source, free⟩ := letsThrough_eq_true_iff.1 h
  cases hi.symm.trans hj
  unfold askKeyFrame
  rw [hi]
  refine if_neg ?_
  rw [free]
  exact fun held => held.elim source Bool.false_ne_true

/-- The batches on their way are joined by a request for the source, if it counts and there is
room. -/
theorem pending_askKeyFrame (p : Publication) (layer : Int) (now : Time) :
    (p.askKeyFrame layer now).pending = p.pending ++
      if p.letsThrough layer now = true ∧ p.hasRoom = true then
        [[Rtcp.encodePictureLoss (p.ssrc layer)]]
      else [] := by
  cases through : p.letsThrough layer now with
  | false =>
    rw [askKeyFrame_held through, if_neg fun h => Bool.false_ne_true h.1, List.append_nil]
  | true =>
    obtain ⟨i, hi, -⟩ := letsThrough_eq_true_iff.1 through
    rw [askKeyFrame_through hi through, hasRoom, pending, pending]
    cases p.channel with
    | none =>
      simp only [Option.any_none, Bool.false_eq_true, and_false, if_false, List.append_nil,
        Option.map_none]
    | some c =>
      simp only [Option.map_some, Option.getD_some, Option.any_some, FeedbackChannel.offer,
        true_and]
      split
      · rfl
      · exact (List.append_nil _).symm

theorem handed_request (p : Publication) (layer : Int) (now : Time) :
    (p.request layer now).handed =
      if (p.request layer now).counts = true ∧ (p.request layer now).room = true then
        [[Rtcp.encodePictureLoss (p.request layer now).source]]
      else [] := by
  rw [request, pending_askKeyFrame, List.drop_left]

/-! ## Acts that make no request -/

/-- Two publications with the same interval between requests, that remember the same ones. -/
structure Remembers (p q : Publication) : Prop where
  settings : q.settings = p.settings
  lastRequest : q.lastRequest = p.lastRequest

theorem Remembers.refl (p : Publication) : p.Remembers p := ⟨rfl, rfl⟩

theorem Remembers.trans {r : Publication} (h : p.Remembers q) (h' : q.Remembers r) :
    p.Remembers r :=
  ⟨h'.settings.trans h.settings, h'.lastRequest.trans h.lastRequest⟩

theorem remembers_close (p : Publication) : p.Remembers p.close.1 := by
  cases opened : p.closed with
  | true =>
    rw [close_of_closed opened]
    exact .refl p
  | false =>
    rw [close_of_open opened]
    exact ⟨rfl, rfl⟩

theorem remembers_measure (p : Publication) (now : Time) (layer : LayerIndex) :
    p.Remembers (measure now p layer) := by
  unfold measure
  split
  · exact .refl p
  · split <;> exact ⟨rfl, rfl⟩

theorem remembers_bitrates (p : Publication) (now : Time) : p.Remembers (p.bitrates now).1 := by
  suffices all : ∀ (ls : List LayerIndex) q, p.Remembers q →
      p.Remembers (ls.foldl (measure now) q) from all _ p (.refl p)
  intro ls
  induction ls with
  | nil => exact fun _ h => h
  | cons l ls ih => exact fun q h => ih _ (h.trans (remembers_measure q now l))

theorem remembers_write (p : Publication) (intake : Nat) (now : Time) (raw : Octets) :
    p.Remembers (p.perform peerOf (.write intake now raw)).1 := by
  simp only [perform, write]
  cases p.intakes[intake]? with
  | none => exact .refl p
  | some i =>
    dsimp only
    cases i.write now raw <;> exact ⟨rfl, rfl⟩

theorem Turned.remembers {f : Feed} {r : Result} (h : p.Turned f r) : p.Remembers r.1 := by
  cases h with
  | lastEnded =>
    have before : p.Remembers ((p.dropFeed f).without f.layer) := ⟨rfl, rfl⟩
    exact before.trans (remembers_close _)
  | _ => exact ⟨rfl, rfl⟩

theorem Performed.remembers {a : Act} {r : Result} (h : Performed peerOf p a r)
    (aside : a.isAside = false) : p.Remembers r.1 := by
  cases h with
  | aside act => cases act.symm.trans aside
  | enteredLast => exact remembers_close p
  | closed => exact remembers_close p
  | fed =>
    rw [feedLayer_eq]
    exact ⟨rfl, rfl⟩
  | read turned => exact turned.remembers
  | _ => exact ⟨rfl, rfl⟩

/-- Only a request is remembered. -/
theorem remembers_perform (p : Publication) {a : Act}
    (h : ∀ layer now, a ≠ .askKeyFrame layer now) :
    p.Remembers (p.perform peerOf a).1 := by
  cases aside : a.isAside with
  | false => exact (performed p a).remembers aside
  | true =>
    cases a with
    | write intake now raw => exact remembers_write p intake now raw
    | closeIntake => exact ⟨rfl, rfl⟩
    | measure now => exact remembers_bitrates p now
    | setChannel => exact ⟨rfl, rfl⟩
    | askKeyFrame layer now => exact absurd rfl (h layer now)
    | _ => cases aside

/-! ## Runs -/

/-- An act that goes by the clock: a request, or time going on. -/
def Act.isTimed : Act → Bool
  | .askKeyFrame _ _ | .advance _ => true
  | _ => false

end Publication

/-- A publication at some time, and the requests made so far, the last one first. -/
structure Exchange where
  publication : Publication
  now : Time := 0
  requests : List Publication.Request := []

namespace Exchange

open Publication

/-- What happens between a publication and its publisher. -/
inductive Move where
  | ask (layer : Int)
  | wait (nanos : Nat)
  /-- The publisher's side takes some batches out of the channel. -/
  | take (batches : Nat)
  /-- Anything else, the channel being set among it. -/
  | other (a : Act) (untimed : a.isTimed = false)

variable (peerOf : Nat → String)

/-- The state after a move. -/
def make (x : Exchange) : Move → Exchange
  | .ask layer =>
    { x with
      publication := x.publication.askKeyFrame layer x.now
      requests := x.publication.request layer x.now :: x.requests }
  | .wait nanos =>
    { x with
      publication := (x.publication.perform peerOf (.advance nanos)).1
      now := x.now + nanos }
  | .take batches =>
    { x with
      publication :=
        { x.publication with
          channel := x.publication.channel.map fun c =>
            { c with batches := c.batches.drop batches } } }
  | .other a _ => { x with publication := (x.publication.perform peerOf a).1 }

/-- The requests made on a run. -/
def requestsOn (o : Offer) (moves : List Move) : List Request :=
  (moves.foldl (make peerOf) { publication := o.published }).requests

end Exchange

namespace Publication

/-! ## What becomes of a request -/

/-- The request comes less than the interval behind another one of its layer. -/
def Request.Within (interval : Nat) (r o : Request) : Prop :=
  o.layer = r.layer ∧ r.time < o.time + interval

instance (interval : Nat) (r o : Request) : Decidable (r.Within interval o) :=
  inferInstanceAs (Decidable (_ ∧ _))

/-- What becomes of a request behind others: it counts if its layer has a source and none of them
that counts came less than the interval before, and it is handed out if it counts and there is
room. -/
structure Request.Fits (interval : Nat) (r : Request) (older : List Request) : Prop where
  counts : r.counts = true ↔ r.source ≠ 0 ∧ ∀ o ∈ older, o.counts = true → ¬r.Within interval o
  handed : r.handed =
    if r.counts = true ∧ r.room = true then [[Rtcp.encodePictureLoss r.source]] else []

/-- The request counts, but the channel is absent or full. -/
def Request.IsLost (r : Request) : Prop := r.counts = true ∧ r.room = false

instance (r : Request) : Decidable r.IsLost := inferInstanceAs (Decidable (_ ∧ _))

/-- Each request fits the ones before it. -/
def AllFit (interval : Nat) (rs : List Request) : Prop :=
  ∀ newer r older, rs = newer ++ r :: older → r.Fits interval older

/-- A request for a source that comes while there is room is handed out, or another one of its
layer was handed out less than the interval before. -/
def Served (interval : Nat) (rs : List Request) : Prop :=
  ∀ newer r older, rs = newer ++ r :: older → r.source ≠ 0 → r.room = true →
    r.handed = [[Rtcp.encodePictureLoss r.source]] ∨
      ∃ o ∈ older, o.handed ≠ [] ∧ r.Within interval o

/-- No request that comes while there is room has a lost one less than the interval before it. -/
def Unspoilt (interval : Nat) (rs : List Request) : Prop :=
  ∀ newer r older, rs = newer ++ r :: older → r.source ≠ 0 → r.room = true →
    ∀ o ∈ older, o.IsLost → ¬r.Within interval o

variable {interval : Nat} {r o : Request} {rs newer older : List Request}

theorem AllFit.nil (interval : Nat) : AllFit interval [] := by
  intro newer r older h
  cases newer <;> cases h

theorem AllFit.cons (h : AllFit interval rs) (hr : r.Fits interval rs) :
    AllFit interval (r :: rs) := by
  intro newer r' older hs
  cases newer with
  | nil =>
    obtain ⟨rfl, rfl⟩ := List.cons.inj hs
    exact hr
  | cons _ newer => exact h newer r' older (List.cons.inj hs).2

theorem Request.Fits.counts_of_handed (h : r.Fits interval older) (heard : r.handed ≠ []) :
    r.counts = true := by
  rw [h.handed] at heard
  by_contra held
  exact heard (if_neg fun both => held both.1)

theorem Request.Fits.handed_of_counts (h : r.Fits interval older) (counts : r.counts = true)
    (room : r.room = true) : r.handed = [[Rtcp.encodePictureLoss r.source]] := by
  rw [h.handed, if_pos ⟨counts, room⟩]

/-- Two requests of a layer that count are an interval apart. -/
theorem AllFit.spaced (h : AllFit interval rs) :
    rs.Pairwise fun r o => r.counts = true → o.counts = true → ¬r.Within interval o := by
  induction rs with
  | nil => exact .nil
  | cons r rs ih =>
    have rest : AllFit interval rs := fun newer r' older hs =>
      h (r :: newer) r' older (congrArg (r :: ·) hs)
    refine .cons (fun o ho counts counts' => ?_) (ih rest)
    exact ((h [] r rs rfl).counts.1 counts).2 o ho counts'

theorem AllFit.of_mem (h : AllFit interval rs) (ho : o ∈ rs) : ∃ older, o.Fits interval older := by
  obtain ⟨newer, older, hs⟩ := List.append_of_mem ho
  exact ⟨older, h newer o older hs⟩

theorem AllFit.of_older (h : AllFit interval rs) (hs : rs = newer ++ r :: older) (ho : o ∈ older) :
    ∃ past, o.Fits interval past := by
  refine h.of_mem ?_
  rw [hs]
  exact List.mem_append_right _ (List.mem_cons_of_mem _ ho)

/-- If a request comes less than the interval behind one that counts, the one that counted before
that is farther off. -/
theorem Request.not_within_both {x y : Request} (apart : ¬x.Within interval y)
    (past : x.time ≤ r.time) (near : r.Within interval x) : ¬r.Within interval y := by
  intro near'
  have far : ¬x.time < y.time + interval := fun close => apart ⟨near'.1.trans near.1.symm, close⟩
  exact Nat.not_lt.2 ((Nat.not_lt.1 far).trans past) near'.2

/-- At most one request of a layer counts in less than the interval before another one. -/
theorem AllFit.eq_of_within (h : AllFit interval rs)
    (sorted : rs.Pairwise fun r o => o.time ≤ r.time) (hs : rs = newer ++ r :: older)
    {o o' : Request} (ho : o ∈ older) (ho' : o' ∈ older) (counts : o.counts = true)
    (counts' : o'.counts = true) (within : r.Within interval o) (within' : r.Within interval o') :
    o = o' := by
  subst hs
  have past := List.rel_of_pairwise_cons (List.pairwise_append.1 sorted).2.1 ho
  have past' := List.rel_of_pairwise_cons (List.pairwise_append.1 sorted).2.1 ho'
  have spaced := (List.pairwise_cons.1 (List.pairwise_append.1 h.spaced).2.1).2
  obtain ⟨front, back, rfl⟩ := List.append_of_mem ho
  obtain ⟨-, behind, between⟩ := List.pairwise_append.1 spaced
  rcases List.mem_append.1 ho' with first | second
  · have apart := between o' first o List.mem_cons_self counts' counts
    exact absurd within (Request.not_within_both apart past' within')
  · rcases List.mem_cons.1 second with same | last
    · exact same.symm
    · have apart := List.rel_of_pairwise_cons behind last counts counts'
      exact absurd within' (Request.not_within_both apart past within)

/-- Requests are served if and only if none is spoilt by a lost one. -/
theorem AllFit.served_iff (h : AllFit interval rs)
    (sorted : rs.Pairwise fun r o => o.time ≤ r.time) :
    Served interval rs ↔ Unspoilt interval rs := by
  constructor
  · intro served newer r older hs source room o ho lost within
    rcases served newer r older hs source room with heard | ⟨o', ho', heard, within'⟩
    · have counts := (h newer r older hs).counts_of_handed
        (by rw [heard]; exact List.cons_ne_nil _ _)
      exact ((h newer r older hs).counts.1 counts).2 o ho lost.1 within
    · obtain ⟨_, fits⟩ := h.of_older hs ho'
      have counts' := fits.counts_of_handed heard
      obtain rfl := h.eq_of_within sorted hs ho ho' lost.1 counts' within within'
      rw [fits.handed, if_neg fun both => Bool.false_ne_true (lost.2.symm.trans both.2)] at heard
      exact heard rfl
  · intro unspoilt newer r older hs source room
    have fits := h newer r older hs
    by_cases counts : r.counts = true
    · exact .inl (fits.handed_of_counts counts room)
    · right
      have held := mt fits.counts.2 counts
      simp only [not_and, not_forall, not_not] at held
      obtain ⟨o, ho, counts', within⟩ := held source
      have kept := unspoilt newer r older hs source room o ho
      have room' : o.room = true := by
        by_contra full
        exact kept ⟨counts', Bool.eq_false_iff.2 full⟩ within
      obtain ⟨_, fits'⟩ := h.of_older hs ho
      refine ⟨o, ho, ?_, within⟩
      rw [fits'.handed_of_counts counts' room']
      exact List.cons_ne_nil _ _

/-! ## What is remembered -/

variable {p : Publication} {layer : Int} {i : LayerIndex}

/-- The last request of a layer that counted. -/
def lastCounted? (rs : List Request) (i : LayerIndex) : Option Request :=
  rs.find? fun r => r.counts && r.layer == (i.val : Int)

theorem lastCounted?_cons (r : Request) (rs : List Request) (i : LayerIndex) :
    lastCounted? (r :: rs) i =
      if r.counts = true ∧ r.layer = (i.val : Int) then some r else lastCounted? rs i := by
  rw [lastCounted?, List.find?_cons]
  cases counts : r.counts with
  | false => rw [if_neg fun h => Bool.false_ne_true h.1]; rfl
  | true =>
    by_cases same : r.layer = (i.val : Int)
    · rw [if_pos ⟨rfl, same⟩, same, beq_self_eq_true]; rfl
    · rw [if_neg fun h => same h.2, beq_false_of_ne same]; rfl

theorem eq_val_of_layerIndex? (h : layerIndex? layer = some i) : layer = (i.val : Int) := by
  unfold layerIndex? at h
  split at h
  · split at h
    · cases h
      exact (Int.toNat_of_nonneg ‹_›).symm
    · cases h
  · cases h

/-- Only a layer that can be sent has a source. -/
theorem exists_layerIndex? (h : p.ssrc layer ≠ 0) : ∃ i, layerIndex? layer = some i := by
  cases hi : layerIndex? layer with
  | some i => exact ⟨i, rfl⟩
  | none =>
    rw [ssrc, upTrack?, hi] at h
    exact absurd rfl h

end Publication

namespace Exchange

open Publication

variable {peerOf : Nat → String} {interval : Nat} {x : Exchange}

/-- What a publication knows of the requests made so far. -/
structure Knows (x : Exchange) (interval : Nat) : Prop where
  settings : x.publication.settings.requestInterval = interval
  lastRequest : ∀ i, x.publication.lastRequest.get i = (lastCounted? x.requests i).map Request.time
  past : ∀ r ∈ x.requests, r.time ≤ x.now
  sorted : x.requests.Pairwise fun r o => o.time ≤ r.time
  fits : AllFit interval x.requests

/-- A layer is throttled by the requests of that layer. -/
theorem Knows.isThrottled_iff (k : x.Knows interval) (i : LayerIndex) :
    x.publication.isThrottled i x.now = true ↔
      ∃ o ∈ x.requests, o.counts = true ∧ o.layer = (i.val : Int) ∧ x.now < o.time + interval := by
  rw [isThrottled, k.lastRequest, k.settings]
  cases found : lastCounted? x.requests i with
  | none =>
    refine iff_of_false Bool.false_ne_true ?_
    rintro ⟨o, ho, counts, same, -⟩
    have fails := List.find?_eq_none.1 found o ho
    rw [counts, same, beq_self_eq_true] at fails
    exact fails rfl
  | some r =>
    have mem := List.mem_of_find?_eq_some found
    have past := k.past r mem
    have kind := List.find?_some found
    rw [Bool.and_eq_true, beq_iff_eq] at kind
    simp only [Option.map_some, decide_eq_true_eq]
    rw [Nat.sub_lt_iff_lt_add past, Nat.add_comm]
    constructor
    · intro near
      exact ⟨r, mem, kind.1, kind.2, near⟩
    · rintro ⟨o, ho, counts, same, near⟩
      have later : o.time ≤ r.time := by
        rcases rel_of_find? k.sorted found ho
          (by rw [counts, same, beq_self_eq_true]; rfl) with rfl | later
        · exact Nat.le_refl _
        · exact later
      exact near.trans_le (Nat.add_le_add_right later interval)

/-- A request that is made now fits the ones before it. -/
theorem Knows.request_fits (k : x.Knows interval) (layer : Int) :
    (x.publication.request layer x.now).Fits interval x.requests := by
  refine ⟨?_, handed_request _ _ _⟩
  change x.publication.letsThrough layer x.now = true ↔ x.publication.ssrc layer ≠ 0 ∧ _
  rw [letsThrough_eq_true_iff]
  have throttled {i : LayerIndex} (hi : layerIndex? layer = some i) :
      x.publication.isThrottled i x.now = false ↔
        ∀ o ∈ x.requests, o.counts = true →
          ¬(x.publication.request layer x.now).Within interval o := by
    rw [← Bool.not_eq_true, k.isThrottled_iff, ← eq_val_of_layerIndex? hi]
    simp only [not_exists, not_and]
    exact forall₃_congr fun o _ _ => not_and.symm
  constructor
  · rintro ⟨i, hi, source, free⟩
    exact ⟨source, (throttled hi).1 free⟩
  · rintro ⟨source, free⟩
    obtain ⟨i, hi⟩ := exists_layerIndex? source
    exact ⟨i, hi, source, (throttled hi).2 free⟩

/-- A move without a request keeps what is known. -/
theorem Knows.of_remembers {q : Publication} {now : Time} (k : x.Knows interval)
    (h : x.publication.Remembers q) (later : x.now ≤ now) :
    Knows { x with publication := q, now } interval where
  settings := (congrArg PublicationSettings.requestInterval h.settings).trans k.settings
  lastRequest i := (congrArg (·.get i) h.lastRequest).trans (k.lastRequest i)
  past r hr := (k.past r hr).trans later
  sorted := k.sorted
  fits := k.fits

theorem Knows.ask (k : x.Knows interval) (layer : Int) :
    (x.make peerOf (.ask layer)).Knows interval := by
  have fits := k.request_fits layer
  refine ⟨?_, fun j => ?_, List.forall_mem_cons.2 ⟨Nat.le_refl _, k.past⟩,
    List.pairwise_cons.2 ⟨k.past, k.sorted⟩, k.fits.cons fits⟩
  · exact (congrArg PublicationSettings.requestInterval
      (alike_askKeyFrame x.publication layer x.now).settings).trans k.settings
  · change (x.publication.askKeyFrame layer x.now).lastRequest.get j =
      (lastCounted? (x.publication.request layer x.now :: x.requests) j).map Request.time
    rw [lastCounted?_cons]
    change _ = (if x.publication.letsThrough layer x.now = true ∧ layer = (j.val : Int)
      then some (x.publication.request layer x.now) else _).map Request.time
    cases through : x.publication.letsThrough layer x.now with
    | false =>
      rw [askKeyFrame_held through, if_neg fun h => Bool.false_ne_true h.1, k.lastRequest]
    | true =>
      obtain ⟨i, hi, -⟩ := letsThrough_eq_true_iff.1 through
      have place := eq_val_of_layerIndex? hi
      rw [askKeyFrame_through hi through, get_set]
      by_cases same : i = j
      · rw [if_pos same, if_pos ⟨rfl, same ▸ place⟩]
        rfl
      · have other : layer ≠ (j.val : Int) := fun h =>
          same (Fin.ext (Int.ofNat_inj.1 (place.symm.trans h)))
        rw [if_neg same, if_neg fun h => other h.2, k.lastRequest]

theorem Knows.make (k : x.Knows interval) (m : Move) : (x.make peerOf m).Knows interval := by
  cases m with
  | ask layer => exact k.ask layer
  | wait nanos =>
    exact k.of_remembers (remembers_perform _ fun _ _ => Act.noConfusion) (Nat.le_add_right _ _)
  | take batches => exact k.of_remembers ⟨rfl, rfl⟩ (Nat.le_refl _)
  | other a untimed =>
    refine k.of_remembers (remembers_perform _ fun layer now h => ?_) (Nat.le_refl _)
    rw [h] at untimed
    cases untimed

theorem knows_foldl (k : x.Knows interval) (moves : List Move) :
    (moves.foldl (Exchange.make peerOf) x).Knows interval := by
  induction moves generalizing x with
  | nil => exact k
  | cons m moves ih => exact ih (k.make m)

theorem knows_run (o : Offer) (moves : List Move) :
    (moves.foldl (Exchange.make peerOf) { publication := o.published }).Knows
      o.settings.requestInterval :=
  knows_foldl
    { settings := rfl
      lastRequest := fun i => Vector.getElem_replicate i.isLt
      past := fun _ hr => absurd hr List.not_mem_nil
      sorted := .nil
      fits := .nil _ } moves

/-- On every run, with the channel absent, full or with room at any time: who asks while there is
room is heard, or another one was heard less than the interval before, if and only if no lost
request came less than the interval before. What is handed out for a layer is always an interval
apart. -/
theorem requests_served_iff (peerOf : Nat → String) (o : Offer) (moves : List Move) :
    let rs := requestsOn peerOf o moves
    let interval := o.settings.requestInterval
    (Served interval rs ↔ Unspoilt interval rs) ∧ AllFit interval rs ∧
      rs.Pairwise fun r o => r.handed ≠ [] → o.handed ≠ [] → ¬r.Within interval o := by
  intro rs interval
  have k := @knows_run peerOf o moves
  have fits : AllFit interval rs := k.fits
  refine ⟨fits.served_iff k.sorted, fits, fits.spaced.imp_of_mem ?_⟩
  intro r o hr ho spaced heard heard'
  obtain ⟨_, fit⟩ := fits.of_mem hr
  obtain ⟨_, fit'⟩ := fits.of_mem ho
  exact spaced (fit.counts_of_handed heard) (fit'.counts_of_handed heard')

/-- The publisher is asked before the channel to it is set, and again right after. -/
def unreached : List Move :=
  [.other (.addUpTrack "q" videoIntake) rfl, .ask 0, .other (.setChannel 8) rfl, .ask 0]

/-- The second request is not handed out, although there is room and none was before. -/
theorem request_unheard :
    (requestsOn (fun _ => "") Offer.video unreached).map
        (fun r => (r.time, r.source, r.counts, r.room, r.handed)) =
      [(0, 1234, false, true, []), (0, 1234, true, false, [])] ∧
    ¬Served Offer.video.settings.requestInterval
      (requestsOn (fun _ => "") Offer.video unreached) := by
  refine ⟨rfl, fun served => ?_⟩
  rcases served [] _ [_] rfl (by decide) rfl with heard | ⟨o, ho, heard, -⟩
  · cases heard
  · obtain rfl := List.mem_singleton.1 ho
    exact heard rfl

end Exchange
end Simulcast
