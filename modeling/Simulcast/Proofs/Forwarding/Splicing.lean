import Simulcast.Proofs.Forwarding.Admission
import Simulcast.Proofs.Forwarding.Resumption

/-!
# Sources spliced into one stream

Audio, and video whose pictures are not numbered, has one numbering. While the packets of
one source after the other pass a forwarder, and packets of the relay's own are added, what
the subscriber gets is one stream: `log_spliced` says that each of its `Event`s fits the
`Trail` of those before it.

* The numbers follow each other (`Trail.Spliced.consecutive`).
* A new source goes on by the time between the packets, at least by a tick, and by one tick
  for audio; within a source the timestamps only shift by what packets of the relay's own
  went ahead (`Trail.Ticks`).

`Stands` ties a forwarder to the trail; a packet keeps it (`Follows.forward`), and so do
packets of the relay's own (`Follows.generated`).
-/

namespace Simulcast

/-- What a subscriber's stream is made of, in the order in which it comes up. -/
inductive Event where
  | sent (a : Arrival) (p : Place)
  | leftOut (a : Arrival)
  | refused (a : Arrival) (e : Fault)
  /-- A packet of the relay's own. -/
  | generated (p : Place)

namespace Event

/-- The place that is handed out. -/
def place : Event → Option Place
  | sent _ p | generated p => some p
  | leftOut _ | refused _ _ => none

end Event

/-- What a stream has come to, from its first packet on. -/
structure Trail where
  /-- The place that was handed out last. -/
  last : Place
  /-- The last packet of a source. -/
  packet : Arrival
  /-- The last packet of a source that was sent. -/
  sent : Arrival
  /-- The place of that one. -/
  sentAt : Place

namespace Trail

/-- The trail behind an event. -/
def next : Option Trail → Event → Option Trail
  | _, .sent a p => some { last := p, packet := a, sent := a, sentAt := p }
  | t, .leftOut a => t.map fun t => { t with packet := a }
  | t, .refused _ _ => t
  | t, .generated p => t.map fun t => { t with last := p }

/-- The timestamp of a packet that is sent. Within a source, the way from it to that of the
source only changes by what packets of the relay's own went ahead. A new source goes on by
the time between the packets, at least by a tick. -/
def Ticks (kind : MediaKind) (clockRate : UInt32) (t : Trail) (a : Arrival) (p : Place) : Prop :=
  if a.ssrc = t.packet.ssrc then
    a.timestamp - p.timestamp =
      (t.sent.timestamp - t.sentAt.timestamp) - (t.last.timestamp - t.sentAt.timestamp)
  else
    (p.timestamp - t.last.timestamp).toNat =
      match kind with
      | .audio => 1
      | .video =>
        max 1 (min ((a.time - t.packet.time) / nanosPerMilli * clockRate.toNat / 1000) 0xffffffff)

/-- The event goes on where the trail ends. -/
def Fits (kind : MediaKind) (clockRate : UInt32) : Option Trail → Event → Prop
  | none, .sent a p => a.carriesMedia = true ∧ p = ⟨a.number, a.timestamp⟩
  | some t, .sent a p =>
    a.carriesMedia = true ∧ p.number = t.last.number + 1 ∧ t.Ticks kind clockRate a p
  | some _, .leftOut a => a.carriesMedia = false
  | some t, .generated p => p.number = t.last.number + 1
  | _, _ => False

/-- Each event goes on where the ones before it end. -/
def Spliced (kind : MediaKind) (clockRate : UInt32) : Option Trail → List Event → Prop
  | _, [] => True
  | t, e :: es => Fits kind clockRate t e ∧ Spliced kind clockRate (next t e) es

end Trail

namespace Forwarder

/-- What a command adds to the stream. -/
def events (f : Forwarder) : Command → List Event
  | .forward a layer =>
    match (f.forward a layer).2, f.sentAt a layer with
    | .error e, _ => [.refused a e]
    | .ok _, some p => [.sent a p]
    | .ok _, none => [.leftOut a]
  | .padding count =>
    match (f.padding count).2 with
    | .ok places => places.map .generated
    | .error _ => []
  | .blankFrames =>
    match f.blankFrames.2 with
    | .ok (places, _) => places.map .generated
    | .error _ => []
  | _ => []

/-- What a run adds to the stream. -/
def log (f : Forwarder) : List Command → List Event
  | [] => []
  | c :: cs => f.events c ++ (f.perform c).log cs

/-- The packet follows the one before it in its source, or is the first of another source,
with media. -/
def GoesOnOrStarts (prev : Option Arrival) (a : Arrival) : Prop :=
  match prev with
  | none => a.carriesMedia = true
  | some b => if a.ssrc = b.ssrc then a.number = b.number + 1 else a.carriesMedia = true

/-- The packets are those of one source after the other, none of them lost or late, and all
of them are admitted. Packets of the relay's own come behind the first one. -/
def Stretches (f : Forwarder) (prev : Option Arrival) : List Command → Prop
  | [] => True
  | .forward a layer :: cs =>
    (a.head = true ∧ a.ssrc ≠ 0 ∧ f.Admits a layer ∧ GoesOnOrStarts prev a) ∧
      (f.forward a layer).1.Stretches (some a) cs
  | c :: cs => (c.isQuiet = true ∨ prev.isSome = true) ∧ (f.perform c).Stretches prev cs

/-- The state of a forwarder behind a trail. -/
structure Stands (f : Forwarder) (t : Trail) : Prop where
  started : f.started = true
  lastSsrc : f.lastSsrc = t.packet.ssrc
  lastArrival : f.kind = .video → f.lastArrival = some t.packet.time
  highest : f.numbering.highest = t.packet.number
  last : f.numbering.last = t.last
  reach : f.numbering.reach = t.last.number
  timestampOffset : f.numbering.timestampOffset = t.sent.timestamp - t.last.timestamp

/-- The state of a forwarder before its first packet. -/
structure Untouched (f : Forwarder) : Prop where
  started : f.started = false
  lastSsrc : f.lastSsrc = 0
  offset : f.numbering.offset = 0
  timestampOffset : f.numbering.timestampOffset = 0

/-- What holds of the forwarder all along. -/
structure Follows (f : Forwarder) (kind : MediaKind) (clockRate : UInt32) (t : Option Trail) :
    Prop where
  kind : f.kind = kind
  clockRate : f.codec.clockRate = clockRate
  plain : f.IsPlain
  stands : match t with
    | none => f.Untouched
    | some t => f.Stands t

end Forwarder

/-! ## The numbering -/

namespace Numbering

variable {n : Numbering} {a : Arrival}

/-- The last generated packet is the last one of the subscriber's stream, and what it went
ahead is taken off the timestamps of the source. -/
theorem generate_last {count : Nat} {clockRate frameRate : UInt32} {force : Bool}
    {places : List Place} (h : (n.generate count clockRate frameRate force).2 = .ok places) :
    let n' := (n.generate count clockRate frameRate force).1
    n'.last = places.getLastD n.last ∧
      n'.timestampOffset =
        n.timestampOffset - ((places.getLastD n.last).timestamp - n.last.timestamp) := by
  unfold generate at h ⊢
  split at h
  · cases h
  · rename_i allowed
    rw [if_neg allowed]
    dsimp only at h ⊢
    cases hl :
        (n.generatedPlaces count (tickStep clockRate frameRate) (!n.lastMarker)).getLast? with
    | none =>
      rw [hl] at h
      cases h
      refine ⟨rfl, ?_⟩
      rw [List.getLastD_nil, UInt32.sub_self, UInt32.sub_zero]
    | some last =>
      rw [hl] at h
      cases h
      rw [List.getLastD_eq_getLast?, hl]
      exact ⟨rfl, rfl⟩

/-- The source stands behind generated packets where it stood behind the last one. -/
theorem generate_reach {count : Nat} {clockRate frameRate : UInt32} {force : Bool}
    {places : List Place} (h : (n.generate count clockRate frameRate force).2 = .ok places) :
    let n' := (n.generate count clockRate frameRate force).1
    places.map Place.number = numbersAfter n.last.number count ∧ n'.highest = n.highest ∧
      n'.reach - n'.last.number = n.reach - n.last.number := by
  cases count with
  | zero =>
    unfold generate at h ⊢
    split at h
    · cases h
    · rename_i allowed
      cases h
      rw [if_neg allowed]
      exact ⟨rfl, rfl, rfl⟩
  | succ count =>
    obtain ⟨numbers, highest, reach, last⟩ := generate_ok (Nat.succ_pos count) h
    refine ⟨numbers, highest, ?_⟩
    rw [reach, last]
    grind

end Numbering

/-- Numbers behind one go on behind it. -/
theorem chain_numbersAfter (last : UInt16) (count : Nat) :
    Consecutive (last :: numbersAfter last count) := by
  induction count generalizing last with
  | zero => exact List.isChain_singleton last
  | succ count ih =>
    rw [numbersAfter_cons]
    exact List.isChain_cons_cons.2 ⟨rfl, ih (last + 1)⟩

/-! ## Trails -/

namespace Trail

variable {kind : MediaKind} {clockRate : UInt32} {t : Trail}

theorem spliced_append {t : Option Trail} {es es' : List Event} :
    Spliced kind clockRate t (es ++ es') ↔
      Spliced kind clockRate t es ∧ Spliced kind clockRate (es.foldl next t) es' := by
  induction es generalizing t with
  | nil => exact (and_iff_right trivial).symm
  | cons e es ih => rw [List.cons_append, Spliced, Spliced, ih, List.foldl_cons, and_assoc]

/-- The trail behind places of the relay's own. -/
theorem foldl_next_generated (places : List Place) :
    (places.map Event.generated).foldl next (some t) =
      some { t with last := places.getLastD t.last } := by
  induction places generalizing t with
  | nil => rfl
  | cons p places ih =>
    rw [List.map_cons, List.foldl_cons, next, Option.map_some, ih, List.getLastD_cons]

/-- Consecutive places of the relay's own go on where the trail ends. -/
theorem spliced_generated {places : List Place}
    (h : Consecutive (t.last.number :: places.map Place.number)) :
    Spliced kind clockRate (some t) (places.map Event.generated) := by
  induction places generalizing t with
  | nil => trivial
  | cons p places ih =>
    obtain ⟨number, rest⟩ := List.isChain_cons_cons.1 h
    exact ⟨number, ih (t := { t with last := p }) rest⟩

/-- The numbers of spliced events follow each other. -/
theorem Spliced.consecutive {es : List Event} (h : Spliced kind clockRate (some t) es) :
    Consecutive (t.last.number :: (es.filterMap Event.place).map Place.number) := by
  induction es generalizing t with
  | nil => exact List.isChain_singleton _
  | cons e es ih =>
    obtain ⟨fits, h⟩ := h
    cases e with
    | sent a p => exact List.isChain_cons_cons.2 ⟨fits.2.1, ih h⟩
    | leftOut a => exact ih (t := { t with packet := a }) h
    | refused a e => exact fits.elim
    | generated p => exact List.isChain_cons_cons.2 ⟨fits, ih h⟩

end Trail

namespace Forwarder

variable {f : Forwarder} {a : Arrival} {layer : Int} {kind : MediaKind} {clockRate : UInt32}
  {t : Trail}

/-! ## Packets -/

theorem toNat_ticksIn (clockRate : UInt32) (nanos : Nat) :
    (ticksIn clockRate nanos).toNat =
      max 1 (min (nanos / nanosPerMilli * clockRate.toNat / 1000) 0xffffffff) := by
  rw [ticksIn, UInt32.toNat_ofNat']
  omega

/-- The numbering that a packet meets, next to which it stands and which gives it a fitting
place. -/
structure Meets (kind : MediaKind) (clockRate : UInt32) (t : Option Trail) (n : Numbering)
    (a : Arrival) : Prop where
  next : a.number = n.highest + 1
  fits : a.carriesMedia = true → Trail.Fits kind clockRate t (.sent a (n.placeOf a))

theorem Untouched.meets (h : f.Untouched) (hs : a.ssrc ≠ 0) :
    Meets kind clockRate none (f.numberingFor a) a := by
  have fresh : ¬f.lastSsrc = a.ssrc := fun he => hs (he.symm.trans h.lastSsrc)
  have met : f.numberingFor a = f.numbering.start a := by
    rw [numberingFor, takeSource, if_neg fresh, h.started]
    rfl
  rw [met]
  refine ⟨(UInt16.sub_add_cancel _ _).symm, fun hm => ⟨hm, ?_⟩⟩
  have offset : (f.numbering.start a).offset = 0 := h.offset
  have timestampOffset : (f.numbering.start a).timestampOffset = 0 := h.timestampOffset
  rw [Numbering.placeOf, offset, timestampOffset, UInt16.sub_zero, UInt32.sub_zero]

/-- Within a source, the numbering goes on as it is. -/
theorem Stands.meets_same (h : f.Stands t) (hs : a.ssrc = t.packet.ssrc)
    (hn : a.number = t.packet.number + 1) :
    f.numberingFor a = f.numbering ∧ Meets kind clockRate (some t) f.numbering a := by
  have met : f.numberingFor a = f.numbering := by
    rw [numberingFor, takeSource, if_pos (h.lastSsrc.trans hs.symm)]
  have next : a.number = f.numbering.highest + 1 := by rw [hn, h.highest]
  refine ⟨met, next, fun hm => ⟨hm, ?_, ?_⟩⟩
  · have reach : f.numbering.highest - f.numbering.offset = t.last.number := h.reach
    rw [Numbering.placeOf, next, ← reach]
    grind
  · unfold Trail.Ticks
    rw [if_pos hs, Numbering.placeOf, h.timestampOffset]
    grind

/-- A new source goes on behind the last place. -/
theorem Stands.meets_other (h : f.Stands t) (hk : f.kind = kind)
    (hr : f.codec.clockRate = clockRate) (hs : a.ssrc ≠ t.packet.ssrc) :
    Meets kind clockRate (some t) (f.numberingFor a) a := by
  have change : ¬f.lastSsrc = a.ssrc := fun he => hs (he.symm.trans h.lastSsrc)
  have met : f.numberingFor a = f.numbering.changeSource a 1 (f.ticksFor a) := by
    rw [numberingFor, takeSource, if_neg change, h.started]
    rfl
  rw [met]
  refine ⟨(UInt16.sub_add_cancel _ _).symm, fun hm => ⟨hm, ?_, ?_⟩⟩
  · simp only [Numbering.placeOf, Numbering.changeSource, h.last]
    grind
  · have ticks : (((f.numbering.changeSource a 1 (f.ticksFor a)).placeOf a).timestamp -
        t.last.timestamp) = f.ticksFor a := by
      simp only [Numbering.placeOf, Numbering.changeSource, h.last]
      grind
    unfold Trail.Ticks
    rw [if_neg hs, ticks, ticksFor]
    subst hk
    cases hk : f.kind with
    | audio => rfl
    | video =>
      dsimp only
      rw [ticksSince, h.lastArrival hk]
      dsimp only
      rw [toNat_ticksIn, hr]

/-- A packet finds its place, and one without media follows directly in its source. -/
theorem Follows.meets {t : Option Trail} (h : f.Follows kind clockRate t) (hs : a.ssrc ≠ 0)
    (hg : GoesOnOrStarts (t.map Trail.packet) a) :
    Meets kind clockRate t (f.numberingFor a) a ∧
      (a.carriesMedia = false → ∃ t', t = some t' ∧ f.numberingFor a = f.numbering) := by
  cases t with
  | none =>
    have media : a.carriesMedia = true := hg
    exact ⟨Untouched.meets h.stands hs, fun hm => Bool.noConfusion (media.symm.trans hm)⟩
  | some t =>
    have stands : f.Stands t := h.stands
    have goesOn : if a.ssrc = t.packet.ssrc then a.number = t.packet.number + 1
      else a.carriesMedia = true := hg
    by_cases same : a.ssrc = t.packet.ssrc
    · rw [if_pos same] at goesOn
      have met : f.numberingFor a = f.numbering ∧ Meets kind clockRate (some t) f.numbering a :=
        stands.meets_same same goesOn
      rw [met.1]
      exact ⟨met.2, fun _ => ⟨t, rfl, rfl⟩⟩
    · rw [if_neg same] at goesOn
      exact ⟨stands.meets_other h.kind h.clockRate same,
        fun hm => Bool.noConfusion (goesOn.symm.trans hm)⟩

/-- Kind, clock and pictures stay what they are as long as they do behind the gate. -/
theorem Follows.congr {g : Forwarder} {t t' : Option Trail} (h : f.Follows kind clockRate t)
    (hkind : g.kind = f.kind) (hcodec : g.codec = f.codec) (hpics : g.pictures = f.pictures)
    (stands : match t' with
      | none => g.Untouched
      | some t => g.Stands t) : g.Follows kind clockRate t' where
  kind := hkind.trans h.kind
  clockRate := (congrArg Codec.clockRate hcodec).trans h.clockRate
  plain := h.plain.imp hkind.trans hpics.trans
  stands := stands

/-- From the first packet on, a source has been taken up. -/
theorem Follows.starts {t : Option Trail} (h : f.Follows kind clockRate t) (hs : a.ssrc ≠ 0) :
    (f.started || f.lastSsrc != a.ssrc) = true := by
  cases t with
  | none =>
    have untouched : f.Untouched := h.stands
    rw [untouched.lastSsrc, Bool.or_eq_true, bne_iff_ne]
    exact .inr hs.symm
  | some t =>
    have stands : f.Stands t := h.stands
    rw [stands.started, Bool.true_or]

/-- A packet leaves the forwarder behind a trail that ends with it, if the numbering does. -/
theorem Follows.stands_behind {g : Forwarder} {n : Numbering} {t : Option Trail} {t' : Trail}
    (h : f.Follows kind clockRate t) (hs : a.ssrc ≠ 0)
    (hb : g.behind =
      { f.behind with
        started := f.started || f.lastSsrc != a.ssrc
        lastSsrc := a.ssrc
        lastArrival := match f.kind with
          | .audio => f.lastArrival
          | .video => some a.time
        numbering := n })
    (packet : t'.packet = a) (highest : n.highest = a.number) (last : n.last = t'.last)
    (reach : n.reach = t'.last.number)
    (timestampOffset : n.timestampOffset = t'.sent.timestamp - t'.last.timestamp) :
    g.Follows kind clockRate (some t') := by
  have numbering : g.numbering = n := congrArg Behind.numbering hb
  refine h.congr (congrArg Behind.kind hb) (congrArg Behind.codec hb) (congrArg Behind.pictures hb)
    ⟨?_, ?_, fun hv => ?_, ?_, ?_, ?_, ?_⟩
  · exact (congrArg Behind.started hb).trans (h.starts hs)
  · rw [packet]
    exact congrArg Behind.lastSsrc hb
  · have arrival := congrArg Behind.lastArrival hb
    rw [show f.kind = .video from (congrArg Behind.kind hb).symm.trans hv] at arrival
    rw [packet]
    exact arrival
  · rw [numbering, packet, highest]
  · rw [numbering, last]
  · rw [numbering, reach]
  · rw [numbering, timestampOffset]

theorem Follows.forward {t : Option Trail} (h : f.Follows kind clockRate t) (hh : a.head = true)
    (hs : a.ssrc ≠ 0) (ha : f.Admits a layer) (hg : GoesOnOrStarts (t.map Trail.packet) a) :
    Trail.Spliced kind clockRate t (f.events (.forward a layer)) ∧
      (f.forward a layer).1.Follows kind clockRate
        ((f.events (.forward a layer)).foldl Trail.next t) ∧
      ((f.events (.forward a layer)).foldl Trail.next t).map Trail.packet = some a := by
  obtain ⟨meets, padding⟩ := h.meets hs hg
  obtain ⟨⟨ask, result⟩, behind⟩ := forward_plain h.plain ha
  rw [Numbering.place, if_pos hh] at result behind
  by_cases hm : a.carriesMedia = true
  · rw [Numbering.placeHead_next hm meets.next] at result behind
    have events : f.events (.forward a layer) = [.sent a ((f.numberingFor a).placeOf a)] := by
      simp only [events, sentAt, result, decisionFor]
      rfl
    have timestampOffset : (f.numberingFor a).timestampOffset =
        a.timestamp - ((f.numberingFor a).placeOf a).timestamp := by
      simp only [Numbering.placeOf]
      grind
    rw [events]
    exact ⟨⟨meets.fits hm, trivial⟩, h.stands_behind hs behind rfl rfl rfl rfl timestampOffset,
      rfl⟩
  · have hm : a.carriesMedia = false := Bool.eq_false_iff.2 hm
    obtain ⟨t, rfl, met⟩ := padding hm
    have stands : f.Stands t := h.stands
    rw [Numbering.placeHead_absorbed hm meets.next, met] at behind
    rw [Numbering.placeHead_absorbed hm meets.next] at result
    have events : f.events (.forward a layer) = [.leftOut a] := by
      simp only [events, sentAt, result, decisionFor]
      rfl
    have reach : (f.numbering.leaveOut a).reach = t.last.number := by
      have next := meets.next
      rw [met] at next
      rw [← stands.reach, (Numbering.reach_leaveOut).1, next, Numbering.reach]
      grind
    rw [events]
    exact ⟨⟨hm, trivial⟩,
      h.stands_behind hs behind rfl rfl stands.last reach stands.timestampOffset, rfl⟩

/-! ## Packets of the relay's own -/

/-- Places that are generated go on where the trail ends, and the source goes on behind
them. -/
theorem Follows.generated {count : Nat} {rate frameRate : UInt32} {force : Bool}
    {places : List Place} (h : f.Follows kind clockRate (some t))
    (hp : (f.numbering.generate count rate frameRate force).2 = .ok places) :
    Trail.Spliced kind clockRate (some t) (places.map Event.generated) ∧
      { f with numbering := (f.numbering.generate count rate frameRate force).1 }.Follows kind
        clockRate ((places.map Event.generated).foldl Trail.next (some t)) ∧
      ((places.map Event.generated).foldl Trail.next (some t)).map Trail.packet =
        some t.packet := by
  have stands : f.Stands t := h.stands
  obtain ⟨last, timestampOffset⟩ := Numbering.generate_last hp
  obtain ⟨numbers, highest, reach⟩ := Numbering.generate_reach hp
  rw [stands.last] at last timestampOffset numbers
  have consecutive : Consecutive (t.last.number :: places.map Place.number) := by
    rw [numbers]
    exact chain_numbersAfter t.last.number count
  rw [Trail.foldl_next_generated]
  refine ⟨Trail.spliced_generated consecutive, h.congr rfl rfl rfl ?_, rfl⟩
  exact
    { started := stands.started
      lastSsrc := stands.lastSsrc
      lastArrival := stands.lastArrival
      highest := highest.trans stands.highest
      last := last
      reach := by
        rw [stands.reach, stands.last, last, UInt16.sub_self] at reach
        grind
      timestampOffset := by
        rw [timestampOffset, stands.timestampOffset]
        grind }

theorem Follows.refused {count : Nat} {rate frameRate : UInt32} {force : Bool} {e : Fault}
    {t : Option Trail} (h : f.Follows kind clockRate t)
    (he : (f.numbering.generate count rate frameRate force).2 = .error e) :
    { f with numbering := (f.numbering.generate count rate frameRate force).1 }.Follows kind
      clockRate t := by
  rw [Numbering.generate_refused he]
  exact h

/-! ## Runs -/

/-- All of it is about what stands behind the gate. -/
theorem Follows.same {g : Forwarder} {t : Option Trail} (h : f.Follows kind clockRate t)
    (hb : g.behind = f.behind) : g.Follows kind clockRate t := by
  obtain ⟨hkind, hcodec, started, ssrc, arrival, numbering, pictures⟩ := Behind.mk.inj hb
  refine h.congr hkind hcodec pictures ?_
  have stands := h.stands
  cases t with
  | none =>
    exact
      { started := started.trans stands.started
        lastSsrc := ssrc.trans stands.lastSsrc
        offset := numbering ▸ stands.offset
        timestampOffset := numbering ▸ stands.timestampOffset }
  | some t =>
    exact
      { started := started.trans stands.started
        lastSsrc := ssrc.trans stands.lastSsrc
        lastArrival := fun hv => arrival.trans (stands.lastArrival (hkind.symm.trans hv))
        highest := numbering ▸ stands.highest
        last := numbering ▸ stands.last
        reach := numbering ▸ stands.reach
        timestampOffset := numbering ▸ stands.timestampOffset }

/-- Packets of the relay's own are added, or refused. -/
theorem Follows.padding (h : f.Follows kind clockRate (some t)) (count : Nat) :
    Trail.Spliced kind clockRate (some t) (f.events (.padding count)) ∧
      (f.perform (.padding count)).Follows kind clockRate
        ((f.events (.padding count)).foldl Trail.next (some t)) ∧
      ((f.events (.padding count)).foldl Trail.next (some t)).map Trail.packet =
        some t.packet := by
  cases hr : (f.padding count).2 with
  | ok places =>
    simp only [events, hr]
    exact h.generated hr
  | error e =>
    simp only [events, hr]
    exact ⟨trivial, h.refused hr, rfl⟩

theorem Follows.blankFrames (h : f.Follows kind clockRate (some t)) :
    Trail.Spliced kind clockRate (some t) (f.events .blankFrames) ∧
      (f.perform .blankFrames).Follows kind clockRate
        ((f.events .blankFrames).foldl Trail.next (some t)) ∧
      ((f.events .blankFrames).foldl Trail.next (some t)).map Trail.packet =
        some t.packet := by
  let endsFrame := !f.numbering.isOnFrameBoundary
  let count := blankFrameCount + if endsFrame then 1 else 0
  have result : f.blankFrames.2 =
      (f.numbering.generate count f.codec.clockRate blankFrameRate endsFrame).2.map
        fun places => (places, endsFrame) := rfl
  cases hr : (f.numbering.generate count f.codec.clockRate blankFrameRate endsFrame).2 with
  | ok places =>
    rw [hr] at result
    simp only [events, result, Except.map]
    exact h.generated hr
  | error e =>
    rw [hr] at result
    simp only [events, result, Except.map]
    exact ⟨trivial, h.refused hr, rfl⟩

/-- No pictures are numbered, or none that the stream would show. -/
theorem Follows.blankDescriptor {t : Option Trail} (h : f.Follows kind clockRate t)
    (endsFrame : Bool) : (f.perform (.blankDescriptor endsFrame)).Follows kind clockRate t := by
  cases hp : f.pictures with
  | none =>
    simp only [perform, Forwarder.blankDescriptor, hp]
    exact h
  | some p =>
    have audio : f.kind = .audio := h.plain.resolve_right fun hn => by cases hn.symm.trans hp
    simp only [perform, Forwarder.blankDescriptor, hp]
    refine ⟨h.kind, h.clockRate, .inl audio, ?_⟩
    have stands := h.stands
    cases t with
    | none => exact ⟨stands.started, stands.lastSsrc, stands.offset, stands.timestampOffset⟩
    | some t =>
      exact ⟨stands.started, stands.lastSsrc, stands.lastArrival, stands.highest, stands.last,
        stands.reach, stands.timestampOffset⟩

/-- Packets of the relay's own come behind the first packet. -/
theorem begun_of_stretches {c : Command} {t : Option Trail} (hc : c.isQuiet = false)
    (h : c.isQuiet = true ∨ (t.map Trail.packet).isSome = true) : ∃ t', t = some t' := by
  rw [hc] at h
  have some := h.resolve_left Bool.false_ne_true
  rw [Option.isSome_map] at some
  exact Option.isSome_iff_exists.1 some

/-- A run goes on where the trail before it ends. -/
theorem log_spliced_of_follows {cs : List Command} {t : Option Trail}
    (h : f.Follows kind clockRate t) (hc : f.Stretches (t.map Trail.packet) cs) :
    Trail.Spliced kind clockRate t (f.log cs) := by
  induction cs generalizing f t with
  | nil => trivial
  | cons c cs ih =>
    rw [log, Trail.spliced_append]
    cases c with
    | forward a layer =>
      obtain ⟨⟨hh, hs, ha, hg⟩, hc⟩ := hc
      obtain ⟨spliced, follows, packet⟩ := h.forward hh hs ha hg
      rw [← packet] at hc
      exact ⟨spliced, ih follows hc⟩
    | padding count =>
      obtain ⟨begun, hc⟩ := hc
      obtain ⟨t, rfl⟩ := begun_of_stretches rfl begun
      obtain ⟨spliced, follows, packet⟩ := h.padding count
      rw [Option.map_some, ← packet] at hc
      exact ⟨spliced, ih follows hc⟩
    | blankFrames =>
      obtain ⟨begun, hc⟩ := hc
      obtain ⟨t, rfl⟩ := begun_of_stretches rfl begun
      obtain ⟨spliced, follows, packet⟩ := h.blankFrames
      rw [Option.map_some, ← packet] at hc
      exact ⟨spliced, ih follows hc⟩
    | blankDescriptor endsFrame => exact ⟨trivial, ih (h.blankDescriptor endsFrame) hc.2⟩
    | _ => exact ⟨trivial, ih (h.same (behind_perform rfl)) hc.2⟩

theorem follows_forCodec {codec : Codec} (hp : kind = .audio ∨ codec.format ≠ .vp8) :
    (forCodec codec kind).Follows kind codec.clockRate none where
  kind := rfl
  clockRate := rfl
  plain := hp.imp id fun h => if_neg h
  stands := ⟨rfl, rfl, rfl, rfl⟩

/-- The stream of a subscriber to audio, or to video whose pictures are not numbered, while its
sources are taken up one after the other and packets of the relay's own are added. Each packet
with media is sent, and those without are absorbed; all places follow each other in number,
and each timestamp goes on where the trail of the stream ends (`Trail.Ticks`). -/
theorem log_spliced (codec : Codec) (kind : MediaKind) (cs : List Command)
    (hp : kind = .audio ∨ codec.format ≠ .vp8) (hc : (forCodec codec kind).Stretches none cs) :
    Trail.Spliced kind codec.clockRate none ((forCodec codec kind).log cs) ∧
      Consecutive
        ((((forCodec codec kind).log cs).filterMap Event.place).map Place.number) := by
  have spliced : Trail.Spliced kind codec.clockRate none ((forCodec codec kind).log cs) :=
    log_spliced_of_follows (follows_forCodec hp) hc
  refine ⟨spliced, ?_⟩
  cases hl : (forCodec codec kind).log cs with
  | nil => exact List.isChain_nil
  | cons e es =>
    rw [hl] at spliced
    obtain ⟨fits, rest⟩ := spliced
    -- Only a packet that is sent can come first.
    cases e with
    | sent a p => exact rest.consecutive
    | leftOut a => exact fits.elim
    | refused a e => exact fits.elim
    | generated p => exact fits.elim

/-- A packet of a source that is taken up later, by the time in milliseconds. -/
def laterPacket (number : UInt16) (timestamp : UInt32) (millis : Nat) : Arrival :=
  { head := true
    time := millis * nanosPerMilli
    packet := { header := { marker := true, number, timestamp, ssrc := 2222 }, payload := [0] } }

/-- A video stream that changes its source, with padding before and after the change. -/
def changedSource : List Command :=
  [.setAvailable [0], .allocate 1000 onePair, .forward (smallPacket 100 true) 0, .padding 2,
    .forward (laterPacket 500 7000 40) 0, .padding 1, .forward (laterPacket 501 10000 73) 0]

theorem changedSource_stretches :
    (forCodec h264Codec .video).Stretches none changedSource := by
  refine ⟨.inl rfl, .inl rfl, ⟨rfl, by decide, ⟨rfl, fun _ => ?_⟩, rfl⟩, .inr rfl,
    ⟨rfl, by decide, ⟨rfl, fun _ => ?_⟩, rfl⟩, .inr rfl,
    ⟨rfl, by decide, ⟨rfl, fun _ => ?_⟩, rfl⟩, trivial⟩
  · exact ⟨⟨rfl, by decide⟩, rfl, fun h => absurd h.1 (by decide)⟩
  · exact ⟨⟨rfl, by decide⟩, rfl, fun h => absurd h.1 (by decide)⟩
  · exact ⟨⟨rfl, by decide⟩, rfl, fun h => absurd h.1 (by decide)⟩

theorem log_spliced_changedSource :
    (forCodec h264Codec .video).Stretches none changedSource ∧
      ((forCodec h264Codec .video).log changedSource).filterMap Event.place =
        [⟨100, 0⟩, ⟨101, 0⟩, ⟨102, 0⟩, ⟨103, 3600⟩, ⟨104, 3600⟩, ⟨105, 6600⟩] ∧
      Trail.Spliced .video 90000 none ((forCodec h264Codec .video).log changedSource) :=
  ⟨changedSource_stretches, rfl,
    (log_spliced _ _ _ (.inr (by decide)) changedSource_stretches).1⟩

end Forwarder
end Simulcast
