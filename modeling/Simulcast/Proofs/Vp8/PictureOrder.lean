import Simulcast.Proofs.Vp8.PictureCount

/-!
# Pictures in order

While the packets of a source come in order, the pictures that a `PictureNumbering` hands out
follow each other, however the temporal layers are filtered, frames are generated and sources
change. `log_inStep` says that each `PictureEvent` fits the `PictureTrail` of those before it:

* the packets of a picture keep its id, and the next picture that is sent or generated gets
  the next one, in fifteen bits only where it has to (`PictureTrail.GoesOn`);
* the indices of the base layer frames keep the differences that they have in the source, and
  a generated picture or another source goes on by one (`PictureTrail.Fits`).

A packet is found by the clock in the picture before it or as the next one (`Stands.found`),
and is then filtered out (`Found.filterOut`) or sent (`Found.send`). The picture last handed
out is the newest one less the offset all along (`Stands.lastPicture`).

The clock counts the pictures of a source in words of 32 bits, so that no source may come to
picture 2³¹ (`Phase.Counted`). One that does gets out of step soon after (`log_outOfStep`).
-/

namespace Simulcast.Vp8

/-- What a numbering of pictures may be asked to do with packets that are in order. -/
inductive PictureCommand where
  | packet (a : Arrival) (maxTemporal : Int)
  | generate (newPicture : Bool)
  | changeSource (a : Arrival)

/-- What a subscriber's pictures are made of, in the order in which they come up. -/
inductive PictureEvent where
  | sent (d : Descriptor) (maxTemporal : Int) (out : Descriptor)
  | filtered (d : Descriptor) (maxTemporal : Int)
  | refused (e : Fault)
  | generated (newPicture : Bool) (out : Descriptor)
  | changed (d : Descriptor)

/-- Where a stream is between the pictures of its source. -/
inductive Phase where
  /-- In a picture, with the temporal layers that are wanted during it. -/
  | within (d : Descriptor) (maxTemporal : Int)
  /-- Behind a picture. -/
  | behind (d : Descriptor)
  /-- Before the first packet of another source. -/
  | before (d : Descriptor)

namespace Descriptor

/-- The picture is numbered, by an id that fits its width. -/
structure Numbered (d : Descriptor) : Prop where
  hasPictureId : d.hasPictureId = true
  hasTl0PicIdx : d.hasTl0PicIdx = true
  pictureId : (d.pictureId.toNat : Int) < PictureClock.cycle d.longPictureId

/-- The temporal layer is a higher one than is wanted. -/
def Exceeds (d : Descriptor) (maxTemporal : Int) : Prop :=
  d.hasTid = true ∧ maxTemporal < d.tid.toNat

instance (d : Descriptor) (maxTemporal : Int) : Decidable (d.Exceeds maxTemporal) :=
  inferInstanceAs (Decidable (_ ∧ _))

/-- The packet belongs to the same picture. -/
structure SamePicture (p d : Descriptor) : Prop where
  pictureId : d.pictureId = p.pictureId
  longPictureId : d.longPictureId = p.longPictureId
  hasTid : d.hasTid = p.hasTid
  tid : d.tid = p.tid

/-- The packet starts the next picture of the source. -/
structure NextPicture (p d : Descriptor) : Prop where
  pictureId : (d.pictureId.toNat : Int) =
    (p.pictureId.toNat + 1) % PictureClock.cycle p.longPictureId
  longPictureId : d.longPictureId = p.longPictureId

/-- The id of the next picture is another one. -/
theorem NextPicture.ne {p d : Descriptor} (h : p.NextPicture d) :
    d.pictureId ≠ p.pictureId := by
  intro he
  have next := h.pictureId
  rw [he] at next
  cases hl : p.longPictureId <;> rw [hl] at next <;>
    simp only [PictureClock.cycle, Bool.false_eq_true, if_true, if_false] at next <;> omega

theorem Numbered.pictureId_lt {d : Descriptor} (h : d.Numbered) :
    (d.pictureId.toNat : Int) < 0x8000 := by
  have fits := h.pictureId
  cases hl : d.longPictureId <;> rw [hl] at fits <;>
    simp only [PictureClock.cycle, Bool.false_eq_true, if_true, if_false] at fits <;> omega

end Descriptor

namespace Phase

/-- The phase once the picture is over. -/
def close : Phase → Phase
  | within d _ => behind d
  | phase => phase

/-- The packet may come next. -/
def Expects (phase : Phase) (d : Descriptor) (maxTemporal : Int) : Prop :=
  match phase with
  | within p max => p.SamePicture d ∧ maxTemporal = max ∨ p.NextPicture d
  | behind p => p.NextPicture d
  | before p => d = p

/-- Whether the picture has begun with an earlier packet. -/
def continues (phase : Phase) (d : Descriptor) : Bool :=
  match phase with
  | within p _ => d.pictureId == p.pictureId
  | _ => false

/-- The number of the picture of a packet, counted on from that of the one before. -/
def count (phase : Phase) (d : Descriptor) (newest : Int) : Int :=
  if phase.continues d then newest else newest + 1

/-- The packets come in the order of their sources, picture by picture. Between pictures,
frames are generated and the source changes. -/
def Ordered : Phase → List PictureCommand → Prop
  | _, [] => True
  | phase, .packet a maxTemporal :: cs =>
    ∃ d, a.vp8 = some d ∧ d.Numbered ∧ phase.Expects d maxTemporal ∧
      Ordered (within d maxTemporal) cs
  | phase, .generate _ :: cs => Ordered phase.close cs
  | _, .changeSource a :: cs => ∃ d, a.vp8 = some d ∧ d.Numbered ∧ Ordered (before d) cs

/-- No source comes to picture 2³¹, counted on from the id of its first one. The newest picture
so far has the number `newest`. -/
def Counted : Phase → Int → List PictureCommand → Prop
  | _, _, [] => True
  | phase, newest, .packet a maxTemporal :: cs =>
    let d := a.vp8.getD {}
    phase.count d newest < 0x80000000 ∧
      Counted (within d maxTemporal) (phase.count d newest) cs
  | phase, newest, .generate _ :: cs => Counted phase.close newest cs
  | _, _, .changeSource a :: cs =>
    let d := a.vp8.getD {}
    Counted (before d) (d.pictureId.toNat - 1) cs

instance decidableCounted : (phase : Phase) → (newest : Int) → (cs : List PictureCommand) →
    Decidable (phase.Counted newest cs)
  | _, _, [] => .isTrue trivial
  | phase, newest, .packet a maxTemporal :: cs =>
    let d := a.vp8.getD {}
    have := decidableCounted (within d maxTemporal) (phase.count d newest) cs
    inferInstanceAs (Decidable (_ ∧ _))
  | phase, newest, .generate _ :: cs => decidableCounted phase.close newest cs
  | _, _, .changeSource a :: cs =>
    let d := a.vp8.getD {}
    decidableCounted (before d) (d.pictureId.toNat - 1) cs

end Phase

/-- What the pictures of a stream have come to. -/
structure PictureTrail where
  phase : Phase
  /-- The descriptor that was handed out last. -/
  last : Descriptor
  /-- The index in the source that stands where the one handed out last does. -/
  reference : UInt8

namespace PictureTrail

/-- The trail behind an event. A new source stands as if the picture before its first one had
been handed out last. -/
def next (t : PictureTrail) : PictureEvent → PictureTrail
  | .sent d maxTemporal out =>
    { phase := .within d maxTemporal, last := out, reference := d.tl0PicIdx }
  | .filtered d maxTemporal => { t with phase := .within d maxTemporal }
  | .refused _ => t
  | .generated _ out => { t with phase := t.phase.close, last := out }
  | .changed d => { t with phase := .before d, reference := d.tl0PicIdx - 1 }

/-- The descriptor goes on with the id of the picture before it, or takes the next one. -/
def GoesOn (t : PictureTrail) (newPicture : Bool) (out : Descriptor) : Prop :=
  out.pictureId.toNat =
      (if newPicture then (t.last.pictureId.toNat + 1) % 0x8000 else t.last.pictureId.toNat) ∧
    (out.longPictureId = true ↔ 127 < out.pictureId.toNat) ∧
    out.hasPictureId = true ∧ out.hasTl0PicIdx = true

/-- The event goes on where the trail ends. -/
def Fits (t : PictureTrail) : PictureEvent → Prop
  | .sent d maxTemporal out =>
    ¬d.Exceeds maxTemporal ∧ t.GoesOn (!t.phase.continues d) out ∧
      out.tl0PicIdx = t.last.tl0PicIdx + (d.tl0PicIdx - t.reference)
  | .filtered d maxTemporal => d.Exceeds maxTemporal
  | .refused _ => False
  | .generated newPicture out =>
    t.GoesOn newPicture out ∧
      out.tl0PicIdx = if newPicture then t.last.tl0PicIdx + 1 else t.last.tl0PicIdx
  | .changed _ => True

/-- Each event goes on where the ones before it end. -/
def InStep : PictureTrail → List PictureEvent → Prop
  | _, [] => True
  | t, e :: es => t.Fits e ∧ (t.next e).InStep es

end PictureTrail

namespace PictureClock

variable {c : PictureClock} {d : Descriptor}

/-- The newest picture is that of the descriptor. -/
structure At (c : PictureClock) (d : Descriptor) : Prop where
  long : c.long = d.longPictureId
  newest : c.newest.toInt % cycle d.longPictureId = d.pictureId.toNat

/-- The picture of the descriptor is the one behind the newest. -/
structure NextTo (c : PictureClock) (d : Descriptor) : Prop where
  long : c.long = d.longPictureId
  newest : (c.newest.toInt + 1) % cycle d.longPictureId = d.pictureId.toNat

theorem unwrap_of_at (h : c.At d) : c.unwrap d.pictureId d.longPictureId = c.newest := by
  have newest := h.newest
  have same : nearest c.newest.toInt c.long d.pictureId d.longPictureId = c.newest.toInt := by
    simp only [nearest, idValue, h.long, ← newest]
    cases d.longPictureId <;> simp only [cycle, Bool.false_eq_true, if_true, if_false] <;> omega
  rw [unwrap_eq, same, Int32.ofInt_toInt]

theorem unwrap_of_nextTo (h : c.NextTo d) :
    c.unwrap d.pictureId d.longPictureId = c.newest + 1 := by
  have newest := h.newest
  have next : nearest c.newest.toInt c.long d.pictureId d.longPictureId = c.newest.toInt + 1 := by
    simp only [nearest, idValue, h.long, ← newest]
    cases d.longPictureId <;> simp only [cycle, Bool.false_eq_true, if_true, if_false] <;> omega
  rw [unwrap_eq, next, Int32.ofInt_add, Int32.ofInt_toInt]
  rfl

/-- The clock goes with the picture. -/
theorem advance_of_at (h : c.At d) : c.advance c.newest d.longPictureId = c := by
  rw [advance, if_pos (Int32.le_refl _), ← h.long]

/-- It goes on to the next one, as long as there is a word for it. -/
theorem advance_succ (room : c.newest.toInt + 1 < 0x80000000) (long : Bool) :
    c.advance (c.newest + 1) long = { newest := c.newest + 1, long } := by
  refine if_pos (Int32.le_iff_toInt_le.2 ?_)
  rw [toInt_succ room]
  omega

theorem at_advance (h : c.NextTo d) (room : c.newest.toInt + 1 < 0x80000000) :
    (c.advance (c.newest + 1) d.longPictureId).At d := by
  rw [advance_succ room]
  refine ⟨rfl, ?_⟩
  rw [toInt_succ room]
  exact h.newest

theorem nextTo_before (h : d.Numbered) : (before d).NextTo d := by
  refine ⟨rfl, ?_⟩
  rw [toInt_before, Int.sub_add_cancel]
  exact Int.emod_eq_of_lt (Int.natCast_nonneg _) h.pictureId

theorem At.same {p : Descriptor} (h : c.At p) (hs : p.SamePicture d) : c.At d :=
  ⟨h.long.trans hs.longPictureId.symm, by rw [hs.longPictureId, hs.pictureId]; exact h.newest⟩

theorem At.next {p : Descriptor} (h : c.At p) (hn : p.NextPicture d) : c.NextTo d := by
  refine ⟨h.long.trans hn.longPictureId.symm, ?_⟩
  rw [hn.longPictureId, hn.pictureId, ← h.newest]
  exact (Int.emod_add_emod _ _ _).symm

end PictureClock

namespace PictureNumbering

/-- A numbering after a command. -/
def perform (n : PictureNumbering) : PictureCommand → PictureNumbering
  | .packet a maxTemporal => (n.describe a .contiguous maxTemporal).1
  | .generate newPicture => (n.generate newPicture).1
  | .changeSource a => n.changeSource a

/-- What a command adds to the pictures. -/
def event (n : PictureNumbering) : PictureCommand → PictureEvent
  | .packet a maxTemporal =>
    match a.vp8, (n.describe a .contiguous maxTemporal).2 with
    | some d, .ok out => .sent d maxTemporal out
    | some d, .error .filteredTemporalLayer => .filtered d maxTemporal
    | _, .error e => .refused e
    | none, .ok _ => .refused .notVp8
  | .generate newPicture => .generated newPicture (n.generate newPicture).2
  | .changeSource a =>
    match a.vp8 with
    | some d => .changed d
    | none => .refused .notVp8

/-- What a run adds to the pictures. -/
def log (n : PictureNumbering) : List PictureCommand → List PictureEvent
  | [] => []
  | c :: cs => n.event c :: (n.perform c).log cs

/-- What the clock shows in a phase, and that a picture in flight is known to be filtered
out. -/
def InPhase (n : PictureNumbering) : Phase → Prop
  | .within d maxTemporal =>
    n.clock.At d ∧ (d.Exceeds maxTemporal → n.lastFiltered = some n.clock.newest)
  | .behind d => n.clock.At d
  | .before d => n.clock = PictureClock.before d

/-- The state of a numbering behind a trail. -/
structure Stands (n : PictureNumbering) (t : PictureTrail) : Prop where
  usesPictureId : n.usesPictureId = true
  usesTl0 : n.usesTl0 = true
  lastPicture : n.clock.newest - n.pictureOffset = n.lastPicture
  pictureId : t.last.pictureId = idOf n.lastPicture.toInt
  lastTl0 : n.lastTl0 = t.last.tl0PicIdx
  tl0Offset : n.tl0Offset = t.reference - t.last.tl0PicIdx
  lastFiltered : ∀ k, n.lastFiltered = some k → k ≤ n.clock.newest
  phase : n.InPhase t.phase

variable {n : PictureNumbering} {t : PictureTrail} {a : Arrival} {d : Descriptor}
  {maxTemporal number : Int}

theorem InPhase.close {phase : Phase} (h : n.InPhase phase) : n.InPhase phase.close := by
  cases phase with
  | within d max => exact h.1
  | behind d => exact h
  | before d => exact h

/-- The picture that a packet belongs to: that of the packet before it, or the next one. -/
inductive Meets (n : PictureNumbering) (phase : Phase) (d : Descriptor) (maxTemporal : Int) :
    Prop where
  | same (continues : phase.continues d = true) (at_ : n.clock.At d)
      (filtered : d.Exceeds maxTemporal → n.lastFiltered = some n.clock.newest)
  | next (starts : phase.continues d = false) (nextTo : n.clock.NextTo d)

theorem Stands.meets (h : n.Stands t) (hw : d.Numbered) (he : t.phase.Expects d maxTemporal) :
    n.Meets t.phase d maxTemporal := by
  have phase := h.phase
  cases ht : t.phase with
  | within p max =>
    rw [ht] at phase he
    obtain ⟨newest, filtered⟩ := phase
    rcases he with ⟨same, rfl⟩ | next
    · refine .same (beq_iff_eq.2 same.pictureId) (newest.same same) fun hx => filtered ?_
      rw [Descriptor.Exceeds, ← same.hasTid, ← same.tid]
      exact hx
    · exact .next (beq_eq_false_iff_ne.2 next.ne) (newest.next next)
  | behind p =>
    rw [ht] at phase he
    exact .next rfl (phase.next he)
  | before p =>
    rw [ht] at phase he
    obtain rfl : d = p := he
    refine .next rfl ?_
    rw [show n.clock = PictureClock.before d from phase]
    exact PictureClock.nextTo_before hw

/-- The numbering once its clock has found the picture of a packet. -/
def find (n : PictureNumbering) (d : Descriptor) : PictureNumbering :=
  { n with
    clock := n.clock.advance (n.clock.unwrap d.pictureId d.longPictureId) d.longPictureId }

/-- A packet that follows directly and is not older than the newest picture is filtered out or
sent, by the number of its picture. -/
theorem describe_contiguous (maxTemporal : Int) (hd : a.vp8 = some d)
    (hn : (n.find d).clock.newest = n.clock.unwrap d.pictureId d.longPictureId) :
    n.describe a .contiguous maxTemporal =
      if d.Exceeds maxTemporal then
        ((n.find d).filterOut (n.find d).clock.newest, .error .filteredTemporalLayer)
      else
        (((n.find d).send d (n.find d).clock.newest).1,
          .ok ((n.find d).send d (n.find d).clock.newest).2) := by
  simp only [describe, hd, reduceCtorEq, if_false, describeNext, hn]
  rfl

/-- The state of a numbering that has found the picture of a packet. -/
structure Found (n : PictureNumbering) (t : PictureTrail) (d : Descriptor) (maxTemporal : Int) :
    Prop where
  usesPictureId : n.usesPictureId = true
  usesTl0 : n.usesTl0 = true
  lastPicture : n.clock.newest - n.pictureOffset =
    n.lastPicture + if t.phase.continues d then 0 else 1
  pictureId : t.last.pictureId = idOf n.lastPicture.toInt
  lastTl0 : n.lastTl0 = t.last.tl0PicIdx
  tl0Offset : n.tl0Offset = t.reference - t.last.tl0PicIdx
  newest : n.clock.At d
  filtered : d.Exceeds maxTemporal →
    (n.lastFiltered = some n.clock.newest ↔ t.phase.continues d = true)
  lastFiltered : ∀ k, n.lastFiltered = some k → k ≤ n.clock.newest

theorem Stands.found (h : n.Stands t) (hw : d.Numbered) (he : t.phase.Expects d maxTemporal)
    (room : t.phase.count d n.clock.newest.toInt < 0x80000000) :
    (n.find d).clock.newest = n.clock.unwrap d.pictureId d.longPictureId ∧
      (n.find d).Found t d maxTemporal ∧
      (n.find d).clock.newest.toInt = t.phase.count d n.clock.newest.toInt := by
  cases h.meets hw he with
  | same continues newest filtered =>
    have still : n.find d = n := by
      rw [find, PictureClock.unwrap_of_at newest, PictureClock.advance_of_at newest]
    rw [still, PictureClock.unwrap_of_at newest, Phase.count, if_pos continues]
    refine ⟨rfl, ⟨h.usesPictureId, h.usesTl0, ?_, h.pictureId, h.lastTl0, h.tl0Offset, newest,
      fun hx => iff_of_true (filtered hx) continues, h.lastFiltered⟩, rfl⟩
    rw [continues, if_pos rfl, Int32.add_zero]
    exact h.lastPicture
  | next starts nextTo =>
    rw [Phase.count, starts, if_neg Bool.false_ne_true] at room ⊢
    have clock : (n.find d).clock = { newest := n.clock.newest + 1, long := d.longPictureId } := by
      rw [find, PictureClock.unwrap_of_nextTo nextTo]
      exact PictureClock.advance_succ room _
    have found : (n.find d).clock.At d := by
      rw [find, PictureClock.unwrap_of_nextTo nextTo]
      exact PictureClock.at_advance nextTo room
    have earlier : ∀ k, n.lastFiltered = some k → k < (n.find d).clock.newest := fun k hk => by
      have bound := Int32.le_iff_toInt_le.1 (h.lastFiltered k hk)
      rw [clock, Int32.lt_iff_toInt_lt, toInt_succ room]
      omega
    rw [PictureClock.unwrap_of_nextTo nextTo]
    refine ⟨by rw [clock], ⟨h.usesPictureId, h.usesTl0, ?_, h.pictureId, h.lastTl0, h.tl0Offset,
      found, fun _ => iff_of_false (fun hf => Int32.lt_irrefl (earlier _ hf)) ?_,
      fun k hk => Int32.le_of_lt (earlier k hk)⟩, by rw [clock, toInt_succ room]⟩
    · have lastPicture := h.lastPicture
      rw [starts, clock, if_neg Bool.false_ne_true]
      simp only [find]
      grind
    · rw [starts]
      exact Bool.false_ne_true

/-- A picture is taken off the offset once, however many packets of it are filtered out. -/
theorem Found.filterOut (h : n.Found t d maxTemporal) (hx : d.Exceeds maxTemporal) :
    (n.filterOut n.clock.newest).Stands (t.next (.filtered d maxTemporal)) := by
  have lastPicture := h.lastPicture
  by_cases hf : n.lastFiltered = some n.clock.newest
  · rw [(h.filtered hx).1 hf, if_pos rfl, Int32.add_zero] at lastPicture
    rw [PictureNumbering.filterOut, if_pos hf]
    exact ⟨h.usesPictureId, h.usesTl0, lastPicture, h.pictureId, h.lastTl0, h.tl0Offset,
      h.lastFiltered, h.newest, fun _ => hf⟩
  · rw [if_neg (mt (h.filtered hx).2 hf)] at lastPicture
    rw [PictureNumbering.filterOut, if_neg hf]
    refine ⟨h.usesPictureId, h.usesTl0, ?_, h.pictureId, h.lastTl0, h.tl0Offset, fun k hk => ?_,
      h.newest, fun _ => rfl⟩
    · dsimp only
      grind
    · cases hk
      exact Int32.le_refl _

/-- The id of a picture is that of its number, and the index goes by the offset. -/
theorem renumber_numbered (n : PictureNumbering) (hw : d.Numbered) (number : Int32) :
    let out := n.renumber d number
    out.pictureId = idOf number.toInt ∧ (out.longPictureId = true ↔ 127 < out.pictureId.toNat) ∧
      out.hasPictureId = true ∧ out.hasTl0PicIdx = true ∧
      out.tl0PicIdx = d.tl0PicIdx - n.tl0Offset := by
  simp only [renumber, hw.hasPictureId, hw.hasTl0PicIdx, if_true, decide_eq_true_eq, and_self,
    and_true, true_and]
  exact Iff.rfl

theorem Found.send (h : n.Found t d maxTemporal) (hw : d.Numbered)
    (hkept : ¬d.Exceeds maxTemporal) :
    t.Fits (.sent d maxTemporal (n.send d n.clock.newest).2) ∧
      (n.send d n.clock.newest).1.Stands
        (t.next (.sent d maxTemporal (n.send d n.clock.newest).2)) := by
  obtain ⟨id, long, hasPictureId, hasTl0, tl0⟩ :=
    n.renumber_numbered hw (n.clock.newest - n.pictureOffset)
  have number : n.clock.newest - n.pictureOffset =
      n.lastPicture + if !t.phase.continues d then 1 else 0 := by
    rw [h.lastPicture]
    cases t.phase.continues d <;> rfl
  refine ⟨⟨hkept, ⟨?_, long, hasPictureId, hasTl0⟩, ?_⟩, ?_⟩
  · rw [PictureNumbering.send, id, number, toNat_idOf_add, h.pictureId]
  · rw [PictureNumbering.send, tl0, h.tl0Offset]
    grind
  · have picture : (n.send d n.clock.newest).1.lastPicture = n.clock.newest - n.pictureOffset :=
      if_pos h.usesPictureId
    refine ⟨h.usesPictureId, h.usesTl0, picture.symm, ?_, rfl, ?_, h.lastFiltered, h.newest,
      fun hx => absurd hx hkept⟩
    · rw [picture]
      exact id
    · show n.tl0Offset = d.tl0PicIdx - (n.renumber d (n.clock.newest - n.pictureOffset)).tl0PicIdx
      rw [tl0]
      grind

theorem clock_filterOut (n : PictureNumbering) (number : Int32) :
    (n.filterOut number).clock = n.clock := by
  unfold PictureNumbering.filterOut
  split <;> rfl

theorem Stands.packet (h : n.Stands t) (hd : a.vp8 = some d) (hw : d.Numbered)
    (he : t.phase.Expects d maxTemporal)
    (room : t.phase.count d n.clock.newest.toInt < 0x80000000) :
    t.Fits (n.event (.packet a maxTemporal)) ∧
      (n.perform (.packet a maxTemporal)).Stands (t.next (n.event (.packet a maxTemporal))) ∧
      (t.next (n.event (.packet a maxTemporal))).phase = .within d maxTemporal ∧
      (n.perform (.packet a maxTemporal)).clock.newest.toInt =
        t.phase.count d n.clock.newest.toInt := by
  obtain ⟨newest, found, count⟩ := h.found hw he room
  have described := describe_contiguous maxTemporal hd newest
  by_cases hx : d.Exceeds maxTemporal
  · rw [if_pos hx] at described
    simp only [event, perform, hd, described, clock_filterOut]
    exact ⟨hx, found.filterOut hx, rfl, count⟩
  · rw [if_neg hx] at described
    simp only [event, perform, hd, described]
    obtain ⟨fits, stands⟩ := found.send hw hx
    exact ⟨fits, stands, rfl, count⟩

/-- A new picture that is generated moves the last one and the offset against each other. -/
theorem stepGenerated_picture (h : n.usesPictureId = true) (newPicture : Bool) :
    (n.stepGenerated newPicture).lastPicture = n.lastPicture + (if newPicture then 1 else 0) ∧
      (n.stepGenerated newPicture).pictureOffset =
        n.pictureOffset - if newPicture then 1 else 0 := by
  simp only [stepGenerated, h, if_true]
  cases newPicture <;> exact ⟨rfl, rfl⟩

theorem stepGenerated_tl0 (h : n.usesTl0 = true) (newPicture : Bool) :
    (n.stepGenerated newPicture).lastTl0 = (if newPicture then n.lastTl0 + 1 else n.lastTl0) ∧
      (n.stepGenerated newPicture).tl0Offset = n.tl0Offset - if newPicture then 1 else 0 := by
  simp only [stepGenerated, h, if_true, and_true]
  cases newPicture
  · exact UInt8.add_zero _
  · rfl

/-- A generated frame goes on behind the last picture, and the source behind it. -/
theorem Stands.generate (h : n.Stands t) (newPicture : Bool) :
    t.Fits (n.event (.generate newPicture)) ∧
      (n.perform (.generate newPicture)).Stands (t.next (n.event (.generate newPicture))) := by
  obtain ⟨lastPicture, pictureOffset⟩ := stepGenerated_picture h.usesPictureId newPicture
  obtain ⟨tl0, tl0Offset⟩ := stepGenerated_tl0 h.usesTl0 newPicture
  rw [h.lastTl0] at tl0
  have usesPictureId : (n.stepGenerated newPicture).usesPictureId = true := h.usesPictureId
  have usesTl0 : (n.stepGenerated newPicture).usesTl0 = true := h.usesTl0
  have id : (n.generate newPicture).2.pictureId =
      idOf (n.lastPicture + if newPicture then 1 else 0).toInt := by
    simp only [PictureNumbering.generate, generatedDescriptor, usesPictureId, if_true, lastPicture]
  have index : (n.generate newPicture).2.tl0PicIdx =
      if newPicture then t.last.tl0PicIdx + 1 else t.last.tl0PicIdx := by
    simp only [PictureNumbering.generate, generatedDescriptor, usesTl0, if_true, tl0]
  refine ⟨⟨⟨?_, ?_, usesPictureId, usesTl0⟩, index⟩, ?_⟩
  · rw [id, toNat_idOf_add, h.pictureId]
  · simp only [PictureNumbering.generate, generatedDescriptor, decide_eq_true_eq]
    exact Iff.rfl
  · have stood := h.lastPicture
    refine ⟨usesPictureId, usesTl0, ?_, ?_, ?_, ?_, h.lastFiltered, ?_⟩
    · show n.clock.newest - (n.stepGenerated newPicture).pictureOffset =
        (n.stepGenerated newPicture).lastPicture
      rw [lastPicture, pictureOffset]
      grind
    · exact id.trans (congrArg (fun number : Int32 => idOf number.toInt) lastPicture).symm
    · exact tl0.trans index.symm
    · show (n.stepGenerated newPicture).tl0Offset =
        t.reference - (n.generate newPicture).2.tl0PicIdx
      rw [tl0Offset, index, h.tl0Offset]
      cases newPicture
      · exact UInt8.sub_zero _
      · simp only [if_true]
        grind
    · exact h.phase.close

/-- The first picture of another source comes right behind the last picture. -/
theorem Stands.changeSource (h : n.Stands t) (hd : a.vp8 = some d) :
    t.Fits (n.event (.changeSource a)) ∧
      (n.perform (.changeSource a)).Stands (t.next (n.event (.changeSource a))) := by
  simp only [event, perform, hd]
  refine ⟨trivial, ?_⟩
  simp only [PictureNumbering.changeSource, hd, h.usesPictureId, h.usesTl0, if_true]
  have lastTl0 := h.lastTl0
  refine ⟨rfl, rfl, ?_, h.pictureId, lastTl0, ?_, fun k hk => (by cases hk), rfl⟩
  · simp only [PictureClock.before]
    grind
  · simp only [PictureTrail.next, lastTl0]
    grind

/-- The steps of a run. -/
theorem Stands.log {cs : List PictureCommand} (h : n.Stands t) (hc : t.phase.Ordered cs)
    (hb : t.phase.Counted n.clock.newest.toInt cs) : t.InStep (n.log cs) := by
  induction cs generalizing n t with
  | nil => trivial
  | cons c cs ih =>
    cases c with
    | packet a maxTemporal =>
      obtain ⟨d, hd, hw, he, hc⟩ := hc
      rw [Phase.Counted, hd, Option.getD_some] at hb
      obtain ⟨room, hb⟩ := hb
      obtain ⟨fits, stands, phase, count⟩ := h.packet hd hw he room
      exact ⟨fits, ih stands (phase ▸ hc) (by rw [phase, count]; exact hb)⟩
    | generate newPicture =>
      obtain ⟨fits, stands⟩ := h.generate newPicture
      exact ⟨fits, ih stands hc hb⟩
    | changeSource a =>
      obtain ⟨d, hd, hw, hc⟩ := hc
      rw [Phase.Counted, hd, Option.getD_some] at hb
      obtain ⟨fits, stands⟩ := h.changeSource hd
      have phase : (t.next (n.event (.changeSource a))).phase = .before d := by
        simp only [event, hd]
        rfl
      have clock : (n.perform (.changeSource a)).clock = PictureClock.before d := by
        simp only [perform, PictureNumbering.changeSource, hd, h.usesPictureId, if_true]
      refine ⟨fits, ih stands (phase ▸ hc) ?_⟩
      rw [phase, clock, PictureClock.toInt_before]
      exact hb

theorem start_numbered (hd : a.vp8 = some d) (hw : d.Numbered) :
    ({} : PictureNumbering).start a =
      { usesPictureId := true, clock := PictureClock.before d
        lastPicture := Int32.ofInt d.pictureId.toNat
        usesTl0 := true, lastTl0 := d.tl0PicIdx, usesTid := d.hasTid, usesKeyIdx := d.hasKeyIdx
        lastKeyIdx := if d.hasKeyIdx then d.keyIdx else 0 } := by
  simp only [start, hd, hw.hasPictureId, hw.hasTl0PicIdx, if_true]

theorem idOf_pictureId (h : d.Numbered) : d.pictureId = idOf d.pictureId.toNat := by
  have small := h.pictureId_lt
  have value := toNat_idOf d.pictureId.toNat
  refine UInt16.toNat_inj.1 ?_
  omega

/-- The first packet is found as if it went on with its own picture. -/
theorem start_found (hd : a.vp8 = some d) (hw : d.Numbered) (hkept : ¬d.Exceeds maxTemporal) :
    let n := ({} : PictureNumbering).start a
    (n.find d).clock.newest = n.clock.unwrap d.pictureId d.longPictureId ∧
      (n.find d).Found ⟨.within d maxTemporal, d, d.tl0PicIdx⟩ d maxTemporal ∧
      (n.find d).clock.newest.toInt = d.pictureId.toNat := by
  intro n
  have started : n = _ := start_numbered hd hw
  have nextTo : n.clock.NextTo d := by
    rw [started]
    exact PictureClock.nextTo_before hw
  have before : n.clock.newest.toInt = d.pictureId.toNat - 1 := by
    rw [started]
    exact PictureClock.toInt_before d
  have room : n.clock.newest.toInt + 1 < 0x80000000 := by
    have small := hw.pictureId_lt
    omega
  have clock : (n.find d).clock = { newest := n.clock.newest + 1, long := d.longPictureId } := by
    rw [find, PictureClock.unwrap_of_nextTo nextTo]
    exact PictureClock.advance_succ room _
  have newest : (n.find d).clock.newest = Int32.ofInt d.pictureId.toNat := by
    rw [clock, started]
    exact Int32.sub_add_cancel _ _
  refine ⟨by rw [clock, PictureClock.unwrap_of_nextTo nextTo], ?_, ?_⟩
  · have continues : (Phase.within d maxTemporal).continues d = true := beq_self_eq_true _
    have at_ : (n.find d).clock.At d := by
      rw [find, PictureClock.unwrap_of_nextTo nextTo]
      exact PictureClock.at_advance nextTo room
    refine ⟨?_, ?_, ?_, ?_, ?_, ?_, at_, fun hx => absurd hx hkept, fun k hk => ?_⟩
    · rw [started]
      rfl
    · rw [started]
      rfl
    · rw [newest, continues, started, if_pos rfl, Int32.add_zero]
      exact Int32.sub_zero _
    · rw [started]
      exact (idOf_pictureId hw).trans (idOf_ofInt _).symm
    · rw [started]
      rfl
    · rw [started]
      exact (UInt8.sub_self _).symm
    · rw [started] at hk
      cases hk
  · rw [clock]
    dsimp only
    rw [toInt_succ room, before, Int.sub_add_cancel]

/-- A stream that starts with a packet of a numbered picture, and goes on picture by picture
and source by source, none of them coming to picture 2³¹: from the ids and indices of the first
packet, each descriptor goes on where those before it end. -/
theorem log_inStep (a : Arrival) (d : Descriptor) (maxTemporal : Int) (cs : List PictureCommand)
    (hd : a.vp8 = some d) (hw : d.Numbered) (hkept : ¬d.Exceeds maxTemporal)
    (hc : (Phase.within d maxTemporal).Ordered cs)
    (hb : (Phase.within d maxTemporal).Counted d.pictureId.toNat cs) :
    let n := ({} : PictureNumbering).start a
    ∃ out, (n.describe a .contiguous maxTemporal).2 = .ok out ∧
      out.pictureId = d.pictureId ∧ (out.longPictureId = true ↔ 127 < out.pictureId.toNat) ∧
      out.tl0PicIdx = d.tl0PicIdx ∧
      (⟨.within d maxTemporal, out, d.tl0PicIdx⟩ : PictureTrail).InStep
        ((n.describe a .contiguous maxTemporal).1.log cs) := by
  intro n
  obtain ⟨newest, found, count⟩ := start_found hd hw hkept
  have described := describe_contiguous maxTemporal hd newest
  rw [if_neg hkept] at described
  obtain ⟨⟨-, ⟨id, long, -, -⟩, tl0⟩, stands⟩ := found.send hw hkept
  rw [described]
  refine ⟨_, rfl, ?_, long, ?_, stands.log hc ?_⟩
  · refine UInt16.toNat_inj.1 (id.trans ?_)
    simp only [Phase.continues, beq_self_eq_true, Bool.not_true, Bool.false_eq_true, if_false]
  · rw [tl0]
    grind
  · rw [← count] at hb
    exact hb

/-- A packet of a picture in some temporal layer. -/
def pictureDescriptor (pictureId : UInt16) (longPictureId : Bool) (tl0PicIdx tid : UInt8) :
    Descriptor :=
  { hasPictureId := true, pictureId, longPictureId, hasTl0PicIdx := true, tl0PicIdx
    hasTid := true, tid }

/-- An arrival with such a descriptor. -/
def pictureArrival (d : Descriptor) : Arrival :=
  { head := true, time := 0, packet := { header := {}, payload := [0] }, vp8 := some d }

/-- Behind a base layer picture of id 127: a picture of a higher layer in two packets, a
generated frame, and two pictures of another source, around the end of its longer cycle. -/
def turnOfCycles : List PictureCommand :=
  [.packet (pictureArrival (pictureDescriptor 0 false 5 2)) 1,
    .packet (pictureArrival (pictureDescriptor 0 false 5 2)) 1, .generate true,
    .changeSource (pictureArrival (pictureDescriptor 32767 true 9 0)),
    .packet (pictureArrival (pictureDescriptor 32767 true 9 0)) 1,
    .packet (pictureArrival (pictureDescriptor 0 true 10 0)) 1]

theorem turnOfCycles_ordered :
    (Phase.within (pictureDescriptor 127 false 5 0) 1).Ordered turnOfCycles := by
  refine ⟨_, rfl, ⟨rfl, rfl, by decide⟩, .inr ⟨by decide, rfl⟩,
    _, rfl, ⟨rfl, rfl, by decide⟩, .inl ⟨⟨rfl, rfl, rfl, rfl⟩, rfl⟩,
    _, rfl, ⟨rfl, rfl, by decide⟩,
    _, rfl, ⟨rfl, rfl, by decide⟩, rfl,
    _, rfl, ⟨rfl, rfl, by decide⟩, .inr ⟨by decide, rfl⟩, trivial⟩

theorem log_inStep_turnOfCycles :
    (Phase.within (pictureDescriptor 127 false 5 0) 1).Ordered turnOfCycles ∧
      (Phase.within (pictureDescriptor 127 false 5 0) 1).Counted 127 turnOfCycles ∧
      let a := pictureArrival (pictureDescriptor 127 false 5 0)
      let n := ({} : PictureNumbering).start a
      ∃ out, (n.describe a .contiguous 1).2 = .ok out ∧ out.pictureId = 127 ∧
        (⟨.within (pictureDescriptor 127 false 5 0) 1, out, 5⟩ : PictureTrail).InStep
          ((n.describe a .contiguous 1).1.log turnOfCycles) := by
  have counted : (Phase.within (pictureDescriptor 127 false 5 0) 1).Counted 127 turnOfCycles := by
    decide
  obtain ⟨out, described, id, -, -, inStep⟩ :=
    log_inStep (pictureArrival (pictureDescriptor 127 false 5 0)) _ 1 turnOfCycles rfl
      ⟨rfl, rfl, by decide⟩ (by decide) turnOfCycles_ordered counted
  exact ⟨turnOfCycles_ordered, counted, out, described, id, inStep⟩

/-! ## Beyond the words -/

/-- Picture `k` of a source that writes its ids in seven bits, in one packet. -/
def shortPicture (k : Nat) : Descriptor :=
  pictureDescriptor (UInt16.ofNat (k % 0x80)) false (UInt8.ofNat k) 0

/-- So many pictures of it, from one on. -/
def shortPictures (first count : Nat) : List PictureCommand :=
  (List.range' first count).map fun k => .packet (pictureArrival (shortPicture k)) 0

theorem toNat_shortPicture (k : Nat) : (shortPicture k).pictureId.toNat = k % 0x80 := by
  simp only [shortPicture, pictureDescriptor, UInt16.toNat_ofNat']
  omega

theorem numbered_shortPicture (k : Nat) : (shortPicture k).Numbered := by
  refine ⟨rfl, rfl, ?_⟩
  rw [toNat_shortPicture]
  change ((k % 0x80 : Nat) : Int) < 0x80
  omega

theorem next_shortPicture (k : Nat) : (shortPicture k).NextPicture (shortPicture (k + 1)) := by
  refine ⟨?_, rfl⟩
  rw [toNat_shortPicture, toNat_shortPicture]
  change (((k + 1) % 0x80 : Nat) : Int) = (((k % 0x80 : Nat) : Int) + 1) % 0x80
  omega

theorem ordered_shortPictures (k count : Nat) :
    (Phase.within (shortPicture k) 0).Ordered (shortPictures (k + 1) count) := by
  induction count generalizing k with
  | zero => trivial
  | succ count ih =>
    exact ⟨_, rfl, numbered_shortPicture _, .inr (next_shortPicture k), ih (k + 1)⟩

/-- The state behind picture `k`: the clock has stopped at the last word, and the pictures have
gone on. -/
structure Outruns (n : PictureNumbering) (t : PictureTrail) (k : Nat) : Prop where
  clock : n.clock = ⟨Int32.ofInt (min k 0x7fffffff), false⟩
  pictureOffset : n.pictureOffset = 0
  phase : t.phase = .within (shortPicture k) 0
  last : t.last.pictureId = idOf k

/-- A packet that is wanted is sent by the number that the clock finds, even if the clock does
not go on to it. -/
theorem event_shortPicture (n : PictureNumbering) (k : Nat) :
    let d := shortPicture k
    let number := n.clock.unwrap d.pictureId d.longPictureId
    let c := PictureCommand.packet (pictureArrival d) 0
    n.event c = .sent d 0 ((n.find d).send d number).2 ∧
      (n.perform c).clock = n.clock.advance number false ∧
      (n.perform c).pictureOffset = n.pictureOffset ∧
      ((n.find d).send d number).2.pictureId = idOf (number - n.pictureOffset).toInt :=
  ⟨rfl, rfl, rfl, rfl⟩

/-- The pictures are found for a while yet, since the last word ends a cycle of ids. -/
theorem unwrap_outrun {k : Nat} (hk : k < 0x8000003e) :
    (⟨Int32.ofInt (min k 0x7fffffff), false⟩ : PictureClock).unwrap
      (shortPicture (k + 1)).pictureId false = Int32.ofInt (k + 1) := by
  refine (PictureClock.unwrap_ofInt _ _ _ _).trans (congrArg Int32.ofInt ?_)
  simp only [PictureClock.nearest, PictureClock.idValue, PictureClock.cycle, toNat_shortPicture,
    Bool.false_eq_true, if_false]
  split <;> omega

theorem advance_outrun {k : Nat} (hk : k < 0x8000003e) :
    (⟨Int32.ofInt (min k 0x7fffffff), false⟩ : PictureClock).advance (Int32.ofInt (k + 1)) false =
      ⟨Int32.ofInt (min (k + 1 : Nat) 0x7fffffff), false⟩ := by
  have word := toInt_ofInt_emod (Int.dvd_refl _) (k + 1)
  have most := (Int32.ofInt (k + 1)).toInt_lt
  have newest : (Int32.ofInt (min k 0x7fffffff)).toInt = min (k : Int) 0x7fffffff :=
    Int32.toInt_ofInt_of_le (by omega) (by omega)
  by_cases hw : k + 1 < 0x80000000
  · rw [PictureClock.advance, if_pos (ofInt_le (by omega) (by omega) (by omega)),
      Int.min_eq_left (by omega)]
    rfl
  · rw [PictureClock.advance, if_neg, Int.min_eq_right (by omega), Int.min_eq_right (by omega)]
    rw [Int32.le_iff_toInt_le, newest]
    omega

theorem Outruns.next {n : PictureNumbering} {t : PictureTrail} {k : Nat} (h : n.Outruns t k)
    (hk : k < 0x8000003e) :
    let c := PictureCommand.packet (pictureArrival (shortPicture (k + 1))) 0
    (n.perform c).Outruns (t.next (n.event c)) (k + 1) := by
  obtain ⟨event, clock, offset, id⟩ := n.event_shortPicture (k + 1)
  have number : n.clock.unwrap (shortPicture (k + 1)).pictureId
      (shortPicture (k + 1)).longPictureId = Int32.ofInt (k + 1) := by
    rw [h.clock]
    exact unwrap_outrun hk
  refine ⟨?_, offset.trans h.pictureOffset, ?_, ?_⟩
  · rw [clock, number, h.clock]
    exact advance_outrun hk
  · rw [event]
    rfl
  · rw [event]
    refine id.trans ?_
    rw [number, h.pictureOffset, Int32.sub_zero, idOf_ofInt]
    rfl

/-- Half a cycle on, an id is taken for one of the cycle before. -/
theorem Outruns.misfit {n : PictureNumbering} {t : PictureTrail} (h : n.Outruns t 0x8000003e) :
    ¬t.Fits (n.event (.packet (pictureArrival (shortPicture 0x8000003f)) 0)) := by
  obtain ⟨event, -, -, id⟩ := n.event_shortPicture 0x8000003f
  rw [event]
  rintro ⟨-, ⟨goesOn, -⟩, -⟩
  rw [id, h.phase, h.last, h.clock, h.pictureOffset] at goesOn
  revert goesOn
  decide

theorem Outruns.not_inStep {n : PictureNumbering} {t : PictureTrail} {k count : Nat}
    (h : n.Outruns t k) (hk : k + count = 0x8000003e) :
    ¬t.InStep (n.log (shortPictures (k + 1) (count + 1))) := by
  induction count generalizing n t k with
  | zero =>
    obtain rfl : k = 0x8000003e := hk
    exact fun inStep => h.misfit inStep.1
  | succ count ih =>
    exact fun inStep => ih (h.next (by omega)) (by omega) inStep.2

/-- A source that goes on to picture 2³¹ + 63 runs out of step there: it gets the id 32703 right
behind 62. -/
theorem log_outOfStep :
    let a := pictureArrival (shortPicture 0)
    let n := ({} : PictureNumbering).start a
    (shortPicture 0).Numbered ∧ ¬(shortPicture 0).Exceeds 0 ∧
    (Phase.within (shortPicture 0) 0).Ordered (shortPictures 1 0x8000003f) ∧
    ∃ out, (n.describe a .contiguous 0).2 = .ok out ∧
      ¬(⟨.within (shortPicture 0) 0, out, (shortPicture 0).tl0PicIdx⟩ : PictureTrail).InStep
        ((n.describe a .contiguous 0).1.log (shortPictures 1 0x8000003f)) := by
  intro a n
  obtain ⟨out, described⟩ : ∃ out, (n.describe a .contiguous 0).2 = .ok out := ⟨_, rfl⟩
  refine ⟨numbered_shortPicture 0, by decide, ordered_shortPictures 0 _, out, described, ?_⟩
  have first : (n.describe a .contiguous 0).1.Outruns
      ⟨.within (shortPicture 0) 0, out, (shortPicture 0).tl0PicIdx⟩ 0 := by
    cases described
    exact ⟨by decide, rfl, rfl, by decide⟩
  exact first.not_inStep (Nat.zero_add _)

end PictureNumbering

end Simulcast.Vp8
