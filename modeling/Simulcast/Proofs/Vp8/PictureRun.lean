import Simulcast.Proofs.Vp8.PictureOrder

/-!
# Pictures of one source, whatever the width of their ids

A source writes its picture ids in seven bits, in fifteen, or in fifteen only where it has to
(`IdWidth`). As long as its packets come in order, the clock of a `PictureNumbering` finds
each of them in the picture before it or as the next one (`Finds`), up to the last number below
2³¹. The picture last handed out, or filtered out, has a `level` in the subscriber's count:
`Finds.describe` says that a picture that is filtered out keeps the level, and that one that is
sent goes up by one and has its id from there.
-/

namespace Simulcast.Vp8

/-- How a source writes its picture ids. -/
inductive IdWidth where
  | short
  | long
  /-- In fifteen bits only where seven do not do. -/
  | asNeeded

namespace IdWidth

/-- The number of ids. -/
def cycle : IdWidth → Int
  | short => 0x80
  | long | asNeeded => 0x8000

/-- Whether an id is written in fifteen bits. -/
def isLong (w : IdWidth) (id : UInt16) : Bool :=
  match w with
  | short => false
  | long => true
  | asNeeded => decide (127 < id.toNat)

/-- The source writes the id of the picture. -/
structure Writes (w : IdWidth) (d : Descriptor) : Prop where
  hasPictureId : d.hasPictureId = true
  pictureId : (d.pictureId.toNat : Int) < w.cycle
  longPictureId : d.longPictureId = w.isLong d.pictureId

/-- The picture comes next in the source. -/
def Next (w : IdWidth) (p d : Descriptor) : Prop :=
  (d.pictureId.toNat : Int) = (p.pictureId.toNat + 1) % w.cycle

instance (w : IdWidth) (p d : Descriptor) : Decidable (w.Next p d) :=
  inferInstanceAs (Decidable (_ = _))

/-- The id of the next picture is another one. -/
theorem Next.ne {w : IdWidth} {p d : Descriptor} (h : w.Next p d) : d.pictureId ≠ p.pictureId := by
  intro he
  rw [Next, he] at h
  cases w <;> simp only [cycle] at h <;> omega

end IdWidth

namespace PictureClock

variable {c : PictureClock} {w : IdWidth} {p d : Descriptor}

/-- The newest picture is that of the descriptor. -/
structure Shows (c : PictureClock) (w : IdWidth) (d : Descriptor) : Prop where
  writes : w.Writes d
  long : c.long = d.longPictureId
  newest : c.newest.toInt % w.cycle = d.pictureId.toNat

theorem Shows.unwrap (h : c.Shows w d) : c.unwrap d.pictureId d.longPictureId = c.newest := by
  have newest := h.newest
  have width := h.writes.longPictureId
  have same : nearest c.newest.toInt c.long d.pictureId d.longPictureId = c.newest.toInt := by
    simp only [nearest, idValue, h.long, width, ← newest]
    cases w with
    | short | long =>
      simp only [IdWidth.isLong, IdWidth.cycle, cycle, Bool.false_eq_true, if_true, if_false]
      omega
    | asNeeded =>
      simp only [IdWidth.isLong, IdWidth.cycle, cycle, decide_eq_true_eq] at newest ⊢
      split <;> omega
  rw [unwrap_eq, same, Int32.ofInt_toInt]

/-- The next picture of the source is the one behind the newest. -/
theorem Shows.unwrap_next (h : c.Shows w p) (hw : w.Writes d) (hn : w.Next p d) :
    c.unwrap d.pictureId d.longPictureId = c.newest + 1 := by
  have newest := h.newest
  have width := h.writes.longPictureId
  have width' := hw.longPictureId
  have small := h.writes.pictureId
  rw [IdWidth.Next] at hn
  have next : nearest c.newest.toInt c.long d.pictureId d.longPictureId = c.newest.toInt + 1 := by
    simp only [nearest, idValue, h.long, width, width', hn]
    cases w with
    | short | long =>
      simp only [IdWidth.isLong, IdWidth.cycle, cycle, Bool.false_eq_true, if_true, if_false]
        at newest small ⊢
      omega
    | asNeeded =>
      simp only [IdWidth.isLong, IdWidth.cycle, cycle, decide_eq_true_eq] at newest small hn ⊢
      split <;> split <;> omega
  rw [unwrap_eq, next, Int32.ofInt_add, Int32.ofInt_toInt]
  rfl

/-- So is the first one for the clock just before it. -/
theorem unwrap_before (hw : w.Writes d) :
    (before d).unwrap d.pictureId d.longPictureId = (before d).newest + 1 := by
  have small := hw.pictureId
  have width := hw.longPictureId
  have next : nearest (d.pictureId.toNat - 1) d.longPictureId d.pictureId d.longPictureId =
      d.pictureId.toNat - 1 + 1 := by
    simp only [nearest, idValue, width]
    cases w with
    | short | long =>
      simp only [IdWidth.isLong, IdWidth.cycle, cycle, Bool.false_eq_true, if_true, if_false]
        at small ⊢
      omega
    | asNeeded =>
      simp only [IdWidth.isLong, IdWidth.cycle, cycle, decide_eq_true_eq] at small ⊢
      split <;> omega
  rw [unwrap_eq, toInt_before]
  exact (congrArg Int32.ofInt next).trans ((Int32.ofInt_add _ _).trans (by rw [newest_before]; rfl))

end PictureClock

namespace PictureNumbering

variable {n : PictureNumbering} {w : IdWidth} {p d : Descriptor} {a : Arrival}
  {maxTemporal : Int} {continues : Bool}

/-- The place of the newest picture in the subscriber's count, or of the one before it if the
newest was filtered out. -/
def level (n : PictureNumbering) : Int32 := n.clock.newest - n.pictureOffset

/-- The state of a numbering in a picture. -/
structure In (n : PictureNumbering) (w : IdWidth) (d : Descriptor) : Prop where
  shows : n.clock.Shows w d
  lastFiltered : ∀ k, n.lastFiltered = some k → k ≤ n.clock.newest

/-- The clock finds the picture of a packet: it is the newest one, or the next. -/
structure Finds (n : PictureNumbering) (w : IdWidth) (d : Descriptor) (continues : Bool) :
    Prop where
  newest : (n.find d).clock.newest = n.clock.unwrap d.pictureId d.longPictureId
  step : (n.find d).clock.newest = n.clock.newest + if continues then 0 else 1
  count : (n.find d).clock.newest.toInt = n.clock.newest.toInt + if continues then 0 else 1
  shows : (n.find d).clock.Shows w d
  lastFiltered : ∀ k, n.lastFiltered = some k → k ≤ n.clock.newest

theorem In.finds_same (h : n.In w p) (hw : w.Writes d) (hs : p.SamePicture d) :
    n.Finds w d true := by
  have shows : n.clock.Shows w d :=
    ⟨hw, h.shows.long.trans hs.longPictureId.symm, by rw [hs.pictureId]; exact h.shows.newest⟩
  have still : n.find d = n := by
    rw [find, shows.unwrap, PictureClock.advance, if_pos (Int32.le_refl _), ← shows.long]
  refine ⟨?_, ?_, ?_, ?_, h.lastFiltered⟩
  · rw [still, shows.unwrap]
  · rw [still]
    exact (Int32.add_zero _).symm
  · rw [still]
    exact (Int.add_zero _).symm
  · rw [still]
    exact shows

/-- A picture found behind the newest one is the newest from then on. -/
theorem finds_of_unwrap (hw : w.Writes d)
    (hu : n.clock.unwrap d.pictureId d.longPictureId = n.clock.newest + 1)
    (hn : (n.clock.newest.toInt + 1) % w.cycle = d.pictureId.toNat)
    (room : n.clock.newest.toInt + 1 < 0x80000000)
    (hf : ∀ k, n.lastFiltered = some k → k ≤ n.clock.newest) : n.Finds w d false := by
  have clock : (n.find d).clock = { newest := n.clock.newest + 1, long := d.longPictureId } := by
    rw [find, hu]
    exact PictureClock.advance_succ room _
  refine ⟨?_, ?_, ?_, ?_, hf⟩
  · rw [clock, hu]
  · rw [clock]
    rfl
  · rw [clock]
    exact toInt_succ room
  · rw [clock]
    refine ⟨hw, rfl, ?_⟩
    rw [toInt_succ room]
    exact hn

theorem In.finds_next (h : n.In w p) (hw : w.Writes d) (hn : w.Next p d)
    (room : n.clock.newest.toInt + 1 < 0x80000000) : n.Finds w d false := by
  refine finds_of_unwrap hw (h.shows.unwrap_next hw hn) ?_ room h.lastFiltered
  rw [hn, ← h.shows.newest, Int.emod_add_emod]

theorem finds_first (hw : w.Writes d) (hc : n.clock = PictureClock.before d)
    (hf : n.lastFiltered = none) : n.Finds w d false := by
  have small := d.pictureId.toNat_lt
  refine finds_of_unwrap hw ?_ ?_ ?_ fun k hk => by rw [hf] at hk; cases hk
  · rw [hc]
    exact PictureClock.unwrap_before hw
  · rw [hc, PictureClock.toInt_before, Int.sub_add_cancel]
    exact Int.emod_eq_of_lt (Int.natCast_nonneg _) hw.pictureId
  · rw [hc, PictureClock.toInt_before]
    omega

/-- What becomes of a packet that is found, and of the level. -/
theorem Finds.describe (h : n.Finds w d continues) (hd : a.vp8 = some d) (maxTemporal : Int) :
    let r := n.describe a .contiguous maxTemporal
    r.1.In w d ∧ r.1.clock = (n.find d).clock ∧
      (d.Exceeds maxTemporal → r.1.lastFiltered = some r.1.clock.newest ∧
        ((continues = true → n.lastFiltered = some n.clock.newest) → r.1.level = n.level)) ∧
      (¬d.Exceeds maxTemporal → ∃ out, r.2 = .ok out ∧ out.pictureId = idOf r.1.level.toInt ∧
        r.1.level = n.level + if continues then 0 else 1) := by
  intro r
  have step := h.step
  have count := h.count
  have bound : ∀ k, (n.find d).lastFiltered = some k → k ≤ (n.find d).clock.newest := by
    intro k hk
    have earlier := Int32.le_iff_toInt_le.1 (h.lastFiltered k hk)
    rw [Int32.le_iff_toInt_le]
    cases continues <;> omega
  have described := describe_contiguous maxTemporal hd h.newest
  by_cases hx : d.Exceeds maxTemporal
  · have hr : r = ((n.find d).filterOut (n.find d).clock.newest, .error .filteredTemporalLayer) :=
      described.trans (if_pos hx)
    rw [hr]
    refine ⟨?_, clock_filterOut _ _, fun _ => ?_, fun hkept => absurd hx hkept⟩
    · unfold filterOut
      split
      · exact ⟨h.shows, bound⟩
      · exact ⟨h.shows, fun k hk => (Option.some.inj hk) ▸ Int32.le_refl _⟩
    · unfold filterOut level
      split
      · rename_i again
        refine ⟨again, fun filtered => ?_⟩
        cases continues with
        | true =>
          rw [step, if_pos rfl, Int32.add_zero]
          rfl
        | false =>
          have earlier := Int32.le_iff_toInt_le.1 (h.lastFiltered _ again)
          rw [if_neg Bool.false_ne_true] at count
          omega
      · rename_i fresh
        refine ⟨rfl, fun filtered => ?_⟩
        cases continues with
        | true =>
          rw [if_pos rfl, Int32.add_zero] at step
          refine absurd ?_ fresh
          rw [step]
          exact filtered rfl
        | false =>
          rw [if_neg Bool.false_ne_true] at step
          change (n.find d).clock.newest - (n.pictureOffset + 1) = n.clock.newest - n.pictureOffset
          rw [step]
          grind
  · have hr : r = (((n.find d).send d (n.find d).clock.newest).1,
        .ok ((n.find d).send d (n.find d).clock.newest).2) := described.trans (if_neg hx)
    rw [hr]
    refine ⟨⟨h.shows, bound⟩, rfl, fun hx' => absurd hx' hx, fun _ => ⟨_, rfl, ?_, ?_⟩⟩
    · simp only [send, renumber, h.shows.writes.hasPictureId, if_true]
      rfl
    · change (n.find d).clock.newest - n.pictureOffset = n.clock.newest - n.pictureOffset + _
      rw [step]
      grind

end PictureNumbering

end Simulcast.Vp8
