import Simulcast.Numbering
import Mathlib.Data.List.Chain

/-!
# How far a numbering reaches

`Numbering.reach` is the number of the subscriber's stream that the newest packet of the
source stands at. The next packet of the source gets the number behind it, while
generated packets and a new source go on behind the last number that was given out
(`last`). So the two have to agree. What each operation does to them:

* `placeHead_media`, `placeHead_next`, `placeHead_absorbed`, `placeHead_repeated`: the newest
  packet;
* `reach_leaveOut`: a packet that is left out after all gives back `reach`, not `last`;
* `reach_start`, `reach_changeSource`: a source is taken up;
* `generate_ok`, `generate_refused`: packets of the relay's own.
-/

namespace Simulcast

/-- Every number is the successor of the one before it. -/
def Consecutive (numbers : List UInt16) : Prop := numbers.IsChain fun x y => y = x + 1

/-- So many numbers behind one. -/
def numbersAfter (last : UInt16) (count : Nat) : List UInt16 :=
  (List.range count).map fun i => last + UInt16.ofNat (i + 1)

theorem numbersAfter_succ (last : UInt16) (count : Nat) :
    numbersAfter last (count + 1) =
      numbersAfter last count ++ [last + UInt16.ofNat (count + 1)] := by
  simp only [numbersAfter, List.range_succ, List.map_append, List.map_cons, List.map_nil]

theorem numbersAfter_cons (last : UInt16) (count : Nat) :
    numbersAfter last (count + 1) = (last + 1) :: numbersAfter (last + 1) count := by
  simp only [numbersAfter, List.range_succ_eq_map, List.map_cons, List.map_map]
  refine congrArg₂ _ rfl (List.map_congr_left fun i _ => ?_)
  simp only [Function.comp_apply, UInt16.ofNat_add, Nat.succ_eq_add_one]
  grind

theorem head?_numbersAfter {last : UInt16} {count : Nat} (h : 0 < count) :
    (numbersAfter last count).head? = some (last + 1) := by
  obtain ⟨count, rfl⟩ := Nat.exists_eq_succ_of_ne_zero (Nat.ne_of_gt h)
  rw [numbersAfter_cons]
  rfl

theorem getLast?_numbersAfter {last : UInt16} {count : Nat} (h : 0 < count) :
    (numbersAfter last count).getLast? = some (last + UInt16.ofNat count) := by
  obtain ⟨count, rfl⟩ := Nat.exists_eq_succ_of_ne_zero (Nat.ne_of_gt h)
  rw [numbersAfter_succ, List.getLast?_append]
  rfl

theorem consecutive_numbersAfter (last : UInt16) (count : Nat) :
    Consecutive (numbersAfter last count) := by
  induction count with
  | zero => exact List.isChain_nil
  | succ count ih =>
    rw [numbersAfter_succ]
    refine List.isChain_append.2 ⟨ih, List.isChain_singleton _, fun x hx y hy => ?_⟩
    rw [List.head?_cons, Option.mem_def, Option.some.injEq] at hy
    cases count with
    | zero => cases hx
    | succ count =>
      rw [getLast?_numbersAfter (Nat.succ_pos count), Option.mem_def, Option.some.injEq] at hx
      rw [← hx, ← hy, UInt16.ofNat_add (count + 1) 1]
      exact (UInt16.add_assoc _ _ _).symm

/-- More numbers go on where the first ones end. -/
theorem consecutive_append_iff {xs ys : List UInt16} {x y : UInt16} (hx : xs.getLast? = some x)
    (hy : ys.head? = some y) (hys : Consecutive ys) :
    Consecutive (xs ++ ys) ↔ Consecutive xs ∧ y = x + 1 := by
  rw [Consecutive, List.isChain_append, hx, hy]
  constructor
  · rintro ⟨hxs, -, h⟩
    exact ⟨hxs, h x rfl y rfl⟩
  · rintro ⟨hxs, h⟩
    refine ⟨hxs, hys, fun x' hx' y' hy' => ?_⟩
    cases hx'
    cases hy'
    exact h

namespace Numbering

/-- The number at which the newest packet of the source stands. -/
def reach (n : Numbering) : UInt16 := n.highest - n.offset

variable {n : Numbering} {a : Arrival}

/-! ## The newest packet -/

/-- A packet with media is placed, unless it is the newest one once more. -/
theorem placeHead_media (hm : a.carriesMedia = true) (hn : a.number ≠ n.highest) :
    ∃ p, (n.placeHead a).2 = .ok p ∧ p.number = a.number - n.offset ∧ p.standing ≠ .late ∧
      (n.placeHead a).1.highest = a.number ∧ (n.placeHead a).1.reach = a.number - n.offset ∧
      (n.placeHead a).1.last.number = a.number - n.offset := by
  by_cases gap : 1 < a.number - n.highest
  · simp only [placeHead, gap, if_true]
    exact ⟨_, rfl, rfl, Standing.noConfusion, rfl, rfl, rfl⟩
  · have ahead : a.number - n.highest ≠ 0 := fun h => hn (by grind)
    simp only [placeHead, gap, ahead, hm, if_true, if_false]
    exact ⟨_, rfl, rfl, Standing.noConfusion, rfl, rfl, rfl⟩

/-- A packet with media that follows directly is placed by the offsets, which it keeps. -/
theorem placeHead_next (hm : a.carriesMedia = true) (hn : a.number = n.highest + 1) :
    n.placeHead a = (n.advance a, .ok { n.placeOf a with standing := .contiguous }) := by
  have next : a.number - n.highest = 1 := by grind
  simp only [placeHead, next, show ¬(1 : UInt16) < 1 by decide, show (1 : UInt16) ≠ 0 by decide,
    if_false, hm, if_true]

theorem placeHead_repeated (hn : a.number = n.highest) :
    n.placeHead a = (n, .error .duplicate) := by
  have same : a.number - n.highest = 0 := by rw [hn, UInt16.sub_self]
  simp only [placeHead, same, show ¬(1 : UInt16) < 0 by decide, if_false, if_true]

/-- A packet without media that follows directly is left out. -/
theorem placeHead_absorbed (hm : a.carriesMedia = false) (hn : a.number = n.highest + 1) :
    n.placeHead a = (n.leaveOut a, .error .paddingOnly) := by
  have next : a.number - n.highest = 1 := by grind
  simp only [placeHead, next, show ¬(1 : UInt16) < 1 by decide, show (1 : UInt16) ≠ 0 by decide,
    if_false, hm, Bool.false_eq_true]

/-- To leave a packet out keeps the last number given out. -/
theorem reach_leaveOut :
    (n.leaveOut a).reach = a.number - (n.offset + 1) ∧ (n.leaveOut a).highest = a.number ∧
      (n.leaveOut a).last = n.last :=
  ⟨rfl, rfl, rfl⟩

/-! ## Sources -/

theorem reach_start : (n.start a).reach = a.number - 1 - n.offset := rfl

theorem reach_changeSource (ticks : UInt32) :
    (n.changeSource a 1 ticks).reach = n.last.number := by
  simp only [reach, changeSource]
  grind

/-! ## Generated packets -/

theorem map_number_generatedPlaces (count : Nat) (step : UInt32) (closesFrame : Bool) :
    (n.generatedPlaces count step closesFrame).map Place.number =
      numbersAfter n.last.number count := by
  simp only [generatedPlaces, numbersAfter, List.map_map]
  rfl

/-- Generated packets go on behind the last number given out, and the source behind
them. -/
theorem generate_ok {count : Nat} {clockRate frameRate : UInt32} {force : Bool}
    {places : List Place} (hc : 0 < count)
    (h : (n.generate count clockRate frameRate force).2 = .ok places) :
    let n' := (n.generate count clockRate frameRate force).1
    places.map Place.number = numbersAfter n.last.number count ∧ n'.highest = n.highest ∧
      n'.reach = n.reach + UInt16.ofNat count ∧
      n'.last.number = n.last.number + UInt16.ofNat count := by
  unfold generate at h ⊢
  split at h
  · cases h
  · rename_i allowed
    rw [if_neg allowed]
    dsimp only at h ⊢
    have numbers := map_number_generatedPlaces (n := n) count (tickStep clockRate frameRate)
      (!n.lastMarker)
    cases hl : (n.generatedPlaces count (tickStep clockRate frameRate) (!n.lastMarker)).getLast? with
    | none =>
      rw [List.getLast?_eq_none_iff.1 hl] at numbers
      have := congrArg List.length numbers
      simp only [List.map_nil, List.length_nil, numbersAfter, List.length_map, List.length_range] at this
      omega
    | some last =>
      rw [hl] at h
      cases h
      have number : last.number = n.last.number + UInt16.ofNat count := by
        have mapped := congrArg List.getLast? numbers
        rw [List.getLast?_map, hl, getLast?_numbersAfter hc] at mapped
        exact Option.some.inj mapped
      refine ⟨numbers, rfl, ?_, number⟩
      simp only [reach, skip]
      grind

/-- Packets that are refused change nothing. -/
theorem generate_refused {count : Nat} {clockRate frameRate : UInt32} {force : Bool} {e : Fault}
    (h : (n.generate count clockRate frameRate force).2 = .error e) :
    (n.generate count clockRate frameRate force).1 = n := by
  unfold generate at h ⊢
  split
  · rfl
  · rename_i allowed
    rw [if_neg allowed] at h
    dsimp only at h
    split at h <;> cases h

end Numbering
end Simulcast
