import Simulcast.Vp8.PictureNumbering

/-!
# Pictures counted in words

A numbering of pictures counts in signed words of 32 bits. `Int32.ofInt` takes a count without
bounds to its word. Sums and differences go over to the words, whatever they come to, and so
does all that the ids of pictures are told by, since a cycle of ids divides that of the words:
the id of a count (`idOf_ofInt`), and the picture that the clock finds an id in
(`unwrap_ofInt`, with `nearest` for the count).

The order of counts goes over only as far as the words reach (`ofInt_le`). A numbering
compares the pictures of one source, so it is these that must stay below 2³¹; the pictures that
it hands out may go on beyond.
-/

namespace Simulcast.Vp8

/-- The rest of a count that its word leaves. -/
theorem toInt_ofInt_emod {m : Int} (h : m ∣ 0x100000000) (k : Int) :
    (Int32.ofInt k).toInt % m = k % m := by
  have word : (Int32.ofInt k).toInt % 0x100000000 = k % 0x100000000 := by
    rw [Int32.toInt_ofInt]
    exact Int.bmod_emod
  rw [← Int.emod_emod_of_dvd _ h, word, Int.emod_emod_of_dvd _ h]

/-- Counts that are less than a cycle of the words apart have words of their own. -/
theorem ofInt_inj {j k : Int} (h : j < k + 0x100000000) (h' : k < j + 0x100000000) :
    Int32.ofInt j = Int32.ofInt k ↔ j = k := by
  refine ⟨fun same => ?_, fun same => same ▸ rfl⟩
  have rest := toInt_ofInt_emod (Int.dvd_refl _) j
  rw [same, toInt_ofInt_emod (Int.dvd_refl _) k] at rest
  omega

/-- Below 2³¹ the words are ordered as the counts are. -/
theorem ofInt_le {j k : Int} (least : -0x80000000 ≤ j) (h : j ≤ k) (most : k < 0x80000000) :
    Int32.ofInt j ≤ Int32.ofInt k := by
  rw [Int32.le_iff_toInt_le, Int32.toInt_ofInt_of_le least (Int.lt_of_le_of_lt h most),
    Int32.toInt_ofInt_of_le (Int.le_trans least h) most]
  exact h

/-- The word behind one that is not the last stands for one more. -/
theorem toInt_succ {x : Int32} (h : x.toInt + 1 < 0x80000000) : (x + 1).toInt = x.toInt + 1 := by
  have least := x.le_toInt
  rw [Int32.toInt_add]
  exact Int.bmod_eq_of_le (by change _ ≤ x.toInt + 1; omega) h

namespace PictureClock

theorem cycle_dvd (long : Bool) : cycle long ∣ 0x100000000 := by
  cases long <;> decide

theorem newest_before (d : Descriptor) :
    (before d).newest = Int32.ofInt (d.pictureId.toNat - 1) := by
  rw [Int32.ofInt_sub]
  rfl

theorem toInt_before (d : Descriptor) : (before d).newest.toInt = d.pictureId.toNat - 1 := by
  have small := d.pictureId.toNat_lt
  rw [newest_before]
  exact Int32.toInt_ofInt_of_le (by omega) (by omega)

/-- The count that an id stands for, near the count of the newest picture. -/
def nearest (newest : Int) (width : Bool) (id : UInt16) (long : Bool) : Int :=
  let m := cycle width
  let value := idValue id long
  let n := newest - newest % m + value
  let lead := n - newest
  if lead < -(m / 2) then n + m
  else if m / 2 < lead ∧ value < m then n - m
  else n

/-- It is no farther away than a cycle of ids. -/
theorem nearest_near (newest : Int) (width : Bool) (id : UInt16) (long : Bool) :
    newest ≤ nearest newest width id long + 0x8000 ∧
      nearest newest width id long ≤ newest + 0x8000 := by
  simp only [nearest, idValue]
  cases width <;> cases long <;> simp only [cycle, Bool.false_eq_true, if_true, if_false] <;> omega

/-- The clock goes by the word of that count. -/
theorem unwrap_ofInt (newest : Int) (width : Bool) (id : UInt16) (long : Bool) :
    (⟨Int32.ofInt newest, width⟩ : PictureClock).unwrap id long =
      Int32.ofInt (nearest newest width id long) := by
  have rest : (Int32.ofInt newest).toInt % cycle width = newest % cycle width :=
    toInt_ofInt_emod (cycle_dvd _) newest
  have value : 0 ≤ idValue id long ∧ idValue id long < 0x8000 := by
    unfold idValue
    cases long <;> simp only [cycle, Bool.false_eq_true, if_true, if_false] <;> omega
  have below : 0 ≤ newest % cycle width ∧ newest % cycle width < 0x8000 := by
    cases width <;> simp only [cycle, Bool.false_eq_true, if_true, if_false] <;> omega
  -- an id is less than a cycle ahead of the newest picture, so that the word tells how far
  have lead : (Int32.ofInt (newest - newest % cycle width + idValue id long - newest)).toInt =
      newest - newest % cycle width + idValue id long - newest :=
    Int32.toInt_ofInt_of_le (by omega) (by omega)
  simp only [unwrap, nearest, rest, ← Int32.ofInt_sub, ← Int32.ofInt_add, lead]
  split
  · rfl
  · split <;> rfl

theorem unwrap_eq (c : PictureClock) (id : UInt16) (long : Bool) :
    c.unwrap id long = Int32.ofInt (nearest c.newest.toInt c.long id long) := by
  rw [← unwrap_ofInt, Int32.ofInt_toInt]

end PictureClock

namespace PictureNumbering

theorem toNat_idOf (number : Int) : ((idOf number).toNat : Int) = number % 0x8000 := by
  rw [idOf, UInt16.toNat_ofNat']
  omega

/-- The id of a count is that of its word. -/
theorem idOf_ofInt (number : Int) : idOf (Int32.ofInt number).toInt = idOf number := by
  rw [idOf, idOf, toInt_ofInt_emod (by decide)]

/-- Pictures that follow each other have ids that do. -/
theorem toNat_idOf_add (number : Int32) (newPicture : Bool) :
    (idOf (number + if newPicture then 1 else 0).toInt).toNat =
      if newPicture then ((idOf number.toInt).toNat + 1) % 0x8000
      else (idOf number.toInt).toNat := by
  cases newPicture
  · rw [if_neg Bool.false_ne_true, if_neg Bool.false_ne_true, Int32.add_zero]
  · have next : idOf (number + 1).toInt = idOf (number.toInt + 1) := by
      rw [← idOf_ofInt (number.toInt + 1), Int32.ofInt_add, Int32.ofInt_toInt]
      rfl
    have id := toNat_idOf number.toInt
    have id' := toNat_idOf (number.toInt + 1)
    rw [if_pos rfl, if_pos rfl, next]
    omega

end PictureNumbering
end Simulcast.Vp8
