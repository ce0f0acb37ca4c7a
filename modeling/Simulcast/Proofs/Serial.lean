import Simulcast.Serial
import Mathlib.Tactic.Common

/-!
# Positions of serial numbers

A serial number stands for every position that is congruent to it modulo `2^16`;
`UInt16.ofInt` takes a position to its number. Positions that are less than one
cycle apart are told apart by their numbers (`ofInt_inj_of_near`), and the position
nearest to a known one is found by `lead` (`ofInt_add_lead`).
-/

namespace Simulcast.Serial

theorem toNat_ofInt (x : Int) : ((UInt16.ofInt x).toNat : Int) = x % 0x10000 := by
  rw [UInt16.ofInt, UInt16.toNat_ofNat']
  have := Int.emod_nonneg x (by decide : (0x10000 : Int) ≠ 0)
  have := Int.emod_lt_of_pos x (by decide : (0 : Int) < 0x10000)
  omega

theorem eq_ofInt_iff (a : UInt16) (x : Int) : a = UInt16.ofInt x ↔ (a.toNat : Int) = x % 0x10000 := by
  rw [← toNat_ofInt, Int.natCast_inj, UInt16.toNat_inj]

theorem ofInt_toNat (a : UInt16) : UInt16.ofInt a.toNat = a := by
  have := a.toNat_lt
  exact ((eq_ofInt_iff a _).2 (by omega)).symm

theorem ofInt_natCast (n : Nat) : UInt16.ofInt n = UInt16.ofNat n := by
  refine ((eq_ofInt_iff _ _).2 ?_).symm
  rw [UInt16.toNat_ofNat']
  omega

theorem ofInt_eq_iff (x y : Int) : UInt16.ofInt x = UInt16.ofInt y ↔ x % 0x10000 = y % 0x10000 := by
  rw [eq_ofInt_iff, toNat_ofInt]

theorem ofInt_sub (x y : Int) : UInt16.ofInt (x - y) = UInt16.ofInt x - UInt16.ofInt y := by
  rw [Int.sub_eq_add_neg, UInt16.ofInt_add, UInt16.ofInt_neg, UInt16.sub_eq_add_neg]

/-- Positions less than one cycle apart are told apart by their numbers. -/
theorem ofInt_inj_of_near {x y : Int} (h : x - y < 0x10000) (h' : y - x < 0x10000) :
    UInt16.ofInt x = UInt16.ofInt y ↔ x = y := by
  rw [ofInt_eq_iff]
  omega

/-- The steps between two numbers, for positions less than one cycle apart. -/
theorem toNat_ofInt_sub {x y : Int} (h : y ≤ x) (h' : x - y < 0x10000) :
    ((UInt16.ofInt x - UInt16.ofInt y).toNat : Int) = x - y := by
  rw [← ofInt_sub, toNat_ofInt]
  omega

/-- The lead of a number over that of a position leads from there to a position of the number. -/
theorem ofInt_add_lead (x : Int) (a : UInt16) :
    UInt16.ofInt (x + lead a (UInt16.ofInt x)) = a := by
  have := a.toNat_lt
  have hx := toNat_ofInt x
  have hd := UInt16.toNat_sub a (UInt16.ofInt x)
  refine ((eq_ofInt_iff a _).2 ?_).symm
  simp only [lead]
  split <;> omega

/-- A number is ahead of another if it leads it. -/
theorem isAhead_iff (a b : UInt16) : isAhead a b = true ↔ 0 < lead a b := by
  have h0 : a - b = 0 ↔ (a - b).toNat = 0 := by rw [← UInt16.toNat_inj]; rfl
  have h1 : a - b < 0x8000 ↔ (a - b).toNat < 0x8000 := UInt16.lt_iff_toNat_lt
  have := (a - b).toNat_lt
  simp only [isAhead, lead, Bool.and_eq_true, bne_iff_ne, ne_eq, h0, decide_eq_true_eq, h1]
  split <;> omega

end Simulcast.Serial
