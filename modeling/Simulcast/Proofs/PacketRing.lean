import Simulcast.PacketRing
import Simulcast.Proofs.Serial

/-!
# What a packet ring keeps

A ring is described by the position of its newest number, counted from the first number that
was stored (`Reaches`), and by what is in the slot of each position (`slotAt`). Positions share a
slot if they are whole rings apart, so those of one reach have slots of their own:

* `Reaches.slotAt_add`: a number is stored at the position nearest to the newest one, and found in
  every slot that this one shares;
* `Reaches.add_self`, `Reaches.add_other`: within reach that is its own slot, and what is stored at
  other positions stays;
* `Reaches.get_eq_slotAt`: under a number there is what the slot of that position has, if it was
  stored under the same number;
* `Reaches.get_eq`: so what is stored at a position is found under its number, if the position is
  less than half a cycle behind the newest one.
-/

namespace Simulcast

namespace Serial

/-- The position of a number next to that of another one. -/
def near (newest : Int) (number : UInt16) : Int := newest + lead number (UInt16.ofInt newest)

theorem ofInt_near (newest : Int) (number : UInt16) : UInt16.ofInt (near newest number) = number :=
  ofInt_add_lead newest number

theorem near_bounds (newest : Int) (number : UInt16) :
    newest - 0x8000 ≤ near newest number ∧ near newest number < newest + 0x8000 := by
  have := lead_bounds number (UInt16.ofInt newest)
  unfold near
  omega

/-- A position less than half a cycle behind is the one nearest to the newest. -/
theorem near_of_ofInt {newest position : Int} {number : UInt16}
    (h : number = UInt16.ofInt position) (low : newest - 0x8000 < position)
    (high : position ≤ newest) : near newest number = position := by
  have bounds := near_bounds newest number
  have same : UInt16.ofInt (near newest number) = UInt16.ofInt position :=
    (ofInt_near newest number).trans h
  exact (ofInt_inj_of_near (by omega) (by omega)).1 same

end Serial

namespace PacketRing

open Serial

variable {α : Type} {r : PacketRing α} {newest position other : Int} {number : UInt16} {a b : α}

/-- The newest number stored stands at a position, counted from that of the first one. -/
structure Reaches (r : PacketRing α) (newest : Int) : Prop where
  stands : r.newest = some ⟨UInt16.ofInt newest, (newest + 0x10000).toNat⟩
  nonneg : 0 ≤ newest
  capacity : 0 < r.capacity

/-- The slot of a position. -/
def slotIndex (r : PacketRing α) (position : Int) : Nat := r.slotOf (position + 0x10000).toNat

/-- What is in the slot of a position. -/
def slotAt (r : PacketRing α) (position : Int) : Option (UInt16 × α) :=
  (r.slots[r.slotIndex position]?).join

theorem slotIndex_lt (hc : 0 < r.capacity) (position : Int) : r.slotIndex position < r.capacity :=
  Nat.mod_lt _ hc

theorem slotIndex_congr {r' : PacketRing α} (h : r'.capacity = r.capacity) :
    r'.slotIndex position = r.slotIndex position := by
  unfold slotIndex slotOf
  rw [h]

/-- Positions less than a ring apart that are a whole number of rings apart are one. -/
theorem eq_of_dvd_sub {capacity : Nat} (hd : (capacity : Int) ∣ position - other)
    (near : position - other < capacity) (near' : other - position < capacity) :
    position = other := by
  have gap : position - other = 0 := Int.eq_zero_of_dvd_of_natAbs_lt_natAbs hd (by omega)
  omega

/-- Positions have one slot if and only if they are a whole number of rings apart. -/
theorem slotIndex_eq_iff (hp : -0x10000 ≤ position) (ho : -0x10000 ≤ other) :
    r.slotIndex position = r.slotIndex other ↔ (r.capacity : Int) ∣ position - other := by
  have cast : ∀ x : Int, -0x10000 ≤ x →
      ((r.slotIndex x : Nat) : Int) = (x + 0x10000) % (r.capacity : Int) := by
    intro x hx
    unfold slotIndex slotOf
    rw [Int.natCast_emod, Int.toNat_of_nonneg (by omega)]
  have shift : position + 0x10000 - (other + 0x10000) = position - other := by omega
  rw [← Int.natCast_inj, cast position hp, cast other ho, Int.emod_eq_emod_iff_emod_sub_eq_zero,
    shift, Int.dvd_iff_emod_eq_zero]

/-! ## Storing -/

/-- A ring with one slot changed. -/
def put (r : PacketRing α) (position : Int) (number : UInt16) (a : α) : PacketRing α :=
  { r with slots := r.slots.setIfInBounds (r.slotIndex position) (some (number, a)) }

@[simp] theorem capacity_put : (r.put position number a).capacity = r.capacity :=
  Array.size_setIfInBounds

theorem slotAt_put_self (hc : 0 < r.capacity) :
    (r.put position number a).slotAt position = some (number, a) := by
  rw [slotAt, slotIndex_congr capacity_put, put, Array.getElem?_setIfInBounds_self_of_lt (slotIndex_lt hc position)]
  rfl

theorem slotAt_put_other (h : r.slotIndex position ≠ r.slotIndex other) :
    (r.put position number a).slotAt other = r.slotAt other := by
  rw [slotAt, slotAt, slotIndex_congr capacity_put, put, Array.getElem?_setIfInBounds_ne h]

/-- Every position that shares the slot has what is put there. -/
theorem slotAt_put_shared (hc : 0 < r.capacity) (h : r.slotIndex position = r.slotIndex other) :
    (r.put position number a).slotAt other = some (number, a) := by
  rw [slotAt, slotIndex_congr capacity_put, ← h, put,
    Array.getElem?_setIfInBounds_self_of_lt (slotIndex_lt hc position)]
  rfl

/-- A ring with another newest number. -/
def front (r : PacketRing α) (newest : Int) : PacketRing α :=
  { r with newest := some ⟨UInt16.ofInt newest, (newest + 0x10000).toNat⟩ }

theorem add_eq_of_first (h : r.newest = none) (hc : 0 < r.capacity) :
    r.add number a = (r.put number.toNat number a).front number.toNat := by
  have position : ((number.toNat : Int) + 0x10000).toNat = 0x10000 + number.toNat := by omega
  have index : r.slotIndex number.toNat = r.slotOf (0x10000 + number.toNat) := by
    rw [slotIndex, position]
  simp only [add, place, h, Newest.covers, Newest.ofFirst, Nat.le_refl, decide_true, Nat.sub_self,
    hc, Bool.and_self, if_true, put, front, index, position, ofInt_toNat]

theorem unwrap_near (h : 0 ≤ newest) (number : UInt16) :
    Newest.unwrap ⟨UInt16.ofInt newest, (newest + 0x10000).toNat⟩ number =
      some (near newest number + 0x10000).toNat := by
  have bounds := near_bounds newest number
  have position : (((newest + 0x10000).toNat : Nat) : Int) + lead number (UInt16.ofInt newest) =
      near newest number + 0x10000 := by
    unfold near
    omega
  simp only [Newest.unwrap, position]
  rw [if_pos (by omega)]

theorem Reaches.place (h : r.Reaches newest) :
    r.place number = ((near newest number + 0x10000).toNat,
      ⟨UInt16.ofInt (max newest (near newest number)),
        (max newest (near newest number) + 0x10000).toNat⟩) := by
  obtain ⟨low, high⟩ := near_bounds newest number
  have nonneg := h.nonneg
  simp only [PacketRing.place, h.stands, unwrap_near h.nonneg]
  by_cases ahead : newest < near newest number
  · rw [if_pos (by omega), Int.max_eq_right (by omega), ofInt_near]
  · rw [if_neg (by omega), Int.max_eq_left (by omega)]

theorem Reaches.add_eq (h : r.Reaches newest) :
    r.add number a =
      (if max newest (near newest number) - near newest number < r.capacity then
        r.put (near newest number) number a else r).front (max newest (near newest number)) := by
  obtain ⟨low, high⟩ := near_bounds newest number
  have nonneg := h.nonneg
  simp only [add, h.place, Newest.covers]
  generalize near newest number = position at *
  by_cases covered : max newest position - position < r.capacity
  · rw [if_pos covered, if_pos (by simp only [Bool.and_eq_true, decide_eq_true_eq]; omega)]
    rfl
  · rw [if_neg covered, if_neg (by simp only [Bool.and_eq_true, decide_eq_true_eq]; omega)]
    rfl

/-- A first number is stored at its own position. -/
theorem add_first (h : r.newest = none) (hc : 0 < r.capacity) :
    (r.add number a).Reaches number.toNat ∧ (r.add number a).capacity = r.capacity ∧
      (r.add number a).slotAt number.toNat = some (number, a) := by
  rw [add_eq_of_first h hc]
  have capacity : (r.put number.toNat number a).capacity = r.capacity := capacity_put
  exact ⟨⟨rfl, Int.natCast_nonneg _, capacity ▸ hc⟩, capacity, slotAt_put_self hc⟩

/-- Any other number moves the newest one on if it is ahead. -/
theorem Reaches.add (h : r.Reaches newest) :
    (r.add number a).Reaches (max newest (near newest number)) ∧
      (r.add number a).capacity = r.capacity := by
  have nonneg := h.nonneg
  rw [h.add_eq]
  split
  · exact ⟨⟨rfl, by omega, Nat.lt_of_lt_of_eq h.capacity capacity_put.symm⟩, capacity_put⟩
  · exact ⟨⟨rfl, by omega, h.capacity⟩, rfl⟩

/-- What is stored goes to the slot of its position, unless it is older than the ring reaches. -/
theorem Reaches.slotAt_add (h : r.Reaches newest) (ho : -0x10000 ≤ other) :
    (r.add number a).slotAt other =
      if max newest (near newest number) - near newest number < r.capacity ∧
          (r.capacity : Int) ∣ near newest number - other then some (number, a)
      else r.slotAt other := by
  obtain ⟨low, -⟩ := near_bounds newest number
  have nonneg := h.nonneg
  have shared : r.slotIndex (near newest number) = r.slotIndex other ↔
      (r.capacity : Int) ∣ near newest number - other := slotIndex_eq_iff (by omega) ho
  rw [h.add_eq]
  by_cases reached : max newest (near newest number) - near newest number < r.capacity
  · rw [if_pos reached]
    by_cases same : (r.capacity : Int) ∣ near newest number - other
    · rw [if_pos ⟨reached, same⟩]
      exact slotAt_put_shared h.capacity (shared.2 same)
    · rw [if_neg fun both => same both.2]
      exact slotAt_put_other (mt shared.1 same)
  · rw [if_neg reached, if_neg fun both => reached both.1]
    rfl

/-- It is stored at the position nearest to the newest one, if that is within reach. -/
theorem Reaches.add_self (h : r.Reaches newest)
    (near' : max newest (near newest number) - near newest number < r.capacity) :
    (r.add number a).slotAt (near newest number) = some (number, a) := by
  obtain ⟨low, -⟩ := near_bounds newest number
  have nonneg := h.nonneg
  rw [h.slotAt_add (by omega), if_pos ⟨near', 0, by omega⟩]

/-- What is stored at the other positions within reach stays. -/
theorem Reaches.add_other (h : r.Reaches newest) (hne : other ≠ near newest number)
    (low : -0x8000 ≤ other) (high : other ≤ newest)
    (within : max newest (near newest number) - other < r.capacity) :
    (r.add number a).slotAt other = r.slotAt other := by
  rw [h.slotAt_add (by omega)]
  -- The two slots are less than a ring apart.
  exact if_neg fun both => hne (eq_of_dvd_sub both.2 (by omega) (by omega)).symm

/-- What is older than the ring reaches changes nothing. -/
theorem Reaches.add_eq_self (h : r.Reaches newest)
    (behind : (r.capacity : Int) ≤ newest - near newest number) : r.add number a = r := by
  have same : max newest (near newest number) = newest := by omega
  rw [h.add_eq, same, if_neg (by omega), front, ← h.stands]

/-- A slot has what is stored, or what it had before. -/
theorem slots_add {i : Nat} {c : UInt16 × α} (h : (r.add number a).slots[i]? = some (some c)) :
    c = (number, a) ∨ r.slots[i]? = some (some c) := by
  unfold add at h
  dsimp only at h
  split at h
  · rw [Array.getElem?_setIfInBounds] at h
    split at h
    · split at h
      · exact .inl (Option.some.inj (Option.some.inj h)).symm
      · cases h
    · exact .inr h
  · exact .inr h

/-! ## Looking up -/

theorem covers_iff {size : Nat} (hn : 0 ≤ newest) (hp : -0x8000 ≤ position) :
    Newest.covers ⟨number, (newest + 0x10000).toNat⟩ size (position + 0x10000).toNat = true ↔
      position ≤ newest ∧ newest - position < size := by
  simp only [Newest.covers, Bool.and_eq_true, decide_eq_true_eq]
  omega

/-- Under a number there is what is in the slot of the position that it stands for, if it was
stored under the same number, and if the position is among the newest ones. -/
theorem Reaches.get_eq_slotAt (h : r.Reaches newest) (number : UInt16) :
    r.get? number =
      if near newest number ≤ newest ∧ newest - near newest number < r.capacity then
        (r.slotAt (near newest number)).bind fun s => if s.1 = number then some s.2 else none
      else none := by
  obtain ⟨low, -⟩ := near_bounds newest number
  have nonneg := h.nonneg
  simp only [PacketRing.get?, h.stands, Option.bind_eq_bind, Option.bind_some,
    unwrap_near h.nonneg, covers_iff h.nonneg (show -0x8000 ≤ near newest number by omega), slotAt,
    slotIndex]
  split
  · cases r.slots[r.slotOf (near newest number + 0x10000).toNat]? with
    | none => rfl
    | some slot => cases slot <;> rfl
  · rfl

/-- What is stored at a position within reach is found under its number. -/
theorem Reaches.get_eq (h : r.Reaches newest) (hn : number = UInt16.ofInt position)
    (low : newest - 0x8000 < position) (high : position ≤ newest)
    (within : newest - position < r.capacity) (hs : r.slotAt position = some (number, a)) :
    r.get? number = some a := by
  rw [h.get_eq_slotAt, near_of_ofInt hn low high, if_pos ⟨high, within⟩, hs, Option.bind_some,
    if_pos rfl]

/-- What is found under a number is stored under it in the slot of its position, which is among
the newest ones. -/
theorem get_eq_some_iff :
    r.get? number = some a ↔ ∃ n p, r.newest = some n ∧ n.unwrap number = some p ∧
      n.covers r.capacity p = true ∧ r.slots[r.slotOf p]? = some (some (number, a)) := by
  simp only [PacketRing.get?, Option.bind_eq_bind, Option.bind_eq_some_iff]
  constructor
  · rintro ⟨n, hn, p, hp, found⟩
    refine ⟨n, p, hn, hp, ?_⟩
    split at found
    · rename_i covered
      obtain ⟨slot, hs, ⟨stored, b⟩, rfl, found⟩ := by
        simpa only [Option.bind_eq_some_iff] using found
      split at found
      · rename_i same
        cases found
        exact ⟨covered, same ▸ hs⟩
      · cases found
    · cases found
  · rintro ⟨n, p, hn, hp, covered, hs⟩
    refine ⟨n, hn, p, hp, ?_⟩
    rw [if_pos covered, hs]
    simp only [Option.bind_some, if_true]
    rfl

/-- What is found under a number is in the slot of its position. -/
theorem slot_of_get (h : r.get? number = some a) :
    ∃ p, (r.newest.bind fun n => n.unwrap number) = some p ∧
      r.slots[r.slotOf p]? = some (some (number, a)) := by
  obtain ⟨n, p, hn, hp, -, hs⟩ := get_eq_some_iff.1 h
  exact ⟨p, by rw [hn]; exact hp, hs⟩

/-! ## Replacing -/

/-- To put something else in the place of what is found under a number changes its slot and no
other. -/
theorem slots_replace (h : r.get? number = some a) (i : Nat) :
    (r.replace number b).slots[i]? = r.slots[i]? ∨
      r.slots[i]? = some (some (number, a)) ∧
        (r.replace number b).slots[i]? = some (some (number, b)) := by
  obtain ⟨p, hp, hs⟩ := slot_of_get h
  have inside : r.slotOf p < r.slots.size := (Array.getElem?_eq_some_iff.1 hs).1
  simp only [replace, hp]
  by_cases hi : r.slotOf p = i
  · subst hi
    exact .inr ⟨hs, Array.getElem?_setIfInBounds_self_of_lt inside⟩
  · exact .inl (Array.getElem?_setIfInBounds_ne hi)

theorem newest_replace : (r.replace number b).newest = r.newest := by
  unfold replace
  split <;> rfl

theorem capacity_replace : (r.replace number b).capacity = r.capacity := by
  unfold replace
  split
  · rfl
  · exact Array.size_setIfInBounds

theorem Reaches.replace (h : r.Reaches newest) : (r.replace number b).Reaches newest :=
  ⟨newest_replace.trans h.stands, h.nonneg, Nat.lt_of_lt_of_eq h.capacity capacity_replace.symm⟩

/-- The slot of a position keeps what it has, or gets the other thing for what is found. -/
theorem slotAt_replace {stored : UInt16} {c : α} (h : r.get? number = some a)
    (hs : r.slotAt position = some (stored, c)) :
    (r.replace number b).slotAt position = some (stored, c) ∨
      c = a ∧ (r.replace number b).slotAt position = some (stored, b) := by
  unfold slotAt at hs ⊢
  rw [slotIndex_congr capacity_replace]
  rcases slots_replace (b := b) h (r.slotIndex position) with same | ⟨old, new⟩
  · exact .inl (same ▸ hs)
  · rw [old] at hs
    cases hs
    exact .inr ⟨rfl, by rw [new]; rfl⟩

/-- Something else is found in the place of what was found. -/
theorem get_replace_self (h : r.get? number = some a) : (r.replace number b).get? number = some b := by
  obtain ⟨n, p, hn, hp, covered, hs⟩ := get_eq_some_iff.1 h
  have inside : r.slotOf p < r.slots.size := (Array.getElem?_eq_some_iff.1 hs).1
  have slot : (r.replace number b).slotOf p = r.slotOf p := by rw [slotOf, slotOf, capacity_replace]
  refine get_eq_some_iff.2 ⟨n, p, newest_replace.trans hn, hp, ?_, ?_⟩
  · rw [capacity_replace]
    exact covered
  · rw [slot]
    simp only [replace, hn, Option.bind_some, hp]
    exact Array.getElem?_setIfInBounds_self_of_lt inside

/-- Under the other numbers there is what there was. -/
theorem get_replace_other {other : UInt16} (h : r.get? number = some a) (hne : number ≠ other) :
    (r.replace number b).get? other = r.get? other := by
  have capacity : (r.replace number b).capacity = r.capacity := capacity_replace
  simp only [PacketRing.get?, newest_replace, slotOf, capacity]
  congr 1
  funext n
  cases n.unwrap other with
  | none => rfl
  | some p =>
    simp only [Option.bind_eq_bind, Option.bind_some]
    rcases slots_replace (b := b) h (p % r.capacity) with same | ⟨old, new⟩
    · rw [same]
    · -- Whatever was stored there, it was not under the other number.
      simp only [old, new, Option.bind_some, if_neg hne]

end PacketRing

end Simulcast
