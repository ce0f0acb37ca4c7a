import Simulcast.Proofs.PacketRing

/-!
# Items filed under their numbers

What comes in under a serial number is filed in a history, the newest item first, each at the
position of its number next to the newest one of that time (`Filed.file`, `Filed.Counted`):

* `Filed.Counted.mem`: a position belongs to the number of its item, and is not ahead of the newest;
* `Filed.Counted.position_latest`: items under one number stand at one position, as long as it is
  less than half a cycle behind the newest one;
* `PacketRing.InStep.add`: a ring to which everything is added that is filed has the newest number
  of the history.
-/

namespace Simulcast

/-- An item that was sent under a number, at a position counted from the first number. -/
structure Filed (ω : Type) where
  position : Int
  number : UInt16
  item : ω

namespace Filed

variable {ω : Type} {h : List (Filed ω)} {e e' : Filed ω} {number : UInt16} {item : ω}

/-- The newest position of a history. -/
def newest (h : List (Filed ω)) : Int := h.foldr (fun e n => max e.position n) 0

/-- The position of a number behind a history. -/
def next : List (Filed ω) → UInt16 → Int
  | [], number => number.toNat
  | e :: h, number => Serial.near (newest (e :: h)) number

/-- A history with one more item, which stands first. -/
def file (h : List (Filed ω)) (number : UInt16) (item : ω) : List (Filed ω) :=
  ⟨next h number, number, item⟩ :: h

/-- The last item under a number. -/
def latest (h : List (Filed ω)) (number : UInt16) : Option (Filed ω) :=
  h.find? fun e => e.number == number

/-- A position is less than `size` behind the newest one, and less than half a cycle. -/
def Within (h : List (Filed ω)) (size : Nat) (position : Int) : Prop :=
  newest h - position < min (size : Int) 0x8000

instance (h : List (Filed ω)) (size : Nat) (position : Int) : Decidable (Within h size position) :=
  inferInstanceAs (Decidable (_ < _))

/-- An item was filed under a number, less than `size` behind the newest one. -/
def InReach (h : List (Filed ω)) (size : Nat) (number : UInt16) : Prop :=
  ∃ e ∈ h, e.number = number ∧ Within h size e.position

/-- Each item was filed next to the newest position of its time. -/
inductive Counted : List (Filed ω) → Prop where
  | nil : Counted []
  | cons {h : List (Filed ω)} (number : UInt16) (item : ω) : Counted h → Counted (file h number item)

theorem newest_nonneg (h : List (Filed ω)) : 0 ≤ newest h := by
  induction h with
  | nil => exact Int.le_refl 0
  | cons e h ih => exact Int.le_trans ih (Int.le_max_right _ _)

theorem next_of_ne_nil (hh : h ≠ []) : next h number = Serial.near (newest h) number := by
  cases h with
  | nil => exact absurd rfl hh
  | cons e h => rfl

theorem newest_file : newest (file h number item) = max (newest h) (next h number) :=
  Int.max_comm _ _

theorem newest_file_nil : newest (file ([] : List (Filed ω)) number item) = number.toNat :=
  newest_file.trans (Int.max_eq_right (Int.natCast_nonneg _))

theorem newest_le_file : newest h ≤ newest (file h number item) :=
  newest_file ▸ Int.le_max_left _ _

theorem latest_file_self : latest (file h number item) number = some ⟨next h number, number, item⟩ :=
  List.find?_cons_of_pos (beq_self_eq_true number)

theorem latest_file_other {other : UInt16} (hne : number ≠ other) :
    latest (file h number item) other = latest h other :=
  List.find?_cons_of_neg fun he => hne (eq_of_beq he)

/-- The last item under a number is in the history, under that number. -/
theorem mem_of_latest (hl : latest h number = some e) : e ∈ h ∧ e.number = number :=
  ⟨List.mem_of_find?_eq_some hl, eq_of_beq (List.find?_some hl :)⟩

theorem ofInt_next (h : List (Filed ω)) (number : UInt16) : UInt16.ofInt (next h number) = number := by
  cases h with
  | nil => exact Serial.ofInt_toNat number
  | cons e h => exact Serial.ofInt_near _ number

theorem next_low (h : List (Filed ω)) (number : UInt16) : -0x8000 ≤ next h number := by
  cases h with
  | nil => exact Int.le_trans (by decide) (Int.natCast_nonneg _)
  | cons e h =>
    have low := (Serial.near_bounds (newest (e :: h)) number).1
    have nonneg := newest_nonneg (e :: h)
    change -0x8000 ≤ Serial.near (newest (e :: h)) number
    omega

/-- Where the items of a history stand. -/
theorem Counted.mem (hc : Counted h) (he : e ∈ h) :
    e.number = UInt16.ofInt e.position ∧ -0x8000 ≤ e.position ∧ e.position ≤ newest h := by
  induction hc with
  | nil => cases he
  | @cons h number item hc ih =>
    rcases List.mem_cons.1 he with rfl | he
    · exact ⟨(ofInt_next h number).symm, next_low h number, newest_file ▸ Int.le_max_right _ _⟩
    · obtain ⟨same, low, high⟩ := ih he
      exact ⟨same, low, Int.le_trans high newest_le_file⟩

/-- The last item under a number stands where any other stands that is less than half a cycle
behind the newest position. -/
theorem Counted.position_latest (hc : Counted h) (he' : e' ∈ h)
    (near : newest h - e'.position < 0x8000) (he : latest h e'.number = some e) :
    e.position = e'.position := by
  induction hc with
  | nil => cases he'
  | @cons h number item hc ih =>
    have mono : newest h ≤ newest (file h number item) := newest_le_file
    by_cases hn : number = e'.number
    · rw [hn, latest_file_self] at he
      cases he
      rcases List.mem_cons.1 he' with rfl | he'
      · rfl
      · -- The older item is close enough for the number to be placed on it again.
        obtain ⟨same, -, high⟩ := hc.mem he'
        rw [next_of_ne_nil (List.ne_nil_of_mem he')]
        exact Serial.near_of_ofInt same (by omega) high
    · rw [latest_file_other hn] at he
      rcases List.mem_cons.1 he' with rfl | he'
      · exact absurd rfl hn
      · exact ih he' (by omega) he

/-- The last item under a number within reach is within reach. -/
theorem Counted.within_latest {size : Nat} (hc : Counted h) (hr : InReach h size number) :
    ∃ e, latest h number = some e ∧ Within h size e.position := by
  obtain ⟨e', he', rfl, hw⟩ := hr
  have found : (latest h e'.number).isSome = true :=
    List.find?_isSome.2 ⟨e', he', beq_self_eq_true _⟩
  obtain ⟨e, he⟩ := Option.isSome_iff_exists.1 found
  have position : e.position = e'.position :=
    hc.position_latest he' (Int.lt_of_lt_of_le hw (Int.min_le_right _ _)) he
  exact ⟨e, he, position ▸ hw⟩

theorem Within.mono {size size' : Nat} {position : Int} (hw : Within h size position)
    (hs : size ≤ size') : Within h size' position := by
  unfold Within at hw ⊢
  omega

end Filed

namespace PacketRing

variable {α ω : Type} {r : PacketRing α} {h : List (Filed ω)}

/-- The newest number of a ring is that of a history. -/
structure InStep (r : PacketRing α) (h : List (Filed ω)) : Prop where
  counted : Filed.Counted h
  capacity : 0 < r.capacity
  start : h = [] → r.newest = none
  reaches : h ≠ [] → r.Reaches (Filed.newest h)

theorem capacity_ofCapacity (n : Nat) : (ofCapacity n : PacketRing α).capacity = max n 1 :=
  Array.size_replicate

theorem inStep_ofCapacity (n : Nat) : (ofCapacity n : PacketRing α).InStep ([] : List (Filed ω)) where
  counted := .nil
  capacity := by
    rw [capacity_ofCapacity]
    omega
  start _ := rfl
  reaches hh := absurd rfl hh

theorem InStep.capacity_add (hs : r.InStep h) (number : UInt16) (a : α) :
    (r.add number a).capacity = r.capacity := by
  by_cases hh : h = []
  · exact (add_first (hs.start hh) hs.capacity).2.1
  · exact (hs.reaches hh).add.2

/-- Whatever is added and filed, the newest number is that of the history. -/
theorem InStep.add (hs : r.InStep h) (number : UInt16) (a : α) (item : ω) :
    (r.add number a).InStep (Filed.file h number item) where
  counted := .cons number item hs.counted
  capacity := hs.capacity_add number a ▸ hs.capacity
  start hh := absurd hh (List.cons_ne_nil _ _)
  reaches _ := by
    by_cases hh : h = []
    · subst hh
      rw [Filed.newest_file_nil]
      exact (add_first (hs.start rfl) hs.capacity).1
    · rw [Filed.newest_file, Filed.next_of_ne_nil hh]
      exact (hs.reaches hh).add.1

end PacketRing

end Simulcast
