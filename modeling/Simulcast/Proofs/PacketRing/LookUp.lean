import Simulcast.Proofs.Filed

/-!
# What a packet ring answers

A ring stores whatever comes in, except what is older than it reaches (`Filed.kept`). Asked for a
number, it ought to answer with what was stored last at the position that the number stands for
(`Filed.lookUp`). It looks into the slot of that position, where it finds what was stored last at
any position a whole number of rings away, and compares the numbers only:

* `Filled.add`: each slot has what was stored last at one of its positions;
* `Filled.get_of_fresh`: the answer is the right one, unless the position was skipped while its slot
  has something whole cycles old under the same number (`Filed.Stale`, `Filed.Stale.behind`);
* `Filled.get_of_stale`: in that case it answers with just that.
-/

namespace Simulcast

namespace Filed

open Serial

variable {ω : Type} {h : List (Filed ω)} {e x : Filed ω} {capacity : Nat} {position : Int}
  {number : UInt16} {item : ω}

/-- The position that a number stands for behind a history. -/
def meant (h : List (Filed ω)) (number : UInt16) : Int := near (newest h) number

/-- A position is among the newest ones of a history. -/
def Covers (h : List (Filed ω)) (capacity : Nat) (position : Int) : Prop :=
  position ≤ newest h ∧ newest h - position < capacity

instance (h : List (Filed ω)) (capacity : Nat) (position : Int) :
    Decidable (Covers h capacity position) :=
  inferInstanceAs (Decidable (_ ∧ _))

/-- What is stored, of all that came in: what was not older than the ring reached. -/
def kept (capacity : Nat) : List (Filed ω) → List (Filed ω)
  | [] => []
  | e :: h => if Covers (e :: h) capacity e.position then e :: kept capacity h else kept capacity h

/-- The last thing stored at the position that a number stands for, if the position is among the
newest ones. -/
def lookUp (capacity : Nat) (h : List (Filed ω)) (number : UInt16) : Option (Filed ω) :=
  if Covers h capacity (meant h number) then
    (kept capacity h).find? fun e => e.position = meant h number
  else none

/-- The last thing stored at a position that is a whole number of rings away. -/
def lastInSlot (capacity : Nat) (h : List (Filed ω)) (position : Int) : Option (Filed ω) :=
  (kept capacity h).find? fun e => (capacity : Int) ∣ e.position - position

/-- The position that a number stands for was skipped, and its slot has something else that came
in under the same number. -/
structure Stale (capacity : Nat) (h : List (Filed ω)) (number : UInt16) (e : Filed ω) : Prop where
  covered : Covers h capacity (meant h number)
  skipped : ∀ x ∈ kept capacity h, x.position ≠ meant h number
  inSlot : lastInSlot capacity h (meant h number) = some e
  sameNumber : e.number = number

/-- The history of what comes in under some numbers, one after the other, behind another one. -/
def fileAll (h : List (Filed ω)) (adds : List (UInt16 × ω)) : List (Filed ω) :=
  adds.foldl (fun h a => file h a.1 a.2) h

theorem mem_of_mem_kept (he : e ∈ kept capacity h) : e ∈ h := by
  induction h with
  | nil => exact he
  | cons x h ih =>
    unfold kept at he
    split at he
    · exact (List.mem_cons.1 he).elim (fun same => same ▸ List.mem_cons_self)
        fun he => List.mem_cons_of_mem x (ih he)
    · exact List.mem_cons_of_mem x (ih he)

theorem position_le_newest (he : e ∈ h) : e.position ≤ newest h := by
  induction h with
  | nil => cases he
  | cons x h ih =>
    change e.position ≤ max x.position (newest h)
    rcases List.mem_cons.1 he with rfl | he
    · exact Int.le_max_left _ _
    · exact Int.le_trans (ih he) (Int.le_max_right _ _)

/-- Positions that a ring covers at one time are less than a ring apart. -/
theorem eq_of_covers {other : Int} (hp : Covers h capacity position) (ho : Covers h capacity other)
    (hd : (capacity : Int) ∣ position - other) : position = other := by
  obtain ⟨high, low⟩ := hp
  obtain ⟨high', low'⟩ := ho
  exact PacketRing.eq_of_dvd_sub hd (by omega) (by omega)

/-- What was stored at a position that is still covered has not been overwritten. -/
theorem lastInSlot_of_find (hc : Covers h capacity position)
    (hf : ((kept capacity h).find? fun e => e.position = position) = some e) :
    lastInSlot capacity h position = some e := by
  unfold lastInSlot
  induction h with
  | nil => cases hf
  | cons x h ih =>
    have mono : newest h ≤ newest (x :: h) := Int.le_max_right _ _
    -- Going back in time, the position stays covered as long as it has been filed.
    have earlier : e ∈ kept capacity h → e.position = position → Covers h capacity position := by
      intro he same
      have := position_le_newest (mem_of_mem_kept he)
      obtain ⟨-, low⟩ := hc
      exact ⟨by omega, by omega⟩
    have back : ((kept capacity h).find? fun e => e.position = position) = some e →
        ((kept capacity h).find? fun e => (capacity : Int) ∣ e.position - position) = some e :=
      fun hf => ih (earlier (List.mem_of_find?_eq_some hf) (of_decide_eq_true (List.find?_some hf :)))
        hf
    unfold kept at hf ⊢
    by_cases stored : Covers (x :: h) capacity x.position
    · rw [if_pos stored] at hf ⊢
      by_cases same : x.position = position
      · have shared : (capacity : Int) ∣ x.position - position := ⟨0, by omega⟩
        simp only [List.find?_cons, same, decide_true] at hf
        simpa only [List.find?_cons, shared, decide_true] using hf
      · have apart : ¬(capacity : Int) ∣ x.position - position :=
          fun hd => same (eq_of_covers stored hc hd)
        simp only [List.find?_cons, same, decide_false] at hf
        simpa only [List.find?_cons, apart, decide_false] using back hf
    · rw [if_neg stored] at hf ⊢
      exact back hf

theorem lookUp_eq_none_of_skipped (hs : ∀ x ∈ kept capacity h, x.position ≠ meant h number) :
    lookUp capacity h number = none := by
  unfold lookUp
  split
  · exact List.find?_eq_none.2 fun x hx => by simpa using hs x hx
  · rfl

/-- What is stale came in whole cycles before the position that its number stands for now, and
whole rings before it. -/
theorem Stale.behind (hs : Stale capacity h number e) (hc : Counted h) :
    ∃ k : Nat, 0 < k ∧ e.position = meant h number - k * 0x10000 ∧ capacity ∣ k * 0x10000 := by
  have stored : e ∈ kept capacity h := List.mem_of_find?_eq_some hs.inSlot
  have shared : (capacity : Int) ∣ e.position - meant h number :=
    of_decide_eq_true (List.find?_some hs.inSlot :)
  obtain ⟨same, -, high⟩ := hc.mem (mem_of_mem_kept stored)
  -- The two positions have one number, so that they are whole cycles apart.
  have cycles : e.position % 0x10000 = meant h number % 0x10000 := by
    rw [← ofInt_eq_iff, ← same, hs.sameNumber, meant, ofInt_near]
  have apart : e.position ≠ meant h number := hs.skipped e stored
  have before : e.position < meant h number := by
    obtain ⟨high', low'⟩ := hs.covered
    by_contra hlt
    exact apart (eq_of_covers ⟨high, by omega⟩ hs.covered shared)
  obtain ⟨k, hk⟩ : ∃ k : Nat, meant h number - e.position = k * 0x10000 :=
    ⟨((meant h number - e.position) / 0x10000).toNat, by omega⟩
  refine ⟨k, by omega, by omega, Int.natCast_dvd_natCast.1 ?_⟩
  have gap : ((k * 0x10000 : Nat) : Int) = -(e.position - meant h number) := by omega
  rw [gap]
  exact Int.dvd_neg.2 shared

end Filed

namespace PacketRing

open Filed Serial

variable {α ω : Type} {content : ω → α} {size : Nat} {r : PacketRing α} {h : List (Filed ω)}
  {e : Filed ω} {number : UInt16} {item : ω} {position : Int}

/-- A ring of some size has in each slot what was stored in it last. -/
structure Filled (content : ω → α) (size : Nat) (r : PacketRing α) (h : List (Filed ω)) : Prop
    extends InStep r h where
  holds : r.capacity = size
  slots : ∀ position, -0x10000 ≤ position →
    r.slotAt position = (lastInSlot size h position).map fun e => (e.number, content e.item)

theorem filled_ofCapacity (n : Nat) : Filled content (max n 1) (ofCapacity n) [] where
  toInStep := inStep_ofCapacity n
  holds := capacity_ofCapacity n
  slots position _ := by
    unfold slotAt ofCapacity
    rw [Array.getElem?_replicate]
    split <;> rfl

/-- The slot of the position at which something is stored has it, the others keep what they
have. -/
theorem InStep.slotAt_add (hs : r.InStep h) (number : UInt16) (a : α) (item : ω)
    (hp : -0x10000 ≤ position) :
    (r.add number a).slotAt position =
      if Covers (file h number item) r.capacity (next h number) ∧
          (r.capacity : Int) ∣ next h number - position then some (number, a)
      else r.slotAt position := by
  have covers : Covers (file h number item) r.capacity (next h number) ↔
      max (Filed.newest h) (next h number) - next h number < r.capacity := by
    rw [Covers, newest_file]
    omega
  by_cases hh : h = []
  · subst hh
    have capacity := hs.capacity
    have first : next ([] : List (Filed ω)) number = number.toNat := rfl
    have index : r.slotIndex number.toNat = r.slotIndex position ↔
        (r.capacity : Int) ∣ (number.toNat : Int) - position := slotIndex_eq_iff (by omega) hp
    have high : Covers (file ([] : List (Filed ω)) number item) r.capacity number.toNat := by
      rw [Covers, newest_file_nil]
      omega
    rw [first, add_eq_of_first (hs.start rfl) hs.capacity]
    by_cases same : (r.capacity : Int) ∣ (number.toNat : Int) - position
    · rw [if_pos ⟨high, same⟩]
      exact slotAt_put_shared hs.capacity (index.2 same)
    · rw [if_neg fun both => same both.2]
      exact slotAt_put_other (mt index.1 same)
  · rw [next_of_ne_nil hh] at covers ⊢
    rw [(hs.reaches hh).slotAt_add hp]
    simp only [covers]

theorem lastInSlot_file :
    lastInSlot size (file h number item) position =
      if Covers (file h number item) size (next h number) ∧
          (size : Int) ∣ next h number - position then some ⟨next h number, number, item⟩
      else lastInSlot size h position := by
  unfold lastInSlot
  rw [file, kept]
  by_cases stored : Covers (⟨next h number, number, item⟩ :: h) size (next h number)
  · rw [if_pos stored, List.find?_cons]
    simp only [stored, true_and]
    split <;> simp_all
  · rw [if_neg stored, if_neg fun both => stored both.1]

/-- Whatever is added to a ring, each slot has what was stored in it last. -/
theorem Filled.add (hf : Filled content size r h) (number : UInt16) (item : ω) :
    Filled content size (r.add number (content item)) (file h number item) where
  toInStep := hf.toInStep.add number _ item
  holds := (hf.capacity_add number _).trans hf.holds
  slots position hp := by
    rw [hf.slotAt_add number _ item hp, hf.holds, lastInSlot_file, hf.slots position hp]
    split <;> rfl

/-- A ring to which something is added under some numbers, one after the other. -/
def addAll (r : PacketRing α) (adds : List (UInt16 × α)) : PacketRing α :=
  adds.foldl (fun r a => r.add a.1 a.2) r

theorem Filled.addAll {h : List (Filed α)} (hf : Filled id size r h) (adds : List (UInt16 × α)) :
    Filled id size (r.addAll adds) (fileAll h adds) := by
  induction adds generalizing r h with
  | nil => exact hf
  | cons a adds ih => exact ih (hf.add a.1 a.2)

/-! ## Looking up -/

/-- What is found under a number is what is in the slot of the position that it stands for, if
that came in under the same number. -/
theorem Filled.get_eq (hf : Filled content size r h) (number : UInt16) :
    r.get? number =
      if Covers h size (meant h number) then
        (lastInSlot size h (meant h number)).bind fun e =>
          if e.number = number then some (content e.item) else none
      else none := by
  by_cases hh : h = []
  · subst hh
    have none : r.get? number = none := by
      rw [PacketRing.get?, hf.start rfl]
      rfl
    rw [none]
    split <;> rfl
  · have low := (near_bounds (Filed.newest h) number).1
    have nonneg := newest_nonneg h
    rw [(hf.reaches hh).get_eq_slotAt, hf.slots _ (by omega), hf.holds]
    unfold meant Covers
    cases lastInSlot size h (near (Filed.newest h) number) with
    | none => rfl
    | some e => rfl

/-- A ring answers with something whole cycles old, where that is what the slot has. -/
theorem Filled.get_of_stale (hf : Filled content size r h) (hs : Stale size h number e) :
    r.get? number = some (content e.item) := by
  rw [hf.get_eq, if_pos hs.covered, hs.inSlot, Option.bind_some, if_pos hs.sameNumber]

/-- If nothing is stale in the slot, a ring answers with what was stored last at the position. -/
theorem Filled.get_of_fresh (hf : Filled content size r h) (fresh : ¬∃ e, Stale size h number e) :
    r.get? number = (lookUp size h number).map fun e => content e.item := by
  rw [hf.get_eq]
  by_cases covered : Covers h size (meant h number)
  · rw [if_pos covered]
    have look : lookUp size h number =
        (kept size h).find? fun e => e.position = meant h number := if_pos covered
    rw [look]
    cases found : (kept size h).find? fun e => e.position = meant h number with
    | some e =>
      -- It has the number that was asked for, since it stands where that number belongs.
      have place : e.position = meant h number := of_decide_eq_true (List.find?_some found :)
      have stored := hf.counted.mem (mem_of_mem_kept (List.mem_of_find?_eq_some found))
      have same : e.number = number := by
        rw [stored.1, place, meant, ofInt_near]
      rw [lastInSlot_of_find covered found, Option.bind_some, if_pos same]
      rfl
    | none =>
      have skipped : ∀ x ∈ kept size h, x.position ≠ meant h number :=
        fun x hx => by simpa using List.find?_eq_none.1 found x hx
      cases slot : lastInSlot size h (meant h number) with
      | none => rfl
      | some e =>
        have other : e.number ≠ number := fun same => fresh ⟨e, covered, skipped, slot, same⟩
        rw [Option.bind_some, if_neg other]
        rfl
  · have look : lookUp size h number = none := if_neg covered
    rw [if_neg covered, look]
    rfl

end PacketRing

end Simulcast
