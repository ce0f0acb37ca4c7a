import Simulcast.Publication.SubscriberTable
import Simulcast.Publication.FanOut
import Simulcast.Proofs.Backlog
import Mathlib.Data.List.Nodup

/-!
# Slots, index and free list of a subscriber table

A table is `Sound` if its three parts agree: the index leads each peer to a slot of its own, the
slots that it leads to are those that hold somebody, and the free list names the other slots, each
once. Adding and removing keep a table sound; what they change is told by `subscriber?`, the
subscriber that the index leads to, peer by peer.

`nodup_members` and `mem_members_iff` compare that with the list of all subscribers, and
`FanOut.order_eq` says that this list is what is served, shared among workers or not.
-/

namespace Simulcast

namespace SubscriberTable

variable {α : Type} {t : SubscriberTable α} {peer other : String} {slot : Nat} {a : α}

/-- The subscriber of a peer. -/
def subscriber? (t : SubscriberTable α) (peer : String) : Option α :=
  (t.index.find? peer).bind fun slot => t.slots[slot]?.join

/-- The parts of a table agree. -/
structure Sound (t : SubscriberTable α) : Prop where
  distinct : t.index.Distinct
  injective : ∀ {peer other slot}, t.index.find? peer = some slot →
    t.index.find? other = some slot → peer = other
  filled : ∀ slot, (∃ a, t.slots[slot]? = some (some a)) ↔ ∃ peer, t.index.find? peer = some slot
  freeNodup : t.free.Nodup
  mem_free : ∀ slot, slot ∈ t.free ↔ t.slots[slot]? = some none

theorem contains_eq_isSome : t.contains peer = (t.index.find? peer).isSome :=
  Backlog.contains_eq_isSome _ _

/-! ## Slots -/

/-- A peer in the index has a subscriber in its slot. -/
theorem Sound.exists_slot (h : t.Sound) (hp : t.index.find? peer = some slot) :
    ∃ a, t.slots[slot]? = some (some a) ∧ t.subscriber? peer = some a := by
  obtain ⟨a, ha⟩ := (h.filled slot).2 ⟨peer, hp⟩
  exact ⟨a, ha, by rw [subscriber?, hp, Option.bind_some, ha]; rfl⟩

theorem Sound.isSome_subscriber? (h : t.Sound) (peer : String) :
    (t.subscriber? peer).isSome = t.contains peer := by
  rw [contains_eq_isSome]
  cases hp : t.index.find? peer with
  | none => rw [subscriber?, hp]; rfl
  | some slot =>
    obtain ⟨a, -, ha⟩ := h.exists_slot hp
    rw [ha]; rfl

/-- A subscriber in a slot is that of the one peer whose slot it is. -/
theorem Sound.slot_eq_some_iff (h : t.Sound) :
    t.slots[slot]? = some (some a) ↔
      ∃ peer, t.index.find? peer = some slot ∧ t.subscriber? peer = some a := by
  constructor
  · intro ha
    obtain ⟨peer, hp⟩ := (h.filled slot).1 ⟨a, ha⟩
    exact ⟨peer, hp, by rw [subscriber?, hp, Option.bind_some, ha]; rfl⟩
  · rintro ⟨peer, hp, ha⟩
    obtain ⟨b, hb, hs⟩ := h.exists_slot hp
    rw [hb, ← hs, ha]

/-- A free slot is no peer's slot. -/
theorem Sound.ne_of_mem_free (h : t.Sound) (hf : slot ∈ t.free) :
    t.index.find? peer ≠ some slot := by
  intro hp
  obtain ⟨a, ha, -⟩ := h.exists_slot hp
  rw [(h.mem_free slot).1 hf] at ha
  cases ha

theorem Sound.lt_length (h : t.Sound) (hp : t.index.find? peer = some slot) :
    slot < t.slots.length := by
  obtain ⟨a, ha, -⟩ := h.exists_slot hp
  exact (List.getElem?_eq_some_iff.1 ha).1

/-! ## Adding -/

theorem sound_empty : ({} : SubscriberTable α).Sound where
  distinct := List.nodup_nil
  injective := nofun
  filled _ := ⟨nofun, nofun⟩
  freeNodup := List.nodup_nil
  mem_free _ := ⟨nofun, nofun⟩

/-- The slot that a new subscriber takes. -/
def nextSlot (t : SubscriberTable α) : Nat := t.free.head?.getD t.slots.length

theorem index_add : (t.add peer a).index = t.index.insert peer t.nextSlot := by
  unfold add nextSlot
  split <;> simp only [*, List.head?_cons, List.head?_nil, Option.getD_some, Option.getD_none]

theorem free_add : (t.add peer a).free = t.free.tail := by
  unfold add
  split <;> simp only [*, List.tail_cons, List.tail_nil]

/-- A new subscriber takes the next slot, which was free. -/
theorem Sound.slots_add (h : t.Sound) (slot : Nat) :
    (t.add peer a).slots[slot]? = if slot = t.nextSlot then some (some a) else t.slots[slot]? := by
  unfold add nextSlot
  split
  · rename_i first rest hf
    have free : t.slots[first]? = some none := (h.mem_free first).1 (by rw [hf]; exact List.mem_cons_self)
    rw [hf, List.head?_cons, Option.getD_some, List.getElem?_set]
    by_cases e : first = slot
    · rw [if_pos e, if_pos e.symm, if_pos (List.getElem?_eq_some_iff.1 free).1]
    · rw [if_neg e, if_neg (Ne.symm e)]
  · rename_i hf
    rw [hf, List.head?_nil, Option.getD_none]
    by_cases e : slot = t.slots.length
    · rw [if_pos e, e, List.getElem?_concat_length]
    · rw [if_neg e, List.getElem?_append]
      split
      · rfl
      · rw [List.getElem?_eq_none (by simp only [List.length_singleton]; omega),
          List.getElem?_eq_none (by omega)]

/-- The slot that is taken was nobody's. -/
theorem Sound.nextSlot_vacant (h : t.Sound) : t.index.find? other ≠ some t.nextSlot := by
  unfold nextSlot
  cases hf : t.free with
  | nil => exact fun hp => absurd (h.lt_length hp) (Nat.lt_irrefl _)
  | cons first rest => exact h.ne_of_mem_free (by rw [hf]; exact List.mem_cons_self)

/-- It is free no longer. -/
theorem Sound.mem_tail_free (h : t.Sound) :
    slot ∈ t.free.tail ↔ slot ∈ t.free ∧ slot ≠ t.nextSlot := by
  unfold nextSlot
  cases hf : t.free with
  | nil => exact iff_of_false List.not_mem_nil fun hm => List.not_mem_nil hm.1
  | cons first rest =>
    obtain ⟨fresh, -⟩ := List.nodup_cons.1 (hf ▸ h.freeNodup)
    rw [List.tail_cons, List.mem_cons, List.head?_cons, Option.getD_some]
    exact ⟨fun hm => ⟨.inr hm, fun e => fresh (e ▸ hm)⟩, fun ⟨hm, e⟩ => hm.resolve_left e⟩

theorem find?_add_eq_some_iff (hp : t.contains peer = false) :
    (t.add peer a).index.find? other = some slot ↔
      other = peer ∧ slot = t.nextSlot ∨ t.index.find? other = some slot := by
  rw [contains_eq_isSome, Option.isSome_eq_false_iff, Option.isNone_iff_eq_none] at hp
  rw [index_add]
  by_cases e : other = peer
  · rw [e, Backlog.find?_insert_self, hp, Option.some.injEq]
    simp only [true_and, reduceCtorEq, or_false]
    exact eq_comm
  · rw [Backlog.find?_insert_of_ne _ _ e]
    simp only [e, false_and, false_or]

theorem Sound.add (h : t.Sound) (hp : t.contains peer = false) : (t.add peer a).Sound where
  distinct := by
    rw [index_add]
    exact h.distinct.insert _ _
  injective := by
    intro p q slot hp' hq'
    rw [find?_add_eq_some_iff hp] at hp' hq'
    rcases hp' with ⟨rfl, rfl⟩ | hp' <;> rcases hq' with ⟨rfl, hs⟩ | hq'
    · rfl
    · exact absurd hq' h.nextSlot_vacant
    · exact absurd (hs ▸ hp') h.nextSlot_vacant
    · exact h.injective hp' hq'
  filled slot := by
    simp only [h.slots_add, find?_add_eq_some_iff hp]
    by_cases e : slot = t.nextSlot
    · simp only [e, if_true, and_true]
      exact ⟨fun _ => ⟨peer, .inl rfl⟩, fun _ => ⟨a, rfl⟩⟩
    · simp only [e, if_false, and_false, false_or]
      exact h.filled slot
  freeNodup := by
    rw [free_add]
    exact h.freeNodup.tail
  mem_free slot := by
    rw [free_add, h.slots_add, h.mem_tail_free, h.mem_free]
    by_cases e : slot = t.nextSlot
    · rw [if_pos e]
      exact iff_of_false (fun hm => hm.2 e) nofun
    · rw [if_neg e, and_iff_left e]

theorem Sound.subscriber?_add (h : t.Sound) (hp : t.contains peer = false) (other : String) :
    (t.add peer a).subscriber? other = if other = peer then some a else t.subscriber? other := by
  ext b
  have sound : (t.add peer a).Sound := h.add hp
  by_cases e : other = peer
  · rw [if_pos e, e]
    have found : (t.add peer a).index.find? peer = some t.nextSlot :=
      (find?_add_eq_some_iff hp).2 (.inl ⟨rfl, rfl⟩)
    rw [subscriber?, found, Option.bind_some, h.slots_add, if_pos rfl]
    rfl
  · rw [if_neg e, subscriber?, subscriber?, index_add, Backlog.find?_insert_of_ne _ _ e]
    cases hq : t.index.find? other with
    | none => rfl
    | some slot =>
      rw [Option.bind_some, Option.bind_some, h.slots_add, if_neg]
      rintro rfl
      exact h.nextSlot_vacant hq

/-- The table only grows when no slot is free. -/
theorem free_eq_nil_of_length_lt (hl : t.slots.length < (t.add peer a).slots.length) :
    t.free = [] := by
  unfold add at hl
  split at hl
  · rw [List.length_set] at hl
    exact absurd hl (Nat.lt_irrefl _)
  · assumption

/-! ## Removing -/

theorem length_remove : (t.remove peer).slots.length = t.slots.length := by
  unfold remove
  split
  · rfl
  · exact List.length_set

theorem Sound.find?_remove (h : t.Sound) : (t.remove peer).index.find? other =
    if other = peer then none else t.index.find? other := by
  unfold remove
  split
  · rename_i nobody
    split
    · rename_i e
      rw [e, nobody]
    · rfl
  · by_cases e : other = peer
    · rw [if_pos e, e, Backlog.find?_erase_self h.distinct]
    · rw [if_neg e, Backlog.find?_erase_of_ne _ e]

theorem Sound.find?_remove_eq_some_iff (h : t.Sound) :
    (t.remove peer).index.find? other = some slot ↔
      other ≠ peer ∧ t.index.find? other = some slot := by
  rw [h.find?_remove, Option.ite_none_left_eq_some]

/-- The slot of a subscriber that leaves is free, and the others stay as they are. -/
theorem Sound.slots_remove (h : t.Sound) (hp : t.index.find? peer = some slot) (s : Nat) :
    (t.remove peer).slots[s]? = if s = slot then some none else t.slots[s]? := by
  rw [remove, hp]
  simp only [List.getElem?_set]
  by_cases e : slot = s
  · rw [if_pos e, if_pos e.symm, if_pos (h.lt_length hp)]
  · rw [if_neg e, if_neg (Ne.symm e)]

theorem Sound.remove (h : t.Sound) (peer : String) : (t.remove peer).Sound := by
  cases hp : t.index.find? peer with
  | none =>
    rw [SubscriberTable.remove, hp]
    exact h
  | some slot =>
    have free : (t.remove peer).free = slot :: t.free := by rw [SubscriberTable.remove, hp]
    have others {other s : _} (hq : t.index.find? other = some s) : s = slot ↔ other = peer :=
      ⟨fun e => h.injective hq (e ▸ hp), fun e => Option.some.inj (hq.symm.trans (e ▸ hp))⟩
    refine ⟨?distinct, ?injective, ?filled, ?freeNodup, ?mem_free⟩
    case distinct =>
      rw [SubscriberTable.remove, hp]
      exact h.distinct.erase peer
    case injective =>
      intro p q s hp' hq'
      rw [h.find?_remove_eq_some_iff] at hp' hq'
      exact h.injective hp'.2 hq'.2
    case filled =>
      intro s
      simp only [h.slots_remove hp, h.find?_remove_eq_some_iff]
      by_cases e : s = slot
      · rw [if_pos e]
        refine iff_of_false nofun ?_
        rintro ⟨other, ne, hq⟩
        exact ne ((others hq).1 e)
      · rw [if_neg e, h.filled]
        exact exists_congr fun other =>
          ⟨fun hq => ⟨fun e' => e ((others hq).2 e'), hq⟩, fun hq => hq.2⟩
    case freeNodup =>
      rw [free, List.nodup_cons]
      exact ⟨fun hf => h.ne_of_mem_free hf hp, h.freeNodup⟩
    case mem_free =>
      intro s
      rw [free, h.slots_remove hp, List.mem_cons, h.mem_free]
      by_cases e : s = slot
      · rw [if_pos e]
        exact iff_of_true (.inl e) rfl
      · rw [if_neg e]
        exact or_iff_right e

theorem Sound.subscriber?_remove (h : t.Sound) (peer other : String) :
    (t.remove peer).subscriber? other = if other = peer then none else t.subscriber? other := by
  rw [subscriber?, h.find?_remove]
  by_cases e : other = peer
  · rw [if_pos e, if_pos e]
    rfl
  rw [if_neg e, if_neg e, subscriber?]
  cases hq : t.index.find? other with
  | none => rfl
  | some s =>
    cases hp : t.index.find? peer with
    | none => rw [SubscriberTable.remove, hp]
    | some slot =>
      rw [Option.bind_some, Option.bind_some, h.slots_remove hp, if_neg]
      rintro rfl
      exact e (h.injective hq hp)

/-! ## All subscribers -/

theorem mem_members : a ∈ t.members ↔ ∃ slot : Nat, t.slots[slot]? = some (some a) := by
  rw [members, List.mem_filterMap]
  exact ⟨fun ⟨_, hm, he⟩ => he ▸ List.mem_iff_getElem?.1 hm,
    fun hs => ⟨some a, List.mem_iff_getElem?.2 hs, rfl⟩⟩

theorem Sound.mem_members_add {b : α} (h : t.Sound) (hm : b ∈ (t.add peer a).members) :
    b = a ∨ b ∈ t.members := by
  obtain ⟨slot, hs⟩ := mem_members.1 hm
  rw [h.slots_add] at hs
  split at hs
  · exact .inl (Option.some.inj (Option.some.inj hs)).symm
  · exact .inr (mem_members.2 ⟨slot, hs⟩)

theorem Sound.mem_members_remove (h : t.Sound) (hm : a ∈ (t.remove peer).members) :
    a ∈ t.members := by
  cases hp : t.index.find? peer with
  | none => rwa [SubscriberTable.remove, hp] at hm
  | some s =>
    obtain ⟨slot, hs⟩ := mem_members.1 hm
    rw [h.slots_remove hp] at hs
    split at hs
    · cases hs
    · exact mem_members.2 ⟨slot, hs⟩

theorem Sound.mem_members_iff (h : t.Sound) :
    a ∈ t.members ↔ ∃ peer, t.subscriber? peer = some a := by
  rw [mem_members]
  constructor
  · rintro ⟨slot, hs⟩
    obtain ⟨peer, -, hp⟩ := h.slot_eq_some_iff.1 hs
    exact ⟨peer, hp⟩
  · rintro ⟨peer, hp⟩
    obtain ⟨slot, hs, -⟩ := Option.bind_eq_some_iff.1 hp
    exact ⟨slot, h.slot_eq_some_iff.2 ⟨peer, hs, hp⟩⟩

/-- If nobody is the subscriber of two peers, nobody is listed twice. -/
theorem Sound.nodup_members (h : t.Sound)
    (one : ∀ {peer other a}, t.subscriber? peer = some a → t.subscriber? other = some a → peer = other) :
    t.members.Nodup := by
  refine List.pairwise_filterMap.2 (List.pairwise_iff_getElem.2 ?_)
  rintro i j hi hj hij a ha _ hb rfl
  obtain ⟨p, hp, pa⟩ := h.slot_eq_some_iff.1 (List.getElem?_eq_some_iff.2 ⟨hi, ha⟩)
  obtain ⟨q, hq, qa⟩ := h.slot_eq_some_iff.1 (List.getElem?_eq_some_iff.2 ⟨hj, hb⟩)
  rw [one pa qa, hq] at hp
  exact absurd (Option.some.inj hp) (Nat.ne_of_gt hij)

end SubscriberTable

namespace FanOut

variable {α : Type}

theorem flatten_stretches {n : Nat} {slots : List α} (h : slots.length ≤ n) :
    (stretches n slots).flatten = slots := by
  induction n generalizing slots with
  | zero => rw [List.length_eq_zero_iff.1 (Nat.le_zero.1 h)]; rfl
  | succ n ih =>
    cases slots with
    | nil => rfl
    | cons s slots =>
      have shorter : ((s :: slots).drop stretchLength).length ≤ n := by
        rw [List.length_drop, stretchLength]
        omega
      rw [stretches, List.flatten_cons, ih shorter, List.take_append_drop]
      exact List.cons_ne_nil s slots

/-- Each slot is served once, in order, with workers as without. -/
theorem order_eq (threshold subscribers : Nat) (slots : List α) :
    order threshold subscribers slots = slots := by
  unfold order
  split
  · exact flatten_stretches (Nat.le_refl _)
  · rfl

end FanOut

end Simulcast
