import Simulcast.Backlog
import Mathlib.Data.List.Basic

/-!
# Backlogs over positions

The keys of a backlog stand for positions, and the facts about them follow from the
positions too. `tabulate` is the backlog of a list of positions; on it every operation
is one on the list, as long as no two of the positions at hand share a key:

* `find?_tabulate`, `erase_tabulate`: one position;
* `insertEach_tabulate`: new positions go to the end;
* `dropOldestWhile_tabulate`: positions in order are forgotten up to a bound.

`mem_of_find?`, `mem_insertEach` and `mem_of_mem_keepNewest` say where the entries of a backlog
come from, whatever its keys.
-/

namespace Simulcast.Backlog

variable {α κ ν : Type}

/-- The backlog of some positions, in their order. -/
def tabulate (key : α → κ) (val : α → ν) (ps : List α) : Backlog κ ν :=
  { entries := ps.map fun p => (key p, val p) }

/-- Only the values at the positions in the list matter. -/
theorem tabulate_congr {key : α → κ} {val val' : α → ν} {ps : List α}
    (h : ∀ p ∈ ps, val p = val' p) : tabulate key val ps = tabulate key val' ps := by
  simp only [tabulate, mk.injEq]
  exact List.map_congr_left fun p hp => by rw [h p hp]

/-- A position is found by its key if it is in the list. -/
theorem find?_tabulate [DecidableEq κ] [DecidableEq α] {key : α → κ} (val : α → ν) {ps : List α} {p : α}
    (h : ∀ q ∈ ps, key q = key p → q = p) :
    (tabulate key val ps).find? (key p) = if p ∈ ps then some (val p) else none := by
  induction ps with
  | nil => rfl
  | cons q qs ih =>
    have ih := ih fun r hr => h r (List.mem_cons_of_mem _ hr)
    simp only [find?, tabulate, List.map_cons, List.find?_cons] at ih ⊢
    by_cases e : key q = key p
    · have := h q List.mem_cons_self e
      simp [this]
    · have hne : p ≠ q := fun e' => e (by rw [e'])
      simp only [beq_eq_false_iff_ne.2 e, ih, List.mem_cons, hne, false_or]

/-- To erase the key of a position is to take the position out of the list. -/
theorem erase_tabulate [DecidableEq κ] [DecidableEq α] {key : α → κ} (val : α → ν) {ps : List α}
    {p : α} (h : ∀ q ∈ ps, key q = key p → q = p) :
    (tabulate key val ps).erase (key p) = tabulate key val (ps.erase p) := by
  induction ps with
  | nil => rfl
  | cons q qs ih =>
    have ih := ih fun r hr => h r (List.mem_cons_of_mem _ hr)
    simp only [erase, tabulate, mk.injEq, List.map_cons, List.eraseP_cons, List.erase_cons] at ih ⊢
    by_cases e : key q = key p
    · simp [h q List.mem_cons_self e]
    · have hne : q ≠ p := fun e' => e (by rw [e'])
      simp only [beq_eq_false_iff_ne.2 e, beq_eq_false_iff_ne.2 hne, cond_false,
        Bool.false_eq_true, if_false, List.map_cons, ih]

/-- Positions with one value, none of whose keys is there yet, go to the end of the list. -/
theorem insertEach_tabulate [DecidableEq κ] {key : α → κ} (val : α → ν) {ps qs : List α} {v : ν}
    (hk : ∀ p ∈ ps, ∀ q ∈ qs, key p ≠ key q) (hv : ∀ q ∈ qs, val q = v) :
    (tabulate key val ps).insertEach (qs.map key) v = tabulate key val (ps ++ qs) := by
  have old : ∀ e ∈ (tabulate key val ps).entries, e.1 ∉ qs.map key := by
    simp only [tabulate, List.mem_map, not_exists, not_and]
    rintro _ ⟨p, hp, rfl⟩ q hq e
    exact hk p hp q hq e.symm
  have new : ∀ k ∈ qs.map key, (tabulate key val ps).contains k = false := by
    intro k hk'
    obtain ⟨q, hq, rfl⟩ := List.mem_map.1 hk'
    simp only [contains, tabulate, List.any_map, List.any_eq_false, Function.comp_apply, beq_iff_eq]
    exact fun p hp => hk p hp q hq
  have kept : ((tabulate key val ps).entries.map fun e => if e.1 ∈ qs.map key then (e.1, v) else e) =
      (tabulate key val ps).entries := by
    rw [List.map_congr_left fun e he => if_neg (old e he), List.map_id']
  have added : (((qs.map key).filter fun k => !(tabulate key val ps).contains k).map fun k => (k, v)) =
      (tabulate key val qs).entries := by
    rw [List.filter_eq_self.2 fun k hk' => by simp [new k hk'], List.map_map]
    exact List.map_congr_left fun q hq => by simp [hv q hq]
  simp only [insertEach, kept, added]
  simp only [tabulate, List.map_append]

/-- In a list in order, what is dropped from the front up to a bound is all that lies
below it. -/
theorem dropWhile_eq_filter {p : α → Bool} {ps : List α}
    (h : ps.Pairwise fun a b => p b = true → p a = true) :
    ps.dropWhile p = ps.filter fun a => !p a := by
  induction ps with
  | nil => rfl
  | cons a as ih =>
    obtain ⟨ha, has⟩ := List.pairwise_cons.1 h
    cases e : p a with
    | true => simp [e, ih has]
    | false =>
      have : ∀ b ∈ as, (!p b) = true := fun b hb => by
        have := ha b hb
        simp_all
      simp [e, List.filter_eq_self.2 this]

/-- Of positions in order, those are left that are not below the bound. -/
theorem dropOldestWhile_tabulate {key : α → κ} (val : α → ν) {ps : List α} {old : κ → Bool}
    {keep : α → Bool} (hk : ∀ p ∈ ps, old (key p) = !keep p)
    (h : ps.Pairwise fun a b => keep a = true → keep b = true) :
    (tabulate key val ps).dropOldestWhile old = tabulate key val (ps.filter keep) := by
  have h' : ps.Pairwise fun a b => old (key b) = true → old (key a) = true := by
    refine h.imp_of_mem fun {a b} ha hb hab hold => ?_
    rw [hk b hb] at hold
    rw [hk a ha]
    cases e : keep a with
    | true => simp [hab e] at hold
    | false => rfl
  simp only [dropOldestWhile, tabulate, List.dropWhile_map, mk.injEq]
  change List.map _ (List.dropWhile (fun p => old (key p)) ps) = _
  rw [dropWhile_eq_filter h']
  refine congrArg _ (List.filter_congr fun p hp => ?_)
  rw [hk p hp, Bool.not_not]

theorem mem_of_mem_keepNewest {b : Backlog κ ν} {n : Nat} {e : κ × ν}
    (h : e ∈ (b.keepNewest n).entries) : e ∈ b.entries :=
  List.mem_of_mem_drop h

/-! ## Keys that are met once -/

/-- No key is remembered twice. -/
def Distinct (b : Backlog κ ν) : Prop := (b.entries.map Prod.fst).Nodup

variable [DecidableEq κ]

theorem contains_eq_isSome (b : Backlog κ ν) (k : κ) : b.contains k = (b.find? k).isSome := by
  rw [contains, find?, Option.isSome_map, List.isSome_find?]

/-- An entry takes the place of the one with its key, or goes to the end. -/
theorem keys_insertEntry (k : κ) (v : ν) (es : List (κ × ν)) :
    (insertEntry k v es).map Prod.fst =
      if k ∈ es.map Prod.fst then es.map Prod.fst else es.map Prod.fst ++ [k] := by
  induction es with
  | nil => rfl
  | cons e es ih =>
    rw [insertEntry]
    by_cases he : e.1 = k
    · rw [if_pos he, List.map_cons, List.map_cons, if_pos (by rw [he]; exact List.mem_cons_self), he]
    · rw [if_neg he, List.map_cons, List.map_cons, ih]
      simp only [List.mem_cons, Ne.symm he, false_or]
      split <;> rfl

theorem Distinct.insert {b : Backlog κ ν} (h : b.Distinct) (k : κ) (v : ν) :
    (b.insert k v).Distinct := by
  unfold Distinct at h ⊢
  rw [Backlog.insert, keys_insertEntry]
  split
  · exact h
  · rename_i fresh
    rw [List.nodup_append]
    refine ⟨h, List.pairwise_singleton _ k, ?_⟩
    rintro j hj _ (_ | ⟨_, ⟨⟩⟩) rfl
    exact fresh hj

theorem Distinct.erase {b : Backlog κ ν} (h : b.Distinct) (k : κ) : (b.erase k).Distinct :=
  h.sublist ((List.eraseP_sublist).map Prod.fst)

theorem find?_erase_self {b : Backlog κ ν} (h : b.Distinct) (k : κ) : (b.erase k).find? k = none := by
  obtain ⟨entries⟩ := b
  simp only [Distinct, find?, erase, Option.map_eq_none_iff, List.find?_eq_none] at h ⊢
  induction entries with
  | nil => exact List.forall_mem_nil _
  | cons e es ih =>
    rw [List.map_cons, List.nodup_cons] at h
    by_cases he : e.1 = k
    · simp only [List.eraseP_cons, beq_iff_eq.2 he, cond_true]
      intro x hx same
      rw [he, ← beq_iff_eq.1 same] at h
      exact h.1 (List.mem_map_of_mem hx)
    · simp only [List.eraseP_cons, beq_eq_false_iff_ne.2 he, cond_false]
      exact List.forall_mem_cons.2 ⟨fun same => he (beq_iff_eq.1 same), ih h.2⟩

theorem find?_erase_of_ne (b : Backlog κ ν) {k j : κ} (h : j ≠ k) :
    (b.erase k).find? j = b.find? j := by
  simp only [find?, erase]
  induction b.entries with
  | nil => rfl
  | cons e es ih =>
    by_cases he : e.1 = k <;> by_cases hj : e.1 = j <;> simp_all

/-! ## What the entries come from -/

/-- What is found for a key was remembered with it. -/
theorem mem_of_find? {b : Backlog κ ν} {k : κ} {v : ν} (h : b.find? k = some v) :
    (k, v) ∈ b.entries := by
  obtain ⟨e, found, rfl⟩ := Option.map_eq_some_iff.1 h
  have key := List.find?_some found
  rw [← beq_iff_eq.1 key]
  exact List.mem_of_find?_eq_some found

/-- An entry was there before, or is one of those that are put in. -/
theorem mem_insertEach {b : Backlog κ ν} {ks : List κ} {v : ν} {e : κ × ν}
    (h : e ∈ (b.insertEach ks v).entries) : e ∈ b.entries ∨ e.1 ∈ ks ∧ e.2 = v := by
  rcases List.mem_append.1 h with old | new
  · obtain ⟨e', mem, rfl⟩ := List.mem_map.1 old
    split
    · exact .inr ⟨‹_›, rfl⟩
    · exact .inl mem
  · obtain ⟨k, mem, rfl⟩ := List.mem_map.1 new
    exact .inr ⟨(List.mem_filter.1 mem).1, rfl⟩

end Simulcast.Backlog
