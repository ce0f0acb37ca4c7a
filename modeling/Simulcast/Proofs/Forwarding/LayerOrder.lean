import Simulcast.Proofs.Forwarding.Allocation
import Simulcast.Proofs.Sorted
import Mathlib.Data.Prod.Lex

/-!
# The order of layers

Pairs of layers are ordered by their spatial layer first, as `Layers.lt` decides. The pairs
of a rectangle are listed in that order, so that a search from the top finds the greatest
pair of its kind:

* `highestFitting_isGreatest`, `highestFitting_eq_none`: what is found under a capacity;
* `exists_isGreatest_measured`: the best bitrate is that of the greatest pair measured, and
  `rate_eq_iff`: no other pair found under a capacity has it.
-/

namespace Simulcast

namespace Layers

/-- A pair as a word: the spatial layer counts first. -/
def key (l : Layers) : Int ×ₗ Int := toLex (l.spatial, l.temporal)

theorem key_injective : Function.Injective key := by
  rintro ⟨s, t⟩ ⟨s', t'⟩ h
  cases h
  rfl

instance : LinearOrder Layers := LinearOrder.lift' key key_injective

variable {a b : Layers}

theorem lt_iff :
    a < b ↔ a.spatial < b.spatial ∨ a.spatial = b.spatial ∧ a.temporal < b.temporal :=
  Prod.Lex.toLex_lt_toLex

theorem lt_eq_true : a.lt b = true ↔ a < b := by
  simp only [lt, Bool.or_eq_true, Bool.and_eq_true, decide_eq_true_eq, beq_iff_eq, lt_iff]

theorem lt_eq_false : a.lt b = false ↔ b ≤ a := by
  rw [← not_lt, ← lt_eq_true, Bool.not_eq_true]

/-- No pair of the grid is below none. -/
theorem none_lt_of_isValid (h : a.isValid = true) : none < a := by
  simp only [isValid, Bool.and_eq_true, decide_eq_true_eq] at h
  refine lt_iff.2 (.inl ?_)
  change (-1 : Int) < a.spatial
  omega

end Layers

theorem layerRange_pairwise (low high : Int) : (layerRange low high).Pairwise (· < ·) := by
  refine List.pairwise_map.2 (List.pairwise_lt_range.imp ?_)
  intro i j h
  omega

namespace Bitrates

/-! ## Pairs that are measured -/

variable (brs : Bitrates) (bound : Layers) (capacity : Int)

/-- The measured pairs of the grid up to a bound. -/
def measured : Set Layers :=
  {l | l.isValid = true ∧ l.within bound = true ∧ brs.rate l ≠ 0}

/-- Those of them that stay below a capacity. -/
def affordable : Set Layers := {l | l ∈ brs.measured bound ∧ brs.rate l < capacity}

variable {brs bound capacity} {l : Layers}

theorem mem_measured : l ∈ brs.measured bound ↔ l ∈ pairs ⟨0, 0⟩ bound ∧ brs.rate l ≠ 0 := by
  simp only [measured, Set.mem_ofPred_eq, Layers.isValid, Layers.within, Bool.and_eq_true,
    decide_eq_true_eq, mem_pairs, max_self]
  tauto

theorem mem_affordable :
    l ∈ brs.affordable bound capacity ↔
      l ∈ pairs ⟨0, 0⟩ bound ∧ brs.fits capacity l = true := by
  simp only [affordable, Set.mem_ofPred_eq, mem_measured, fits, Bool.and_eq_true, bne_iff_ne,
    decide_eq_true_eq, and_assoc]

/-- All bitrates stay below a capacity. -/
def Below (brs : Bitrates) (capacity : Int) : Prop :=
  ∀ row ∈ brs.toList, ∀ rate ∈ row.toList, rate < capacity

theorem Below.rate (h : brs.Below capacity) (h0 : 0 < capacity) (l : Layers) :
    brs.rate l < capacity :=
  rate_of_forall h0 h l

/-- With such a capacity, all that is measured can be afforded. -/
theorem Below.affordable_eq (h : brs.Below capacity) (h0 : 0 < capacity) :
    brs.affordable bound capacity = brs.measured bound :=
  Set.ext fun l => and_iff_left (h.rate h0 l)

/-- With more capacity, no pair is lost. -/
theorem affordable_mono {larger : Int} (h : capacity ≤ larger) :
    brs.affordable bound capacity ⊆ brs.affordable bound larger :=
  fun _ hl => ⟨hl.1, hl.2.trans_le h⟩

@[simp] theorem rate_zero (l : Layers) : zero.rate l = 0 :=
  rate_of_forall (P := (· = 0)) rfl (by decide) l

/-- Of nothing measured, no pair is. -/
theorem measured_zero : zero.measured bound = ∅ :=
  Set.eq_empty_iff_forall_notMem.2 fun l hl => hl.2.2 (rate_zero l)

/-- Nothing is no measured pair. -/
theorem none_not_mem_measured : Layers.none ∉ brs.measured bound := fun h =>
  Bool.false_ne_true h.1

/-! ## Searches from the top -/

theorem pairs_pairwise (low high : Layers) : (pairs low high).Pairwise (· < ·) := by
  refine List.pairwise_flatMap.2 ⟨fun s _ => List.pairwise_map.2 ?_, ?_⟩
  · refine (layerRange_pairwise _ _).imp ?_
    intro t t' h
    exact Layers.lt_iff.2 (.inr ⟨rfl, h⟩)
  · refine (layerRange_pairwise _ _).imp ?_
    intro s s' h a ha b hb
    obtain ⟨_, -, rfl⟩ := List.mem_map.1 ha
    obtain ⟨_, -, rfl⟩ := List.mem_map.1 hb
    exact Layers.lt_iff.2 (.inl h)

/-- The first pair of its kind from the top is the greatest one. -/
theorem isGreatest_of_find? {p : Layers → Bool} {low high : Layers}
    (h : (pairs low high).reverse.find? p = some l) :
    IsGreatest {l | l ∈ pairs low high ∧ p l = true} l := by
  refine ⟨⟨List.mem_reverse.1 (List.mem_of_find?_eq_some h), List.find?_some h⟩, ?_⟩
  rintro other ⟨hm, hp⟩
  have falling : (pairs low high).reverse.Pairwise (· > ·) :=
    List.pairwise_reverse.2 (pairs_pairwise low high)
  rcases rel_of_find? falling h (List.mem_reverse.2 hm) hp with rfl | below
  · exact le_rfl
  · exact le_of_lt below

theorem highestFitting_isGreatest (h : brs.highestFitting ⟨0, 0⟩ bound capacity = some l) :
    IsGreatest (brs.affordable bound capacity) l := by
  have kind : brs.affordable bound capacity =
      {l | l ∈ pairs ⟨0, 0⟩ bound ∧ brs.fits capacity l = true} :=
    Set.ext fun _ => mem_affordable
  rw [kind]
  exact isGreatest_of_find? h

theorem highestFitting_eq_none :
    brs.highestFitting ⟨0, 0⟩ bound capacity = none ↔ brs.affordable bound capacity = ∅ := by
  simp only [highestFitting, List.find?_eq_none, List.mem_reverse, Set.eq_empty_iff_forall_notMem,
    mem_affordable, not_and]

/-! ## The best pair -/

/-- If anything is measured, there is a greatest pair of it, and its bitrate is the best. -/
theorem exists_isGreatest_measured (h : (brs.measured bound).Nonempty) :
    ∃ top, IsGreatest (brs.measured bound) top ∧ brs.bestWithin bound = brs.rate top := by
  obtain ⟨l, hl⟩ := h
  have valid : bound.isValid = true := by
    obtain ⟨hv, hw, -⟩ := hl
    simp only [Layers.isValid, Layers.within, Bool.and_eq_true, decide_eq_true_eq] at hv hw ⊢
    omega
  have kind : brs.measured bound =
      {l | l ∈ pairs ⟨0, 0⟩ bound ∧ (brs.rate l != 0) = true} :=
    Set.ext fun _ => mem_measured.trans (and_congr_right' bne_iff_ne.symm)
  rw [bestWithin, if_pos valid, kind]
  cases hf : (pairs ⟨0, 0⟩ bound).reverse.find? fun l => brs.rate l != 0 with
  | none =>
    have absent := List.find?_eq_none.1 hf l (List.mem_reverse.2 (mem_measured.1 hl).1)
    exact absurd (bne_iff_ne.2 hl.2.2) absent
  | some top => exact ⟨top, isGreatest_of_find? hf, rfl⟩

theorem bestWithin_eq_zero_iff : brs.bestWithin bound = 0 ↔ brs.measured bound = ∅ := by
  constructor
  · intro h
    by_contra hn
    obtain ⟨top, htop, best⟩ :=
      exists_isGreatest_measured (Set.nonempty_iff_ne_empty.2 hn)
    exact htop.1.2.2 (best.symm.trans h)
  · intro h
    unfold bestWithin
    split
    · split
      · rename_i l hf
        exact absurd (isGreatest_of_find? hf).1 fun hl =>
          Set.notMem_empty l (h ▸ mem_measured.2 ⟨hl.1, bne_iff_ne.1 hl.2⟩)
      · rfl
    · rfl

/-- A pair that is the greatest under a capacity has the best bitrate only if it is the
greatest one measured. -/
theorem rate_eq_iff {top : Layers} (h : IsGreatest (brs.affordable bound capacity) l)
    (htop : IsGreatest (brs.measured bound) top) : brs.rate l = brs.rate top ↔ l = top := by
  constructor
  · intro same
    -- The greatest pair has the same bitrate, so that it stays below the capacity too.
    have fits : top ∈ brs.affordable bound capacity := ⟨htop.1, same ▸ h.1.2⟩
    exact le_antisymm (htop.2 h.1.1) (h.2 fits)
  · rintro rfl
    rfl

end Bitrates
end Simulcast
