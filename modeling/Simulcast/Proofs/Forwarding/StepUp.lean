import Simulcast.Proofs.Forwarding.Target

/-!
# The pairs above a target

A step up looks for a higher temporal layer in the spatial layer of the target first, and then
for a pair in the spatial layers above it. The two searches together find a pair if and only if
there is one that is measured above the target (`nextHigher?_eq_none`).
-/

namespace Simulcast.Forwarder

/-- The measured pairs that are a step up from the target. In the spatial layer of the target
they need not keep to the spatial bound. -/
def above (f : Forwarder) (brs : Bitrates) : Set Layers :=
  {l | l.isValid = true ∧ l.temporal ≤ f.bound.temporal ∧ brs.rate l ≠ 0 ∧
    brs.rate l < unlimited ∧
    (f.target ≠ .none ∧ l.spatial = f.target.spatial ∧ f.target.temporal < l.temporal ∨
      f.target.spatial < l.spatial ∧ l.spatial ≤ f.bound.spatial)}

/-- The pair that a step up finds. -/
def nextHigher? (f : Forwarder) (brs : Bitrates) : Option Layers :=
  (f.higherTemporal brs).or (f.higherSpatial brs)

variable {f : Forwarder} {brs : Bitrates} {l : Layers}

/-- The pairs of a rectangle that the search takes. -/
theorem mem_pairs_fits {low high : Layers} :
    (l ∈ Bitrates.pairs low high ∧ brs.fits unlimited l = true) ↔
      l.isValid = true ∧ low.spatial ≤ l.spatial ∧ l.spatial ≤ high.spatial ∧
        low.temporal ≤ l.temporal ∧ l.temporal ≤ high.temporal ∧
        brs.rate l ≠ 0 ∧ brs.rate l < unlimited := by
  simp only [Bitrates.mem_pairs, Bitrates.fits, Layers.isValid, Bool.and_eq_true, bne_iff_ne,
    decide_eq_true_eq]
  omega

/-- A pair above the target is one that one of the two searches takes. -/
theorem mem_above_iff :
    l ∈ f.above brs ↔
      (f.target ≠ .none ∧ l ∈ Bitrates.pairs ⟨f.target.spatial, f.target.temporal + 1⟩
          ⟨f.target.spatial, f.bound.temporal⟩ ∧ brs.fits unlimited l = true) ∨
        l ∈ Bitrates.pairs ⟨f.target.spatial + 1, 0⟩ f.bound ∧ brs.fits unlimited l = true := by
  rw [mem_pairs_fits, mem_pairs_fits]
  simp only [above, Set.mem_ofPred_eq, Layers.isValid, Bool.and_eq_true, decide_eq_true_eq]
  constructor
  · rintro ⟨valid, top, rated, free, ⟨some, same, higher⟩ | ⟨higher, bound⟩⟩
    · exact .inl ⟨some, valid, by omega, by omega, by omega, top, rated, free⟩
    · exact .inr ⟨valid, by omega, bound, valid.2, top, rated, free⟩
  · rintro (⟨some, valid, low, high, higher, top, rated, free⟩ |
      ⟨valid, higher, bound, -, top, rated, free⟩)
    · exact ⟨valid, top, rated, free, .inl ⟨some, by omega, by omega⟩⟩
    · exact ⟨valid, top, rated, free, .inr ⟨by omega, bound⟩⟩

/-- What a step up finds is above the target. -/
theorem mem_above_of_nextHigher? (h : f.nextHigher? brs = some l) : l ∈ f.above brs := by
  rw [mem_above_iff]
  rcases Option.or_eq_some_iff.1 h with temporal | ⟨-, spatial⟩
  · unfold higherTemporal at temporal
    split at temporal
    · cases temporal
    · exact .inl ⟨‹_›, List.mem_of_find?_eq_some temporal, List.find?_some temporal⟩
  · exact .inr ⟨List.mem_of_find?_eq_some spatial, List.find?_some spatial⟩

/-- A step up finds nothing if and only if nothing is above the target. -/
theorem nextHigher?_eq_none : f.nextHigher? brs = none ↔ f.above brs = ∅ := by
  constructor
  · intro h
    obtain ⟨temporal, spatial⟩ := Option.or_eq_none_iff.1 h
    refine Set.eq_empty_iff_forall_notMem.2 fun l hl => ?_
    rcases mem_above_iff.1 hl with ⟨some, inside, fits⟩ | ⟨inside, fits⟩
    · rw [higherTemporal, if_neg some] at temporal
      exact List.find?_eq_none.1 temporal l inside fits
    · exact List.find?_eq_none.1 spatial l inside fits
  · intro h
    refine Option.eq_none_iff_forall_ne_some.2 fun l hl => ?_
    exact Set.notMem_empty l (h ▸ mem_above_of_nextHigher? hl)

/-- A pair above the target is another one. -/
theorem ne_target_of_mem_above (h : l ∈ f.above brs) : l ≠ f.target := by
  rintro rfl
  rcases h.2.2.2.2 with ⟨-, -, higher⟩ | ⟨higher, -⟩ <;> exact lt_irrefl _ higher

/-- A step up settles on the pair that it finds. -/
theorem allocateNextHigher_of_stepsUp (h : f.StepsUp brs) :
    f.allocateNextHigher brs = f.settle brs (f.bandwidthNeeded brs) (f.nextHigher? brs) false :=
  allocateNextHigher_eq h

end Simulcast.Forwarder
