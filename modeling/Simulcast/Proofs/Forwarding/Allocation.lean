import Simulcast.Forwarding.Forwarder
import Simulcast.Proofs.Forwarding.Gate
import Mathlib.Data.List.Basic

/-!
# Allocations at the gate

An allocation keeps the gate as it is, aims for a pair of layers that it found, or for
none, or stops the stream and clears the layer that is sent (`Gate.Allocated`). Which
one of these is told by the allocation itself: `gate_settle` and
`settleUnmeasured_allocated` for its two ways to settle, `allocate_allocated` and those
after it for the commands.
-/

namespace Simulcast

/-- The layers from `low` to `high`. -/
theorem mem_layerRange {low high layer : Int} :
    layer ∈ layerRange low high ↔ low ≤ layer ∧ layer ≤ high := by
  simp only [layerRange, List.mem_map, List.mem_range]
  constructor
  · rintro ⟨i, hi, rfl⟩
    omega
  · rintro ⟨h1, h2⟩
    exact ⟨(layer - low).toNat, by omega, by omega⟩

namespace Bitrates

theorem mem_pairs {low high l : Layers} :
    l ∈ pairs low high ↔
      (max low.spatial 0 ≤ l.spatial ∧ l.spatial ≤ high.spatial) ∧
        max low.temporal 0 ≤ l.temporal ∧ l.temporal ≤ high.temporal := by
  simp only [pairs, List.mem_flatMap, List.mem_map, mem_layerRange]
  constructor
  · rintro ⟨s, hs, t, ht, rfl⟩
    exact ⟨hs, ht⟩
  · rintro ⟨hs, ht⟩
    exact ⟨l.spatial, hs, l.temporal, ht, rfl⟩

variable {brs : Bitrates} {low high l : Layers} {capacity : Int}

/-- What holds of zero and of all bitrates holds of the bitrate of every pair. -/
theorem rate_of_forall {P : Int → Prop} (zero : P 0)
    (h : ∀ row ∈ brs.toList, ∀ rate ∈ row.toList, P rate) (l : Layers) : P (brs.rate l) := by
  unfold rate
  split
  · split
    · rename_i row hrow
      cases hr : row[l.temporal.toNat]? with
      | none => exact zero
      | some rate =>
        exact h row (Vector.mem_toList_iff.2 (Vector.mem_of_getElem? hrow)) rate
          (Vector.mem_toList_iff.2 (Vector.mem_of_getElem? hr))
    · exact zero
  · exact zero

theorem mem_of_lowestFitting (h : brs.lowestFitting low high capacity = some l) :
    l ∈ pairs low high := List.mem_of_find?_eq_some h

/-- Nothing is no pair of a rectangle. -/
theorem ne_none_of_mem_pairs (h : l ∈ pairs low high) : l ≠ .none := by
  rintro rfl
  have nonneg : max low.temporal 0 ≤ -1 := (mem_pairs.1 h).2.1
  omega

theorem mem_of_highestFitting (h : brs.highestFitting low high capacity = some l) :
    l ∈ pairs low high := List.mem_reverse.1 (List.mem_of_find?_eq_some h)

end Bitrates

namespace Gate

/-- A target that an allocation may choose. -/
def Choice (target : Layers) : Prop := target = .none ∨ 0 ≤ target.temporal

/-- What an allocation makes of a gate. -/
inductive Allocated (g : Gate) : Gate → Prop where
  | kept : Allocated g g
  | aimed (target : Layers) (h : Choice target) : Allocated g (g.aim target)
  | stopped : Allocated g ({ g with sent := -1 }.aim .none)

variable {g g' : Gate}

theorem Allocated.kind (h : g.Allocated g') : g'.kind = g.kind := by
  cases h <;> simp

theorem Allocated.bound (h : g.Allocated g') : g'.bound = g.bound := by
  cases h <;> simp

/-- An allocation clears the layer that is sent, if it changes it. -/
theorem Allocated.sent (h : g.Allocated g') : g'.sent = g.sent ∨ g'.sent = -1 := by
  cases h <;> simp

theorem Allocated.choice (h : g.Allocated g') (hc : Choice g.target) : Choice g'.target := by
  cases h with
  | kept => exact hc
  | aimed target ht => rwa [aim_target]
  | stopped => exact .inl aim_target

/-- As long as the target stays, so does the layer for which a key frame has been
asked. -/
theorem Allocated.keyFrameAsked (h : g.Allocated g') (ht : g'.target = g.target) :
    g'.keyFrameAsked = g.keyFrameAsked := by
  cases h with
  | kept => rfl
  | aimed target => rw [aim_eq_self ht]
  | stopped => rw [aim_eq_self ht]

end Gate

/-- Pairs that are looked through lie in the grid, so that each can be a target. -/
theorem choice_of_mem_pairs {low high l : Layers} (h : l ∈ Bitrates.pairs low high) :
    Gate.Choice l := by
  have := (Bitrates.mem_pairs.1 h).2.1
  exact .inr (by omega)

/-- Layers found among some pairs, or none. -/
theorem choice_getD {found : Option Layers}
    (h : ∀ l, found = some l → ∃ low high, l ∈ Bitrates.pairs low high) :
    Gate.Choice (found.getD .none) := by
  cases found with
  | none => exact .inl rfl
  | some l =>
    obtain ⟨low, high, hl⟩ := h l rfl
    exact choice_of_mem_pairs hl

namespace Forwarder

variable (f : Forwarder)

@[simp] theorem gate_commit (a : Allocation) : (f.commit a).1.gate = f.gate := rfl

@[simp] theorem gate_aimFor (target : Layers) : (f.aimFor target).gate = f.gate.aim target := by
  simp only [aimFor, Gate.aim, apply_ite gate]
  rfl

@[simp] theorem gate_pause : f.pause.gate = { f.gate with sent := -1 }.aim .none :=
  gate_aimFor _ _

@[simp] theorem gate_noteChange (target : Layers) : (f.noteChange target).gate = f.gate := by
  unfold noteChange
  split
  · rfl
  · split <;> rfl

variable {f} {brs : Bitrates} {optimal capacity highest : Int} {found : Option Layers}
  {canPause : Bool}

/-- The gate is aimed at the pair that was found, or at nothing, unless a pause is forbidden. -/
theorem gate_settle :
    (f.settle brs optimal found canPause).1.gate =
      if found.getD .none = .none ∧ canPause = false then f.gate
      else f.gate.aim (found.getD .none) := by
  simp only [settle, Bool.not_eq_true']
  split
  · rfl
  · rw [gate_aimFor, gate_commit, gate_noteChange]

theorem target_settle :
    (f.settle brs optimal found canPause).1.target =
      if found.getD .none = .none ∧ canPause = false then f.target else found.getD .none := by
  have h := congrArg Gate.target
    (gate_settle : (f.settle brs optimal found canPause).1.gate = _)
  rw [apply_ite Gate.target, Gate.aim_target] at h
  exact h

theorem settle_allocated (h : ∀ l, found = some l → ∃ low high, l ∈ Bitrates.pairs low high) :
    f.gate.Allocated (f.settle brs optimal found canPause).1.gate := by
  rw [gate_settle]
  split
  · exact .kept
  · exact .aimed _ (choice_getD h)

/-- To settle without a change of layers leaves the gate as it was. -/
theorem gate_settle_unchanged (h : (f.settle brs optimal found canPause).2.layersChanged = false) :
    (f.settle brs optimal found canPause).1.gate = f.gate := by
  rw [gate_settle]
  simp only [settle, Bool.not_eq_true'] at h
  split at h
  · rename_i hn
    rw [if_pos hn]
  · rename_i hn
    rw [if_neg hn]
    have same : f.target = found.getD .none := by simpa [commit] using h
    exact if_pos same

/-- Without measurements the gate is aimed within the bound, paused, or left as it is. -/
theorem settleUnmeasured_allocated :
    f.gate.Allocated (f.settleUnmeasured capacity canPause highest).1.gate := by
  unfold settleUnmeasured
  dsimp only
  split
  · rw [gate_commit, gate_aimFor]
    have front : (if f.target = .none then { f with change := .resuming } else f).gate = f.gate := by
      split <;> rfl
    rw [front]
    exact .aimed _ (.inr (Int.le_max_right _ _))
  · split
    · exact .kept
    · split
      · rw [gate_commit, gate_pause]
        exact .stopped
      · exact .kept

/-! ## The commands of an allocator -/

theorem allocateWithin_allocated :
    f.gate.Allocated (f.allocateWithin capacity canPause brs).1.gate := by
  unfold allocateWithin
  split
  · exact .kept
  · split
    · exact .kept
    · dsimp only
      split
      · exact settle_allocated fun l hl => ⟨_, _, Bitrates.mem_of_highestFitting hl⟩
      · split
        · exact .kept
        · exact settleUnmeasured_allocated

theorem allocate_allocated : f.gate.Allocated (f.allocate capacity brs).1.gate :=
  allocateWithin_allocated

theorem tryAllocate_allocated : f.gate.Allocated (f.tryAllocate capacity brs).1.gate :=
  allocateWithin_allocated

theorem finalize_allocated : f.gate.Allocated (f.finalize brs).gate := by
  unfold finalize
  split
  · exact .kept
  · dsimp only
    split
    · split <;> exact .kept
    · exact settle_allocated fun l hl => ⟨_, _, Bitrates.mem_of_highestFitting hl⟩

theorem mem_of_higherTemporal {l : Layers} (h : f.higherTemporal brs = some l) :
    ∃ low high, l ∈ Bitrates.pairs low high := by
  unfold higherTemporal at h
  split at h
  · cases h
  · exact ⟨_, _, Bitrates.mem_of_lowestFitting h⟩

theorem allocateNextHigher_allocated : f.gate.Allocated (f.allocateNextHigher brs).1.gate := by
  unfold allocateNextHigher
  split
  · exact .kept
  · split
    · exact .kept
    · dsimp only
      split
      · exact .kept
      · split
        · exact settle_allocated fun l hl => mem_of_higherTemporal hl
        · rename_i unchanged
          -- The second search starts from the gate that the first one left alone.
          rw [← gate_settle_unchanged (Bool.eq_false_iff.2 unchanged)]
          exact settle_allocated fun l hl => ⟨_, _, Bitrates.mem_of_lowestFitting hl⟩

end Forwarder
end Simulcast
