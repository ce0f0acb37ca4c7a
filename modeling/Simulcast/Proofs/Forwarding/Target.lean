import Simulcast.Proofs.Forwarding.BestPair

/-!
# New targets

Where an allocator may turn a video stream to is told once, by `aims_of_target_ne`: to none, to
a measured pair within the subscriber's bound, a step up from the target, or, if nothing is
measured that the subscriber wants, to a pair that is taken unseen.

A new target keeps to the bound, unless it is a step up from a spatial layer above the bound: the
step looks for a higher temporal layer of the same spatial one, whatever the bound is by then
(`newTarget_within_iff`). `newTarget_outside_loweredBound` is a run in which the bound was lowered
before the step.
-/

namespace Simulcast

theorem Bitrates.rate_ne_of_lowestFitting {brs : Bitrates} {low high l : Layers} {capacity : Int}
    (h : brs.lowestFitting low high capacity = some l) : brs.rate l ≠ 0 := by
  have fits : brs.fits capacity l = true := List.find?_some h
  exact bne_iff_ne.1 (Bool.and_eq_true_iff.1 fits).1

namespace Forwarder

/-- The capacity within which a command allocates. -/
def capacityOf (f : Forwarder) : Command → Option Int
  | .allocate capacity _ => some capacity
  | .tryAllocate extra _ => some (saturatingAdd f.requested extra)
  | _ => none

/-- A command aims for layers unseen: nothing is measured that the subscriber wants, but layers
are to be had, and the capacity has no limit. -/
def AimsUnseen (f : Forwarder) (c : Command) : Prop :=
  f.muted = false ∧ (∃ brs, c.rates = some brs ∧ brs.measured f.bound = ∅) ∧
    f.capacityOf c = some unlimited ∧ f.available ≠ []

/-- The pair that is taken unseen when `highest` is the highest layer to be had. -/
def unseenPair (f : Forwarder) (highest : Int) : Layers :=
  ⟨min highest f.bound.spatial, max f.bound.temporal 0⟩

/-- What a command may aim for in place of the target. -/
inductive Aims (f : Forwarder) : Command → Layers → Prop where
  | pause (capacity : Int) (brs : Bitrates) : Aims f (.allocate capacity brs) .none
  | measured {c : Command} {brs : Bitrates} {l : Layers} (hc : c.rates = some brs)
      (hn : c ≠ .allocateNextHigher brs) (hl : l ∈ brs.measured f.bound) : Aims f c l
  | unseen {c : Command} {highest : Int} (hc : f.AimsUnseen c)
      (hh : f.available.getLast? = some highest) : Aims f c (f.unseenPair highest)
  | higherTemporal {brs : Bitrates} {l : Layers} (hl : l.isValid = true)
      (hs : l.spatial = f.target.spatial) (ht : l.temporal ≤ f.bound.temporal)
      (hr : brs.rate l ≠ 0) : Aims f (.allocateNextHigher brs) l
  | higherSpatial {brs : Bitrates} {l : Layers} (hs : f.target.spatial < l.spatial)
      (hl : l ∈ brs.measured f.bound) : Aims f (.allocateNextHigher brs) l

variable {f : Forwarder} {brs : Bitrates} {optimal capacity highest : Int}
  {found : Option Layers} {canPause : Bool} {c : Command}

/-! ## Where an allocation turns to -/

theorem target_aimFor (target : Layers) : (f.aimFor target).target = target := by
  have h : (f.aimFor target).gate.target = target := by rw [gate_aimFor, Gate.aim_target]
  exact h

/-- To settle keeps the target, or takes none if that may be, or the pair that was found. -/
theorem settle_target_cases :
    (f.settle brs optimal found canPause).1.target = f.target ∨
      canPause = true ∧ (f.settle brs optimal found canPause).1.target = .none ∨
      found = some (f.settle brs optimal found canPause).1.target := by
  rw [target_settle]
  split
  · exact .inl rfl
  · rename_i h
    cases found with
    | none => exact .inr (.inl ⟨by simpa using h, rfl⟩)
    | some l => exact .inr (.inr rfl)

theorem mem_measured_of_highestFitting {l : Layers}
    (h : brs.highestFitting ⟨0, 0⟩ f.bound capacity = some l) : l ∈ brs.measured f.bound :=
  (Bitrates.highestFitting_isGreatest h).1.1

/-- With nothing measured, an allocation turns to layers unseen only without limit. -/
theorem target_settleUnmeasured :
    (f.settleUnmeasured capacity canPause highest).1.target = f.target ∨
      canPause = true ∧ (f.settleUnmeasured capacity canPause highest).1.target = .none ∨
      capacity = unlimited ∧
        (f.settleUnmeasured capacity canPause highest).1.target = f.unseenPair highest := by
  unfold settleUnmeasured
  split
  · exact .inr (.inr ⟨‹_›, target_aimFor _⟩)
  · split
    · exact .inl rfl
    · split
      · exact .inr (.inl ⟨‹_›, target_aimFor _⟩)
      · exact .inl rfl

theorem target_allocateWithin :
    (f.allocateWithin capacity canPause brs).1.target = f.target ∨
      canPause = true ∧ (f.allocateWithin capacity canPause brs).1.target = .none ∨
      (f.allocateWithin capacity canPause brs).1.target ∈ brs.measured f.bound ∨
      f.muted = false ∧ brs.measured f.bound = ∅ ∧ capacity = unlimited ∧
        ∃ highest, f.available.getLast? = some highest ∧
          (f.allocateWithin capacity canPause brs).1.target = f.unseenPair highest := by
  unfold allocateWithin
  split
  · exact .inl rfl
  · split
    · exact .inl rfl
    · rename_i hm
      dsimp only
      split
      · rcases settle_target_cases with kept | paused | found
        · exact .inl kept
        · exact .inr (.inl paused)
        · exact .inr (.inr (.inl (mem_measured_of_highestFitting found)))
      · rename_i hb
        have unmeasured : brs.measured f.bound = ∅ :=
          bandwidthNeeded_eq_zero_iff.1 (not_not.1 hb)
        split
        · exact .inl rfl
        · rename_i highest hh
          rcases target_settleUnmeasured with kept | paused | ⟨free, unseen⟩
          · exact .inl kept
          · exact .inr (.inl paused)
          · exact .inr (.inr (.inr ⟨Bool.eq_false_iff.2 hm, unmeasured, free, highest, hh, unseen⟩))

/-- Only an allocator writes to the target. -/
theorem target_perform_of_not_allocates (hv : f.kind = .video) (h : c.allocates = false) :
    (f.perform c).target = f.target := by
  have move := gate_perform hv c
  change (f.perform c).gate.target = f.gate.target
  generalize (f.perform c).gate = g at move
  cases move with
  | kept => rfl
  | muted => rfl
  | bounded => rfl
  | taken => exact Gate.take_target
  | allocated _ _ hc _ => exact absurd (h.symm.trans hc) Bool.false_ne_true

theorem aims_allocateWithin (hr : c.rates = some brs) (hn : c ≠ .allocateNextHigher brs)
    (hc : f.capacityOf c = some capacity) (hp : canPause = true → c = .allocate capacity brs)
    (hne : (f.allocateWithin capacity canPause brs).1.target ≠ f.target) :
    f.Aims c (f.allocateWithin capacity canPause brs).1.target := by
  rcases target_allocateWithin with kept | ⟨may, paused⟩ | found | ⟨hm, hb, free, highest, hh, unseen⟩
  · exact absurd kept hne
  · rw [paused, hp may]
    exact .pause capacity brs
  · exact .measured hr hn found
  · rw [unseen]
    refine .unseen ⟨hm, ⟨brs, hr, hb⟩, free ▸ hc, ?_⟩ hh
    rintro empty
    rw [empty] at hh
    cases hh

/-! ## Where a step up turns to -/

theorem aims_of_higherTemporal {l : Layers} (h : f.higherTemporal brs = some l) :
    f.Aims (.allocateNextHigher brs) l := by
  unfold higherTemporal at h
  split at h
  · cases h
  · obtain ⟨⟨low, high⟩, bottom, top⟩ :=
      Bitrates.mem_pairs.1 (Bitrates.mem_of_lowestFitting h)
    dsimp only at low high bottom top
    have valid : l.isValid = true := by
      simp only [Layers.isValid, Bool.and_eq_true, decide_eq_true_eq]
      omega
    exact .higherTemporal valid (by omega) top (Bitrates.rate_ne_of_lowestFitting h)

theorem aims_of_higherSpatial {l : Layers} (h : f.higherSpatial brs = some l) :
    f.Aims (.allocateNextHigher brs) l := by
  obtain ⟨⟨low, high⟩, bottom, top⟩ := Bitrates.mem_pairs.1 (Bitrates.mem_of_lowestFitting h)
  dsimp only at low bottom
  have inside : l ∈ Bitrates.pairs ⟨0, 0⟩ f.bound := by
    refine Bitrates.mem_pairs.2 ⟨⟨?_, high⟩, bottom, top⟩
    dsimp only
    omega
  exact .higherSpatial (by omega)
    (Bitrates.mem_measured.2 ⟨inside, Bitrates.rate_ne_of_lowestFitting h⟩)

theorem aims_allocateNextHigher
    (hne : (f.allocateNextHigher brs).1.target ≠ f.target) :
    f.Aims (.allocateNextHigher brs) (f.allocateNextHigher brs).1.target := by
  by_cases hs : f.StepsUp brs
  · rw [allocateNextHigher_eq hs] at hne ⊢
    rcases settle_target_cases with kept | ⟨may, -⟩ | found
    · exact absurd kept hne
    · cases may
    · rcases Option.or_eq_some_iff.1 found with temporal | ⟨-, spatial⟩
      · exact aims_of_higherTemporal temporal
      · exact aims_of_higherSpatial spatial
  · rw [allocateNextHigher_of_not hs] at hne
    exact absurd rfl hne

theorem aims_finalize (hne : (f.finalize brs).target ≠ f.target) :
    f.Aims (.finalize brs) (f.finalize brs).target := by
  unfold finalize at hne ⊢
  split at hne
  · exact absurd rfl hne
  · rename_i waiting
    rw [if_neg waiting]
    dsimp only at hne ⊢
    split at hne
    · split at hne <;> exact absurd rfl hne
    · rename_i hb
      rw [if_neg hb]
      rcases settle_target_cases with kept | ⟨may, -⟩ | found
      · exact absurd kept hne
      · cases may
      · exact .measured rfl Command.noConfusion (mem_measured_of_highestFitting found)

/-- A command that changes the target aims for one of these. -/
theorem aims_of_target_ne (hv : f.kind = .video) (hne : (f.perform c).target ≠ f.target) :
    f.Aims c (f.perform c).target := by
  cases c with
  | allocate capacity brs =>
    exact aims_allocateWithin rfl Command.noConfusion rfl (fun _ => rfl) hne
  | tryAllocate extra brs =>
    exact aims_allocateWithin rfl Command.noConfusion rfl Bool.noConfusion hne
  | finalize brs => exact aims_finalize hne
  | allocateNextHigher brs => exact aims_allocateNextHigher hne
  | _ => exact absurd (target_perform_of_not_allocates hv rfl) hne

/-! ## The bound of the subscriber -/

/-- The temporal layer of the bound is one of the grid, as the spatial one is. -/
theorem bound_temporal_perform (hv : f.kind = .video) (h : 0 ≤ f.bound.temporal) (c : Command) :
    0 ≤ (f.perform c).bound.temporal := by
  have kept {g : Forwarder} (same : g.gate.bound = f.gate.bound) : 0 ≤ g.bound.temporal :=
    (congrArg Layers.temporal same : g.bound.temporal = f.bound.temporal) ▸ h
  cases c with
  | boundSpatial layer =>
    simp only [perform, boundSpatial]
    split <;> exact h
  | boundTemporal layer =>
    simp only [perform, boundTemporal]
    split
    · exact h
    · exact clampLayer_nonneg (by decide)
  | mute | setAvailable | padding | blankFrames => exact h
  | blankDescriptor =>
    simp only [perform, blankDescriptor]
    split <;> exact h
  | allocate => exact kept allocate_allocated.bound
  | tryAllocate => exact kept tryAllocate_allocated.bound
  | finalize => exact kept finalize_allocated.bound
  | allocateNextHigher => exact kept allocateNextHigher_allocated.bound
  | forward a layer =>
    refine kept ?_
    rw [perform, gate_forward hv, Gate.take_bound]

theorem bound_isValid_run (codec : Codec) (cs : List Command) :
    (run codec .video cs).bound.isValid = true := by
  have spatial : 0 ≤ (run codec .video cs).bound.spatial := (sound_run codec cs).bound
  have temporal := performAll_induction (P := fun f => f.kind = .video ∧ 0 ≤ f.bound.temporal)
    (fun f c h => ⟨(gate_perform h.1 c).kind.trans h.1, bound_temporal_perform h.1 h.2 c⟩)
    (f := forCodec codec .video) ⟨rfl, Int.natCast_nonneg 3⟩ cs
  simp only [Layers.isValid, Bool.and_eq_true, decide_eq_true_eq]
  exact ⟨spatial, temporal.2⟩

theorem isValid_unseenPair (h : 0 ≤ highest) (hb : f.bound.isValid = true) :
    (f.unseenPair highest).isValid = true := by
  simp only [Layers.isValid, Bool.and_eq_true, decide_eq_true_eq] at hb ⊢
  dsimp only [unseenPair]
  omega

theorem within_unseenPair (hb : f.bound.isValid = true) :
    (f.unseenPair highest).within f.bound = true := by
  simp only [Layers.isValid, Layers.within, Bool.and_eq_true, decide_eq_true_eq] at hb ⊢
  dsimp only [unseenPair]
  omega

/-- Below the temporal layer of the bound, the spatial layer decides. -/
theorem within_bound_iff {l : Layers} (ht : l.temporal ≤ f.bound.temporal) :
    l.within f.bound = true ↔ l.spatial ≤ f.bound.spatial := by
  simp only [Layers.within, Bool.and_eq_true, decide_eq_true_eq, ht, and_true]

/-- Only a step up leaves the bound, from a spatial layer that the subscriber does not want any
more. -/
theorem Aims.within_iff {l : Layers} (h : f.Aims c l) (hb : f.bound.isValid = true) :
    l = .none ∨ l.within f.bound = true ↔
      ¬∃ brs, c = .allocateNextHigher brs ∧ f.bound.spatial < f.target.spatial := by
  cases h with
  | pause => exact iff_of_true (.inl rfl) fun ⟨_, hc, _⟩ => Command.noConfusion hc
  | measured hc hn hl =>
    refine iff_of_true (.inr hl.2.1) ?_
    rintro ⟨_, rfl, -⟩
    cases hc
    exact hn rfl
  | unseen hc =>
    refine iff_of_true (.inr (within_unseenPair hb)) ?_
    rintro ⟨_, rfl, -⟩
    cases hc.2.2.1
  | higherTemporal hl hs ht =>
    have valid : l ≠ .none := by
      rintro rfl
      exact Bool.false_ne_true hl
    rw [or_iff_right valid, within_bound_iff ht, hs]
    constructor
    · rintro inside ⟨-, -, outside⟩
      exact absurd outside (by omega)
    · intro h
      exact not_lt.1 fun outside => h ⟨_, rfl, outside⟩
  | higherSpatial hs hl =>
    refine iff_of_true (.inr hl.2.1) ?_
    rintro ⟨-, -, outside⟩
    have inside : l.spatial ≤ f.bound.spatial :=
      (within_bound_iff (Bitrates.mem_pairs.1 (Bitrates.mem_measured.1 hl).1).2.2).1 hl.2.1
    omega

theorem Aims.isValid {l : Layers} (h : f.Aims c l) (hb : f.bound.isValid = true)
    (ha : ∀ layer ∈ f.available, 0 ≤ layer) : l = .none ∨ l.isValid = true := by
  cases h with
  | pause => exact .inl rfl
  | measured _ _ hl => exact .inr hl.1
  | unseen _ hh => exact .inr (isValid_unseenPair (ha _ (List.mem_of_getLast? hh)) hb)
  | higherTemporal hl => exact .inr hl
  | higherSpatial _ hl => exact .inr hl.1

/-- In every run of a video stream, when a command gives it a new target:

* the target is none or keeps to the bound that holds then, in both layers, unless the command
  is a step up from a spatial layer above the bound;
* it is none or a pair of the grid, as long as the layers that are said to be available are
  no negative ones. -/
theorem newTarget_within_iff (codec : Codec) (cs : List Command) (c : Command)
    (hne : ((run codec .video cs).perform c).target ≠ (run codec .video cs).target) :
    let f := run codec .video cs
    let new := (f.perform c).target
    (new = .none ∨ new.within f.bound = true ↔
      ¬∃ brs, c = .allocateNextHigher brs ∧ f.bound.spatial < f.target.spatial) ∧
    ((∀ layer ∈ f.available, 0 ≤ layer) → new = .none ∨ new.isValid = true) := by
  intro f new
  have hb : f.bound.isValid = true := bound_isValid_run codec cs
  have aims : f.Aims c new := aims_of_target_ne (sound_run codec cs).kind hne
  exact ⟨aims.within_iff hb, aims.isValid hb⟩

/-- Bitrates of two layers, and the higher one has a step to go up. -/
def steppedRates : Bitrates := onePair.set 2 #v[300, 400, 0, 0]

/-- A stream that sends the highest layer when the subscriber gives it up. -/
def loweredBound : List Command :=
  [.setAvailable [0, 2], .allocate 350 steppedRates, .forward (smallPacket 100 true) 2,
    .boundSpatial 1]

/-- The step up stays in the layer above the bound. -/
theorem newTarget_outside_loweredBound :
    let f := run h264Codec .video loweredBound
    let new := (f.perform (.allocateNextHigher steppedRates)).target
    f.bound = ⟨1, 3⟩ ∧ f.target = ⟨2, 0⟩ ∧ new = ⟨2, 1⟩ ∧
      ¬(new = .none ∨ new.within f.bound = true) :=
  ⟨rfl, rfl, rfl, by decide⟩

/-- The condition missed by that run. -/
theorem newTarget_within_iff_loweredBound :
    let f := run h264Codec .video loweredBound
    (f.perform (.allocateNextHigher steppedRates)).target ≠ f.target ∧
      ¬((f.perform (.allocateNextHigher steppedRates)).target = .none ∨
        (f.perform (.allocateNextHigher steppedRates)).target.within f.bound = true) := by
  intro f
  have changed : (f.perform (.allocateNextHigher steppedRates)).target ≠ f.target := by decide
  refine ⟨changed, fun inside => ?_⟩
  exact (newTarget_within_iff _ loweredBound _ changed).1.1 inside ⟨steppedRates, rfl, by decide⟩

end Forwarder
end Simulcast
