import Simulcast.Proofs.Forwarding.StepUp

/-!
# Allocations for a muted subscriber

A muted subscriber is sent nothing, so that no allocation should ask for more bandwidth for it or
turn it to other layers. Allocations within a capacity see to that. Those that complete an earlier
one do not look whether the subscriber is muted: the one that was waiting for measurements settles
on the best pair (`finalize_keeps_iff`), and a step up is taken to the pair above the target
(`allocateNextHigher_keeps_iff`). `mutedKeeps_iff` says that these are the only ways to gain, and
`gains_mutedShort` is a run that steps up.
-/

namespace Simulcast.Forwarder

/-- A command asks for no more bandwidth than before, and keeps the target. -/
def Keeps (f : Forwarder) (c : Command) : Prop :=
  (f.perform c).requested ≤ f.requested ∧ (f.perform c).target = f.target

/-- A command completes an earlier allocation by more than it came to. -/
inductive Gains (f : Forwarder) : Command → Prop where
  | finalize {brs : Bitrates} {l : Layers} (hs : f.state = .awaitingMeasurement)
      (hl : IsGreatest (brs.affordable f.bound unlimited) l)
      (hn : l ≠ f.target ∨ f.requested < brs.rate l) : Gains f (.finalize brs)
  | step {brs : Bitrates} (hs : f.StepsUp brs) (ha : (f.above brs).Nonempty) :
      Gains f (.allocateNextHigher brs)

variable {f : Forwarder} {brs : Bitrates} {optimal capacity : Int} {canPause : Bool} {c : Command}

/-! ## Commands that keep a stream -/

theorem keeps_of_eq (h : f.perform c = f) : f.Keeps c := by
  rw [Keeps, h]
  exact ⟨le_rfl, rfl⟩

theorem keeps_of_settle_none (h : f.perform c = (f.settle brs optimal none false).1) :
    f.Keeps c := by
  rw [Keeps, h, settle_none_keeps]
  exact ⟨le_rfl, rfl⟩

/-- By bitrates that are bandwidths, a run asks for a bandwidth. -/
theorem isBandwidth_performAll (hv : f.kind = .video) (h : IsBandwidth f.requested)
    (cs : List Command) (hc : ∀ c ∈ cs, c.Measures) : IsBandwidth (f.performAll cs).requested := by
  induction cs generalizing f with
  | nil => exact h
  | cons c cs ih =>
    exact ih ((gate_perform hv c).kind.trans hv)
      (isBandwidth_perform hv h (hc c List.mem_cons_self))
      fun c' hm => hc c' (List.mem_cons_of_mem c hm)

/-! ## The four allocations -/

theorem allocateWithin_of_muted (hv : f.kind = .video) (hm : f.muted = true) :
    f.allocateWithin capacity canPause brs = f.commit { state := .muted } := by
  unfold allocateWithin
  rw [hv, if_neg (by decide), hm, if_pos rfl]

/-- Without measurements, at most the bandwidth is given back. -/
theorem finalize_of_unmeasured (h0 : 0 ≤ f.requested) (hb : f.bandwidthNeeded brs = 0) :
    f.Keeps (.finalize brs) := by
  change (f.finalize brs).requested ≤ f.requested ∧ (f.finalize brs).target = f.target
  unfold finalize
  split
  · exact ⟨le_rfl, rfl⟩
  · dsimp only
    rw [if_pos hb]
    split
    · exact ⟨h0, rfl⟩
    · exact ⟨le_rfl, rfl⟩

theorem finalize_keeps_iff (h0 : 0 ≤ f.requested) :
    f.Keeps (.finalize brs) ↔ ¬f.Gains (.finalize brs) := by
  by_cases hs : f.state = .awaitingMeasurement
  · by_cases hb : f.bandwidthNeeded brs = 0
    · refine iff_of_true (finalize_of_unmeasured h0 hb) ?_
      rintro ⟨-, hl, -⟩
      exact Set.notMem_empty _ (bandwidthNeeded_eq_zero_iff.1 hb ▸ hl.1.1)
    · have settles := finalize_of_measured hs hb
      cases hf : brs.highestFitting ⟨0, 0⟩ f.bound unlimited with
      | none =>
        refine iff_of_true (keeps_of_settle_none (hf ▸ settles)) ?_
        rintro ⟨-, hl, -⟩
        exact Set.notMem_empty _ (Bitrates.highestFitting_eq_none.1 hf ▸ hl.1)
      | some l =>
        have greatest := Bitrates.highestFitting_isGreatest hf
        obtain ⟨target, requested⟩ :=
          settle_some f (f.bandwidthNeeded brs) greatest.1.1.2.2
        rw [hf] at settles
        rw [Keeps, perform, settles, target, requested]
        constructor
        · rintro ⟨less, same⟩ ⟨-, hl, hn⟩
          cases hl.unique greatest
          exact hn.elim (fun other => other same) fun more => absurd less (not_le.2 more)
        · intro idle
          exact ⟨not_lt.1 fun more => idle (.finalize hs greatest (.inr more)),
            of_not_not fun other => idle (.finalize hs greatest (.inl other))⟩
  · refine iff_of_true (keeps_of_eq (if_pos hs)) ?_
    rintro ⟨waiting, -, -⟩
    exact hs waiting

theorem allocateNextHigher_keeps_iff :
    f.Keeps (.allocateNextHigher brs) ↔ ¬f.Gains (.allocateNextHigher brs) := by
  by_cases hs : f.StepsUp brs
  · have settles := allocateNextHigher_of_stepsUp hs
    cases hf : f.nextHigher? brs with
    | none =>
      refine iff_of_true (keeps_of_settle_none (congrArg Prod.fst (hf ▸ settles))) fun gains => ?_
      cases gains with
      | step _ ha => exact ha.ne_empty (nextHigher?_eq_none.1 hf)
    | some l =>
      have higher := mem_above_of_nextHigher? hf
      rw [hf] at settles
      refine iff_of_false ?_ (not_not_intro (.step hs ⟨l, higher⟩))
      rw [Keeps, perform, settles, (settle_some f _ higher.2.2.1).1]
      exact fun same => ne_target_of_mem_above higher same.2
  · have unchanged : f.perform (.allocateNextHigher brs) = f :=
      congrArg Prod.fst (allocateNextHigher_of_not hs)
    refine iff_of_true (keeps_of_eq unchanged) fun gains => ?_
    cases gains with
    | step stepsUp => exact hs stepsUp

/-- In every run of a video stream, by bitrates that are bandwidths, when an allocator is at work
while the subscriber is muted: no more bandwidth is asked for and the target is kept, unless

* an allocation that was waiting for measurements is completed, and the greatest measured pair is
  not the target or costs more than what is asked for;
* a deficient stream goes a step up, and there is a measured pair above its target. -/
theorem mutedKeeps_iff (codec : Codec) (cs : List Command) (c : Command)
    (hr : ∀ c' ∈ cs, c'.Measures) (hm : (run codec .video cs).muted = true)
    (hc : c.allocates = true) :
    let f := run codec .video cs
    (f.perform c).requested ≤ f.requested ∧ (f.perform c).target = f.target ↔ ¬f.Gains c := by
  intro f
  have hv : f.kind = .video := (sound_run codec cs).kind
  have h0 : 0 ≤ f.requested :=
    (isBandwidth_performAll (f := forCodec codec .video) rfl isBandwidth_zero cs hr).1
  have muted (capacity : Int) (canPause : Bool) (brs : Bitrates) :
      (f.allocateWithin capacity canPause brs).1.requested ≤ f.requested ∧
        (f.allocateWithin capacity canPause brs).1.target = f.target := by
    rw [allocateWithin_of_muted hv hm]
    exact ⟨h0, rfl⟩
  cases c with
  | allocate capacity brs => exact iff_of_true (muted capacity true brs) nofun
  | tryAllocate extra brs => exact iff_of_true (muted _ false brs) nofun
  | finalize brs => exact finalize_keeps_iff h0
  | allocateNextHigher brs => exact allocateNextHigher_keeps_iff
  | _ => cases hc

/-! ## Muted streams that gain -/

/-- A stream without the capacity for its only layer, and muted. -/
def mutedShort : List Command := [.setAvailable [0], .allocate 50 onePair, .mute true]

/-- The step up asks for bandwidth and turns the muted stream on. -/
theorem gains_mutedShort :
    let f := run h264Codec .video mutedShort
    let g := f.perform (.allocateNextHigher onePair)
    f.muted = true ∧ f.requested = 0 ∧ f.target = .none ∧ g.requested = 100 ∧ g.target = ⟨0, 0⟩ :=
  ⟨rfl, rfl, rfl, rfl, rfl⟩

/-- The condition missed by that run. -/
theorem mutedKeeps_iff_mutedShort :
    let f := run h264Codec .video mutedShort
    let c : Command := .allocateNextHigher onePair
    (∀ c' ∈ mutedShort, c'.Measures) ∧ f.muted = true ∧ c.allocates = true ∧ f.Gains c := by
  intro f c
  have rates : onePair.AreBandwidths := by
    unfold Bitrates.AreBandwidths IsBandwidth
    decide
  have measures : ∀ c' ∈ mutedShort, c'.Measures := by
    intro c' hc brs hr
    simp only [mutedShort, List.mem_cons, List.not_mem_nil, or_false] at hc
    rcases hc with rfl | rfl | rfl <;> cases hr
    exact rates
  refine ⟨measures, rfl, rfl, ?_⟩
  by_contra idle
  exact absurd ((mutedKeeps_iff _ mutedShort c measures rfl rfl).2 idle).1 (by decide)

end Simulcast.Forwarder
