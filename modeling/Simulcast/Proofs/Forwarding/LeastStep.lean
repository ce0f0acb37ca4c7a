import Simulcast.Proofs.Forwarding.StepUp

/-!
# The least step up

A step up searches the spatial layer of the target, and then those above it. The two searches go
through the pairs above the target in their order (`stepPairs_pairwise`), whatever is measured in
between, so that they find the least of them (`nextHigher?_isLeast`). From a target that keeps to
the subscriber's bound, those are the pairs above the target that the subscriber wants
(`above_eq_wantedAbove`).

`allocateNextHigher_takes_least` says what becomes of a stream that is taken a step up, and when it
is left as it is.
-/

namespace Simulcast.Forwarder

/-- The pairs that a step up looks at, one after the other. -/
def stepPairs (f : Forwarder) : List Layers :=
  (if f.target = .none then []
    else Bitrates.pairs ⟨f.target.spatial, f.target.temporal + 1⟩
      ⟨f.target.spatial, f.bound.temporal⟩) ++
    Bitrates.pairs ⟨f.target.spatial + 1, 0⟩ f.bound

/-- The measured pairs above the target that the subscriber wants. -/
def wantedAbove (f : Forwarder) (brs : Bitrates) : Set Layers :=
  {l | l ∈ brs.measured f.bound ∧ f.target < l}

variable {f : Forwarder} {brs : Bitrates} {l : Layers}

/-! ## One search for two -/

theorem nextHigher?_eq : f.nextHigher? brs = f.stepPairs.find? (brs.fits unlimited) := by
  rw [stepPairs, List.find?_append]
  unfold nextHigher? higherTemporal
  split <;> rfl

theorem mem_above_iff_mem_stepPairs :
    l ∈ f.above brs ↔ l ∈ f.stepPairs ∧ brs.fits unlimited l = true := by
  rw [mem_above_iff, stepPairs, List.mem_append, or_and_right]
  by_cases none : f.target = .none
  · simp only [none, ne_eq, not_true_eq_false, false_and, if_true, List.not_mem_nil]
  · simp only [none, ne_eq, not_false_eq_true, true_and, if_false]

/-- All pairs of the target's spatial layer come before those of the higher ones. -/
theorem stepPairs_pairwise : f.stepPairs.Pairwise (· < ·) := by
  refine List.pairwise_append.2 ⟨?_, Bitrates.pairs_pairwise _ _, fun a ha b hb => ?_⟩
  · split
    · exact .nil
    · exact Bitrates.pairs_pairwise _ _
  · have upper := (Bitrates.mem_pairs.1 hb).1.1
    split at ha
    · cases ha
    · have lower := (Bitrates.mem_pairs.1 ha).1.2
      dsimp only at upper lower
      exact Layers.lt_iff.2 (.inl (by omega))

/-- What a step up finds is the least pair above the target. -/
theorem nextHigher?_isLeast (h : f.nextHigher? brs = some l) : IsLeast (f.above brs) l := by
  have kind : f.above brs = {l | l ∈ f.stepPairs ∧ brs.fits unlimited l = true} :=
    Set.ext fun _ => mem_above_iff_mem_stepPairs
  rw [kind]
  exact isLeast_of_find? stepPairs_pairwise (nextHigher?_eq ▸ h)

/-- From a target within the bound, every step up is one to a pair that the subscriber wants. -/
theorem above_eq_wantedAbove (ht : f.target = .none ∨ f.target.within f.bound = true)
    (hb : brs.Below unlimited) : f.above brs = f.wantedAbove brs := by
  ext l
  have free : brs.rate l < unlimited := hb.rate (by decide) l
  simp only [above, wantedAbove, Bitrates.measured, Set.mem_ofPred_eq, Layers.lt_iff, Layers.within,
    Layers.isValid, Bool.and_eq_true, decide_eq_true_eq] at ht ⊢
  constructor
  · rintro ⟨valid, top, rated, -, ⟨some, same, higher⟩ | ⟨higher, bound⟩⟩
    · have inside := ht.resolve_left some
      exact ⟨⟨valid, ⟨by omega, top⟩, rated⟩, .inr ⟨same.symm, higher⟩⟩
    · exact ⟨⟨valid, ⟨bound, top⟩, rated⟩, .inl higher⟩
  · rintro ⟨⟨valid, ⟨bound, top⟩, rated⟩, higher | ⟨same, higher⟩⟩
    · exact ⟨valid, top, rated, free, .inr ⟨higher, bound⟩⟩
    · have some : f.target ≠ .none := by
        intro none
        have outside : f.target.spatial = -1 := congrArg Layers.spatial none
        omega
      exact ⟨valid, top, rated, free, .inl ⟨some, same.symm, higher⟩⟩

/-! ## What becomes of the stream -/

/-- Without a pair above the target, a step up leaves the stream as it is. -/
theorem StepsUp.stays (h : f.StepsUp brs) (none : f.nextHigher? brs = .none) :
    f.allocateNextHigher brs = (f, { state := f.state, requested := f.requested }) := by
  rw [allocateNextHigher_of_stepsUp h, none, settle_none_keeps, commit, Int.sub_self]

/-- A step up aims for the pair that it finds, and asks for its bitrate. -/
theorem StepsUp.takes (h : f.StepsUp brs) (found : f.nextHigher? brs = some l) :
    let g := (f.allocateNextHigher brs).1
    let a := (f.allocateNextHigher brs).2
    g.target = l ∧ a.requested = brs.rate l ∧ a.layersChanged = true ∧
      a.state = if a.requested = f.bandwidthNeeded brs then .optimal else .deficient := by
  have above := mem_above_of_nextHigher? found
  have some : l ≠ .none := by
    rintro rfl
    exact above.2.2.1 rfl
  rw [allocateNextHigher_of_stepsUp h, found, settle_found some]
  obtain ⟨requested, state⟩ : _ ∧ _ := settle_answer
  have target : (f.settle brs (f.bandwidthNeeded brs) (.some l) true).1.target = l :=
    (settle_some f _ above.2.2.1).1
  have changed : (f.target != l) = true := bne_iff_ne.2 (ne_target_of_mem_above above).symm
  refine ⟨target, ?_, ?_, state⟩
  · rw [requested, target, rateOf, if_neg some]
  · simpa only [settle, Option.getD_some, some, false_and, if_false, commit] using changed

/-- Every video stream, in whatever state, is taken a step up in one of these ways:

* if it is deficient, has no target or sends what it aims for within the subscriber's bound, and
  something is measured that the subscriber wants, with bitrates below the bandwidth without limit:
  the least measured pair above the target that the subscriber wants becomes the target, and its
  bitrate is asked for, which is told to be optimal if it is the bandwidth needed, and deficient if
  not; without such a pair, the stream is left as it is and asks for what it has;
* if it is not deficient, if a switch is under way, or if nothing is measured that the subscriber
  wants, it is left as it is with the default answer. -/
theorem allocateNextHigher_takes_least (f : Forwarder) (brs : Bitrates) (hv : f.kind = .video) :
    let g := (f.allocateNextHigher brs).1
    let a := (f.allocateNextHigher brs).2
    (f.state = .deficient →
      f.target = .none ∨ f.target.within f.bound = true ∧ f.target = f.current →
      (brs.measured f.bound).Nonempty → brs.Below unlimited →
        IsLeast (f.wantedAbove brs) g.target ∧ a.requested = brs.rate g.target ∧
            a.layersChanged = true ∧
            (a.requested = f.bandwidthNeeded brs ∧ a.state = .optimal ∨
              a.requested ≠ f.bandwidthNeeded brs ∧ a.state = .deficient) ∧
            g.requested = a.requested ∧ g.state = a.state ∨
          f.wantedAbove brs = ∅ ∧ g = f ∧ a = { state := f.state, requested := f.requested }) ∧
    (f.state ≠ .deficient ∨ f.target ≠ .none ∧ f.target ≠ f.current ∨
        brs.measured f.bound = ∅ →
      f.allocateNextHigher brs = (f, {})) := by
  intro g a
  constructor
  · intro deficient target measured below
    have needed : f.bandwidthNeeded brs ≠ 0 := mt bandwidthNeeded_eq_zero_iff.1 measured.ne_empty
    have stepsUp : f.StepsUp brs := ⟨hv, deficient, target.imp_right And.right, needed⟩
    have wanted := above_eq_wantedAbove (target.imp_right And.left) below
    cases found : f.nextHigher? brs with
    | none =>
      have stays := stepsUp.stays found
      exact .inr ⟨wanted ▸ nextHigher?_eq_none.1 found, congrArg Prod.fst stays,
        congrArg Prod.snd stays⟩
    | some l =>
      obtain ⟨target, requested, changed, state⟩ := stepsUp.takes found
      have least : IsLeast (f.wantedAbove brs) l := wanted ▸ nextHigher?_isLeast found
      have booked : f.Booked (g, a) := by
        rw [show (g, a) = _ from allocateNextHigher_of_stepsUp stepsUp]
        exact settle_booked
      refine .inl ⟨target ▸ least, target ▸ requested, changed, ?_, booked.requested, booked.state⟩
      split at state
      · exact .inl ⟨‹_›, state⟩
      · exact .inr ⟨‹_›, state⟩
  · intro idle
    refine allocateNextHigher_of_not ?_
    rintro ⟨-, deficient, target, needed⟩
    rcases idle with other | ⟨some, moving⟩ | nothing
    · exact other deficient
    · exact target.elim some moving
    · exact needed (bandwidthNeeded_eq_zero_iff.2 nothing)

/-- Bitrates with holes: the second spatial layer lacks its lowest temporal layer. -/
def holedRates : Bitrates :=
  #v[#v[50, 0, 200, 0], #v[0, 300, 400, 0], Vector.replicate 4 0]

/-- A stream that sends all there is of the lowest spatial layer. -/
def wholeLayer : List Command :=
  [.setAvailable [0, 1], .allocate 250 holedRates, .forward (smallPacket 100 true) 0]

/-- The step up leads over two holes. Without measurements, there is none. -/
theorem allocateNextHigher_takes_least_holedRates :
    let f := run h264Codec .video wholeLayer
    f.kind = .video ∧ f.state = .deficient ∧
      (f.target = ⟨0, 2⟩ ∧ f.target.within f.bound = true ∧ f.target = f.current) ∧
      (holedRates.measured f.bound).Nonempty ∧ holedRates.Below unlimited ∧
      IsLeast (f.wantedAbove holedRates) ⟨1, 1⟩ ∧
      (f.allocateNextHigher holedRates).2.requested = 300 ∧
      Bitrates.zero.measured f.bound = ∅ ∧ f.allocateNextHigher Bitrates.zero = (f, {}) := by
  intro f
  have source : f.target = ⟨0, 2⟩ := rfl
  have within : f.target.within f.bound = true ∧ f.target = f.current := ⟨rfl, rfl⟩
  have measured : (holedRates.measured f.bound).Nonempty := ⟨⟨0, 0⟩, rfl, rfl, by decide⟩
  have below : holedRates.Below unlimited := by
    unfold Bitrates.Below
    decide
  have target : (f.allocateNextHigher holedRates).1.target = ⟨1, 1⟩ := rfl
  have steps := (allocateNextHigher_takes_least f holedRates rfl).1 rfl (.inr within) measured below
  have idle := (allocateNextHigher_takes_least f Bitrates.zero rfl).2
    (.inr (.inr Bitrates.measured_zero))
  refine ⟨rfl, rfl, ⟨source, within⟩, measured, below, ?_⟩
  rcases steps with ⟨least, requested, -⟩ | ⟨-, stays, -⟩
  · rw [target] at least requested
    exact ⟨least, requested, Bitrates.measured_zero, idle⟩
  · rw [stays, source] at target
    cases target

end Simulcast.Forwarder
