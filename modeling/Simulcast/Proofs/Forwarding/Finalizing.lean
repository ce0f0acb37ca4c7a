import Simulcast.Proofs.Forwarding.BestPair

/-!
# Allocations that were waiting for measurements

An allocation that was waiting is completed when bitrates have been measured. That may not pause the
stream, while an allocation without limit may, and each deals with a dry feed in its own way. They
come to the same all the same: without limit everything measured fits, so that a pair is found
(`exists_highestFitting`), and a pair that was found is settled on in either case (`settle_found`).
`finalize_eq_allocate` also says when the stream is left as it is.
-/

namespace Simulcast.Forwarder

variable {f : Forwarder} {brs : Bitrates}

/-- Without limit, a pair is found as soon as one is measured. -/
theorem exists_highestFitting (hm : (brs.measured f.bound).Nonempty) (hb : brs.Below unlimited) :
    ∃ l, l ≠ .none ∧ brs.highestFitting ⟨0, 0⟩ f.bound unlimited = some l := by
  cases found : brs.highestFitting ⟨0, 0⟩ f.bound unlimited with
  | none =>
    have empty := Bitrates.highestFitting_eq_none.1 found
    rw [hb.affordable_eq (by decide)] at empty
    exact absurd empty hm.ne_empty
  | some l => exact ⟨l, Bitrates.ne_none_of_mem_pairs (Bitrates.mem_of_highestFitting found), rfl⟩

theorem finalize_eq_allocate_of_measured (hs : f.state = .awaitingMeasurement)
    (hv : f.kind = .video) (hu : f.muted = false) (hm : (brs.measured f.bound).Nonempty)
    (hb : brs.Below unlimited) : f.finalize brs = (f.allocate unlimited brs).1 := by
  have needed : f.bandwidthNeeded brs ≠ 0 := mt bandwidthNeeded_eq_zero_iff.1 hm.ne_empty
  obtain ⟨l, some, found⟩ := exists_highestFitting hm hb
  rw [finalize_of_measured hs needed, allocate_of_measured hv hu hm, found, settle_found some]

/-- As long as nothing is measured, the stream goes on to wait, unless its feed is dry. -/
theorem finalize_of_nothing (hs : f.state = .awaitingMeasurement)
    (hm : brs.measured f.bound = ∅) :
    f.finalize brs = if f.available = [] then { f with state := .feedDry, requested := 0 } else f := by
  unfold finalize
  rw [if_neg (not_not_intro hs)]
  dsimp only
  rw [if_pos (bandwidthNeeded_eq_zero_iff.2 hm)]
  simp only [List.isEmpty_iff]

/-- An allocation finds the feed dry if no layer is to be had and nothing is measured. -/
theorem allocate_of_dry (hv : f.kind = .video) (hu : f.muted = false)
    (hm : brs.measured f.bound = ∅) (ha : f.available = []) (capacity : Int) :
    (f.allocate capacity brs).1 = { f with state := .feedDry, requested := 0 } := by
  have video : ¬f.kind = .audio := by rw [hv]; decide
  have needed : ¬f.bandwidthNeeded brs ≠ 0 := not_not_intro (bandwidthNeeded_eq_zero_iff.2 hm)
  have highest : f.available.getLast? = none := List.getLast?_eq_none_iff.2 ha
  unfold allocate allocateWithin
  rw [if_neg video, if_neg (Bool.eq_false_iff.1 hu)]
  dsimp only
  rw [if_neg needed, highest]
  rfl

/-- An allocation of a video stream that was waiting for measurements is completed in one of these
ways:

* if the stream is not muted, and something is measured that the subscriber wants, by bitrates below
  the bandwidth without limit, or no layer is to be had: the stream becomes what an allocation
  without limit would make of it, its target, state, bandwidth and change of streaming included;
* if layers are to be had, but nothing is measured that the subscriber wants, the stream is left as
  it is.

An allocation that was not waiting is left as it is. -/
theorem finalize_eq_allocate (f : Forwarder) (brs : Bitrates) :
    (f.state = .awaitingMeasurement → f.kind = .video → f.muted = false → brs.Below unlimited →
        (brs.measured f.bound).Nonempty ∨ f.available = [] →
      f.finalize brs = (f.allocate unlimited brs).1) ∧
    (f.state = .awaitingMeasurement → f.available ≠ [] → brs.measured f.bound = ∅ →
      f.finalize brs = f) ∧
    (f.state ≠ .awaitingMeasurement → f.finalize brs = f) := by
  refine ⟨fun waiting video unmuted below some => ?_, fun waiting available nothing => ?_,
    fun other => if_pos other⟩
  · by_cases measured : (brs.measured f.bound).Nonempty
    · exact finalize_eq_allocate_of_measured waiting video unmuted measured below
    · have nothing := Set.not_nonempty_iff_eq_empty.1 measured
      have dry := some.resolve_left measured
      rw [finalize_of_nothing waiting nothing, if_pos dry,
        allocate_of_dry video unmuted nothing dry]
  · rw [finalize_of_nothing waiting nothing, if_neg available]

/-- A stream that was started unseen. -/
def startedUnseen : List Command := [.setAvailable [0, 1], .allocate unlimited Bitrates.zero]

/-- It goes on to wait, falls dry with its feed, or is settled, and is then left as it is. -/
theorem finalize_eq_allocate_startedUnseen :
    let f := run h264Codec .video startedUnseen
    let dry := f.setAvailable []
    let settled := f.finalize unevenRates
    (f.state = .awaitingMeasurement ∧ f.kind = .video ∧ f.muted = false) ∧
      unevenRates.Below unlimited ∧ (unevenRates.measured f.bound).Nonempty ∧
      f.target = ⟨1, 3⟩ ∧ settled.target = ⟨1, 2⟩ ∧ settled = (f.allocate unlimited unevenRates).1 ∧
      f.available ≠ [] ∧ f.finalize Bitrates.zero = f ∧
      Bitrates.zero.Below unlimited ∧ dry.available = [] ∧
      dry.finalize Bitrates.zero = (dry.allocate unlimited Bitrates.zero).1 ∧
      settled.state ≠ .awaitingMeasurement ∧ settled.finalize Bitrates.zero = settled := by
  intro f dry settled
  have below : unevenRates.Below unlimited := by
    unfold Bitrates.Below
    decide
  have zeroBelow : Bitrates.zero.Below unlimited := by
    unfold Bitrates.Below
    decide
  have measured : (unevenRates.measured f.bound).Nonempty := ⟨⟨0, 0⟩, rfl, rfl, by decide⟩
  have available : f.available ≠ [] := List.cons_ne_nil _ _
  have finished : settled.state ≠ .awaitingMeasurement := by decide
  refine ⟨⟨rfl, rfl, rfl⟩, below, measured, rfl, rfl, ?_, available, ?_, zeroBelow, rfl, ?_,
    finished, ?_⟩
  · exact (finalize_eq_allocate f unevenRates).1 rfl rfl rfl below (.inl measured)
  · exact (finalize_eq_allocate f Bitrates.zero).2.1 rfl available Bitrates.measured_zero
  · exact (finalize_eq_allocate dry Bitrates.zero).1 rfl rfl rfl zeroBelow (.inr rfl)
  · exact (finalize_eq_allocate settled Bitrates.zero).2.2 finished

end Simulcast.Forwarder
