import Simulcast.Proofs.Forwarding.Accounting
import Simulcast.Proofs.Forwarding.LayerOrder

/-!
# The best pair that can be afforded

As soon as anything is measured of what a subscriber wants, an allocation aims for the
greatest measured pair below the capacity, and for none if all are above it
(`target_allocate`). Whether that is the best there is, it tells by comparing bitrates; no
harm comes of pairs with the same bitrate, since the greater one of them is affordable too
(`state_allocate`). More capacity never lowers the target (`target_allocate_mono`).
`allocate_picks_highest` states the three together.
-/

namespace Simulcast.Forwarder

variable {f : Forwarder} {brs : Bitrates} {capacity : Int} {canPause : Bool}

theorem bandwidthNeeded_eq_zero_iff :
    f.bandwidthNeeded brs = 0 ↔ brs.measured f.bound = ∅ :=
  Bitrates.bestWithin_eq_zero_iff

/-- With something measured, an allocation settles on the highest pair that fits. -/
theorem allocateWithin_of_measured (hv : f.kind = .video) (hm : f.muted = false)
    (hb : f.bandwidthNeeded brs ≠ 0) :
    f.allocateWithin capacity canPause brs =
      f.settle brs (f.bandwidthNeeded brs) (brs.highestFitting ⟨0, 0⟩ f.bound capacity)
        canPause := by
  unfold allocateWithin
  rw [hv, if_neg (by decide), hm, if_neg (by decide)]
  exact if_pos hb

theorem allocate_of_measured (hv : f.kind = .video) (hm : f.muted = false)
    (hb : (brs.measured f.bound).Nonempty) :
    f.allocate capacity brs =
      f.settle brs (f.bandwidthNeeded brs) (brs.highestFitting ⟨0, 0⟩ f.bound capacity) true :=
  allocateWithin_of_measured hv hm (mt bandwidthNeeded_eq_zero_iff.1 hb.ne_empty)

/-- Measurements that an allocation was waiting for settle it on the best pair. -/
theorem finalize_of_measured (hs : f.state = .awaitingMeasurement) (hb : f.bandwidthNeeded brs ≠ 0) :
    f.finalize brs = (f.settle brs (f.bandwidthNeeded brs)
      (brs.highestFitting ⟨0, 0⟩ f.bound unlimited) false).1 := by
  unfold finalize
  rw [if_neg (not_not_intro hs)]
  exact if_neg hb

theorem settle_some (f : Forwarder) (optimal : Int) {l : Layers} (hl : brs.rate l ≠ 0) :
    let g := (f.settle brs optimal (some l) canPause).1
    g.target = l ∧ g.requested = brs.rate l := by
  have some : l ≠ .none := by
    rintro rfl
    exact hl rfl
  refine ⟨?_, ?_⟩
  · rw [target_settle, if_neg fun h => some h.1, Option.getD_some]
  · rw [settle_booked.requested, settle, if_neg fun h => some h.1]
    exact if_neg some

/-- A pair that was found is settled on, whether the stream may be paused or not. -/
theorem settle_found {optimal : Int} {l : Layers} (hl : l ≠ .none) :
    f.settle brs optimal (some l) canPause = f.settle brs optimal (some l) true := by
  simp only [settle, Option.getD_some, hl, false_and, if_false]

/-! ## The target -/

/-- The target is the greatest pair that can be afforded, or none if there is no such. -/
theorem target_allocate (capacity : Int) (hv : f.kind = .video) (hm : f.muted = false)
    (hb : (brs.measured f.bound).Nonempty) :
    IsGreatest (brs.affordable f.bound capacity) (f.allocate capacity brs).1.target ∨
      brs.affordable f.bound capacity = ∅ ∧ (f.allocate capacity brs).1.target = .none := by
  rw [allocate_of_measured hv hm hb, target_settle, if_neg fun h => Bool.noConfusion h.2]
  cases hf : brs.highestFitting ⟨0, 0⟩ f.bound capacity with
  | none => exact .inr ⟨Bitrates.highestFitting_eq_none.1 hf, rfl⟩
  | some l => exact .inl (Bitrates.highestFitting_isGreatest hf)

/-- More capacity never lowers the target. -/
theorem target_allocate_mono (hv : f.kind = .video) (hm : f.muted = false)
    (hb : (brs.measured f.bound).Nonempty) {larger : Int} (h : capacity ≤ larger) :
    (f.allocate capacity brs).1.target ≤ (f.allocate larger brs).1.target := by
  have grows : brs.affordable f.bound capacity ⊆ brs.affordable f.bound larger :=
    Bitrates.affordable_mono h
  rcases target_allocate capacity hv hm hb with low | ⟨-, low⟩ <;>
    rcases target_allocate larger hv hm hb with high | ⟨empty, high⟩
  · exact low.mono high grows
  · exact absurd (grows low.1) (by rw [empty]; exact Set.notMem_empty _)
  · rw [low]
    exact (Layers.none_lt_of_isValid high.1.1.1).le
  · rw [low, high]

/-! ## The answer -/

/-- What is answered when a stream that may be paused settles. -/
theorem settle_answer {optimal : Int} {found : Option Layers} :
    let r := f.settle brs optimal found true
    r.2.requested = rateOf brs r.1.target ∧
      r.2.state = if r.2.requested = optimal then .optimal else .deficient := by
  dsimp only
  rw [target_settle, if_neg fun h => Bool.noConfusion h.2]
  simp only [settle, Bool.not_true, Bool.false_eq_true, and_false, if_false, commit, and_self]

theorem requested_allocate (hv : f.kind = .video) (hm : f.muted = false)
    (hb : (brs.measured f.bound).Nonempty) :
    (f.allocate capacity brs).2.requested = rateOf brs (f.allocate capacity brs).1.target := by
  rw [allocate_of_measured hv hm hb]
  exact settle_answer.1

/-- The bandwidth of a pair is its bitrate. -/
theorem rateOf_of_mem_measured {bound l : Layers} (h : l ∈ brs.measured bound) :
    rateOf brs l = brs.rate l :=
  if_neg fun hl => Bitrates.none_not_mem_measured (hl ▸ h)

/-- The allocation is told to be optimal if and only if it aims for the greatest pair that is
measured. -/
theorem state_allocate (hv : f.kind = .video) (hm : f.muted = false)
    (hb : (brs.measured f.bound).Nonempty) :
    IsGreatest (brs.measured f.bound) (f.allocate capacity brs).1.target ∧
        (f.allocate capacity brs).2.state = .optimal ∨
      ¬IsGreatest (brs.measured f.bound) (f.allocate capacity brs).1.target ∧
        (f.allocate capacity brs).2.state = .deficient := by
  obtain ⟨top, htop, best⟩ := Bitrates.exists_isGreatest_measured hb
  have state : (f.allocate capacity brs).2.state =
      if (f.allocate capacity brs).2.requested = brs.rate top then .optimal else .deficient := by
    rw [allocate_of_measured hv hm hb, ← best]
    exact settle_answer.2
  have told : (f.allocate capacity brs).2.requested = brs.rate top ↔
      (f.allocate capacity brs).1.target = top := by
    rw [requested_allocate hv hm hb]
    rcases target_allocate capacity hv hm hb with found | ⟨-, none⟩
    · rw [rateOf_of_mem_measured found.1.1]
      exact Bitrates.rate_eq_iff found htop
    · rw [none]
      exact iff_of_false (fun h => htop.1.2.2 h.symm)
        fun h => Bitrates.none_not_mem_measured (h ▸ htop.1)
  by_cases h : (f.allocate capacity brs).1.target = top
  · rw [if_pos (told.2 h)] at state
    exact .inl ⟨h ▸ htop, state⟩
  · rw [if_neg (mt told.1 h)] at state
    exact .inr ⟨fun greatest => h (greatest.unique htop), state⟩

/-- A video stream that is not muted, whatever its state, and of which something is measured
that the subscriber wants, is allocated within every capacity:

* the target is the greatest of the measured pairs within the bound whose bitrate is below
  the capacity, and what is requested is its bitrate; if there is no such pair, the target
  is none, and nothing is requested;
* the allocation is optimal if the target is the greatest of the measured pairs, and
  deficient if not;
* bandwidth and state are left as answered;
* with more capacity, the target is not lower. -/
theorem allocate_picks_highest (f : Forwarder) (brs : Bitrates) (hv : f.kind = .video)
    (hm : f.muted = false) (hb : (brs.measured f.bound).Nonempty) (capacity : Int) :
    let g := (f.allocate capacity brs).1
    let a := (f.allocate capacity brs).2
    (IsGreatest (brs.affordable f.bound capacity) g.target ∧
        a.requested = brs.rate g.target ∧ a.requested < capacity ∨
      brs.affordable f.bound capacity = ∅ ∧ g.target = .none ∧ a.requested = 0) ∧
    (IsGreatest (brs.measured f.bound) g.target ∧ a.state = .optimal ∨
      ¬IsGreatest (brs.measured f.bound) g.target ∧ a.state = .deficient) ∧
    (g.requested = a.requested ∧ g.state = a.state) ∧
    ∀ larger, capacity ≤ larger → (f.allocate larger brs).1.target.lt g.target = false := by
  intro g a
  have booked : f.Booked (g, a) := allocateWithin_booked hv
  refine ⟨?_, state_allocate hv hm hb, ⟨booked.requested, booked.state⟩, fun larger h =>
    Layers.lt_eq_false.2 (target_allocate_mono hv hm hb h)⟩
  have requested : a.requested = rateOf brs g.target := requested_allocate hv hm hb
  rcases target_allocate capacity hv hm hb with found | ⟨empty, none⟩
  · rw [rateOf_of_mem_measured found.1.1] at requested
    exact .inl ⟨found, requested, requested ▸ found.1.2⟩
  · exact .inr ⟨empty, none, requested.trans (congrArg (rateOf brs) none)⟩

/-- A capacity that is the bitrate of two pairs affords neither of them. -/
theorem allocate_picks_highest_unevenRates :
    let f := run h264Codec .video [.setAvailable [0, 1]]
    f.kind = .video ∧ f.muted = false ∧ (unevenRates.measured f.bound).Nonempty ∧
      IsGreatest (unevenRates.affordable f.bound 200) ⟨1, 1⟩ ∧
      (f.allocate 200 unevenRates).2.requested = 150 ∧
      (f.allocate 200 unevenRates).2.state = .deficient := by
  intro f
  have measured : (unevenRates.measured f.bound).Nonempty :=
    ⟨⟨0, 0⟩, rfl, rfl, by decide⟩
  have picks := allocate_picks_highest f unevenRates rfl rfl measured 200
  have target : (f.allocate 200 unevenRates).1.target = ⟨1, 1⟩ := rfl
  refine ⟨rfl, rfl, measured, ?_, rfl, rfl⟩
  rcases picks.1 with ⟨greatest, -⟩ | ⟨-, none, -⟩
  · exact target ▸ greatest
  · rw [target] at none
    cases none

end Simulcast.Forwarder
