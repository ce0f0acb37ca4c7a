import Simulcast.Proofs.Forwarding.Target
import Mathlib.Data.List.Pairwise

/-!
# Targets that flow

A publication lists the layers that flow in their order, and reports no bitrates of others. So
a new target that was found by its bitrate names a layer that flows. One that is taken unseen is
the highest layer that flows, cut at the subscriber's bound, and the cut may fall into a hole
between the layers. `newTarget_available_iff` says that this is the one way to miss.
`newTarget_notFlowing_holedLayers` is a run that does.
-/

namespace Simulcast.Forwarder

/-- What a publication promises of its layers at a command: they are listed in order, each once,
and no bitrate of another one is measured. -/
structure IsFed (f : Forwarder) (c : Command) : Prop where
  ordered : f.available.Pairwise (· < ·)
  flowing : ∀ brs, c.rates = some brs → ∀ l : Layers, l.spatial ∉ f.available → brs.rate l = 0

/-- The bound is no layer that flows, but there is a higher one that does. -/
def BoundInHole (f : Forwarder) : Prop :=
  f.bound.spatial ∉ f.available ∧ ∃ layer ∈ f.available, f.bound.spatial < layer

variable {f : Forwarder} {brs : Bitrates} {capacity highest : Int} {canPause : Bool} {c : Command}

/-! ## Pairs that are measured -/

/-- What is measured flows. -/
theorem IsFed.mem_available (h : f.IsFed c) (hc : c.rates = some brs) {l : Layers}
    (hr : brs.rate l ≠ 0) : l.spatial ∈ f.available :=
  of_not_not fun hn => hr (h.flowing brs hc l hn)

/-! ## Pairs that are taken unseen -/

/-- The cut at the bound hits a layer that flows, and then the highest one up to the bound, unless
the bound lies in a hole. -/
theorem unseenPair_spatial (ho : f.available.Pairwise (· < ·))
    (hh : f.available.getLast? = some highest) :
    ((f.unseenPair highest).spatial ∈ f.available ↔ ¬f.BoundInHole) ∧
      (IsGreatest {layer | layer ∈ f.available ∧ layer ≤ f.bound.spatial}
        (f.unseenPair highest).spatial ↔ ¬f.BoundInHole) := by
  have last : highest ∈ f.available := List.mem_of_getLast? hh
  have top : ∀ layer ∈ f.available, layer ≤ highest := by
    intro layer hm
    have same : f.available.getLast (List.ne_nil_of_mem hm) = highest :=
      (List.getLast_eq_iff_getLast?_eq_some _).2 hh
    rw [← same]
    exact (ho.imp le_of_lt).rel_getLast hm
  change (min highest f.bound.spatial ∈ f.available ↔ _) ∧
    (IsGreatest _ (min highest f.bound.spatial) ↔ _)
  have hits : min highest f.bound.spatial ∈ f.available ↔ ¬f.BoundInHole := by
    unfold BoundInHole
    rcases le_or_gt highest f.bound.spatial with below | above
    · rw [min_eq_left below]
      refine iff_of_true last ?_
      rintro ⟨-, layer, hm, hl⟩
      exact absurd (top layer hm) (by omega)
    · rw [min_eq_right above.le]
      exact ⟨fun hm hole => hole.1 hm, fun h => of_not_not fun hm => h ⟨hm, highest, last, above⟩⟩
  refine ⟨hits, ⟨fun h => hits.1 h.1.1, fun h => ⟨⟨hits.2 h, min_le_right _ _⟩, ?_⟩⟩⟩
  rintro layer ⟨hm, hl⟩
  exact le_min (top layer hm) hl

/-- With nothing measured, an allocation settles without measurements. -/
theorem allocateWithin_of_unmeasured (hv : f.kind = .video) (hm : f.muted = false)
    (hb : brs.measured f.bound = ∅) (hh : f.available.getLast? = some highest) :
    f.allocateWithin capacity canPause brs = f.settleUnmeasured capacity canPause highest := by
  have zero : f.bandwidthNeeded brs = 0 := bandwidthNeeded_eq_zero_iff.2 hb
  unfold allocateWithin
  rw [hv, if_neg (by decide), hm, if_neg (by decide)]
  simp only [zero, ne_eq, not_true_eq_false, if_false, hh]

/-- A command that aims for layers unseen takes the pair of the highest one. -/
theorem target_of_aimsUnseen (hv : f.kind = .video) (hc : f.AimsUnseen c)
    (hh : f.available.getLast? = some highest) :
    (f.perform c).target = f.unseenPair highest := by
  obtain ⟨hm, ⟨brs, hr, hb⟩, free, -⟩ := hc
  have taken (canPause : Bool) :
      (f.allocateWithin unlimited canPause brs).1.target = f.unseenPair highest := by
    rw [allocateWithin_of_unmeasured hv hm hb hh, settleUnmeasured, if_pos rfl]
    exact target_aimFor _
  cases c with
  | allocate capacity brs' =>
    cases hr
    cases free
    exact taken true
  | tryAllocate extra brs' =>
    cases hr
    change (f.allocateWithin (saturatingAdd f.requested extra) false brs).1.target = _
    rw [Option.some.inj free]
    exact taken false
  | _ => cases free

/-- Only a pair that is taken unseen may miss the layers that flow. -/
theorem Aims.mem_available_iff {l : Layers} (h : f.Aims c l) (hf : f.IsFed c) (hl : l ≠ .none) :
    l.spatial ∈ f.available ↔ ¬(f.AimsUnseen c ∧ f.BoundInHole) := by
  cases h with
  | pause => exact absurd rfl hl
  | measured hc _ hm =>
    refine iff_of_true (hf.mem_available hc hm.2.2) ?_
    rintro ⟨⟨-, ⟨_, hr, hb⟩, -⟩, -⟩
    cases hc.symm.trans hr
    exact Set.notMem_empty _ (hb ▸ hm)
  | unseen hc hh =>
    rw [(unseenPair_spatial hf.ordered hh).1]
    exact not_congr (and_iff_right hc).symm
  | higherTemporal _ _ _ hr =>
    exact iff_of_true (hf.mem_available rfl hr) fun h => by cases h.1.2.2.1
  | higherSpatial _ hm =>
    exact iff_of_true (hf.mem_available rfl hm.2.2) fun h => by cases h.1.2.2.1

/-- In every run of a video stream, at a command at which the publication keeps its promise:

* a new target other than none names a layer that is available, unless it is taken unseen while
  the bound lies in a hole of the available layers;
* a target that is taken unseen, whether it resumes the stream or not, names the highest
  available layer that is not above the bound, with the same exception. -/
theorem newTarget_available_iff (codec : Codec) (cs : List Command) (c : Command)
    (hf : (run codec .video cs).IsFed c) :
    let f := run codec .video cs
    let new := (f.perform c).target
    (new ≠ f.target → new ≠ .none →
      (new.spatial ∈ f.available ↔ ¬(f.AimsUnseen c ∧ f.BoundInHole))) ∧
    (f.AimsUnseen c →
      (IsGreatest {layer | layer ∈ f.available ∧ layer ≤ f.bound.spatial} new.spatial ↔
        ¬f.BoundInHole)) := by
  intro f new
  have hv : f.kind = .video := (sound_run codec cs).kind
  constructor
  · intro changed some
    exact (aims_of_target_ne hv changed).mem_available_iff hf some
  · intro unseen
    have hh := List.getLast?_eq_some_getLast unseen.2.2.2
    have taken : new = f.unseenPair _ := target_of_aimsUnseen hv unseen hh
    rw [taken]
    exact (unseenPair_spatial hf.ordered hh).2

/-! ## A layer that does not flow -/

/-- A stream of two layers, with the bound between them. -/
def holedLayers : List Command := [.setAvailable [0, 2], .boundSpatial 1]

theorem isFed_holedLayers :
    (run h264Codec .video holedLayers).IsFed (.allocate unlimited Bitrates.zero) := by
  refine ⟨by decide, ?_⟩
  rintro _ ⟨⟩ l -
  exact Bitrates.rate_zero l

/-- The lowest layer is available and wanted, but the stream is turned to the one in the hole. -/
theorem newTarget_notFlowing_holedLayers :
    let f := run h264Codec .video holedLayers
    let new := (f.perform (.allocate unlimited Bitrates.zero)).target
    f.IsFed (.allocate unlimited Bitrates.zero) ∧ f.available = [0, 2] ∧ f.bound.spatial = 1 ∧
      f.target = .none ∧ new = ⟨1, 3⟩ ∧ new.spatial ∉ f.available :=
  ⟨isFed_holedLayers, rfl, rfl, rfl, rfl, by decide⟩

/-- The condition missed by that run. -/
theorem newTarget_available_iff_holedLayers :
    let f := run h264Codec .video holedLayers
    let new := (f.perform (.allocate unlimited Bitrates.zero)).target
    f.IsFed (.allocate unlimited Bitrates.zero) ∧ new ≠ f.target ∧ new ≠ .none ∧
      f.AimsUnseen (.allocate unlimited Bitrates.zero) ∧ new.spatial ∉ f.available ∧
      ¬IsGreatest {layer | layer ∈ f.available ∧ layer ≤ f.bound.spatial} new.spatial := by
  intro f new
  have changed : new ≠ f.target := by decide
  have some : new ≠ .none := by decide
  have unseen : f.AimsUnseen (.allocate unlimited Bitrates.zero) :=
    ⟨rfl, ⟨_, rfl, Bitrates.measured_zero⟩, rfl, by decide⟩
  have hole : f.BoundInHole := ⟨by decide, 2, by decide, by decide⟩
  have misses := newTarget_available_iff _ holedLayers _ isFed_holedLayers
  exact ⟨isFed_holedLayers, changed, some, unseen,
    fun h => (misses.1 changed some).1 h ⟨unseen, hole⟩, fun h => (misses.2 unseen).1 h hole⟩

end Simulcast.Forwarder
