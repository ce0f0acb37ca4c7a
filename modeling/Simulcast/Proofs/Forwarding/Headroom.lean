import Simulcast.Proofs.Forwarding.StepUp

/-!
# Allocations within some headroom

A stream that is sent by its measured bitrate is tried for more: it is allocated within what is
in use and some headroom. It is never paused by that, and with any headroom at all its own pair
still fits, so that the target only goes up (`le_target_tryAllocate`). A pair has to stay below
the capacity, however, and without headroom the capacity is the bitrate of the target itself. The
target is then given up for the greatest pair with a smaller bitrate, which may be a lower one
(`target_tryAllocate_zero`). `headroom_keeps_iff` says that nothing else lowers a target, and
`lowered_withoutHeadroom` is a stream that loses a temporal layer that way.

What is asked for stays below the bandwidth without limit all the time (`requested_lt_run`), so
that there always is headroom to be added.
-/

namespace Simulcast.Forwarder

/-- A capacity that is allocated counts in 63 bits. -/
def Command.Counts (c : Command) : Prop :=
  ∀ capacity brs, c = .allocate capacity brs → capacity ≤ unlimited

variable {f : Forwarder} {brs : Bitrates} {optimal capacity extra highest : Int}
  {found : Option Layers} {canPause : Bool} {c : Command} {l : Layers}

/-! ## What is asked for -/

theorem zero_lt_unlimited : 0 < unlimited := by decide

theorem requested_settle_lt (h : f.requested < unlimited)
    (hf : ∀ l, found = some l → brs.rate l < unlimited) :
    (f.settle brs optimal found canPause).1.requested < unlimited := by
  unfold settle
  dsimp only
  split
  · exact h
  · rw [requested_aimFor]
    change rateOf brs _ < unlimited
    unfold rateOf
    split
    · exact zero_lt_unlimited
    · rename_i some
      cases found with
      | none => exact absurd rfl some
      | some l => exact hf l rfl

theorem requested_settleUnmeasured_lt (h : f.requested < unlimited) :
    (f.settleUnmeasured capacity canPause highest).1.requested < unlimited := by
  rw [settleUnmeasured_booked.requested]
  unfold settleUnmeasured
  dsimp only
  split
  · exact zero_lt_unlimited
  · split
    · exact zero_lt_unlimited
    · split
      · exact zero_lt_unlimited
      · exact h

theorem requested_allocateWithin_lt (h : f.requested < unlimited) (hc : capacity ≤ unlimited) :
    (f.allocateWithin capacity canPause brs).1.requested < unlimited := by
  unfold allocateWithin
  split
  · exact h
  · split
    · exact zero_lt_unlimited
    · dsimp only
      split
      · exact requested_settle_lt h fun l hl =>
          (Bitrates.highestFitting_isGreatest hl).1.2.trans_le hc
      · split
        · exact zero_lt_unlimited
        · exact requested_settleUnmeasured_lt h

theorem requested_finalize_lt (h : f.requested < unlimited) :
    (f.finalize brs).requested < unlimited := by
  unfold finalize
  split
  · exact h
  · dsimp only
    split
    · split
      · exact zero_lt_unlimited
      · exact h
    · exact requested_settle_lt h fun l hl => (Bitrates.highestFitting_isGreatest hl).1.2

theorem requested_allocateNextHigher_lt (h : f.requested < unlimited) :
    (f.allocateNextHigher brs).1.requested < unlimited := by
  by_cases hs : f.StepsUp brs
  · rw [allocateNextHigher_of_stepsUp hs]
    exact requested_settle_lt h fun l hl => (mem_above_of_nextHigher? hl).2.2.2.1
  · rw [allocateNextHigher_of_not hs]
    exact h

theorem saturatingAdd_le (a b : Int) : saturatingAdd a b ≤ unlimited := by
  unfold saturatingAdd unlimited
  omega

theorem requested_perform_lt (h : f.requested < unlimited) (hc : c.Counts) :
    (f.perform c).requested < unlimited := by
  cases c with
  | allocate capacity brs => exact requested_allocateWithin_lt h (hc capacity brs rfl)
  | tryAllocate extra brs => exact requested_allocateWithin_lt h (saturatingAdd_le _ _)
  | finalize brs => exact requested_finalize_lt h
  | allocateNextHigher brs => exact requested_allocateNextHigher_lt h
  | _ =>
    rw [requested_perform_of_not_allocates rfl]
    exact h

theorem requested_lt_run (codec : Codec) (cs : List Command) (hc : ∀ c ∈ cs, c.Counts) :
    (run codec .video cs).requested < unlimited := by
  have later (f : Forwarder) (h : f.requested < unlimited) :
      (f.performAll cs).requested < unlimited := by
    induction cs generalizing f with
    | nil => exact h
    | cons c cs ih =>
      exact ih (fun c' hm => hc c' (List.mem_cons_of_mem c hm)) _
        (requested_perform_lt h (hc c List.mem_cons_self))
  exact later _ zero_lt_unlimited

/-! ## Streams that are tried for more -/

/-- A stream is sent by its measured bitrate: the target is a measured pair that the subscriber
wants, and what is asked for is its bitrate. -/
structure Funded (f : Forwarder) (brs : Bitrates) : Prop where
  kind : f.kind = .video
  muted : f.muted = false
  target : f.target ∈ brs.measured f.bound
  rate : brs.rate f.target = f.requested

/-- Such a stream settles on the greatest pair that fits what is in use and the headroom. -/
theorem Funded.tryAllocate_eq (h : f.Funded brs) (extra : Int) :
    f.tryAllocate extra brs =
      f.settle brs (f.bandwidthNeeded brs)
        (brs.highestFitting ⟨0, 0⟩ f.bound (saturatingAdd f.requested extra)) false := by
  refine allocateWithin_of_measured h.kind h.muted fun nothing => ?_
  exact Set.notMem_empty _ (bandwidthNeeded_eq_zero_iff.1 nothing ▸ h.target)

theorem change_settle (hp : canPause = false) (ht : f.target ≠ .none) :
    (f.settle brs optimal found canPause).1.change = f.change := by
  unfold settle
  dsimp only
  split
  · rfl
  · rename_i some
    have some : found.getD .none ≠ .none := fun h => some ⟨h, by rw [hp]; rfl⟩
    change (Account.change <| account <| aimFor _ _) = f.change
    rw [account_aimFor]
    unfold noteChange
    rw [if_neg fun h => some h.2, if_neg fun h => ht h.1]
    rfl

theorem current_aimFor (f : Forwarder) (target : Layers) :
    (f.aimFor target).current = f.current := by
  unfold aimFor
  split <;> rfl

theorem current_noteChange (f : Forwarder) (target : Layers) :
    (f.noteChange target).current = f.current := by
  unfold noteChange
  split
  · rfl
  · split <;> rfl

theorem current_settle : (f.settle brs optimal found canPause).1.current = f.current := by
  unfold settle
  dsimp only
  split
  · rfl
  · rw [current_aimFor]
    exact current_noteChange f _

/-- The stream is not paused. -/
theorem Funded.flows (h : f.Funded brs) (extra : Int) :
    let g := (f.tryAllocate extra brs).1
    g.target ∈ brs.measured f.bound ∧ g.change = f.change ∧ g.current = f.current := by
  have some : f.target ≠ .none := fun none => Bitrates.none_not_mem_measured (none ▸ h.target)
  rw [h.tryAllocate_eq]
  refine ⟨?_, change_settle rfl some, current_settle⟩
  rcases settle_target_cases with kept | ⟨may, -⟩ | found
  · rw [kept]
    exact h.target
  · cases may
  · exact (Bitrates.highestFitting_isGreatest found).1.1

/-- With headroom the target still fits, and what is found is no lower. -/
theorem Funded.le_target_tryAllocate (h : f.Funded brs) (hr : f.requested < unlimited)
    (h0 : 0 < extra) : f.target ≤ (f.tryAllocate extra brs).1.target := by
  have room : f.requested < saturatingAdd f.requested extra := by
    unfold unlimited at hr
    unfold saturatingAdd
    omega
  have fits : f.target ∈ brs.affordable f.bound (saturatingAdd f.requested extra) :=
    ⟨h.target, h.rate.trans_lt room⟩
  rw [h.tryAllocate_eq, target_settle]
  split
  · exact le_rfl
  · cases hf : brs.highestFitting ⟨0, 0⟩ f.bound (saturatingAdd f.requested extra) with
    | none => exact absurd (Bitrates.highestFitting_eq_none.1 hf ▸ fits) (Set.notMem_empty _)
    | some l => exact (Bitrates.highestFitting_isGreatest hf).2 fits

/-- Without headroom the target does not fit: it is given up for the greatest pair with a smaller
bitrate, if there is one. -/
theorem Funded.target_tryAllocate_zero (h : f.Funded brs) (hr : f.requested < unlimited)
    (hw : -0x8000000000000000 ≤ f.requested) :
    IsGreatest (brs.affordable f.bound f.requested) (f.tryAllocate 0 brs).1.target ∨
      brs.affordable f.bound f.requested = ∅ ∧ (f.tryAllocate 0 brs).1.target = f.target := by
  have same : saturatingAdd f.requested 0 = f.requested := by
    unfold unlimited at hr
    unfold saturatingAdd
    omega
  rw [h.tryAllocate_eq, same, target_settle]
  cases hf : brs.highestFitting ⟨0, 0⟩ f.bound f.requested with
  | none => exact .inr ⟨Bitrates.highestFitting_eq_none.1 hf, if_pos ⟨rfl, rfl⟩⟩
  | some l =>
    have greatest := Bitrates.highestFitting_isGreatest hf
    have some : l ≠ .none := fun none => Bitrates.none_not_mem_measured (none ▸ greatest.1.1)
    rw [if_neg fun none => some none.1]
    exact .inl greatest

/-- In every run of a video stream that is not muted, if its target is a measured pair that the
subscriber wants and what is asked for is its bitrate: however much headroom it is tried with,

* the target is not lowered, unless the headroom is zero and the greatest of the measured pairs
  with a smaller bitrate is below the target;
* the target goes on to be a measured pair that the subscriber wants, no pause is noted, and the
  layers that are sent stay. -/
theorem headroom_keeps_iff (codec : Codec) (cs : List Command) (extra : Int) (brs : Bitrates)
    (hc : ∀ c ∈ cs, c.Counts) (hf : (run codec .video cs).Funded brs)
    (hw : -0x8000000000000000 ≤ (run codec .video cs).requested) (h0 : 0 ≤ extra) :
    let f := run codec .video cs
    let g := (f.tryAllocate extra brs).1
    (g.target.lt f.target = false ↔
      ¬(extra = 0 ∧ ∃ l, IsGreatest (brs.affordable f.bound f.requested) l ∧ l < f.target)) ∧
    g.target ∈ brs.measured f.bound ∧ g.change = f.change ∧ g.current = f.current := by
  intro f g
  have below : f.requested < unlimited := requested_lt_run codec cs hc
  refine ⟨?_, hf.flows extra⟩
  rw [Layers.lt_eq_false]
  rcases h0.eq_or_lt with rfl | room
  · rcases hf.target_tryAllocate_zero below hw with greatest | ⟨empty, kept⟩
    · constructor
      · rintro higher ⟨-, l, hl, lower⟩
        rw [hl.unique greatest] at lower
        exact absurd higher (not_le.2 lower)
      · exact fun none => not_lt.1 fun lower => none ⟨rfl, _, greatest, lower⟩
    · refine iff_of_true kept.ge ?_
      rintro ⟨-, l, hl, -⟩
      exact Set.notMem_empty l (empty ▸ hl.1)
  · refine iff_of_true (hf.le_target_tryAllocate below room) ?_
    rintro ⟨rfl, -⟩
    exact lt_irrefl _ room

/-- Bitrates of three temporal layers of one spatial layer. -/
def risingRates : Bitrates :=
  #v[#v[100, 150, 200, 0], Vector.replicate 4 0, Vector.replicate 4 0]

/-- A stream with the capacity for two of them. -/
def twoOfThree : List Command := [.setAvailable [0], .allocate 160 risingRates]

/-- Without headroom, the stream falls back to the lowest one. -/
theorem lowered_withoutHeadroom :
    let f := run h264Codec .video twoOfThree
    let g := (f.tryAllocate 0 risingRates).1
    f.target = ⟨0, 1⟩ ∧ f.requested = risingRates.rate f.target ∧
      g.target = ⟨0, 0⟩ ∧ g.requested = 100 ∧ g.target.lt f.target = true :=
  ⟨rfl, rfl, rfl, rfl, rfl⟩

/-- The condition missed by that stream. -/
theorem headroom_keeps_iff_twoOfThree :
    let f := run h264Codec .video twoOfThree
    (∀ c ∈ twoOfThree, c.Counts) ∧ f.Funded risingRates ∧ -0x8000000000000000 ≤ f.requested ∧
      ∃ l, IsGreatest (risingRates.affordable f.bound f.requested) l ∧ l < f.target := by
  intro f
  have counts : ∀ c ∈ twoOfThree, c.Counts := by
    intro c hc capacity brs heq
    simp only [twoOfThree, List.mem_cons, List.not_mem_nil, or_false] at hc
    rcases hc with rfl | rfl <;> cases heq
    decide
  have funded : f.Funded risingRates := ⟨rfl, rfl, ⟨rfl, rfl, by decide⟩, rfl⟩
  have word : -0x8000000000000000 ≤ f.requested := by decide
  refine ⟨counts, funded, word, ?_⟩
  obtain ⟨keeps, -⟩ :=
    headroom_keeps_iff h264Codec twoOfThree 0 risingRates counts funded word le_rfl
  by_contra free
  have kept := keeps.2 fun low => free low.2
  exact Bool.noConfusion kept

end Simulcast.Forwarder
