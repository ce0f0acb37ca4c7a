import Simulcast.Proofs.Forwarding.StepUp

/-!
# Streams without bandwidth

An allocation that asks for nothing leaves a stream that should be silent until a later one
asks for bandwidth or waits for measurements (`StaysSilent`). A stream is silent exactly as long
as it has no target (`staysSilent_iff_target`), since a new target comes with bandwidth or with a
wait. What an allocation may leave of target and account is told once, by `entry_perform`.

A deficient stream that asks for nothing has no target. A stream whose feed is dry keeps the
target that it had, and `staysSilent_iff` says that it is silent only if it had none.
`forwards_driedFeed` is a run whose feed comes back.
-/

namespace Simulcast.Forwarder

/-- The packet is left out. -/
def LeavesOut (f : Forwarder) (p : Arrival) (layer : Int) : Prop :=
  ∃ d, (f.forward p layer).2 = .ok d ∧ d.drop = true

/-- No allocation of the run asks for bandwidth or waits for measurements. -/
def Unfunded : Forwarder → List Command → Prop :=
  Throughout fun f c => c.allocates = true →
    (f.perform c).requested = 0 ∧ (f.perform c).state ≠ .awaitingMeasurement

/-- Every packet of every layer is left out until an allocation asks for bandwidth or waits for
measurements. -/
def StaysSilent (f : Forwarder) : Prop :=
  ∀ later, f.Unfunded later → ∀ p layer, (f.performAll later).LeavesOut p layer

/-- A deficient stream that asks for nothing has no target. -/
def StopsUnfunded (f : Forwarder) : Prop :=
  f.state = .deficient → f.requested = 0 → f.target = .none

/-- The target, the state and the bandwidth that an allocation may leave. -/
inductive Entry (f : Forwarder) : Layers → AllocationState → Int → Prop where
  | kept : Entry f f.target f.state f.requested
  | shut (state : AllocationState) (h : state = .muted ∨ state = .feedDry) :
      Entry f f.target state 0
  | waiting (target : Layers) (requested : Int) : Entry f target .awaitingMeasurement requested
  | paused : Entry f .none .deficient 0
  | rated (target : Layers) (state : AllocationState) (requested : Int) (hr : requested ≠ 0)
      (hs : state = .optimal ∨ state = .deficient) : Entry f target state requested

/-- The entry that a forwarder makes after another one. -/
def Enters (f g : Forwarder) : Prop := f.Entry g.target g.state g.requested

variable {f g : Forwarder} {brs : Bitrates} {optimal capacity highest : Int}
  {found : Option Layers} {canPause : Bool} {c : Command}

/-! ## Entries -/

/-- Nothing has a bitrate of its own. -/
theorem ne_none_of_rate_ne {l : Layers} (h : brs.rate l ≠ 0) : l ≠ .none := by
  rintro rfl
  exact h rfl

theorem settle_enters (ho : optimal ≠ 0) (hf : ∀ l, found = some l → brs.rate l ≠ 0) :
    f.Enters (f.settle brs optimal found canPause).1 := by
  unfold settle
  dsimp only
  split
  · exact .kept
  · rw [Enters, target_aimFor, requested_aimFor, state_aimFor]
    change f.Entry _ (if rateOf brs _ = optimal then _ else _) (rateOf brs _)
    cases found with
    | none =>
      rw [Option.getD_none, rateOf, if_pos rfl, if_neg ho.symm]
      exact .paused
    | some l =>
      have rated : brs.rate l ≠ 0 := hf l rfl
      rw [Option.getD_some, rateOf, if_neg (ne_none_of_rate_ne rated)]
      refine .rated _ _ _ rated ?_
      split
      · exact .inl rfl
      · exact .inr rfl

theorem settleUnmeasured_enters :
    f.Enters (f.settleUnmeasured capacity canPause highest).1 := by
  unfold settleUnmeasured
  split
  · exact .waiting _ _
  · split
    · exact .waiting _ _
    · split
      · rw [Enters, show ∀ h : Forwarder, (h.pause.commit _).1.target = .none from
          fun h => target_aimFor _]
        exact .paused
      · exact .waiting _ _

theorem allocateWithin_enters : f.Enters (f.allocateWithin capacity canPause brs).1 := by
  unfold allocateWithin
  split
  · exact .kept
  · split
    · exact .shut _ (.inl rfl)
    · dsimp only
      split
      · rename_i hb
        exact settle_enters hb fun l hl => (mem_measured_of_highestFitting hl).2.2
      · split
        · exact .shut _ (.inr rfl)
        · exact settleUnmeasured_enters

theorem finalize_enters : f.Enters (f.finalize brs) := by
  unfold finalize
  split
  · exact .kept
  · dsimp only
    split
    · split
      · exact .shut _ (.inr rfl)
      · exact .kept
    · rename_i hb
      exact settle_enters hb fun l hl => (mem_measured_of_highestFitting hl).2.2

theorem allocateNextHigher_enters : f.Enters (f.allocateNextHigher brs).1 := by
  by_cases h : f.StepsUp brs
  · rw [allocateNextHigher_of_stepsUp h]
    exact settle_enters h.2.2.2 fun l hl => (mem_above_of_nextHigher? hl).2.2.1
  · rw [allocateNextHigher_of_not h]
    exact .kept

/-- What an allocation may leave. -/
theorem enters_perform (hc : c.allocates = true) : f.Enters (f.perform c) := by
  cases c with
  | allocate | tryAllocate => exact allocateWithin_enters
  | finalize => exact finalize_enters
  | allocateNextHigher => exact allocateNextHigher_enters
  | _ => cases hc

/-! ## Targets without bandwidth -/

theorem Enters.stopsUnfunded (h : f.Enters g) (hf : f.StopsUnfunded) : g.StopsUnfunded := by
  unfold Enters at h
  unfold StopsUnfunded
  generalize g.target = target, g.state = state, g.requested = requested at h
  cases h with
  | kept => exact hf
  | shut _ hs => rcases hs with rfl | rfl <;> exact nofun
  | waiting => exact nofun
  | paused => exact fun _ _ => rfl
  | rated _ _ _ hr => exact fun _ h0 => absurd h0 hr

/-- An allocation that finds the feed dry keeps the target. -/
theorem Enters.target_of_feedDry (h : f.Enters g) (hs : g.state = .feedDry) :
    g.target = f.target := by
  unfold Enters at h
  generalize g.target = target, g.state = state, g.requested = requested at h hs
  cases h with
  | kept | shut => rfl
  | rated _ _ _ _ hr => rcases hr with rfl | rfl <;> cases hs
  | _ => cases hs

/-- An allocation gives a stream without target none, unless it asks for bandwidth or waits. -/
theorem Enters.target_of_unfunded (h : f.Enters g) (ht : f.target = .none)
    (hr : g.requested = 0) (hs : g.state ≠ .awaitingMeasurement) : g.target = .none := by
  unfold Enters at h
  generalize g.target = target, g.state = state, g.requested = requested at h hr hs
  cases h with
  | kept | shut => exact ht
  | waiting => exact absurd rfl hs
  | paused => rfl
  | rated _ _ _ hn => exact absurd hr hn

theorem stopsUnfunded_perform (hv : f.kind = .video) (h : f.StopsUnfunded) (c : Command) :
    (f.perform c).StopsUnfunded := by
  cases hc : c.allocates with
  | true => exact (enters_perform hc).stopsUnfunded h
  | false =>
    have account := account_perform_of_not_allocates (f := f) hc
    unfold StopsUnfunded
    rw [target_perform_of_not_allocates hv hc, show (f.perform c).state = f.state from
      congrArg Account.state account, show (f.perform c).requested = f.requested from
      congrArg Account.requested account]
    exact h

theorem stopsUnfunded_run (codec : Codec) (cs : List Command) :
    (run codec .video cs).StopsUnfunded :=
  (performAll_induction (P := fun f => f.kind = .video ∧ f.StopsUnfunded)
    (fun _ c h => ⟨(gate_perform h.1 c).kind.trans h.1, stopsUnfunded_perform h.1 h.2 c⟩)
    (f := forCodec codec .video) ⟨rfl, nofun⟩ cs).2

/-- Without bandwidth, a stream without target gets none. -/
theorem Unfunded.target_none (hv : f.kind = .video) (ht : f.target = .none) {cs : List Command}
    (h : f.Unfunded cs) : (f.performAll cs).target = .none := by
  induction cs generalizing f with
  | nil => exact ht
  | cons c cs ih =>
    refine ih ((gate_perform hv c).kind.trans hv) ?_ h.2
    cases hc : c.allocates with
    | true =>
      obtain ⟨requested, state⟩ := h.1 hc
      exact (enters_perform hc).target_of_unfunded ht requested state
    | false => rw [target_perform_of_not_allocates hv hc, ht]

/-! ## Silence -/

theorem leavesOut_of_target_none (hv : f.kind = .video) (ht : f.target = .none) (p : Arrival)
    (layer : Int) : f.LeavesOut p layer := by
  rw [LeavesOut, forward_of_not_live hv fun live => live.2 ht]
  exact ⟨_, rfl, rfl⟩

theorem Forwards.not_leavesOut {p : Arrival} {layer : Int} (h : f.Forwards p layer) :
    ¬f.LeavesOut p layer := by
  rintro ⟨d, hd, dropped⟩
  obtain ⟨d', hd', kept, -⟩ := h
  cases hd.symm.trans hd'
  exact Bool.false_ne_true (kept.symm.trans dropped)

/-- A key frame of the layer aimed for opens the gate of a stream that is not muted. -/
theorem passes_of_keyFrame {g : Gate} (hm : g.muted = false) (ht : g.target ≠ .none) :
    (g.take true g.target.spatial).Passes g.target.spatial := by
  have sent : (g.take true g.target.spatial).sent = g.target.spatial := by
    rw [Gate.take_sent]
    split
    · rfl
    · rename_i closed
      by_contra other
      exact closed ⟨⟨⟨hm, ht⟩, Ne.symm other, rfl⟩, rfl⟩
  refine ⟨⟨Gate.take_muted.trans hm, ?_⟩, sent, fun down => ?_⟩
  · rw [Gate.take_target]
    exact ht
  · rw [Gate.SwitchesDown, sent, Gate.take_target] at down
    exact lt_irrefl _ down.1

/-- A stream is silent for want of bandwidth if and only if it has no target. -/
theorem staysSilent_iff_target (hv : f.kind = .video) : f.StaysSilent ↔ f.target = .none := by
  constructor
  · intro silent
    by_contra ht
    -- Once the stream is not muted, a key frame opens the gate for the packet behind it.
    let opening : List Command := [.mute false, .forward (smallPacket 0 true) f.target.spatial]
    have unmuted : (f.perform (.mute false)).kind = .video := hv
    have passes : (f.performAll opening).gate.Passes f.target.spatial := by
      change ((f.perform (.mute false)).forward _ _).1.gate.Passes _
      rw [gate_forward unmuted]
      exact passes_of_keyFrame rfl ht
    have unfunded : f.Unfunded opening := ⟨nofun, nofun, trivial⟩
    exact (forwards_nextPlain (kind_performAll hv opening) passes).not_leavesOut
      (silent opening unfunded _ _)
  · intro ht later unfunded p layer
    exact leavesOut_of_target_none (kind_performAll hv later) (unfunded.target_none hv ht) p layer

/-- In every run of a video stream, when an allocation answers that nothing is asked for, and that
the feed is dry or the stream deficient: every packet of every layer is left out until an
allocation asks for bandwidth or waits for measurements, if and only if the stream is deficient,
or it had no target before. -/
theorem staysSilent_iff (codec : Codec) (before : List Command) (c : Command) (a : Allocation)
    (ha : (run codec .video before).answer c = some a) (h0 : a.requested = 0)
    (hs : a.state = .feedDry ∨ a.state = .deficient) :
    ((run codec .video before).perform c).StaysSilent ↔
      a.state = .deficient ∨ (run codec .video before).target = .none := by
  have hv : (run codec .video before).kind = .video := (sound_run codec before).kind
  have allocates : c.allocates = true := by cases c <;> first | rfl | cases ha
  have enters := enters_perform (f := run codec .video before) allocates
  have booked : (run codec .video before).Booked ((run codec .video before).perform c, a) := by
    refine (answer_booked hv ha).resolve_right fun unchanged => ?_
    obtain ⟨-, rfl⟩ := Prod.mk.inj unchanged
    rcases hs with hs | hs <;> cases hs
  rw [staysSilent_iff_target ((gate_perform hv c).kind.trans hv)]
  rcases hs with dry | deficient
  · rw [enters.target_of_feedDry (booked.state.trans dry), dry]
    exact (or_iff_right nofun).symm
  · have stops := stopsUnfunded_perform hv (stopsUnfunded_run codec before) c
    exact iff_of_true (stops (booked.state.trans deficient) (booked.requested.trans h0))
      (.inl deficient)

/-! ## A feed that comes back -/

/-- A stream that is sent when its only layer goes missing. -/
def driedFeed : List Command :=
  [.setAvailable [0], .allocate 1000 onePair, .forward (smallPacket 100 true) 0, .setAvailable []]

theorem placed_driedFeed :
    (((run h264Codec .video driedFeed).perform (.allocate 1000 Bitrates.zero)).forward
      (smallPacket 101 false) 0).2 =
      .ok { place := some { number := 101, timestamp := 0, standing := .contiguous } } := by
  rfl

/-- The feed is found dry and nothing is asked for, but the next packet is forwarded. -/
theorem forwards_driedFeed :
    let f := run h264Codec .video driedFeed
    let c : Command := .allocate 1000 Bitrates.zero
    f.answer c = some { state := .feedDry, delta := -100 } ∧
      (f.perform c).Forwards (smallPacket 101 false) 0 ∧
      ¬(f.perform c).LeavesOut (smallPacket 101 false) 0 := by
  intro f c
  have forwards : (f.perform c).Forwards (smallPacket 101 false) 0 :=
    ⟨_, placed_driedFeed, rfl, rfl⟩
  exact ⟨rfl, forwards, forwards.not_leavesOut⟩

/-- The condition missed by that run. -/
theorem staysSilent_iff_driedFeed :
    let f := run h264Codec .video driedFeed
    let c : Command := .allocate 1000 Bitrates.zero
    f.answer c = some { state := .feedDry, delta := -100 } ∧ ¬(f.perform c).StaysSilent := by
  intro f c
  have dry : f.answer c = some { state := .feedDry, delta := -100 } := rfl
  refine ⟨dry, fun silent => ?_⟩
  rcases (staysSilent_iff _ driedFeed c _ dry rfl (.inl rfl)).1 silent with deficient | none
  · cases deficient
  · cases none

end Simulcast.Forwarder
