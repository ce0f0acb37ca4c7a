import Simulcast.Proofs.Forwarding.Resumption
import Mathlib.Algebra.Ring.Int.Defs

/-!
# Accounts of bandwidth

Each answer to an allocator is booked: it tells how much more bandwidth is asked for than by
the allocation before it, and is itself the last allocation from then on (`Booked`). All the
ways to settle end in `commit`, which books; a step up is one settlement, whether it looks
once or twice (`allocateNextHigher_eq`). As nothing else writes to the account
(`requested_perform`), the deltas of a run add up to what has become of it
(`sum_answers`). `allocations_booked` states all of it, and that the deltas stay within
64 bits.
-/

namespace Simulcast

/-- A bandwidth that 63 bits can count. -/
def IsBandwidth (rate : Int) : Prop := 0 ≤ rate ∧ rate ≤ unlimited

theorem isBandwidth_zero : IsBandwidth 0 := ⟨Int.le_refl 0, by decide⟩

/-- All bitrates are bandwidths. -/
def Bitrates.AreBandwidths (brs : Bitrates) : Prop :=
  ∀ row ∈ brs.toList, ∀ rate ∈ row.toList, IsBandwidth rate

theorem Bitrates.AreBandwidths.rate {brs : Bitrates} (h : brs.AreBandwidths) (l : Layers) :
    IsBandwidth (brs.rate l) :=
  rate_of_forall isBandwidth_zero h l

namespace Forwarder

/-- The bitrates by which a command allocates. -/
def Command.rates : Command → Option Bitrates
  | .allocate _ brs | .tryAllocate _ brs | .finalize brs | .allocateNextHigher brs => some brs
  | _ => none

/-- What a command answers to an allocator. -/
def answer (f : Forwarder) : Command → Option Allocation
  | .allocate capacity brs => some (f.allocate capacity brs).2
  | .tryAllocate extra brs => some (f.tryAllocate extra brs).2
  | .allocateNextHigher brs => some (f.allocateNextHigher brs).2
  | _ => none

/-- The answers of a run. -/
def answers (f : Forwarder) : List Command → List Allocation
  | [] => []
  | c :: cs => (f.answer c).toList ++ (f.perform c).answers cs

/-- The account of a stream: what its last allocation came to. -/
structure Account where
  state : AllocationState
  requested : Int
  change : StreamingChange

def account (f : Forwarder) : Account :=
  { state := f.state, requested := f.requested, change := f.change }

/-- An answer is booked: its delta is what it asks for beyond the allocation before it, and
what it asks for and how it came out is left in the forwarder. -/
structure Booked (f : Forwarder) (r : Forwarder × Allocation) : Prop where
  delta : r.2.delta = r.2.requested - f.requested
  requested : r.1.requested = r.2.requested
  state : r.1.state = r.2.state

variable {f g : Forwarder} {brs : Bitrates} {optimal capacity highest : Int}
  {found : Option Layers} {canPause : Bool}

/-! ## Settlements -/

theorem commit_booked (a : Allocation) (h : g.requested = f.requested) : f.Booked (g.commit a) :=
  ⟨congrArg (a.requested - ·) h, rfl, rfl⟩

/-- What is aimed for is no matter of the account. -/
theorem Booked.aimFor {a : Allocation} (h : f.Booked (g, a)) (target : Layers) :
    f.Booked (g.aimFor target, a) := by
  unfold Forwarder.aimFor
  split
  · exact h
  · exact ⟨h.delta, h.requested, h.state⟩

@[simp] theorem account_aimFor (f : Forwarder) (target : Layers) :
    (f.aimFor target).account = f.account := by
  unfold aimFor
  split <;> rfl

@[simp] theorem requested_aimFor (f : Forwarder) (target : Layers) :
    (f.aimFor target).requested = f.requested :=
  congrArg Account.requested (account_aimFor f target)

@[simp] theorem state_aimFor (f : Forwarder) (target : Layers) :
    (f.aimFor target).state = f.state :=
  congrArg Account.state (account_aimFor f target)

@[simp] theorem requested_noteChange (f : Forwarder) (target : Layers) :
    (f.noteChange target).requested = f.requested := by
  unfold noteChange
  split
  · rfl
  · split <;> rfl

theorem settle_booked : f.Booked (f.settle brs optimal found canPause) := by
  unfold settle
  dsimp only
  split
  · exact commit_booked _ rfl
  · exact (commit_booked _ (requested_noteChange f _)).aimFor _

theorem settleUnmeasured_booked : f.Booked (f.settleUnmeasured capacity canPause highest) := by
  unfold settleUnmeasured
  dsimp only
  split
  · refine commit_booked _ ?_
    rw [requested_aimFor]
    split <;> rfl
  · split
    · exact commit_booked _ rfl
    · split
      · exact commit_booked _ (requested_aimFor _ _)
      · exact commit_booked _ rfl

theorem allocateWithin_booked (hv : f.kind = .video) :
    f.Booked (f.allocateWithin capacity canPause brs) := by
  unfold allocateWithin
  rw [hv, if_neg (by decide)]
  dsimp only
  split
  · exact commit_booked _ rfl
  · split
    · exact settle_booked
    · split
      · exact commit_booked _ rfl
      · exact settleUnmeasured_booked

/-! ## A step up -/

/-- A step up is taken. -/
def StepsUp (f : Forwarder) (brs : Bitrates) : Prop :=
  f.kind = .video ∧ f.state = .deficient ∧ (f.target = .none ∨ f.target = f.current) ∧
    f.bandwidthNeeded brs ≠ 0

theorem higherTemporal_ne {l : Layers} (h : f.higherTemporal brs = some l) : l ≠ f.target := by
  unfold higherTemporal at h
  split at h
  · cases h
  · have := (Bitrates.mem_pairs.1 (Bitrates.mem_of_lowestFitting h)).2.1
    rintro rfl
    dsimp only at this
    omega

/-- Without a pair to settle on, a stream that may not be paused stays as it is. -/
theorem settle_none_keeps :
    f.settle brs optimal none false = f.commit { state := f.state, requested := f.requested } := rfl

/-- The two searches of a step up come to one settlement. -/
theorem allocateNextHigher_eq (h : f.StepsUp brs) :
    f.allocateNextHigher brs =
      f.settle brs (f.bandwidthNeeded brs)
        ((f.higherTemporal brs).or (f.higherSpatial brs)) false := by
  obtain ⟨hv, hs, ht, hb⟩ := h
  unfold allocateNextHigher
  have deficient : ¬(f.kind = .audio ∨ f.state ≠ .deficient) := by simp only [hv, hs]; decide
  have settled : ¬(f.target ≠ .none ∧ f.target ≠ f.current) := by tauto
  rw [if_neg deficient, if_neg settled]
  dsimp only
  rw [if_neg hb]
  cases higher : f.higherTemporal brs with
  | none =>
    -- Without a find, the first settlement leaves the forwarder as the second one finds it.
    rw [settle_none_keeps, Option.none_or]
    rfl
  | some l =>
    rw [Option.some_or]
    obtain ⟨_, _, hl⟩ := mem_of_higherTemporal higher
    have other : l ≠ .none := Bitrates.ne_none_of_mem_pairs hl
    have changed : (f.settle brs (f.bandwidthNeeded brs) (some l) false).2.layersChanged = true := by
      simp only [settle, Option.getD_some, other, false_and, if_false, commit]
      exact bne_iff_ne.2 (higherTemporal_ne higher).symm
    rw [if_pos changed]

/-- Otherwise nothing happens. -/
theorem allocateNextHigher_of_not (h : ¬f.StepsUp brs) : f.allocateNextHigher brs = (f, {}) := by
  unfold allocateNextHigher
  split
  · rfl
  · split
    · rfl
    · dsimp only
      split
      · rfl
      · rename_i hd ht hb
        rw [not_or, not_not] at hd
        have video : f.kind = .video := by
          cases hk : f.kind with
          | audio => exact absurd hk hd.1
          | video => rfl
        exact absurd ⟨video, hd.2, by tauto, hb⟩ h

theorem allocateNextHigher_booked :
    f.Booked (f.allocateNextHigher brs) ∨ f.allocateNextHigher brs = (f, {}) := by
  by_cases h : f.StepsUp brs
  · rw [allocateNextHigher_eq h]
    exact .inl settle_booked
  · exact .inr (allocateNextHigher_of_not h)

/-! ## What packets leave alone -/

@[simp] theorem account_takeSource (f : Forwarder) (a : Arrival) (ticks : UInt32) :
    (f.takeSource a ticks).account = f.account := by
  unfold takeSource
  split <;> rfl

@[simp] theorem account_takePictures (f : Forwarder) (a : Arrival) :
    (f.takePictures a).account = f.account := by
  unfold takePictures
  split <;> rfl

@[simp] theorem account_describePicture (f : Forwarder) (p : Vp8.PictureNumbering) (a : Arrival)
    (place : Placement) (d : Decision) :
    (f.describePicture p a place d).1.account = f.account := by
  unfold describePicture
  dsimp only
  split <;> split <;> rfl

@[simp] theorem account_placePacket (f : Forwarder) (a : Arrival) (d : Decision) :
    (f.placePacket a d).1.account = f.account := by
  have front : ((f.takePictures a).takeSource a (f.ticksSince a)).account = f.account :=
    (account_takeSource _ a _).trans (account_takePictures f a)
  unfold placePacket
  dsimp only
  split
  · exact front
  · split
    · exact front
    · exact (account_describePicture _ _ a _ d).trans front

@[simp] theorem account_approachTarget (f : Forwarder) (a : Arrival) (layer : Int) :
    (f.approachTarget a layer).1.account = f.account := by
  unfold approachTarget
  split
  · split
    · rfl
    · split <;> rfl
  · rfl

@[simp] theorem account_forward (f : Forwarder) (a : Arrival) (layer : Int) :
    (f.forward a layer).1.account = f.account := by
  unfold forward
  split
  · rfl
  · split
    · exact account_takeSource f a 1
    · unfold forwardVideo
      split
      · rfl
      · dsimp only
        split
        · exact (account_placePacket _ a _).trans (account_approachTarget f a layer)
        · exact account_approachTarget f a layer

/-- Only an allocator writes to the account. -/
theorem account_perform_of_not_allocates {c : Command} (h : c.allocates = false) :
    (f.perform c).account = f.account := by
  cases c with
  | boundSpatial layer =>
    simp only [perform, boundSpatial]
    split <;> rfl
  | boundTemporal layer =>
    simp only [perform, boundTemporal]
    split <;> rfl
  | blankDescriptor endsFrame =>
    simp only [perform, blankDescriptor]
    split <;> rfl
  | forward a layer => exact account_forward f a layer
  | mute | setAvailable | padding | blankFrames => rfl
  | allocate | tryAllocate | finalize | allocateNextHigher => cases h

theorem requested_perform_of_not_allocates {c : Command} (h : c.allocates = false) :
    (f.perform c).requested = f.requested :=
  congrArg Account.requested (account_perform_of_not_allocates h)

/-! ## Runs -/

variable {c : Command}

/-- Every answer is booked, or else the default, which changes nothing. -/
theorem answer_booked (hv : f.kind = .video) {a : Allocation} (h : f.answer c = some a) :
    f.Booked (f.perform c, a) ∨ (f.perform c, a) = (f, {}) := by
  cases c with
  | allocate | tryAllocate =>
    cases h
    exact .inl (allocateWithin_booked hv)
  | allocateNextHigher =>
    cases h
    exact allocateNextHigher_booked
  | _ => cases h

/-- What a command does to the account is told by its answer, if it answers. -/
theorem requested_perform (hv : f.kind = .video) (hc : ∀ brs, c ≠ .finalize brs) :
    (f.perform c).requested =
      f.requested + ((f.answer c).toList.map Allocation.delta).sum := by
  cases h : f.answer c with
  | none =>
    have quiet : c.allocates = false := by
      cases c with
      | allocate | tryAllocate | allocateNextHigher => cases h
      | finalize brs => exact absurd rfl (hc brs)
      | _ => rfl
    rw [requested_perform_of_not_allocates quiet]
    exact (Int.add_zero _).symm
  | some a =>
    have sum : ((some a).toList.map Allocation.delta).sum = a.delta := Int.add_zero _
    rw [sum]
    rcases answer_booked hv h with booked | unchanged
    · rw [booked.delta, booked.requested]
      omega
    · obtain ⟨same, rfl⟩ := Prod.mk.inj unchanged
      rw [same]
      exact (Int.add_zero _).symm

theorem sum_answers (hv : f.kind = .video) (cs : List Command)
    (hc : ∀ brs, Command.finalize brs ∉ cs) :
    ((f.answers cs).map Allocation.delta).sum = (f.performAll cs).requested - f.requested := by
  induction cs generalizing f with
  | nil => exact (Int.sub_self _).symm
  | cons c cs ih =>
    have kind : (f.perform c).kind = .video := (gate_perform hv c).kind.trans hv
    have step := requested_perform hv fun brs h => hc brs (h ▸ List.mem_cons_self)
    have rest := ih kind fun brs h => hc brs (List.mem_cons_of_mem c h)
    rw [answers, List.map_append, List.sum_append, rest, step, performAll_cons]
    omega

/-! ## The size of the account -/

theorem isBandwidth_settle (h : IsBandwidth f.requested) (hb : brs.AreBandwidths) :
    IsBandwidth (f.settle brs optimal found canPause).2.requested := by
  unfold settle
  dsimp only
  split
  · exact h
  · change IsBandwidth (rateOf brs _)
    unfold rateOf
    split
    · exact isBandwidth_zero
    · exact hb.rate _

theorem isBandwidth_settleUnmeasured (h : IsBandwidth f.requested) :
    IsBandwidth (f.settleUnmeasured capacity canPause highest).2.requested := by
  unfold settleUnmeasured
  dsimp only
  split
  · exact isBandwidth_zero
  · split
    · exact isBandwidth_zero
    · split
      · exact isBandwidth_zero
      · exact h

theorem isBandwidth_allocateWithin (h : IsBandwidth f.requested) (hb : brs.AreBandwidths) :
    IsBandwidth (f.allocateWithin capacity canPause brs).2.requested := by
  unfold allocateWithin
  dsimp only
  split
  · exact isBandwidth_zero
  · split
    · exact isBandwidth_zero
    · split
      · exact isBandwidth_settle h hb
      · split
        · exact isBandwidth_zero
        · exact isBandwidth_settleUnmeasured h

theorem isBandwidth_allocateNextHigher (h : IsBandwidth f.requested) (hb : brs.AreBandwidths) :
    IsBandwidth (f.allocateNextHigher brs).2.requested := by
  by_cases hs : f.StepsUp brs
  · rw [allocateNextHigher_eq hs]
    exact isBandwidth_settle h hb
  · rw [allocateNextHigher_of_not hs]
    exact isBandwidth_zero

/-- The bitrates by which a command allocates are bandwidths. -/
def Command.Measures (c : Command) : Prop := ∀ brs, c.rates = some brs → brs.AreBandwidths

theorem isBandwidth_answer (h : IsBandwidth f.requested) (hc : c.Measures) {a : Allocation}
    (ha : f.answer c = some a) : IsBandwidth a.requested := by
  cases c with
  | allocate capacity brs | tryAllocate extra brs =>
    cases ha
    exact isBandwidth_allocateWithin h (hc brs rfl)
  | allocateNextHigher brs =>
    cases ha
    exact isBandwidth_allocateNextHigher h (hc brs rfl)
  | _ => cases ha

theorem isBandwidth_finalize (h : IsBandwidth f.requested) (hb : brs.AreBandwidths) :
    IsBandwidth (f.finalize brs).requested := by
  unfold finalize
  dsimp only
  split
  · exact h
  · split
    · split
      · exact isBandwidth_zero
      · exact h
    · rw [settle_booked.requested]
      exact isBandwidth_settle h hb

theorem isBandwidth_perform (hv : f.kind = .video) (h : IsBandwidth f.requested)
    (hc : c.Measures) : IsBandwidth (f.perform c).requested := by
  cases ha : f.answer c with
  | some a =>
    rcases answer_booked hv ha with booked | unchanged
    · rw [booked.requested]
      exact isBandwidth_answer h hc ha
    · rw [(Prod.mk.inj unchanged).1]
      exact h
  | none =>
    cases c with
    | allocate | tryAllocate | allocateNextHigher => cases ha
    | finalize brs => exact isBandwidth_finalize h (hc brs rfl)
    | _ =>
      rw [requested_perform_of_not_allocates rfl]
      exact h

/-- The difference of two bandwidths has 64 bits. -/
theorem delta_bounds (hv : f.kind = .video) (h : IsBandwidth f.requested) (hc : c.Measures)
    {a : Allocation} (ha : f.answer c = some a) : -unlimited ≤ a.delta ∧ a.delta ≤ unlimited := by
  have size := isBandwidth_answer h hc ha
  unfold IsBandwidth at h size
  rcases answer_booked hv ha with booked | unchanged
  · rw [booked.delta]
    dsimp only
    omega
  · obtain ⟨-, rfl⟩ := Prod.mk.inj unchanged
    decide

theorem delta_bounds_of_mem_answers (hv : f.kind = .video) (h : IsBandwidth f.requested)
    (cs : List Command) (hc : ∀ c ∈ cs, c.Measures) :
    ∀ a ∈ f.answers cs, -unlimited ≤ a.delta ∧ a.delta ≤ unlimited := by
  induction cs generalizing f with
  | nil =>
    intro a ha
    cases ha
  | cons c cs ih =>
    intro a ha
    have measures : c.Measures := hc c List.mem_cons_self
    rcases List.mem_append.1 ha with ha | ha
    · exact delta_bounds hv h measures (Option.mem_toList.1 ha)
    · exact ih ((gate_perform hv c).kind.trans hv) (isBandwidth_perform hv h measures)
        (fun c' hm => hc c' (List.mem_cons_of_mem c hm)) a ha

/-- For every forwarder of video:

* an allocation within a capacity, and one within what is in use and so much more, is booked;
* a step up is booked, or it answers by default and changes nothing;
* over every run without `finalize`, which settles and does not answer, the deltas add up to
  what the run has made of the bandwidth asked for;
* as long as all bitrates are bandwidths, no delta leaves 64 bits. -/
theorem allocations_booked (f : Forwarder) (hv : f.kind = .video) :
    (∀ capacity brs, f.Booked (f.allocate capacity brs)) ∧
      (∀ extra brs, f.Booked (f.tryAllocate extra brs)) ∧
      (∀ brs, f.Booked (f.allocateNextHigher brs) ∨ f.allocateNextHigher brs = (f, {})) ∧
      ∀ cs,
        ((∀ brs, Command.finalize brs ∉ cs) →
          ((f.answers cs).map Allocation.delta).sum =
            (f.performAll cs).requested - f.requested) ∧
        (IsBandwidth f.requested → (∀ c ∈ cs, c.Measures) →
          ∀ a ∈ f.answers cs, -unlimited ≤ a.delta ∧ a.delta ≤ unlimited) :=
  ⟨fun _ _ => allocateWithin_booked hv, fun _ _ => allocateWithin_booked hv,
    fun _ => allocateNextHigher_booked, fun cs => ⟨sum_answers hv cs,
      fun h hc => delta_bounds_of_mem_answers hv h cs hc⟩⟩

/-- Bitrates that do not grow with the layers, and of which two are the same. -/
def unevenRates : Bitrates :=
  #v[#v[100, 0, 200, 0], #v[200, 150, 300, 0], #v[0, 0, 0, 0]]

/-- A stream that is allocated, goes a step up and down again. -/
def upAndDown : List Command :=
  [.setAvailable [0, 1], .allocate 250 unevenRates, .forward (smallPacket 100 true) 1,
    .allocateNextHigher unevenRates, .tryAllocate (-120) unevenRates]

theorem deltas_upAndDown :
    ((forCodec h264Codec .video).answers upAndDown).map Allocation.delta = [150, 150, -150] := rfl

theorem allocations_booked_upAndDown :
    let f := forCodec h264Codec .video
    f.kind = .video ∧ (∀ brs, Command.finalize brs ∉ upAndDown) ∧ IsBandwidth f.requested ∧
      (∀ c ∈ upAndDown, c.Measures) ∧
      (f.answers upAndDown).map Allocation.delta = [150, 150, -150] ∧
      ((f.answers upAndDown).map Allocation.delta).sum =
        (f.performAll upAndDown).requested - f.requested ∧
      ∀ a ∈ f.answers upAndDown, -unlimited ≤ a.delta ∧ a.delta ≤ unlimited := by
  intro f
  have plain : ∀ brs, Command.finalize brs ∉ upAndDown := by
    intro brs h
    simp only [upAndDown, List.mem_cons, reduceCtorEq, List.not_mem_nil, or_self] at h
  have rates : unevenRates.AreBandwidths := by
    unfold Bitrates.AreBandwidths IsBandwidth
    decide
  have measures : ∀ c ∈ upAndDown, c.Measures := by
    intro c hc brs hr
    simp only [upAndDown, List.mem_cons, List.not_mem_nil, or_false] at hc
    rcases hc with rfl | rfl | rfl | rfl | rfl <;> cases hr <;> exact rates
  obtain ⟨sum, size⟩ := (allocations_booked f rfl).2.2.2 upAndDown
  exact ⟨rfl, plain, isBandwidth_zero, measures, deltas_upAndDown, sum plain,
    size isBandwidth_zero measures⟩

end Forwarder
end Simulcast
