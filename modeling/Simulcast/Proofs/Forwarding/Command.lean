import Simulcast.Proofs.Forwarding.Allocation

/-!
# Runs of a forwarder

All that can be asked of a forwarder, as one type, and the runs of it. What a command
does to the gate of a video forwarder is told once, by `gate_perform`: the gate moves by
an allocation, by a packet, by the wishes of the subscriber, or not at all. What holds of
every run follows by `performAll_induction`.
-/

namespace Simulcast.Forwarder

/-- What a forwarder may be asked to do. -/
inductive Command where
  | mute (on : Bool)
  | boundSpatial (layer : Int)
  | boundTemporal (layer : Int)
  | setAvailable (layers : List Int)
  | allocate (capacity : Int) (brs : Bitrates)
  | tryAllocate (extra : Int) (brs : Bitrates)
  | finalize (brs : Bitrates)
  | allocateNextHigher (brs : Bitrates)
  | forward (a : Arrival) (layer : Int)
  | padding (count : Nat)
  | blankFrames
  | blankDescriptor (endsFrame : Bool)

/-- Whether an allocator is at work. -/
def Command.allocates : Command → Bool
  | allocate _ _ | tryAllocate _ _ | finalize _ | allocateNextHigher _ => true
  | _ => false

/-- A forwarder after a command. -/
def perform (f : Forwarder) : Command → Forwarder
  | .mute on => (f.mute on).1
  | .boundSpatial layer => (f.boundSpatial layer).1
  | .boundTemporal layer => (f.boundTemporal layer).1
  | .setAvailable layers => f.setAvailable layers
  | .allocate capacity brs => (f.allocate capacity brs).1
  | .tryAllocate extra brs => (f.tryAllocate extra brs).1
  | .finalize brs => f.finalize brs
  | .allocateNextHigher brs => (f.allocateNextHigher brs).1
  | .forward a layer => (f.forward a layer).1
  | .padding count => (f.padding count).1
  | .blankFrames => f.blankFrames.1
  | .blankDescriptor endsFrame => (f.blankDescriptor endsFrame).1

/-- A forwarder after some commands. -/
def performAll (f : Forwarder) (cs : List Command) : Forwarder := cs.foldl perform f

/-- A run of a new forwarder. -/
def run (codec : Codec) (kind : MediaKind) (cs : List Command) : Forwarder :=
  (forCodec codec kind).performAll cs

/-- The packet is sent on. -/
def Forwards (f : Forwarder) (a : Arrival) (layer : Int) : Prop :=
  ∃ d, (f.forward a layer).2 = .ok d ∧ d.drop = false ∧ d.place.isSome = true

/-- The publisher is to be asked for a key frame at the packet. -/
def AsksKeyFrame (f : Forwarder) (a : Arrival) (layer : Int) : Prop :=
  ∃ d, (f.forward a layer).2 = .ok d ∧ d.askKeyFrame = true

@[simp] theorem performAll_cons (f : Forwarder) (c : Command) (cs : List Command) :
    f.performAll (c :: cs) = (f.perform c).performAll cs := rfl

theorem performAll_append (f : Forwarder) (cs ds : List Command) :
    f.performAll (cs ++ ds) = (f.performAll cs).performAll ds := List.foldl_append

/-- Each command of a run has the property, in the state in which it finds the
forwarder. -/
def Throughout (P : Forwarder → Command → Prop) (f : Forwarder) : List Command → Prop
  | [] => True
  | c :: cs => P f c ∧ Throughout P (f.perform c) cs

/-- What every command keeps holds after every run. -/
theorem performAll_induction {P : Forwarder → Prop} (step : ∀ f c, P f → P (f.perform c))
    {f : Forwarder} (start : P f) (cs : List Command) : P (f.performAll cs) := by
  induction cs generalizing f with
  | nil => exact start
  | cons c cs ih => exact ih (step f c start)

/-! ## Commands at the gate -/

/-- What a command makes of a gate. -/
inductive Moves (g : Gate) : Command → Gate → Prop where
  | kept (c : Command) : Moves g c g
  | muted (on : Bool) : Moves g (.mute on) { g with muted := on }
  | bounded (c : Command) (bound : Layers) (hc : c.allocates = false)
      (h : 0 ≤ bound.spatial ∨ bound.spatial = g.bound.spatial) : Moves g c { g with bound }
  | taken (a : Arrival) (layer : Int) : Moves g (.forward a layer) (g.take a.keyFrame layer)
  | allocated (c : Command) (g' : Gate) (hc : c.allocates = true) (h : g.Allocated g') :
      Moves g c g'

variable {f : Forwarder} {c : Command}

theorem clampLayer_nonneg {layer top : Int} (h : 0 ≤ top) : 0 ≤ clampLayer layer top := by
  unfold clampLayer
  omega

theorem gate_perform (hv : f.kind = .video) (c : Command) :
    Moves f.gate c (f.perform c).gate := by
  cases c with
  | mute on => exact .muted on
  | boundSpatial layer =>
    simp only [perform, boundSpatial]
    split
    · exact .kept _
    · exact .bounded _ _ rfl (.inl (clampLayer_nonneg (by decide)))
  | boundTemporal layer =>
    simp only [perform, boundTemporal]
    split
    · exact .kept _
    · exact .bounded _ _ rfl (.inr rfl)
  | setAvailable => exact .kept _
  | allocate => exact .allocated _ _ rfl allocate_allocated
  | tryAllocate => exact .allocated _ _ rfl tryAllocate_allocated
  | finalize => exact .allocated _ _ rfl finalize_allocated
  | allocateNextHigher => exact .allocated _ _ rfl allocateNextHigher_allocated
  | forward a layer =>
    rw [perform, gate_forward hv]
    exact .taken a layer
  | padding => exact .kept _
  | blankFrames => exact .kept _
  | blankDescriptor =>
    simp only [perform, blankDescriptor]
    split <;> exact .kept _

theorem Moves.kind {g g' : Gate} (h : Moves g c g') : g'.kind = g.kind := by
  cases h with
  | kept => rfl
  | muted => rfl
  | bounded => rfl
  | taken => exact Gate.take_kind
  | allocated _ _ hc h => exact h.kind

/-- What is sent changes by an allocation that clears it, or by a key frame of the layer
that is aimed for. -/
theorem Moves.sent {g g' : Gate} (h : Moves g c g') (hs : g'.sent ≠ g.sent) :
    c.allocates = true ∧ g'.sent = -1 ∨
      ∃ a layer, c = .forward a layer ∧ g.Awaits layer ∧ a.keyFrame = true ∧ g'.sent = layer := by
  cases h with
  | kept => exact absurd rfl hs
  | muted => exact absurd rfl hs
  | bounded => exact absurd rfl hs
  | taken a layer => exact .inr ⟨a, layer, rfl, Gate.awaits_of_take_sent_ne hs⟩
  | allocated _ _ hc h => exact .inl ⟨hc, h.sent.resolve_left hs⟩

/-- The wishes and the target of a video forwarder at any time. -/
structure Sound (g : Gate) : Prop where
  kind : g.kind = .video
  bound : 0 ≤ g.bound.spatial
  target : Gate.Choice g.target

theorem Sound.move {g g' : Gate} (hg : Sound g) (h : Moves g c g') : Sound g' := by
  refine ⟨h.kind.trans hg.kind, ?_, ?_⟩
  · cases h with
    | kept => exact hg.bound
    | muted => exact hg.bound
    | bounded _ bound _ h =>
      rcases h with h | h
      · exact h
      · exact h ▸ hg.bound
    | taken =>
      rw [Gate.take_bound]
      exact hg.bound
    | allocated _ _ _ h =>
      rw [h.bound]
      exact hg.bound
  · cases h with
    | kept => exact hg.target
    | muted => exact hg.target
    | bounded => exact hg.target
    | taken =>
      rw [Gate.take_target]
      exact hg.target
    | allocated _ _ _ h => exact h.choice hg.target

theorem sound_run (codec : Codec) (cs : List Command) : Sound (run codec .video cs).gate := by
  have start : Sound (forCodec codec .video).gate := ⟨rfl, Int.natCast_nonneg 2, .inl rfl⟩
  exact performAll_induction (P := fun f => Sound f.gate)
    (fun _ c h => h.move (gate_perform h.kind c)) start cs

end Simulcast.Forwarder
