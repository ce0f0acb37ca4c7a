import Simulcast.Proofs.Forwarding.Command

/-!
# The key frame gate

In every run of a video forwarder, the layer that is sent changes only when an
allocation clears it or when a key frame of the layer aimed for comes in; only the
layer that is sent is forwarded; and a key frame is asked for at most once until the
target changes or its layer is locked in. `keyFrame_gate` states the three together.

The first two are told by one step of the gate (`Moves.sent`, `passes_of_forwards`). For
the third, the gate keeps in mind that a key frame of the target has been asked for
(`Awaiting`), as long as no command turns it (`turns_or_awaiting`).
-/

namespace Simulcast.Forwarder

/-- The command changes the target, or it is a packet that locks the gate to another
layer. -/
def Turns (f : Forwarder) (c : Command) : Prop :=
  (f.perform c).target ≠ f.target ∨
    ∃ a layer, c = .forward a layer ∧ (f.perform c).current.spatial ≠ f.current.spatial

/-- A key frame of the layer that is aimed for has been asked. -/
def Awaiting (f : Forwarder) : Prop := f.keyFrameAsked = some f.target.spatial

variable {f : Forwarder} {a : Arrival} {layer : Int}

/-! ## What is forwarded -/

theorem passes_of_forwards (hv : f.kind = .video) (h : f.Forwards a layer) :
    (f.gate.take a.keyFrame layer).Passes layer := by
  obtain ⟨d, hd, hkept, -⟩ := h
  refine of_not_not fun hs => ?_
  rw [forward_shut hv hd hs] at hkept
  cases hkept

/-- A gate that passes a layer of the grid aims at the grid. -/
theorem isValid_of_passes {g : Gate} (hg : Sound g) (h : g.Passes layer) (hl : 0 ≤ layer) :
    g.target.isValid = true := by
  obtain ⟨⟨-, ht⟩, rfl, hdown⟩ := h
  have spatial : 0 ≤ g.target.spatial := by
    have := hg.bound
    have : ¬(g.target.spatial < g.sent ∧ g.target.spatial < g.bound.spatial) := hdown
    omega
  have temporal : 0 ≤ g.target.temporal := hg.target.resolve_left ht
  simp only [Layers.isValid, spatial, temporal, decide_true, Bool.and_self]

/-! ## What is asked for -/

/-- A key frame that is asked for is one of the layer aimed for, and from then on the
forwarder is awaiting it. -/
theorem asks_of_asksKeyFrame (hv : f.kind = .video) (h : f.AsksKeyFrame a layer) :
    f.gate.Asks a.keyFrame layer := by
  obtain ⟨d, hd, hask⟩ := h
  exact (forward_asks hv hd).1 hask

theorem awaiting_of_asksKeyFrame (hv : f.kind = .video) (h : f.AsksKeyFrame a layer) :
    (f.forward a layer).1.Awaiting := by
  obtain ⟨hw, hk, -⟩ := asks_of_asksKeyFrame hv h
  have sent : (f.gate.take a.keyFrame layer).sent = f.gate.sent := by
    rw [Gate.take_sent, if_neg fun h => Bool.false_ne_true (hk.symm.trans h.2)]
  have awaiting : (f.gate.take a.keyFrame layer).keyFrameAsked =
      some (f.gate.take a.keyFrame layer).target.spatial := by
    rw [Gate.take_keyFrameAsked hw sent, Gate.take_target, hw.2.2]
  rw [← gate_forward hv] at awaiting
  exact awaiting

/-- A forwarder that awaits a key frame does not ask for one again. -/
theorem Awaiting.not_asks (hv : f.kind = .video) (h : f.Awaiting) : ¬f.AsksKeyFrame a layer := by
  intro hask
  obtain ⟨⟨-, -, ht⟩, -, hne⟩ := asks_of_asksKeyFrame hv hask
  subst ht
  exact hne h

/-- The key frame stays awaited unless the command turns the gate. -/
theorem Awaiting.perform (hv : f.kind = .video) (h : f.Awaiting) (c : Command)
    (ht : ¬f.Turns c) : (f.perform c).Awaiting := by
  have kept : (f.perform c).target = f.target := of_not_not fun hne => ht (.inl hne)
  have locked : ∀ a layer, c = .forward a layer → (f.perform c).current.spatial = f.current.spatial :=
    fun a layer hc => of_not_not fun hne => ht (.inr ⟨a, layer, hc, hne⟩)
  have move := gate_perform hv c
  suffices asked : (f.perform c).keyFrameAsked = f.keyFrameAsked by
    rw [Awaiting, asked, kept]
    exact h
  change (f.perform c).gate.keyFrameAsked = f.gate.keyFrameAsked
  generalize hg : (f.perform c).gate = g' at move
  cases move with
  | kept => rfl
  | muted => rfl
  | bounded => rfl
  | taken a layer =>
    have sent : (f.gate.take a.keyFrame layer).sent = f.gate.sent := by
      rw [← hg]
      exact locked a layer rfl
    by_cases hw : f.gate.Awaits layer
    · rw [Gate.take_keyFrameAsked hw sent, ← hw.2.2]
      exact h.symm
    · rw [Gate.take, if_neg hw]
  | allocated _ _ _ hall =>
    refine hall.keyFrameAsked ?_
    rw [← hg]
    exact kept

/-- Over a run, the key frame stays awaited, or some command turns the gate. -/
theorem turns_or_awaiting (cs : List Command) (hv : f.kind = .video) (h : f.Awaiting) :
    (∃ before c after, cs = before ++ c :: after ∧ (f.performAll before).Turns c) ∨
      (f.performAll cs).kind = .video ∧ (f.performAll cs).Awaiting := by
  induction cs generalizing f with
  | nil => exact .inr ⟨hv, h⟩
  | cons c cs ih =>
    by_cases ht : f.Turns c
    · exact .inl ⟨[], c, cs, rfl, ht⟩
    · have kind : (f.perform c).kind = .video := (gate_perform hv c).kind.trans hv
      rcases ih kind (h.perform hv c ht) with ⟨before, c', after, rfl, ht'⟩ | h'
      · exact .inl ⟨c :: before, c', after, rfl, ht'⟩
      · exact .inr h'

/-- In every run of a video forwarder:

* the spatial layer that is sent changes only to none, by an allocation, or to the one
  aimed for, by a key frame that comes in on it while the forwarder is not muted;
* a packet is forwarded only by a forwarder that is not muted and has a target, which
  lies in the grid if the packet's layer does; the layer is the one that is sent then,
  and it is not given up for a lower one;
* a key frame is asked for only at a packet of the layer aimed for that does not start
  one, while another layer is sent;
* between two packets at which a key frame is asked for, the gate is turned. -/
theorem keyFrame_gate (codec : Codec) (cs : List Command) :
    let f := run codec .video cs
    (∀ c, (f.perform c).current.spatial ≠ f.current.spatial →
      c.allocates = true ∧ (f.perform c).current.spatial = -1 ∨
      ∃ a, c = .forward a f.target.spatial ∧ f.muted = false ∧ a.keyFrame = true ∧
        (f.perform c).target = f.target ∧ (f.perform c).current.spatial = f.target.spatial) ∧
    (∀ a layer, f.Forwards a layer →
      let g := (f.forward a layer).1
      g.muted = false ∧ g.target ≠ .none ∧ (0 ≤ layer → g.target.isValid = true) ∧
        g.current.spatial = layer ∧
        ¬(g.target.spatial < g.current.spatial ∧ g.target.spatial < g.bound.spatial)) ∧
    (∀ a layer, f.AsksKeyFrame a layer →
      f.muted = false ∧ f.target ≠ .none ∧ layer = f.target.spatial ∧
        f.current.spatial ≠ f.target.spatial ∧ a.keyFrame = false) ∧
    ∀ a layer between a' layer', f.AsksKeyFrame a layer →
      let g := (f.forward a layer).1
      (g.performAll between).AsksKeyFrame a' layer' →
      ∃ before c after, between = before ++ c :: after ∧ (g.performAll before).Turns c := by
  intro f
  have sound : Sound f.gate := sound_run codec cs
  have hv : f.kind = .video := sound.kind
  refine ⟨fun c hne => ?_, fun a layer hfw => ?_, fun a layer hask => ?_, ?_⟩
  · rcases (gate_perform hv c).sent hne with ⟨hc, hs⟩ | ⟨a, layer, rfl, ⟨hl, -, ht⟩, hk, hs⟩
    · exact .inl ⟨hc, hs⟩
    · subst ht
      have target : (f.forward a f.gate.target.spatial).1.gate.target = f.gate.target := by
        rw [gate_forward hv, Gate.take_target]
      exact .inr ⟨a, rfl, hl.1, hk, target, hs⟩
  · have passes := passes_of_forwards hv hfw
    rw [← gate_forward hv] at passes
    have sound' : Sound (f.forward a layer).1.gate :=
      sound.move (gate_perform hv (.forward a layer))
    exact ⟨passes.1.1, passes.1.2, isValid_of_passes sound' passes, passes.2.1, passes.2.2⟩
  · obtain ⟨⟨hl, hne, ht⟩, hk, -⟩ := asks_of_asksKeyFrame hv hask
    exact ⟨hl.1, hl.2, ht.symm, hne.symm, hk⟩
  · intro a layer between a' layer' hask g hask'
    have kind : g.kind = .video := (gate_perform hv (.forward a layer)).kind.trans hv
    rcases turns_or_awaiting between kind (awaiting_of_asksKeyFrame hv hask) with h | ⟨hv', h⟩
    · exact h
    · exact absurd hask' (h.not_asks hv')

end Simulcast.Forwarder
