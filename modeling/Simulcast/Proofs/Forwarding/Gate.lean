import Simulcast.Forwarding.Decision
import Mathlib.Logic.Basic

/-!
# The gate of a forwarder

Which packets pass a video forwarder is decided by a few of its fields: whether it is
muted, the layers that are wanted, aimed for and sent, and the layer for which a key
frame has been asked. They are its `Gate`, and a packet moves the gate by `Gate.take`,
whatever becomes of the packet behind it:

* `gate_forward`: the gate after a packet;
* `forward_shut`: a packet is left out unless the gate passes its layer then;
* `forward_asks`: when a key frame is asked for.
-/

namespace Simulcast

/-- What decides which packets pass a forwarder. -/
structure Gate where
  kind : MediaKind
  muted : Bool
  bound : Layers
  target : Layers
  /-- The spatial layer that is sent. -/
  sent : Int
  keyFrameAsked : Option Int

namespace Gate

/-- Neither muted nor without a target. -/
def Live (g : Gate) : Prop := g.muted = false ∧ g.target ≠ .none

/-- The layer is aimed for, but not sent yet. -/
def Awaits (g : Gate) (layer : Int) : Prop :=
  g.Live ∧ g.target.spatial ≠ g.sent ∧ g.target.spatial = layer

instance (g : Gate) (layer : Int) : Decidable (g.Awaits layer) := by
  unfold Awaits Live
  infer_instance

/-- The target is a lower layer than the one that is sent, to save bandwidth. -/
def SwitchesDown (g : Gate) : Prop :=
  g.target.spatial < g.sent ∧ g.target.spatial < g.bound.spatial

/-- Packets of the layer pass. -/
def Passes (g : Gate) (layer : Int) : Prop := g.Live ∧ g.sent = layer ∧ ¬g.SwitchesDown

/-- A key frame is asked for at a packet of the layer. -/
def Asks (g : Gate) (keyFrame : Bool) (layer : Int) : Prop :=
  g.Awaits layer ∧ keyFrame = false ∧ g.keyFrameAsked ≠ some layer

/-- The gate after a packet: one that starts a key frame of the awaited layer opens it
for that layer, and any other one of that layer is the reason to ask for a key frame. -/
def take (g : Gate) (keyFrame : Bool) (layer : Int) : Gate :=
  if g.Awaits layer then
    if keyFrame then { g with sent := layer, keyFrameAsked := none }
    else { g with keyFrameAsked := some layer }
  else g

/-- The gate with another target. -/
def aim (g : Gate) (target : Layers) : Gate :=
  if g.target = target then g else { g with target, keyFrameAsked := none }

variable {g : Gate} {keyFrame : Bool} {layer : Int} {target : Layers}

/-! ## A packet at the gate -/

@[simp] theorem take_kind : (g.take keyFrame layer).kind = g.kind := by
  simp only [take, apply_ite kind, ite_self]

@[simp] theorem take_muted : (g.take keyFrame layer).muted = g.muted := by
  simp only [take, apply_ite muted, ite_self]

@[simp] theorem take_bound : (g.take keyFrame layer).bound = g.bound := by
  simp only [take, apply_ite bound, ite_self]

@[simp] theorem take_target : (g.take keyFrame layer).target = g.target := by
  simp only [take, apply_ite Gate.target, ite_self]

theorem take_sent :
    (g.take keyFrame layer).sent = if g.Awaits layer ∧ keyFrame = true then layer else g.sent := by
  simp only [take, apply_ite sent]
  by_cases h : g.Awaits layer
  · simp only [h, if_true, true_and]
  · simp only [h, if_false, false_and]

/-- Only a key frame of the awaited layer changes what is sent. -/
theorem awaits_of_take_sent_ne (h : (g.take keyFrame layer).sent ≠ g.sent) :
    g.Awaits layer ∧ keyFrame = true ∧ (g.take keyFrame layer).sent = layer := by
  rw [take_sent] at h ⊢
  by_cases hk : g.Awaits layer ∧ keyFrame = true
  · rw [if_pos hk]
    exact ⟨hk.1, hk.2, rfl⟩
  · rw [if_neg hk] at h
    exact absurd rfl h

/-- A packet of the awaited layer that does not open the gate has its key frame asked
for. -/
theorem take_keyFrameAsked (hw : g.Awaits layer) (hs : (g.take keyFrame layer).sent = g.sent) :
    (g.take keyFrame layer).keyFrameAsked = some layer := by
  have plain : ¬keyFrame = true := by
    intro hk
    rw [take_sent, if_pos ⟨hw, hk⟩] at hs
    exact hw.2.1 (hw.2.2.trans hs)
  rw [take, if_pos hw, if_neg plain]

/-! ## A new target -/

@[simp] theorem aim_kind : (g.aim target).kind = g.kind := by
  simp only [aim, apply_ite kind, ite_self]

@[simp] theorem aim_bound : (g.aim target).bound = g.bound := by
  simp only [aim, apply_ite bound, ite_self]

@[simp] theorem aim_sent : (g.aim target).sent = g.sent := by
  simp only [aim, apply_ite sent, ite_self]

@[simp] theorem aim_target : (g.aim target).target = target := by
  unfold aim
  split
  · assumption
  · rfl

theorem aim_eq_self (h : (g.aim target).target = g.target) : g.aim target = g :=
  if_pos (h.symm.trans aim_target)

end Gate

namespace Forwarder

/-- What decides which packets pass. -/
def gate (f : Forwarder) : Gate :=
  { kind := f.kind, muted := f.muted, bound := f.bound, target := f.target
    sent := f.current.spatial, keyFrameAsked := f.keyFrameAsked }

variable (f : Forwarder) (a : Arrival) (layer : Int)

/-! ## Behind the gate -/

@[simp] theorem gate_takeSource (ticks : UInt32) : (f.takeSource a ticks).gate = f.gate := by
  unfold takeSource
  split <;> rfl

@[simp] theorem gate_takePictures : (f.takePictures a).gate = f.gate := by
  unfold takePictures
  split <;> rfl

@[simp] theorem gate_describePicture (p : Vp8.PictureNumbering) (place : Placement) (d : Decision) :
    (f.describePicture p a place d).1.gate = f.gate := by
  unfold describePicture
  dsimp only
  split <;> split <;> rfl

@[simp] theorem gate_placePacket (d : Decision) : (f.placePacket a d).1.gate = f.gate := by
  have front : { (f.takePictures a).takeSource a (f.ticksSince a) with
      lastArrival := some a.time }.gate = f.gate :=
    (gate_takeSource _ a _).trans (gate_takePictures f a)
  unfold placePacket
  dsimp only
  split
  · exact front
  · split
    · exact front
    · exact (gate_describePicture _ a _ _ d).trans front

/-- What is behind the gate does not ask for key frames. -/
theorem describePicture_asks {p : Vp8.PictureNumbering} {place : Placement} {d d' : Decision}
    (h : (f.describePicture p a place d).2 = .ok d') : d'.askKeyFrame = d.askKeyFrame := by
  unfold describePicture at h
  dsimp only at h
  split at h <;> cases h <;> rfl

theorem placePacket_asks {d d' : Decision} (h : (f.placePacket a d).2 = .ok d') :
    d'.askKeyFrame = d.askKeyFrame := by
  unfold placePacket at h
  dsimp only at h
  split at h
  · unfold leaveOutOr at h
    split at h <;> cases h
    rfl
  · split at h
    · cases h
      rfl
    · exact describePicture_asks _ a h

/-! ## Packets at the gate -/

variable {f a layer}

/-- A packet that is not awaited changes nothing on its way to the target. -/
theorem approachTarget_of_not_awaits (h : f.gate.Live) (hw : ¬f.gate.Awaits layer) :
    f.approachTarget a layer = (f, false) :=
  if_neg (mt (And.intro h) hw)

theorem approachTarget_eq (h : f.gate.Live) :
    (f.approachTarget a layer).1.gate = f.gate.take a.keyFrame layer ∧
      ((f.approachTarget a layer).2 = true ↔ f.gate.Asks a.keyFrame layer) := by
  have awaits : f.gate.Awaits layer ↔
      f.target.spatial ≠ f.current.spatial ∧ f.target.spatial = layer :=
    and_iff_right h
  by_cases hw : f.target.spatial ≠ f.current.spatial ∧ f.target.spatial = layer
  · rw [approachTarget, if_pos hw, Gate.take, if_pos (awaits.2 hw)]
    cases hk : a.keyFrame with
    | true =>
      obtain ⟨-, rfl⟩ := hw
      exact ⟨rfl, iff_of_false Bool.false_ne_true fun ha => Bool.noConfusion ha.2.1⟩
    | false =>
      rw [if_neg Bool.false_ne_true, if_neg Bool.false_ne_true]
      by_cases ha : f.keyFrameAsked = some layer
      · rw [if_neg (not_not_intro ha)]
        refine ⟨?_, iff_of_false Bool.false_ne_true fun h' => h'.2.2 ha⟩
        rw [← ha]
        rfl
      · rw [if_pos ha]
        exact ⟨rfl, iff_of_true rfl ⟨awaits.2 hw, rfl, ha⟩⟩
  · rw [approachTarget_of_not_awaits h (mt awaits.1 hw), Gate.take, if_neg (mt awaits.1 hw)]
    exact ⟨rfl, iff_of_false Bool.false_ne_true fun ha => hw (awaits.1 ha.1)⟩

theorem passes_iff (h : f.gate.Live) : f.passes layer = true ↔ f.gate.Passes layer := by
  simp only [passes, Bool.and_eq_true, beq_iff_eq, Bool.not_eq_true', Bool.and_eq_false_iff,
    decide_eq_false_iff_not, ← not_and_or]
  exact (and_iff_right h).symm

/-- A gate that is not live leaves every packet out and stays as it is. -/
theorem forward_of_not_live (hv : f.kind = .video) (h : ¬f.gate.Live) :
    f.forward a layer = (f, .ok .leaveOut) := by
  unfold forward
  split
  · rfl
  · rename_i hm
    have ht : f.target = .none :=
      of_not_not fun ht => h ⟨Bool.eq_false_iff.2 hm, ht⟩
    simp only [hv, forwardVideo, ht, if_true]

/-- A live gate lets the packet approach the target, and places it if it then passes. -/
theorem forward_of_live (hv : f.kind = .video) (h : f.gate.Live) :
    f.forward a layer =
      let (g, askKeyFrame) := f.approachTarget a layer
      if g.passes layer then g.placePacket a { askKeyFrame }
      else (g, .ok { drop := true, askKeyFrame }) := by
  unfold forward
  rw [if_neg (by rw [show f.muted = false from h.1]; exact Bool.false_ne_true)]
  simp only [hv, forwardVideo, show f.target ≠ .none from h.2, if_false]

/-- The gate after a packet. -/
theorem gate_forward (hv : f.kind = .video) :
    (f.forward a layer).1.gate = f.gate.take a.keyFrame layer := by
  by_cases h : f.gate.Live
  · rw [forward_of_live hv h, ← (approachTarget_eq h).1]
    dsimp only
    split
    · exact gate_placePacket _ a _
    · rfl
  · rw [forward_of_not_live hv h, Gate.take, if_neg fun hw => h hw.1]

/-- A packet is left out unless the gate then passes its layer. -/
theorem forward_shut (hv : f.kind = .video) {d : Decision} (h : (f.forward a layer).2 = .ok d)
    (hs : ¬(f.gate.take a.keyFrame layer).Passes layer) : d.drop = true := by
  by_cases hl : f.gate.Live
  · rw [forward_of_live hv hl] at h
    have live : (f.gate.take a.keyFrame layer).Live := by
      rw [Gate.Live, Gate.take_muted, Gate.take_target]
      exact hl
    rw [← (approachTarget_eq hl).1] at hs live
    dsimp only at h
    rw [if_neg (mt (passes_iff live).1 hs)] at h
    cases h
    rfl
  · rw [forward_of_not_live hv hl] at h
    cases h
    rfl

/-- When a key frame is asked for. -/
theorem forward_asks (hv : f.kind = .video) {d : Decision} (h : (f.forward a layer).2 = .ok d) :
    d.askKeyFrame = true ↔ f.gate.Asks a.keyFrame layer := by
  by_cases hl : f.gate.Live
  · rw [forward_of_live hv hl] at h
    rw [← (approachTarget_eq hl).2]
    dsimp only at h
    split at h
    · rw [placePacket_asks _ a h]
    · cases h
      rfl
  · rw [forward_of_not_live hv hl] at h
    cases h
    exact iff_of_false Bool.false_ne_true fun ha => hl ha.1.1

end Forwarder
end Simulcast
