import Simulcast.Proofs.Forwarding.Command
import Simulcast.Proofs.Forwarding.Behind

/-!
# Packets that are admitted

A packet is admitted if the forwarder is not muted and, for video, the gate passes its
layer. What stands behind the gate (`Behind`) is the business of such packets and of the
packets of the relay's own:

* `behind_perform`: the other commands do not touch it;
* `forward_of_not_admits`: nor does a packet that is not admitted, which is left out;
* `forward_video`, `forward_plain`: what an admitted packet does. For a stream without
  pictures, its place in the numbering says it all.
-/

namespace Simulcast

/-- What stands behind the gate of a forwarder. -/
structure Behind where
  kind : MediaKind
  codec : Codec
  started : Bool
  lastSsrc : UInt32
  lastArrival : Option Time
  numbering : Numbering
  pictures : Option Vp8.PictureNumbering

namespace Forwarder

/-- What stands behind the gate. -/
def behind (f : Forwarder) : Behind :=
  { kind := f.kind, codec := f.codec, started := f.started, lastSsrc := f.lastSsrc
    lastArrival := f.lastArrival, numbering := f.numbering, pictures := f.pictures }

variable {f g : Forwarder} {a : Arrival} {layer : Int}

/-! ## What allocation leaves alone -/

@[simp] theorem behind_commit (f : Forwarder) (a : Allocation) :
    (f.commit a).1.behind = f.behind := rfl

@[simp] theorem behind_aimFor (f : Forwarder) (target : Layers) :
    (f.aimFor target).behind = f.behind := by
  unfold aimFor
  split <;> rfl

@[simp] theorem behind_pause (f : Forwarder) : f.pause.behind = f.behind :=
  behind_aimFor _ _

@[simp] theorem behind_noteChange (f : Forwarder) (target : Layers) :
    (f.noteChange target).behind = f.behind := by
  unfold noteChange
  split
  · rfl
  · split <;> rfl

@[simp] theorem behind_settle (f : Forwarder) (brs : Bitrates) (optimal : Int)
    (found : Option Layers) (canPause : Bool) :
    (f.settle brs optimal found canPause).1.behind = f.behind := by
  unfold settle
  dsimp only
  split
  · rfl
  · exact (behind_aimFor _ _).trans (behind_noteChange f _)

@[simp] theorem behind_settleUnmeasured (f : Forwarder) (capacity : Int) (canPause : Bool)
    (highest : Int) : (f.settleUnmeasured capacity canPause highest).1.behind = f.behind := by
  unfold settleUnmeasured
  split
  · dsimp only
    rw [behind_commit, behind_aimFor]
    split <;> rfl
  · split
    · rfl
    · split
      · exact behind_pause _
      · rfl

@[simp] theorem behind_allocateWithin (f : Forwarder) (capacity : Int) (canPause : Bool)
    (brs : Bitrates) : (f.allocateWithin capacity canPause brs).1.behind = f.behind := by
  unfold allocateWithin
  dsimp only
  split
  · rfl
  · split
    · rfl
    · split
      · exact behind_settle f _ _ _ _
      · split
        · rfl
        · exact behind_settleUnmeasured f _ _ _

@[simp] theorem behind_finalize (f : Forwarder) (brs : Bitrates) :
    (f.finalize brs).behind = f.behind := by
  unfold finalize
  dsimp only
  split
  · rfl
  · split
    · split <;> rfl
    · exact behind_settle f _ _ _ _

@[simp] theorem behind_allocateNextHigher (f : Forwarder) (brs : Bitrates) :
    (f.allocateNextHigher brs).1.behind = f.behind := by
  unfold allocateNextHigher
  dsimp only
  split
  · rfl
  · split
    · rfl
    · split
      · rfl
      · split
        · exact behind_settle f _ _ _ _
        · exact (behind_settle _ _ _ _ _).trans (behind_settle f _ _ _ _)

/-- Neither a packet of the source nor one of the relay's own. -/
def Command.isQuiet : Command → Bool
  | .forward _ _ | .padding _ | .blankFrames | .blankDescriptor _ => false
  | _ => true

/-- A command that is about no packet changes nothing behind the gate. -/
theorem behind_perform {c : Command} (h : c.isQuiet = true) :
    (f.perform c).behind = f.behind := by
  cases c with
  | mute => rfl
  | boundSpatial layer =>
    simp only [perform, boundSpatial]
    split <;> rfl
  | boundTemporal layer =>
    simp only [perform, boundTemporal]
    split <;> rfl
  | setAvailable => rfl
  | allocate capacity brs => exact behind_allocateWithin f _ _ _
  | tryAllocate extra brs => exact behind_allocateWithin f _ _ _
  | finalize brs => exact behind_finalize f brs
  | allocateNextHigher brs => exact behind_allocateNextHigher f brs
  | forward | padding | blankFrames | blankDescriptor => cases h

theorem behind_approachTarget (f : Forwarder) (a : Arrival) (layer : Int) :
    (f.approachTarget a layer).1.behind = f.behind := by
  unfold approachTarget
  split
  · split
    · rfl
    · split <;> rfl
  · rfl

theorem behind_takeSource (f : Forwarder) (a : Arrival) (ticks : UInt32) :
    (f.takeSource a ticks).behind =
      { f.behind with
        started := f.started || f.lastSsrc != a.ssrc
        lastSsrc := a.ssrc
        numbering := (f.takeSource a ticks).numbering } := by
  unfold takeSource
  split
  · rename_i hs
    simp only [hs, bne_self_eq_false, Bool.or_false]
    rw [← hs]
    rfl
  · rename_i hs
    simp only [bne_iff_ne.2 hs, Bool.or_true]
    rfl

/-! ## Admission -/

/-- The packet gets past the mute switch and the gate. Audio has no gate. -/
def Admits (f : Forwarder) (a : Arrival) (layer : Int) : Prop :=
  f.muted = false ∧ (f.kind = .video → (f.gate.take a.keyFrame layer).Passes layer)

instance (g : Gate) (layer : Int) : Decidable (g.Passes layer) := by
  unfold Gate.Passes Gate.Live Gate.SwitchesDown
  infer_instance

instance (f : Forwarder) (a : Arrival) (layer : Int) : Decidable (f.Admits a layer) := by
  unfold Admits
  infer_instance

/-- The place that a packet is sent on with, if it is. -/
def sentAt (f : Forwarder) (a : Arrival) (layer : Int) : Option Place :=
  match (f.forward a layer).2 with
  | .ok d => if d.drop then none else d.place.map Placement.toPlace
  | .error _ => none

/-- The ticks by which the source of a packet goes on, if it is a new one. -/
def ticksFor (f : Forwarder) (a : Arrival) : UInt32 :=
  match f.kind with
  | .audio => 1
  | .video => f.ticksSince a

/-- The numbering that an admitted packet meets, with its source taken up. -/
def numberingFor (f : Forwarder) (a : Arrival) : Numbering :=
  (f.takeSource a (f.ticksFor a)).numbering

/-- A packet that is not admitted is left out, and changes nothing behind the gate. -/
theorem forward_of_not_admits (h : ¬f.Admits a layer) :
    (f.forward a layer).1.behind = f.behind ∧
      ∃ d, (f.forward a layer).2 = .ok d ∧ d.drop = true := by
  by_cases hm : f.muted = true
  · rw [forward, if_pos hm]
    exact ⟨rfl, _, rfl, rfl⟩
  · have unmuted : f.muted = false := Bool.eq_false_iff.2 hm
    have hv : f.kind = .video ∧ ¬(f.gate.take a.keyFrame layer).Passes layer := by
      refine ⟨?_, fun hp => h ⟨unmuted, fun _ => hp⟩⟩
      cases hk : f.kind with
      | video => rfl
      | audio => exact absurd ⟨unmuted, fun hv => by rw [hk] at hv; cases hv⟩ h
    obtain ⟨hv, shut⟩ := hv
    by_cases hl : f.gate.Live
    · have live : (f.approachTarget a layer).1.gate.Live := by
        rw [(approachTarget_eq hl).1, Gate.Live, Gate.take_muted, Gate.take_target]
        exact hl
      rw [← (approachTarget_eq hl).1, ← passes_iff live] at shut
      rw [forward_of_live hv hl]
      dsimp only
      rw [if_neg shut]
      exact ⟨behind_approachTarget f a layer, _, rfl, rfl⟩
    · rw [forward_of_not_live hv hl]
      exact ⟨rfl, _, rfl, rfl⟩

theorem forward_audio (hk : f.kind = .audio) (h : f.Admits a layer) :
    f.forward a layer = f.forwardAudio a := by
  simp only [forward, h.1, Bool.false_eq_true, if_false, hk]

theorem numberingFor_congr (h : g.behind = f.behind) : g.numberingFor a = f.numberingFor a := by
  obtain ⟨kind, codec, started, ssrc, arrival, numbering, -⟩ := Behind.mk.inj h
  simp only [numberingFor, takeSource, ticksFor, ticksSince, kind, codec, started, ssrc, arrival,
    numbering, apply_ite Forwarder.numbering]

/-- An admitted packet of a video stream gets its place in the numbering that it meets. -/
theorem forward_video (hk : f.kind = .video) (h : f.Admits a layer) :
    ∃ (g : Forwarder) (askKeyFrame : Bool),
      f.forward a layer = g.placePacket a { askKeyFrame } ∧ g.behind = f.behind ∧
        (g.takeUp a).numbering = f.numberingFor a := by
  have open' := h.2 hk
  have hl : f.gate.Live := by
    have live := open'.1
    rw [Gate.Live, Gate.take_muted, Gate.take_target] at live
    exact live
  rw [← (approachTarget_eq hl).1] at open'
  have same := behind_approachTarget f a layer
  have kind : (f.approachTarget a layer).1.kind = .video := (congrArg Behind.kind same).trans hk
  refine ⟨(f.approachTarget a layer).1, (f.approachTarget a layer).2, ?_, same, ?_⟩
  · rw [forward_of_live hk hl]
    exact if_pos ((passes_iff open'.1).2 open')
  · rw [← numberingFor_congr same, numbering_takeUp, numberingFor, ticksFor, kind]

/-! ## Streams without pictures -/

/-- No pictures are numbered: the codec has none, or it is audio. -/
def IsPlain (f : Forwarder) : Prop := f.kind = .audio ∨ f.pictures = none

/-- What the decision is for a packet that got this place, or none. -/
def decisionFor (askKeyFrame : Bool) : Except Fault Placement → Except Fault Decision
  | .ok p => .ok { askKeyFrame, place := some p }
  | .error e => leaveOutOr { askKeyFrame } e

theorem behind_takeUp (h : f.pictures = none) :
    (f.takeUp a).behind =
      { f.behind with
        started := f.started || f.lastSsrc != a.ssrc
        lastSsrc := a.ssrc
        lastArrival := some a.time
        numbering := (f.takeUp a).numbering } := by
  have still : f.takePictures a = f := by
    unfold takePictures
    split
    · rfl
    · rw [h]
      cases f
      cases h
      rfl
  unfold takeUp
  rw [still]
  exact congrArg (fun b : Behind => { b with lastArrival := some a.time }) (behind_takeSource f a _)

theorem placePacket_plain {n : Numbering} {p : Placement} {d : Decision}
    (h : (f.takeUp a).numbering.place a = (n, .ok p)) (hp : (f.takeUp a).pictures = none) :
    f.placePacket a d =
      ({ f.takeUp a with numbering := n }.takeTemporal, .ok { d with place := some p }) := by
  unfold placePacket
  unfold takeUp at h hp ⊢
  dsimp only at h hp ⊢
  rw [h, hp]

theorem forward_plain_audio (hk : f.kind = .audio) (h : f.Admits a layer) :
    (f.forward a layer).2 = decisionFor false ((f.numberingFor a).place a).2 ∧
      (f.forward a layer).1.behind =
        { f.behind with
          started := f.started || f.lastSsrc != a.ssrc
          lastSsrc := a.ssrc
          numbering := ((f.numberingFor a).place a).1 } := by
  have met : f.numberingFor a = (f.takeSource a 1).numbering := by
    simp only [numberingFor, ticksFor, hk]
  rw [forward_audio hk h, met]
  refine ⟨?_, congrArg (fun b : Behind => { b with
    numbering := ((f.takeSource a 1).numbering.place a).1 }) (behind_takeSource f a 1)⟩
  unfold forwardAudio
  dsimp only
  cases ((f.takeSource a 1).numbering.place a).2 <;> rfl

theorem forward_plain_video (hk : f.kind = .video) (hp : f.pictures = none)
    (h : f.Admits a layer) :
    (∃ askKeyFrame,
        (f.forward a layer).2 = decisionFor askKeyFrame ((f.numberingFor a).place a).2) ∧
      (f.forward a layer).1.behind =
        { f.behind with
          started := f.started || f.lastSsrc != a.ssrc
          lastSsrc := a.ssrc
          lastArrival := some a.time
          numbering := ((f.numberingFor a).place a).1 } := by
  obtain ⟨g, askKeyFrame, hg, same, met⟩ := forward_video hk h
  have unpictured : g.pictures = none := (congrArg Behind.pictures same).trans hp
  have taken : (g.takeUp a).behind =
      { f.behind with
        started := f.started || f.lastSsrc != a.ssrc
        lastSsrc := a.ssrc
        lastArrival := some a.time
        numbering := (g.takeUp a).numbering } := by
    rw [← same, ← show g.started = f.started from congrArg Behind.started same,
      ← show g.lastSsrc = f.lastSsrc from congrArg Behind.lastSsrc same]
    exact behind_takeUp unpictured
  have pictures : (g.takeUp a).pictures = none := (congrArg Behind.pictures taken).trans hp
  have renumbered := congrArg (fun b : Behind => { b with
    numbering := ((g.takeUp a).numbering.place a).1 }) taken
  rw [hg, ← met]
  cases hr : ((g.takeUp a).numbering.place a).2 with
  | error e =>
    rw [placePacket_of_error (Prod.ext rfl hr)]
    exact ⟨⟨askKeyFrame, rfl⟩, renumbered⟩
  | ok p =>
    rw [placePacket_plain (Prod.ext rfl hr) pictures]
    exact ⟨⟨askKeyFrame, rfl⟩, renumbered⟩

/-- What an admitted packet does to a stream without pictures. -/
theorem forward_plain (hp : f.IsPlain) (h : f.Admits a layer) :
    (∃ askKeyFrame,
        (f.forward a layer).2 = decisionFor askKeyFrame ((f.numberingFor a).place a).2) ∧
      (f.forward a layer).1.behind =
        { f.behind with
          started := f.started || f.lastSsrc != a.ssrc
          lastSsrc := a.ssrc
          lastArrival := match f.kind with
            | .audio => f.lastArrival
            | .video => some a.time
          numbering := ((f.numberingFor a).place a).1 } := by
  cases hk : f.kind with
  | audio =>
    obtain ⟨result, behind⟩ := forward_plain_audio hk h
    exact ⟨⟨false, result⟩, behind⟩
  | video =>
    have unpictured : f.pictures = none := hp.resolve_left fun h => by rw [hk] at h; cases h
    exact forward_plain_video hk unpictured h

end Forwarder
end Simulcast
