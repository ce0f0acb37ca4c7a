import Simulcast.Proofs.Forwarding.KeyFrameGate

/-!
# How a stream goes on after a packet was withheld

A forwarder withholds packets of the layer it sends while allocation has paused the
stream, or while it switches down to a lower layer. If it goes on with that layer by a
packet that starts no key frame, the subscriber gets pictures that depend on withheld
ones.

`resumes_inside_iff` says when the next packet that is forwarded may be such a one: when
the pause or the switch was taken back while the layer was never cleared, or when a key
frame locked the gate but was not forwarded itself. `resumes_inside_pictures` is a run
that does so.
-/

namespace Simulcast.Forwarder

/-- Packets of the layer that is sent are left out, since there is no target or a lower
one. -/
def Withholds (f : Forwarder) (layer : Int) : Prop :=
  f.muted = false ∧ layer = f.current.spatial ∧ (f.target = .none ∨ f.gate.SwitchesDown)

/-- No packet of the run is forwarded. -/
def Silent : Forwarder → List Command → Prop :=
  Throughout fun f c => ∀ a layer, c = .forward a layer → ¬f.Forwards a layer

/-- No command of the run changes the layer that is sent. -/
def KeepsSent : Forwarder → List Command → Prop :=
  Throughout fun f c => (f.perform c).current.spatial = f.current.spatial

/-- A key frame of a layer locks the gate to it during the run, is not forwarded, and no
command behind it changes the layer that is sent. -/
def LocksUnseen (f : Forwarder) (cs : List Command) : Prop :=
  ∃ before a layer after, cs = before ++ .forward a layer :: after ∧ 0 ≤ layer ∧
    let g := f.performAll before
    a.keyFrame = true ∧ g.gate.Awaits layer ∧ ¬g.Forwards a layer ∧
      (g.forward a layer).1.KeepsSent after

/-- Some packet without a key frame would be forwarded now. -/
def GoesOnPlain (f : Forwarder) : Prop :=
  ∃ a layer, 0 ≤ layer ∧ a.keyFrame = false ∧ f.Forwards a layer

variable {f : Forwarder} {a : Arrival} {layer : Int}

/-- A packet that is withheld changes nothing. -/
theorem Withholds.forward (hv : f.kind = .video) (h : f.Withholds layer) :
    f.forward a layer = (f, .ok .leaveOut) := by
  obtain ⟨hm, rfl, ht⟩ := h
  by_cases hl : f.gate.Live
  · have down : f.gate.SwitchesDown := ht.resolve_left hl.2
    have shut : ¬f.gate.Passes f.current.spatial := fun hp => hp.2.2 down
    have still : f.approachTarget a f.current.spatial = (f, false) :=
      approachTarget_of_not_awaits hl fun hw => hw.2.1 hw.2.2
    rw [forward_of_live hv hl, still]
    exact if_neg (mt (passes_iff hl).1 shut)
  · exact forward_of_not_live hv hl

/-! ## Which packets go on -/

/-- The next packet of the source, which does not start a key frame. -/
def nextPlain (f : Forwarder) : Arrival :=
  { head := true
    time := 0
    packet :=
      { header := { number := f.numbering.highest + 1, ssrc := f.lastSsrc }, payload := [0, 1] }
    vp8 := f.pictures.map fun _ => { size := 1 } }

theorem place_nextPlain :
    ∃ p, (f.numbering.place f.nextPlain).2 = .ok p ∧ p.standing = .contiguous := by
  have next : f.nextPlain.number - f.numbering.highest = 1 := by
    change f.numbering.highest + 1 - f.numbering.highest = 1
    rw [UInt16.add_comm]
    exact UInt16.add_sub_cancel 1 f.numbering.highest
  simp only [Numbering.place, show f.nextPlain.head = true from rfl, if_true, Numbering.placeHead,
    next, show ¬(1 : UInt16) < 1 by decide, show (1 : UInt16) ≠ 0 by decide, if_false,
    show f.nextPlain.carriesMedia = true from rfl]
  exact ⟨_, rfl, rfl⟩

theorem placePacket_nextPlain (d : Decision) :
    ∃ p out, (f.placePacket f.nextPlain d).2 = .ok { d with place := some p, descriptor := out } := by
  have source : (f.takePictures f.nextPlain).takeSource f.nextPlain (f.ticksSince f.nextPlain) = f := by
    simp only [takePictures, takeSource, show f.lastSsrc = f.nextPlain.ssrc from rfl, if_true]
  obtain ⟨p, hp, hstanding⟩ := place_nextPlain (f := f)
  unfold placePacket
  dsimp only
  rw [source, hp]
  cases hpics : f.pictures with
  | none => exact ⟨p, _, rfl⟩
  | some pics =>
    have vp8 : f.nextPlain.vp8 = some { size := 1 } := by
      simp only [nextPlain, hpics, Option.map_some]
    simp only [describePicture, Vp8.PictureNumbering.describe, vp8, hstanding, reduceCtorEq, if_false,
      Vp8.PictureNumbering.describeNext, Bool.false_eq_true, false_and]
    exact ⟨p, _, rfl⟩

/-- The next packet of a layer that passes is forwarded. -/
theorem forwards_nextPlain (hv : f.kind = .video) (h : f.gate.Passes layer) :
    f.Forwards f.nextPlain layer := by
  have still : f.approachTarget f.nextPlain layer = (f, false) :=
    approachTarget_of_not_awaits h.1 fun hw => hw.2.1 (hw.2.2.trans h.2.1.symm)
  obtain ⟨p, out, hd⟩ := placePacket_nextPlain (f := f) { askKeyFrame := false }
  refine ⟨{ place := some p, descriptor := out }, ?_, rfl, rfl⟩
  rw [forward_of_live hv h.1, still]
  dsimp only
  rw [if_pos ((passes_iff h.1).2 h), hd]

/-- Some packet without a key frame would be forwarded if and only if the gate passes the
layer that is sent. -/
theorem goesOnPlain_iff (hv : f.kind = .video) :
    f.GoesOnPlain ↔ f.gate.Live ∧ ¬f.gate.SwitchesDown ∧ 0 ≤ f.current.spatial := by
  constructor
  · rintro ⟨a, layer, h0, hk, hfw⟩
    have passes := passes_of_forwards hv hfw
    have sent : (f.gate.take a.keyFrame layer).sent = f.gate.sent := by
      rw [Gate.take_sent, hk, if_neg fun h => Bool.false_ne_true h.2]
    obtain ⟨hl, hs, hdown⟩ := passes
    rw [Gate.SwitchesDown, sent, Gate.take_target, Gate.take_bound] at hdown
    rw [Gate.Live, Gate.take_muted, Gate.take_target] at hl
    refine ⟨hl, hdown, ?_⟩
    rw [← show f.gate.sent = layer from sent.symm.trans hs] at h0
    exact h0
  · rintro ⟨hl, hdown, h0⟩
    exact ⟨f.nextPlain, f.current.spatial, h0, rfl, forwards_nextPlain hv ⟨hl, rfl, hdown⟩⟩

/-! ## The layer that is sent, over a run -/

theorem KeepsSent.performAll {cs : List Command} (h : f.KeepsSent cs) :
    (f.performAll cs).current.spatial = f.current.spatial := by
  induction cs generalizing f with
  | nil => rfl
  | cons c cs ih => exact (ih h.2).trans h.1

/-- Either no command changes the layer that is sent, or one of them is the last to do
so. -/
theorem keepsSent_or_last (f : Forwarder) (cs : List Command) :
    f.KeepsSent cs ∨ ∃ before c after, cs = before ++ c :: after ∧
      ((f.performAll before).perform c).current.spatial ≠ (f.performAll before).current.spatial ∧
      ((f.performAll before).perform c).KeepsSent after := by
  induction cs generalizing f with
  | nil => exact .inl trivial
  | cons c cs ih =>
    rcases ih (f.perform c) with hkept | ⟨before, c', after, rfl, hne, hkept⟩
    · by_cases hc : (f.perform c).current.spatial = f.current.spatial
      · exact .inl ⟨hc, hkept⟩
      · exact .inr ⟨[], c, cs, rfl, hc, hkept⟩
    · exact .inr ⟨c :: before, c', after, rfl, hne, hkept⟩

theorem Silent.not_forwards {cs before after : List Command} (h : f.Silent cs)
    (hcs : cs = before ++ .forward a layer :: after) : ¬(f.performAll before).Forwards a layer := by
  subst hcs
  induction before generalizing f with
  | nil => exact h.1 a layer rfl
  | cons c before ih => exact ih h.2

theorem kind_performAll (hv : f.kind = .video) (cs : List Command) :
    (f.performAll cs).kind = .video :=
  performAll_induction (P := fun f => f.kind = .video)
    (fun _ c h => (gate_perform h c).kind.trans h) hv cs

/-- Over a run in which nothing is forwarded, a layer of the grid is sent in the end if
and only if it was sent all the time, or a key frame locked the gate unseen. -/
theorem sent_nonneg_iff (hv : f.kind = .video) {cs : List Command} (hsilent : f.Silent cs) :
    0 ≤ (f.performAll cs).current.spatial ↔
      f.KeepsSent cs ∧ 0 ≤ f.current.spatial ∨ f.LocksUnseen cs := by
  constructor
  · intro h0
    rcases keepsSent_or_last f cs with hkept | ⟨before, c, after, rfl, hne, hkept⟩
    · rw [hkept.performAll] at h0
      exact .inl ⟨hkept, h0⟩
    · rw [performAll_append, performAll_cons, hkept.performAll] at h0
      have move := gate_perform (kind_performAll hv before) c
      rcases move.sent hne with ⟨-, hs⟩ | ⟨a, layer, rfl, hw, hk, hs⟩
      · have cleared : ((f.performAll before).perform c).current.spatial = -1 := hs
        rw [cleared] at h0
        exact absurd h0 (by decide)
      · have locked : ((f.performAll before).perform (.forward a layer)).current.spatial = layer := hs
        rw [locked] at h0
        exact .inr ⟨before, a, layer, after, rfl, h0, hk, hw, hsilent.not_forwards rfl, hkept⟩
  · rintro (⟨hkept, h0⟩ | ⟨before, a, layer, after, rfl, h0, hk, hw, -, hkept⟩)
    · rw [hkept.performAll]
      exact h0
    · rw [performAll_append, performAll_cons]
      change 0 ≤ (Forwarder.performAll ((f.performAll before).forward a layer).1 after).current.spatial
      rw [hkept.performAll]
      have sent : ((f.performAll before).forward a layer).1.gate.sent = layer := by
        rw [gate_forward (kind_performAll hv before), Gate.take_sent, if_pos ⟨hw, hk⟩]
      rw [← sent] at h0
      exact h0

/-- After a packet of the layer that is sent was withheld, and as long as nothing was
forwarded since: the next packet that is forwarded need not start a key frame if and only
if the forwarder is not muted, the pause and the switch down are over, and the layer that
is sent was never cleared, or a key frame locked the gate without being forwarded. -/
theorem resumes_inside_iff (codec : Codec) (before : List Command) (a : Arrival) (layer : Int)
    (between : List Command) (hw : (run codec .video before).Withholds layer)
    (hsilent : (run codec .video before).Silent between) :
    let f := run codec .video before
    let g := f.performAll (.forward a layer :: between)
    (f.forward a layer).2 = .ok .leaveOut ∧
      (g.GoesOnPlain ↔ g.muted = false ∧ g.target ≠ .none ∧ ¬g.gate.SwitchesDown ∧
        (f.KeepsSent between ∧ 0 ≤ layer ∨ f.LocksUnseen between)) := by
  intro f g
  have hv : f.kind = .video := (sound_run codec before).kind
  have withheld : f.forward a layer = (f, .ok .leaveOut) := hw.forward hv
  have hg : g = f.performAll between := by
    rw [show g = ((f.forward a layer).1).performAll between from rfl, withheld]
  refine ⟨congrArg Prod.snd withheld, ?_⟩
  rw [hg, goesOnPlain_iff (kind_performAll hv between), sent_nonneg_iff hv hsilent, ← hw.2.1]
  constructor
  · rintro ⟨⟨hm, ht⟩, hdown, h⟩
    exact ⟨hm, ht, hdown, h⟩
  · rintro ⟨hm, ht, hdown, h⟩
    exact ⟨⟨hm, ht⟩, hdown, h⟩

/-! ## A run that goes on inside a group of pictures -/

/-- A packet of one source with a little media. -/
def smallPacket (number : UInt16) (keyFrame : Bool) : Arrival :=
  { head := true
    time := 0
    packet := { header := { marker := true, number, ssrc := 1111 }, payload := [0] }
    keyFrame }

/-- A video codec whose pictures are not numbered. -/
def h264Codec : Codec := { mime := "video/H264", clockRate := 90000 }

/-- An audio codec. -/
def opusCodec : Codec := { mime := "audio/opus", clockRate := 48000 }

/-- Bitrates with one measured pair. -/
def onePair : Bitrates := Bitrates.zero.set 0 #v[100, 0, 0, 0]

/-- A stream that sends its only layer, and is then paused for want of capacity. -/
def pausedStream : List Command :=
  [.setAvailable [0], .allocate 1000 onePair, .forward (smallPacket 100 true) 0,
    .allocate 50 onePair]

/-- The paused stream withholds a packet, and once there is capacity again it goes on with
the next one, which starts no key frame. -/
theorem resumes_inside_pictures :
    let f := run { mime := "video/H264", clockRate := 90000 } .video pausedStream
    f.Withholds 0 ∧ f.Silent [.allocate 1000 onePair] ∧
      (f.forward (smallPacket 101 false) 0).2 = .ok .leaveOut ∧
      (f.performAll [.forward (smallPacket 101 false) 0, .allocate 1000 onePair]).Forwards
        (smallPacket 102 false) 0 ∧
      (smallPacket 102 false).keyFrame = false := by
  exact ⟨⟨rfl, rfl, .inl rfl⟩, ⟨fun a layer h => Command.noConfusion h, trivial⟩, rfl,
    ⟨_, rfl, rfl, rfl⟩, rfl⟩

/-- The condition met by that run. -/
theorem resumes_inside_iff_pausedStream :
    let f := run { mime := "video/H264", clockRate := 90000 } .video pausedStream
    f.Withholds 0 ∧ f.Silent [.allocate 1000 onePair] ∧
      (f.performAll [.forward (smallPacket 101 false) 0, .allocate 1000 onePair]).GoesOnPlain := by
  intro f
  have withheld : f.Withholds 0 := ⟨rfl, rfl, .inl rfl⟩
  have silent : f.Silent [.allocate 1000 onePair] :=
    ⟨fun a layer h => Command.noConfusion h, trivial⟩
  refine ⟨withheld, silent, ?_⟩
  refine (resumes_inside_iff _ pausedStream (smallPacket 101 false) 0 _ withheld silent).2.2
    ⟨rfl, by decide, ?_, .inl ⟨⟨rfl, trivial⟩, Int.le_refl 0⟩⟩
  exact fun h => absurd h.1 (by decide)

end Simulcast.Forwarder
