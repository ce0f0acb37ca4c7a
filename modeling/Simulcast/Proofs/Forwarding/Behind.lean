import Simulcast.Proofs.Forwarding.Gate
import Simulcast.Proofs.Numbering.Reach
import Simulcast.Proofs.Vp8.DescriptorSize

/-!
# VP8 packets behind the gate

What becomes of the newest packet of a source once it has passed the gate of a VP8
forwarder: it is sent, filtered out for its temporal layer, absorbed, or seen before.
`PacketOutcome` says so of the numbering that the packet meets, after its source was taken up;
`placePacket_outcome` is the inversion of `placePacket`, and `forward_locked` brings a
packet of a locked layer to it.
-/

namespace Simulcast

/-- A descriptor with which a packet can be written: the one that it came with fits, and
then so does the new one. -/
def Decision.Writable (d : Decision) (a : Arrival) : Prop :=
  ∀ incoming, a.vp8 = some incoming → incoming.Fits → incoming.size ≤ 6 →
    ∃ outgoing, d.descriptor = some outgoing ∧ outgoing.Fits ∧ outgoing.size ≤ 7

/-- What becomes of the newest packet of a source in a numbering. -/
inductive PacketOutcome (n : Numbering) (a : Arrival) : Numbering → Except Fault Decision → Prop where
  | sent (d : Decision) (p : Placement) (hm : a.carriesMedia = true) (hn : a.number ≠ n.highest)
      (hp : (n.placeHead a).2 = .ok p) (hd : d.drop = false) (place : d.place = some p)
      (hw : d.Writable a) : PacketOutcome n a (n.placeHead a).1 (.ok d)
  | filtered (d : Decision) (hm : a.carriesMedia = true) (hn : a.number ≠ n.highest)
      (hd : d.drop = true) : PacketOutcome n a ((n.placeHead a).1.leaveOut a) (.ok d)
  | absorbed (d : Decision) (hm : a.carriesMedia = false) (hn : a.number = n.highest + 1)
      (hd : d.drop = true) : PacketOutcome n a (n.leaveOut a) (.ok d)
  | repeated (d : Decision) (hm : a.carriesMedia = true) (hn : a.number = n.highest)
      (hd : d.drop = true) : PacketOutcome n a n (.ok d)

/-- Whatever becomes of the packet, it is the newest one then. -/
theorem PacketOutcome.highest {n n' : Numbering} {a : Arrival} {r : Except Fault Decision}
    (h : PacketOutcome n a n' r) : n'.highest = a.number := by
  cases h with
  | sent d p hm hn =>
    obtain ⟨_, -, -, -, highest, -⟩ := Numbering.placeHead_media hm hn
    exact highest
  | filtered => rfl
  | absorbed => rfl
  | repeated d hm hn => exact hn.symm

namespace Vp8.PictureNumbering

/-- A picture that follows directly or after a gap is sent with a descriptor that fits,
or filtered out. -/
theorem describe_cases {n : PictureNumbering} {a : Arrival} {incoming : Descriptor}
    (hd : a.vp8 = some incoming) {standing : Standing} (hs : standing ≠ .late) (maxTemporal : Int) :
    (∃ outgoing, (n.describe a standing maxTemporal).2 = .ok outgoing ∧
      (incoming.Fits → incoming.size ≤ 6 → outgoing.Fits ∧ outgoing.size ≤ 7)) ∨
    (n.describe a standing maxTemporal).2 = .error .filteredTemporalLayer := by
  have sent : ∀ (m : PictureNumbering) (number : Int32),
      ∃ outgoing, (.ok (m.send incoming number).2 : Except Fault Descriptor) = .ok outgoing ∧
        (incoming.Fits → incoming.size ≤ 6 → outgoing.Fits ∧ outgoing.size ≤ 7) :=
    fun m number => ⟨_, rfl, fun hf h6 => renumber_fits m _ hf h6⟩
  simp only [describe, hd, hs, if_false]
  split
  · unfold describeAfterGap
    split
    · exact .inr rfl
    · exact .inl (sent _ _)
  · unfold describeNext
    split
    · exact .inr rfl
    · exact .inl (sent _ _)

end Vp8.PictureNumbering

namespace Forwarder

variable {f : Forwarder} {a : Arrival} {layer : Int}

/-! ## What is left alone -/

@[simp] theorem numbering_takePictures (f : Forwarder) (a : Arrival) :
    (f.takePictures a).numbering = f.numbering := by
  unfold takePictures
  split <;> rfl

@[simp] theorem started_takePictures (f : Forwarder) (a : Arrival) :
    (f.takePictures a).started = f.started := by
  unfold takePictures
  split <;> rfl

@[simp] theorem lastSsrc_takePictures (f : Forwarder) (a : Arrival) :
    (f.takePictures a).lastSsrc = f.lastSsrc := by
  unfold takePictures
  split <;> rfl

theorem isSome_pictures_takePictures (f : Forwarder) (a : Arrival) :
    (f.takePictures a).pictures.isSome = f.pictures.isSome := by
  unfold takePictures
  split
  · rfl
  · exact Option.isSome_map

@[simp] theorem pictures_takeSource (f : Forwarder) (a : Arrival) (ticks : UInt32) :
    (f.takeSource a ticks).pictures = f.pictures := by
  unfold takeSource
  split <;> rfl

@[simp] theorem lastSsrc_takeSource (f : Forwarder) (a : Arrival) (ticks : UInt32) :
    (f.takeSource a ticks).lastSsrc = a.ssrc := by
  unfold takeSource
  split
  · assumption
  · rfl

theorem started_takeSource (f : Forwarder) (a : Arrival) (ticks : UInt32) :
    (f.takeSource a ticks).started = (f.started || f.lastSsrc != a.ssrc) := by
  unfold takeSource
  split
  · rename_i h
    simp only [h, bne_self_eq_false, Bool.or_false]
  · rename_i h
    simp only [bne_iff_ne.2 h, Bool.or_true]

/-- A forwarder that took up the source of a packet behind the gate. -/
def takeUp (f : Forwarder) (a : Arrival) : Forwarder :=
  { (f.takePictures a).takeSource a (f.ticksSince a) with lastArrival := some a.time }

theorem placePacket_of_error {n : Numbering} {e : Fault} {d : Decision}
    (h : (f.takeUp a).numbering.place a = (n, .error e)) :
    f.placePacket a d = ({ f.takeUp a with numbering := n }, leaveOutOr d e) := by
  unfold placePacket
  unfold takeUp at h ⊢
  dsimp only at h ⊢
  rw [h]

theorem placePacket_of_ok {n : Numbering} {p : Placement} {pics : Vp8.PictureNumbering} {d : Decision}
    (h : (f.takeUp a).numbering.place a = (n, .ok p)) (hp : (f.takeUp a).pictures = some pics) :
    f.placePacket a d = { f.takeUp a with numbering := n }.describePicture pics a p d := by
  unfold placePacket
  unfold takeUp at h hp ⊢
  dsimp only at h hp ⊢
  rw [h, hp]

/-- What stays in force behind the gate: the source of the packet is taken up, and there
still are pictures. -/
structure TookUp (f : Forwarder) (a : Arrival) (f' : Forwarder) : Prop where
  gate : f'.gate = f.gate
  lastSsrc : f'.lastSsrc = a.ssrc
  started : f'.started = (f.started || f.lastSsrc != a.ssrc)
  pictures : f'.pictures.isSome = true

/-- None of it depends on the numbering, nor on the time. -/
theorem TookUp.renumbered {f' : Forwarder} (h : f.TookUp a f') (n : Numbering) :
    f.TookUp a { f' with numbering := n } :=
  ⟨h.gate, h.lastSsrc, h.started, h.pictures⟩

theorem TookUp.arrived {f' : Forwarder} (h : f.TookUp a f') (time : Option Time) :
    f.TookUp a { f' with lastArrival := time } :=
  ⟨h.gate, h.lastSsrc, h.started, h.pictures⟩

/-! ## The packet -/

theorem describePicture_outcome {n : Numbering} {p : Vp8.PictureNumbering} {d : Decision}
    {incoming : Vp8.Descriptor} {place : Placement} (hhead : a.head = true)
    (hm : a.carriesMedia = true) (hn : a.number ≠ n.highest) (hd : a.vp8 = some incoming)
    (hp : (n.placeHead a).2 = .ok place) (hs : place.standing ≠ .late)
    (hf : f.numbering = (n.placeHead a).1) (hdrop : d.drop = false) :
    PacketOutcome n a (f.describePicture p a place d).1.numbering (f.describePicture p a place d).2 ∧
      (f.describePicture p a place d).1.lastSsrc = f.lastSsrc ∧
      (f.describePicture p a place d).1.started = f.started ∧
      (f.describePicture p a place d).1.pictures.isSome = true := by
  unfold describePicture
  dsimp only
  generalize hg : (if f.switchesTemporal a = true then f.takeTemporal else f) = g
  have same : g.numbering = f.numbering ∧ g.lastSsrc = f.lastSsrc ∧ g.started = f.started := by
    rw [← hg]
    split <;> exact ⟨rfl, rfl, rfl⟩
  rcases Vp8.PictureNumbering.describe_cases (n := p) hd hs g.current.temporal with
    ⟨outgoing, hok, hfits⟩ | herr
  · rw [hok]
    refine ⟨?_, same.2.1, same.2.2, rfl⟩
    rw [same.1, hf]
    refine .sent _ place hm hn hp hdrop rfl fun incoming' hi hfit h6 => ?_
    obtain rfl := Option.some.inj (hd.symm.trans hi)
    exact ⟨outgoing, rfl, hfits hfit h6⟩
  · rw [herr]
    refine ⟨?_, same.2.1, same.2.2, rfl⟩
    dsimp only
    rw [Numbering.drop, if_pos hhead, same.1, hf]
    exact .filtered _ hm hn rfl

theorem takeUp_tookUp (hpics : f.pictures.isSome = true) : f.TookUp a (f.takeUp a) := by
  have took : f.TookUp a ((f.takePictures a).takeSource a (f.ticksSince a)) := by
    refine ⟨?_, lastSsrc_takeSource _ a _, ?_, ?_⟩
    · rw [gate_takeSource, gate_takePictures]
    · rw [started_takeSource, started_takePictures, lastSsrc_takePictures]
    · rw [pictures_takeSource, isSome_pictures_takePictures]
      exact hpics
  exact took.arrived _

theorem numbering_takeUp (f : Forwarder) (a : Arrival) :
    (f.takeUp a).numbering = (f.takeSource a (f.ticksSince a)).numbering := by
  simp only [takeUp, takeSource, lastSsrc_takePictures, started_takePictures, numbering_takePictures,
    apply_ite Forwarder.numbering]

/-- What becomes of the newest packet of a source behind the gate of a VP8 forwarder. A
packet with media has a descriptor, and one without comes directly after the last one. -/
theorem placePacket_outcome {d : Decision} (hpics : f.pictures.isSome = true)
    (hhead : a.head = true) (hdrop : d.drop = false)
    (hmedia : a.carriesMedia = true → ∃ incoming, a.vp8 = some incoming)
    (hpad : a.carriesMedia = false → a.number = (f.takeUp a).numbering.highest + 1) :
    PacketOutcome (f.takeUp a).numbering a (f.placePacket a d).1.numbering (f.placePacket a d).2 ∧
      f.TookUp a (f.placePacket a d).1 := by
  have took := takeUp_tookUp (a := a) hpics
  have placed : (f.takeUp a).numbering.place a = (f.takeUp a).numbering.placeHead a := by
    rw [Numbering.place, if_pos hhead]
  by_cases hm : a.carriesMedia = true
  · by_cases hr : a.number = (f.takeUp a).numbering.highest
    · rw [placePacket_of_error (placed.trans (Numbering.placeHead_repeated hr))]
      exact ⟨.repeated _ hm hr rfl, took.renumbered _⟩
    · obtain ⟨p, hp, -, hs, -⟩ := Numbering.placeHead_media hm hr
      obtain ⟨incoming, hd⟩ := hmedia hm
      obtain ⟨pics, hpics'⟩ := Option.isSome_iff_exists.1 took.pictures
      rw [placePacket_of_ok (placed.trans (Prod.ext rfl hp)) hpics']
      have took := took.renumbered ((f.takeUp a).numbering.placeHead a).1
      obtain ⟨outcome, ssrc, started, pictures⟩ :=
        describePicture_outcome (f := { f.takeUp a with
          numbering := ((f.takeUp a).numbering.placeHead a).1 }) (p := pics)
          hhead hm hr hd hp hs rfl hdrop
      exact ⟨outcome, (gate_describePicture _ a pics p d).trans took.gate, ssrc.trans took.lastSsrc,
        started.trans took.started, pictures⟩
  · have hm : a.carriesMedia = false := Bool.eq_false_iff.2 hm
    rw [placePacket_of_error (placed.trans (Numbering.placeHead_absorbed hm (hpad hm)))]
    exact ⟨.absorbed _ hm (hpad hm) rfl, took.renumbered _⟩

/-- What a packet leaves alone on its way to the target. -/
structure SameBehind (f g : Forwarder) : Prop where
  numbering : g.numbering = f.numbering
  lastSsrc : g.lastSsrc = f.lastSsrc
  started : g.started = f.started
  pictures : g.pictures = f.pictures
  lastArrival : g.lastArrival = f.lastArrival
  codec : g.codec = f.codec

theorem approachTarget_sameBehind (f : Forwarder) (a : Arrival) (layer : Int) :
    SameBehind f (f.approachTarget a layer).1 := by
  unfold approachTarget
  split
  · split
    · exact ⟨rfl, rfl, rfl, rfl, rfl, rfl⟩
    · split <;> exact ⟨rfl, rfl, rfl, rfl, rfl, rfl⟩
  · exact ⟨rfl, rfl, rfl, rfl, rfl, rfl⟩

theorem SameBehind.numbering_takeUp {g : Forwarder} (h : SameBehind f g) :
    (g.takeUp a).numbering = (f.takeUp a).numbering := by
  rw [Forwarder.numbering_takeUp, Forwarder.numbering_takeUp]
  simp only [takeSource, ticksSince, h.numbering, h.lastSsrc, h.started, h.lastArrival, h.codec,
    apply_ite Forwarder.numbering]

/-- Behind a packet of the layer that is aimed for, which is sent already or starts a key
frame, the gate passes that layer. -/
theorem take_passes (hl : f.gate.Live) (ht : f.target.spatial = layer)
    (hk : f.current.spatial = layer ∨ a.keyFrame = true) :
    (f.gate.take a.keyFrame layer).Passes layer := by
  have sent : (f.gate.take a.keyFrame layer).sent = layer := by
    rw [Gate.take_sent]
    split
    · rfl
    · rename_i hw
      rcases hk with hk | hk
      · exact hk
      · exact of_not_not fun hne => hw ⟨⟨hl, fun he => hne (he.symm.trans ht), ht⟩, hk⟩
  refine ⟨?_, sent, fun hdown => ?_⟩
  · rw [Gate.Live, Gate.take_muted, Gate.take_target]
    exact hl
  · rw [Gate.SwitchesDown, sent, Gate.take_target] at hdown
    exact Int.lt_irrefl layer (ht ▸ hdown.1)

/-- Such a packet passes the gate. -/
theorem forward_locked (hv : f.kind = .video) (hl : f.gate.Live) (ht : f.target.spatial = layer)
    (hk : f.current.spatial = layer ∨ a.keyFrame = true) :
    ∃ g, f.forward a layer = g.placePacket a {} ∧ SameBehind f g ∧
      g.gate = f.gate.take a.keyFrame layer ∧ g.current.spatial = layer := by
  have passes := take_passes hl ht hk
  obtain ⟨gate, asks⟩ :
      (f.approachTarget a layer).1.gate = f.gate.take a.keyFrame layer ∧
        ((f.approachTarget a layer).2 = true ↔ f.gate.Asks a.keyFrame layer) :=
    approachTarget_eq hl
  have quiet : (f.approachTarget a layer).2 = false := by
    refine Bool.eq_false_iff.2 fun hask => ?_
    obtain ⟨⟨-, hne, -⟩, hkey, -⟩ := asks.1 hask
    rcases hk with hk | hk
    · exact hne (ht.trans hk.symm)
    · exact Bool.noConfusion (hk.symm.trans hkey)
  refine ⟨_, ?_, approachTarget_sameBehind f a layer, gate, ?_⟩
  · rw [forward_of_live hv hl]
    dsimp only
    rw [← gate] at passes
    rw [if_pos ((passes_iff passes.1).2 passes), quiet]
  · exact (congrArg Gate.sent gate).trans passes.2.1

end Forwarder
end Simulcast
