import Simulcast.Proofs.Forwarding.Failure
import Simulcast.Proofs.Forwarding.Resumption
import Simulcast.Proofs.Forwarding.Temporal

/-!
# The first packet of a layer

A forwarder goes over to another layer at a key frame of it. The key frame opens the gate
before it is known whether it can be sent itself: it may come late, or twice, or be filtered
out. `startsOnKeyFrame_iff` says that the first packet forwarded of the layer is certain to
start a key frame if and only if the packet that opened the gate is forwarded, and when a
packet of another source is. `startsInside_lateKeyFrame` is a run in which the key frame was
overtaken by the packet behind it.
-/

namespace Simulcast.Forwarder

/-- The packet is the first one of the run that is forwarded. -/
def FirstForwarded (f : Forwarder) (cs : List Command) (a : Arrival) (layer : Int) : Prop :=
  ∃ before after, cs = before ++ .forward a layer :: after ∧ f.Silent before ∧
    (f.performAll before).Forwards a layer

/-- Whatever packets come after a command: as long as the layer that is sent stays, the first
one that is forwarded from the command on starts a key frame of that layer. -/
def StartsOnKeyFrame (f : Forwarder) (format : PayloadFormat) (c : Command) : Prop :=
  ∀ after, AllReadAs format after → (f.perform c).KeepsSent after →
    ∀ a layer, 0 ≤ layer → f.FirstForwarded (c :: after) a layer →
      a.keyFrame = true ∧ layer = (f.perform c).current.spatial

/-- The source of a packet is another one than the last, and nothing is missing of it. -/
def IsNewSource (f : Forwarder) (a : Arrival) : Prop :=
  f.lastSsrc ≠ a.ssrc ∧ (f.started = true ∨ f.numbering.missing = .empty)

variable {f : Forwarder} {a : Arrival} {layer : Int} {c : Command}

theorem throughout_append {P : Forwarder → Command → Prop} {cs ds : List Command} :
    Throughout P f (cs ++ ds) ↔ Throughout P f cs ∧ Throughout P (f.performAll cs) ds := by
  induction cs generalizing f with
  | nil => exact (and_iff_right trivial).symm
  | cons c cs ih =>
    rw [List.cons_append, Throughout, ih, ← and_assoc]
    rfl

/-! ## Which layer is forwarded -/

/-- While the layer that is sent stays, no other one is forwarded. -/
theorem layer_of_firstForwarded (hv : f.kind = .video) {cs : List Command} (hk : f.KeepsSent cs)
    (h : f.FirstForwarded cs a layer) : layer = f.current.spatial := by
  obtain ⟨before, after, rfl, -, forwards⟩ := h
  obtain ⟨kept, keeps, -⟩ := throughout_append.1 hk
  have kind : (f.performAll before).kind = .video := kind_performAll hv before
  have sent : ((f.performAll before).forward a layer).1.gate.sent = layer := by
    rw [gate_forward kind]
    exact (passes_of_forwards kind forwards).2.1
  rw [← sent, ← KeepsSent.performAll kept]
  exact keeps

/-! ## The next packet of a layer -/

/-- The octets of the next packet of the source. -/
def plainOctets (f : Forwarder) : Octets :=
  [0x80, 0] ++ (Octets.ofWord16 (f.numbering.highest + 1) ++ (Octets.ofWord32 0 ++
    (Octets.ofWord32 f.lastSsrc ++ [0, 1])))

/-- The next packet of the source, as an intake reads it. -/
def nextRead (f : Forwarder) : Arrival := { f.nextPlain with raw := f.plainOctets }

theorem parse_plainOctets :
    Rtp.Packet.parse f.plainOctets = .ok f.nextPlain.packet := by
  have read : Rtp.Header.readFixed f.plainOctets =
      some ({ number := f.numbering.highest + 1, ssrc := f.lastSsrc }, [0, 1]) := by
    simp only [plainOctets, List.cons_append, List.nil_append, Rtp.Header.readFixed,
      Octets.word16?_append, Octets.word32?_append, Option.bind_eq_bind, Option.bind_some]
    rfl
  simp only [Rtp.Packet.parse, Rtp.Header.parse, read, Rtp.Header.readExtensions,
    Bool.false_eq_true, if_false]
  rfl

theorem nextRead_readAs {format : PayloadFormat}
    (hp : f.pictures.isSome = true ↔ format = .vp8) : f.nextRead.ReadAs format := by
  refine Arrival.readAs_iff.2 ⟨parse_plainOctets, ?_⟩
  by_cases hf : format = .vp8
  · obtain ⟨p, hp⟩ := Option.isSome_iff_exists.1 (hp.2 hf)
    have vp8 : f.nextRead.vp8 = some { size := 1 } := by
      simp only [nextRead, nextPlain, hp, Option.map_some]
    rw [hf, vp8]
    exact ⟨rfl, rfl⟩
  · have none : f.pictures = none := Option.not_isSome_iff_eq_none.1 (mt hp.1 hf)
    have vp8 : f.nextRead.vp8 = .none := by
      simp only [nextRead, nextPlain, none, Option.map_none]
    rw [vp8]
    cases format with
    | vp8 => exact absurd rfl hf
    | h264 | other => exact ⟨rfl, rfl⟩

theorem forwards_nextRead (hv : f.kind = .video) (h : f.gate.Passes layer) :
    f.Forwards f.nextRead layer := forwards_nextPlain hv h

/-! ## The packet that opens the gate -/

/-- A new source goes on with its first packet. -/
theorem numberingFor_newSource (h : f.IsNewSource a) :
    a.number = (f.numberingFor a).highest + 1 ∧ (f.numberingFor a).missing = .empty := by
  have next : a.number = a.number - 1 + 1 := by grind
  unfold numberingFor takeSource
  rw [if_neg h.1]
  dsimp only
  split
  · exact ⟨next, rfl⟩
  · exact ⟨next, h.2.resolve_left ‹_›⟩

/-- A late packet of a new source is left out. -/
theorem not_forwards_of_late (hk : f.kind = .video) (h : f.Admits a layer)
    (hs : f.IsNewSource a) (hhead : a.head = false) : ¬f.Forwards a layer := by
  obtain ⟨g, askKeyFrame, hg, -, met⟩ := forward_video hk h
  have refused : (g.takeUp a).numbering.place a = ((g.takeUp a).numbering, .error .lateSequence) := by
    rw [met]
    simp only [Numbering.place, hhead, Bool.false_eq_true, if_false, Numbering.placeLate,
      (numberingFor_newSource hs).2]
    rfl
  rintro ⟨d, hd, hdrop, -⟩
  rw [hg, placePacket_of_error refused] at hd
  cases hd
  cases hdrop

/-- Without pictures, the next packet is forwarded. -/
theorem forwards_next_of_plain (hk : f.kind = .video) (h : f.Admits a layer)
    (hp : f.picturesFor a = none) (hhead : a.head = true) (hm : a.carriesMedia = true)
    (hn : a.number = (f.numberingFor a).highest + 1) : f.Forwards a layer := by
  obtain ⟨g, askKeyFrame, hg, same, met⟩ := forward_video hk h
  have placed : (f.numberingFor a).place a = _ :=
    (if_pos hhead).trans (Numbering.placeHead_next hm hn)
  rw [← met] at placed
  have plain : (g.takeUp a).pictures = none := by
    rw [pictures_takeUp, picturesFor_congr same]
    exact hp
  exact ⟨_, (congrArg Prod.snd hg).trans (congrArg Prod.snd (placePacket_plain placed plain)), rfl, rfl⟩

/-- A key frame of a new source that opens the gate is forwarded if it is the newest packet,
and its temporal layer is within those aimed for or those that are sent. -/
theorem forwards_newSource_iff {format : PayloadFormat} (hk : f.kind = .video)
    (hp : f.pictures.isSome = true ↔ format = .vp8) (h : f.Admits a layer)
    (hs : f.IsNewSource a) (hr : a.ReadAs format) (hkey : a.keyFrame = true) :
    f.Forwards a layer ↔ a.head = true ∧
      ∀ d, a.vp8 = some d → ¬(d.Exceeds f.target.temporal ∧ d.Exceeds f.current.temporal) := by
  have media : a.carriesMedia = true := hr.carriesMedia hkey
  obtain ⟨next, -⟩ := numberingFor_newSource hs
  cases hhead : a.head with
  | false => exact iff_of_false (not_forwards_of_late hk h hs hhead) fun h => Bool.false_ne_true h.1
  | true =>
    refine Iff.trans ?_ (and_iff_right rfl).symm
    cases hpics : f.picturesFor a with
    | none =>
      have plain : format ≠ .vp8 := by
        rw [Ne, ← hp, ← isSome_pictures_takePictures f a,
          show (f.takePictures a).pictures = none from hpics]
        exact Bool.false_ne_true
      refine iff_of_true (forwards_next_of_plain hk h hpics hhead media next) fun d hd => ?_
      rw [hr.vp8_eq_none plain] at hd
      cases hd
    | some pics =>
      have pictured : format = .vp8 := by
        rw [← hp, ← isSome_pictures_takePictures f a,
          show (f.takePictures a).pictures = some pics from hpics]
        rfl
      subst pictured
      obtain ⟨d, hd⟩ := Option.isSome_iff_exists.1 (hr.vp8_isSome.trans media)
      have within : (∀ d, a.vp8 = some d →
          ¬(d.Exceeds f.target.temporal ∧ d.Exceeds f.current.temporal)) ↔
          ¬d.Exceeds (f.temporalFor a) := by
        rw [exceeds_temporalFor_iff hd, hd]
        exact ⟨fun h => h d rfl, fun h d' hd' => Option.some.inj hd' ▸ h⟩
      rw [within]
      rcases (forward_next hk h hpics hhead media next hd).2 with ⟨hx, -, hf⟩ | ⟨hx, -, hf⟩
      · exact iff_of_false hf (not_not_intro hx)
      · exact iff_of_true hf hx

/-! ## The first packet of a layer -/

/-- If the packet that opened the gate is left out, a packet inside a group of pictures may be
the first one. -/
theorem not_startsOnKeyFrame {format : PayloadFormat} (hv : f.kind = .video)
    (hp : f.pictures.isSome = true ↔ format = .vp8) (h0 : 0 ≤ layer) (hw : f.gate.Awaits layer)
    (hk : a.keyFrame = true) (hf : ¬f.Forwards a layer) :
    ¬f.StartsOnKeyFrame format (.forward a layer) := by
  intro starts
  let g := (f.forward a layer).1
  have kind : g.kind = .video := (gate_perform hv (.forward a layer)).kind.trans hv
  have passes : g.gate.Passes layer := by
    rw [gate_forward hv]
    exact take_passes hw.1 hw.2.2 (.inr hk)
  have pictures : g.pictures.isSome = true ↔ format = .vp8 := by
    rw [isSome_pictures_forward]
    exact hp
  have keeps : g.KeepsSent [.forward g.nextRead layer] := by
    refine ⟨?_, trivial⟩
    change (g.forward g.nextRead layer).1.gate.sent = g.gate.sent
    rw [gate_forward kind, Gate.take_sent, if_neg fun h => Bool.false_ne_true h.2]
  have read : AllReadAs format [.forward g.nextRead layer] := by
    intro b l hm
    cases List.mem_singleton.1 hm
    exact nextRead_readAs pictures
  have first : f.FirstForwarded [.forward a layer, .forward g.nextRead layer] g.nextRead layer := by
    refine ⟨[.forward a layer], [], rfl, ⟨fun b l hc => ?_, trivial⟩, forwards_nextRead kind passes⟩
    cases hc
    exact hf
  exact Bool.false_ne_true (starts _ read keeps _ layer h0 first).1

/-- Of a layer that a run of video goes over to, the first packet forwarded is certain to
start a key frame if and only if the packet that opened the gate is forwarded itself. One of
a new source is, unless it comes late or its temporal layer is above those aimed for and those
that are sent. -/
theorem startsOnKeyFrame_iff (codec : Codec) (cs : List Command) (c : Command)
    (hne : ((run codec .video cs).perform c).current.spatial ≠
      (run codec .video cs).current.spatial) :
    let f := run codec .video cs
    (f.StartsOnKeyFrame codec.format c ↔
      ∀ a layer, c = .forward a layer → 0 ≤ layer → f.Forwards a layer) ∧
    ∀ a layer, c = .forward a layer → a.ReadAs codec.format → f.IsNewSource a →
      (f.Forwards a layer ↔ a.head = true ∧
        ∀ d, a.vp8 = some d → ¬(d.Exceeds f.target.temporal ∧ d.Exceeds f.current.temporal)) := by
  intro f
  have hv : f.kind = .video := (sound_run codec cs).kind
  have pictures : f.pictures.isSome = true ↔ codec.format = .vp8 :=
    isSome_pictures_run codec .video cs
  have moved := (gate_perform hv c).sent hne
  refine ⟨⟨?_, ?_⟩, ?_⟩
  · rintro starts a layer rfl h0
    obtain ⟨a', layer', hc, hw, hk, -⟩ := moved.resolve_left fun h => Bool.noConfusion h.1
    cases hc
    exact of_not_not fun hf => not_startsOnKeyFrame hv pictures h0 hw hk hf starts
  · intro forwards after _ keeps a layer h0 first
    obtain ⟨before, rest, hcs, silent, sends⟩ := first
    cases before with
    | nil =>
      obtain ⟨rfl, -⟩ := List.cons.inj hcs
      obtain ⟨a', layer', hc, -, hk, sent⟩ := moved.resolve_left fun h => Bool.noConfusion h.1
      cases hc
      exact ⟨hk, sent.symm⟩
    | cons c' before =>
      obtain ⟨rfl, rfl⟩ := List.cons.inj hcs
      have kind : (f.perform c).kind = .video := (gate_perform hv c).kind.trans hv
      have same := layer_of_firstForwarded kind keeps ⟨before, rest, rfl, silent.2, sends⟩
      rcases moved with ⟨-, cleared⟩ | ⟨a', layer', rfl, -, -, sent⟩
      · rw [same, show (f.perform c).current.spatial = -1 from cleared] at h0
        exact absurd h0 (by decide)
      · have first : layer = layer' := same.trans sent
        exact absurd (forwards a' layer' rfl (first ▸ h0)) (silent.1 a' layer' rfl)
  · rintro a layer rfl read new
    obtain ⟨a', layer', hc, hw, hk, -⟩ := moved.resolve_left fun h => Bool.noConfusion h.1
    cases hc
    have admits : f.Admits a layer := ⟨hw.1.1, fun _ => take_passes hw.1 hw.2.2 (.inr hk)⟩
    exact forwards_newSource_iff hv pictures admits new read hk

/-! ## A layer that starts inside a group of pictures -/

/-- A packet inside a group of pictures. -/
def interArrival (number : UInt8) : Arrival where
  head := true
  time := 0
  packet :=
    { header := { payloadType := 96, number := number.toUInt16, ssrc := 1111 }
      payload := [0x10, 1] }
  vp8 := some { firstOctet := 0x10, size := 1 }
  raw := Intake.packetOctets 0x80 number [0x10, 1]

/-- The key frame in front of such a packet, when it comes in behind it. -/
def lateKeyFrame : Arrival := { keyFrameArrival with head := false }

/-- What an intake queues when the key frame was overtaken by the packet behind it. -/
theorem receive_lateKeyFrame :
    ((Intake.empty 1111 { mime := "video/VP8", clockRate := 90000 } {}).receive
        [(0, (interArrival 101).raw), (0, keyFrameArrival.raw), (0, (interArrival 102).raw)]).queue =
      [interArrival 101, lateKeyFrame, interArrival 102] := rfl

theorem readAs_lateKeyFrame :
    ∀ a ∈ [interArrival 101, lateKeyFrame, interArrival 102], a.ReadAs .vp8 := by
  rw [← receive_lateKeyFrame]
  exact Intake.readAs_of_mem_receive _ fun a ha => by cases ha

theorem forward_lateKeyFrame :
    ((run { mime := "video/VP8", clockRate := 90000 } .video
      (onlyLayer [interArrival 101])).forward lateKeyFrame 0).2 = .ok .leaveOut := rfl

/-- The late key frame opens the gate and is left out, and the layer starts with the second
packet behind it. -/
theorem startsInside_lateKeyFrame :
    let f := run { mime := "video/VP8", clockRate := 90000 } .video (onlyLayer [interArrival 101])
    (∀ a ∈ [interArrival 101, lateKeyFrame, interArrival 102], a.ReadAs .vp8) ∧
      (f.perform (.forward lateKeyFrame 0)).current.spatial = 0 ∧ f.current.spatial = -1 ∧
      f.FirstForwarded [.forward lateKeyFrame 0, .forward (interArrival 102) 0]
        (interArrival 102) 0 ∧
      (interArrival 102).keyFrame = false := by
  refine ⟨readAs_lateKeyFrame, rfl, rfl, ⟨[.forward lateKeyFrame 0], [], rfl, ⟨?_, trivial⟩,
    _, rfl, rfl, rfl⟩, rfl⟩
  rintro a layer hc ⟨d, hd, hdrop, -⟩
  cases hc
  rw [forward_lateKeyFrame] at hd
  cases hd
  cases hdrop

/-- The condition missed by that run. -/
theorem startsOnKeyFrame_iff_lateKeyFrame :
    let f := run { mime := "video/VP8", clockRate := 90000 } .video (onlyLayer [interArrival 101])
    (f.perform (.forward lateKeyFrame 0)).current.spatial ≠ f.current.spatial ∧
      ¬f.StartsOnKeyFrame .vp8 (.forward lateKeyFrame 0) := by
  intro f
  have moved : (f.perform (.forward lateKeyFrame 0)).current.spatial ≠ f.current.spatial := by decide
  refine ⟨moved, fun starts => ?_⟩
  obtain ⟨d, hd, hdrop, -⟩ := (startsOnKeyFrame_iff _ _ _ moved).1.1 starts lateKeyFrame 0 rfl (by decide)
  rw [forward_lateKeyFrame] at hd
  cases hd
  cases hdrop

end Simulcast.Forwarder
