import Simulcast.Proofs.Forwarding.Admission
import Simulcast.Proofs.Intake.Reading

/-!
# When forwarding fails

What may happen to a packet in a healthy stream leaves it out, and is no failure: it comes
late or twice, is filtered out, or carries no media. A forwarder of VP8 fails all the same at
a packet that carries no media and still gets a place, behind a gap or as one that was
missing: it has no descriptor to renumber. Such a packet `Strays`.

* `forward_error_iff`: a packet fails if and only if it strays;
* `run_succeeds_iff`: so does a run, at any of its packets;
* `forward_strays_paddingBehindGap`: padding behind a lost packet.
-/

namespace Simulcast

namespace Numbering

variable {n : Numbering} {a : Arrival}

/-- A packet without media gets a place all the same: behind a gap, or as one that was
missing. -/
def PlacesBare (n : Numbering) (a : Arrival) : Prop :=
  if a.head then 1 < a.number - n.highest else (n.missing.find? a.number).isSome = true

instance (n : Numbering) (a : Arrival) : Decidable (n.PlacesBare a) := by
  unfold PlacesBare
  infer_instance

/-- A packet is refused a place for the conditions of a healthy stream only. -/
theorem isTransient_of_place {e : Fault} (h : (n.place a).2 = .error e) : e.isTransient = true := by
  unfold place at h
  split at h
  · unfold placeHead at h
    dsimp only at h
    split at h
    · cases h
    · split at h
      · cases h
        rfl
      · split at h <;> cases h
        rfl
  · unfold placeLate at h
    split at h <;> cases h
    rfl

theorem place_ok_iff_of_bare (hm : a.carriesMedia = false) :
    (∃ p, (n.place a).2 = .ok p) ↔ n.PlacesBare a := by
  unfold place PlacesBare
  split
  · unfold placeHead
    dsimp only
    split
    · exact iff_of_true ⟨_, rfl⟩ ‹_›
    · refine iff_of_false (fun ⟨p, hp⟩ => ?_) ‹_›
      rw [hm] at hp
      split at hp <;> cases hp
  · unfold placeLate
    cases n.missing.find? a.number with
    | none => exact iff_of_false (fun ⟨p, hp⟩ => by cases hp) Bool.false_ne_true
    | some offset => exact iff_of_true ⟨_, rfl⟩ rfl

end Numbering

namespace Vp8.PictureNumbering

variable {n : PictureNumbering} {a : Arrival} {d : Descriptor} {standing : Standing}
  {maxTemporal : Int} {e : Fault}

/-- A picture is refused because it is filtered out, or late. -/
theorem error_of_describe (hd : a.vp8 = some d)
    (h : (n.describe a standing maxTemporal).2 = .error e) :
    e = .filteredTemporalLayer ∨ e = .latePicture := by
  simp only [describe, hd] at h
  split at h
  · unfold describeLate at h
    split at h <;> cases h
    exact .inr rfl
  · split at h
    · unfold describeAfterGap at h
      split at h <;> cases h
      exact .inl rfl
    · unfold describeNext at h
      split at h <;> cases h
      exact .inl rfl

end Vp8.PictureNumbering

namespace Forwarder

variable {f : Forwarder} {a : Arrival} {layer : Int} {e : Fault}

/-- The packet carries no media, and yet gets a place in a stream of pictures. -/
def Strays (f : Forwarder) (a : Arrival) (layer : Int) : Prop :=
  f.kind = .video ∧ f.Admits a layer ∧ a.carriesMedia = false ∧ (f.numberingFor a).PlacesBare a

/-! ## What fails behind the gate -/

theorem leaveOutOr_of_isTransient (d : Decision) (h : e.isTransient = true) :
    leaveOutOr d e = .ok { d with drop := true } := if_pos h

/-- A placed packet fails if and only if it has no descriptor. -/
theorem describePicture_error_iff {p : Vp8.PictureNumbering} {place : Placement} {d : Decision} :
    (f.describePicture p a place d).2 = .error e ↔ e = .notVp8 ∧ a.vp8 = none := by
  unfold describePicture
  dsimp only
  generalize (if f.switchesTemporal a = true then f.takeTemporal else f).current.temporal = max
  cases hd : a.vp8 with
  | none =>
    simp only [Vp8.PictureNumbering.describe, hd, and_true, Except.error.injEq]
    exact eq_comm
  | some d =>
    simp only [reduceCtorEq, and_false, iff_false]
    intro h
    cases hr : (p.describe a place.standing max).2 with
    | ok out =>
      rw [hr] at h
      cases h
    | error e' =>
      rw [hr] at h
      rcases Vp8.PictureNumbering.error_of_describe hd hr with rfl | rfl <;> cases h

theorem placePacket_error_iff {d : Decision} (hp : f.pictures.isSome = true) :
    (f.placePacket a d).2 = .error e ↔
      e = .notVp8 ∧ a.vp8 = none ∧ ∃ p, ((f.takeUp a).numbering.place a).2 = .ok p := by
  cases hr : ((f.takeUp a).numbering.place a).2 with
  | error e' =>
    rw [placePacket_of_error (Prod.ext rfl hr),
      leaveOutOr_of_isTransient d (Numbering.isTransient_of_place hr)]
    exact iff_of_false (fun h => by cases h) fun h => by obtain ⟨-, -, p, hp⟩ := h; cases hp
  | ok p =>
    obtain ⟨pics, hpics⟩ := Option.isSome_iff_exists.1 (takeUp_tookUp (a := a) hp).pictures
    rw [placePacket_of_ok (Prod.ext rfl hr) hpics, describePicture_error_iff]
    exact ⟨fun h => ⟨h.1, h.2, p, rfl⟩, fun h => ⟨h.1, h.2.1⟩⟩

theorem forwardAudio_ok (f : Forwarder) (a : Arrival) : ∃ d, (f.forwardAudio a).2 = .ok d := by
  unfold forwardAudio
  dsimp only
  cases hr : ((f.takeSource a 1).numbering.place a).2 with
  | error e => exact ⟨_, leaveOutOr_of_isTransient _ (Numbering.isTransient_of_place hr)⟩
  | ok p => exact ⟨_, rfl⟩

/-- A packet read as VP8 fails if and only if it strays. -/
theorem forward_error_iff (hp : f.pictures.isSome = true) (ha : a.ReadAs .vp8) :
    (f.forward a layer).2 = .error e ↔ e = .notVp8 ∧ f.Strays a layer := by
  have bare : a.vp8 = none ↔ a.carriesMedia = false := by
    rw [← ha.vp8_isSome, Option.isSome_eq_false_iff, Option.isNone_iff_eq_none]
  by_cases admitted : f.Admits a layer
  · cases hk : f.kind with
    | audio =>
      obtain ⟨d, hd⟩ := forwardAudio_ok f a
      rw [forward_audio hk admitted, hd]
      exact iff_of_false (fun h => by cases h) fun h => by cases hk.symm.trans h.2.1
    | video =>
      obtain ⟨g, askKeyFrame, hg, same, met⟩ := forward_video hk admitted
      have pictures : g.pictures.isSome = true := by
        rw [show g.pictures = f.pictures from congrArg Behind.pictures same]
        exact hp
      rw [hg, placePacket_error_iff pictures, met, bare]
      constructor
      · rintro ⟨he, hm, placed⟩
        exact ⟨he, hk, admitted, hm, (Numbering.place_ok_iff_of_bare hm).1 placed⟩
      · rintro ⟨he, -, -, hm, places⟩
        exact ⟨he, hm, (Numbering.place_ok_iff_of_bare hm).2 places⟩
  · obtain ⟨-, d, hd, -⟩ := forward_of_not_admits admitted
    rw [hd]
    exact iff_of_false (fun h => by cases h) fun h => admitted h.2.2.1

/-! ## Pictures are numbered all along -/

theorem isSome_pictures_describePicture (p : Vp8.PictureNumbering) (place : Placement)
    (d : Decision) : (f.describePicture p a place d).1.pictures.isSome = true := by
  unfold describePicture
  dsimp only
  split <;> split <;> rfl

theorem isSome_pictures_placePacket (d : Decision) :
    (f.placePacket a d).1.pictures.isSome = f.pictures.isSome := by
  have taken : (f.takeUp a).pictures.isSome = f.pictures.isSome :=
    (congrArg Option.isSome (pictures_takeSource _ a _)).trans (isSome_pictures_takePictures f a)
  cases hr : ((f.takeUp a).numbering.place a).2 with
  | error e =>
    rw [placePacket_of_error (Prod.ext rfl hr)]
    exact taken
  | ok p =>
    rw [← taken]
    cases hp : (f.takeUp a).pictures with
    | none =>
      rw [placePacket_plain (Prod.ext rfl hr) hp]
      exact congrArg Option.isSome hp
    | some pics =>
      rw [placePacket_of_ok (Prod.ext rfl hr) hp]
      exact isSome_pictures_describePicture pics p d

theorem isSome_pictures_forward (f : Forwarder) (a : Arrival) (layer : Int) :
    (f.forward a layer).1.pictures.isSome = f.pictures.isSome := by
  by_cases admitted : f.Admits a layer
  · cases hk : f.kind with
    | audio =>
      rw [forward_audio hk admitted]
      exact congrArg Option.isSome (pictures_takeSource f a 1)
    | video =>
      obtain ⟨g, askKeyFrame, hg, same, -⟩ := forward_video hk admitted
      rw [hg, isSome_pictures_placePacket]
      exact congrArg (fun b : Behind => b.pictures.isSome) same
  · exact congrArg (fun b : Behind => b.pictures.isSome) (forward_of_not_admits admitted).1

theorem isSome_pictures_perform (f : Forwarder) (c : Command) :
    (f.perform c).pictures.isSome = f.pictures.isSome := by
  by_cases quiet : c.isQuiet = true
  · exact congrArg (fun b : Behind => b.pictures.isSome) (behind_perform quiet)
  · cases c with
    | forward a layer => exact isSome_pictures_forward f a layer
    | padding | blankFrames => rfl
    | blankDescriptor endsFrame =>
      simp only [perform, blankDescriptor]
      split <;> simp only [*, Option.isSome_some]
    | _ => exact absurd rfl quiet

/-! ## Runs -/

/-- The packets of a run were read in a payload format. -/
def AllReadAs (format : PayloadFormat) (cs : List Command) : Prop :=
  ∀ a layer, .forward a layer ∈ cs → a.ReadAs format

/-- Each packet of a run is forwarded or left out. -/
def Succeeds : Forwarder → List Command → Prop :=
  Throughout fun f c => ∀ a layer, c = .forward a layer → ∃ d, (f.forward a layer).2 = .ok d

/-- No packet of a run strays. -/
def StraysNever : Forwarder → List Command → Prop :=
  Throughout fun f c => ∀ a layer, c = .forward a layer → ¬f.Strays a layer

theorem succeeds_iff_straysNever {cs : List Command} (hp : f.pictures.isSome = true)
    (hr : AllReadAs .vp8 cs) : f.Succeeds cs ↔ f.StraysNever cs := by
  induction cs generalizing f with
  | nil => exact iff_of_true trivial trivial
  | cons c cs ih =>
    have pictures : (f.perform c).pictures.isSome = true :=
      (isSome_pictures_perform f c).trans hp
    refine and_congr (forall₃_congr fun a layer hc => ?_)
      (ih pictures fun a layer hm => hr a layer (List.mem_cons_of_mem c hm))
    have read : a.ReadAs .vp8 := hr a layer (hc ▸ List.mem_cons_self)
    constructor
    · rintro ⟨d, hd⟩ strays
      have fails := (forward_error_iff hp read).2 ⟨rfl, strays⟩
      rw [hd] at fails
      cases fails
    · intro stays
      cases hd : (f.forward a layer).2 with
      | ok d => exact ⟨d, rfl⟩
      | error e => exact absurd ((forward_error_iff hp read).1 hd).2 stays

/-- The pictures are numbered in streams of VP8, and in no others. -/
theorem isSome_pictures_run (codec : Codec) (kind : MediaKind) (cs : List Command) :
    (run codec kind cs).pictures.isSome = true ↔ codec.format = .vp8 := by
  have kept : (run codec kind cs).pictures.isSome = (forCodec codec kind).pictures.isSome :=
    performAll_induction
      (P := fun f => f.pictures.isSome = (forCodec codec kind).pictures.isSome)
      (fun f c h => (isSome_pictures_perform f c).trans h) rfl cs
  rw [kept]
  simp only [forCodec]
  split
  · exact iff_of_true rfl ‹_›
  · exact iff_of_false Bool.false_ne_true ‹_›

/-- In every run of a forwarder of VP8 over packets that were read as such: all packets are
forwarded or left out if and only if none of them strays; and a packet that fails after the
run strays, and fails for want of a descriptor. -/
theorem run_succeeds_iff (codec : Codec) (hc : codec.format = .vp8) (kind : MediaKind)
    (cs : List Command) (hr : AllReadAs .vp8 cs) :
    ((forCodec codec kind).Succeeds cs ↔ (forCodec codec kind).StraysNever cs) ∧
      ∀ a layer e, a.ReadAs .vp8 →
        (((run codec kind cs).forward a layer).2 = .error e ↔
          e = .notVp8 ∧ (run codec kind cs).Strays a layer) := by
  exact ⟨succeeds_iff_straysNever ((isSome_pictures_run codec kind []).2 hc) hr,
    fun a layer e ha => forward_error_iff ((isSome_pictures_run codec kind cs).2 hc) ha⟩

/-! ## A run that fails -/

/-- The run of a forwarder over some packets of its only layer. -/
def onlyLayer (as : List Arrival) : List Command :=
  [.setAvailable [0], .allocate unlimited Bitrates.zero] ++ as.map fun a => .forward a 0

theorem onlyLayer_readAs {as : List Arrival} {format : PayloadFormat}
    (h : ∀ a ∈ as, a.ReadAs format) : AllReadAs format (onlyLayer as) := by
  intro a layer hm
  rcases List.mem_append.1 hm with hm | hm
  · simp only [List.mem_cons, reduceCtorEq, List.not_mem_nil, or_self] at hm
  · obtain ⟨b, hb, he⟩ := List.mem_map.1 hm
    cases he
    exact h a hb

/-- A key frame of VP8 in one packet. -/
def keyFrameArrival : Arrival where
  head := true
  time := 0
  packet := { header := { payloadType := 96, number := 100, ssrc := 1111 }, payload := [0x10, 0] }
  vp8 := some { firstOctet := 0x10, size := 1, keyFrame := true }
  keyFrame := true
  raw := Intake.packetOctets 0x80 100 [0x10, 0]

/-- The second packet behind it, which holds padding only. -/
def paddingArrival : Arrival where
  head := true
  time := 0
  packet :=
    { header := { padding := true, payloadType := 96, number := 102, ssrc := 1111 }, payload := [] }
  raw := Intake.packetOctets 0xa0 102 [0, 0, 0, 4]

/-- What an intake queues of the two, when the packet between them was lost. -/
theorem receive_paddingBehindGap :
    ((Intake.empty 1111 { mime := "video/VP8", clockRate := 90000 } {}).receive
        [(0, keyFrameArrival.raw), (0, paddingArrival.raw)]).queue =
      [keyFrameArrival, paddingArrival] := rfl

theorem readAs_paddingBehindGap : ∀ a ∈ [keyFrameArrival, paddingArrival], a.ReadAs .vp8 := by
  rw [← receive_paddingBehindGap]
  exact Intake.readAs_of_mem_receive _ fun a ha => by cases ha

/-- The padding gets the place behind the gap, and there is no descriptor for it. -/
theorem forward_strays_paddingBehindGap :
    (∀ a ∈ [keyFrameArrival, paddingArrival], a.ReadAs .vp8) ∧
      let f := run { mime := "video/VP8", clockRate := 90000 } .video (onlyLayer [keyFrameArrival])
      f.Strays paddingArrival 0 ∧ (f.forward paddingArrival 0).2 = .error .notVp8 := by
  exact ⟨readAs_paddingBehindGap, ⟨rfl, by decide, rfl, by decide⟩, rfl⟩

/-- The condition missed by that run. -/
theorem run_succeeds_iff_paddingBehindGap :
    AllReadAs .vp8 (onlyLayer [keyFrameArrival, paddingArrival]) ∧
      ¬(forCodec { mime := "video/VP8", clockRate := 90000 } .video).Succeeds
        (onlyLayer [keyFrameArrival, paddingArrival]) := by
  have read : AllReadAs .vp8 (onlyLayer [keyFrameArrival, paddingArrival]) :=
    onlyLayer_readAs readAs_paddingBehindGap
  refine ⟨read, fun succeeds => ?_⟩
  obtain ⟨-, -, -, stays, -⟩ := (run_succeeds_iff _ rfl .video _ read).1.1 succeeds
  exact stays _ _ rfl ⟨rfl, by decide, rfl, by decide⟩

end Forwarder
end Simulcast
