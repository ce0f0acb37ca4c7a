import Simulcast.Proofs.Forwarding.Admission
import Simulcast.Proofs.Forwarding.Resumption

/-!
# Numbers across an interruption

A packet that is not admitted never gets to the numbering, which takes it for a lost one
when the next packet comes: its number stays a hole. Only a packet that is filtered out for
its temporal layer gives its number to the next one.

`sendings_consecutive_iff` says what a forwarder sends of consecutive packets of one source,
whatever it is asked in between: each number goes on behind the one before it and the
packets that were missed since. `sentNumbers_hole` is a stream that is muted, and one that is
paused, for one packet.

The offset of the numbering carries the proof: `Fate.Offsets` is what a packet does to it
(`offsets_plain`, `offsets_pictured`), and `sendings_behind` is the run.
-/

namespace Simulcast

namespace Forwarder

/-- What becomes of a packet of the source. -/
inductive Fate where
  | sent (number : UInt16)
  /-- It was left out in such a way that the next one takes its number. -/
  | filtered
  /-- It was left out, and its number is not given to another packet. -/
  | missed

/-- The packet does not get to the numbering, or it cannot be told from the newest one, or
it is no VP8 packet where it has to be one. -/
def Misses (f : Forwarder) (a : Arrival) (layer : Int) : Prop :=
  ¬f.Admits a layer ∨ a.number = (f.numberingFor a).highest ∨
    f.kind = .video ∧ f.pictures.isSome = true ∧ a.vp8 = none

instance (f : Forwarder) (a : Arrival) (layer : Int) : Decidable (f.Misses a layer) := by
  unfold Misses
  infer_instance

/-- What becomes of a packet. -/
def fate (f : Forwarder) (a : Arrival) (layer : Int) : Fate :=
  match f.sentAt a layer with
  | some p => .sent p.number
  | none => if f.Misses a layer then .missed else .filtered

/-- A number that was sent, and how many packets were missed since the one before it. -/
structure Sending where
  number : UInt16
  missed : Nat

/-- What a run sends, behind so many packets that were missed. -/
def sendings (f : Forwarder) (missed : Nat) : List Command → List Sending
  | [] => []
  | .forward a layer :: cs =>
    match f.fate a layer with
    | .sent number => ⟨number, missed⟩ :: (f.forward a layer).1.sendings 0 cs
    | .filtered => (f.forward a layer).1.sendings missed cs
    | .missed => (f.forward a layer).1.sendings (missed + 1) cs
  | c :: cs => (f.perform c).sendings missed cs

/-- The numbers of the packets that a run sends on. -/
def sentNumbers (f : Forwarder) : List Command → List UInt16
  | [] => []
  | .forward a layer :: cs =>
    ((f.sentAt a layer).map Place.number).toList ++ (f.forward a layer).1.sentNumbers cs
  | c :: cs => (f.perform c).sentNumbers cs

/-- The packets are consecutive ones of a source and carry media, and no packets of the relay's
own are added. -/
def OneSource : Option Arrival → List Command → Prop
  | _, [] => True
  | prev, .forward a _ :: cs =>
    a.head = true ∧ a.carriesMedia = true ∧
      (∀ b ∈ prev, a.ssrc = b.ssrc ∧ a.number = b.number + 1) ∧ OneSource (some a) cs
  | prev, c :: cs => c.isQuiet = true ∧ OneSource prev cs

/-- The number goes on behind the missed ones. -/
def GoesOn (x y : Sending) : Prop := y.number = x.number + 1 + UInt16.ofNat y.missed

variable {f : Forwarder} {a : Arrival} {layer : Int}

theorem offset_placeHead {n : Numbering} (hm : a.carriesMedia = true) :
    (n.placeHead a).1.offset = n.offset := by
  by_cases hr : a.number = n.highest
  · rw [Numbering.placeHead_repeated hr]
  · obtain ⟨p, -, -, -, highest, reach, -⟩ := Numbering.placeHead_media hm hr
    rw [Numbering.reach, highest] at reach
    grind

theorem fate_sent {d : Decision} {p : Placement} (h : (f.forward a layer).2 = .ok d)
    (hd : d.drop = false) (hp : d.place = some p) : f.fate a layer = .sent p.number := by
  simp only [fate, sentAt, h, hd, hp, Bool.false_eq_true, if_false, Option.map_some]

theorem fate_missed (hs : f.sentAt a layer = none) (h : f.Misses a layer) :
    f.fate a layer = .missed := by
  simp only [fate, hs, h, if_true]

theorem fate_filtered (hs : f.sentAt a layer = none) (h : ¬f.Misses a layer) :
    f.fate a layer = .filtered := by
  simp only [fate, hs, h, if_false]

theorem sentAt_of_drop {d : Decision} (h : (f.forward a layer).2 = .ok d) (hd : d.drop = true) :
    f.sentAt a layer = none := by
  simp only [sentAt, h, hd, if_true]

theorem sentAt_of_error {e : Fault} (h : (f.forward a layer).2 = .error e) :
    f.sentAt a layer = none := by
  simp only [sentAt, h]

theorem sentAt_of_leaveOutOr {d : Decision} {e : Fault}
    (h : (f.forward a layer).2 = leaveOutOr d e) : f.sentAt a layer = none := by
  unfold leaveOutOr at h
  split at h
  · exact sentAt_of_drop h rfl
  · exact sentAt_of_error h

/-- How the offset behind a packet follows from the offset before it. -/
def Fate.Offsets (fate : Fate) (a : Arrival) (offset offset' : UInt16) : Prop :=
  match fate with
  | .sent number => number = a.number - offset ∧ offset' = offset
  | .filtered => offset' = offset + 1
  | .missed => offset' = offset

/-- What an admitted packet with media does to the offset. -/
theorem offsets_plain (hp : f.IsPlain) (h : f.Admits a layer) (hh : a.head = true)
    (hm : a.carriesMedia = true) :
    (f.forward a layer).1.lastSsrc = a.ssrc ∧
      (f.fate a layer).Offsets a (f.numberingFor a).offset
        (f.forward a layer).1.numbering.offset := by
  obtain ⟨⟨ask, result⟩, behind⟩ := forward_plain hp h
  have ssrc : (f.forward a layer).1.lastSsrc = a.ssrc := congrArg Behind.lastSsrc behind
  have numbering : (f.forward a layer).1.numbering = ((f.numberingFor a).place a).1 :=
    congrArg Behind.numbering behind
  refine ⟨ssrc, ?_⟩
  rw [Numbering.place, if_pos hh] at numbering result
  have offset : (f.forward a layer).1.numbering.offset = (f.numberingFor a).offset := by
    rw [numbering, offset_placeHead hm]
  by_cases hr : a.number = (f.numberingFor a).highest
  · rw [Numbering.placeHead_repeated hr] at result
    rw [fate_missed (sentAt_of_drop result rfl) (.inr (.inl hr))]
    exact offset
  · obtain ⟨p, placed, number, -⟩ := Numbering.placeHead_media hm hr
    rw [placed] at result
    rw [fate_sent result rfl rfl]
    exact ⟨number, offset⟩

/-- A packet without a descriptor is refused once it was placed. -/
theorem describePicture_undescribed {p : Vp8.PictureNumbering} {place : Placement} {d : Decision}
    (hd : a.vp8 = none) :
    (f.describePicture p a place d).2 = .error .notVp8 ∧
      (f.describePicture p a place d).1.numbering = f.numbering ∧
      (f.describePicture p a place d).1.lastSsrc = f.lastSsrc := by
  have still : f.switchesTemporal a = false := by
    rw [switchesTemporal, hd]
    rfl
  simp only [describePicture, still, Bool.false_eq_true, if_false,
    Vp8.PictureNumbering.describe, hd, and_self]

/-- A packet without a descriptor gets its place, and is refused or left out. -/
theorem placePacket_undescribed {d : Decision} (hp : f.pictures.isSome = true)
    (hd : a.vp8 = none) (hh : a.head = true) :
    (f.placePacket a d).1.lastSsrc = a.ssrc ∧
      (f.placePacket a d).1.numbering = ((f.takeUp a).numbering.placeHead a).1 ∧
      ∃ e, (f.placePacket a d).2 = leaveOutOr d e ∨ (f.placePacket a d).2 = .error e := by
  have took := takeUp_tookUp (a := a) hp
  have placed : ∀ {r}, ((f.takeUp a).numbering.placeHead a).2 = r →
      (f.takeUp a).numbering.place a = (((f.takeUp a).numbering.placeHead a).1, r) := fun hr => by
    rw [Numbering.place, if_pos hh]
    exact Prod.ext rfl hr
  cases hr : ((f.takeUp a).numbering.placeHead a).2 with
  | error e =>
    rw [placePacket_of_error (placed hr)]
    exact ⟨took.lastSsrc, rfl, e, .inl rfl⟩
  | ok place =>
    obtain ⟨pics, hpics⟩ := Option.isSome_iff_exists.1 took.pictures
    rw [placePacket_of_ok (placed hr) hpics]
    obtain ⟨refused, numbering, ssrc⟩ := describePicture_undescribed hd
    exact ⟨ssrc.trans took.lastSsrc, numbering, .notVp8, .inr refused⟩

theorem offsets_pictured (hv : f.kind = .video) (hp : f.pictures.isSome = true)
    (h : f.Admits a layer) (hh : a.head = true) (hm : a.carriesMedia = true) :
    (f.forward a layer).1.lastSsrc = a.ssrc ∧
      (f.fate a layer).Offsets a (f.numberingFor a).offset
        (f.forward a layer).1.numbering.offset := by
  obtain ⟨g, ask, hg, same, met⟩ := forward_video hv h
  have pictures : g.pictures.isSome = true := by
    rw [show g.pictures = f.pictures from congrArg Behind.pictures same]
    exact hp
  cases hd : a.vp8 with
  | none =>
    have undescribed : f.Misses a layer := .inr (.inr ⟨hv, hp, hd⟩)
    obtain ⟨ssrc, numbering, e, result⟩ :=
      placePacket_undescribed (d := { askKeyFrame := ask }) pictures hd hh
    rw [met, ← hg] at numbering
    rw [← hg] at ssrc result
    have unsent : f.sentAt a layer = none := result.elim sentAt_of_leaveOutOr sentAt_of_error
    rw [fate_missed unsent undescribed, numbering]
    exact ⟨ssrc, offset_placeHead hm⟩
  | some incoming =>
    obtain ⟨outcome, took⟩ := placePacket_outcome (d := { askKeyFrame := ask }) pictures hh rfl
      (fun _ => ⟨incoming, hd⟩) fun hm' => Bool.noConfusion (hm.symm.trans hm')
    rw [met, ← hg] at outcome
    rw [← hg] at took
    refine ⟨took.lastSsrc, ?_⟩
    generalize hr : (f.forward a layer).2 = r at outcome
    generalize (f.forward a layer).1.numbering = n' at outcome
    cases outcome with
    | sent d p _ hn placed hd place =>
      obtain ⟨p', placed', number, -⟩ := Numbering.placeHead_media hm hn
      rw [placed] at placed'
      cases placed'
      rw [fate_sent hr hd place]
      exact ⟨number, offset_placeHead hm⟩
    | filtered d _ hn hdrop =>
      have kept : ¬f.Misses a layer := by
        rintro (hs | hs | ⟨-, -, hs⟩)
        · exact hs h
        · exact hn hs
        · cases hd.symm.trans hs
      rw [fate_filtered (sentAt_of_drop hr hdrop) kept]
      exact congrArg (· + 1) (offset_placeHead hm)
    | absorbed d hm' => exact Bool.noConfusion (hm.symm.trans hm')
    | repeated d _ hn hdrop =>
      rw [fate_missed (sentAt_of_drop hr hdrop) (.inr (.inl hn))]
      exact rfl

/-- What an admitted packet with media does to the offset. -/
theorem offsets_admitted (h : f.Admits a layer) (hh : a.head = true) (hm : a.carriesMedia = true) :
    (f.forward a layer).1.lastSsrc = a.ssrc ∧
      (f.fate a layer).Offsets a (f.numberingFor a).offset
        (f.forward a layer).1.numbering.offset := by
  by_cases hp : f.IsPlain
  · exact offsets_plain hp h hh hm
  · obtain ⟨hk, hpics⟩ := not_or.1 hp
    have hv : f.kind = .video := by
      cases hkind : f.kind with
      | video => rfl
      | audio => exact absurd hkind hk
    exact offsets_pictured hv (Option.isSome_iff_ne_none.2 hpics) h hh hm

theorem fate_of_not_admits (h : ¬f.Admits a layer) : f.fate a layer = .missed := by
  obtain ⟨-, d, hd, hdrop⟩ := forward_of_not_admits h
  exact fate_missed (sentAt_of_drop hd hdrop) (.inl h)

/-- What a packet of the source that is taken up does to the offset. -/
theorem offsets_forward (layer : Int) (hs : f.lastSsrc = a.ssrc) (hh : a.head = true)
    (hm : a.carriesMedia = true) :
    (f.forward a layer).1.lastSsrc = a.ssrc ∧
      (f.fate a layer).Offsets a f.numbering.offset (f.forward a layer).1.numbering.offset := by
  by_cases h : f.Admits a layer
  · have met : f.numberingFor a = f.numbering := by
      rw [numberingFor, takeSource, if_pos hs]
    rw [← met]
    exact offsets_admitted h hh hm
  · have same := (forward_of_not_admits h).1
    rw [fate_of_not_admits h]
    exact ⟨(congrArg Behind.lastSsrc same).trans hs,
      congrArg (fun b : Behind => b.numbering.offset) same⟩

/-- A packet that is sent tells where its source stands. -/
theorem offset_of_sent {number : UInt16} (h : f.fate a layer = .sent number)
    (hh : a.head = true) (hm : a.carriesMedia = true) :
    (f.forward a layer).1.lastSsrc = a.ssrc ∧
      a.number - (f.forward a layer).1.numbering.offset = number := by
  have admitted : f.Admits a layer := by
    refine of_not_not fun hn => ?_
    rw [fate_of_not_admits hn] at h
    cases h
  obtain ⟨ssrc, offsets⟩ := offsets_admitted admitted hh hm
  rw [h] at offsets
  obtain ⟨number', offset⟩ := offsets
  exact ⟨ssrc, by rw [offset, number']⟩

/-! ## Runs -/

variable {b : Arrival} {cs : List Command} {x : Sending} {missed : Nat}

/-- Behind a number that was sent, what is sent next goes on behind the missed packets. Along
the run, the newest packet stands that far beyond the number. -/
theorem sendings_behind (h : OneSource (some b) cs) (hs : f.lastSsrc = b.ssrc)
    (hn : b.number - f.numbering.offset = x.number + UInt16.ofNat missed) :
    (x :: f.sendings missed cs).IsChain GoesOn := by
  induction cs generalizing f b x missed with
  | nil => exact List.isChain_singleton x
  | cons c cs ih =>
    cases c with
    | forward a layer =>
      obtain ⟨hh, hm, follows, h⟩ := h
      obtain ⟨ssrc, number⟩ := follows b rfl
      obtain ⟨hs', offsets⟩ := offsets_forward layer (hs.trans ssrc.symm) hh hm
      have next : a.number - f.numbering.offset = x.number + 1 + UInt16.ofNat missed := by grind
      cases hfate : f.fate a layer with
      | sent number' =>
        simp only [sendings, hfate]
        rw [hfate] at offsets
        obtain ⟨hnumber, hoffset⟩ := offsets
        refine List.isChain_cons_cons.2 ⟨hnumber.trans next, ih h hs' ?_⟩
        rw [hoffset, hnumber]
        exact (UInt16.add_zero _).symm
      | filtered =>
        simp only [sendings, hfate]
        rw [hfate] at offsets
        have hoffset : (f.forward a layer).1.numbering.offset = f.numbering.offset + 1 := offsets
        refine ih h hs' ?_
        rw [hoffset]
        grind
      | missed =>
        simp only [sendings, hfate]
        rw [hfate] at offsets
        have hoffset : (f.forward a layer).1.numbering.offset = f.numbering.offset := offsets
        refine ih h hs' ?_
        rw [hoffset, next, UInt16.ofNat_add]
        grind
    | _ =>
      obtain ⟨hq, h⟩ := h
      have same := behind_perform (f := f) hq
      refine ih h ((congrArg Behind.lastSsrc same).trans hs) ?_
      rw [show (f.perform _).numbering = f.numbering from congrArg Behind.numbering same]
      exact hn

/-- Before the first number, there is nothing to go on behind. -/
theorem sendings_chain {prev : Option Arrival} (h : OneSource prev cs) :
    (f.sendings missed cs).IsChain GoesOn := by
  induction cs generalizing f prev missed with
  | nil => exact List.isChain_nil
  | cons c cs ih =>
    cases c with
    | forward a layer =>
      obtain ⟨hh, hm, -, h⟩ := h
      cases hfate : f.fate a layer with
      | sent number =>
        simp only [sendings, hfate]
        obtain ⟨ssrc, stands⟩ := offset_of_sent hfate hh hm
        exact sendings_behind h ssrc (stands.trans (UInt16.add_zero _).symm)
      | filtered =>
        simp only [sendings, hfate]
        exact ih h
      | missed =>
        simp only [sendings, hfate]
        exact ih h
    | _ => exact ih h.2

/-- The record tells what is sent. -/
theorem map_number_sendings (f : Forwarder) (missed : Nat) (cs : List Command) :
    (f.sendings missed cs).map Sending.number = f.sentNumbers cs := by
  induction cs generalizing f missed with
  | nil => rfl
  | cons c cs ih =>
    cases c with
    | forward a layer =>
      cases hs : f.sentAt a layer with
      | some p =>
        simp only [sendings, sentNumbers, fate, hs, List.map_cons, ih]
        rfl
      | none =>
        have silent : f.sentNumbers (.forward a layer :: cs) =
            (f.forward a layer).1.sentNumbers cs := by
          simp only [sentNumbers, hs]
          rfl
        by_cases h : f.Misses a layer
        · simp only [sendings, fate_missed hs h, silent, ih]
        · simp only [sendings, fate_filtered hs h, silent, ih]
    | _ => exact ih _ _

/-- Numbers that go on behind the missed packets follow each other if and only if a whole
number of cycles was missed each time. -/
theorem consecutive_iff_of_goesOn {l : List Sending} (h : l.IsChain GoesOn) :
    Consecutive (l.map Sending.number) ↔ ∀ s ∈ l.tail, s.missed % 0x10000 = 0 := by
  have cycle (m : Nat) : UInt16.ofNat m = 0 ↔ m % 0x10000 = 0 := by
    rw [← UInt16.toNat_inj, UInt16.toNat_ofNat']
    rfl
  induction l with
  | nil => exact iff_of_true List.isChain_nil fun s hs => absurd hs List.not_mem_nil
  | cons x l ih =>
    cases l with
    | nil => exact iff_of_true (List.isChain_singleton _) fun s hs => absurd hs List.not_mem_nil
    | cons y l =>
      obtain ⟨goesOn, rest⟩ := List.isChain_cons_cons.1 h
      have next : y.number = x.number + 1 ↔ y.missed % 0x10000 = 0 := by
        rw [← cycle, show y.number = x.number + 1 + UInt16.ofNat y.missed from goesOn]
        constructor
        · intro he
          grind
        · intro he
          rw [he, UInt16.add_zero]
      rw [List.map_cons, List.map_cons, Consecutive, List.isChain_cons_cons, next, ← List.map_cons]
      rw [List.tail_cons, List.forall_mem_cons]
      exact and_congr_right fun _ => ih rest

/-- The numbers that a forwarder sends for consecutive packets of one source, whatever else it
is asked in between: each one goes on behind the one before it and the packets that were missed
since. So they follow each other if and only if each time a whole number of cycles was
missed, as where no packet was. -/
theorem sendings_consecutive_iff (f : Forwarder) (cs : List Command) (h : OneSource none cs) :
    (f.sendings 0 cs).map Sending.number = f.sentNumbers cs ∧
      (f.sendings 0 cs).IsChain GoesOn ∧
      (Consecutive (f.sentNumbers cs) ↔
        ∀ s ∈ (f.sendings 0 cs).tail, s.missed % 0x10000 = 0) := by
  have chain : (f.sendings 0 cs).IsChain GoesOn := sendings_chain h
  have numbers := map_number_sendings f 0 cs
  refine ⟨numbers, chain, ?_⟩
  rw [← numbers]
  exact consecutive_iff_of_goesOn chain

/-! ## Streams that are interrupted -/

/-- An audio stream that is muted for one packet. -/
def mutedOnce : List Command :=
  [.forward (smallPacket 100 false) 0, .mute true, .forward (smallPacket 101 false) 0,
    .mute false, .forward (smallPacket 102 false) 0]

/-- A video stream that is paused by allocation for one packet. -/
def pausedOnce : List Command :=
  pausedStream ++
    [.forward (smallPacket 101 false) 0, .allocate 1000 onePair,
      .forward (smallPacket 102 false) 0]

theorem mutedOnce_oneSource : OneSource none mutedOnce := by
  refine ⟨rfl, rfl, ?_, rfl, rfl, rfl, ?_, rfl, rfl, rfl, ?_, trivial⟩ <;> rintro _ ⟨⟩
  · exact ⟨rfl, rfl⟩
  · exact ⟨rfl, rfl⟩

theorem pausedOnce_oneSource : OneSource none pausedOnce := by
  refine ⟨rfl, rfl, rfl, rfl, ?_, rfl, rfl, rfl, ?_, rfl, rfl, rfl, ?_, trivial⟩ <;> rintro _ ⟨⟩
  · exact ⟨rfl, rfl⟩
  · exact ⟨rfl, rfl⟩

/-- The number of the packet that was left out stays a hole, whether the stream was muted or
paused. -/
theorem sentNumbers_hole :
    OneSource none mutedOnce ∧ OneSource none pausedOnce ∧
      (forCodec opusCodec .audio).sentNumbers mutedOnce = [100, 102] ∧
      (forCodec h264Codec .video).sentNumbers pausedOnce = [100, 102] ∧
      ¬Consecutive [100, 102] := by
  refine ⟨mutedOnce_oneSource, pausedOnce_oneSource, rfl, rfl, fun h => ?_⟩
  exact absurd (List.isChain_cons_cons.1 h).1 (by decide)

/-- The packet that was missed there. -/
theorem sendings_consecutive_iff_mutedOnce :
    OneSource none mutedOnce ∧
      (forCodec opusCodec .audio).sendings 0 mutedOnce = [⟨100, 0⟩, ⟨102, 1⟩] ∧
      ¬Consecutive ((forCodec opusCodec .audio).sentNumbers mutedOnce) := by
  have sendings : (forCodec opusCodec .audio).sendings 0 mutedOnce = [⟨100, 0⟩, ⟨102, 1⟩] := rfl
  refine ⟨mutedOnce_oneSource, sendings, fun h => ?_⟩
  have whole := (sendings_consecutive_iff _ mutedOnce mutedOnce_oneSource).2.2.1 h
  rw [sendings] at whole
  exact absurd (whole ⟨102, 1⟩ (List.mem_singleton_self _)) (by decide)

end Forwarder
end Simulcast
