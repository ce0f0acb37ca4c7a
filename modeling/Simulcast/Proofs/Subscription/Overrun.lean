import Simulcast.Proofs.Forwarding.Failure
import Simulcast.Proofs.Subscription.Act
import Simulcast.Proofs.Vp8.DescriptorCodec

/-!
# Runs in which no buffer runs over

A run stops when something runs over the end of a buffer. That does not happen with packets as an
intake reads them (`payloadFor_readAs`), nor with blank frames (`writeBlankFrames_fits`), so that the
acts of a subscription all come through, unless the octets of a compound cannot be walked through
(`run_comesThrough`).
-/

namespace Simulcast

namespace Forwarder

variable {f : Forwarder} {a : Arrival} {layer : Int} {d d' : Decision} {outgoing : Vp8.Descriptor}

theorem described_placePacket (hd : d.descriptor = none) (h : (f.placePacket a d).2 = .ok d')
    (ho : d'.descriptor = some outgoing) :
    ∃ (p : Vp8.PictureNumbering) (standing : Standing) (maxTemporal : Int),
      (p.describe a standing maxTemporal).2 = .ok outgoing := by
  have undescribed : d.descriptor ≠ some outgoing := by
    rw [hd]
    exact (Option.some_ne_none outgoing).symm
  cases hr : ((f.takeUp a).numbering.place a).2 with
  | error e =>
    rw [placePacket_of_error (Prod.ext rfl hr)] at h
    unfold leaveOutOr at h
    split at h <;> cases h
    exact absurd ho undescribed
  | ok place =>
    cases hp : (f.takeUp a).pictures with
    | none =>
      rw [placePacket_plain (Prod.ext rfl hr) hp] at h
      cases h
      exact absurd ho undescribed
    | some pics =>
      rw [placePacket_of_ok (Prod.ext rfl hr) hp] at h
      unfold describePicture at h
      dsimp only at h
      split at h
      · rename_i descriptor hdesc
        cases h
        cases ho
        exact ⟨_, _, _, hdesc⟩
      · cases h
        exact absurd ho undescribed
      · cases h
        exact absurd ho undescribed
      · cases h

/-- A packet gets its descriptor from the numbering of pictures. -/
theorem described_forward (h : (f.forward a layer).2 = .ok d) (ho : d.descriptor = some outgoing) :
    ∃ (p : Vp8.PictureNumbering) (standing : Standing) (maxTemporal : Int),
      (p.describe a standing maxTemporal).2 = .ok outgoing := by
  unfold forward at h
  split at h
  · cases h
    cases ho
  · split at h
    · unfold forwardAudio at h
      dsimp only at h
      split at h
      · cases h
        cases ho
      · unfold leaveOutOr at h
        split at h <;> cases h
        cases ho
    · unfold forwardVideo at h
      split at h
      · cases h
        cases ho
      · dsimp only at h
        split at h
        · exact described_placePacket rfl h ho
        · cases h
          cases ho

end Forwarder

namespace Subscription

variable {s s' : Subscription} {b : Binding} {x : Arrival} {layer : Int} {d : Decision}
  {format : PayloadFormat} {as : List Act}

/-- A payload can be written for every packet as an intake reads it. -/
theorem payloadFor_readAs (hr : x.ReadAs format) {f : Forwarder}
    (hd : (f.forward x layer).2 = .ok d) : ∃ payload, payloadFor x d = .ok payload := by
  unfold payloadFor
  cases ho : d.descriptor with
  | none => exact ⟨_, rfl⟩
  | some outgoing =>
    cases hv : x.vp8 with
    | none => exact ⟨_, rfl⟩
    | some incoming =>
      obtain ⟨p, standing, maxTemporal, described⟩ := Forwarder.described_forward hd ho
      obtain ⟨m, number, rfl⟩ := Vp8.PictureNumbering.describe_ok described hv
      obtain ⟨fits, size, six⟩ := Vp8.Descriptor.parse_fits (hr.parsed hv)
      obtain ⟨fits', seven⟩ := Vp8.PictureNumbering.renumber_fits m number fits six
      have small : (m.renumber incoming number).size < Vp8.sizeLimit :=
        Nat.lt_of_le_of_lt seven (by decide)
      exact Vp8.replaceDescriptor_of_fits size fits' small

theorem carryOut_comesThrough (hl : ∃ payload, payloadFor x d = .ok payload) :
    ∃ out, s.carryOut b x layer d = .ok out := by
  obtain ⟨payload, hl⟩ := hl
  unfold carryOut
  split
  · rename_i place _ _
    unfold sendMedia
    rw [hl]
    exact ⟨_, rfl⟩
  · exact ⟨_, rfl⟩

theorem write_comesThrough (hr : x.ReadAs format) (s : Subscription) (now : Moment) (layer : Int) :
    ∃ out, s.write now x layer = .ok out := by
  unfold write
  dsimp only
  split
  · exact ⟨_, rfl⟩
  · split
    · exact ⟨_, rfl⟩
    · rename_i d hd
      obtain ⟨out, ho⟩ := carryOut_comesThrough (payloadFor_readAs hr hd)
      exact ⟨_, map_eq_ok.2 ⟨out, ho, rfl⟩⟩

/-- A blank frame fits its buffer. -/
theorem blankPayload_fits (s : Subscription) (format : PayloadFormat) (endsFrame : Bool) :
    (s.blankPayload format endsFrame).2 ≠ .error .overrun := by
  unfold blankPayload Forwarder.blankDescriptor
  split
  · cases hp : s.forwarder.pictures with
    | none => simp
    | some p =>
      have fits := Vp8.PictureNumbering.generate_fits p (!endsFrame)
      simp [Vp8.Descriptor.writeInto_of_fits fits, Except.map]
  · simp

theorem sendBlankFrames_fits (s : Subscription) (b : Binding) (places : List Place) (endsFrame : Bool) :
    (sendBlankFrames b s places endsFrame).2 ≠ .error .overrun := by
  induction places generalizing s endsFrame with
  | nil => simp [sendBlankFrames]
  | cons place places ih =>
    unfold sendBlankFrames
    dsimp only
    split
    · rename_i e he
      intro h
      cases h
      exact blankPayload_fits s b.format endsFrame he
    · exact ih _ false

theorem writeBlankFrames_fits (s : Subscription) : s.writeBlankFrames.2 ≠ .error .overrun := by
  unfold writeBlankFrames
  split
  · simp
  · split
    · simp
    · dsimp only
      split
      · simp
      · intro h
        cases hr : (sendBlankFrames _ _ _ _).2 with
        | ok u =>
          rw [hr] at h
          cases h
        | error e =>
          rw [hr] at h
          cases h
          exact sendBlankFrames_fits _ _ _ _ hr

/-- A packet comes as an intake reads it, and the octets of a compound can be walked through. -/
def Act.Readable : Act → Prop
  | .command _ _ _ (.write x _) => ∃ format, x.ReadAs format
  | .command _ _ _ (.rtcp raw) => Rtcp.parseCompound raw ≠ .error .overrun
  | _ => True

theorem perform_comesThrough {v : PublisherView} {brs : Bitrates} {now : Moment}
    {c : SubscriptionCommand} (hc : (Act.command v brs now c).Readable) (s : Subscription) :
    ∃ out, s.perform v brs now c = .ok out := by
  cases c with
  | write x layer =>
    obtain ⟨format, hr⟩ := hc
    obtain ⟨out, ho⟩ := write_comesThrough hr s now layer
    exact ⟨_, map_eq_ok.2 ⟨out, ho, rfl⟩⟩
  | blankFrames =>
    have fits := s.writeBlankFrames_fits
    simp only [perform]
    split
    · exact ⟨_, rfl⟩
    · exact ⟨_, rfl⟩
    · rename_i h
      exact absurd h fits
  | rtcp raw =>
    have walked : Rtcp.parseCompound raw ≠ .error .overrun := hc
    simp only [perform, handleRtcp]
    split
    · exact ⟨_, rfl⟩
    · exact ⟨_, rfl⟩
    · rename_i h
      exact absurd h walked
  | _ => exact ⟨_, rfl⟩

/-- Nothing overruns a payload as long as the packets that come can be read. -/
theorem undergo_comesThrough {a : Act} (ha : a.Readable) (s : Subscription) :
    ∃ out, s.undergo a = .ok out := by
  cases a with
  | command v brs now c =>
    obtain ⟨out, ho⟩ := perform_comesThrough ha s
    exact ⟨_, map_eq_ok.2 ⟨out, ho, rfl⟩⟩
  | copies v => exact ⟨_, rfl⟩
  | work unixNanos link =>
    obtain ⟨s', es, h, -⟩ := s.undergo_work unixNanos link
    exact ⟨_, h⟩

theorem run_comesThrough (ha : ∀ a ∈ as, a.Readable) (s : Subscription) :
    ∃ s' log, s.run as = .ok (s', log) := by
  induction as generalizing s with
  | nil => exact ⟨s, [], rfl⟩
  | cons a as ih =>
    obtain ⟨⟨t, first⟩, ht⟩ := undergo_comesThrough (ha a List.mem_cons_self) s
    obtain ⟨s', later, hs'⟩ := ih (fun a' ha' => ha a' (List.mem_cons_of_mem a ha')) t
    exact ⟨s', first ++ later, run_cons_eq_ok.2 ⟨t, first, later, ht, hs', rfl⟩⟩

end Subscription
end Simulcast
