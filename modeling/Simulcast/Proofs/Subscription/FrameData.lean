import Simulcast.Subscription.Basic
import Simulcast.Proofs.Vp8.DescriptorCodec

/-!
# The frame data of a rewritten payload

A subscriber gets a VP8 packet with another descriptor in front of its frame data.
`payloadFor_keeps_frame_iff` says that a payload can always be written and read again, and
that the frame data and the key frame bit come through unless the packet's own descriptor
is a bare one. That one is announced with its octet of flags but written without it;
`payloadFor_shifts_frame` shows the zero that is left in front of the frame data.
-/

namespace Simulcast.Subscription

open Vp8

variable {a : Arrival} {incoming outgoing : Descriptor} {standing : Standing} {maxTemporal : Int}
  {d : Decision}

/-- What is written for a packet that got a descriptor can be read again. The frame data and
the key frame bit are its own, unless its descriptor has an extension that announces
nothing. -/
theorem payloadFor_keeps_frame_iff (n : PictureNumbering)
    (hp : Descriptor.parse a.packet.payload = .ok incoming) (hv : a.vp8 = some incoming)
    (ho : (n.describe a standing maxTemporal).2 = .ok outgoing)
    (hd : d.descriptor = some outgoing) :
    ∃ written after, payloadFor a d = .ok written ∧ Descriptor.parse written = .ok after ∧
      ((written.drop after.size = a.packet.payload.drop incoming.size ∧
        after.keyFrame = incoming.keyFrame) ↔ ¬incoming.Bare) := by
  obtain ⟨body, hs⟩ := Descriptor.parse_eq_ok.1 hp
  have read := Descriptor.split_readFrom hs
  obtain ⟨-, -, six⟩ := Descriptor.parse_fits hp
  obtain ⟨m, number, rfl⟩ := PictureNumbering.describe_ok ho hv
  have small : (m.renumber incoming number).size < sizeLimit := by
    have fits := (PictureNumbering.renumber_fits m number (Descriptor.parse_fits hp).1 six).2
    exact Nat.lt_of_le_of_lt fits (by decide)
  obtain ⟨written, hw, hsplit⟩ := replaceDescriptor_split read.size_le
    (PictureNumbering.renumber_inRange m number read.inRange)
    (PictureNumbering.renumber_size m number read.size six) small
  have after := Descriptor.split_readFrom hsplit
  have payload : payloadFor a d = .ok written := by
    rw [payloadFor, hd, hv]
    exact hw
  refine ⟨written, _, payload, Descriptor.parse_eq_ok.2 ⟨_, hsplit⟩, ?_⟩
  rw [← after.rest, ← read.rest]
  by_cases hb : incoming.Bare
  · -- One zero stays in front of the frame data, so that it is longer.
    rw [if_pos hb]
    refine iff_of_false (fun h => ?_) fun h => h hb
    have length := congrArg List.length h.1
    simp only [Octets.zeros, List.length_append, List.length_replicate] at length
    omega
  · rw [if_neg hb, read.keyFrame]
    refine iff_of_true ⟨rfl, ?_⟩ hb
    show Descriptor.startsKeyFrame (m.renumber incoming number).firstOctet body = _
    rw [PictureNumbering.renumber_firstOctet]

/-- A packet inside a picture, whose descriptor has a bare extension. -/
def bareArrival : Arrival where
  head := true
  time := 0
  packet := { header := { number := 100, timestamp := 9000, ssrc := 1111 }
              payload := [0x90, 0x00, 0x01, 0xaa] }
  vp8 := some { firstOctet := 0x90, size := 2 }

/-- The numbering that starts with that packet. -/
def bareStart : PictureNumbering := ({} : PictureNumbering).start bareArrival

/-- The octet of flags is left out of the descriptor and a zero put behind it: the frame
data starts one octet late, and reads as that of a key frame. -/
theorem payloadFor_shifts_frame :
    ∃ incoming outgoing written after,
      Descriptor.parse bareArrival.packet.payload = .ok incoming ∧
      bareArrival.vp8 = some incoming ∧
      (bareStart.describe bareArrival .contiguous 3).2 = .ok outgoing ∧
      payloadFor bareArrival { descriptor := some outgoing } = .ok written ∧
      Descriptor.parse written = .ok after ∧
      bareArrival.packet.payload.drop incoming.size = [0x01, 0xaa] ∧ incoming.keyFrame = false ∧
      written.drop after.size = [0x00, 0x01, 0xaa] ∧ after.keyFrame = true :=
  ⟨_, _, _, _, rfl, rfl, rfl, rfl, rfl, rfl, rfl, rfl, rfl⟩

/-- The condition missed by that packet. -/
theorem payloadFor_keeps_frame_iff_bareArrival :
    ∃ incoming outgoing,
      Descriptor.parse bareArrival.packet.payload = .ok incoming ∧
      (bareStart.describe bareArrival .contiguous 3).2 = .ok outgoing ∧
      incoming.Bare ∧ ∃ written after,
        payloadFor bareArrival { descriptor := some outgoing } = .ok written ∧
          Descriptor.parse written = .ok after ∧
          ¬(written.drop after.size = bareArrival.packet.payload.drop incoming.size ∧
            after.keyFrame = incoming.keyFrame) := by
  let d : Descriptor := { firstOctet := 0x90, size := 2 }
  have bare : d.Bare := by decide
  have read : Descriptor.parse bareArrival.packet.payload = .ok d := rfl
  have described : (bareStart.describe bareArrival .contiguous 3).2 = .ok d := rfl
  have chosen : ({ descriptor := some d } : Decision).descriptor = some d := rfl
  obtain ⟨written, after, hw, hp, keeps⟩ :=
    payloadFor_keeps_frame_iff bareStart read rfl described chosen
  exact ⟨d, d, read, described, bare, written, after, hw, hp, fun h => keeps.1 h bare⟩

end Simulcast.Subscription
