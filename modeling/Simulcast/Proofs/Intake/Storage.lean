import Simulcast.Proofs.Intake.Queueing

/-!
# What an intake hands out again

An intake hands out the octets of a packet again that its ring finds under a number
(`handOut`, `stored_eq`). They are those of the packet that was stored last at the position of the
number, unless this position was skipped and its slot has a packet of an earlier cycle:
`stored_right_iff` says for rings and for intakes when they answer right, and what they answer
otherwise. `stored_earlierCycle` is a run that comes to that with two slots and four packets.
-/

namespace Simulcast

namespace Intake

open Filed PacketRing

variable {i : Intake} {past : List Deed} {format : PayloadFormat} {size : Nat}

/-- What a reader with so much room gets for a number, if a packet was found under it. -/
def handOut (number : UInt16) (room : Nat) : Option Octets → Except Fault Octets
  | none => .error (.packetNotFound number)
  | some raw => if room < raw.length then .error (.shortBuffer raw.length room) else .ok raw

theorem stored_eq (i : Intake) (number : UInt16) (room : Nat) :
    i.stored number room = handOut number room (i.ring.get? number) := by
  unfold stored handOut
  cases i.ring.get? number <;> rfl

/-- What was found is not taken for missing. -/
theorem handOut_some_ne (number : UInt16) (room : Nat) (raw : Octets) :
    handOut number room (some raw) ≠ handOut number room none := by
  unfold handOut
  dsimp only
  split <;> nofun

/-- What an intake hands out is right, unless there is something stale in the slot. -/
theorem Holds.stored_iff (h : Holds format size i past) (number : UInt16) (room : Nat) :
    i.stored number room =
        handOut number room ((lookUp size (taken format past) number).map fun e => e.item.raw) ↔
      ¬∃ e, Stale size (taken format past) number e := by
  rw [stored_eq]
  constructor
  · rintro right ⟨e, hs⟩
    rw [h.ring.get_of_stale hs, lookUp_eq_none_of_skipped hs.skipped] at right
    exact handOut_some_ne number room e.item.raw right
  · intro fresh
    rw [h.ring.get_of_fresh fresh]

/-- Whatever is added to a ring: under a number it has what was stored last at the position that the
number stands for, if that is among the newest ones, and nothing otherwise. This holds of just
those numbers that have nothing stale in their slot. For the others the position was skipped, and
what was stored in its slot last, under the same number, is found instead: it came in whole cycles
earlier, and the size of the ring divides these cycles. Just so with what an intake hands out,
whatever is done with it. -/
theorem stored_right_iff {α : Type} (capacity : Nat) (adds : List (UInt16 × α))
    (number : UInt16) :
    (((ofCapacity capacity).addAll adds).get? number =
        (lookUp (max capacity 1) (fileAll [] adds) number).map Filed.item ↔
      ¬∃ e, Stale (max capacity 1) (fileAll [] adds) number e) ∧
    (∀ e, Stale (max capacity 1) (fileAll [] adds) number e →
      ((ofCapacity capacity).addAll adds).get? number = some e.item ∧
      ∃ k : Nat, 0 < k ∧ e.position = meant (fileAll [] adds) number - k * 0x10000 ∧
        max capacity 1 ∣ k * 0x10000) ∧
    ∀ (ssrc : UInt32) (codec : Codec) (settings : IntakeSettings) (acts : List Act) (room : Nat),
      let (i, past) := (empty ssrc codec settings).run [] acts
      i.stored number room = handOut number room
          ((lookUp (max settings.capacity 1) (taken codec.format past) number).map
            fun e => e.item.raw) ↔
        ¬∃ e, Stale (max settings.capacity 1) (taken codec.format past) number e := by
  have filled : Filled id (max capacity 1) ((ofCapacity capacity).addAll adds) (fileAll [] adds) :=
    (filled_ofCapacity capacity).addAll adds
  refine ⟨⟨?_, filled.get_of_fresh⟩, fun e hs => ?_, fun ssrc codec settings acts room => ?_⟩
  · rintro right ⟨e, hs⟩
    rw [filled.get_of_stale hs, lookUp_eq_none_of_skipped hs.skipped] at right
    cases right
  · exact ⟨filled.get_of_stale hs, hs.behind filled.counted⟩
  · exact ((holds_empty ssrc codec settings).run acts).stored_iff number room

/-- Four numbers of a stream that jumps, and comes past its first number without using it again. -/
def skippedZero : List UInt16 := [0, 30001, 60001, 1]

/-- In a ring of two slots, the number that was skipped has the packet of the cycle before. -/
theorem stored_right_iff_skippedZero :
    let adds := skippedZero.map fun n => (n, numberedOctets n)
    Stale 2 (fileAll [] adds) 0 ⟨0, 0, numberedOctets 0⟩ ∧
      ((ofCapacity 2).addAll adds).get? 0 = some (numberedOctets 0) ∧
      ((ofCapacity 2).addAll adds).get? 0 ≠
        (lookUp 2 (fileAll [] adds) 0).map Filed.item := by
  intro adds
  have stale : Stale 2 (fileAll [] adds) 0 ⟨0, 0, numberedOctets 0⟩ :=
    ⟨by decide, by decide, rfl, rfl⟩
  obtain ⟨right, instead, -⟩ := stored_right_iff 2 adds 0
  exact ⟨stale, (instead _ stale).1, fun he => right.1 he ⟨_, stale⟩⟩

/-- An intake of two slots hands out the packet that came in at the position 0 for the one at the
position `0x10000`, which never came in. -/
theorem stored_earlierCycle :
    ∃ i past,
      (empty 0x457 {} { capacity := 2 }).run []
        (skippedZero.map fun n => .write 0 (numberedOctets n)) = (i, past) ∧
      (taken .other past).map Filed.position = [0x10001, 60001, 30001, 0] ∧
      meant (taken .other past) 0 = 0x10000 ∧ (lookUp 2 (taken .other past) 0).isNone = true ∧
      i.stored 0 1500 = .ok (numberedOctets 0) :=
  ⟨_, _, rfl, rfl, rfl, rfl, rfl⟩

end Intake

end Simulcast
