import Simulcast.Intake.Basic
import Mathlib.Tactic.Common

/-!
# Packets as an intake reads them

What a forwarder gets was read off the octets of a packet: its descriptor and whether it
starts a key frame are those of its payload (`Arrival.ReadAs`). Every packet that an intake
queues is of this kind, in whatever order the octets came in (`readAs_of_mem_receive`). In a
stream of VP8, the packets with a descriptor are those with media (`ReadAs.vp8_isSome`).
-/

namespace Simulcast

/-- What comes of two steps comes of the second, after what came of the first. -/
theorem bind_eq_ok {ε α β : Type} {x : Except ε α} {f : α → Except ε β} {b : β} :
    x >>= f = .ok b ↔ ∃ a, x = .ok a ∧ f a = .ok b := by
  cases x with
  | error e => exact iff_of_false (fun h => by cases h) fun ⟨a, h, _⟩ => by cases h
  | ok a => exact ⟨fun h => ⟨a, rfl, h⟩, fun ⟨a', h, h'⟩ => by cases h; exact h'⟩

/-- What comes of a step that is passed on changed. -/
theorem map_eq_ok {ε α β : Type} {x : Except ε α} {f : α → β} {b : β} :
    x.map f = .ok b ↔ ∃ a, x = .ok a ∧ f a = b := by
  cases x with
  | error e => exact iff_of_false (fun h => by cases h) fun ⟨a, h, _⟩ => by cases h
  | ok a =>
    refine ⟨fun h => ⟨a, rfl, Except.ok.inj h⟩, fun ⟨a', h, h'⟩ => ?_⟩
    cases h
    exact congrArg _ h'

namespace Arrival

/-- The packet was read off its octets, as one of a payload format. -/
def ReadAs (a : Arrival) (format : PayloadFormat) : Prop :=
  Intake.readArrival format a.time a.raw = .ok { a with head := false }

end Arrival

namespace Intake

variable {format : PayloadFormat} {now : Time} {raw payload : Octets} {a : Arrival}
  {vp8 : Option Vp8.Descriptor} {d : Vp8.Descriptor}

/-- A descriptor is read off the payload. -/
theorem parse_of_descriptorOf (h : descriptorOf format payload = .ok (some d)) :
    Vp8.Descriptor.parse payload = .ok d := by
  unfold descriptorOf at h
  split at h
  · cases hp : Vp8.Descriptor.parse payload with
    | error t => rw [hp] at h; cases h
    | ok read =>
      rw [hp] at h
      cases h
      rfl
  · cases h

/-- In a stream of VP8 there is a descriptor wherever there is media. -/
theorem isSome_of_descriptorOf (h : descriptorOf .vp8 payload = .ok vp8) :
    vp8.isSome = !payload.isEmpty := by
  unfold descriptorOf at h
  cases payload with
  | nil =>
    rw [if_neg fun h => h.2 rfl] at h
    cases h
    rfl
  | cons b bs =>
    rw [if_pos ⟨rfl, List.cons_ne_nil b bs⟩] at h
    split at h <;> cases h
    rfl

/-- Where a key frame starts there is media. -/
theorem media_of_isKeyFrame (h : descriptorOf format payload = .ok vp8)
    (hk : isKeyFrame format vp8 payload = true) : payload.isEmpty = false := by
  cases payload with
  | cons b bs => rfl
  | nil =>
    -- An empty payload holds neither a descriptor nor a unit of its own.
    rw [descriptorOf, if_neg fun h => h.2 rfl] at h
    rw [← Except.ok.inj h] at hk
    cases format <;> cases hk

/-- A packet is read with what its payload says. -/
theorem readArrival_eq_ok :
    readArrival format now raw = .ok a ↔
      Rtp.Packet.parse raw = .ok a.packet ∧
        descriptorOf format a.packet.payload = .ok a.vp8 ∧
        a.keyFrame = isKeyFrame format a.vp8 a.packet.payload ∧
        a.head = false ∧ a.time = now ∧ a.raw = raw := by
  unfold readArrival
  constructor
  · intro h
    obtain ⟨packet, hp, h⟩ := bind_eq_ok.1 h
    obtain ⟨vp8, hd, h⟩ := bind_eq_ok.1 h
    cases h
    exact ⟨hp, hd, rfl, rfl, rfl, rfl⟩
  · rintro ⟨hp, hd, key, head, rfl, rfl⟩
    refine bind_eq_ok.2 ⟨a.packet, hp, bind_eq_ok.2 ⟨a.vp8, hd, ?_⟩⟩
    rw [← key, ← head]
    rfl

end Intake

namespace Arrival

variable {a : Arrival} {format : PayloadFormat}

theorem readAs_iff :
    a.ReadAs format ↔
      Rtp.Packet.parse a.raw = .ok a.packet ∧
        Intake.descriptorOf format a.packet.payload = .ok a.vp8 ∧
        a.keyFrame = Intake.isKeyFrame format a.vp8 a.packet.payload := by
  rw [ReadAs, Intake.readArrival_eq_ok]
  simp only [and_true]

/-- In a stream of VP8, a packet has a descriptor if and only if it carries media. -/
theorem ReadAs.vp8_isSome (h : a.ReadAs .vp8) : a.vp8.isSome = a.carriesMedia :=
  Intake.isSome_of_descriptorOf (readAs_iff.1 h).2.1

/-- The descriptor of a packet is that of its payload. -/
theorem ReadAs.parsed {d : Vp8.Descriptor} (h : a.ReadAs format) (hv : a.vp8 = some d) :
    Vp8.Descriptor.parse a.packet.payload = .ok d :=
  Intake.parse_of_descriptorOf (hv ▸ (readAs_iff.1 h).2.1)

/-- In any other stream no packet has one. -/
theorem ReadAs.vp8_eq_none (h : a.ReadAs format) (hf : format ≠ .vp8) : a.vp8 = none := by
  obtain ⟨-, hd, -⟩ := readAs_iff.1 h
  rw [Intake.descriptorOf, if_neg fun h => hf h.1] at hd
  exact (Except.ok.inj hd).symm

/-- A packet that starts a key frame carries media. -/
theorem ReadAs.carriesMedia (h : a.ReadAs format) (hk : a.keyFrame = true) :
    a.carriesMedia = true := by
  obtain ⟨-, hd, key⟩ := readAs_iff.1 h
  rw [Arrival.carriesMedia, Intake.media_of_isKeyFrame hd (key.symm.trans hk)]
  rfl

end Arrival

namespace Intake

variable {i : Intake} {a b : Arrival}

/-- The intake after octets came in. What cannot be read changes nothing. -/
def takeIn (i : Intake) (now : Time) (raw : Octets) : Intake :=
  match i.write now raw with
  | .ok i' => i'
  | .error _ => i

/-- The intake after octets came in at some times, one after the other. -/
def receive (i : Intake) (bs : List (Time × Octets)) : Intake :=
  bs.foldl (fun i b => i.takeIn b.1 b.2) i

theorem mem_accept (h : a ∈ (i.accept b).queue) : a ∈ i.queue ∨ ∃ head, a = { b with head } := by
  unfold accept at h
  split at h
  · exact .inl h
  · rcases List.mem_append.1 h with h | h
    · exact .inl h
    · exact .inr ⟨_, List.mem_singleton.1 h⟩

theorem codec_accept (i : Intake) (b : Arrival) : (i.accept b).codec = i.codec := by
  unfold accept
  split <;> rfl

theorem takeIn_eq (i : Intake) (now : Time) (raw : Octets) :
    i.takeIn now raw = i ∨
      ∃ b, readArrival i.codec.format now raw = .ok b ∧ i.takeIn now raw = i.accept b := by
  unfold takeIn write
  cases readArrival i.codec.format now raw with
  | error e => exact .inl rfl
  | ok b => exact .inr ⟨b, rfl, rfl⟩

/-- Every packet that is queued was read as one of the intake's format. -/
theorem readAs_of_mem_receive (bs : List (Time × Octets))
    (hi : ∀ a ∈ i.queue, a.ReadAs i.codec.format) :
    ∀ a ∈ (i.receive bs).queue, a.ReadAs i.codec.format := by
  induction bs generalizing i with
  | nil => exact hi
  | cons b bs ih =>
    change ∀ a ∈ ((i.takeIn b.1 b.2).receive bs).queue, a.ReadAs i.codec.format
    rcases takeIn_eq i b.1 b.2 with same | ⟨read, hr, taken⟩
    · rw [same]
      exact ih hi
    · rw [taken, ← codec_accept i read]
      refine ih fun a ha => ?_
      rw [codec_accept]
      rcases mem_accept ha with ha | ⟨head, rfl⟩
      · exact hi a ha
      · obtain ⟨hp, hd, hk, -, ht, ho⟩ := readArrival_eq_ok.1 hr
        exact Arrival.readAs_iff.2 ⟨by rw [← ho] at hp; exact hp, hd, hk⟩

/-- The octets of a packet: what its first one says, its number, and what stands behind the
header. -/
def packetOctets (first number : UInt8) (rest : Octets) : Octets :=
  [first, 0x60, 0, number, 0, 0, 0, 0, 0, 0, 4, 0x57] ++ rest

end Intake

end Simulcast
