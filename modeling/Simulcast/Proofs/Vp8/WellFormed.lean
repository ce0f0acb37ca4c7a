import Simulcast.Proofs.Vp8.DescriptorCodec

/-!
# Well-formed descriptors

A descriptor is `WellFormed` if its values fit their bits, what it does not announce is zero, and
the highest bit of its first octet and its size are those that its parts ask for. What is written of
such a descriptor is read back as it is, but for the mark of a key frame, which is that of the frame
data (`WellFormed.asRead_eq`).

The descriptors of a subscriber's stream may have other values where they announce none, and the
highest bit of the first octet is left to the writer. They are well-formed in what they announce
(`announced_wellFormed`, `generate_wellFormed`, `describe_wellFormed`), and that is what is read back
of them (`write_read`).
-/

namespace Simulcast.Vp8

/-- To mark an octet that is marked, or to unmark one that is not, changes nothing. -/
theorem mark_eq_self (b : UInt8) :
    ((b &&& 0x80 != 0) = true → b ||| 0x80 = b) ∧ ((b &&& 0x80 != 0) = false → b &&& 0x7f = b) := by
  revert b
  exact forall_octet (by decide +kernel)

namespace Descriptor

/-- The octets that the parts take that are announced. -/
def impliedSize (d : Descriptor) : Nat :=
  if d.isExtended then 2 + d.pictureIdSize + d.tl0Size + d.layerSize else 1

/-- A descriptor as it should be. -/
structure WellFormed (d : Descriptor) : Prop where
  marked : (d.firstOctet &&& 0x80 != 0) = d.isExtended
  inRange : d.InRange
  noPictureId : d.hasPictureId = false → d.pictureId = 0 ∧ d.longPictureId = false
  noTl0PicIdx : d.hasTl0PicIdx = false → d.tl0PicIdx = 0
  noTid : d.hasTid = false → d.tid = 0 ∧ d.layerSync = 0
  noKeyIdx : d.hasKeyIdx = false → d.keyIdx = 0
  size : d.size = d.impliedSize

/-- What is announced of a descriptor: the other values are zero, and the highest bit of the first
octet tells whether there are any. -/
def announced (d : Descriptor) : Descriptor :=
  { d.asRead [] with size := d.size, keyFrame := d.keyFrame }

variable {d : Descriptor} {buffer body : Octets}

theorem impliedSize_eq (d : Descriptor) : d.impliedSize = d.encode.length := d.encode_length.symm

theorem impliedSize_le (d : Descriptor) : d.impliedSize ≤ 6 := by
  have pictureId : d.pictureIdSize ≤ 2 := by
    unfold pictureIdSize
    split
    · split <;> decide
    · decide
  have tl0 : d.tl0Size ≤ 1 := by
    unfold tl0Size
    split <;> decide
  have layer : d.layerSize ≤ 1 := by
    unfold layerSize
    split <;> decide
  unfold impliedSize
  split <;> omega

/-! ## What is announced -/

/-- To leave out what is not announced changes nothing of what is written. -/
theorem encode_announced (d : Descriptor) : d.announced.encode = d.encode := by
  have pictureId : d.announced.encodePictureId = d.encodePictureId := by
    cases hp : d.hasPictureId <;> simp [encodePictureId, announced, asRead, hp]
  have tl0 : d.announced.encodeTl0PicIdx = d.encodeTl0PicIdx := by
    cases ht : d.hasTl0PicIdx <;> simp [encodeTl0PicIdx, announced, asRead, ht]
  have layer : d.announced.encodeLayerOctet = d.encodeLayerOctet := by
    cases ht : d.hasTid <;> cases hk : d.hasKeyIdx <;>
      simp [encodeLayerOctet, announced, asRead, ht, hk]
  obtain ⟨-, -, marked⟩ := marked_bits d.firstOctet
  obtain ⟨-, -, unmarked⟩ := unmarked_bits d.firstOctet
  have first : d.announced.firstOctet =
      if d.isExtended then d.firstOctet ||| 0x80 else d.firstOctet &&& 0x7f := rfl
  have extended : d.announced.isExtended = d.isExtended := rfl
  have flags : d.announced.flags = d.flags := rfl
  unfold encode
  rw [extended, flags, pictureId, tl0, layer, first]
  cases d.isExtended with
  | true => simp only [if_true, (mark_eq_self _).1 marked]
  | false => simp only [Bool.false_eq_true, if_false, (mark_eq_self _).2 unmarked]

theorem announced_inRange (h : d.InRange) : d.announced.InRange := by
  simp only [announced, asRead]
  constructor
  · cases d.hasPictureId with
    | true => exact h.pictureId
    | false => exact (by decide : (0 : UInt16) < 0x80)
  · cases d.hasTid with
    | true => exact h.tid
    | false => exact (by decide : (0 : UInt8) < 4)
  · cases d.hasTid with
    | true => exact h.layerSync
    | false => exact (by decide : (0 : UInt8) < 2)
  · cases d.hasKeyIdx with
    | true => exact h.keyIdx
    | false => exact (by decide : (0 : UInt8) < 0x20)

/-- A descriptor whose values fit their bits, and whose size is that of its parts, is well-formed in
what it announces. -/
theorem announced_wellFormed (h : d.InRange) (hs : d.size = d.encode.length) :
    d.announced.WellFormed where
  marked := by
    change ((if d.isExtended then d.firstOctet ||| 0x80 else d.firstOctet &&& 0x7f) &&& 0x80 != 0) =
      d.isExtended
    cases d.isExtended with
    | true => exact (marked_bits d.firstOctet).2.2
    | false => exact (unmarked_bits d.firstOctet).2.2
  inRange := announced_inRange h
  noPictureId absent := ⟨if_neg (Bool.eq_false_iff.1 absent), if_neg (Bool.eq_false_iff.1 absent)⟩
  noTl0PicIdx absent := if_neg (Bool.eq_false_iff.1 absent)
  noTid absent := ⟨if_neg (Bool.eq_false_iff.1 absent), if_neg (Bool.eq_false_iff.1 absent)⟩
  noKeyIdx absent := if_neg (Bool.eq_false_iff.1 absent)
  size := by
    rw [impliedSize_eq, encode_announced]
    exact hs

/-- A well-formed descriptor is read back as it is. -/
theorem WellFormed.asRead_eq (h : d.WellFormed) (body : Octets) :
    d.asRead body = { d with keyFrame := startsKeyFrame d.firstOctet body } := by
  have first : (if d.isExtended then d.firstOctet ||| 0x80 else d.firstOctet &&& 0x7f) =
      d.firstOctet := by
    rw [← h.marked]
    cases hx : d.firstOctet &&& 0x80 != 0 with
    | true => exact (mark_eq_self _).1 hx
    | false => exact (mark_eq_self _).2 hx
  have pictureId : (if d.hasPictureId then d.pictureId else 0) = d.pictureId := by
    cases hp : d.hasPictureId with
    | true => rfl
    | false => exact (h.noPictureId hp).1.symm
  have long : (if d.hasPictureId then d.longPictureId else false) = d.longPictureId := by
    cases hp : d.hasPictureId with
    | true => rfl
    | false => exact (h.noPictureId hp).2.symm
  have tl0 : (if d.hasTl0PicIdx then d.tl0PicIdx else 0) = d.tl0PicIdx := by
    cases ht : d.hasTl0PicIdx with
    | true => rfl
    | false => exact (h.noTl0PicIdx ht).symm
  have tid : (if d.hasTid then d.tid else 0) = d.tid := by
    cases ht : d.hasTid with
    | true => rfl
    | false => exact (h.noTid ht).1.symm
  have sync : (if d.hasTid then d.layerSync else 0) = d.layerSync := by
    cases ht : d.hasTid with
    | true => rfl
    | false => exact (h.noTid ht).2.symm
  have keyIdx : (if d.hasKeyIdx then d.keyIdx else 0) = d.keyIdx := by
    cases hk : d.hasKeyIdx with
    | true => rfl
    | false => exact (h.noKeyIdx hk).symm
  have size : d.encode.length = d.size := (h.size.trans d.impliedSize_eq).symm
  simp only [asRead, first, pictureId, long, tl0, tid, sync, keyIdx, size]

theorem WellFormed.announced_eq (h : d.WellFormed) : d.announced = d := by
  rw [announced, h.asRead_eq]

/-! ## Writing and reading -/

theorem startsKeyFrame_iff {b : UInt8} :
    startsKeyFrame b body = true ↔
      b &&& 0x10 ≠ 0 ∧ b &&& 0x07 = 0 ∧ ∃ first rest, body = first :: rest ∧ first &&& 1 = 0 := by
  unfold startsKeyFrame
  rw [Bool.and_eq_true, Bool.and_eq_true, bne_iff_ne, beq_iff_eq, and_assoc]
  refine and_congr_right fun _ => and_congr_right fun _ => ?_
  cases body with
  | nil => simp
  | cons first rest => simp

theorem startsKeyFrame_announced (d : Descriptor) (body : Octets) :
    startsKeyFrame d.announced.firstOctet body = startsKeyFrame d.firstOctet body := by
  have first : d.announced.firstOctet =
      if d.isExtended then d.firstOctet ||| 0x80 else d.firstOctet &&& 0x7f := rfl
  obtain ⟨start, partition, -⟩ := marked_bits d.firstOctet
  obtain ⟨start', partition', -⟩ := unmarked_bits d.firstOctet
  rw [first]
  cases d.isExtended with
  | true => exact startsKeyFrame_congr start partition body
  | false => exact startsKeyFrame_congr start' partition' body

/-- A descriptor fills a buffer of its size. -/
theorem writeInto_of_length (hs : d.size = d.encode.length) (hb : buffer.length = d.size) :
    d.writeInto buffer = .ok (d.size, d.encode) := by
  have full : buffer.drop d.encode.length = [] := List.drop_of_length_le (by omega)
  have fits : ¬buffer.length < d.size := by omega
  rw [hs] at fits ⊢
  rw [writeInto, hs, if_neg fits]
  simp only [if_neg fits, full, List.append_nil]

/-- What is well-formed in what it announces is written, and read back as that. -/
theorem write_read (h : d.announced.WellFormed) (hb : buffer.length = d.size) (body : Octets) :
    d.writeInto buffer = .ok (d.size, d.encode) ∧ d.encode.length = d.size ∧
      parse (d.encode ++ body) =
        .ok { d.announced with keyFrame := startsKeyFrame d.firstOctet body } := by
  have hs : d.size = d.encode.length := by
    rw [← encode_announced, ← impliedSize_eq]
    exact h.size
  refine ⟨writeInto_of_length hs hb, hs.symm, ?_⟩
  rw [parse, ← encode_announced, split_encode h.inRange, h.asRead_eq, startsKeyFrame_announced]
  rfl

end Descriptor

/-! ## Descriptors of a subscriber's stream -/

namespace PictureNumbering

variable {n : PictureNumbering} {d out : Descriptor} {a : Arrival} {standing : Standing}
  {maxTemporal : Int}

/-- The values of a generated descriptor fit their bits. -/
theorem generatedDescriptor_inRange
    (keyIdx : n.usesKeyIdx = true → n.lastKeyIdx < 0x20) : n.generatedDescriptor.InRange where
  pictureId := by
    unfold generatedDescriptor
    cases n.usesPictureId with
    | true => exact idOf_inRange n.lastPicture.toInt
    | false => exact (by decide : (0 : UInt16) < 0x80)
  tid := (by decide : (0 : UInt8) < 4)
  layerSync := (by decide : (1 : UInt8) < 2)
  keyIdx := by
    unfold generatedDescriptor
    cases hk : n.usesKeyIdx with
    | true => exact keyIdx hk
    | false => exact (by decide : (0 : UInt8) < 0x20)

theorem generatedSize_eq (n : PictureNumbering) (long : Bool) :
    n.generatedSize long =
      if n.usesPictureId || n.usesTl0 || n.usesTid || n.usesKeyIdx then
        2 + (if n.usesPictureId then if long then 2 else 1 else 0) + (if n.usesTl0 then 1 else 0) +
          (if n.usesTid || n.usesKeyIdx then 1 else 0)
      else 1 := by
  unfold generatedSize
  cases n.usesPictureId <;> cases n.usesTl0 <;> cases n.usesTid <;> cases n.usesKeyIdx <;> rfl

/-- A generated descriptor announces the size of its parts. -/
theorem generatedDescriptor_size (n : PictureNumbering) :
    n.generatedDescriptor.size = n.generatedDescriptor.impliedSize :=
  n.generatedSize_eq n.generatedDescriptor.longPictureId

/-- A generated descriptor is well-formed in what it announces. -/
theorem generate_wellFormed (n : PictureNumbering) (newPicture : Bool) :
    (n.generate newPicture).2.announced.WellFormed := by
  -- The step to the picture masks the index of the key frame, if there is one.
  have keyIdx : (n.stepGenerated newPicture).usesKeyIdx = true →
      (n.stepGenerated newPicture).lastKeyIdx < 0x20 := by
    intro uses
    change n.usesKeyIdx = true at uses
    simp only [stepGenerated, uses, if_true]
    exact keyIdxMask_inRange _
  have size := generatedDescriptor_size (n.stepGenerated newPicture)
  rw [Descriptor.impliedSize_eq] at size
  exact Descriptor.announced_wellFormed (generatedDescriptor_inRange keyIdx) size

/-- What a well-formed descriptor becomes is well-formed in what it announces. -/
theorem describe_wellFormed (ho : (n.describe a standing maxTemporal).2 = .ok out)
    (hv : a.vp8 = some d) (h : d.WellFormed) : out.announced.WellFormed := by
  obtain ⟨m, number, rfl⟩ := describe_ok ho hv
  have size : d.size = d.encode.length + 0 := h.size.trans d.impliedSize_eq
  have small : d.size ≤ 6 := h.size ▸ d.impliedSize_le
  exact Descriptor.announced_wellFormed (renumber_inRange m number h.inRange)
    (renumber_size m number size small)

end PictureNumbering

/-- A well-formed descriptor fills a buffer of its size, and is read back in front of any frame data
as it is; only the mark of a key frame is that of the frame data. The descriptors that are generated
for a subscriber, and those that well-formed ones become, are well-formed in what they
announce. -/
theorem wellFormed_written_read :
    (∀ d : Descriptor, d.WellFormed → ∀ buffer body : Octets, buffer.length = d.size →
      ∃ bs keyFrame, d.writeInto buffer = .ok (d.size, bs) ∧ bs.length = d.size ∧
        Descriptor.parse (bs ++ body) = .ok { d with keyFrame } ∧
        (keyFrame = true ↔ d.firstOctet &&& 0x10 ≠ 0 ∧ d.firstOctet &&& 0x07 = 0 ∧
          ∃ first rest, body = first :: rest ∧ first &&& 1 = 0)) ∧
      (∀ (n : PictureNumbering) (newPicture : Bool),
        (n.generate newPicture).2.announced.WellFormed) ∧
      ∀ (n : PictureNumbering) (a : Arrival) (standing : Standing) (maxTemporal : Int)
        (d out : Descriptor), a.vp8 = some d → d.WellFormed →
        (n.describe a standing maxTemporal).2 = .ok out → out.announced.WellFormed := by
  refine ⟨fun d h buffer body hb => ?_, PictureNumbering.generate_wellFormed,
    fun n a standing maxTemporal d out hv h ho => PictureNumbering.describe_wellFormed ho hv h⟩
  have same : d.announced = d := h.announced_eq
  obtain ⟨written, length, read⟩ := Descriptor.write_read (same.symm ▸ h) hb body
  rw [same] at read
  exact ⟨d.encode, _, written, length, read, Descriptor.startsKeyFrame_iff⟩

/-- A descriptor with every part, of the start of a partition. -/
def fullDescriptor : Descriptor :=
  { firstOctet := 0x90, hasPictureId := true, pictureId := 200, longPictureId := true
    hasTl0PicIdx := true, tl0PicIdx := 7, hasTid := true, tid := 2, layerSync := 1
    hasKeyIdx := true, keyIdx := 5, size := 6 }

def fullArrival : Arrival :=
  { head := true, time := 0, packet := { header := {}, payload := [] }, vp8 := some fullDescriptor }

/-- A numbering that takes 100 pictures off. -/
def takesOff : PictureNumbering :=
  { clock := { newest := 199, long := true }, usesPictureId := true, pictureOffset := 100 }

/-- In front of the frame data of a key frame, every part is read back. When its picture gets an id
of seven bits, the descriptor is shorter by one octet. -/
theorem wellFormed_written_read_full :
    fullDescriptor.WellFormed ∧
      (∃ bs, fullDescriptor.writeInto (Octets.zeros 6) = .ok (6, bs) ∧
        Descriptor.parse (bs ++ [0x02]) = .ok { fullDescriptor with keyFrame := true }) ∧
      ∃ out, (takesOff.describe fullArrival .contiguous 2).2 = .ok out ∧ out.pictureId = 100 ∧
        out.size = 5 ∧ out.announced.WellFormed := by
  have full : fullDescriptor.WellFormed :=
    ⟨rfl, ⟨by decide, by decide, by decide, by decide⟩, nofun, nofun, nofun, nofun, rfl⟩
  obtain ⟨back, -, described⟩ := wellFormed_written_read
  refine ⟨full, ?_, _, rfl, rfl, rfl,
    described takesOff fullArrival .contiguous 2 fullDescriptor _ rfl full rfl⟩
  obtain ⟨bs, keyFrame, written, -, read, starts⟩ :=
    back fullDescriptor full (Octets.zeros 6) [0x02] rfl
  have key : keyFrame = true := starts.2 ⟨by decide, by decide, 0x02, [], rfl, by decide⟩
  exact ⟨bs, written, key ▸ read⟩

end Simulcast.Vp8
