import Simulcast.Proofs.Vp8.DescriptorSize

/-!
# Descriptors read back

What is written of a descriptor whose values fit their bits (`Descriptor.InRange`) is read
back from the front of any frame data:

* `split_encode`: reading undoes writing, part by part (`readPictureId_encode`,
  `readTl0PicIdx_encode`, `readLayerOctet_encode`);
* `split_readFrom`: what was read is in range, the frame data is the rest of the payload,
  and the announced size is that of the parts, unless the extension is a bare one that
  announces none (`Descriptor.Bare`);
* `renumber_inRange`, `renumber_size`: both stay so when a picture gets another number;
* `replaceDescriptor_split`: what is read of a payload whose descriptor was replaced.
-/

namespace Simulcast.Vp8

/-! ## Bits of an octet -/

/-- What holds of each of the 256 octets. -/
theorem forall_octet {P : UInt8 → Prop} (h : ∀ i : Fin 256, P (UInt8.ofNat i)) (b : UInt8) :
    P b := by
  have hb : P (UInt8.ofNat b.toNat) := h ⟨b.toNat, b.toNat_lt⟩
  rwa [UInt8.ofNat_toNat] at hb

/-- The highest bit of an octet. -/
theorem high_bit_iff (b : UInt8) : (b &&& 0x80 != 0) = true ↔ 0x80 ≤ b.toNat := by
  revert b
  exact forall_octet (by decide +kernel)

theorem toNat_low_bits (b : UInt8) : (b &&& 0x7f).toNat = b.toNat % 0x80 := by
  rw [UInt8.toNat_and]
  exact Nat.and_two_pow_sub_one_eq_mod b.toNat 7

/-- To mark a first octet changes nothing but its highest bit. -/
theorem marked_bits (b : UInt8) :
    (b ||| 0x80) &&& 0x10 = b &&& 0x10 ∧ (b ||| 0x80) &&& 0x07 = b &&& 0x07 ∧
      ((b ||| 0x80) &&& 0x80 != 0) = true := by
  revert b
  exact forall_octet (by decide +kernel)

theorem unmarked_bits (b : UInt8) :
    (b &&& 0x7f) &&& 0x10 = b &&& 0x10 ∧ (b &&& 0x7f) &&& 0x07 = b &&& 0x07 ∧
      ((b &&& 0x7f) &&& 0x80 != 0) = false := by
  revert b
  exact forall_octet (by decide +kernel)

/-- The three values of the layer octet, read back one by one. -/
theorem layerOctet_bits (tid sync keyIdx : UInt8) (ht : tid < 4) (hs : sync < 2)
    (hk : keyIdx < 0x20) :
    let b := ((tid &&& 3) <<< 6 ||| (sync &&& 1) <<< 5) ||| (keyIdx &&& 0x1f)
    b >>> 6 = tid ∧ b >>> 5 &&& 1 = sync ∧ b &&& 0x1f = keyIdx := by
  have all : ∀ (t : Fin 4) (s : Fin 2) (k : Fin 0x20),
      let b := ((UInt8.ofNat t &&& 3) <<< 6 ||| (UInt8.ofNat s &&& 1) <<< 5) |||
        (UInt8.ofNat k &&& 0x1f)
      b >>> 6 = UInt8.ofNat t ∧ b >>> 5 &&& 1 = UInt8.ofNat s ∧ b &&& 0x1f = UInt8.ofNat k := by
    decide +kernel
  have h := all ⟨tid.toNat, ht⟩ ⟨sync.toNat, hs⟩ ⟨keyIdx.toNat, hk⟩
  simpa only [UInt8.ofNat_toNat] using h

theorem flags_bits (pictureId tl0 tid keyIdx : Bool) :
    let x : UInt8 := (if pictureId then 0x80 else 0) ||| (if tl0 then 0x40 else 0) |||
      (if tid then 0x20 else 0) ||| (if keyIdx then 0x10 else 0)
    (x &&& 0x80 != 0) = pictureId ∧ (x &&& 0x40 != 0) = tl0 ∧ (x &&& 0x20 != 0) = tid ∧
      (x &&& 0x10 != 0) = keyIdx := by
  cases pictureId <;> cases tl0 <;> cases tid <;> cases keyIdx <;> decide

/-- The octet of a short picture id, read back. -/
theorem shortId_octet {id : UInt16} (h : id < 0x80) :
    let b := (id &&& 0x7f).toUInt8
    ¬(b &&& 0x80 != 0) = true ∧ (b &&& 0x7f).toUInt16 = id := by
  intro b
  have small : id.toNat < 0x80 := h
  have value : b.toNat = id.toNat := by
    have low : id.toNat &&& (2 ^ 7 - 1) = id.toNat % 2 ^ 7 := Nat.and_two_pow_sub_one_eq_mod _ 7
    rw [UInt16.toNat_toUInt8, UInt16.toNat_and]
    change (id.toNat &&& (2 ^ 7 - 1)) % 256 = _
    omega
  constructor
  · rw [high_bit_iff, value]
    omega
  · rw [← UInt16.toNat_inj, UInt8.toNat_toUInt16, toNat_low_bits, value]
    omega

/-- A long picture id with the bit that marks it. -/
theorem toNat_markedId {id : UInt16} (h : id < 0x8000) :
    (id &&& 0x7fff ||| 0x8000).toNat = id.toNat + 0x8000 := by
  have small : id.toNat < 2 ^ 15 := h
  rw [UInt16.toNat_or, UInt16.toNat_and]
  change id.toNat &&& (2 ^ 15 - 1) ||| 2 ^ 15 = _
  rw [Nat.and_two_pow_sub_one_eq_mod, Nat.mod_eq_of_lt small, Nat.or_comm]
  have sum := Nat.two_pow_add_eq_or_of_lt small 1
  rw [Nat.mul_one] at sum
  rw [← sum]
  omega

/-- The two octets of a long picture id, read back. -/
theorem longId_octets {id : UInt16} (h : id < 0x8000) :
    let w := id &&& 0x7fff ||| 0x8000
    (UInt8.ofNat (w.toNat / 0x100) &&& 0x80 != 0) = true ∧
      Octets.word16 (UInt8.ofNat (w.toNat / 0x100) &&& 0x7f) (UInt8.ofNat w.toNat) = id := by
  intro w
  have bound : id.toNat < 0x8000 := h
  have marked : w.toNat = id.toNat + 0x8000 := toNat_markedId h
  constructor
  · rw [high_bit_iff, marked, UInt8.toNat_ofNat']
    omega
  · rw [← UInt16.toNat_inj, Octets.word16, toNat_low_bits, UInt16.toNat_ofNat', marked,
      UInt8.toNat_ofNat', UInt8.toNat_ofNat']
    omega

namespace Descriptor

/-- The values fit the bits that they are written in. -/
structure InRange (d : Descriptor) : Prop where
  pictureId : d.pictureId < if d.longPictureId then 0x8000 else 0x80
  tid : d.tid < 4
  layerSync : d.layerSync < 2
  keyIdx : d.keyIdx < 0x20

/-- A descriptor as it is read back from its octets in front of some frame data: what it
does not announce reads as zero. -/
def asRead (d : Descriptor) (body : Octets) : Descriptor where
  firstOctet := if d.isExtended then d.firstOctet ||| 0x80 else d.firstOctet &&& 0x7f
  hasPictureId := d.hasPictureId
  pictureId := if d.hasPictureId then d.pictureId else 0
  longPictureId := if d.hasPictureId then d.longPictureId else false
  hasTl0PicIdx := d.hasTl0PicIdx
  tl0PicIdx := if d.hasTl0PicIdx then d.tl0PicIdx else 0
  hasTid := d.hasTid
  tid := if d.hasTid then d.tid else 0
  layerSync := if d.hasTid then d.layerSync else 0
  hasKeyIdx := d.hasKeyIdx
  keyIdx := if d.hasKeyIdx then d.keyIdx else 0
  size := d.encode.length
  keyFrame := startsKeyFrame d.firstOctet body

variable {d e : Descriptor} {bs rest : Octets}

theorem readPictureId_encode (h : d.pictureId < if d.longPictureId then 0x8000 else 0x80)
    (he : e.hasPictureId = d.hasPictureId) :
    e.readPictureId (d.encodePictureId ++ rest) =
      .ok ({ e with
        longPictureId := if d.hasPictureId && d.longPictureId then true else e.longPictureId
        pictureId := if d.hasPictureId then d.pictureId else e.pictureId
        size := e.size + d.encodePictureId.length }, rest) := by
  unfold readPictureId
  cases hp : d.hasPictureId with
  | false =>
    rw [if_neg (Bool.eq_false_iff.1 (he.trans hp))]
    simp only [encodePictureId, hp]
    rfl
  | true =>
    rw [if_pos (he.trans hp)]
    cases hl : d.longPictureId with
    | false =>
      rw [hl] at h
      obtain ⟨short, back⟩ := shortId_octet h
      simp only [encodePictureId, hp, hl, if_true, Bool.false_eq_true, if_false,
        List.cons_append, List.nil_append, if_neg short, back]
      rfl
    | true =>
      rw [hl] at h
      obtain ⟨long, back⟩ := longId_octets h
      simp only [encodePictureId, hp, hl, if_true, Octets.ofWord16, List.cons_append,
        List.nil_append, long, back]
      rfl

theorem readTl0PicIdx_encode (he : e.hasTl0PicIdx = d.hasTl0PicIdx) :
    e.readTl0PicIdx (d.encodeTl0PicIdx ++ rest) =
      .ok ({ e with
        tl0PicIdx := if d.hasTl0PicIdx then d.tl0PicIdx else e.tl0PicIdx
        size := e.size + d.encodeTl0PicIdx.length }, rest) := by
  unfold readTl0PicIdx encodeTl0PicIdx
  cases ht : d.hasTl0PicIdx with
  | false =>
    rw [if_neg (Bool.eq_false_iff.1 (he.trans ht))]
    rfl
  | true =>
    rw [if_pos (he.trans ht)]
    rfl

/-- The octet that is shared is read back with the halves that are announced. -/
theorem readLayerOctet_encode (h : d.InRange) (ht : e.hasTid = d.hasTid)
    (hk : e.hasKeyIdx = d.hasKeyIdx) (h0 : e.tid = 0 ∧ e.layerSync = 0 ∧ e.keyIdx = 0) :
    e.readLayerOctet (d.encodeLayerOctet ++ rest) =
      .ok ({ e with
        tid := if d.hasTid then d.tid else 0
        layerSync := if d.hasTid then d.layerSync else 0
        keyIdx := if d.hasKeyIdx then d.keyIdx else 0
        size := e.size + d.encodeLayerOctet.length }, rest) := by
  unfold readLayerOctet encodeLayerOctet
  by_cases hp : (d.hasTid || d.hasKeyIdx) = true
  · rw [if_pos (by rw [ht, hk]; exact hp), if_pos hp]
    -- A half that is not announced is written as zero.
    obtain ⟨tid, sync, keyIdx⟩ :=
      layerOctet_bits d.tid d.layerSync d.keyIdx h.tid h.layerSync h.keyIdx
    obtain ⟨tid', sync', -⟩ := layerOctet_bits d.tid d.layerSync 0 h.tid h.layerSync (by decide)
    obtain ⟨-, -, keyIdx'⟩ := layerOctet_bits 0 0 d.keyIdx (by decide) (by decide) h.keyIdx
    cases hp : d.hasTid <;> cases hk : d.hasKeyIdx <;> simp_all
  · rw [if_neg (by rw [ht, hk]; exact hp), if_neg hp]
    obtain ⟨hp, hq⟩ := Bool.or_eq_false_iff.1 (Bool.eq_false_iff.2 hp)
    obtain ⟨tid, sync, keyIdx⟩ := h0
    rw [hp, hq, if_neg Bool.false_ne_true, if_neg Bool.false_ne_true, if_neg Bool.false_ne_true]
    cases e
    cases tid
    cases sync
    cases keyIdx
    rfl

/-- The extension is read back part by part. -/
theorem readExtension_encode (h : d.InRange) (b : UInt8) (body : Octets) :
    ({ firstOctet := b, size := 1 } : Descriptor).readExtension
        (d.flags :: (d.encodePictureId ++ d.encodeTl0PicIdx ++ d.encodeLayerOctet) ++ body) =
      .ok ({ d.asRead body with
        firstOctet := b
        size := 2 + d.encodePictureId.length + d.encodeTl0PicIdx.length + d.encodeLayerOctet.length
        keyFrame := false }, body) := by
  obtain ⟨pictureId, tl0, tid, keyIdx⟩ :
      (d.flags &&& 0x80 != 0) = d.hasPictureId ∧ (d.flags &&& 0x40 != 0) = d.hasTl0PicIdx ∧
        (d.flags &&& 0x20 != 0) = d.hasTid ∧ (d.flags &&& 0x10 != 0) = d.hasKeyIdx :=
    flags_bits d.hasPictureId d.hasTl0PicIdx d.hasTid d.hasKeyIdx
  let d₀ : Descriptor :=
    { firstOctet := b, hasPictureId := d.hasPictureId, hasTl0PicIdx := d.hasTl0PicIdx
      hasTid := d.hasTid, hasKeyIdx := d.hasKeyIdx, size := 2 }
  let d₁ : Descriptor :=
    { d₀ with
      longPictureId := if d.hasPictureId && d.longPictureId then true else false
      pictureId := if d.hasPictureId then d.pictureId else 0
      size := 2 + d.encodePictureId.length }
  let d₂ : Descriptor :=
    { d₁ with
      tl0PicIdx := if d.hasTl0PicIdx then d.tl0PicIdx else 0
      size := 2 + d.encodePictureId.length + d.encodeTl0PicIdx.length }
  have read₁ : d₀.readPictureId
      (d.encodePictureId ++ (d.encodeTl0PicIdx ++ (d.encodeLayerOctet ++ body))) =
      .ok (d₁, d.encodeTl0PicIdx ++ (d.encodeLayerOctet ++ body)) :=
    readPictureId_encode h.pictureId rfl
  have read₂ : d₁.readTl0PicIdx (d.encodeTl0PicIdx ++ (d.encodeLayerOctet ++ body)) =
      .ok (d₂, d.encodeLayerOctet ++ body) :=
    readTl0PicIdx_encode rfl
  simp only [readExtension, List.cons_append, List.append_assoc, pictureId, tl0, tid, keyIdx]
  change (d₀.readPictureId _ >>= _) = _
  rw [read₁]
  change (d₁.readTl0PicIdx _ >>= _) = _
  rw [read₂]
  refine (readLayerOctet_encode (d := d) (e := d₂) h rfl rfl ⟨rfl, rfl, rfl⟩).trans ?_
  have long : (if d.hasPictureId && d.longPictureId then true else false) =
      if d.hasPictureId then d.longPictureId else false := by
    cases d.hasPictureId <;> cases d.longPictureId <;> rfl
  simp only [d₂, d₁, d₀, asRead, long]

theorem startsKeyFrame_congr {b b' : UInt8} (h1 : b &&& 0x10 = b' &&& 0x10)
    (h2 : b &&& 0x07 = b' &&& 0x07) (body : Octets) :
    startsKeyFrame b body = startsKeyFrame b' body := by
  unfold startsKeyFrame
  rw [h1, h2]

/-- The octets of a descriptor are read back, in front of any frame data. -/
theorem split_encode (h : d.InRange) (body : Octets) :
    split (d.encode ++ body) = .ok (d.asRead body, body) := by
  unfold encode
  by_cases hx : d.isExtended = true
  · obtain ⟨start, partition, marked⟩ := marked_bits d.firstOctet
    have read := readExtension_encode h (d.firstOctet ||| 0x80) body
    rw [if_pos hx, List.cons_append, split, if_pos marked, read]
    have length : d.encode.length = 2 + d.encodePictureId.length + d.encodeTl0PicIdx.length +
        d.encodeLayerOctet.length := by
      simp only [encode, hx, if_true, List.length_cons, List.length_append]
      omega
    simp only [bind, Except.bind, pure, Except.pure, asRead, hx, if_true, length,
      startsKeyFrame_congr start partition body]
  · obtain ⟨start, partition, plain⟩ := unmarked_bits d.firstOctet
    have none : d.hasPictureId = false ∧ d.hasTl0PicIdx = false ∧ d.hasTid = false ∧
        d.hasKeyIdx = false := by
      simpa [isExtended, and_assoc] using hx
    obtain ⟨pictureId, tl0, tid, keyIdx⟩ := none
    rw [if_neg hx, List.cons_append, split, if_neg (Bool.eq_false_iff.1 plain)]
    have length : d.encode.length = 1 := by
      simp only [encode, hx, Bool.false_eq_true, if_false, List.length_singleton]
    simp only [bind, Except.bind, pure, Except.pure, asRead, hx, pictureId, tl0, tid, keyIdx,
      length, List.nil_append, startsKeyFrame_congr start partition body, Bool.false_eq_true,
      if_false]

/-! ## What was read -/

variable {d' d'' : Descriptor} {bs' bs'' payload body : Octets}

/-- How a reader moves on: it leaves the rest of the octets, and a descriptor whose values
fit their bits. -/
structure Advances (d : Descriptor) (bs : Octets) (d' : Descriptor) (bs' : Octets) : Prop where
  suffix : bs' <:+ bs
  firstOctet : d'.firstOctet = d.firstOctet
  inRange : d'.InRange

theorem readPictureId_advances (hd : d.InRange) (hl : d.longPictureId = false)
    (h : d.readPictureId bs = .ok (d', bs')) : Advances d bs d' bs' := by
  unfold readPictureId at h
  split at h
  · split at h
    · cases h
    · rename_i b bs
      split at h
      · split at h
        · cases h
        · rename_i c bs
          cases h
          refine ⟨(List.suffix_cons c _).trans (List.suffix_cons b _), rfl, ?_, hd.tid,
            hd.layerSync, hd.keyIdx⟩
          have high := Nat.mod_lt b.toNat (by decide : 0 < 0x80)
          have low := c.toNat_lt
          show (Octets.word16 (b &&& 0x7f) c).toNat < 0x8000
          rw [Octets.word16, toNat_low_bits, UInt16.toNat_ofNat']
          omega
      · cases h
        refine ⟨List.suffix_cons b _, rfl, ?_, hd.tid, hd.layerSync, hd.keyIdx⟩
        rw [hl]
        show ((b &&& 0x7f).toUInt16).toNat < 0x80
        rw [UInt8.toNat_toUInt16, toNat_low_bits]
        exact Nat.mod_lt _ (by decide)
  · cases h
    exact ⟨List.suffix_refl _, rfl, hd⟩

theorem readTl0PicIdx_advances (hd : d.InRange) (h : d.readTl0PicIdx bs = .ok (d', bs')) :
    Advances d bs d' bs' := by
  unfold readTl0PicIdx at h
  split at h
  · split at h
    · cases h
    · cases h
      exact ⟨List.suffix_cons _ _, rfl, hd.pictureId, hd.tid, hd.layerSync, hd.keyIdx⟩
  · cases h
    exact ⟨List.suffix_refl _, rfl, hd⟩

/-- The three values that share an octet fit their bits. -/
theorem layerOctet_inRange (b : UInt8) :
    b >>> 6 < 4 ∧ b >>> 5 &&& 1 < 2 ∧ b &&& 0x1f < 0x20 := by
  revert b
  exact forall_octet (by decide +kernel)

theorem readLayerOctet_advances (hd : d.InRange) (h : d.readLayerOctet bs = .ok (d', bs')) :
    Advances d bs d' bs' := by
  unfold readLayerOctet at h
  split at h
  · split at h
    · cases h
    · rename_i b bs
      cases h
      obtain ⟨tid, sync, keyIdx⟩ := layerOctet_inRange b
      refine ⟨List.suffix_cons b _, rfl, hd.pictureId, ?_, ?_, ?_⟩
      · dsimp only
        split
        · exact tid
        · decide
      · dsimp only
        split
        · exact sync
        · decide
      · dsimp only
        split
        · exact keyIdx
        · decide
  · cases h
    exact ⟨List.suffix_refl _, rfl, hd⟩

theorem Advances.trans (h : Advances d bs d' bs') (h' : Advances d' bs' d'' bs'') :
    Advances d bs d'' bs'' :=
  ⟨h'.suffix.trans h.suffix, h'.firstOctet.trans h.firstOctet, h'.inRange⟩

theorem readExtension_advances (hd : d.InRange) (hl : d.longPictureId = false)
    (h : d.readExtension bs = .ok (d', bs')) : Advances d bs d' bs' := by
  cases bs with
  | nil => cases h
  | cons x bs =>
    simp only [readExtension, bind, Except.bind] at h
    split at h
    · cases h
    · rename_i p hp
      split at h
      · cases h
      · rename_i q hq
        have first := readPictureId_advances
          (by exact ⟨hd.pictureId, hd.tid, hd.layerSync, hd.keyIdx⟩) (by exact hl) hp
        have second := readTl0PicIdx_advances first.inRange hq
        have third := readLayerOctet_advances second.inRange h
        obtain ⟨suffix, firstOctet, inRange⟩ := (first.trans second).trans third
        exact ⟨suffix.trans (List.suffix_cons x bs), firstOctet, inRange⟩

/-- The extension is there, but it announces nothing. -/
def Bare (d : Descriptor) : Prop := (d.firstOctet &&& 0x80 != 0) = true ∧ d.isExtended = false

instance (d : Descriptor) : Decidable d.Bare := inferInstanceAs (Decidable (_ ∧ _))

/-- With an extension, only a bare one is not written again. -/
theorem size_of_extension (hx : (d.firstOctet &&& 0x80 != 0) = true)
    (hs : d.size = 2 + d.pictureIdSize + d.tl0Size + d.layerSize) :
    d.size = d.encode.length + if d.Bare then 1 else 0 := by
  rw [encode_length]
  cases hext : d.isExtended with
  | true =>
    have full : ¬d.Bare := fun hb => Bool.noConfusion (hb.2.symm.trans hext)
    rw [if_neg full, if_pos rfl]
    omega
  | false =>
    have none : d.pictureIdSize = 0 ∧ d.tl0Size = 0 ∧ d.layerSize = 0 := by
      simp only [isExtended, Bool.or_eq_false_iff] at hext
      obtain ⟨⟨⟨pictureId, tl0⟩, tid⟩, keyIdx⟩ := hext
      simp [pictureIdSize, tl0Size, layerSize, pictureId, tl0, tid, keyIdx]
    have bare : d.Bare := ⟨hx, hext⟩
    rw [if_pos bare, if_neg Bool.false_ne_true]
    omega

/-- What is known of a descriptor that was read, and of the frame data after it. -/
structure ReadFrom (payload : Octets) (d : Descriptor) (body : Octets) : Prop where
  rest : body = payload.drop d.size
  size_le : d.size ≤ payload.length
  keyFrame : d.keyFrame = startsKeyFrame d.firstOctet body
  inRange : d.InRange
  size : d.size = d.encode.length + if d.Bare then 1 else 0

/-- Before anything was read, every value is zero. -/
theorem inRange_blank (b : UInt8) (keyFrame : Bool) :
    ({ firstOctet := b, size := 1, keyFrame } : Descriptor).InRange where
  pictureId := (by decide : (0 : UInt16) < 0x80)
  tid := (by decide : (0 : UInt8) < 4)
  layerSync := (by decide : (0 : UInt8) < 2)
  keyIdx := (by decide : (0 : UInt8) < 0x20)

theorem split_readFrom (h : split payload = .ok (d, body)) : ReadFrom payload d body := by
  cases payload with
  | nil => cases h
  | cons b bs =>
    simp only [split, bind, Except.bind, pure, Except.pure] at h
    by_cases hx : (b &&& 0x80 != 0) = true
    · rw [if_pos hx] at h
      split at h
      · cases h
      · rename_i r hr
        obtain ⟨e, rest⟩ := r
        cases h
        obtain ⟨taken, size⟩ := readExtension_size rfl hr
        obtain ⟨suffix, firstOctet, inRange⟩ :=
          readExtension_advances (inRange_blank b false) rfl hr
        dsimp only at taken size firstOctet
        have length : (b :: bs).length = bs.length + 1 := List.length_cons
        refine ⟨?_, by dsimp only; omega, by rw [firstOctet],
          ⟨inRange.pictureId, inRange.tid, inRange.layerSync, inRange.keyIdx⟩, ?_⟩
        · have all := suffix.trans (List.suffix_cons b bs)
          have front : (b :: bs).length - rest.length = e.size := by omega
          rw [← front]
          exact List.suffix_iff_eq_drop.1 all
        · exact size_of_extension (firstOctet.symm ▸ hx) size
    · rw [if_neg hx] at h
      cases h
      refine ⟨rfl, ?_, rfl, inRange_blank b _, ?_⟩
      · simp only [List.length_cons]
        omega
      · rw [if_neg fun hb => hx hb.1]
        rfl

theorem parse_eq_ok : parse payload = .ok d ↔ ∃ body, split payload = .ok (d, body) := by
  unfold parse
  cases split payload with
  | error e => simp [Except.map]
  | ok r =>
    obtain ⟨d', body⟩ := r
    simp [Except.map]

end Descriptor

/-! ## New descriptors -/

namespace PictureNumbering

variable {n : PictureNumbering} {d out : Descriptor} {a : Arrival}

theorem renumber_firstOctet (n : PictureNumbering) (d : Descriptor) (number : Int32) :
    (n.renumber d number).firstOctet = d.firstOctet := by
  unfold renumber
  cases d.hasPictureId <;> rfl

/-- A picture id takes fifteen bits only where it has to, and never more. -/
theorem idOf_inRange (number : Int) :
    idOf number < if decide (shortest < idOf number) then 0x8000 else 0x80 := by
  by_cases hl : shortest < idOf number
  · rw [decide_eq_true hl, if_pos rfl]
    show (UInt16.ofNat (number % 0x8000).toNat).toNat < 0x8000
    rw [UInt16.toNat_ofNat']
    omega
  · rw [decide_eq_false hl, if_neg Bool.false_ne_true]
    exact Nat.lt_succ_of_le (Nat.le_of_not_lt hl)

theorem keyIdxMask_inRange (b : UInt8) : b &&& keyIdxMask < 0x20 := by
  show (b &&& 0x1f).toNat < 0x20
  rw [UInt8.toNat_and]
  exact Nat.lt_succ_of_le Nat.and_le_right

/-- The values of a picture that gets another number fit their bits. -/
theorem renumber_inRange (n : PictureNumbering) (number : Int32) (h : d.InRange) :
    (n.renumber d number).InRange := by
  have keyIdx : (d.keyIdx - n.keyIdxOffset) &&& keyIdxMask < 0x20 := keyIdxMask_inRange _
  unfold renumber
  cases d.hasPictureId with
  | false => exact ⟨h.pictureId, h.tid, h.layerSync, keyIdx⟩
  | true => exact ⟨idOf_inRange number.toInt, h.tid, h.layerSync, keyIdx⟩

/-- A picture that gets another number announces as much beyond what is written as before. -/
theorem renumber_size (n : PictureNumbering) (number : Int32) {k : Nat}
    (h : d.size = d.encode.length + k) (h6 : d.size ≤ 6) :
    (n.renumber d number).size = (n.renumber d number).encode.length + k := by
  unfold renumber
  cases hp : d.hasPictureId with
  | false =>
    simp only [Bool.false_eq_true, if_false]
    rw [Descriptor.encode_length] at h ⊢
    exact h
  | true =>
    simp only [if_true, Descriptor.encode_length, Descriptor.isExtended,
      Descriptor.pictureIdSize, Descriptor.tl0Size, Descriptor.layerSize, hp, Bool.true_or] at h ⊢
    generalize decide (shortest < idOf number.toInt) = long
    have size : (grow d.size (Descriptor.pictureIdGrowth long d.longPictureId) : Int) =
        d.size + Descriptor.pictureIdGrowth long d.longPictureId := by
      refine grow_of_nonneg ?_ ?_ <;>
        cases long <;> cases d.longPictureId <;> simp only [Descriptor.pictureIdGrowth] <;> omega
    cases long <;> cases hl : d.longPictureId <;>
      simp only [hl, Descriptor.pictureIdGrowth, Bool.false_eq_true, if_true, if_false]
        at h size ⊢ <;>
      omega

/-- Every descriptor that a packet gets is its own one with another number. -/
theorem describe_ok {standing : Standing} {maxTemporal : Int}
    (h : (n.describe a standing maxTemporal).2 = .ok out) (hv : a.vp8 = some d) :
    ∃ (m : PictureNumbering) (number : Int32), out = m.renumber d number := by
  simp only [describe, hv] at h
  split at h
  · -- A late packet has the offset of its picture.
    unfold describeLate at h
    split at h
    · cases h
    · exact ⟨n, _, (Except.ok.inj h).symm⟩
  · split at h
    · unfold describeAfterGap at h
      split at h
      · cases h
      · exact ⟨_, _, (Except.ok.inj h).symm⟩
    · unfold describeNext at h
      split at h
      · cases h
      · exact ⟨_, _, (Except.ok.inj h).symm⟩

end PictureNumbering

/-! ## Payloads -/

variable {payload : Octets} {incoming outgoing : Descriptor}

/-- A descriptor that goes in front of the frame data is read back, and what it announces
beyond what is written stays in front of the frame data. -/
theorem replaceDescriptor_split {k : Nat} (hi : incoming.size ≤ payload.length)
    (hr : outgoing.InRange) (hs : outgoing.size = outgoing.encode.length + k)
    (hl : outgoing.size < sizeLimit) :
    ∃ bs, replaceDescriptor payload incoming outgoing = .ok bs ∧
      Descriptor.split bs =
        .ok (outgoing.asRead (Octets.zeros k ++ payload.drop incoming.size),
          Octets.zeros k ++ payload.drop incoming.size) := by
  have fits : outgoing.Fits := by
    rw [Descriptor.Fits]
    omega
  have rest : outgoing.size - outgoing.encode.length = k := by omega
  rw [replaceDescriptor, if_neg (Nat.not_lt.2 hi), if_neg (Nat.not_le.2 hl),
    Descriptor.writeInto_of_fits fits, rest]
  refine ⟨_, rfl, ?_⟩
  rw [List.append_assoc]
  exact Descriptor.split_encode hr _

end Simulcast.Vp8
