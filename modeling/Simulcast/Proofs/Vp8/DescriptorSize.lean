import Simulcast.Vp8.PictureNumbering

/-!
# The size of a descriptor

A descriptor announces its size, and a buffer is made for it by that. `Descriptor.Fits`
says that the announced size holds what is written:

* `parse_fits`: it does so for every descriptor that was read, which is not longer than
  the payload that it was read from;
* `renumber_fits`, `generate_fits`: it still does after a picture got another number, and
  for a generated one;
* `replaceDescriptor_of_fits`, `writeInto_of_fits`: so the buffers are never too small.
-/

namespace Simulcast.Vp8
namespace Descriptor

/-- The octets of the picture id. -/
def pictureIdSize (d : Descriptor) : Nat :=
  if d.hasPictureId then if d.longPictureId then 2 else 1 else 0

/-- The octet of the index of the base layer frame. -/
def tl0Size (d : Descriptor) : Nat := if d.hasTl0PicIdx then 1 else 0

/-- The octet shared by temporal layer and key frame index. -/
def layerSize (d : Descriptor) : Nat := if d.hasTid || d.hasKeyIdx then 1 else 0

/-- The announced size holds what is written. -/
def Fits (d : Descriptor) : Prop := d.encode.length ≤ d.size

theorem encode_length (d : Descriptor) :
    d.encode.length =
      if d.isExtended then 2 + d.pictureIdSize + d.tl0Size + d.layerSize else 1 := by
  have pictureId : d.encodePictureId.length = d.pictureIdSize := by
    simp only [encodePictureId, pictureIdSize, apply_ite List.length]
    rfl
  have tl0 : d.encodeTl0PicIdx.length = d.tl0Size := by
    simp only [encodeTl0PicIdx, tl0Size, apply_ite List.length]
    rfl
  have layer : d.encodeLayerOctet.length = d.layerSize := by
    simp only [encodeLayerOctet, layerSize, apply_ite List.length]
    rfl
  unfold encode
  split
  · simp only [List.length_cons, List.length_append, pictureId, tl0, layer]
    omega
  · rfl

/-! ## Reading -/

/-- How a reader of one part moves on: what it takes off the octets, it adds to the size,
and it does not touch which parts are announced. -/
structure Reads (d : Descriptor) (bs : Octets) (d' : Descriptor) (bs' : Octets) : Prop where
  taken : d'.size + bs'.length = d.size + bs.length
  hasPictureId : d'.hasPictureId = d.hasPictureId
  hasTl0PicIdx : d'.hasTl0PicIdx = d.hasTl0PicIdx
  hasTid : d'.hasTid = d.hasTid
  hasKeyIdx : d'.hasKeyIdx = d.hasKeyIdx

theorem Reads.trans {d d' d'' : Descriptor} {bs bs' bs'' : Octets} (h : Reads d bs d' bs')
    (h' : Reads d' bs' d'' bs'') : Reads d bs d'' bs'' where
  taken := h'.taken.trans h.taken
  hasPictureId := h'.hasPictureId.trans h.hasPictureId
  hasTl0PicIdx := h'.hasTl0PicIdx.trans h.hasTl0PicIdx
  hasTid := h'.hasTid.trans h.hasTid
  hasKeyIdx := h'.hasKeyIdx.trans h.hasKeyIdx

variable {d d' : Descriptor} {bs bs' : Octets}

theorem readPictureId_reads (hl : d.longPictureId = false)
    (h : d.readPictureId bs = .ok (d', bs')) :
    Reads d bs d' bs' ∧ d'.size = d.size + d'.pictureIdSize := by
  unfold readPictureId at h
  split at h
  · rename_i hp
    split at h
    · cases h
    · split at h
      · split at h
        · cases h
        · cases h
          refine ⟨⟨?_, rfl, rfl, rfl, rfl⟩, ?_⟩
          · simp only [List.length_cons]
            omega
          · simp only [pictureIdSize, hp, if_true]
      · cases h
        refine ⟨⟨?_, rfl, rfl, rfl, rfl⟩, ?_⟩
        · simp only [List.length_cons]
          omega
        · simp only [pictureIdSize, hp, hl, if_true, Bool.false_eq_true, if_false]
  · rename_i hp
    cases h
    exact ⟨⟨rfl, rfl, rfl, rfl, rfl⟩, by simp only [pictureIdSize, hp, if_false, Nat.add_zero,
      Bool.false_eq_true]⟩

theorem readTl0PicIdx_reads (h : d.readTl0PicIdx bs = .ok (d', bs')) :
    Reads d bs d' bs' ∧ d'.size = d.size + d.tl0Size ∧ d'.pictureIdSize = d.pictureIdSize := by
  unfold readTl0PicIdx at h
  split at h
  · rename_i ht
    split at h
    · cases h
    · cases h
      refine ⟨⟨?_, rfl, rfl, rfl, rfl⟩, ?_, rfl⟩
      · simp only [List.length_cons]
        omega
      · simp only [tl0Size, ht, if_true]
  · rename_i ht
    cases h
    exact ⟨⟨rfl, rfl, rfl, rfl, rfl⟩, by simp only [tl0Size, ht, if_false, Nat.add_zero,
      Bool.false_eq_true], rfl⟩

theorem readLayerOctet_reads (h : d.readLayerOctet bs = .ok (d', bs')) :
    Reads d bs d' bs' ∧ d'.size = d.size + d.layerSize ∧ d'.pictureIdSize = d.pictureIdSize := by
  unfold readLayerOctet at h
  split at h
  · rename_i ht
    split at h
    · cases h
    · cases h
      refine ⟨⟨?_, rfl, rfl, rfl, rfl⟩, ?_, rfl⟩
      · simp only [List.length_cons]
        omega
      · simp only [layerSize, ht, if_true]
  · rename_i ht
    cases h
    exact ⟨⟨rfl, rfl, rfl, rfl, rfl⟩, by simp only [layerSize, ht, if_false, Nat.add_zero,
      Bool.false_eq_true], rfl⟩

/-- The extension is as long as the parts that it announces. -/
theorem readExtension_size (hl : d.longPictureId = false) (h : d.readExtension bs = .ok (d', bs')) :
    d'.size + bs'.length = d.size + bs.length ∧
      d'.size = d.size + 1 + d'.pictureIdSize + d'.tl0Size + d'.layerSize := by
  cases bs with
  | nil => cases h
  | cons x bs =>
    simp only [readExtension, bind, Except.bind] at h
    split at h
    · cases h
    · rename_i p hp
      obtain ⟨d₁, bs₁⟩ := p
      split at h
      · cases h
      · rename_i q hq
        obtain ⟨d₂, bs₂⟩ := q
        obtain ⟨reads₁, size₁⟩ := readPictureId_reads (by exact hl) hp
        obtain ⟨reads₂, size₂, id₂⟩ := readTl0PicIdx_reads hq
        obtain ⟨reads₃, size₃, id₃⟩ := readLayerOctet_reads h
        have tl0 : d₁.tl0Size = d'.tl0Size := by
          simp only [tl0Size, reads₃.hasTl0PicIdx, reads₂.hasTl0PicIdx]
        have layer : d₂.layerSize = d'.layerSize := by
          simp only [layerSize, reads₃.hasTid, reads₃.hasKeyIdx]
        have taken := ((reads₁.trans reads₂).trans reads₃).taken
        simp only [List.length_cons] at taken ⊢
        dsimp only at *
        omega

/-- Every descriptor that is read fits, is not longer than its payload, and takes at most
six octets. -/
theorem parse_fits {payload : Octets} (h : parse payload = .ok d) :
    d.Fits ∧ d.size ≤ payload.length ∧ d.size ≤ 6 := by
  obtain ⟨⟨d, body⟩, hsplit, rfl⟩ : ∃ r, split payload = .ok r ∧ r.1 = d := by
    unfold parse at h
    cases hs : split payload with
    | error e => rw [hs] at h; cases h
    | ok r => rw [hs] at h; exact ⟨r, rfl, Except.ok.inj h⟩
  cases payload with
  | nil => cases hsplit
  | cons b bs =>
    simp only [split, bind, Except.bind, pure, Except.pure] at hsplit
    by_cases hx : (b &&& 0x80 != 0) = true
    · rw [if_pos hx] at hsplit
      split at hsplit
      · cases hsplit
      · rename_i r hr
        obtain ⟨e, rest⟩ := r
        cases hsplit
        obtain ⟨taken, size⟩ := readExtension_size rfl hr
        simp only [Fits, encode_length, pictureIdSize, tl0Size, layerSize, List.length_cons] at *
        refine ⟨?_, by omega, ?_⟩
        · split <;> omega
        · split at size <;> split at size <;> split at size <;> (try split at size) <;> omega
    · rw [if_neg hx] at hsplit
      cases hsplit
      exact ⟨Nat.le_refl 1, by simp only [List.length_cons]; omega, (by decide : 1 ≤ 6)⟩

/-! ## Writing -/

/-- A buffer of the announced size holds the descriptor. -/
theorem writeInto_of_fits (h : d.Fits) :
    d.writeInto (Octets.zeros d.size) =
      .ok (d.encode.length, d.encode ++ Octets.zeros (d.size - d.encode.length)) := by
  have fits : d.encode.length ≤ d.size := h
  simp only [writeInto, Octets.zeros, List.length_replicate, List.drop_replicate,
    if_neg (Nat.lt_irrefl d.size), if_neg (Nat.not_lt.2 fits)]

end Descriptor

/-- A descriptor that fits can be put in front of the frame data. -/
theorem replaceDescriptor_of_fits {payload : Octets} {incoming outgoing : Descriptor}
    (hi : incoming.size ≤ payload.length) (ho : outgoing.Fits) (hl : outgoing.size < sizeLimit) :
    ∃ bs, replaceDescriptor payload incoming outgoing = .ok bs := by
  rw [replaceDescriptor, if_neg (Nat.not_lt.2 hi), if_neg (Nat.not_le.2 hl),
    Descriptor.writeInto_of_fits ho]
  exact ⟨_, rfl⟩

/-! ## New descriptors -/

namespace PictureNumbering

variable {d : Descriptor}

theorem grow_of_nonneg {size : Nat} {growth : Int} (h : 0 ≤ size + growth)
    (h' : size + growth < 0x10000000000000000) : (grow size growth : Int) = size + growth := by
  unfold grow
  omega

/-- A picture that gets another number still fits, and grows by one octet at most. -/
theorem renumber_fits (n : PictureNumbering) (number : Int32) (h : d.Fits) (h6 : d.size ≤ 6) :
    (n.renumber d number).Fits ∧ (n.renumber d number).size ≤ 7 := by
  unfold renumber
  cases hp : d.hasPictureId with
  | false =>
    simp only [Bool.false_eq_true, if_false]
    refine ⟨?_, by omega⟩
    have fits : d.encode.length ≤ d.size := h
    rw [Descriptor.encode_length] at fits
    rw [Descriptor.Fits, Descriptor.encode_length]
    exact fits
  | true =>
    simp only [if_true, Descriptor.Fits, Descriptor.encode_length, Descriptor.isExtended,
      Descriptor.pictureIdSize, Descriptor.tl0Size, Descriptor.layerSize, hp, Bool.true_or] at h ⊢
    generalize decide (shortest < idOf number.toInt) = long
    have size : (grow d.size (Descriptor.pictureIdGrowth long d.longPictureId) : Int) =
        d.size + Descriptor.pictureIdGrowth long d.longPictureId := by
      refine grow_of_nonneg ?_ ?_ <;>
        cases long <;> cases d.longPictureId <;> simp only [Descriptor.pictureIdGrowth] <;> omega
    cases long <;> cases hl : d.longPictureId <;>
      simp only [hl, Descriptor.pictureIdGrowth, Bool.false_eq_true, if_true, if_false] at h size ⊢ <;>
      omega

/-- A generated descriptor fits. -/
theorem generate_fits (n : PictureNumbering) (newPicture : Bool) :
    (n.generate newPicture).2.Fits := by
  simp only [generate, Descriptor.Fits, Descriptor.encode_length, generatedDescriptor, generatedSize,
    Descriptor.isExtended, Descriptor.pictureIdSize, Descriptor.tl0Size, Descriptor.layerSize]
  split
  · omega
  · omega

end PictureNumbering
end Simulcast.Vp8
