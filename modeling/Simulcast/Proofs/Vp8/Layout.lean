import Simulcast.Proofs.Vp8.DescriptorCodec

/-!
# Where a descriptor stands in a payload

The flags of a descriptor say which octets it takes and what stands in each of them. `Layout`
reads all of this off the payload, by places: `size` is the number of octets, and `described` the
descriptor that they make up. `split_eq` says that a descriptor is read if and only if the payload
is as long as that, that it is the one `described`, and which part is missing otherwise.

Nothing behind the descriptor counts but the first bit of the frame data (`described_append`). So
a payload that is cut off inside its descriptor is refused, and one that goes on longer gives the
same descriptor (`parse_exact`).
-/

namespace Simulcast.Vp8

namespace Layout

/-- The octet at a place, or zero behind the end. -/
def octet (p : Octets) (i : Nat) : UInt8 := p.getD i 0

/-- A bit of an octet, counted from the lowest one. -/
def bit (p : Octets) (i k : Nat) : Bool := (octet p i).toNat.testBit k

/-- The value of some bits of an octet. -/
def bits (p : Octets) (i lowest width : Nat) : Nat :=
  ((octet p i).toBitVec.extractLsb' lowest width).toNat

variable (p : Octets)

/-! ## The flags -/

/-- `X`: a second octet has flags. -/
def isExtended : Bool := bit p 0 7

/-- `I` -/
def hasPictureId : Bool := isExtended p && bit p 1 7

/-- `L` -/
def hasTl0PicIdx : Bool := isExtended p && bit p 1 6

/-- `T` -/
def hasTid : Bool := isExtended p && bit p 1 5

/-- `K` -/
def hasKeyIdx : Bool := isExtended p && bit p 1 4

/-- `M`: the picture id takes fifteen bits. -/
def isLong : Bool := hasPictureId p && bit p 2 7

/-! ## The places -/

/-- The octets of the picture id. -/
def pictureIdSize : Nat := if hasPictureId p then if isLong p then 2 else 1 else 0

/-- The place of the index of the base layer frame. -/
def tl0At : Nat := 2 + pictureIdSize p

/-- The place of the octet shared by temporal layer and key frame index. -/
def layerAt : Nat := tl0At p + if hasTl0PicIdx p then 1 else 0

/-- The octets of the descriptor. -/
def size : Nat := if isExtended p then layerAt p + if hasTid p || hasKeyIdx p then 1 else 0 else 1

/-- `S` is set, the partition is the first one, and the frame data begins with a clear bit. -/
def StartsKeyFrame : Prop :=
  bit p 0 4 = true ∧ bits p 0 0 3 = 0 ∧ size p < p.length ∧ bit p (size p) 0 = false

instance : Decidable (StartsKeyFrame p) := inferInstanceAs (Decidable (_ ∧ _))

/-! ## The values -/

def pictureId : UInt16 :=
  if hasPictureId p then
    UInt16.ofNat (if isLong p then bits p 2 0 7 * 0x100 + bits p 3 0 8 else bits p 2 0 7)
  else 0

def tl0PicIdx : UInt8 := if hasTl0PicIdx p then octet p (tl0At p) else 0

def tid : UInt8 := if hasTid p then UInt8.ofNat (bits p (layerAt p) 6 2) else 0

def layerSync : UInt8 := if hasTid p then UInt8.ofNat (bits p (layerAt p) 5 1) else 0

def keyIdx : UInt8 := if hasKeyIdx p then UInt8.ofNat (bits p (layerAt p) 0 5) else 0

/-- The descriptor at the front of a payload. -/
def described : Descriptor where
  firstOctet := octet p 0
  hasPictureId := hasPictureId p
  pictureId := pictureId p
  longPictureId := isLong p
  hasTl0PicIdx := hasTl0PicIdx p
  tl0PicIdx := tl0PicIdx p
  hasTid := hasTid p
  tid := tid p
  layerSync := layerSync p
  hasKeyIdx := hasKeyIdx p
  keyIdx := keyIdx p
  size := size p
  keyFrame := decide (StartsKeyFrame p)

/-- The part of the descriptor that a payload ends before. -/
def missing : Truncation :=
  if p.length = 0 then .emptyPayload
  else if p.length = 1 then .extension
  else if p.length < tl0At p then if p.length = 2 then .pictureId else .longPictureId
  else if p.length < layerAt p then .tl0PicIdx
  else .layerByte

/-! ## Octets -/

theorem flag_eq (b : UInt8) :
    (b &&& 0x80 != 0) = b.toNat.testBit 7 ∧ (b &&& 0x40 != 0) = b.toNat.testBit 6 ∧
      (b &&& 0x20 != 0) = b.toNat.testBit 5 ∧ (b &&& 0x10 != 0) = b.toNat.testBit 4 ∧
      (b &&& 1 == 0) = !b.toNat.testBit 0 ∧
      (b &&& 0x07 == 0) = decide ((b.toBitVec.extractLsb' 0 3).toNat = 0) := by
  revert b
  exact forall_octet (by decide +kernel)

theorem layerBits_eq (b : UInt8) :
    b >>> 6 = UInt8.ofNat (b.toBitVec.extractLsb' 6 2).toNat ∧
      b >>> 5 &&& 1 = UInt8.ofNat (b.toBitVec.extractLsb' 5 1).toNat ∧
      b &&& 0x1f = UInt8.ofNat (b.toBitVec.extractLsb' 0 5).toNat := by
  revert b
  exact forall_octet (by decide +kernel)

theorem shortId_eq (b : UInt8) :
    (b &&& 0x7f).toUInt16 = UInt16.ofNat (b.toBitVec.extractLsb' 0 7).toNat := by
  revert b
  exact forall_octet (by decide +kernel)

theorem longId_eq (b c : UInt8) :
    Octets.word16 (b &&& 0x7f) c =
      UInt16.ofNat ((b.toBitVec.extractLsb' 0 7).toNat * 0x100 +
        (c.toBitVec.extractLsb' 0 8).toNat) := by
  have whole : c.toNat % 0x100 = c.toNat := Nat.mod_eq_of_lt c.toNat_lt
  rw [Octets.word16, toNat_low_bits, BitVec.extractLsb'_toNat, BitVec.extractLsb'_toNat,
    Nat.shiftRight_zero, Nat.shiftRight_zero]
  exact congrArg (fun n => UInt16.ofNat (b.toNat % 0x80 * 0x100 + n)) whole.symm

/-- What stands from a place on. -/
theorem drop_cases (p : Octets) (i : Nat) :
    p.length ≤ i ∧ p.drop i = [] ∨ i < p.length ∧ p.drop i = octet p i :: p.drop (i + 1) := by
  rcases Nat.lt_or_ge i p.length with inside | behind
  · refine .inr ⟨inside, ?_⟩
    rw [List.drop_eq_getElem_cons inside, octet, List.getD_eq_getElem?_getD,
      List.getElem?_eq_getElem inside, Option.getD_some]
  · exact .inl ⟨behind, List.drop_eq_nil_of_le behind⟩

/-! ## Reading by places -/

variable {p} {d : Descriptor}

/-- The picture id is read off its place, unless it is cut off. -/
theorem readPictureId_drop (two : 2 ≤ p.length) (hp : d.hasPictureId = hasPictureId p)
    (hl : d.longPictureId = false) (hi : d.pictureId = 0) :
    d.readPictureId (p.drop 2) =
      if tl0At p ≤ p.length then
        .ok ({ d with
          longPictureId := isLong p
          pictureId := pictureId p
          size := d.size + pictureIdSize p }, p.drop (tl0At p))
      else .error (if p.length = 2 then .pictureId else .longPictureId) := by
  unfold Descriptor.readPictureId pictureId tl0At pictureIdSize
  cases has : hasPictureId p with
  | false =>
    have short : isLong p = false := by rw [isLong, has, Bool.false_and]
    rw [if_neg (Bool.eq_false_iff.1 (hp.trans has))]
    simp only [Bool.false_eq_true, if_false, Nat.add_zero, if_pos two, short]
    rw [← hl, ← hi]
  | true =>
    have mark : (octet p 2 &&& 0x80 != 0) = isLong p := by
      rw [(flag_eq _).1, isLong, has, Bool.true_and, bit]
    simp only [hp.trans has, if_true]
    rcases drop_cases p 2 with ⟨behind, front⟩ | ⟨inside, front⟩
    · rw [front, if_neg (by split <;> omega), if_pos (by omega)]
    · rw [front]
      dsimp only
      rw [mark]
      cases long : isLong p with
      | false =>
        simp only [Bool.false_eq_true, if_false]
        rw [if_pos (by omega), shortId_eq, ← hl]
        rfl
      | true =>
        simp only [if_true]
        rcases drop_cases p 3 with ⟨behind, next⟩ | ⟨inside, next⟩
        · rw [next, if_neg (by omega), if_neg (by omega)]
        · rw [next, if_pos (by omega)]
          dsimp only
          rw [longId_eq]
          rfl

theorem readTl0PicIdx_drop (here : tl0At p ≤ p.length) (ht : d.hasTl0PicIdx = hasTl0PicIdx p)
    (hi : d.tl0PicIdx = 0) :
    d.readTl0PicIdx (p.drop (tl0At p)) =
      if layerAt p ≤ p.length then
        .ok ({ d with
          tl0PicIdx := tl0PicIdx p
          size := d.size + if hasTl0PicIdx p then 1 else 0 }, p.drop (layerAt p))
      else .error .tl0PicIdx := by
  unfold Descriptor.readTl0PicIdx layerAt tl0PicIdx
  cases has : hasTl0PicIdx p with
  | false =>
    rw [if_neg (Bool.eq_false_iff.1 (ht.trans has))]
    simp only [Bool.false_eq_true, if_false, Nat.add_zero, if_pos here]
    rw [← hi]
  | true =>
    simp only [ht.trans has, if_true]
    rcases drop_cases p (tl0At p) with ⟨behind, front⟩ | ⟨inside, front⟩
    · rw [front, if_neg (by omega)]
    · rw [front, if_pos (by omega)]

theorem readLayerOctet_drop (extended : isExtended p = true) (here : layerAt p ≤ p.length)
    (ht : d.hasTid = hasTid p) (hk : d.hasKeyIdx = hasKeyIdx p)
    (h0 : d.tid = 0 ∧ d.layerSync = 0 ∧ d.keyIdx = 0) :
    d.readLayerOctet (p.drop (layerAt p)) =
      if size p ≤ p.length then
        .ok ({ d with
          tid := tid p
          layerSync := layerSync p
          keyIdx := keyIdx p
          size := d.size + if hasTid p || hasKeyIdx p then 1 else 0 }, p.drop (size p))
      else .error .layerByte := by
  obtain ⟨noTid, noSync, noKeyIdx⟩ := h0
  unfold Descriptor.readLayerOctet size tid layerSync keyIdx
  rw [← ht, ← hk, if_pos extended]
  cases one : d.hasTid || d.hasKeyIdx with
  | false =>
    obtain ⟨tid, keyIdx⟩ := Bool.or_eq_false_iff.1 one
    simp only [tid, keyIdx, Bool.false_eq_true, if_false, Nat.add_zero, if_pos here]
    cases d
    simp only at noTid noSync noKeyIdx tid keyIdx
    subst noTid noSync noKeyIdx tid keyIdx
    rfl
  | true =>
    simp only [if_true]
    rcases drop_cases p (layerAt p) with ⟨behind, front⟩ | ⟨inside, front⟩
    · rw [front, if_neg (by omega)]
    · obtain ⟨tidBits, syncBit, keyIdxBits⟩ := layerBits_eq (octet p (layerAt p))
      rw [front, if_pos (by omega)]
      dsimp only
      rw [tidBits, syncBit, keyIdxBits]
      rfl

theorem two_le_tl0At (p : Octets) : 2 ≤ tl0At p := Nat.le_add_right 2 _

theorem tl0At_le_layerAt (p : Octets) : tl0At p ≤ layerAt p := Nat.le_add_right _ _

theorem layerAt_le_size (extended : isExtended p = true) : layerAt p ≤ size p := by
  rw [size, if_pos extended]
  exact Nat.le_add_right _ _

/-- A payload that ends before its second octet, before one of the optional parts, or inside of
the picture id, misses that part. -/
theorem readExtension_drop (one : 1 ≤ p.length) (extended : isExtended p = true) :
    ({ firstOctet := octet p 0, size := 1 } : Descriptor).readExtension (p.drop 1) =
      if size p ≤ p.length then
        .ok ({ described p with keyFrame := false }, p.drop (size p))
      else .error (missing p) := by
  have place := two_le_tl0At p
  have place' := tl0At_le_layerAt p
  have place'' := layerAt_le_size extended
  rcases drop_cases p 1 with ⟨behind, front⟩ | ⟨inside, front⟩
  · rw [front, if_neg (by omega), missing, if_neg (by omega), if_pos (by omega)]
    rfl
  · obtain ⟨i, l, t, k, -, -⟩ := flag_eq (octet p 1)
    let d₀ : Descriptor :=
      { firstOctet := octet p 0, hasPictureId := hasPictureId p, hasTl0PicIdx := hasTl0PicIdx p
        hasTid := hasTid p, hasKeyIdx := hasKeyIdx p, size := 2 }
    let d₁ : Descriptor :=
      { d₀ with
        longPictureId := isLong p, pictureId := pictureId p, size := 2 + pictureIdSize p }
    let d₂ : Descriptor := { d₁ with tl0PicIdx := tl0PicIdx p, size := layerAt p }
    have read₁ : d₀.readPictureId (p.drop 2) = if tl0At p ≤ p.length then .ok (d₁, p.drop (tl0At p))
        else .error (if p.length = 2 then .pictureId else .longPictureId) :=
      readPictureId_drop inside rfl rfl rfl
    have first : ({ firstOctet := octet p 0, size := 1 } : Descriptor).readExtension (p.drop 1) =
        (d₀.readPictureId (p.drop 2) >>= fun r => r.1.readTl0PicIdx r.2 >>= fun r =>
          r.1.readLayerOctet r.2) := by
      rw [front]
      simp only [Descriptor.readExtension, i, l, t, k, d₀, hasPictureId, hasTl0PicIdx, hasTid,
        hasKeyIdx, extended, Bool.true_and, bit]
    have cut : missing p =
        if p.length < tl0At p then if p.length = 2 then .pictureId else .longPictureId
        else if p.length < layerAt p then .tl0PicIdx
        else .layerByte := by
      rw [missing, if_neg (by omega), if_neg (by omega)]
    rw [first, read₁, cut]
    by_cases id : tl0At p ≤ p.length
    · have read₂ := readTl0PicIdx_drop (d := d₁) id rfl rfl
      rw [if_pos id, if_neg (Nat.not_lt.2 id)]
      change (d₁.readTl0PicIdx _ >>= _) = _
      rw [read₂]
      by_cases tl0 : layerAt p ≤ p.length
      · have read₃ := readLayerOctet_drop (d := d₂) extended tl0 rfl rfl ⟨rfl, rfl, rfl⟩
        have total : d₂.size + (if hasTid p || hasKeyIdx p then 1 else 0) = size p := by
          rw [size, if_pos extended]
        rw [if_pos tl0, if_neg (Nat.not_lt.2 tl0)]
        refine read₃.trans ?_
        rw [total]
        rfl
      · rw [if_neg tl0, if_pos (Nat.not_le.1 tl0), if_neg (by omega)]
        rfl
    · rw [if_neg id, if_pos (Nat.not_le.1 id), if_neg (by omega : ¬size p ≤ p.length)]
      rfl

/-- The first bit of the frame data, and what comes before it. -/
theorem startsKeyFrame_drop (p : Octets) :
    Descriptor.startsKeyFrame (octet p 0) (p.drop (size p)) = decide (StartsKeyFrame p) := by
  obtain ⟨-, -, -, s, -, pid⟩ := flag_eq (octet p 0)
  unfold Descriptor.startsKeyFrame
  rw [s, pid]
  rcases drop_cases p (size p) with ⟨behind, front⟩ | ⟨inside, front⟩
  · rw [front]
    refine (Bool.and_false _).trans (decide_eq_false fun starts => ?_).symm
    exact Nat.not_lt.2 behind starts.2.2.1
  · have clear := (flag_eq (octet p (size p))).2.2.2.2.1
    rw [front]
    dsimp only
    rw [clear, Bool.eq_iff_iff]
    simp only [Bool.and_eq_true, decide_eq_true_eq, Bool.not_eq_true', StartsKeyFrame, bit, bits,
      inside, true_and, and_assoc]

/-- Without a second octet there is nothing but the first one. -/
theorem described_plain (plain : isExtended p = false) :
    described p =
      { firstOctet := octet p 0, size := 1, keyFrame := decide (StartsKeyFrame p) } := by
  have flags : hasPictureId p = false ∧ hasTl0PicIdx p = false ∧ hasTid p = false ∧
      hasKeyIdx p = false := by
    simp only [hasPictureId, hasTl0PicIdx, hasTid, hasKeyIdx, plain, Bool.false_and, and_self]
  obtain ⟨i, l, t, k⟩ := flags
  simp only [described, pictureId, isLong, tl0PicIdx, tid, layerSync, keyIdx, size, plain, i, l, t,
    k, Bool.false_and, Bool.false_eq_true, if_false]

/-- A payload is read if and only if it is as long as its flags say, and everything in its
place. -/
theorem split_eq (p : Octets) :
    Descriptor.split p =
      if size p ≤ p.length then .ok (described p, p.drop (size p)) else .error (missing p) := by
  cases p with
  | nil => rfl
  | cons b bs =>
    have one : 1 ≤ (b :: bs).length := Nat.le_add_left 1 bs.length
    have x : (b &&& 0x80 != 0) = isExtended (b :: bs) := (flag_eq b).1
    have starts := startsKeyFrame_drop (b :: bs)
    rw [Descriptor.split, x]
    cases extended : isExtended (b :: bs) with
    | false =>
      have single : size (b :: bs) = 1 := by rw [size, if_neg (Bool.eq_false_iff.1 extended)]
      rw [described_plain extended, ← starts, single, if_pos one, if_neg Bool.false_ne_true]
      rfl
    | true =>
      have read : ({ firstOctet := b, size := 1 } : Descriptor).readExtension bs = _ :=
        readExtension_drop one extended
      rw [if_pos rfl, read]
      by_cases complete : size (b :: bs) ≤ (b :: bs).length
      · rw [if_pos complete, if_pos complete]
        exact congrArg (fun k => Except.ok ({ described (b :: bs) with keyFrame := k }, _)) starts
      · rw [if_neg complete, if_neg complete]
        rfl

/-! ## What goes on behind a descriptor -/

variable {q rest : Octets} {i k : Nat}

theorem octet_append (h : i < q.length) (rest : Octets) : octet (q ++ rest) i = octet q i := by
  rw [octet, octet, List.getD_eq_getElem?_getD, List.getElem?_append_left h,
    ← List.getD_eq_getElem?_getD]

theorem bit_append (h : i < q.length) (rest : Octets) (k : Nat) :
    bit (q ++ rest) i k = bit q i k := by
  rw [bit, octet_append h, bit]

theorem bits_append (h : i < q.length) (rest : Octets) (lowest width : Nat) :
    bits (q ++ rest) i lowest width = bits q i lowest width := by
  rw [bits, octet_append h, bits]

theorem one_le_size (q : Octets) : 1 ≤ size q := by
  cases extended : isExtended q with
  | false =>
    have bare : size q = 1 := if_neg (Bool.eq_false_iff.1 extended)
    exact Nat.le_of_eq bare.symm
  | true =>
    have place := two_le_tl0At q
    have place' := tl0At_le_layerAt q
    have place'' := layerAt_le_size extended
    omega

/-- The octets of a part that is there are within the descriptor. -/
theorem pictureId_within (h : size q ≤ q.length) (has : hasPictureId q = true) :
    2 < q.length ∧ (isLong q = true → 3 < q.length) := by
  have extended := (Bool.and_eq_true_iff.1 has).1
  have place := tl0At_le_layerAt q
  have place' := layerAt_le_size extended
  rw [tl0At, pictureIdSize, if_pos has] at place
  refine ⟨?_, fun long => ?_⟩
  · split at place <;> omega
  · rw [if_pos long] at place
    omega

theorem tl0PicIdx_within (h : size q ≤ q.length) (has : hasTl0PicIdx q = true) :
    tl0At q < q.length := by
  have place := layerAt_le_size (Bool.and_eq_true_iff.1 has).1
  rw [layerAt, if_pos has] at place
  omega

theorem layerOctet_within (h : size q ≤ q.length) (one : (hasTid q || hasKeyIdx q) = true) :
    layerAt q < q.length := by
  have extended : isExtended q = true :=
    (Bool.or_eq_true_iff.1 one).elim (fun has => (Bool.and_eq_true_iff.1 has).1) fun has =>
      (Bool.and_eq_true_iff.1 has).1
  rw [size, if_pos extended, if_pos one] at h
  exact h

/-- The flags are among the octets of the descriptor. -/
theorem flags_append (h : size q ≤ q.length) (rest : Octets) :
    isExtended (q ++ rest) = isExtended q ∧ hasPictureId (q ++ rest) = hasPictureId q ∧
      hasTl0PicIdx (q ++ rest) = hasTl0PicIdx q ∧ hasTid (q ++ rest) = hasTid q ∧
      hasKeyIdx (q ++ rest) = hasKeyIdx q ∧ isLong (q ++ rest) = isLong q := by
  have first : isExtended (q ++ rest) = isExtended q :=
    bit_append (Nat.le_trans (one_le_size q) h) rest 7
  cases extended : isExtended q with
  | false =>
    simp only [hasPictureId, hasTl0PicIdx, hasTid, hasKeyIdx, isLong, first, extended,
      Bool.false_and, and_self]
  | true =>
    have second : 1 < q.length := by
      have place := two_le_tl0At q
      have place' := tl0At_le_layerAt q
      have place'' := layerAt_le_size extended
      omega
    have id : hasPictureId (q ++ rest) = hasPictureId q := by
      rw [hasPictureId, first, bit_append second, hasPictureId]
    have long : isLong (q ++ rest) = isLong q := by
      rw [isLong, isLong, id]
      cases has : hasPictureId q with
      | false => rfl
      | true => rw [bit_append (pictureId_within h has).1]
    simp only [hasTl0PicIdx, hasTid, hasKeyIdx, first, extended, bit_append second, id, long,
      and_self]

theorem places_append (h : size q ≤ q.length) (rest : Octets) :
    tl0At (q ++ rest) = tl0At q ∧ layerAt (q ++ rest) = layerAt q ∧ size (q ++ rest) = size q := by
  obtain ⟨x, i, l, t, k, m⟩ := flags_append h rest
  have tl0 : tl0At (q ++ rest) = tl0At q := by rw [tl0At, pictureIdSize, i, m, tl0At, pictureIdSize]
  have layer : layerAt (q ++ rest) = layerAt q := by rw [layerAt, tl0, l, layerAt]
  refine ⟨tl0, layer, ?_⟩
  rw [size, x, layer, t, k, size]

theorem pictureId_append (h : size q ≤ q.length) (rest : Octets) :
    pictureId (q ++ rest) = pictureId q := by
  obtain ⟨-, i, -, -, -, m⟩ := flags_append h rest
  rw [pictureId, pictureId, i, m]
  cases has : hasPictureId q with
  | false => simp only [Bool.false_eq_true, if_false]
  | true =>
    obtain ⟨third, fourth⟩ := pictureId_within h has
    cases long : isLong q with
    | false => simp only [Bool.false_eq_true, if_false, bits_append third]
    | true => simp only [bits_append third, bits_append (fourth long)]

theorem tl0PicIdx_append (h : size q ≤ q.length) (rest : Octets) :
    tl0PicIdx (q ++ rest) = tl0PicIdx q := by
  rw [tl0PicIdx, tl0PicIdx, (flags_append h rest).2.2.1, (places_append h rest).1]
  cases has : hasTl0PicIdx q with
  | false => rfl
  | true => rw [octet_append (tl0PicIdx_within h has)]

theorem layerOctet_append (h : size q ≤ q.length) (rest : Octets) :
    tid (q ++ rest) = tid q ∧ layerSync (q ++ rest) = layerSync q ∧
      keyIdx (q ++ rest) = keyIdx q := by
  obtain ⟨-, -, -, t, k, -⟩ := flags_append h rest
  rw [tid, tid, layerSync, layerSync, keyIdx, keyIdx, t, k, (places_append h rest).2.1]
  cases one : hasTid q || hasKeyIdx q with
  | false =>
    obtain ⟨noTid, noKeyIdx⟩ := Bool.or_eq_false_iff.1 one
    rw [noTid, noKeyIdx]
    exact ⟨rfl, rfl, rfl⟩
  | true =>
    have inside := layerOctet_within h one
    rw [bits_append inside, bits_append inside, bits_append inside]
    exact ⟨rfl, rfl, rfl⟩

/-- Nothing of a descriptor depends on what goes on behind it, but whether a key frame starts
there. -/
theorem described_append (h : size q ≤ q.length) (rest : Octets) :
    described (q ++ rest) =
      { described q with keyFrame := decide (StartsKeyFrame (q ++ rest)) } := by
  obtain ⟨-, i, l, t, k, m⟩ := flags_append h rest
  obtain ⟨tid, layerSync, keyIdx⟩ := layerOctet_append h rest
  have first := octet_append (Nat.le_trans (one_le_size q) h) rest
  simp only [described, i, l, t, k, m, tid, layerSync, keyIdx, first, pictureId_append h,
    tl0PicIdx_append h, (places_append h rest).2.2]

/-- A key frame starts by the first octet of the frame data. -/
theorem startsKeyFrame_append (h : size q < q.length) (rest : Octets) :
    StartsKeyFrame (q ++ rest) ↔ StartsKeyFrame q := by
  have first := Nat.zero_lt_of_lt h
  have longer : size q < (q ++ rest).length := by
    rw [List.length_append]
    exact Nat.lt_add_right _ h
  rw [StartsKeyFrame, StartsKeyFrame, (places_append (Nat.le_of_lt h) rest).2.2, bit_append first,
    bits_append first, bit_append h, iff_true_intro h, iff_true_intro longer]

end Layout

namespace Descriptor

open Layout

theorem parse_eq (p : Octets) :
    parse p = if Layout.size p ≤ p.length then .ok (described p) else .error (missing p) := by
  rw [parse, split_eq]
  split <;> rfl

theorem parse_eq_ok_iff {p : Octets} {d : Descriptor} :
    parse p = .ok d ↔ Layout.size p ≤ p.length ∧ described p = d := by
  rw [parse_eq]
  split
  · rename_i complete
    rw [Except.ok.injEq, iff_true_intro complete, true_and]
  · rename_i cut
    exact iff_of_false (fun h => by cases h) fun h => cut h.1

/-- All the parts, in front of a key frame. -/
example :
    parse [0x90, 0xf0, 0x81, 0x02, 0x07, 0xa5, 0x10] =
      .ok
        { firstOctet := 0x90, hasPictureId := true, pictureId := 0x102, longPictureId := true
          hasTl0PicIdx := true, tl0PicIdx := 7, hasTid := true, tid := 2, layerSync := 1
          hasKeyIdx := true, keyIdx := 5, size := 6, keyFrame := true } :=
  rfl

/-- A descriptor is read if and only if the payload holds all the octets that its flags ask
for, and then every value is the one in its place. A payload that ends before the descriptor does
is refused for the part that it misses, and one that goes on longer gives the same descriptor;
only a key frame can start behind a payload that was nothing but its descriptor. -/
theorem parse_exact (p : Octets) :
    ((∃ d, parse p = .ok d) ↔ p ≠ [] ∧ Layout.size p ≤ p.length) ∧
    (∀ d, parse p = .ok d →
      d = described p ∧ d.size = Layout.size p ∧ d.size ≤ p.length ∧
        (d.keyFrame = true ↔ StartsKeyFrame p)) ∧
    (∀ q, q <+: p → q.length < Layout.size p → parse q = .error (missing q)) ∧
    (∀ d rest, parse p = .ok d → ∃ keyFrame,
      parse (p ++ rest) = .ok { d with keyFrame } ∧
        (d.size < p.length → keyFrame = d.keyFrame)) := by
  refine ⟨⟨?_, ?_⟩, ?_, ?_, ?_⟩
  · rintro ⟨d, hd⟩
    have complete := (parse_eq_ok_iff.1 hd).1
    refine ⟨fun empty => ?_, complete⟩
    rw [empty] at complete
    exact absurd complete (by decide)
  · rintro ⟨-, complete⟩
    exact ⟨described p, parse_eq_ok_iff.2 ⟨complete, rfl⟩⟩
  · intro d hd
    obtain ⟨complete, rfl⟩ := parse_eq_ok_iff.1 hd
    exact ⟨rfl, rfl, complete, decide_eq_true_iff⟩
  · rintro q ⟨rest, rfl⟩ shorter
    rw [parse_eq, if_neg]
    intro complete
    rw [(places_append complete rest).2.2] at shorter
    exact Nat.not_lt.2 complete shorter
  · intro d rest hd
    obtain ⟨complete, rfl⟩ := parse_eq_ok_iff.1 hd
    have longer : Layout.size (p ++ rest) ≤ (p ++ rest).length := by
      rw [(places_append complete rest).2.2, List.length_append]
      exact Nat.le_add_right_of_le complete
    refine ⟨_, parse_eq_ok_iff.2 ⟨longer, described_append complete rest⟩, fun inside => ?_⟩
    exact decide_eq_decide.2 (startsKeyFrame_append inside rest)

end Descriptor
end Simulcast.Vp8
