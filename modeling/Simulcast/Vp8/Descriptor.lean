import Simulcast.Octets
import Simulcast.Fault

/-!
# VP8 payload descriptors

In front of the frame data of a VP8 payload stands a descriptor: one octet, and if
its highest bit is set an octet of flags for up to four optional parts.

```text
      0 1 2 3 4 5 6 7
     +-+-+-+-+-+-+-+-+
     |X|R|N|S|R| PID |
     +-+-+-+-+-+-+-+-+
X:   |I|L|T|K| RSV   |
     +-+-+-+-+-+-+-+-+
I:   |M| PictureID   |   seven bits, or fifteen in two octets if M is set
     +-+-+-+-+-+-+-+-+
L:   |   TL0PICIDX   |
     +-+-+-+-+-+-+-+-+
T/K: |TID|Y| KEYIDX  |
     +-+-+-+-+-+-+-+-+
```

`Descriptor.parse` reads it, `Descriptor.encode` writes it. The first bit of the
frame data is clear in a key frame.
-/

namespace Simulcast.Vp8

/-- A descriptor, with a flag beside the value of each optional part. -/
structure Descriptor where
  firstOctet : UInt8 := 0
  hasPictureId : Bool := false
  pictureId : UInt16 := 0
  /-- The picture id takes fifteen bits. -/
  longPictureId : Bool := false
  hasTl0PicIdx : Bool := false
  tl0PicIdx : UInt8 := 0
  hasTid : Bool := false
  /-- The temporal layer. -/
  tid : UInt8 := 0
  /-- The frame depends on the base layer only. -/
  layerSync : UInt8 := 0
  hasKeyIdx : Bool := false
  keyIdx : UInt8 := 0
  /-- The octets that the descriptor took, or takes. -/
  size : Nat := 0
  /-- The packet starts a key frame. -/
  keyFrame : Bool := false
  deriving DecidableEq, Repr

/-- A descriptor read so far, or the part that is missing. -/
abbrev Reading := Except Truncation (Descriptor × Octets)

namespace Descriptor

/-- Whether any optional part is there. -/
def isExtended (d : Descriptor) : Bool :=
  d.hasPictureId || d.hasTl0PicIdx || d.hasTid || d.hasKeyIdx

/-- Reads the picture id, if it is announced. -/
def readPictureId (d : Descriptor) (bs : Octets) : Reading :=
  if d.hasPictureId then
    match bs with
    | [] => .error .pictureId
    | b :: bs =>
      if b &&& 0x80 != 0 then
        match bs with
        | [] => .error .longPictureId
        | c :: bs =>
          .ok ({ d with
            longPictureId := true
            pictureId := Octets.word16 (b &&& 0x7f) c
            size := d.size + 2 }, bs)
      else .ok ({ d with pictureId := (b &&& 0x7f).toUInt16, size := d.size + 1 }, bs)
  else .ok (d, bs)

/-- Reads the index of the base layer frame, if it is announced. -/
def readTl0PicIdx (d : Descriptor) (bs : Octets) : Reading :=
  if d.hasTl0PicIdx then
    match bs with
    | [] => .error .tl0PicIdx
    | b :: bs => .ok ({ d with tl0PicIdx := b, size := d.size + 1 }, bs)
  else .ok (d, bs)

/-- Reads the octet shared by temporal layer and key frame index, if one of them
is announced. The half that is not announced reads as zero. -/
def readLayerOctet (d : Descriptor) (bs : Octets) : Reading :=
  if d.hasTid || d.hasKeyIdx then
    match bs with
    | [] => .error .layerByte
    | b :: bs =>
      .ok ({ d with
        tid := if d.hasTid then b >>> 6 else 0
        layerSync := if d.hasTid then b >>> 5 &&& 1 else 0
        keyIdx := if d.hasKeyIdx then b &&& 0x1f else 0
        size := d.size + 1 }, bs)
  else .ok (d, bs)

/-- Reads the octet of flags and the parts that it announces. -/
def readExtension (d : Descriptor) : Octets → Reading
  | [] => .error .extension
  | x :: bs => do
    let d := { d with
      hasPictureId := x &&& 0x80 != 0
      hasTl0PicIdx := x &&& 0x40 != 0
      hasTid := x &&& 0x20 != 0
      hasKeyIdx := x &&& 0x10 != 0
      size := d.size + 1 }
    let (d, bs) ← d.readPictureId bs
    let (d, bs) ← d.readTl0PicIdx bs
    d.readLayerOctet bs

/-- Whether the frame data starts the first partition of a key frame. -/
def startsKeyFrame (firstOctet : UInt8) (body : Octets) : Bool :=
  firstOctet &&& 0x10 != 0 && firstOctet &&& 0x07 == 0 &&
    match body with
    | [] => false
    | b :: _ => b &&& 1 == 0

/-- Reads the descriptor of a payload, and returns it with the frame data. -/
def split : Octets → Reading
  | [] => .error .emptyPayload
  | b :: bs => do
    let d : Descriptor := { firstOctet := b, size := 1 }
    let (d, body) ← if b &&& 0x80 != 0 then d.readExtension bs else .ok (d, bs)
    return ({ d with keyFrame := startsKeyFrame b body }, body)

/-- Reads the descriptor of a payload. -/
def parse (payload : Octets) : Except Truncation Descriptor :=
  (split payload).map Prod.fst

/-- The octets of the picture id. -/
def encodePictureId (d : Descriptor) : Octets :=
  if d.hasPictureId then
    if d.longPictureId then
      Octets.ofWord16 (d.pictureId &&& 0x7fff ||| 0x8000)
    else [(d.pictureId &&& 0x7f).toUInt8]
  else []

/-- The octet of the index of the base layer frame. -/
def encodeTl0PicIdx (d : Descriptor) : Octets :=
  if d.hasTl0PicIdx then [d.tl0PicIdx] else []

/-- The octet shared by temporal layer and key frame index. -/
def encodeLayerOctet (d : Descriptor) : Octets :=
  if d.hasTid || d.hasKeyIdx then
    [(if d.hasTid then (d.tid &&& 3) <<< 6 ||| (d.layerSync &&& 1) <<< 5 else 0) |||
      (if d.hasKeyIdx then d.keyIdx &&& 0x1f else 0)]
  else []

/-- The octet of flags. -/
def flags (d : Descriptor) : UInt8 :=
  (if d.hasPictureId then 0x80 else 0) ||| (if d.hasTl0PicIdx then 0x40 else 0) |||
    (if d.hasTid then 0x20 else 0) ||| (if d.hasKeyIdx then 0x10 else 0)

/-- The octets of a descriptor. The highest bit of the first one follows from
the parts that are there. -/
def encode (d : Descriptor) : Octets :=
  if d.isExtended then
    (d.firstOctet ||| 0x80) :: d.flags ::
      (d.encodePictureId ++ d.encodeTl0PicIdx ++ d.encodeLayerOctet)
  else [d.firstOctet &&& 0x7f]

/-- Writes a descriptor over the front of a buffer that has to hold its announced
size, and returns how much was written and the whole buffer. -/
def writeInto (d : Descriptor) (buffer : Octets) : Attempt (Nat × Octets) :=
  if buffer.length < d.size then .error (.fault (.shortBuffer d.size buffer.length))
  else
    let bs := d.encode
    if buffer.length < bs.length then .error .overrun
    else .ok (bs.length, bs ++ buffer.drop bs.length)

/-- What a descriptor grows by when its picture id changes its width. -/
def pictureIdGrowth (long wasLong : Bool) : Int :=
  match long, wasLong with
  | true, false => 1
  | false, true => -1
  | _, _ => 0

end Descriptor

/-- No buffer is as large as this. -/
def sizeLimit : Nat := 0x8000000000000000

/-- Puts another descriptor in front of the frame data of a payload. -/
def replaceDescriptor (payload : Octets) (incoming outgoing : Descriptor) : Attempt Octets :=
  if payload.length < incoming.size then
    .error (.fault (.shortBuffer incoming.size payload.length))
  else if sizeLimit ≤ outgoing.size then .error .overrun
  else do
    let (_, bs) ← outgoing.writeInto (Octets.zeros outgoing.size)
    return bs ++ payload.drop incoming.size

end Simulcast.Vp8
