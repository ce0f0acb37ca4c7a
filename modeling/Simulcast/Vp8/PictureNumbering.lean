import Simulcast.Numbering
import Simulcast.Vp8.PictureId

/-!
# Numbering of pictures

What a `Numbering` does for packets, a `PictureNumbering` does for VP8 pictures: it
keeps the picture ids and the two indices of a subscriber's stream in step when
temporal layers are filtered out, when the source changes and when frames are
generated. Offsets are taken off once for each picture, however many packets it
spans. Numbers and offsets are signed words of 32 bits, and wrap.
-/

namespace Simulcast.Vp8

/-- The state of a mapping of picture ids and indices. -/
structure PictureNumbering where
  clock : PictureClock := {}
  /-- The last picture sent, by the subscriber's count. -/
  lastPicture : Int32 := 0
  pictureOffset : Int32 := 0
  usesPictureId : Bool := false
  lastTl0 : UInt8 := 0
  tl0Offset : UInt8 := 0
  usesTl0 : Bool := false
  usesTid : Bool := false
  lastKeyIdx : UInt8 := 0
  keyIdxOffset : UInt8 := 0
  usesKeyIdx : Bool := false
  /-- Pictures that may have lost packets, with the offset in force for them. -/
  missing : Backlog Int32 Int32 := {}
  /-- The last picture filtered out. -/
  lastFiltered : Option Int32 := none
  deriving Repr

namespace PictureNumbering

/-- How many pictures may have lost packets. -/
def window : Nat := 50

/-- The bits of a key frame index that count. -/
def keyIdxMask : UInt8 := 0x1f

/-- The highest picture id of seven bits. -/
def shortest : UInt16 := 127

/-- Starts with the picture of a packet, which keeps its values. -/
def start (n : PictureNumbering) (a : Arrival) : PictureNumbering :=
  match a.vp8 with
  | none => n
  | some d =>
    { n with
      usesPictureId := d.hasPictureId
      clock := if d.hasPictureId then PictureClock.before d else n.clock
      lastPicture := if d.hasPictureId then Int32.ofInt d.pictureId.toNat else n.lastPicture
      usesTl0 := d.hasTl0PicIdx
      lastTl0 := if d.hasTl0PicIdx then d.tl0PicIdx else n.lastTl0
      usesTid := d.hasTid
      usesKeyIdx := d.hasKeyIdx
      lastKeyIdx := if d.hasKeyIdx then d.keyIdx else n.lastKeyIdx
      lastFiltered := none }

/-- Changes the source to that of a packet, whose picture is to come right after
the last one sent. -/
def changeSource (n : PictureNumbering) (a : Arrival) : PictureNumbering :=
  match a.vp8 with
  | none => n
  | some d =>
    { n with
      clock := if n.usesPictureId then PictureClock.before d else n.clock
      pictureOffset :=
        if n.usesPictureId then Int32.ofInt d.pictureId.toNat - n.lastPicture - 1
        else n.pictureOffset
      tl0Offset := if n.usesTl0 then d.tl0PicIdx - n.lastTl0 - 1 else n.tl0Offset
      keyIdxOffset :=
        if n.usesKeyIdx then (d.keyIdx - n.lastKeyIdx - 1) &&& keyIdxMask
        else n.keyIdxOffset
      missing := .empty
      lastFiltered := none }

/-- The picture id that stands for a number. -/
def idOf (number : Int) : UInt16 := UInt16.ofNat (number % 0x8000).toNat

/-- A size grown by a signed amount, in words of 64 bits. -/
def grow (size : Nat) (growth : Int) : Nat := ((size + growth) % 0x10000000000000000).toNat

/-- The descriptor of a packet as the subscriber gets it, for a picture of the
given number. An id takes fifteen bits only where it has to. -/
def renumber (n : PictureNumbering) (d : Descriptor) (number : Int32) : Descriptor :=
  let d :=
    if d.hasPictureId then
      let id := idOf number.toInt
      let long : Bool := shortest < id
      { d with
        pictureId := id
        longPictureId := long
        size := grow d.size (Descriptor.pictureIdGrowth long d.longPictureId) }
    else d
  { d with
    tl0PicIdx := d.tl0PicIdx - n.tl0Offset
    keyIdx := (d.keyIdx - n.keyIdxOffset) &&& keyIdxMask }

/-- Remembers that packets of pictures from `first` to `last` may be missing. -/
def noteLost (n : PictureNumbering) (first last : Int32) : PictureNumbering :=
  let pictures := (List.range (last.toInt + 1 - first.toInt).toNat).map fun (i : Nat) =>
    first + Int32.ofInt i
  { n with missing := (n.missing.insertEach pictures n.pictureOffset).keepNewest window }

/-- Filters out a picture, or one more packet of it. -/
def filterOut (n : PictureNumbering) (number : Int32) : PictureNumbering :=
  if n.lastFiltered = some number then n
  else { n with lastFiltered := some number, pictureOffset := n.pictureOffset + 1 }

/-- Sends a packet of the picture with the given number in the source. -/
def send (n : PictureNumbering) (d : Descriptor) (number : Int32) : PictureNumbering × Descriptor :=
  let out := n.renumber d (number - n.pictureOffset)
  ({ n with
      lastPicture := if n.usesPictureId then number - n.pictureOffset else n.lastPicture
      lastTl0 := out.tl0PicIdx
      lastKeyIdx := out.keyIdx }, out)

/-- The descriptor of a packet that comes late, if packets of its picture may be
missing. The picture stays remembered, as more of them may follow. -/
def describeLate (n : PictureNumbering) (d : Descriptor) (number : Int32) :
    Except Fault Descriptor :=
  match n.missing.find? number with
  | none => .error .latePicture
  | some offset => .ok (n.renumber d (number - offset))

/-- Describes a packet that comes after a gap. It is sent even if its temporal
layer is not wanted, since the lost packets may have been; only a picture that was
filtered out stays so. -/
def describeAfterGap (n : PictureNumbering) (d : Descriptor) (previous number : Int32) :
    PictureNumbering × Except Fault Descriptor :=
  if n.lastFiltered = some number then (n, .error .filteredTemporalLayer)
  else
    let (n, out) := (n.noteLost previous number).send d number
    (n, .ok out)

/-- Describes a packet that follows directly, unless its temporal layer exceeds
the highest one wanted. -/
def describeNext (n : PictureNumbering) (d : Descriptor) (number : Int32) (maxTemporal : Int) :
    PictureNumbering × Except Fault Descriptor :=
  if d.hasTid ∧ maxTemporal < d.tid.toNat then
    (n.filterOut number, .error .filteredTemporalLayer)
  else
    let (n, out) := n.send d number
    (n, .ok out)

/-- The descriptor of a packet for the subscriber, or why it is left out. -/
def describe (n : PictureNumbering) (a : Arrival) (standing : Standing) (maxTemporal : Int) :
    PictureNumbering × Except Fault Descriptor :=
  match a.vp8 with
  | none => (n, .error .notVp8)
  | some d =>
    let number := n.clock.unwrap d.pictureId d.longPictureId
    if standing = .late then (n, n.describeLate d number)
    else
      let previous := n.clock.newest
      let n := { n with clock := n.clock.advance number d.longPictureId }
      if standing = .gap then n.describeAfterGap d previous number
      else n.describeNext d number maxTemporal

/-- The octets of a generated descriptor with the given picture id. -/
def generatedSize (n : PictureNumbering) (long : Bool) : Nat :=
  let part (on : Bool) (size : Nat) : Nat := if on then size else 0
  1 + part (n.usesPictureId || n.usesTl0 || n.usesTid || n.usesKeyIdx) 1 +
    part n.usesPictureId (if long then 2 else 1) + part n.usesTl0 1 +
    part (n.usesTid || n.usesKeyIdx) 1

/-- Steps to the picture of a generated frame: the next one, or the one in
flight. The offsets step back, so that the source goes on behind it. -/
def stepGenerated (n : PictureNumbering) (newPicture : Bool) : PictureNumbering :=
  let step : UInt8 := if newPicture then 1 else 0
  { n with
    lastPicture := if n.usesPictureId then n.lastPicture + Int32.ofInt step.toNat else n.lastPicture
    pictureOffset := if n.usesPictureId then n.pictureOffset - Int32.ofInt step.toNat
      else n.pictureOffset
    lastTl0 := if n.usesTl0 then n.lastTl0 + step else n.lastTl0
    tl0Offset := if n.usesTl0 then n.tl0Offset - step else n.tl0Offset
    lastKeyIdx := if n.usesKeyIdx then (n.lastKeyIdx + step) &&& keyIdxMask else n.lastKeyIdx
    keyIdxOffset := if n.usesKeyIdx then n.keyIdxOffset - step else n.keyIdxOffset }

/-- The descriptor of a generated frame for the picture that was stepped to: the
start of a key frame in the base layer. -/
def generatedDescriptor (n : PictureNumbering) : Descriptor :=
  let id := if n.usesPictureId then idOf n.lastPicture.toInt else 0
  let long : Bool := shortest < id
  { firstOctet := 0x10
    hasPictureId := n.usesPictureId
    pictureId := id
    longPictureId := long
    hasTl0PicIdx := n.usesTl0
    tl0PicIdx := if n.usesTl0 then n.lastTl0 else 0
    hasTid := n.usesTid
    tid := 0
    layerSync := 1
    hasKeyIdx := n.usesKeyIdx
    keyIdx := if n.usesKeyIdx then n.lastKeyIdx else 0
    size := n.generatedSize long
    keyFrame := true }

/-- A descriptor for a generated frame, of a new picture or of that in flight. -/
def generate (n : PictureNumbering) (newPicture : Bool) : PictureNumbering × Descriptor :=
  let n := n.stepGenerated newPicture
  (n, n.generatedDescriptor)

end PictureNumbering
end Simulcast.Vp8
