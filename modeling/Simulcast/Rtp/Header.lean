import Simulcast.Octets
import Simulcast.Fault

/-!
# RTP headers

The fixed header, the contributing sources and the header extensions of an RTP
packet, read from the wire by `Header.parse` and written by `Header.encode`.

Extension elements come in three layouts, told apart by the profile word. In the
two layouts of several elements a zero octet is padding; the header remembers how
many it met, since they count when the size of the extension area is announced
though they are not written again.
-/

namespace Simulcast.Rtp

/-- How the extension area is laid out. -/
inductive Layout where
  /-- Elements led by one octet that holds both identifier and length. -/
  | oneOctet
  /-- Elements led by an octet each for identifier and length. -/
  | twoOctet
  /-- One element without identifier that fills the area. -/
  | opaqueBlock
  deriving DecidableEq, Repr

namespace Layout

/-- The profile word of elements led by one octet. -/
def oneOctetProfile : UInt16 := 0xBEDE

/-- The profile word of elements led by two octets. -/
def twoOctetProfile : UInt16 := 0x1000

/-- The layout that a profile word stands for. -/
def ofProfile (profile : UInt16) : Layout :=
  if profile = oneOctetProfile then .oneOctet
  else if profile = twoOctetProfile then .twoOctet
  else .opaqueBlock

/-- The octets in front of the data of each element. -/
def lead : Layout → Nat
  | oneOctet => 1
  | twoOctet => 2
  | opaqueBlock => 0

end Layout

/-- An element of the extension area. -/
structure Extension where
  id : UInt8
  data : Octets
  deriving DecidableEq, Repr

/-- What stands in front of the payload of an RTP packet. -/
structure Header where
  version : UInt8 := 2
  padding : Bool := false
  /-- Whether there is an extension area. -/
  extended : Bool := false
  marker : Bool := false
  payloadType : UInt8 := 0
  number : UInt16 := 0
  timestamp : UInt32 := 0
  ssrc : UInt32 := 0
  sources : List UInt32 := []
  profile : UInt16 := 0
  extensions : List Extension := []
  /-- Zero octets met between the elements. -/
  extensionPadding : Nat := 0
  deriving DecidableEq, Repr

/-- What is read from an extension area: its elements, the zero octets between
them, and the octets that follow. -/
structure ExtensionArea where
  extensions : List Extension := []
  padding : Nat := 0
  rest : Octets
  deriving DecidableEq, Repr

namespace ExtensionArea

/-- The area with one more zero octet in it. -/
def addPadding (a : ExtensionArea) : ExtensionArea :=
  { a with padding := a.padding + 1 }

/-- The area with one more element in front. -/
def addExtension (e : Extension) (a : ExtensionArea) : ExtensionArea :=
  { a with extensions := e :: a.extensions }

end ExtensionArea

/-- The identifier that ends an area of elements led by one octet. -/
def endOfElements : UInt8 := 15

/-- Reads elements led by one octet until `n` octets are used up. The data of
the last one may lie beyond them. -/
def readOneOctet : Nat → Octets → Attempt ExtensionArea
  | 0, bs => .ok { rest := bs }
  | _ + 1, [] => .error .overrun
  | n + 1, b :: bs =>
    if b = 0 then (readOneOctet n bs).map .addPadding
    else if b >>> 4 = endOfElements then .ok { rest := bs }
    else
      let size := (b &&& 15).toNat + 1
      if size ≤ bs.length then
        (readOneOctet (n - size) (bs.drop size)).map (.addExtension ⟨b >>> 4, bs.take size⟩)
      else .error .overrun
termination_by n => n

/-- Reads elements led by two octets until `n` octets are used up. The data of
the last one may lie beyond them. -/
def readTwoOctet : Nat → Octets → Attempt ExtensionArea
  | 0, bs => .ok { rest := bs }
  | _ + 1, [] => .error .overrun
  | n + 1, b :: bs =>
    if b = 0 then (readTwoOctet n bs).map .addPadding
    else match bs with
      | [] => .error .overrun
      | l :: bs =>
        let size := l.toNat
        if size ≤ bs.length then
          (readTwoOctet (n - 1 - size) (bs.drop size)).map (.addExtension ⟨b, bs.take size⟩)
        else .error .overrun
termination_by n => n

/-- Reads an extension area of `n` octets. -/
def readArea (layout : Layout) (n : Nat) (bs : Octets) : Attempt ExtensionArea :=
  match layout with
  | .oneOctet => readOneOctet n bs
  | .twoOctet => readTwoOctet n bs
  | .opaqueBlock => .ok { extensions := [⟨0, bs.take n⟩], rest := bs.drop n }

namespace Header

/-- The octets of the fixed part. -/
def fixedSize : Nat := 12

/-- Refuses a message for a reason of the wire. -/
def refuse {α : Type} (reason : WireFault) : Attempt α :=
  .error (.fault (.wire reason))

/-- Reads the extension area announced by `h`, if there is one. -/
def readExtensions (h : Header) (bs : Octets) : Attempt (Header × Octets) :=
  if h.extended then
    match Octets.word16? bs with
    | none => refuse .extensionTooShort
    | some (profile, bs) => match Octets.word16? bs with
      | none => refuse .extensionTooShort
      | some (words, bs) =>
        let n := words.toNat * 4
        if bs.length < n then refuse .extensionTooShort
        else (readArea (Layout.ofProfile profile) n bs).map fun a =>
          ({ h with
              profile := profile
              extensions := a.extensions
              extensionPadding := a.padding }, a.rest)
  else .ok (h, bs)

/-- The fields of the fixed part, and the contributing sources. -/
def readFixed : Octets → Option (Header × Octets)
  | b₀ :: b₁ :: bs => do
    let (number, bs) ← Octets.word16? bs
    let (timestamp, bs) ← Octets.word32? bs
    let (ssrc, bs) ← Octets.word32? bs
    let (sources, bs) ← Octets.words32? (b₀ &&& 15).toNat bs
    return ({
      version := b₀ >>> 6
      padding := b₀ &&& 0x20 != 0
      extended := b₀ &&& 0x10 != 0
      marker := b₁ &&& 0x80 != 0
      payloadType := b₁ &&& 0x7f
      number, timestamp, ssrc, sources }, bs)
  | _ => none

/-- Reads a header and returns it with the octets that follow. -/
def parse (bs : Octets) : Attempt (Header × Octets) :=
  match readFixed bs with
  | none => refuse .headerTooShort
  | some (h, bs) => h.readExtensions bs

/-- The layout of the extension area. -/
def layout (h : Header) : Layout := Layout.ofProfile h.profile

/-- The octets that the elements take, each with its lead. -/
def elementSize (h : Header) : Nat :=
  h.extensions.foldr (fun e n => e.data.length + h.layout.lead + n) 0

/-- The octets of words enough for `n` octets. -/
def wordAligned (n : Nat) : Nat := (n + 3) / 4 * 4

/-- The size that is announced for a header. -/
def size (h : Header) : Nat :=
  fixedSize + 4 * h.sources.length +
    if h.extended then 4 + wordAligned (h.elementSize + h.extensionPadding) else 0

/-- One element of the extension area. -/
def encodeExtension (layout : Layout) (e : Extension) : Octets :=
  match layout with
  | .oneOctet => (e.id <<< 4 ||| UInt8.ofNat e.data.length - 1) :: e.data
  | .twoOctet => e.id :: UInt8.ofNat e.data.length :: e.data
  | .opaqueBlock => e.data

/-- The extension area: profile, count of words, elements, and zeros up to a
whole word. -/
def encodeExtensions (h : Header) : Octets :=
  if h.extended then
    let size := wordAligned h.elementSize
    Octets.ofWord16 h.profile ++ Octets.ofWord16 (UInt16.ofNat (size / 4)) ++
      (h.extensions.flatMap (encodeExtension h.layout)) ++ Octets.zeros (size - h.elementSize)
  else []

/-- A bit in its place, if the flag is set. -/
def flag (on : Bool) (bit : UInt8) : UInt8 := if on then bit else 0

/-- The octets of a header. -/
def encode (h : Header) : Octets :=
  (h.version <<< 6 ||| flag h.padding 0x20 ||| flag h.extended 0x10 |||
      UInt8.ofNat h.sources.length) ::
    (flag h.marker 0x80 ||| h.payloadType) ::
    (Octets.ofWord16 h.number ++ Octets.ofWord32 h.timestamp ++ Octets.ofWord32 h.ssrc ++
      h.sources.flatMap Octets.ofWord32 ++ h.encodeExtensions)

/-- The header without its extensions. The zero octets that were met between
them stay counted. -/
def withoutExtensions (h : Header) : Header :=
  { h with extended := false, profile := 0, extensions := [] }

end Header
end Simulcast.Rtp
