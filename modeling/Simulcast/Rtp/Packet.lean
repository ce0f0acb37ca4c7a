import Simulcast.Rtp.Header

/-!
# RTP packets

A packet is a header and a payload. Padding at the end is not kept: the header
says whether there was some, and a packet that is written with padding gets as
much as brings its payload to a whole number of words, never none.
-/

namespace Simulcast.Rtp

/-- An RTP packet, without its padding. -/
structure Packet where
  header : Header
  payload : Octets
  deriving DecidableEq, Repr

namespace Packet

/-- The payload without the padding that its last octet counts. -/
def stripPadding (payload : Octets) : Attempt Octets :=
  match payload.getLast? with
  | none => Header.refuse .paddingTooLong
  | some count =>
    if count.toNat ≤ payload.length then .ok (payload.take (payload.length - count.toNat))
    else Header.refuse .paddingTooLong

/-- Reads a packet that fills the octets. -/
def parse (bs : Octets) : Attempt Packet :=
  match Header.parse bs with
  | .error e => .error e
  | .ok (header, rest) =>
    if header.padding then (stripPadding rest).map fun payload => { header, payload }
    else .ok { header, payload := rest }

/-- The padding written behind a payload. -/
def paddingSize (p : Packet) : Nat :=
  if p.header.padding then 4 - p.payload.length % 4 else 0

/-- The size that is announced for a packet. -/
def size (p : Packet) : Nat :=
  p.header.size + p.payload.length + p.paddingSize

/-- The padding octets: zeros, then the count of all of them. -/
def encodePadding (p : Packet) : Octets :=
  match p.paddingSize with
  | 0 => []
  | n + 1 => Octets.zeros n ++ [UInt8.ofNat (n + 1)]

/-- The octets of a packet, padding included. -/
def octets (p : Packet) : Octets :=
  p.header.encode ++ p.payload ++ p.encodePadding

/-- Writes a packet, and refuses when the header announces more than it fills. -/
def encode (p : Packet) : Except Fault Octets :=
  let bs := p.octets
  if bs.length = p.size then .ok bs else .error (.wire (.sizeMismatch bs.length p.size))

end Packet
end Simulcast.Rtp
