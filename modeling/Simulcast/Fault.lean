/-!
# Faults

Why an operation of the relay refuses what it was given. `Fault.message` is the
text shown to an operator; `Fault.isTransient` picks out the conditions of a
healthy stream, which only mean that one packet is left out.
-/

namespace Simulcast

/-- Where a VP8 payload ends too early to hold its descriptor. -/
inductive Truncation where
  | emptyPayload
  | extension
  | pictureId
  | longPictureId
  | tl0PicIdx
  | layerByte
  deriving DecidableEq, Repr

namespace Truncation

/-- The part of the descriptor that is missing, in words. -/
def message : Truncation → String
  | emptyPayload => "empty payload"
  | extension => "missing extension byte"
  | pictureId => "missing picture id"
  | longPictureId => "truncated 15-bit picture id"
  | tl0PicIdx => "missing TL0PICIDX"
  | layerByte => "missing TID/KEYIDX"

end Truncation

/-- Why a packet cannot be read from, or written to, the wire. -/
inductive WireFault where
  /-- The fixed header, or its list of sources, is cut short. -/
  | headerTooShort
  /-- The extension area is cut short. -/
  | extensionTooShort
  /-- The padding is longer than the payload it ends. -/
  | paddingTooLong
  /-- The header announces more extension words than it fills. -/
  | sizeMismatch (written announced : Nat)
  deriving DecidableEq, Repr

namespace WireFault

/-- The reason in words. -/
def message : WireFault → String
  | headerTooShort => "RTP header size insufficient"
  | extensionTooShort => "RTP header size insufficient for extension"
  | paddingTooLong => "packet is not large enough"
  | sizeMismatch written announced =>
    "marshal_to output size " ++ toString written ++ ", but expect " ++ toString announced

end WireFault

/-- Why an operation is refused. -/
inductive Fault where
  /-- A late packet whose sequence number is no longer remembered as missing. -/
  | lateSequence
  /-- A packet without media, absorbed into the numbering. -/
  | paddingOnly
  /-- A packet seen before. -/
  | duplicate
  /-- Padding asked for in the middle of a frame. -/
  | notOnFrameBoundary
  /-- A late packet whose picture is not remembered. -/
  | latePicture
  /-- A packet of a temporal layer above the wanted one. -/
  | filteredTemporalLayer
  | unknownKind
  | notVp8
  | invalidVp8 (missing : Truncation)
  | shortBuffer (needed available : Nat)
  | unsupportedCodec (mime : String)
  | noBuffer (layer : Int)
  | packetNotFound (number : UInt16)
  | notBound
  | wire (reason : WireFault)
  | rtp (text : String)
  | rtcp (text : String)
  | transport (text : String)
  deriving DecidableEq, Repr

namespace Fault

/-- The text shown for a fault. -/
def message : Fault → String
  | lateSequence => "out-of-order sequence number not found in cache"
  | paddingOnly => "padding only packet that can be dropped"
  | duplicate => "duplicate packet"
  | notOnFrameBoundary => "padding packet can only be sent on frame boundary"
  | latePicture => "out-of-order VP8 picture id not found in cache"
  | filteredTemporalLayer => "filtered VP8 temporal layer"
  | unknownKind => "unknown track kind"
  | notVp8 => "not a VP8 packet"
  | invalidVp8 t => "invalid VP8 payload descriptor: " ++ t.message
  | shortBuffer needed available =>
    "buffer too short: need " ++ toString needed ++ " bytes, have " ++ toString available
  | unsupportedCodec mime => "unsupported codec: " ++ mime
  | noBuffer layer => "no buffer for layer " ++ toString layer
  | packetNotFound number => "packet " ++ toString number.toNat ++ " not found in buffer"
  | notBound => "down track is not bound"
  | wire reason => "marshal error: " ++ reason.message
  | rtp text => "RTP error: " ++ text
  | rtcp text => "RTCP error: " ++ text
  | transport text => "transport error: " ++ text

/-- A condition of a healthy stream: the packet is left out and counted, and
nobody is told. -/
def isTransient : Fault → Bool
  | lateSequence | paddingOnly | duplicate | notOnFrameBoundary | latePicture
  | filteredTemporalLayer => true
  | _ => false

end Fault

/-- How an operation on untrusted octets fails. -/
inductive Failure where
  /-- It refuses its input. -/
  | fault (reason : Fault)
  /-- It runs over the end of a buffer, which stops the whole run. -/
  | overrun
  deriving DecidableEq, Repr

/-- The outcome of an operation on untrusted octets. -/
abbrev Attempt (α : Type) := Except Failure α

end Simulcast
