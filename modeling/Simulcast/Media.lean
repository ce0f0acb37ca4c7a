import Simulcast.Fault

/-!
# Tracks and codecs

What kind of media a track carries, which codec it uses, and what a peer
negotiated for it. Mime types are compared without regard to case.
-/

namespace Simulcast

/-- The media of a track. -/
inductive MediaKind where
  | audio
  | video
  deriving DecidableEq, Repr

namespace MediaKind

/-- The name of a kind. -/
def name : MediaKind → String
  | audio => "audio"
  | video => "video"

end MediaKind

/-- What a transport says a codec is for. -/
inductive CodecPurpose where
  | unspecified
  | audio
  | video
  deriving DecidableEq, Repr

namespace CodecPurpose

/-- The kind of a track with such a codec. -/
def kind : CodecPurpose → Except Fault MediaKind
  | audio => .ok .audio
  | video => .ok .video
  | unspecified => .error .unknownKind

end CodecPurpose

/-- A codec with its clock and its format parameters. -/
structure Codec where
  mime : String := ""
  clockRate : UInt32 := 0
  parameters : String := ""
  deriving DecidableEq, Repr

/-- A codec under the payload type that a peer gave it. -/
structure NegotiatedCodec where
  codec : Codec
  payloadType : UInt8 := 0
  deriving DecidableEq, Repr

/-- The codecs whose payloads are looked into. -/
inductive PayloadFormat where
  | vp8
  | h264
  | other
  deriving DecidableEq, Repr

/-- An ASCII letter in lower case; other characters are left alone. -/
def lowerAscii (c : Char) : Char :=
  if 'A' ≤ c ∧ c ≤ 'Z' then Char.ofNat (c.toNat + 32) else c

/-- Whether two mime types are the same but for the case of ASCII letters. -/
def sameMime (a b : String) : Bool :=
  a.toList.map lowerAscii == b.toList.map lowerAscii

namespace PayloadFormat

/-- The format that a mime type names. -/
def ofMime (mime : String) : PayloadFormat :=
  if sameMime mime "video/VP8" then .vp8
  else if sameMime mime "video/H264" then .h264
  else .other

end PayloadFormat

namespace Codec

/-- The format of the payloads. -/
def format (c : Codec) : PayloadFormat := PayloadFormat.ofMime c.mime

/-- Whether a mime type starts with a lower case word, whatever its own case.
The sign for degrees Kelvin is the one letter outside ASCII whose lower case is
inside it; no word asked for contains it. -/
def hasLead (lead mime : String) : Bool :=
  lead.toList.isPrefixOf (mime.toList.map lowerAscii)

/-- The kind of media, told by the front of the mime type. -/
def kind (c : Codec) : Except Fault MediaKind :=
  if hasLead "audio/" c.mime then .ok .audio
  else if hasLead "video/" c.mime then .ok .video
  else .error .unknownKind

/-- The offer that fits best: the first with the same mime type and parameters,
or else the first with the same mime type. -/
def bestOffer (c : Codec) (offers : List NegotiatedCodec) : Option NegotiatedCodec :=
  let fitting := offers.filter fun o => sameMime o.codec.mime c.mime
  (fitting.find? fun o => o.codec.parameters == c.parameters) <|> fitting.head?

end Codec

/-- The spatial layer of a stream named in a simulcast offer: full, half or
quarter size. -/
def layerOfRid (rid : String) : Int :=
  if rid = "f" then 2 else if rid = "h" then 1 else 0

end Simulcast
