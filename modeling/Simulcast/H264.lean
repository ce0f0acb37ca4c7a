import Simulcast.Octets

/-!
# H.264 payloads

A payload holds one NAL unit, a fragment of one, or an aggregate of several, each
behind its length. `isKeyFrame` tells whether it starts or carries a picture that
can be decoded by itself, or the parameters of the sequence that precede one.
-/

namespace Simulcast.H264

/-- The type of the NAL unit that starts with an octet. -/
def unitType (b : UInt8) : UInt8 := b &&& 0x1f

/-- The type of an aggregate. -/
def aggregate : UInt8 := 24

/-- The type of a fragment. -/
def fragment : UInt8 := 28

/-- The types that a key frame begins with: a picture that refreshes the decoder,
or sequence parameters. -/
def isKeyType (t : UInt8) : Bool := t == 5 || t == 7

/-- Whether a unit of an aggregate is of a key type. A length that points past
the end leaves nothing to look at. -/
def aggregateHasKey : Octets → Bool
  | a :: b :: first :: rest =>
    isKeyType (unitType first) ||
      aggregateHasKey ((first :: rest).drop (Octets.word16 a b).toNat)
  | _ => false
termination_by bs => bs.length
decreasing_by simp; omega

/-- Whether a payload starts or carries a key frame. -/
def isKeyFrame : Octets → Bool
  | [] => false
  | first :: rest =>
    let t := unitType first
    if isKeyType t then true
    else if t = aggregate then aggregateHasKey rest
    else if t = fragment then
      match rest with
      | [] => false
      | head :: _ => head &&& 0x80 != 0 && isKeyType (unitType head)
    else false

end Simulcast.H264
