import Simulcast.Octets
import Simulcast.Fault

/-!
# RTCP messages

A subscriber reports back in compounds of RTCP messages. `Message.parseCompound`
reads those that the relay acts on; every other message is accepted as `other`.
One message that cannot be read spoils its whole compound.
-/

namespace Simulcast.Rtcp

/-- What a receiver says about one stream it gets. -/
structure ReceptionReport where
  ssrc : UInt32
  /-- The share of packets lost since the last report, in units of 1/256. -/
  fractionLost : UInt8
  totalLost : UInt32
  lastNumber : UInt32
  jitter : UInt32
  lastSenderReport : UInt32
  delay : UInt32
  deriving DecidableEq, Repr

/-- A receiver report: who reports, on what, and what follows the reports. -/
structure ReceiverReport where
  ssrc : UInt32
  reports : List ReceptionReport
  profileExtension : Octets
  deriving DecidableEq, Repr

/-- An estimate of the bandwidth toward a receiver. -/
structure BandwidthEstimate where
  sender : UInt32
  /-- The rate in bits per second, as the bits of a single precision number. -/
  rate : UInt32
  ssrcs : List UInt32
  deriving DecidableEq, Repr

/-- Packets asked for again: a first one, and a bit for each of the next sixteen. -/
structure LossPair where
  first : UInt16
  mask : UInt16
  deriving DecidableEq, Repr

/-- A message from a subscriber. -/
inductive Message where
  | pictureLoss
  | fullIntraRequest
  | bandwidthEstimate (estimate : BandwidthEstimate)
  | receiverReport (report : ReceiverReport)
  | nack (losses : List LossPair)
  | other
  deriving DecidableEq, Repr

namespace LossPair

/-- The packets that a pair asks for, in order. -/
def numbers (p : LossPair) : List UInt16 :=
  p.first :: ((List.range 16).filter fun i => p.mask.toNat.testBit i).map
    fun i => p.first + 1 + UInt16.ofNat i

end LossPair

/-- The header in front of every message. -/
structure Lead where
  count : Nat
  kind : UInt8
  /-- Octets that follow the header. -/
  size : Nat
  deriving DecidableEq, Repr

/-- Why a compound is not acted on. -/
inductive Rejection where
  /-- A message is malformed: the compound is dropped. -/
  | malformed
  /-- A list in a message runs over its end. -/
  | overrun
  deriving DecidableEq, Repr

/-- The outcome of reading RTCP. -/
abbrev Reading (α : Type) := Except Rejection α

/-- A part that has to be there. -/
def require {α : Type} (reason : Rejection) : Option α → Reading α
  | some a => .ok a
  | none => .error reason

/-- Reads the header of a message. -/
def parseLead : Octets → Reading (Lead × Octets)
  | b :: kind :: l₀ :: l₁ :: rest =>
    if b >>> 6 = 2 then
      .ok ({ count := (b &&& 31).toNat, kind, size := (Octets.word16 l₀ l₁).toNat * 4 }, rest)
    else .error .malformed
  | _ => .error .malformed

namespace ReceptionReport

/-- The octets of one block. -/
def blockSize : Nat := 24

/-- Reads one block from the front. -/
def parse? (bs : Octets) : Option (ReceptionReport × Octets) := do
  let (ssrc, bs) ← Octets.word32? bs
  let (loss, bs) ← Octets.word32? bs
  let (lastNumber, bs) ← Octets.word32? bs
  let (jitter, bs) ← Octets.word32? bs
  let (lastSenderReport, bs) ← Octets.word32? bs
  let (delay, bs) ← Octets.word32? bs
  return ({
    ssrc
    fractionLost := UInt8.ofNat (loss.toNat / 0x1000000)
    totalLost := loss &&& 0xffffff
    lastNumber, jitter, lastSenderReport, delay }, bs)

/-- Reads `n` blocks from the front. -/
def parseMany? : Nat → Octets → Option (List ReceptionReport × Octets)
  | 0, bs => some ([], bs)
  | n + 1, bs => do
    let (r, bs) ← parse? bs
    let (rs, bs) ← parseMany? n bs
    return (r :: rs, bs)

end ReceptionReport

/-- Reads a receiver report with `count` blocks. -/
def parseReceiverReport (count : Nat) (body : Octets) : Reading Message := do
  let (ssrc, bs) ← require .malformed (Octets.word32? body)
  let (reports, rest) ← require .malformed (ReceptionReport.parseMany? count bs)
  return .receiverReport { ssrc, reports, profileExtension := rest }

/-- The pairs that fill the octets. -/
def lossPairs : Octets → List LossPair
  | a :: b :: c :: d :: rest => ⟨Octets.word16 a b, Octets.word16 c d⟩ :: lossPairs rest
  | _ => []

/-- Sender and media source, in front of every feedback message. -/
def parseParties (body : Octets) : Reading (UInt32 × UInt32 × Octets) := do
  let (sender, bs) ← require .malformed (Octets.word32? body)
  let (media, bs) ← require .overrun (Octets.word32? bs)
  return (sender, media, bs)

/-- Reads a request for lost packets. -/
def parseNack (body : Octets) : Reading Message := do
  let (_, _, bs) ← parseParties body
  return .nack (lossPairs bs)

/-- Reads a request for a key frame by a loss of picture. -/
def parsePictureLoss (body : Octets) : Reading Message :=
  if body.length < 8 then .error .malformed else .ok .pictureLoss

/-- Reads a request for a key frame by its list of sources. -/
def parseFullIntraRequest (body : Octets) : Reading Message := do
  let (_, _, bs) ← parseParties body
  if bs.length % 8 = 0 then return .fullIntraRequest else throw .overrun

/-- The mark of a bandwidth estimate: `REMB`. -/
def estimateMark : UInt32 := 0x52454d42

/-- The bits of the single precision number `mantissa * 2^exponent`, for a
mantissa of 18 bits: it is shifted up to the place of the leading bit, which is
not written. -/
def singleBits (exponent mantissa : Nat) : UInt32 :=
  let shift := if mantissa = 0 then 0 else 23 - mantissa.log2
  let e := exponent + 150 - shift
  UInt32.ofNat (e * 0x800000) ||| (UInt32.ofNat (mantissa <<< shift) &&& 0x7fffff)

/-- Reads a bandwidth estimate. -/
def parseBandwidthEstimate (body : Octets) : Reading Message := do
  let (sender, bs) ← require .malformed (Octets.word32? body)
  let (media, bs) ← require .malformed (Octets.word32? bs)
  let (mark, bs) ← require .malformed (Octets.word32? bs)
  let (rate, bs) ← require .malformed (Octets.word32? bs)
  if media != 0 || mark != estimateMark then throw .malformed
  let (ssrcs, _) ← require .overrun (Octets.words32? (rate.toNat / 0x1000000) bs)
  return .bandwidthEstimate {
    sender
    rate := singleBits (rate.toNat / 0x40000 % 64) (rate.toNat % 0x40000)
    ssrcs }

/-- Accepts a sender report that holds the blocks it counts. -/
def parseSenderReport (count : Nat) (body : Octets) : Reading Message :=
  if body.length < 24 + ReceptionReport.blockSize * count then .error .malformed else .ok .other

/-- Accepts a farewell that holds the sources it counts and the whole of its
reason, if it gives one. -/
def parseFarewell (count : Nat) (body : Octets) : Reading Message :=
  if body.length < 4 * count then .error .malformed
  else match body.drop (4 * count) with
    | [] => .ok .other
    | size :: reason => if reason.length < size.toNat then .error .malformed else .ok .other

/-- Reads the body of a message of the announced kind. -/
def parseBody (lead : Lead) (body : Octets) : Reading Message :=
  match lead.kind.toNat, lead.count with
  | 200, count => parseSenderReport count body
  | 201, count => parseReceiverReport count body
  | 203, count => parseFarewell count body
  | 205, 1 => parseNack body
  | 206, 1 => parsePictureLoss body
  | 206, 4 => parseFullIntraRequest body
  | 206, 15 => parseBandwidthEstimate body
  | _, _ => .ok .other

/-- Reads one message, and returns what follows it. -/
def parseMessage (bs : Octets) : Reading (Message × Octets) := do
  let (lead, rest) ← parseLead bs
  let (body, rest) ← require .malformed (Octets.take? lead.size rest)
  let m ← parseBody lead body
  return (m, rest)

/-- Reads messages until the octets end. Each takes at least one octet, so that
there are no more of them than `fuel`, the number of octets. -/
def parseMessages : Nat → Octets → Reading (List Message)
  | _, [] => .ok []
  | 0, _ => .error .malformed
  | fuel + 1, bs => do
    let (m, rest) ← parseMessage bs
    let ms ← parseMessages fuel rest
    return m :: ms

/-- Reads a compound: at least one message, and nothing else. -/
def parseCompound (bs : Octets) : Reading (List Message) :=
  if bs.isEmpty then .error .malformed else parseMessages bs.length bs

/-- A request for a key frame, as it is sent to a publisher: nobody in
particular asks for the stream `media`. -/
def encodePictureLoss (media : UInt32) : Octets :=
  [0x81, 206] ++ Octets.ofWord16 2 ++ Octets.ofWord32 0 ++ Octets.ofWord32 media

end Simulcast.Rtcp
