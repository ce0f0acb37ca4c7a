import Simulcast.Subscription.Feedback

/-!
# Commands to a subscription

All that can be asked of a subscription, as one type, and what it answers. A run of a
subscription is a list of commands.
-/

namespace Simulcast

/-- What a subscription may be asked to do. -/
inductive SubscriptionCommand where
  | bind (offer : BindOffer)
  | unbind
  | write (a : Arrival) (layer : Int)
  | padding (budget : Nat)
  | blankFrames
  | close
  | mute (on : Bool)
  | boundSpatial (layer : Int)
  | boundTemporal (layer : Int)
  | setAvailable (layers : List Int)
  | setSimulcast (on : Bool)
  | bandwidthNeeded
  | allocate (capacity : Int)
  | tryAllocate (extra : Int)
  | allocateNextHigher
  | finalize
  | rtcp (raw : Octets)
  | senderReport
  | canonicalName
  deriving DecidableEq, Repr

namespace SubscriptionCommand

/-- Whether the bitrates of the publisher are looked at. -/
def usesBitrates : SubscriptionCommand → Bool
  | bandwidthNeeded | allocate _ | tryAllocate _ | allocateNextHigher | finalize => true
  | _ => false

end SubscriptionCommand

/-- What a subscription answers. -/
inductive SubscriptionAnswer where
  | done
  | fault (e : Fault)
  /-- A packet was taken. -/
  | taken
  | codec (c : NegotiatedCodec)
  | count (n : Nat)
  | bandwidth (rate : Int)
  | allocation (a : Allocation)
  | senderReport (r : Option Subscription.SenderReport)
  | canonicalName (n : Option (UInt32 × String))
  deriving DecidableEq, Repr

namespace Subscription

/-- A subscription with its notices and its answer. -/
abbrev Outcome := Subscription × List Notice × SubscriptionAnswer

/-- The answer to a request that may be refused. -/
def answerOf {α : Type} (answer : α → SubscriptionAnswer) : Except Fault α → SubscriptionAnswer
  | .ok a => answer a
  | .error e => .fault e

/-- The outcome of an operation that only makes things known. -/
def told (r : Subscription × List Notice) : Outcome := (r.1, r.2, .done)

/-- The outcome of an allocation. -/
def allocated (r : Subscription × Allocation) : Outcome := (r.1, [], .allocation r.2)

/-- Does what a command asks for, with a publisher that has the given bitrates. -/
def perform (s : Subscription) (v : PublisherView) (brs : Bitrates) (now : Moment) :
    SubscriptionCommand → Attempt Outcome
  | .bind offer =>
    let (s, notices, r) := s.bind offer
    .ok (s, notices, answerOf .codec r)
  | .unbind => .ok (told s.unbind)
  | .write a layer => (s.write now a layer).map fun (s, notices, r) =>
    (s, notices, answerOf (fun _ => .taken) r)
  | .padding budget =>
    let (s, n) := s.writePadding budget
    .ok (s, [], .count n)
  | .blankFrames =>
    let (s, r) := s.writeBlankFrames
    match r with
    | .ok n => .ok (s, [], .count n)
    | .error (.fault e) => .ok (s, [], .fault e)
    | .error .overrun => .error .overrun
  | .close => .ok (told s.close)
  | .mute on => .ok (told (s.mute on))
  | .boundSpatial layer => .ok (told (s.boundSpatial layer))
  | .boundTemporal layer => .ok (told (s.boundTemporal layer))
  | .setAvailable layers => .ok (told (s.setAvailable layers))
  | .setSimulcast on => .ok (s.setSimulcast on, [], .done)
  | .bandwidthNeeded => .ok (s, [], .bandwidth (s.forwarder.bandwidthNeeded brs))
  | .allocate capacity => .ok (allocated (s.allocate capacity brs))
  | .tryAllocate extra => .ok (allocated (s.tryAllocate extra brs))
  | .allocateNextHigher => .ok (allocated (s.allocateNextHigher brs))
  | .finalize => .ok (s.finalize brs, [], .done)
  | .rtcp raw => (s.handleRtcp now raw).map told
  | .senderReport => .ok (s, [], .senderReport (s.senderReport v now))
  | .canonicalName => .ok (s, [], .canonicalName s.canonicalName)

end Subscription
end Simulcast
