import Simulcast.Publication.Basic
import Simulcast.Subscription.Command

/-!
# A relay of one publication

A relay joins a publication with those who subscribe to it. What the publication
emits is brought to the members it is for, and what members ask of the publisher is
brought back to it. After each operation `settle` does all the work that is left.
-/

namespace Simulcast

/-- Somebody who can subscribe. -/
inductive Member where
  /-- An observer that is only told things. It may end the publication as soon as it
  learns what kind of track it gets. -/
  | observer (endsPublication : Bool)
  /-- A subscription, and its link. -/
  | subscription (s : Subscription) (link : Link)
  deriving Repr

/-- What happens in a relay. -/
inductive RelayEvent where
  /-- An observer is told something. -/
  | observed (member : Nat) (d : Delivery)
  /-- A subscription makes something known. -/
  | notice (member : Nat) (n : Notice)
  /-- The publication has ended. -/
  | closed
  deriving DecidableEq, Repr

/-- A publication and its members, known to it by their numbers. -/
structure Relay where
  publication : Publication
  members : List Member := []
  moment : Moment
  deriving Repr

namespace Relay

/-- A relay with what happened in it. -/
abbrev Result := Relay × List RelayEvent

/-- Goes on with another operation. -/
def andThen (r : Result) (next : Relay → Result) : Result :=
  let (s, later) := next r.1
  (s, r.2 ++ later)

/-- What a subscription may ask the publisher. -/
def view (r : Relay) : Subscription.PublisherView :=
  { packet := r.publication.stored, clock := r.publication.clock }

/-- The subscription of a member. -/
def subscription? (r : Relay) (member : Nat) : Option (Subscription × Link) :=
  match r.members[member]? with
  | some (.subscription s link) => some (s, link)
  | _ => none

/-- Changes the publication. -/
def onPublication (r : Relay) (change : Publication → Publication) : Relay :=
  { r with publication := change r.publication }

/-- Replaces a member. -/
def setMember (r : Relay) (member : Nat) (m : Member) : Relay :=
  { r with members := r.members.set member m }

/-- Brings a notice to the publication if it is meant for it, and makes it known
otherwise. -/
def notify (member : Nat) (r : Relay) (n : Notice) : Result :=
  match n with
  | .askKeyFrame layer =>
    (r.onPublication fun p => p.askKeyFrame layer r.moment.time, [])
  | .leave peer => (r.onPublication fun p => p.unsubscribe peer, [])
  | n => (r, [.notice member n])

/-- Brings notices on their way in turn. -/
def notifyAll (member : Nat) : Relay → List Notice → Result
  | r, [] => (r, [])
  | r, n :: ns => andThen (notify member r n) fun r => notifyAll member r ns

/-- What a subscription does with what it is told. A packet that it refuses is its
own affair. -/
def receive (s : Subscription) (now : Moment) : Delivery → Subscription × List Notice
  | .trackType simulcast => (s.setSimulcast simulcast, [])
  | .availableLayers layers => s.setAvailable layers
  | .packet a layer => match s.write now a layer with
    | .ok (s, notices, _) => (s, notices)
    | .error _ => (s, [])
  | .close => s.close

/-- Tells a member something. -/
def tell (r : Relay) (member : Nat) (d : Delivery) : Result :=
  match r.members[member]? with
  | none => (r, [])
  | some (.observer _) => (r, [.observed member d])
  | some (.subscription s link) =>
    let (s, notices) := receive s r.moment d
    notifyAll member (r.setMember member (.subscription s link)) notices

/-- Brings events of the publication to whom they are for, in turn. -/
def spread : Relay → List PublicationEvent → Result
  | r, [] => (r, [])
  | r, .closed :: es => andThen (r, [.closed]) fun r => spread r es
  | r, .deliver member d :: es => andThen (r.tell member d) fun r => spread r es

/-- Performs an operation of the publication, with all that it leads to. -/
def publish (r : Relay) (op : Publication → Publication.Result) : Result :=
  let (publication, events) := op r.publication
  spread { r with publication } events

/-- Lets a subscription send what it has queued. -/
def flush (r : Relay) (member : Nat) : Result :=
  match r.subscription? member with
  | none => (r, [])
  | some (s, link) =>
    let (s, notices) := s.flush r.view r.moment link
    notifyAll member (r.setMember member (.subscription s link)) notices

/-- Lets members send in turn. -/
def flushAll : Relay → List Nat → Result
  | r, [] => (r, [])
  | r, m :: ms => andThen (r.flush m) fun r => flushAll r ms

/-- Does all the work that is left. -/
def settle (r : Relay) : Result :=
  andThen (r.publish Publication.settle) fun r => flushAll r (List.range r.members.length)

/-! ## Members -/

/-- What a member does as soon as it learns what kind of track it gets. -/
def reaction : Member → Publication → Publication.Result
  | .observer true => Publication.close
  | _ => Publication.quiet

/-- Adds a member and subscribes it under a peer. -/
def join (r : Relay) (peer : String) (m : Member) : Result :=
  let member := r.members.length
  publish { r with members := r.members ++ [m] }
    fun p => p.subscribe peer member (reaction m)

/-- Adds a subscription for a peer, if the codec of the track allows one. -/
def joinSubscription (r : Relay) (peer : String) (settings : SubscriptionSettings) :
    Except Fault Result :=
  let p := r.publication
  (Subscription.create ⟨p.track, p.stream⟩ peer p.codec settings).map fun s =>
    r.join peer (.subscription s .up)

/-- The bitrates for a command that looks at them. -/
def bitratesFor (r : Relay) (c : SubscriptionCommand) : Relay × Bitrates :=
  if c.usesBitrates then
    let (publication, brs) := r.publication.bitrates r.moment.time
    ({ r with publication }, brs)
  else (r, Bitrates.zero)

/-- Has a subscription do what a command asks for. -/
def command (r : Relay) (member : Nat) (c : SubscriptionCommand) :
    Attempt (Result × SubscriptionAnswer) :=
  match r.subscription? member with
  | none => .ok ((r, []), .done)
  | some (s, link) =>
    let (r, brs) := r.bitratesFor c
    (s.perform r.view brs r.moment c).map fun (s, notices, answer) =>
      (notifyAll member (r.setMember member (.subscription s link)) notices, answer)

/-- Sets the link of a subscription. -/
def setLink (r : Relay) (member : Nat) (link : Link) : Relay :=
  match r.subscription? member with
  | none => r
  | some (s, _) => r.setMember member (.subscription s link)

/-! ## Time -/

/-- Lets time go on. -/
def advance (r : Relay) (nanos : Nat) : Result :=
  publish
    { r with moment := {
        time := r.moment.time + nanos
        unixNanos := r.moment.unixNanos + nanos } }
    fun p => p.advance nanos

end Relay
end Simulcast
