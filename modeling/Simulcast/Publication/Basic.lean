import Simulcast.Intake.Basic
import Simulcast.Liveness.LayerWatch
import Simulcast.Publication.FanOut
import Simulcast.Publication.FeedbackChannel
import Simulcast.Publication.SubscriberTable

/-!
# Publications

A publication is one published track: an intake for each spatial layer that the
publisher sends, and the subscribers to whom every packet is handed. Each intake has
a feed, which reads it to its end. Layers come and go with their intakes or, where
liveness is watched, with the packets in them; subscribers hear of each change.

A publication ends when it is closed, or when the last of its layers has come to its
end. Subscribers are known to it by a handle; what they are to be told is emitted as
a list of events, in order.
-/

namespace Simulcast

/-- What a subscriber is told. -/
inductive Delivery where
  /-- Whether the track comes in several sizes. -/
  | trackType (simulcast : Bool)
  | availableLayers (layers : List Int)
  | packet (a : Arrival) (layer : Int)
  | close
  deriving DecidableEq, Repr

/-- What a publication makes known. -/
inductive PublicationEvent where
  /-- Something for the subscriber with a handle. -/
  | deliver (handle : Nat) (d : Delivery)
  /-- It has ended. -/
  | closed
  deriving DecidableEq, Repr

/-- How a publication treats its publisher and its subscribers. -/
structure PublicationSettings where
  /-- The time between two requests for a key frame of one layer. -/
  requestInterval : Nat := 500 * nanosPerMilli
  /-- The number of subscribers from which on packets are handed out in parallel. -/
  sharingThreshold : Nat := 20
  /-- Whether the liveness of layers is watched. -/
  watchesLiveness : Bool := true
  deriving DecidableEq, Repr

/-- The intake that feeds a layer, by its number. -/
structure UpTrack where
  rid : String
  ssrc : UInt32
  intake : Nat
  deriving DecidableEq, Repr

/-- The reader of an intake. -/
structure Feed where
  layer : LayerIndex
  intake : Nat
  /-- The tracker that watches the layer. -/
  tracker : Option WatchKey
  deriving DecidableEq, Repr

/-- One published track. -/
structure Publication where
  track : String
  stream : String
  peer : String
  kind : MediaKind
  codec : Codec
  simulcast : Bool := false
  settings : PublicationSettings := {}
  watch : LayerWatch := {}
  closed : Bool := false
  upTracks : Vector (Option UpTrack) 3 := Vector.replicate 3 none
  /-- All intakes that were ever added, by number. -/
  intakes : List Intake := []
  feeds : List Feed := []
  subscribers : SubscriberTable Nat := {}
  channel : Option FeedbackChannel := none
  /-- When a key frame of each layer was last asked for. -/
  lastRequest : Vector (Option Time) 3 := Vector.replicate 3 none
  deriving Repr

namespace Publication

/-- A publication with what it emits. -/
abbrev Result := Publication × List PublicationEvent

/-- Emits nothing. -/
def quiet (p : Publication) : Result := (p, [])

/-- Goes on with another operation. -/
def andThen (r : Result) (next : Publication → Result) : Result :=
  let (p, later) := next r.1
  (p, r.2 ++ later)

/-! ## Subscribers and layers -/

/-- The announcement of a list of layers to all subscribers. -/
def layersFor (subscribers : SubscriberTable Nat) (layers : List Int) : List PublicationEvent :=
  subscribers.members.map fun h => .deliver h (.availableLayers layers)

/-- Passes the announcements of the watch on. -/
def announce (p : Publication) : Result :=
  let (watch, lists) := p.watch.collect
  ({ p with watch }, lists.flatMap (layersFor p.subscribers))

/-- Changes the watch, and announces what follows. -/
def onWatch (p : Publication) (change : LayerWatch → LayerWatch) : Result :=
  { p with watch := change p.watch }.announce

/-- The layers that flow. -/
def available (p : Publication) : List Int := p.watch.available

/-- The up track of a layer. -/
def upTrack? (p : Publication) (layer : Int) : Option UpTrack := do
  let i ← layerIndex? layer
  p.upTracks.get i

/-- The source of a layer; zero where there is none. -/
def ssrc (p : Publication) (layer : Int) : UInt32 :=
  ((p.upTrack? layer).map UpTrack.ssrc).getD 0

/-- The intake of a layer. -/
def intake? (p : Publication) (layer : Int) : Option Intake :=
  (p.upTrack? layer).bind fun u => p.intakes[u.intake]?

/-- Changes an intake. -/
def modifyIntake (p : Publication) (intake : Nat) (change : Intake → Intake) : Publication :=
  { p with intakes := p.intakes.modify intake change }

/-! ## Closing -/

/-- The intakes of all layers. -/
def liveIntakes (p : Publication) : List Nat :=
  p.upTracks.toList.filterMap fun u => u.map UpTrack.intake

/-- Ends the publication: its subscribers are closed and forgotten, and its layers
take nothing more in. Only the first call does anything. -/
def close (p : Publication) : Result :=
  if p.closed then p.quiet
  else
    (p.liveIntakes.foldl (fun p i => p.modifyIntake i Intake.close)
      { p with
        closed := true
        watch := p.watch.stop
        subscribers := {}
        upTracks := Vector.replicate 3 none },
      p.subscribers.members.map (fun h => .deliver h .close) ++ [.closed])

/-! ## Layers coming and going -/

/-- Makes a layer count as flowing: at once, or when its packets are seen. -/
def expectLayer (p : Publication) (layer : LayerIndex) : Publication × Option WatchKey :=
  if p.kind = .video ∧ p.settings.watchesLiveness then
    let (watch, tracker) := p.watch.addTracker layer.val
    ({ p with watch }, tracker)
  else ({ p with watch := p.watch.addAvailable layer.val }, none)

/-- Closes the intake that a layer had so far. -/
def retire (p : Publication) (layer : LayerIndex) : Publication :=
  match p.upTracks.get layer with
  | none => p
  | some u => p.modifyIntake u.intake Intake.close

/-- Takes a layer from an intake, in place of the one it had. -/
def feedLayer (p : Publication) (rid : String) (layer : LayerIndex) (ssrc : UInt32)
    (intake : Nat) : Result :=
  let p := { p.retire layer with
    upTracks := p.upTracks.set layer (some { rid, ssrc, intake }) layer.lt }
  let (p, tracker) := p.expectLayer layer
  let feed : Feed := { layer, intake, tracker }
  announce { p with feeds := p.feeds ++ [feed] }

/-- Adds the intake of the layer that a stream is named for. A closed publication
knows the intake, and does nothing with it. -/
def addUpTrack (p : Publication) (rid : String) (i : Intake) : Result :=
  let intake := p.intakes.length
  let p := { p with intakes := p.intakes ++ [i] }
  if p.closed then p.quiet
  else match layerIndex? (layerOfRid rid) with
    | none => p.quiet
    | some layer => p.feedLayer rid layer i.ssrc intake

/-- The number of layers with an up track. -/
def upTrackCount (p : Publication) : Nat := p.liveIntakes.length

/-- Ends the publication if no layer is left. -/
def closeIfEmpty (p : Publication) : Result :=
  if p.upTrackCount = 0 then p.close else p.quiet

/-- Forgets a layer that has come to its end, unless another intake has taken its
place. -/
def endLayer (p : Publication) (layer : LayerIndex) (intake : Nat) : Result :=
  if ((p.upTracks.get layer).map UpTrack.intake) = some intake then
    let p := { p with upTracks := p.upTracks.set layer none layer.lt }
    andThen (p.onWatch fun w => (w.removeTracker layer.val).removeAvailable layer.val) closeIfEmpty
  else p.quiet

/-! ## Packets -/

/-- The handles in the order in which a packet is handed out. -/
def recipients (p : Publication) : List Nat :=
  (FanOut.order p.settings.sharingThreshold p.subscribers.size p.subscribers.slots).filterMap id

/-- Hands a packet to all subscribers. -/
def handOut (p : Publication) (f : Feed) (a : Arrival) : Result :=
  let watch := match f.tracker with
    | some key => p.watch.observe key a.number
    | none => p.watch
  ({ p with watch }, p.recipients.map fun h => .deliver h (.packet a f.layer.val))

/-- Hands out packets in turn. -/
def handOutAll (f : Feed) : Publication → List Arrival → Result
  | p, [] => p.quiet
  | p, a :: as => andThen (p.handOut f a) fun p => handOutAll f p as

/-- Stops reading an intake. -/
def dropFeed (p : Publication) (f : Feed) : Publication :=
  { p with feeds := p.feeds.filter fun g => g != f }

/-- Reads the intake of a feed as far as it goes. -/
def runFeed (p : Publication) (f : Feed) : Result :=
  match p.intakes[f.intake]? with
  | none => p.quiet
  | some i =>
    let p := p.modifyIntake f.intake fun i => { i with queue := [] }
    andThen (handOutAll f p i.queue) fun p =>
      if i.closed then (p.dropFeed f).endLayer f.layer f.intake else p.quiet

/-- Runs feeds in turn. -/
def runFeeds : Publication → List Feed → Result
  | p, [] => p.quiet
  | p, f :: fs => andThen (p.runFeed f) fun p => runFeeds p fs

/-- Does all work there is: reads every intake, and acts on the notices of the
trackers. -/
def settle (p : Publication) : Result :=
  andThen (runFeeds p p.feeds) fun p => p.onWatch LayerWatch.deliver

/-- Takes in the octets of a packet of an intake. -/
def write (p : Publication) (intake : Nat) (now : Time) (raw : Octets) : Attempt Publication :=
  match p.intakes[intake]? with
  | none => .ok p
  | some i => (i.write now raw).map fun i => p.modifyIntake intake fun _ => i

/-- Lets time go on. -/
def advance (p : Publication) (nanos : Nat) : Result :=
  p.onWatch fun w => w.advance nanos

/-! ## Subscribing -/

/-- Whether a peer may subscribe. -/
def admits (p : Publication) (peer : String) : Bool :=
  !p.closed && !p.subscribers.contains peer

/-- What a new subscriber is told of the layers of a video that flow. -/
def greeting (p : Publication) (handle : Nat) : List PublicationEvent :=
  if p.kind = .video ∧ p.available ≠ [] then
    [.deliver handle (.availableLayers p.available)]
  else []

/-- Takes a subscriber into the table, if that is still possible. -/
def enter (p : Publication) (peer : String) (handle : Nat) : Publication :=
  if p.admits peer then { p with subscribers := p.subscribers.add peer handle } else p

/-- Subscribes a peer that is not subscribed. It is told what kind of track it gets,
and may react to that before it is let in. -/
def subscribe (p : Publication) (peer : String) (handle : Nat)
    (reaction : Publication → Result) : Result :=
  if p.admits peer then
    let introduction : Result := (p, [.deliver handle (.trackType p.simulcast)])
    andThen (andThen introduction reaction) fun p => (p.enter peer handle, p.greeting handle)
  else p.quiet

/-- Ends the subscription of a peer. -/
def unsubscribe (p : Publication) (peer : String) : Publication :=
  if p.closed then p else { p with subscribers := p.subscribers.remove peer }

/-! ## Toward the publisher -/

/-- Sets where requests to the publisher go. -/
def setChannel (p : Publication) (capacity : Nat) : Publication :=
  { p with channel := some { capacity } }

/-- Whether a request came too short a time ago for another one. -/
def isThrottled (p : Publication) (layer : LayerIndex) (now : Time) : Bool :=
  match p.lastRequest.get layer with
  | none => false
  | some last => now - last < p.settings.requestInterval

/-- Asks for a key frame of a layer that is sent, not too often. The request counts
whether or not it gets through. -/
def askKeyFrame (p : Publication) (layer : Int) (now : Time) : Publication :=
  match layerIndex? layer with
  | none => p
  | some i =>
    if p.ssrc layer = 0 ∨ p.isThrottled i now then p
    else
      { p with
        lastRequest := p.lastRequest.set i (some now) i.lt
        channel := p.channel.map fun c => c.offer [Rtcp.encodePictureLoss (p.ssrc layer)] }

/-- The octets kept of a packet of a layer, for a reader with so much room. -/
def stored (p : Publication) (layer : UInt8) (number : UInt16) (room : Nat) :
    Except Fault Octets :=
  match p.intake? layer.toNat with
  | none => .error (.noBuffer layer.toNat)
  | some i => i.stored number room

/-- The publisher's clock on a layer. -/
def clock (p : Publication) (layer : Int) : Option PublisherClock :=
  (p.intake? layer).bind Intake.clock

/-- Brings the bitrate of a layer that flows up to date. -/
def measure (now : Time) (p : Publication) (layer : LayerIndex) : Publication :=
  match p.upTracks.get layer with
  | none => p
  | some u =>
    if p.watch.isAvailable layer.val then
      p.modifyIntake u.intake fun i => i.measure now
    else p

/-- The bitrates of a layer as last measured; zero if it does not flow. -/
def ratesOf (p : Publication) (layer : LayerIndex) : LayerRates :=
  match p.intake? layer.val with
  | some i => if p.watch.isAvailable layer.val then i.rates else Vector.replicate 4 0
  | none => Vector.replicate 4 0

/-- The bitrates of all layers. -/
def bitrates (p : Publication) (now : Time) : Publication × Bitrates :=
  let p := (List.finRange 3).foldl (measure now) p
  (p, Vector.ofFn fun i => p.ratesOf i)

/-- Tells whether the publisher has muted the track. -/
def setPaused (p : Publication) (paused : Bool) : Publication :=
  { p with watch := p.watch.setPaused paused }

/-- Sets the highest layer that is expected. -/
def setMaxExpected (p : Publication) (layer : Int) : Publication :=
  { p with watch := p.watch.setMaxExpected layer }

end Publication
end Simulcast
