import Simulcast.Layers
import Simulcast.Liveness.Tracker
import Simulcast.Timers

/-!
# Layer watches

A watch keeps a tracker for each spatial layer of a publisher, and from their
notices the list of layers that flow. Each change of that list is announced. A
tracker that is replaced or removed ends; what still holds on to it is told apart by
its serial number.
-/

namespace Simulcast

/-- How layers are judged. -/
structure WatchSettings where
  /-- The base layer. -/
  base : Thresholds := ⟨1, 4⟩
  /-- The layers above it. -/
  higher : Thresholds := ⟨5, 60⟩
  /-- The length of a cycle. -/
  cycle : Nat := 500 * nanosPerMilli
  deriving DecidableEq, Repr

namespace WatchSettings

/-- The thresholds of a layer. -/
def thresholdsFor (s : WatchSettings) (layer : Int) : Thresholds :=
  if layer = 0 then s.base else s.higher

end WatchSettings

/-- A spatial layer of the grid. -/
abbrev LayerIndex := Fin 3

theorem LayerIndex.lt (layer : LayerIndex) : layer.val < 3 := layer.isLt

/-- The index of a layer, if it lies in the grid. -/
def layerIndex? (layer : Int) : Option LayerIndex :=
  if 0 ≤ layer then
    if h : layer.toNat < 3 then some ⟨layer.toNat, h⟩ else none
  else none

/-- A tracker at its place: which layer, and which tracker of all. -/
structure WatchKey where
  layer : LayerIndex
  serial : Nat
  deriving DecidableEq, Repr

/-- The tracker of a layer with its serial number. -/
structure Watched where
  serial : Nat
  tracker : Tracker
  deriving DecidableEq, Repr

/-- The trackers of all layers, and the layers that flow. -/
structure LayerWatch where
  settings : WatchSettings := {}
  trackers : Vector (Option Watched) 3 := Vector.replicate 3 none
  /-- The serial number of the next tracker. -/
  nextSerial : Nat := 0
  /-- The layers that flow, in order. -/
  available : List Int := []
  maxExpected : Int := Layers.maxSpatial
  now : Time := 0
  /-- Timers of detection, named by tracker and generation. -/
  timers : Timers (WatchKey × Nat) := []
  /-- Notices of trackers, also of those that are gone, that are to be acted on. -/
  pending : List (LayerIndex × LayerStatus) := []
  /-- Lists of available layers that have not been collected. -/
  announcements : List (List Int) := []
  deriving Repr

namespace LayerWatch

/-- Puts a layer into a sorted list. -/
def insertLayer (layer : Int) : List Int → List Int
  | [] => [layer]
  | l :: ls => if layer ≤ l then layer :: l :: ls else l :: insertLayer layer ls

/-- Announces the list of layers that flow. -/
def announce (w : LayerWatch) (available : List Int) : LayerWatch :=
  { w with available, announcements := w.announcements ++ [available] }

/-- A layer flows. -/
def addAvailable (w : LayerWatch) (layer : Int) : LayerWatch :=
  if w.available.contains layer then w else w.announce (insertLayer layer w.available)

/-- A layer does not flow. -/
def removeAvailable (w : LayerWatch) (layer : Int) : LayerWatch :=
  if w.available.contains layer then w.announce (w.available.filter fun l => l != layer) else w

/-- Takes note of a change of the status of a layer. -/
def notice (w : LayerWatch) (layer : LayerIndex) (status : LayerStatus) : LayerWatch :=
  match status with
  | .active => w.addAvailable layer.val
  | .stopped => w.removeAvailable layer.val

/-- Changes the tracker of a layer, if there is one. Its notices wait to be acted
on. -/
def modify (w : LayerWatch) (layer : LayerIndex) (change : Tracker → Tracker) : LayerWatch :=
  match w.trackers.get layer with
  | none => w
  | some x =>
    let (tracker, notices) := (change x.tracker).deliver
    { w with
      trackers := w.trackers.set layer (some { x with tracker }) layer.lt
      pending := w.pending ++ notices.map fun status => (layer, status) }

/-- Acts on all notices, in order. -/
def deliver (w : LayerWatch) : LayerWatch :=
  w.pending.foldl (fun w (layer, status) => w.notice layer status) { w with pending := [] }

/-- The tracker with a key, unless it has been replaced or removed. -/
def tracker? (w : LayerWatch) (key : WatchKey) : Option Tracker :=
  match w.trackers.get key.layer with
  | some x => if x.serial = key.serial then some x.tracker else none
  | none => none

/-- Installs a tracker for a layer in place of the one before. -/
def addTracker (w : LayerWatch) (layer : Int) : LayerWatch × Option WatchKey :=
  match layerIndex? layer with
  | none => (w, none)
  | some i =>
    let tracker : Tracker := { thresholds := w.settings.thresholdsFor layer }
    ({ w with
        trackers := w.trackers.set i (some { serial := w.nextSerial, tracker }) i.lt
        nextSerial := w.nextSerial + 1 }, some ⟨i, w.nextSerial⟩)

/-- Removes the tracker of a layer. -/
def removeTracker (w : LayerWatch) (layer : Int) : LayerWatch :=
  match layerIndex? layer with
  | none => w
  | some i => { w with trackers := w.trackers.set i none i.lt }

/-- Removes all trackers. What is available stays as it is. -/
def stop (w : LayerWatch) : LayerWatch :=
  { w with trackers := Vector.replicate 3 none }

/-- Takes note of a packet for a tracker. -/
def observe (w : LayerWatch) (key : WatchKey) (number : UInt16) : LayerWatch :=
  match w.tracker? key with
  | none => w
  | some t =>
    let w := if t.starts then
      { w with timers := w.timers.set (key, t.generation) w.now w.settings.cycle } else w
    w.modify key.layer fun t => t.observe number

/-- The key of the tracker of a layer. -/
def currentKey? (w : LayerWatch) (layer : Int) : Option WatchKey := do
  let i ← layerIndex? layer
  let x ← w.trackers.get i
  return ⟨i, x.serial⟩

/-- The status of the tracker of a layer. -/
def status? (w : LayerWatch) (i : LayerIndex) : Option LayerStatus :=
  (w.trackers.get i).map fun x => x.tracker.status

/-- Pauses or resumes all trackers. -/
def setPaused (w : LayerWatch) (paused : Bool) : LayerWatch :=
  (List.finRange 3).foldl (fun w i => w.modify i fun t => t.setPaused paused) w

/-- Whether a layer flows. -/
def isAvailable (w : LayerWatch) (layer : Int) : Bool := w.available.contains layer

/-- The layers that come to be expected, and do not flow. -/
def newlyExpected (w : LayerWatch) (layer : Int) : List LayerIndex :=
  (List.finRange 3).filter fun i =>
    w.maxExpected < i.val && (i.val : Int) ≤ layer && !w.isAvailable i.val

/-- Sets the highest layer to be expected. Layers that come to be expected start
over, since a tracker that has stopped only does so when it is reset. -/
def setMaxExpected (w : LayerWatch) (layer : Int) : LayerWatch :=
  let w := (w.newlyExpected layer).foldl (fun w i => w.modify i Tracker.reset) w
  { w with maxExpected := layer }

/-- The end of a cycle, with all that follows from it. -/
def ring (w : LayerWatch) (key : WatchKey × Nat) : LayerWatch × Bool :=
  let (k, generation) := key
  match w.tracker? k with
  | none => (w, false)
  | some t =>
    ((w.modify k.layer fun t => t.cycleEnd generation).deliver, t.isCurrent generation)

/-- Lets time go on. -/
def advance (w : LayerWatch) (nanos : Nat) : LayerWatch :=
  let now := w.now + nanos
  let (timers, w) := w.timers.advance ring now w
  { w with now, timers }

/-- Collects the announcements. -/
def collect (w : LayerWatch) : LayerWatch × List (List Int) :=
  ({ w with announcements := [] }, w.announcements)

end LayerWatch
end Simulcast
