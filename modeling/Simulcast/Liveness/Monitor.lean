import Simulcast.Liveness.Tracker
import Simulcast.Timers

/-!
# Monitors

A monitor is a tracker with the time: it lets the cycles of detection end when they
are due, and collects the notices in the order in which they are delivered.
-/

namespace Simulcast

/-- A tracker in time. Its timers are named by the generation they belong to. -/
structure Monitor where
  tracker : Tracker
  cycle : Nat
  now : Time := 0
  timers : Timers Nat := []
  deriving Repr

namespace Monitor

/-- A monitor that has seen nothing. -/
def ofThresholds (thresholds : Thresholds) (cycle : Nat) : Monitor :=
  { tracker := { thresholds }, cycle }

/-- Takes note of a packet, and sets the timer of detection if it starts. -/
def observe (m : Monitor) (number : UInt16) : Monitor :=
  { m with
    tracker := m.tracker.observe number
    timers := if m.tracker.starts then m.timers.set m.tracker.generation m.now m.cycle
      else m.timers }

/-- Takes note of packets in turn. -/
def observeAll (m : Monitor) (numbers : List UInt16) : Monitor := numbers.foldl observe m

/-- Changes the tracker. -/
def onTracker (m : Monitor) (change : Tracker → Tracker) : Monitor :=
  { m with tracker := change m.tracker }

/-- Detection ends with its generation. -/
def ring (t : Tracker) (generation : Nat) : Tracker × Bool :=
  (t.cycleEnd generation, t.isCurrent generation)

/-- Lets time go on. -/
def advance (m : Monitor) (nanos : Nat) : Monitor :=
  let now := m.now + nanos
  let (timers, tracker) := m.timers.advance ring now m.tracker
  { m with now, timers, tracker }

/-- Delivers the queued notices. -/
def deliver (m : Monitor) : Monitor × List LayerStatus :=
  let (tracker, notices) := m.tracker.deliver
  ({ m with tracker }, notices)

end Monitor
end Simulcast
