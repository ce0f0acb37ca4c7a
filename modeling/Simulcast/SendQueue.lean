/-!
# Send queues

Finished packets wait in a queue for one worker, which sends them in order. The
queue wakes the worker when it is no longer empty; a wake-up that is still pending
covers later packets too. `enqueue` and `stop` are what the outside may do at any
time, also while a packet is being sent; `step` is what the worker does next.
-/

namespace Simulcast

/-- What the worker of a queue is at. -/
inductive SendWorker (α : Type) where
  /-- It waits to be woken. -/
  | waiting
  /-- It takes the next packet. -/
  | draining
  /-- It sends a packet. -/
  | sending (a : α)
  /-- It has come to its end. -/
  | ended
  deriving DecidableEq, Repr

/-- Packets to be sent, and the worker that sends them. -/
structure SendQueue (α : Type) where
  packets : List α := []
  /-- The worker has been woken and has not noticed yet. -/
  wakePending : Bool := false
  stopped : Bool := false
  worker : SendWorker α := .waiting
  deriving DecidableEq, Repr

namespace SendQueue

variable {α : Type}

/-- Adds a packet, unless the queue is stopped. The first one wakes the worker. -/
def enqueue (q : SendQueue α) (a : α) : SendQueue α :=
  if q.stopped then q
  else { q with packets := q.packets ++ [a], wakePending := q.wakePending || q.packets.isEmpty }

/-- Adds packets in turn. -/
def enqueueAll (q : SendQueue α) (as : List α) : SendQueue α :=
  as.foldl enqueue q

/-- Lets nothing more in. The worker ends when it is next waiting. -/
def stop (q : SendQueue α) : SendQueue α := { q with stopped := true }

/-- The next thing the worker does, and the packet that it hands to the writer
with it. A worker that waits does nothing until it is woken. -/
def step (q : SendQueue α) : SendQueue α × Option α :=
  match q.worker with
  | .waiting =>
    if q.stopped then ({ q with worker := .ended }, none)
    else if q.wakePending then ({ q with worker := .draining, wakePending := false }, none)
    else (q, none)
  | .draining => match q.packets with
    | [] => ({ q with worker := .waiting }, none)
    | a :: rest => ({ q with packets := rest, worker := .sending a }, some a)
  | .sending _ => ({ q with worker := .draining }, none)
  | .ended => (q, none)

/-- Lets the worker take a number of steps. -/
def run : Nat → SendQueue α → SendQueue α × List α
  | 0, q => (q, [])
  | n + 1, q =>
    let (q, a) := q.step
    let (q, as) := run n q
    (q, a.toList ++ as)

/-- As many steps as the worker takes to send all packets and wait again: two for
each packet, and at most four more to finish one, to notice that none is left, to
wake up, and to come to its end. -/
def stepsToIdle (q : SendQueue α) : Nat := 2 * q.packets.length + 5

/-- Lets the worker run until it has nothing left to do. -/
def drain (q : SendQueue α) : SendQueue α × List α := run q.stepsToIdle q

end SendQueue
end Simulcast
