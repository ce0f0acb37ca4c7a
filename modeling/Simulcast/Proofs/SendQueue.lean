import Simulcast.SendQueue

/-!
# What a send queue takes, and what its worker does

A queue that was not stopped takes every packet, behind those it has (`packets_enqueueAll`).
`Works` lists the ways of the worker, one for each thing that it may do next; `step` is one of them
unless there is nothing to do (`works_step`), and each of them leaves less to be done
(`Works.left_lt`). So a worker that is let run comes to rest (`idle_drain`). A queue `InService` is
then empty, and all that was in it has been handed over (`drain_inService`).
-/

namespace Simulcast

/-- The worker has taken up the packets, and comes back for more before it waits. -/
def SendWorker.isBusy {α : Type} : SendWorker α → Bool
  | .draining | .sending _ => true
  | .waiting | .ended => false

/-- The packet that the worker is sending. -/
def SendWorker.inHand {α : Type} : SendWorker α → Option α
  | .sending a => some a
  | _ => none

namespace SendQueue

variable {α : Type} {q q' : SendQueue α} {a : α} {o : Option α}

/-! ## Taking packets -/

@[simp] theorem stopped_enqueue (a : α) : (q.enqueue a).stopped = q.stopped := by
  unfold enqueue
  split <;> rfl

@[simp] theorem worker_enqueue (a : α) : (q.enqueue a).worker = q.worker := by
  unfold enqueue
  split <;> rfl

theorem packets_enqueue (hr : q.stopped = false) (a : α) :
    (q.enqueue a).packets = q.packets ++ [a] := by
  rw [enqueue, hr]
  rfl

@[simp] theorem stopped_enqueueAll (as : List α) : (q.enqueueAll as).stopped = q.stopped := by
  induction as generalizing q with
  | nil => rfl
  | cons a as ih => exact ih.trans (stopped_enqueue a)

@[simp] theorem worker_enqueueAll (as : List α) : (q.enqueueAll as).worker = q.worker := by
  induction as generalizing q with
  | nil => rfl
  | cons a as ih => exact ih.trans (worker_enqueue a)

theorem packets_enqueueAll (hr : q.stopped = false) (as : List α) :
    (q.enqueueAll as).packets = q.packets ++ as := by
  induction as generalizing q with
  | nil => exact (List.append_nil _).symm
  | cons a as ih =>
    have later : (q.enqueueAll (a :: as)).packets = (q.enqueue a).packets ++ as :=
      ih ((stopped_enqueue a).trans hr)
    rw [later, packets_enqueue hr, List.append_assoc]
    rfl

theorem enqueueAll_append (q : SendQueue α) (as bs : List α) :
    q.enqueueAll (as ++ bs) = (q.enqueueAll as).enqueueAll bs := List.foldl_append

/-! ## The worker -/

/-- What the worker may do, with the packet that it hands over. While it waits it may notice a
wake-up or that the queue is stopped, whichever it likes if there is both. -/
inductive Works : SendQueue α → SendQueue α → Option α → Prop
  | ends {q : SendQueue α} (hw : q.worker = .waiting) (hs : q.stopped = true) :
    Works q { q with worker := .ended } none
  | wakesUp {q : SendQueue α} (hw : q.worker = .waiting) (hp : q.wakePending = true) :
    Works q { q with worker := .draining, wakePending := false } none
  | rests {q : SendQueue α} (hw : q.worker = .draining) (hp : q.packets = []) :
    Works q { q with worker := .waiting } none
  | hands {q : SendQueue α} {a : α} {rest : List α} (hw : q.worker = .draining)
      (hp : q.packets = a :: rest) : Works q { q with packets := rest, worker := .sending a } (some a)
  | finishes {q : SendQueue α} {a : α} (hw : q.worker = .sending a) :
    Works q { q with worker := .draining } none

/-- There is nothing for the worker to do. -/
def Idle (q : SendQueue α) : Prop := ∀ q' o, ¬q.Works q' o

/-- The worker does what it may do, or there is nothing to do. -/
theorem works_step (q : SendQueue α) : q.Works q.step.1 q.step.2 ∨ q.step = (q, none) ∧ q.Idle := by
  unfold step
  split
  · rename_i hw
    split
    · exact .inl (.ends hw ‹_›)
    · rename_i hs
      split
      · exact .inl (.wakesUp hw ‹_›)
      · refine .inr ⟨rfl, fun q' o h => ?_⟩
        cases h <;> simp_all
  · rename_i hw
    split
    · exact .inl (.rests hw ‹_›)
    · exact .inl (.hands hw ‹_›)
  · exact .inl (.finishes ‹_›)
  · refine .inr ⟨rfl, fun q' o h => ?_⟩
    cases h <;> simp_all

theorem Works.stopped (h : q.Works q' o) : q'.stopped = q.stopped := by
  cases h <;> rfl

/-- The packet that is handed over is the first of those that wait. -/
theorem Works.packets (h : q.Works q' o) : o.toList ++ q'.packets = q.packets := by
  cases h with
  | hands hw hp => exact hp.symm
  | _ => rfl

theorem stopped_step (q : SendQueue α) : q.step.1.stopped = q.stopped := by
  rcases works_step q with h | ⟨h, -⟩
  · exact h.stopped
  · rw [h]

theorem packets_step (q : SendQueue α) : q.step.2.toList ++ q.step.1.packets = q.packets := by
  rcases works_step q with h | ⟨h, -⟩
  · exact h.packets
  · rw [h]
    rfl

theorem stopped_run (n : Nat) (q : SendQueue α) : (run n q).1.stopped = q.stopped := by
  induction n generalizing q with
  | zero => rfl
  | succ n ih => exact (ih q.step.1).trans (stopped_step q)

@[simp] theorem stopped_drain (q : SendQueue α) : q.drain.1.stopped = q.stopped :=
  stopped_run q.stepsToIdle q

/-- Packets are handed over from the front. -/
theorem packets_run (n : Nat) (q : SendQueue α) : (run n q).2 ++ (run n q).1.packets = q.packets := by
  induction n generalizing q with
  | zero => rfl
  | succ n ih =>
    show (q.step.2.toList ++ (run n q.step.1).2) ++ (run n q.step.1).1.packets = q.packets
    rw [List.append_assoc, ih, packets_step]

/-! ## What is still to be sent -/

/-- The packets that are not sent yet. -/
def pending (q : SendQueue α) : List α := q.worker.inHand.toList ++ q.packets

theorem pending_enqueueAll (hr : q.stopped = false) (as : List α) :
    (q.enqueueAll as).pending = q.pending ++ as := by
  rw [pending, worker_enqueueAll, packets_enqueueAll hr, ← List.append_assoc]
  rfl

/-- The worker is through with a packet when it takes its next step. -/
theorem pending_step (q : SendQueue α) : q.worker.inHand.toList ++ q.step.1.pending = q.pending := by
  rcases works_step q with h | ⟨still, idle⟩
  · generalize q.step.1 = q' at h
    generalize q.step.2 = o at h
    cases h with
    | hands hw hp => simp only [pending, hw, hp, SendWorker.inHand]; rfl
    | _ => simp_all [pending, SendWorker.inHand]
  · rw [still]
    cases hw : q.worker with
    | sending a => exact absurd (.finishes hw) (idle _ _)
    | _ => rfl

/-- What the worker has in hand after a step is what it took up with it. -/
theorem inHand_step (q : SendQueue α) :
    (q.worker.inHand = none ∧ q.step.1.worker.inHand = q.step.2) ∨
      q.step.1.worker.inHand = none ∧ q.step.2 = none := by
  cases hw : q.worker with
  | sending a => exact .inr (by simp [step, hw, SendWorker.inHand])
  | draining =>
    refine .inl ⟨rfl, ?_⟩
    cases hp : q.packets <;> simp [step, hw, hp, SendWorker.inHand]
  | waiting =>
    refine .inl ⟨rfl, ?_⟩
    cases hs : q.stopped <;> cases hp : q.wakePending <;> simp [step, hw, hs, hp, SendWorker.inHand]
  | ended => exact .inl ⟨rfl, by simp [step, hw, SendWorker.inHand]⟩

/-! ## Coming to rest -/

/-- What is left to be done by a worker, as far as it does not depend on the packets. -/
def rank : SendWorker α → Nat
  | .ended => 0
  | .waiting => 1
  | .draining => 2
  | .sending _ => 3

/-- The steps that the worker takes at most before it comes to rest. -/
def left (q : SendQueue α) : Nat :=
  2 * q.packets.length + (if q.wakePending then 2 else 0) + rank q.worker

theorem Works.left_lt (h : q.Works q' o) : q'.left < q.left := by
  cases h with
  | ends hw hs => simp [left, rank, hw]
  | wakesUp hw hp =>
    simp only [left, rank, hw, hp, if_true, Bool.false_eq_true, if_false]
    omega
  | rests hw hp => simp [left, rank, hw]
  | hands hw hp =>
    simp only [left, rank, hw, hp, List.length_cons]
    omega
  | finishes hw => simp [left, rank, hw]

theorem left_le_stepsToIdle (q : SendQueue α) : q.left ≤ q.stepsToIdle := by
  have worker : rank q.worker ≤ 3 := by cases q.worker <;> simp [rank]
  have woken : (if q.wakePending then 2 else 0) ≤ 2 := by split <;> decide
  unfold left stepsToIdle
  omega

theorem run_of_still (h : q.step = (q, none)) (n : Nat) : run n q = (q, []) := by
  induction n with
  | zero => rfl
  | succ n ih => simp only [run, h, ih, Option.toList_none, List.nil_append]

/-- A worker that is let run long enough comes to rest. -/
theorem idle_run {n : Nat} (h : q.left ≤ n) : (run n q).1.Idle := by
  induction n generalizing q with
  | zero =>
    intro q' o hw
    have less := hw.left_lt
    simp only [run] at less
    omega
  | succ n ih =>
    rcases works_step q with hw | ⟨still, idle⟩
    · have less := hw.left_lt
      exact ih (Nat.le_of_lt_succ (Nat.lt_of_lt_of_le less h))
    · rw [run_of_still still]
      exact idle

theorem idle_drain (q : SendQueue α) : q.drain.1.Idle := idle_run q.left_le_stepsToIdle

/-! ## Queues in service -/

/-- Packets that wait are seen to: the worker has them in hand, or it will be woken. -/
def Attended (q : SendQueue α) : Prop :=
  q.packets = [] ∨ q.wakePending = true ∨ q.worker.isBusy = true

theorem Works.attended (h : q.Works q' o) (ha : q.Attended) : q'.Attended := by
  cases h with
  | ends hw hs => simp_all [Attended, SendWorker.isBusy]
  | wakesUp hw hp => exact .inr (.inr rfl)
  | rests hw hp => exact .inl hp
  | hands hw hp => exact .inr (.inr rfl)
  | finishes hw => exact .inr (.inr rfl)

theorem Attended.enqueue (h : q.Attended) (a : α) : (q.enqueue a).Attended := by
  unfold SendQueue.enqueue
  split
  · exact h
  · cases hp : q.packets with
    | nil => exact .inr (.inl (by simp))
    | cons b rest =>
      have later : q.wakePending = true ∨ q.worker.isBusy = true := h.resolve_left (by simp [hp])
      exact .inr (later.imp_left fun woken => by simp [woken])

/-- The queue takes packets, and its worker sees to them. -/
structure InService (q : SendQueue α) : Prop where
  running : q.stopped = false
  working : q.worker ≠ .ended
  attended : q.Attended

theorem inService_new : ({} : SendQueue α).InService := ⟨rfl, by simp, .inl rfl⟩

theorem InService.enqueue (h : q.InService) (a : α) : (q.enqueue a).InService where
  running := (stopped_enqueue a).trans h.running
  working := by rw [worker_enqueue]; exact h.working
  attended := h.attended.enqueue a

theorem InService.enqueueAll (h : q.InService) (as : List α) : (q.enqueueAll as).InService := by
  induction as generalizing q with
  | nil => exact h
  | cons a as ih => exact ih (h.enqueue a)

theorem InService.works (h : q.InService) (hw : q.Works q' o) : q'.InService where
  running := hw.stopped.trans h.running
  working := by
    cases hw with
    | ends hw hs => exact absurd (h.running.symm.trans hs) Bool.false_ne_true
    | _ => simp
  attended := hw.attended h.attended

theorem InService.step (h : q.InService) : q.step.1.InService := by
  rcases works_step q with hw | ⟨still, -⟩
  · exact h.works hw
  · rw [still]
    exact h

theorem InService.run (h : q.InService) (n : Nat) : (run n q).1.InService := by
  induction n generalizing q with
  | zero => exact h
  | succ n ih => exact ih h.step

/-- Nothing waits, and nothing is being sent. -/
def Drained (q : SendQueue α) : Prop := q.packets = [] ∧ ∀ a, q.worker ≠ .sending a

theorem drained_iff : q.Drained ↔ q.pending = [] := by
  unfold Drained pending
  cases q.worker <;> simp [SendWorker.inHand]

theorem Drained.inHand (h : q.Drained) : q.worker.inHand = none :=
  Option.toList_eq_nil_iff.1 (List.append_eq_nil_iff.1 (drained_iff.1 h)).1

/-- A queue in service whose worker has nothing to do is empty, and the worker waits for more. -/
theorem InService.waiting (h : q.InService) (idle : q.Idle) :
    q.worker = .waiting ∧ q.packets = [] := by
  have asleep : q.worker = .waiting := by
    cases hw : q.worker with
    | waiting => rfl
    | draining =>
      cases hp : q.packets with
      | nil => exact absurd (.rests hw hp) (idle _ _)
      | cons a rest => exact absurd (.hands hw hp) (idle _ _)
    | sending a => exact absurd (.finishes hw) (idle _ _)
    | ended => exact absurd hw h.working
  refine ⟨asleep, ?_⟩
  rcases h.attended with empty | woken | busy
  · exact empty
  · exact absurd (.wakesUp asleep woken) (idle _ _)
  · rw [asleep] at busy
    cases busy

theorem InService.drained (h : q.InService) (idle : q.Idle) : q.Drained := by
  obtain ⟨asleep, empty⟩ := h.waiting idle
  refine ⟨empty, fun a hs => ?_⟩
  rw [asleep] at hs
  cases hs

/-- All that waits is handed over, in turn. -/
theorem drain_inService (h : q.InService) : q.drain.2 = q.packets ∧ q.drain.1.Drained := by
  have drained : q.drain.1.Drained := (h.run q.stepsToIdle).drained (idle_drain q)
  have split : q.drain.2 ++ q.drain.1.packets = q.packets := packets_run q.stepsToIdle q
  rw [drained.1, List.append_nil] at split
  exact ⟨split, drained⟩

end SendQueue
end Simulcast
