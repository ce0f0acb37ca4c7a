import Simulcast.Proofs.SendQueue
import Mathlib.Algebra.GroupWithZero.Nat
import Mathlib.Data.List.Chain
import Mathlib.Logic.Relation

/-!
# Traffic at a send queue

Packets come to a queue in calls from any number of callers. A call looks whether the queue is
stopped, then puts its packet in, and wakes the worker if its packet was the first one there; between
these, other calls and the worker go their own way. `Step` has all that may happen next, so that its
chains are the interleavings; a call that nothing comes in between is `enqueue` (`steps_enqueue`), and
what the worker does by itself is `step` (`steps_step`).

No wake-up gets lost, since packets that wait are always seen to (`Sound.attended`): the worker has
them in hand, or a wake-up is pending, or a call is about to send one. With that,
`handed_over_in_turn` says that packets are handed over in order and once, and that without a stop
none is left behind.
-/

namespace Simulcast.SendQueue

variable {α : Type}

/-- Puts a packet in. -/
def put (q : SendQueue α) (a : α) : SendQueue α := { q with packets := q.packets ++ [a] }

/-- Wakes the worker. A wake-up that is still pending covers this one. -/
def wake (q : SendQueue α) : SendQueue α := { q with wakePending := true }

/-- To add a packet is to look whether the queue is stopped, to put it in, and to wake the worker if
it is the first. -/
theorem enqueue_eq (q : SendQueue α) (a : α) :
    q.enqueue a =
      if q.stopped then q else if q.packets.isEmpty then (q.put a).wake else q.put a := by
  unfold enqueue put wake
  split
  · rfl
  · cases q.packets with
    | nil => simp
    | cons b rest => simp

/-- A call that adds a packet, as far as it has got. -/
inductive Call (α : Type) where
  /-- It has found that the queue is not stopped, and its packet is not in yet. -/
  | entering (a : α)
  /-- Its packet is in and was the first one, and the worker has not been woken yet. -/
  | waking
  deriving DecidableEq, Repr

/-- The packet of a call, while it is not in yet. -/
def Call.outside : Call α → Option α
  | .entering a => some a
  | .waking => none

/-- A queue, the calls that are under way, and what became of the packets so far. -/
structure Traffic (α : Type) where
  queue : SendQueue α := {}
  calls : List (Call α) := []
  /-- The packets of the calls that came before the queue was stopped. -/
  accepted : List α := []
  /-- The packets that were put in, in turn. -/
  added : List α := []
  /-- The packets that the worker handed to the writers, in turn. -/
  handed : List α := []

namespace Traffic

variable {t t' t'' : Traffic α} {q : SendQueue α} {a : α} {o : Option α}

/-- A call begins. It returns at once if the queue is stopped. -/
def call (t : Traffic α) (a : α) : Traffic α :=
  if t.queue.stopped then t
  else { t with calls := t.calls ++ [.entering a], accepted := t.accepted ++ [a] }

/-- What is left of a call that puts its packet into a queue. -/
def onward (q : SendQueue α) : List (Call α) := if q.packets.isEmpty then [.waking] else []

/-- What happens by itself: a call that is under way goes on, or the worker does. -/
inductive Inner : Traffic α → Traffic α → Prop
  | puts {t : Traffic α} {a : α} (before later : List (Call α))
      (h : t.calls = before ++ .entering a :: later) :
    Inner t { t with
      queue := t.queue.put a
      calls := before ++ onward t.queue ++ later
      added := t.added ++ [a] }
  | wakes {t : Traffic α} (before later : List (Call α)) (h : t.calls = before ++ .waking :: later) :
    Inner t { t with queue := t.queue.wake, calls := before ++ later }
  | works {t : Traffic α} {q : SendQueue α} {o : Option α} (h : t.queue.Works q o) :
    Inner t { t with queue := q, handed := t.handed ++ o.toList }

/-- All that may happen. -/
inductive Step : Traffic α → Traffic α → Prop
  | call {t : Traffic α} (a : α) : Step t (t.call a)
  | stop {t : Traffic α} : Step t { t with queue := t.queue.stop }
  | inner {t t' : Traffic α} (h : Inner t t') : Step t t'

/-- What may have happened after some steps. -/
abbrev Steps : Traffic α → Traffic α → Prop := Relation.ReflTransGen Step

/-- What may have happened by itself. -/
abbrev InnerSteps : Traffic α → Traffic α → Prop := Relation.ReflTransGen Inner

/-- Nothing happens any more unless something is asked for. -/
def Settled (t : Traffic α) : Prop := ∀ t', ¬Inner t t'

/-! ## Calls that nothing comes in between -/

/-- A packet is added by a call that nothing comes in between. -/
def enqueue (t : Traffic α) (a : α) : Traffic α :=
  if t.queue.stopped then t
  else { t with
    queue := t.queue.enqueue a
    accepted := t.accepted ++ [a]
    added := t.added ++ [a] }

theorem steps_enqueue (t : Traffic α) (a : α) : Steps t (t.enqueue a) := by
  have called : Step t (t.call a) := .call a
  unfold enqueue
  unfold call at called
  split at called
  · rename_i stopped
    rw [if_pos stopped]
  · rename_i running
    rw [if_neg running, enqueue_eq, if_neg running]
    have entered := (Relation.ReflTransGen.single called).tail
      (.inner (.puts t.calls [] rfl))
    simp only [onward, List.append_nil] at entered
    split
    · rename_i first
      rw [if_pos first] at entered
      have woken := entered.tail (.inner (.wakes t.calls [] rfl))
      simp only [List.append_nil] at woken
      exact woken
    · rename_i behind
      rw [if_neg behind, List.append_nil] at entered
      exact entered

theorem steps_step (t : Traffic α) :
    Steps t { t with queue := t.queue.step.1, handed := t.handed ++ t.queue.step.2.toList } := by
  rcases works_step t.queue with h | ⟨still, -⟩
  · exact .single (.inner (.works h))
  · rw [still]
    simp only [Option.toList_none, List.append_nil]
    exact .refl

/-! ## What holds all along -/

/-- The packets that are not in yet. -/
def outside (t : Traffic α) : List α := t.calls.filterMap Call.outside

/-- The worker will be woken: a wake-up is pending, or a call is about to send one. -/
def WakeUpComing (t : Traffic α) : Prop := t.queue.wakePending = true ∨ .waking ∈ t.calls

/-- What holds of a queue at any time. -/
structure Sound (t : Traffic α) : Prop where
  /-- What was put in has been handed over, or still waits behind that. -/
  order : t.handed ++ t.queue.packets = t.added
  /-- What was let in is in by now, or on its way. -/
  accepted : (t.added ++ t.outside).Perm t.accepted
  attended : t.queue.Attended ∨ .waking ∈ t.calls
  ended : t.queue.worker = .ended → t.queue.stopped = true

theorem sound_new : ({} : Traffic α).Sound := ⟨rfl, .refl [], .inl (.inl rfl), by simp⟩

theorem Sound.call (h : t.Sound) (a : α) : (t.call a).Sound := by
  unfold Traffic.call
  split
  · exact h
  · refine ⟨h.order, ?_, h.attended.imp_right (List.mem_append_left _), h.ended⟩
    show (t.added ++ (t.calls ++ [Call.entering a]).filterMap Call.outside).Perm (t.accepted ++ [a])
    rw [List.filterMap_append, ← List.append_assoc]
    exact h.accepted.append_right [a]

theorem Sound.stop (h : t.Sound) : ({ t with queue := t.queue.stop } : Traffic α).Sound :=
  ⟨h.order, h.accepted, h.attended, fun _ => rfl⟩

/-- The packet of a call that puts it in comes from outside to those added. -/
theorem outside_puts {before later : List (Call α)} (h : t.calls = before ++ .entering a :: later) :
    t.outside = before.filterMap Call.outside ++ a :: later.filterMap Call.outside ∧
      (before ++ onward t.queue ++ later).filterMap Call.outside =
        before.filterMap Call.outside ++ later.filterMap Call.outside := by
  have none : (onward t.queue).filterMap Call.outside = [] := by
    unfold onward
    split <;> rfl
  constructor
  · rw [Traffic.outside, h, List.filterMap_append]
    rfl
  · rw [List.filterMap_append, List.filterMap_append, none, List.append_nil]

theorem Sound.inner (h : t.Sound) (hi : Inner t t') : t'.Sound := by
  cases hi with
  | @puts a before later hc =>
    obtain ⟨was, is⟩ := outside_puts hc
    refine ⟨?_, ?_, ?_, h.ended⟩
    · show t.handed ++ (t.queue.packets ++ [a]) = t.added ++ [a]
      rw [← List.append_assoc, h.order]
    · show ((t.added ++ [a]) ++ (before ++ onward t.queue ++ later).filterMap Call.outside).Perm _
      rw [is, List.append_assoc, List.singleton_append]
      have front : (before.filterMap Call.outside ++ a :: later.filterMap Call.outside).Perm
          (a :: (before.filterMap Call.outside ++ later.filterMap Call.outside)) := List.perm_middle
      have moved := front.symm.append_left t.added
      rw [← was] at moved
      exact moved.trans h.accepted
    · show Attended (t.queue.put a) ∨ Call.waking ∈ before ++ onward t.queue ++ later
      cases hp : t.queue.packets with
      | nil =>
        -- The first packet: its own call wakes the worker.
        exact .inr (by simp [onward, hp])
      | cons b rest =>
        rcases h.attended with seen | waking
        · exact .inl (.inr (seen.resolve_left (by simp [hp])))
        · rw [hc] at waking
          exact .inr (by simpa [onward, hp] using waking)
  | wakes before later hc =>
    refine ⟨h.order, ?_, .inl (.inr (.inl rfl)), h.ended⟩
    have accepted := h.accepted
    rw [Traffic.outside, hc, List.filterMap_append] at accepted
    show (t.added ++ List.filterMap Call.outside (_ ++ _)).Perm t.accepted
    rw [List.filterMap_append]
    exact accepted
  | works hw =>
    refine ⟨?_, h.accepted, h.attended.imp_left hw.attended, fun hended => ?_⟩
    · rw [← h.order, ← hw.packets, List.append_assoc]
    · rw [hw.stopped]
      cases hw with
      | ends hw hs => exact hs
      | _ => cases hended

theorem Sound.step (h : t.Sound) (hs : Step t t') : t'.Sound := by
  cases hs with
  | call a => exact h.call a
  | stop => exact h.stop
  | inner hi => exact h.inner hi

theorem Sound.steps (h : t.Sound) (hs : Steps t t') : t'.Sound := by
  induction hs with
  | refl => exact h
  | tail _ hs ih => exact ih.step hs

/-! ## What was done stays done -/

theorem Step.prefixes (hs : Step t t') : t.added <+: t'.added ∧ t.handed <+: t'.handed := by
  cases hs with
  | call a =>
    unfold Traffic.call
    split <;> exact ⟨List.prefix_rfl, List.prefix_rfl⟩
  | stop => exact ⟨List.prefix_rfl, List.prefix_rfl⟩
  | inner hi =>
    cases hi with
    | puts => exact ⟨List.prefix_append _ _, List.prefix_rfl⟩
    | wakes => exact ⟨List.prefix_rfl, List.prefix_rfl⟩
    | works => exact ⟨List.prefix_rfl, List.prefix_append _ _⟩

theorem prefixes_of_steps (hs : Steps t t') : t.added <+: t'.added ∧ t.handed <+: t'.handed := by
  induction hs with
  | refl => exact ⟨List.prefix_rfl, List.prefix_rfl⟩
  | tail _ hs ih => exact ⟨ih.1.trans hs.prefixes.1, ih.2.trans hs.prefixes.2⟩

/-- What happens by itself neither stops the queue nor lets packets in. -/
theorem InnerSteps.same (hs : InnerSteps t t') :
    t'.queue.stopped = t.queue.stopped ∧ t'.accepted = t.accepted := by
  induction hs with
  | refl => exact ⟨rfl, rfl⟩
  | tail _ hi ih =>
    cases hi with
    | works hw => exact ⟨hw.stopped.trans ih.1, ih.2⟩
    | _ => exact ih

/-- Nothing is let in any more once the queue is stopped. -/
theorem accepted_of_stopped (hs : t.queue.stopped = true) (h : Steps t t') :
    t'.queue.stopped = true ∧ t'.accepted = t.accepted := by
  induction h with
  | refl => exact ⟨hs, rfl⟩
  | tail _ h ih =>
    cases h with
    | call a =>
      rw [call, if_pos ih.1]
      exact ih
    | stop => exact ⟨rfl, ih.2⟩
    | inner hi =>
      obtain ⟨stopped, accepted⟩ := InnerSteps.same (.single hi)
      exact ⟨stopped.trans ih.1, accepted.trans ih.2⟩

/-! ## Coming to rest -/

/-- The steps by which a call, and what it brings about, come to their end. -/
def Call.work : Call α → Nat
  | .entering _ => 6
  | .waking => 3

/-- The steps that may happen by themselves at most. -/
def left (t : Traffic α) : Nat := (t.calls.map Call.work).sum + t.queue.left

theorem left_put (q : SendQueue α) (a : α) :
    ((onward q).map Call.work).sum + (q.put a).left ≤ q.left + 5 := by
  have same : (q.put a).left = q.left + 2 := by
    show 2 * (q.packets ++ [a]).length + (if q.wakePending then 2 else 0) + rank q.worker =
      2 * q.packets.length + (if q.wakePending then 2 else 0) + rank q.worker + 2
    rw [List.length_append, List.length_singleton]
    omega
  have next : ((onward q).map Call.work).sum ≤ 3 := by
    unfold onward
    split <;> simp [Call.work]
  omega

theorem left_wake (q : SendQueue α) : q.wake.left ≤ q.left + 2 := by
  simp only [SendQueue.left, wake, if_true]
  omega

theorem Inner.left_lt (h : Inner t t') : t'.left < t.left := by
  cases h with
  | @puts a before later hc =>
    have more := left_put t.queue a
    simp only [Traffic.left, hc, List.map_append, List.map_cons, List.sum_append, List.sum_cons,
      Call.work]
    omega
  | wakes before later hc =>
    have more := left_wake t.queue
    simp only [Traffic.left, hc, List.map_append, List.map_cons, List.sum_append, List.sum_cons,
      Call.work]
    omega
  | works hw => exact Nat.add_lt_add_left hw.left_lt _

/-- What happens by itself comes to an end. -/
theorem length_le_left (ts : List (Traffic α)) (h : (t :: ts).IsChain Inner) :
    ts.length ≤ t.left := by
  induction ts generalizing t with
  | nil => exact Nat.zero_le _
  | cons t' ts ih =>
    obtain ⟨first, later⟩ := List.isChain_cons_cons.1 h
    exact Nat.lt_of_le_of_lt (ih later) first.left_lt

theorem exists_settled (t : Traffic α) : ∃ t', InnerSteps t t' ∧ t'.Settled := by
  induction hn : t.left using Nat.strongRecOn generalizing t with
  | ind n ih =>
    by_cases hs : t.Settled
    · exact ⟨t, .refl, hs⟩
    · obtain ⟨t', first⟩ := not_forall_not.1 hs
      obtain ⟨t'', later, settled⟩ := ih t'.left (hn ▸ first.left_lt) t' rfl
      exact ⟨t'', .head first later, settled⟩

/-- A queue that is settled has no calls under way, and its worker has nothing to do. -/
theorem Settled.still (h : t.Settled) : t.calls = [] ∧ t.queue.Idle := by
  refine ⟨?_, fun q o hw => h _ (.works hw)⟩
  cases hc : t.calls with
  | nil => rfl
  | cons c later =>
    cases c with
    | entering a => exact absurd (.puts [] later hc) (h _)
    | waking => exact absurd (.wakes [] later hc) (h _)

/-- A queue in service is settled when all that was let in has been sent. -/
theorem Sound.settled (h : t.Sound) (hr : t.queue.stopped = false) (hs : t.Settled) :
    t.queue.worker = .waiting ∧ t.handed = t.added ∧ t.handed.Perm t.accepted := by
  obtain ⟨none, idle⟩ := hs.still
  have service : t.queue.InService := by
    refine ⟨hr, fun ended => ?_, h.attended.resolve_right (by simp [none])⟩
    exact absurd (hr.symm.trans (h.ended ended)) Bool.false_ne_true
  obtain ⟨asleep, empty⟩ := service.waiting idle
  have all : t.handed = t.added := by
    rw [← h.order, empty, List.append_nil]
  refine ⟨asleep, all, ?_⟩
  have accepted := h.accepted
  rw [outside, none, List.filterMap_nil, List.append_nil] at accepted
  rw [all]
  exact accepted

theorem InnerSteps.steps (hs : InnerSteps t t') : Steps t t' := by
  induction hs with
  | refl => exact .refl
  | tail _ hi ih => exact ih.tail (.inner hi)

/-! ## Packets are handed over in turn -/

/-- What a queue does with the packets that come to it. -/
structure Delivers (t : Traffic α) : Prop where
  /-- Packets are handed over in the order in which they were put in, each once. -/
  inTurn : t.handed <+: t.added
  /-- Those that were put in, with those on their way in, are those of the calls that came before
  the queue was stopped, each once. -/
  accepted : (t.added ++ t.outside).Perm t.accepted
  /-- What has been put in or handed over stays in front of what follows. -/
  lasting : ∀ t', Steps t t' → t.added <+: t'.added ∧ t.handed <+: t'.handed
  /-- Nothing is let in once the queue is stopped. -/
  shut : t.queue.stopped = true → ∀ t', Steps t t' → t'.accepted = t.accepted
  /-- A worker that waits has nothing to do, or will be woken. -/
  awake : t.queue.worker = .waiting → t.queue.stopped = false → t.queue.packets = [] ∨ t.WakeUpComing
  /-- What happens by itself comes to an end. -/
  ends : ∀ ts, (t :: ts).IsChain Inner → ts.length ≤ t.left
  settles : ∃ t', InnerSteps t t' ∧ t'.Settled
  /-- At that end, without a stop, all packets have been handed over and sent. -/
  complete : t.queue.stopped = false → ∀ t', InnerSteps t t' → t'.Settled →
    t'.queue.worker = .waiting ∧ t'.handed = t'.added ∧ t'.handed.Perm t.accepted

/-- However calls, stops and the steps of the worker come in between each other: packets are handed
over in the order in which they were put in, without a gap and without repetition, and none but
those that came before the queue was stopped. Unless it is stopped, the worker never waits while
there are packets and no wake-up is coming, so that all have been sent once nothing is left to
happen. -/
theorem handed_over_in_turn (t : Traffic α) (h : Steps {} t) : t.Delivers := by
  have sound : t.Sound := sound_new.steps h
  refine ⟨?_, sound.accepted, fun t' => prefixes_of_steps, fun hs t' h' => ?_, fun hw _ => ?_,
    length_le_left, exists_settled t, fun hr t' h' hs => ?_⟩
  · rw [← sound.order]
    exact List.prefix_append _ _
  · exact (accepted_of_stopped hs h').2
  · rcases sound.attended with (empty | woken | busy) | waking
    · exact .inl empty
    · exact .inr (.inl woken)
    · rw [hw] at busy
      cases busy
    · exact .inr (.inr waking)
  · obtain ⟨stopped, accepted⟩ := h'.same
    have all := (sound.steps h'.steps).settled (stopped.trans hr) hs
    rw [accepted] at all
    exact all

/-! ## A call that is late to wake the worker -/

/-- Two packets are in. The call of the first has not woken the worker yet, and that of the second
has returned without a wake-up. -/
def lateWaking : Traffic Nat where
  queue := { packets := [7, 8] }
  calls := [.waking]
  accepted := [7, 8]
  added := [7, 8]

theorem steps_lateWaking : Steps {} lateWaking := by
  have first : Steps {}
      { queue := { packets := [7] }, calls := [.waking], accepted := [7], added := [7] } :=
    (Relation.ReflTransGen.single (.call 7)).tail (.inner (.puts [] [] rfl))
  exact (first.tail (.call 8)).tail (.inner (.puts [.waking] [] rfl))

/-- The worker waits with packets in the queue and no wake-up in its channel. -/
theorem handed_over_in_turn_lateWaking :
    Steps {} lateWaking ∧ lateWaking.queue.worker = .waiting ∧
      lateWaking.queue.packets ≠ [] ∧ lateWaking.queue.wakePending = false ∧
      lateWaking.WakeUpComing ∧ lateWaking.Delivers := by
  have delivers : lateWaking.Delivers := handed_over_in_turn lateWaking steps_lateWaking
  have left : lateWaking.queue.packets ≠ [] := by decide
  exact ⟨steps_lateWaking, rfl, left, rfl, (delivers.awake rfl rfl).resolve_left left, delivers⟩

end Traffic
end Simulcast.SendQueue
