import Simulcast.Proofs.Subscription.Sending

/-!
# Runs of a subscription, step by step

A subscription is asked for things, makes the copies that it owes, and its worker takes steps, in any
order: these are the acts of a run. What can be seen of a run is a list of events: packets that come,
packets that are put into the queue, what the link answers, and what is made known.

`undergoes` says of each act what it does to the queue and the counts, and what the log holds of it. To
make the copies and to send all that is queued is a run of this kind (`flush_eq_run`).
-/

namespace Simulcast.Subscription

/-- A step of a run. -/
inductive Act where
  /-- Something is asked of the subscription. -/
  | command (v : PublisherView) (brs : Bitrates) (now : Moment) (c : SubscriptionCommand)
  /-- The copies that were asked for are made. -/
  | copies (v : PublisherView)
  /-- The worker takes a step. The packet that it is sending, if any, is stamped with this time and
  gets this answer from the link. -/
  | work (unixNanos : Int) (link : Link)

/-- What can be seen of a run. -/
inductive Event where
  /-- A packet of the publisher came while a binding was in force. -/
  | came (x : Arrival)
  /-- A packet was put into the queue. -/
  | queued (origin : Origin) (o : Outgoing)
  /-- A request for padding was answered with so many octets. -/
  | padded (octets : Nat)
  /-- The link answered on a packet. -/
  | answered (t : Transmission)
  | told (n : Notice)
  deriving DecidableEq, Repr

/-- The packets that were put into the queue on the way from one subscription to another. -/
def newlyQueued (s s' : Subscription) : List Outgoing :=
  s'.queue.packets.drop s.queue.packets.length

/-- What can be seen of a command. -/
def eventsOf (s s' : Subscription) (c : SubscriptionCommand) (notices : List Notice)
    (answer : SubscriptionAnswer) : List Event :=
  (s.arrivals c).map .came ++ (s.newlyQueued s').map (.queued (originOf c)) ++
    (paddingAnswer c answer).toList.map .padded ++ notices.map .told

/-- The subscription with another queue. -/
def withQueue (s : Subscription) (q : SendQueue Outgoing) : Subscription := { s with queue := q }

/-- A subscription after an act, with what can be seen of it. -/
def undergo (s : Subscription) : Act → Attempt (Subscription × List Event)
  | .command v brs now c => (s.perform v brs now c).map fun (s', notices, answer) =>
    (s', s.eventsOf s' c notices answer)
  | .copies v => .ok (s.makeCopies v, (s.newlyQueued (s.makeCopies v)).map (.queued .copy))
  | .work unixNanos link =>
    let s' := s.withQueue s.queue.step.1
    match s.queue.worker with
    | .sending o =>
      let t := o.transmit unixNanos link
      let (s', notices) := s'.account t
      .ok (s', .answered t :: notices.map .told)
    | _ => .ok (s', [])

/-- A subscription after some acts, with what can be seen of them. -/
def run : Subscription → List Act → Attempt (Subscription × List Event)
  | s, [] => .ok (s, [])
  | s, a :: as => do
    let (s', es) ← s.undergo a
    let (last, later) ← s'.run as
    return (last, es ++ later)

variable {s s' : Subscription} {a : Act} {as : List Act} {es : List Event}

/-! ## Runs -/

theorem run_cons_eq_ok :
    s.run (a :: as) = .ok (s', es) ↔
      ∃ t first later, s.undergo a = .ok (t, first) ∧ t.run as = .ok (s', later) ∧
        es = first ++ later := by
  constructor
  · intro h
    obtain ⟨⟨t, first⟩, ht, h⟩ := bind_eq_ok.1 h
    obtain ⟨⟨last, later⟩, hlast, h⟩ := bind_eq_ok.1 h
    cases h
    exact ⟨t, first, later, ht, hlast, rfl⟩
  · rintro ⟨t, first, later, ht, hlast, rfl⟩
    exact bind_eq_ok.2 ⟨_, ht, bind_eq_ok.2 ⟨_, hlast, rfl⟩⟩

/-- What every act keeps true, holds after a run. -/
theorem run_induction {P : Subscription → List Event → Prop} {log : List Event}
    (step : ∀ a ∈ as, ∀ s s' log es, P s log → s.undergo a = .ok (s', es) → P s' (log ++ es))
    (h : P s log) (hr : s.run as = .ok (s', es)) : P s' (log ++ es) := by
  induction as generalizing s log es with
  | nil =>
    cases hr
    rw [List.append_nil]
    exact h
  | cons a as ih =>
    obtain ⟨t, first, rest, ht, hrest, rfl⟩ := run_cons_eq_ok.1 hr
    have next := step a List.mem_cons_self s t log first h ht
    rw [← List.append_assoc]
    exact ih (fun a' ha' => step a' (List.mem_cons_of_mem a ha')) next hrest

/-! ## What a log holds -/

namespace Event

def arrival : Event → Option Arrival
  | .came x => some x
  | _ => none

/-- The packet that was put into the queue, if it is of one of these origins. -/
def outgoing (p : Origin → Bool) : Event → Option Outgoing
  | .queued origin o => if p origin then some o else none
  | _ => none

def transmission : Event → Option Transmission
  | .answered t => some t
  | _ => none

def paddingOctets : Event → Option Nat
  | .padded n => some n
  | _ => none

def notice : Event → Option Notice
  | .told n => some n
  | _ => none

end Event

/-- The packets of the publisher that came. -/
def cameIn (log : List Event) : List Arrival := log.filterMap Event.arrival

/-- The packets of some origins that were put into the queue, in turn. -/
def queuedFrom (p : Origin → Bool) (log : List Event) : List Outgoing :=
  log.filterMap (Event.outgoing p)

/-- The packets that the link answered on, in turn. -/
def answersIn (log : List Event) : List Transmission := log.filterMap Event.transmission

/-- The octets with which requests for padding were answered. -/
def paddedIn (log : List Event) : Nat := (log.filterMap Event.paddingOctets).sum

def noticesIn (log : List Event) : List Notice := log.filterMap Event.notice

section

variable (log log' : List Event)

@[simp] theorem cameIn_append : cameIn (log ++ log') = cameIn log ++ cameIn log' :=
  List.filterMap_append

@[simp] theorem queuedFrom_append (p : Origin → Bool) :
    queuedFrom p (log ++ log') = queuedFrom p log ++ queuedFrom p log' := List.filterMap_append

@[simp] theorem answersIn_append : answersIn (log ++ log') = answersIn log ++ answersIn log' :=
  List.filterMap_append

@[simp] theorem paddedIn_append : paddedIn (log ++ log') = paddedIn log + paddedIn log' := by
  rw [paddedIn, List.filterMap_append, List.sum_append]
  rfl

@[simp] theorem noticesIn_append : noticesIn (log ++ log') = noticesIn log ++ noticesIn log' :=
  List.filterMap_append

end

/-- What a log holds of packets that were queued or left out. -/
structure Records (log : List Event) (origin : Origin) (os : List Outgoing) (n : Nat) : Prop where
  queued : ∀ p, queuedFrom p log = if p origin then os else []
  came : (cameIn log).length = (if origin = .media then os.length else 0) + n
  answers : answersIn log = []
  padded : paddedIn log = if origin = .padding then (os.map fun o => o.packet.size).sum else 0

/-- What a log holds of an answer of the link. -/
structure Answers (log : List Event) (t : Transmission) : Prop where
  queued : ∀ p, queuedFrom p log = []
  came : cameIn log = []
  answers : answersIn log = [t]
  padded : paddedIn log = 0

theorem filterMap_map_blind {α β : Type} {f : Event → Option β} {g : α → Event}
    (h : ∀ x, f (g x) = none) (l : List α) : (l.map g).filterMap f = [] := by
  rw [List.filterMap_map]
  exact List.filterMap_eq_nil_iff.2 fun x _ => h x

theorem queuedFrom_map_queued (p : Origin → Bool) (origin : Origin) (os : List Outgoing) :
    queuedFrom p (os.map (.queued origin)) = if p origin then os else [] := by
  rw [queuedFrom, List.filterMap_map]
  cases hp : p origin with
  | true => simp [Function.comp_def, Event.outgoing, hp]
  | false => exact List.filterMap_eq_nil_iff.2 fun o _ => by simp [Event.outgoing, hp]

theorem noticesIn_map_told (notices : List Notice) : noticesIn (notices.map .told) = notices := by
  rw [noticesIn, List.filterMap_map]
  exact List.filterMap_some

theorem noticesIn_answered (t : Transmission) (notices : List Notice) :
    noticesIn (.answered t :: notices.map .told) = notices := noticesIn_map_told notices

theorem noticesIn_eventsOf (s s' : Subscription) (c : SubscriptionCommand) (notices : List Notice)
    (answer : SubscriptionAnswer) : noticesIn (s.eventsOf s' c notices answer) = notices := by
  simp only [eventsOf, noticesIn_append, noticesIn_map_told]
  simp only [noticesIn]
  rw [filterMap_map_blind (g := .came) fun _ => rfl,
    filterMap_map_blind (g := .queued _) fun _ => rfl,
    filterMap_map_blind (g := .padded) fun _ => rfl]
  rfl

theorem answers_answered (t : Transmission) (notices : List Notice) :
    Answers (.answered t :: notices.map .told) t where
  queued _ := filterMap_map_blind (fun _ => rfl) notices
  came := filterMap_map_blind (fun _ => rfl) notices
  answers := congrArg (t :: ·) (filterMap_map_blind (fun _ => rfl) notices)
  padded := congrArg List.sum (filterMap_map_blind (fun _ => rfl) notices)

theorem newlyQueued_of_puts {os : List Outgoing} {n : Nat} (hr : s.queue.stopped = false)
    (h : Puts os n s s') : s.newlyQueued s' = os := by
  rw [newlyQueued, h.queue, SendQueue.packets_enqueueAll hr, List.drop_left]

theorem Does.records {c : SubscriptionCommand} {notices : List Notice} {answer : SubscriptionAnswer}
    {os : List Outgoing} {n : Nat} (h : Does c s s' answer os n) (hr : s.queue.stopped = false) :
    Records (s.eventsOf s' c notices answer) (originOf c) os n := by
  rw [eventsOf, newlyQueued_of_puts hr h.puts, h.answer]
  constructor
  · intro p
    rw [queuedFrom_append, queuedFrom_append, queuedFrom_append, queuedFrom_map_queued]
    simp only [queuedFrom]
    rw [filterMap_map_blind fun _ => rfl, filterMap_map_blind fun _ => rfl,
      filterMap_map_blind fun _ => rfl, List.nil_append, List.append_nil, List.append_nil]
  · rw [h.media, cameIn_append, cameIn_append, cameIn_append]
    simp only [cameIn]
    rw [filterMap_map_blind (g := .queued _) fun _ => rfl,
      filterMap_map_blind (g := .padded) fun _ => rfl,
      filterMap_map_blind (g := .told) fun _ => rfl, List.append_nil, List.append_nil,
      List.append_nil, List.filterMap_map]
    exact congrArg List.length List.filterMap_some
  · simp only [answersIn, List.filterMap_append]
    rw [filterMap_map_blind fun _ => rfl, filterMap_map_blind fun _ => rfl,
      filterMap_map_blind fun _ => rfl, filterMap_map_blind fun _ => rfl]
    rfl
  · simp only [paddedIn, List.filterMap_append]
    rw [filterMap_map_blind (g := .came) fun _ => rfl,
      filterMap_map_blind (g := .queued _) fun _ => rfl,
      filterMap_map_blind (g := .told) fun _ => rfl, List.nil_append, List.nil_append,
      List.append_nil, List.filterMap_map]
    split
    · exact Nat.add_zero _
    · rfl

theorem records_copies (os : List Outgoing) : Records (os.map (.queued .copy)) .copy os 0 where
  queued p := queuedFrom_map_queued p .copy os
  came := congrArg List.length (filterMap_map_blind (fun _ => rfl) os)
  answers := filterMap_map_blind (fun _ => rfl) os
  padded := congrArg List.sum (filterMap_map_blind (fun _ => rfl) os)

/-! ## What an act does -/

theorem undergo_work_sending {o : Outgoing} (h : s.queue.worker.inHand = some o) (unixNanos : Int)
    (link : Link) :
    s.undergo (.work unixNanos link) =
      .ok (((s.withQueue s.queue.step.1).account (o.transmit unixNanos link)).1,
        .answered (o.transmit unixNanos link) ::
          ((s.withQueue s.queue.step.1).account (o.transmit unixNanos link)).2.map .told) := by
  cases hw : s.queue.worker with
  | sending o' =>
    rw [hw] at h
    cases h
    simp only [undergo, hw]
  | _ =>
    rw [hw] at h
    cases h

theorem undergo_work_idle (h : s.queue.worker.inHand = none) (unixNanos : Int) (link : Link) :
    s.undergo (.work unixNanos link) = .ok (s.withQueue s.queue.step.1, []) := by
  cases hw : s.queue.worker with
  | sending o =>
    rw [hw] at h
    cases h
  | _ => simp only [undergo, hw]

/-- What an act comes to, and what can be seen of it. -/
inductive ActOutcome (s : Subscription) : Act → Subscription → List Event → Prop where
  | command {v : PublisherView} {brs : Bitrates} {now : Moment} {c : SubscriptionCommand}
      {s' : Subscription} {notices : List Notice} {answer : SubscriptionAnswer}
      (h : s.perform v brs now c = .ok (s', notices, answer)) :
      ActOutcome s (.command v brs now c) s' (s.eventsOf s' c notices answer)
  | copies (v : PublisherView) :
      ActOutcome s (.copies v) (s.makeCopies v)
        ((s.newlyQueued (s.makeCopies v)).map (.queued .copy))
  /-- The worker is through with a packet. -/
  | sends (unixNanos : Int) (link : Link) {o : Outgoing} (h : s.queue.worker.inHand = some o) :
      ActOutcome s (.work unixNanos link)
        ((s.withQueue s.queue.step.1).account (o.transmit unixNanos link)).1
        (.answered (o.transmit unixNanos link) ::
          ((s.withQueue s.queue.step.1).account (o.transmit unixNanos link)).2.map .told)
  /-- The worker does something else. -/
  | works (unixNanos : Int) (link : Link) (h : s.queue.worker.inHand = none) :
      ActOutcome s (.work unixNanos link) (s.withQueue s.queue.step.1) []

theorem undergo_outcome (h : s.undergo a = .ok (s', es)) : ActOutcome s a s' es := by
  cases a with
  | command v brs now c =>
    obtain ⟨⟨t, notices, answer⟩, hp, he⟩ := map_eq_ok.1 h
    cases he
    exact .command hp
  | copies v =>
    cases h
    exact .copies v
  | work unixNanos link =>
    cases hw : s.queue.worker.inHand with
    | some o =>
      rw [undergo_work_sending hw] at h
      cases h
      exact .sends unixNanos link hw
    | none =>
      rw [undergo_work_idle hw] at h
      cases h
      exact .works unixNanos link hw

/-- What an act does to queue and counts, and what the log holds of it. -/
inductive Undergoes (s s' : Subscription) (es : List Event) : Prop where
  /-- Packets are put into the queue or left out. -/
  | puts {origin : Origin} {os : List Outgoing} {n : Nat} (puts : Puts os n s s')
      (made : ∀ o ∈ os, s.Made origin o) (records : Records es origin os n)
  /-- The worker is through with a packet. -/
  | sends {o : Outgoing} {unixNanos : Int} {link : Link} (worker : s.queue.worker.inHand = some o)
      (next : s' = ((s.withQueue s.queue.step.1).account (o.transmit unixNanos link)).1)
      (answers : Answers es (o.transmit unixNanos link))
  /-- The worker does something else. -/
  | works (worker : s.queue.worker.inHand = none) (next : s' = s.withQueue s.queue.step.1)
      (seen : es = [])

theorem undergoes (hr : s.queue.stopped = false) (h : s.undergo a = .ok (s', es)) :
    Undergoes s s' es := by
  cases undergo_outcome h with
  | command hp =>
    obtain ⟨os, n, does⟩ := does_perform hp
    exact .puts does.puts does.made (does.records hr)
  | copies v =>
    obtain ⟨os, sent, made⟩ := sends_makeCopies s v
    rw [newlyQueued_of_puts hr sent.puts]
    exact .puts sent.puts made (records_copies os)
  | sends unixNanos link hw => exact .sends hw rfl (answers_answered _ _)
  | works unixNanos link hw => exact .works hw rfl rfl

/-- The terms after an act. -/
def termsAfterAct (s : Subscription) : Act → Terms
  | .command _ _ _ c => s.termsAfter c
  | _ => s.terms

theorem terms_account (s : Subscription) (t : Transmission) : (s.account t).1.terms = s.terms := by
  unfold account
  dsimp only
  split <;> rfl

theorem terms_undergo (h : s.undergo a = .ok (s', es)) : s'.terms = s.termsAfterAct a := by
  cases undergo_outcome h with
  | command hp =>
    obtain ⟨os, n, does⟩ := does_perform hp
    exact does.terms
  | copies v =>
    obtain ⟨os, sent, -⟩ := sends_makeCopies s v
    exact sent.terms
  | sends unixNanos link hw => exact terms_account _ _
  | works unixNanos link hw => rfl

/-! ## The worker -/

section

variable (s : Subscription) (q : SendQueue Outgoing) (t : Transmission) (ts : List Transmission)

@[simp] theorem queue_withQueue : (s.withQueue q).queue = q := rfl

@[simp] theorem account_withQueue :
    (s.withQueue q).account t = ((s.account t).1.withQueue q, (s.account t).2) := by
  unfold account
  dsimp only
  split <;> rfl

@[simp] theorem accountAll_withQueue :
    (s.withQueue q).accountAll ts = ((s.accountAll ts).1.withQueue q, (s.accountAll ts).2) := by
  induction ts generalizing s with
  | nil => rfl
  | cons t ts ih => simp only [accountAll, account_withQueue, ih]

end

/-- The worker is let run, with this time and this answer of the link for each of its steps. -/
def workAll (ws : List (Int × Link)) : List Act := ws.map fun w => .work w.1 w.2

/-- The worker can always take a step. -/
theorem undergo_work (s : Subscription) (unixNanos : Int) (link : Link) :
    ∃ s' es, s.undergo (.work unixNanos link) = .ok (s', es) ∧ s'.queue = s.queue.step.1 := by
  cases hw : s.queue.worker.inHand with
  | some o => exact ⟨_, _, undergo_work_sending hw _ _, by rw [account_withQueue]; rfl⟩
  | none => exact ⟨_, _, undergo_work_idle hw _ _, rfl⟩

theorem run_workAll (s : Subscription) (ws : List (Int × Link)) :
    ∃ s' es, s.run (workAll ws) = .ok (s', es) ∧ s'.queue = (SendQueue.run ws.length s.queue).1 := by
  induction ws generalizing s with
  | nil => exact ⟨s, [], rfl, rfl⟩
  | cons w ws ih =>
    obtain ⟨t, first, ht, step⟩ := undergo_work s w.1 w.2
    obtain ⟨s', later, hs', rest⟩ := ih t
    refine ⟨s', first ++ later, run_cons_eq_ok.2 ⟨t, first, later, ht, hs', rfl⟩, ?_⟩
    rw [rest, step]
    rfl

/-- A worker that is let run is through with the packet that it had in hand and with those that it
took up, except for the one that it has in hand at the end. They are counted in turn. -/
theorem run_replicate_work (s : Subscription) (unixNanos : Int) (link : Link) (n : Nat) :
    ∃ (done : List Outgoing) (es : List Event),
      s.queue.worker.inHand.toList ++ (SendQueue.run n s.queue).2 =
        done ++ (SendQueue.run n s.queue).1.worker.inHand.toList ∧
      s.run (workAll (List.replicate n (unixNanos, link))) =
        .ok ((s.accountAll (done.map fun o => o.transmit unixNanos link)).1.withQueue
          (SendQueue.run n s.queue).1, es) ∧
      noticesIn es = (s.accountAll (done.map fun o => o.transmit unixNanos link)).2 := by
  induction n generalizing s with
  | zero => exact ⟨[], [], List.append_nil _, rfl, rfl⟩
  | succ n ih =>
    have both : (SendQueue.run (n + 1) s.queue).1 = (SendQueue.run n s.queue.step.1).1 ∧
        (SendQueue.run (n + 1) s.queue).2 =
          s.queue.step.2.toList ++ (SendQueue.run n s.queue.step.1).2 := ⟨rfl, rfl⟩
    rw [both.1, both.2]
    cases hw : s.queue.worker.inHand with
    | none =>
      obtain ⟨done, es, order, ran, told⟩ := ih (s.withQueue s.queue.step.1)
      rw [accountAll_withQueue] at ran told
      have taken : s.queue.step.1.worker.inHand = s.queue.step.2 := by
        rcases SendQueue.inHand_step s.queue with ⟨-, taken⟩ | ⟨empty, none⟩
        · exact taken
        · rw [empty, none]
      refine ⟨done, es, ?_, run_cons_eq_ok.2 ⟨_, [], es, undergo_work_idle hw _ _, ran, rfl⟩, told⟩
      rw [← taken]
      exact order
    | some o =>
      obtain ⟨empty, none⟩ : s.queue.step.1.worker.inHand = none ∧ s.queue.step.2 = none := by
        rcases SendQueue.inHand_step s.queue with ⟨idle, -⟩ | emptied
        · exact absurd (hw.symm.trans idle) (Option.some_ne_none o)
        · exact emptied
      let t := o.transmit unixNanos link
      obtain ⟨done, es, order, ran, told⟩ := ih ((s.account t).1.withQueue s.queue.step.1)
      rw [accountAll_withQueue] at ran told
      have first := undergo_work_sending hw unixNanos link
      rw [account_withQueue] at first
      refine ⟨o :: done, _, ?_, run_cons_eq_ok.2 ⟨_, _, es, first, ran, rfl⟩, ?_⟩
      · rw [queue_withQueue, empty] at order
        rw [none, List.cons_append, ← order]
        rfl
      · rw [noticesIn_append, noticesIn_answered, told]
        rfl

/-- To make the copies and to send all that is queued is such a run. -/
theorem flush_eq_run (hq : s.queue.InService) (hw : s.queue.worker = .waiting) (v : PublisherView)
    (now : Moment) (link : Link) :
    ∃ n es, s.run (.copies v :: workAll (List.replicate n (now.unixNanos, link))) =
        .ok ((s.flush v now link).1, es) ∧ noticesIn es = (s.flush v now link).2 := by
  obtain ⟨os, sent, -⟩ := sends_makeCopies s v
  have service : (s.makeCopies v).queue.InService := by
    rw [sent.puts.queue]
    exact hq.enqueueAll os
  have idle : (s.makeCopies v).queue.worker.inHand = none := by
    rw [sent.puts.queue, SendQueue.worker_enqueueAll, hw]
    rfl
  obtain ⟨done, es, order, ran, told⟩ := run_replicate_work (s.makeCopies v) now.unixNanos link
    (s.makeCopies v).queue.stepsToIdle
  obtain ⟨-, drained⟩ := SendQueue.drain_inService service
  -- Nothing is left in hand, so that all that was taken up has been counted.
  have all : (s.makeCopies v).queue.drain.2 = done := by
    have last : (SendQueue.run (s.makeCopies v).queue.stepsToIdle
        (s.makeCopies v).queue).1.worker.inHand = none := drained.inHand
    rw [idle, last, Option.toList_none, List.nil_append, List.append_nil] at order
    exact order
  have flushed : s.flush v now link =
      (((s.makeCopies v).accountAll (done.map fun o => o.transmit now.unixNanos link)).1.withQueue
        (s.makeCopies v).queue.drain.1,
        ((s.makeCopies v).accountAll (done.map fun o => o.transmit now.unixNanos link)).2) := by
    rw [← all]
    exact accountAll_withQueue _ _ _
  rw [flushed]
  refine ⟨_, _, run_cons_eq_ok.2 ⟨_, _, es, rfl, ran, rfl⟩, ?_⟩
  rw [noticesIn_append, ← told]
  exact congrArg (· ++ noticesIn es) (filterMap_map_blind (fun _ => rfl) _)

end Simulcast.Subscription
