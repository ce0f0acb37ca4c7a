import Simulcast.Proofs.Subscription.Contiguity
import Simulcast.Proofs.Subscription.Overrun
import Mathlib.Data.List.Forall2

/-!
# Accounts of packets

A subscription counts what becomes of its packets in several places: a packet of the publisher that is
left out is counted when it comes, and a queued one once the link has answered on it. `Tallies` ties
the counts to what can be seen of a run, and every act keeps it (`Tallies.undergoes`). So no packet is
counted twice or passed over (`accounted_for_once`).
-/

namespace Simulcast.Subscription

/-- The packet was stamped and handed to the link. -/
def Sent (o : Outgoing) (t : Transmission) : Prop := ∃ unixNanos link, t = o.transmit unixNanos link

/-- Whether a packet is one of the relay's own. -/
def Origin.isOwn : Origin → Bool
  | .media => false
  | _ => true

/-- The packets of the publisher that were put into the queue. -/
def mediaIn (log : List Event) : List Outgoing := queuedFrom (· == .media) log

/-- The packets of the relay's own that were put into the queue. -/
def ownIn (log : List Event) : List Outgoing := queuedFrom Origin.isOwn log

/-- All packets that were put into the queue. -/
def queuedIn (log : List Event) : List Outgoing := queuedFrom (fun _ => true) log

/-- The sizes of the transmissions that the link took, as far as they are of a kind. -/
def takenOctets (p : Transmission → Bool) (ts : List Transmission) : Nat :=
  ((ts.filter fun t => t.succeeded && p t).map Transmission.size).sum

/-- What a subscription counts, and what is left in its queue, is what can be seen of its run. -/
structure Tallies (s : Subscription) (log : List Event) : Prop where
  service : s.queue.InService
  /-- The link answered on what was queued, in turn, up to what is still to be sent. -/
  order : ∃ gone, gone ++ s.queue.pending = queuedIn log ∧ gone.Forall₂ Sent (answersIn log)
  packets : s.stats.packets = (answersIn log).countP Transmission.succeeded
  dropped : s.stats.dropped + (mediaIn log).length =
    (cameIn log).length + (answersIn log).countP fun t => !t.succeeded
  octets : s.stats.octets = takenOctets (fun _ => true) (answersIn log)
  paddingPackets : s.stats.paddingPackets =
    (answersIn log).countP fun t => t.succeeded && t.isPadding
  paddingOctets : s.stats.paddingOctets = takenOctets Transmission.isPadding (answersIn log)

variable {s s' s₀ : Subscription} {log es : List Event} {a : Act} {as : List Act}

/-- The packets of the publisher and those of the relay's own are all that are queued. -/
theorem length_queuedIn (log : List Event) :
    (queuedIn log).length = (mediaIn log).length + (ownIn log).length := by
  induction log with
  | nil => rfl
  | cons e log ih =>
    simp only [queuedIn, mediaIn, ownIn, queuedFrom] at ih ⊢
    cases e with
    | queued origin o =>
      cases origin <;> simp [Event.outgoing, Origin.isOwn, ih] <;> omega
    | _ => exact ih

theorem tallies_create {name : TrackName} {peer : String} {codec : Codec}
    {settings : SubscriptionSettings} (hs : create name peer codec settings = .ok s) :
    Tallies s [] := by
  obtain ⟨kind, -, rfl⟩ := map_eq_ok.1 hs
  exact ⟨SendQueue.inService_new, ⟨[], rfl, .nil⟩, rfl, rfl, rfl, rfl, rfl⟩

theorem Tallies.puts {origin : Origin} {os : List Outgoing} {n : Nat} (h : Tallies s log)
    (hp : Puts os n s s') (hr : Records es origin os n) : Tallies s' (log ++ es) := by
  obtain ⟨gone, order, sent⟩ := h.order
  have answers : answersIn (log ++ es) = answersIn log := by
    rw [answersIn_append, hr.answers, List.append_nil]
  constructor
  · rw [hp.queue]
    exact h.service.enqueueAll os
  · refine ⟨gone, ?_, answers.symm ▸ sent⟩
    rw [hp.queue, SendQueue.pending_enqueueAll h.service.running, ← List.append_assoc, order, queuedIn,
      queuedIn, queuedFrom_append, hr.queued]
    rfl
  · rw [hp.stats, answers]
    exact h.packets
  · have before := h.dropped
    have dropped : s'.stats.dropped = s.stats.dropped + n := by rw [hp.stats]
    have media : (mediaIn (log ++ es)).length =
        (mediaIn log).length + if origin = .media then os.length else 0 := by
      rw [mediaIn, mediaIn, queuedFrom_append, hr.queued, List.length_append, apply_ite List.length]
      simp
    rw [dropped, media, answers, cameIn_append, List.length_append, hr.came]
    omega
  · rw [hp.stats, answers]
    exact h.octets
  · rw [hp.stats, answers]
    exact h.paddingPackets
  · rw [hp.stats, answers]
    exact h.paddingOctets

/-- What is counted once the link has answered. -/
theorem stats_account (s : Subscription) (t : Transmission) :
    (s.account t).1.stats =
      { s.stats with
        packets := s.stats.packets + if t.succeeded then 1 else 0
        octets := s.stats.octets + if t.succeeded then t.size else 0
        dropped := s.stats.dropped + if t.succeeded then 0 else 1
        paddingPackets := s.stats.paddingPackets + if t.succeeded && t.isPadding then 1 else 0
        paddingOctets := s.stats.paddingOctets + if t.succeeded && t.isPadding then t.size else 0 } := by
  unfold account
  cases t.succeeded with
  | false => rfl
  | true => cases t.isPadding <;> simp

theorem takenOctets_append (p : Transmission → Bool) (ts : List Transmission) (t : Transmission) :
    takenOctets p (ts ++ [t]) = takenOctets p ts + if t.succeeded && p t then t.size else 0 := by
  rw [takenOctets, List.filter_append, List.map_append, List.sum_append, List.filter_singleton]
  cases t.succeeded && p t <;> rfl

theorem Tallies.sends {o : Outgoing} {unixNanos : Int} {link : Link} (h : Tallies s log)
    (hw : s.queue.worker.inHand = some o)
    (ha : Answers es (o.transmit unixNanos link)) :
    Tallies ((s.withQueue s.queue.step.1).account (o.transmit unixNanos link)).1 (log ++ es) := by
  obtain ⟨gone, order, sent⟩ := h.order
  generalize ht : o.transmit unixNanos link = t at ha ⊢
  have answers : answersIn (log ++ es) = answersIn log ++ [t] := by
    rw [answersIn_append, ha.answers]
  have queued : ∀ p, queuedFrom p (log ++ es) = queuedFrom p log := by
    intro p
    rw [queuedFrom_append, ha.queued, List.append_nil]
  rw [account_withQueue]
  have stats : ((s.account t).1.withQueue s.queue.step.1).stats = (s.account t).1.stats := rfl
  constructor
  · exact h.service.step
  · refine ⟨gone ++ [o], ?_, ?_⟩
    · have through := SendQueue.pending_step s.queue
      rw [hw] at through
      rw [queuedIn, queued, ← queuedIn, ← order, ← through, List.append_assoc]
      rfl
    · rw [answers]
      exact List.rel_append sent (.cons ⟨unixNanos, link, ht.symm⟩ .nil)
  · rw [stats, stats_account, answers, List.countP_append, List.countP_singleton, h.packets]
  · rw [stats, stats_account, answers, List.countP_append, List.countP_singleton, mediaIn, queued,
      ← mediaIn, cameIn_append, ha.came, List.append_nil]
    have before := h.dropped
    cases t.succeeded <;> simp <;> omega
  · rw [stats, stats_account, answers, takenOctets_append, h.octets, Bool.and_true]
  · rw [stats, stats_account, answers, List.countP_append, List.countP_singleton, h.paddingPackets]
  · rw [stats, stats_account, answers, takenOctets_append, h.paddingOctets]

theorem Tallies.works (h : Tallies s log) (hw : s.queue.worker.inHand = none) :
    Tallies (s.withQueue s.queue.step.1) log where
  service := h.service.step
  order := by
    obtain ⟨gone, order, sent⟩ := h.order
    have same := SendQueue.pending_step s.queue
    rw [hw] at same
    refine ⟨gone, ?_, sent⟩
    rw [← order, ← same]
    rfl
  packets := h.packets
  dropped := h.dropped
  octets := h.octets
  paddingPackets := h.paddingPackets
  paddingOctets := h.paddingOctets

theorem Tallies.undergo (h : Tallies s log) (hu : s.undergo a = .ok (s', es)) :
    Tallies s' (log ++ es) := by
  cases undergoes h.service.running hu with
  | puts puts made records => exact h.puts puts records
  | sends worker next answers =>
    rw [next]
    exact h.sends worker answers
  | works worker next seen =>
    rw [next, seen, List.append_nil]
    exact h.works worker

/-! ## Every packet is accounted for once -/

theorem Tallies.run (h : Tallies s log) (hr : s.run as = .ok (s', es)) : Tallies s' (log ++ es) :=
  run_induction (P := Tallies) (fun _ _ _ _ _ _ ht hu => ht.undergo hu) h hr

/-- What is counted as sent or as left out, and what is still to be sent. -/
structure AccountedFor (s : Subscription) (log : List Event) : Prop where
  /-- Those that count as sent are those that the link took. -/
  sent : s.stats.packets = (answersIn log).countP Transmission.succeeded
  /-- Every packet is sent, left out or still to be sent: those of the publisher that came while a
  binding was in force, and those of the relay's own that were put into the queue. -/
  once : s.stats.packets + s.stats.dropped + s.queue.pending.length =
    (cameIn log).length + (ownIn log).length
  drained : s.queue.Drained →
    s.stats.packets + s.stats.dropped = (cameIn log).length + (ownIn log).length

theorem Tallies.accountedFor (h : Tallies s log) : AccountedFor s log := by
  obtain ⟨gone, order, sent⟩ := h.order
  have all : gone.length + s.queue.pending.length = (mediaIn log).length + (ownIn log).length := by
    rw [← length_queuedIn, ← order, List.length_append]
  have answered : gone.length = s.stats.packets + (answersIn log).countP fun t => !t.succeeded := by
    rw [sent.length_eq, h.packets, List.length_eq_countP_add_countP Transmission.succeeded]
    simp
  have dropped := h.dropped
  have once : s.stats.packets + s.stats.dropped + s.queue.pending.length =
      (cameIn log).length + (ownIn log).length := by omega
  refine ⟨h.packets, once, fun drained => ?_⟩
  rw [SendQueue.drained_iff.1 drained] at once
  exact once

/-- Every run of a new subscription: the packets that count as sent are those that the link took, and
once the queue has drained, all packets that came while a binding was in force and all of the relay's
own are counted, each once. A queue drains when its worker is let run, whatever the link answers;
and no run with packets as an intake reads them stops before its end. -/
theorem accounted_for_once {name : TrackName} {peer : String} {codec : Codec}
    {settings : SubscriptionSettings} (hs : create name peer codec settings = .ok s₀) (as : List Act) :
    (∀ s log, s₀.run as = .ok (s, log) → AccountedFor s log ∧
      ∀ ws, s.queue.stepsToIdle ≤ ws.length →
        ∃ s' es, s.run (workAll ws) = .ok (s', es) ∧ s'.queue.Drained ∧
          AccountedFor s' (log ++ es)) ∧
    ((∀ a ∈ as, a.Readable) → ∃ s log, s₀.run as = .ok (s, log)) := by
  refine ⟨fun s log hr => ?_, fun ha => run_comesThrough ha s₀⟩
  have tallies : Tallies s log := (tallies_create hs).run hr
  refine ⟨tallies.accountedFor, fun ws enough => ?_⟩
  obtain ⟨s', es, ran, queue⟩ := run_workAll s ws
  refine ⟨s', es, ran, ?_, (tallies.run ran).accountedFor⟩
  have idle := SendQueue.idle_run (Nat.le_trans s.queue.left_le_stepsToIdle enough)
  rw [queue]
  exact (tallies.service.run ws.length).drained idle

/-! ## A link that is down for a while -/

/-- A publisher that keeps no packets. -/
def noPackets : PublisherView where
  packet _ number _ := .error (.packetNotFound number)
  clock _ := none

/-- Commands that are given one after the other. -/
def asked (cs : List SubscriptionCommand) : List Act :=
  cs.map (.command noPackets Bitrates.zero ⟨0, 0⟩)

/-- A binding of the codec of the example, without a send time. -/
def vp8Offer : BindOffer := { ssrc := 777, codecs := [{ codec := vp8Codec, payloadType := 96 }] }

/-- A bound subscription gets a key frame. -/
def firstKeyFrame : List SubscriptionCommand :=
  [.bind vp8Offer, .setAvailable [0], .allocate unlimited, .write (vp8Packet 100 10 0 true) 0]

/-- A packet of another layer is left out, and padding finds the link down. -/
def paddedWhileDown : List Act :=
  asked (firstKeyFrame ++ [.write (vp8Packet 7 1 0 false) 1, .padding 275]) ++
    workAll [(0, .up), (0, .up), (0, .up), (0, .up), (0, .down "closed"), (0, .up)]

/-- Of the packets that came one was sent and one left out, and that of the relay's own is counted as
left out. -/
theorem accounted_for_once_paddedWhileDown :
    create vp8Subscription.name "peer" vp8Codec {} = .ok vp8Subscription ∧
      ∃ s log, vp8Subscription.run paddedWhileDown = .ok (s, log) ∧ s.queue.Drained ∧
        (cameIn log).length = 2 ∧ (ownIn log).length = 1 ∧ s.stats.packets = 1 ∧
        s.stats.dropped = 2 ∧ AccountedFor s log := by
  have created : create vp8Subscription.name "peer" vp8Codec {} = .ok vp8Subscription := rfl
  obtain ⟨all, -⟩ := accounted_for_once created paddedWhileDown
  refine ⟨created, _, _, rfl, ?_, rfl, rfl, rfl, rfl, (all _ _ rfl).1⟩
  exact SendQueue.drained_iff.2 rfl

end Simulcast.Subscription
