import Simulcast.Subscription.Command
import Simulcast.Proofs.Subscription.Copies

/-!
# What is logged

Only a packet of the publisher is logged, and only together with being queued (`write_cases`).
Feedback asks the log for packets, and every other command leaves it as it is
(`keepsLog_perform`), as does the sending of what is queued (`keepsLog_flush`). Nothing that is
asked of a subscription stops its queue.
-/

namespace Simulcast

namespace SubscriptionCommand

/-- A command that brings neither a packet nor feedback. -/
def isQuiet : SubscriptionCommand → Bool
  | .write _ _ | .rtcp _ => false
  | _ => true

end SubscriptionCommand

namespace Subscription

variable {s s' s'' : Subscription} {v : PublisherView} {b : Binding} {a : Arrival} {layer : Int}
  {d : Decision}

/-! ## What is queued -/

/-- A packet leaves the log and the queue as they are. -/
def Passes (s s' : Subscription) : Prop := s'.log = s.log ∧ s'.queue = s.queue

/-- A packet is logged and queued. -/
structure Queues (s : Subscription) (b : Binding) (a : Arrival) (layer : Int) (d : Decision)
    (place : Placement) (payload : Octets) (s' : Subscription) : Prop where
  written : payloadFor a d = .ok payload
  log : s'.log = (s.logPacket a layer place d.descriptor).log
  queue : s'.queue = s.queue.enqueue {
    packet := { header := readdress b place.toPlace a.packet.header, payload }
    sendTimeId := b.sendTimeId }

theorem Passes.trans (h : Passes s s') (h' : Passes s' s'') : Passes s s'' :=
  ⟨h'.1.trans h.1, h'.2.trans h.2⟩

/-- So does asking for a key frame. -/
theorem passes_asked (s : Subscription) (now : Moment) (layer : Int) (d : Decision) :
    Passes s (if d.askKeyFrame = true then s.requestKeyFrame now layer else (s, [])).1 := by
  split <;> exact ⟨rfl, rfl⟩

/-- A packet is passed over, or put into the queue with a line of the log. -/
theorem carryOut_cases {r : Except Fault Unit} (h : s.carryOut b a layer d = .ok (s', r)) :
    Passes s s' ∨ ∃ place payload, Queues s b a layer d place payload s' := by
  unfold carryOut at h
  split at h
  · rename_i place hd hplace
    unfold sendMedia at h
    cases hl : payloadFor a d with
    | ok payload =>
      rw [hl] at h
      cases h
      exact .inr ⟨place, payload, hl, rfl, rfl⟩
    | error e =>
      rw [hl] at h
      cases e with
      | fault e =>
        cases h
        exact .inl ⟨rfl, rfl⟩
      | overrun => cases h
  · cases h
    exact .inl ⟨rfl, rfl⟩

/-- A packet is logged and queued for the binding in force as the forwarder decides, or it
leaves the log and the queue as they are. -/
theorem write_cases {now : Moment} {r : List Notice × Except Fault Unit}
    (h : s.write now a layer = .ok (s', r)) :
    Passes s s' ∨ ∃ b d place payload, s.activeBinding = some b ∧
      (s.forwarder.forward a layer).2 = .ok d ∧ Queues s b a layer d place payload s' := by
  unfold write at h
  dsimp only at h
  split at h
  · cases h
    exact .inl ⟨rfl, rfl⟩
  · rename_i b hb
    split at h
    · cases h
      exact .inl ⟨rfl, rfl⟩
    · rename_i d hd
      -- To ask for a key frame touches neither the log nor the queue.
      obtain ⟨⟨s₁, r'⟩, hc, he⟩ := map_eq_ok.1 h
      cases he
      rcases carryOut_cases hc with hp | ⟨place, payload, hq⟩
      · have both := (passes_asked _ now layer d).trans hp
        exact .inl both
      · refine .inr ⟨b, d, place, payload, hb, hd, hq.written, ?_, ?_⟩
        · rw [hq.log, logPacket, logPacket, (passes_asked _ now layer d).1]
        · rw [hq.queue, (passes_asked _ now layer d).2]

/-! ## What the other commands leave alone -/

/-- The log stays as it is, and the queue in service. -/
structure KeepsLog (s s' : Subscription) : Prop where
  log : s'.log = s.log
  stopped : s'.queue.stopped = s.queue.stopped

theorem KeepsLog.trans (h : KeepsLog s s') (h' : KeepsLog s' s'') : KeepsLog s s'' :=
  ⟨h'.log.trans h.log, h'.stopped.trans h.stopped⟩

theorem keepsLog_send (packet : Rtp.Packet) (isPadding : Bool) :
    KeepsLog s (s.send b packet isPadding) := ⟨rfl, SendQueue.stopped_enqueue _⟩

theorem keepsLog_foldl_send (packets : List Rtp.Packet) (isPadding : Bool) :
    KeepsLog s (packets.foldl (fun s p => s.send b p isPadding) s) := by
  induction packets generalizing s with
  | nil => exact ⟨rfl, rfl⟩
  | cons p ps ih => exact (keepsLog_send p isPadding).trans ih

theorem keepsLog_writePadding (budget : Nat) : KeepsLog s (s.writePadding budget).1 := by
  unfold writePadding
  split
  · exact ⟨rfl, rfl⟩
  · dsimp only
    split
    · exact ⟨rfl, rfl⟩
    · split
      · exact ⟨rfl, rfl⟩
      · exact ⟨(keepsLog_foldl_send _ _).log, (keepsLog_foldl_send _ _).stopped⟩

theorem keepsLog_blankPayload (format : PayloadFormat) (endsFrame : Bool) :
    KeepsLog s (s.blankPayload format endsFrame).1 := by
  unfold blankPayload
  split <;> exact ⟨rfl, rfl⟩

theorem keepsLog_sendBlankFrames (places : List Place) (endsFrame : Bool) :
    KeepsLog s (sendBlankFrames b s places endsFrame).1 := by
  induction places generalizing s endsFrame with
  | nil => exact ⟨rfl, rfl⟩
  | cons place places ih =>
    unfold sendBlankFrames
    dsimp only
    split
    · exact keepsLog_blankPayload _ _
    · exact (keepsLog_blankPayload _ _).trans ((keepsLog_send _ _).trans (ih false))

theorem keepsLog_writeBlankFrames : KeepsLog s s.writeBlankFrames.1 := by
  unfold writeBlankFrames
  split
  · exact ⟨rfl, rfl⟩
  · split
    · exact ⟨rfl, rfl⟩
    · dsimp only
      split
      · exact ⟨rfl, rfl⟩
      · exact ⟨(keepsLog_sendBlankFrames _ _).log, (keepsLog_sendBlankFrames _ _).stopped⟩

theorem keepsLog_close : KeepsLog s s.close.1 := by
  unfold close
  split
  · exact ⟨rfl, rfl⟩
  · exact ⟨keepsLog_writeBlankFrames.log, keepsLog_writeBlankFrames.stopped⟩

theorem keepsLog_bind (offer : BindOffer) : KeepsLog s (s.bind offer).1 := by
  unfold bind
  split <;> exact ⟨rfl, rfl⟩

theorem keepsLog_mute (on : Bool) : KeepsLog s (s.mute on).1 := by
  unfold mute
  dsimp only
  split <;> exact ⟨rfl, rfl⟩

theorem keepsLog_accountAll (ts : List Transmission) : KeepsLog s (s.accountAll ts).1 := by
  induction ts generalizing s with
  | nil => exact ⟨rfl, rfl⟩
  | cons t ts ih =>
    have one : KeepsLog s (s.account t).1 := by
      unfold account
      dsimp only
      split <;> exact ⟨rfl, rfl⟩
    exact one.trans ih

theorem keepsLog_makeCopies : KeepsLog s (s.makeCopies v) := by
  cases hb : s.binding with
  | none =>
    simp only [makeCopies, hb]
    exact ⟨rfl, rfl⟩
  | some b =>
    rw [makeCopies_eq hb]
    exact ⟨rfl, SendQueue.stopped_enqueueAll _⟩

/-- Nor does it change when what is queued is sent. -/
theorem keepsLog_flush (v : PublisherView) (now : Moment) (link : Link) :
    KeepsLog s (s.flush v now link).1 := by
  unfold flush
  dsimp only
  have sent : KeepsLog s { s.makeCopies v with queue := (s.makeCopies v).queue.drain.1 } :=
    ⟨keepsLog_makeCopies.log, (SendQueue.stopped_drain _).trans keepsLog_makeCopies.stopped⟩
  exact sent.trans (keepsLog_accountAll _)

/-- A command that brings neither a packet nor feedback leaves the log as it is. -/
theorem keepsLog_perform {brs : Bitrates} {now : Moment} {c : SubscriptionCommand}
    {r : List Notice × SubscriptionAnswer} (hc : c.isQuiet = true)
    (h : s.perform v brs now c = .ok (s', r)) : KeepsLog s s' := by
  cases c with
  | write a layer => cases hc
  | rtcp raw => cases hc
  | bind offer => cases h; exact keepsLog_bind offer
  | padding budget => cases h; exact keepsLog_writePadding budget
  | blankFrames =>
    simp only [perform] at h
    split at h <;> cases h <;> exact keepsLog_writeBlankFrames
  | close => cases h; exact keepsLog_close
  | mute on => cases h; exact keepsLog_mute on
  | _ => cases h; exact ⟨rfl, rfl⟩

end Subscription

end Simulcast
