import Simulcast.Proofs.Forwarding.Allocation
import Simulcast.Proofs.Subscription.Logging
import Mathlib.Algebra.GroupWithZero.Nat

/-!
# What a subscription sends

Media, padding, blank frames and copies come into the queue by four ways. What each of them does to the
queue and the counts is said by `Sends`: some packets are put into the queue, and so many are counted
as left out. `does_perform` says it for every command, with the form of the packets (`Made`), the answer
to a request for padding, and what becomes of the binding, of a mute and of a close (`termsAfter`).
-/

namespace Simulcast.Subscription

variable {s s' s'' : Subscription} {v : PublisherView} {b : Binding} {x : Arrival} {layer : Int}
  {d : Decision} {os os' : List Outgoing} {n m : Nat}

/-! ## What is put into the queue -/

/-- Some packets are put into the queue, and so many are counted as left out. -/
structure Puts (os : List Outgoing) (n : Nat) (s s' : Subscription) : Prop where
  queue : s'.queue = s.queue.enqueueAll os
  stats : s'.stats =
    { s.stats with dropped := s.stats.dropped + n, lossFraction := s'.stats.lossFraction }

/-- What stays in force while packets are queued: the last binding, whether the subscription is muted,
and whether it is closed. -/
structure Terms where
  binding : Option Binding
  muted : Bool
  closed : Bool

def terms (s : Subscription) : Terms := ⟨s.binding, s.forwarder.muted, s.closed⟩

/-- Packets are put into the queue or left out, and the terms stay as they are. -/
structure Sends (os : List Outgoing) (n : Nat) (s s' : Subscription) : Prop where
  puts : Puts os n s s'
  terms : s'.terms = s.terms

theorem Puts.trans (h : Puts os n s s') (h' : Puts os' m s' s'') :
    Puts (os ++ os') (n + m) s s'' where
  queue := by rw [h'.queue, h.queue, SendQueue.enqueueAll_append]
  stats := by rw [h'.stats, h.stats, Nat.add_assoc]

theorem Puts.nothing (hq : s'.queue = s.queue)
    (hs : s'.stats = { s.stats with lossFraction := s'.stats.lossFraction }) : Puts [] 0 s s' :=
  ⟨hq, hs⟩

theorem Sends.trans (h : Sends os n s s') (h' : Sends os' m s' s'') :
    Sends (os ++ os') (n + m) s s'' :=
  ⟨h.puts.trans h'.puts, h'.terms.trans h.terms⟩

theorem Sends.nothing (hq : s'.queue = s.queue)
    (hs : s'.stats = { s.stats with lossFraction := s'.stats.lossFraction })
    (ht : s'.terms = s.terms) : Sends [] 0 s s' :=
  ⟨.nothing hq hs, ht⟩

theorem Sends.refl (s : Subscription) : Sends [] 0 s s := .nothing rfl rfl rfl

theorem sends_countDrop (s : Subscription) : Sends [] 1 s s.countDrop := ⟨⟨rfl, rfl⟩, rfl⟩

theorem sends_send (s : Subscription) (b : Binding) (packet : Rtp.Packet) (isPadding : Bool) :
    Sends [{ packet, sendTimeId := b.sendTimeId, isPadding }] 0 s (s.send b packet isPadding) :=
  ⟨⟨rfl, rfl⟩, rfl⟩

/-! ## The forms of packets -/

/-- What a packet in the queue is. -/
inductive Origin where
  | media
  | padding
  | blank
  | copy
  deriving DecidableEq, Repr

/-- The form of a packet of some origin. -/
structure Made (s : Subscription) (origin : Origin) (o : Outgoing) : Prop where
  padding : o.isPadding = true ↔ origin = .padding
  /-- It was made for the binding. -/
  bound : ∃ b, s.binding = some b ∧ o.sendTimeId = b.sendTimeId
  /-- Padding comes in packets of its own. -/
  empty : origin = .padding → ∃ b place, o.packet = paddingPacket b place

theorem Made.of_terms {origin : Origin} {o : Outgoing} (h : Made s origin o)
    (ht : s'.binding = s.binding) : Made s' origin o :=
  ⟨h.padding, ht ▸ h.bound, h.empty⟩

theorem binding_of_activeBinding (h : s.activeBinding = some b) : s.binding = some b := by
  unfold activeBinding at h
  split at h
  · exact h
  · cases h

theorem binding_of_canGenerate (h : s.canGenerate = some b) : s.binding = some b := by
  unfold canGenerate at h
  split at h
  · cases h
  · exact binding_of_activeBinding h

/-! ## Media -/

@[simp] theorem muted_forward (f : Forwarder) (x : Arrival) (layer : Int) :
    (f.forward x layer).1.muted = f.muted := by
  cases hk : f.kind with
  | video => exact (congrArg Gate.muted (Forwarder.gate_forward hk)).trans Gate.take_muted
  | audio =>
    unfold Forwarder.forward
    split
    · rfl
    · rw [hk]
      exact congrArg Gate.muted (f.gate_takeSource x 1)

theorem sends_requestKeyFrame (now : Moment) (layer : Int) (d : Decision) :
    Sends [] 0 s (if d.askKeyFrame = true then s.requestKeyFrame now layer else (s, [])).1 := by
  split <;> exact .nothing rfl rfl rfl

/-- A packet is dropped, or sent as one that is not padding. -/
theorem sends_carryOut {r : Except Fault Unit} (h : s.carryOut b x layer d = .ok (s', r)) :
    Sends [] 1 s s' ∨ ∃ packet, Sends [{ packet, sendTimeId := b.sendTimeId }] 0 s s' := by
  unfold carryOut at h
  split at h
  · rename_i place hd hplace
    unfold sendMedia at h
    cases hl : payloadFor x d with
    | ok payload =>
      rw [hl] at h
      cases h
      have logged : Sends [] 0 s { s.logPacket x layer place d.descriptor with written := true } :=
        .nothing rfl rfl rfl
      exact .inr ⟨_, logged.trans (sends_send _ b _ false)⟩
    | error e =>
      rw [hl] at h
      cases e with
      | fault e =>
        cases h
        exact .inl (sends_countDrop s)
      | overrun => cases h
  · cases h
    exact .inl (sends_countDrop s)

/-- A packet that comes is queued or counted as left out, if a binding is in force. -/
theorem sends_write {now : Moment} {r : List Notice × Except Fault Unit}
    (h : s.write now x layer = .ok (s', r)) :
    ∃ os n, Sends os n s s' ∧ (∀ o ∈ os, s.Made .media o) ∧
      os.length + n = if s.activeBinding.isSome then 1 else 0 := by
  unfold write at h
  dsimp only at h
  split at h
  · rename_i unbound
    cases h
    have same : s.activeBinding = none := unbound
    exact ⟨[], 0, .nothing rfl rfl rfl, by simp, by rw [same]; rfl⟩
  · rename_i b hb
    have bound : s.activeBinding = some b := hb
    rw [bound, Option.isSome_some, if_pos rfl]
    have decided : Sends [] 0 s
        { s with lastPacket := now.unixMillis, forwarder := (s.forwarder.forward x layer).1 } :=
      .nothing rfl rfl (by simp [terms])
    split at h
    · cases h
      exact ⟨[], 1, decided.trans (sends_countDrop _), by simp, rfl⟩
    · rename_i d hd
      obtain ⟨⟨s₁, r'⟩, hc, he⟩ := map_eq_ok.1 h
      cases he
      have requested := decided.trans (sends_requestKeyFrame now layer d)
      rcases sends_carryOut hc with left | ⟨packet, queued⟩
      · exact ⟨[], 1, requested.trans left, by simp, rfl⟩
      · refine ⟨_, 0, requested.trans queued, fun o ho => ?_, rfl⟩
        obtain rfl := List.mem_singleton.1 ho
        exact ⟨by simp, ⟨b, binding_of_activeBinding bound, rfl⟩, by simp⟩

/-! ## Packets of the relay's own -/

theorem sends_foldl_send (s : Subscription) (b : Binding) (packets : List Rtp.Packet)
    (isPadding : Bool) :
    Sends (packets.map fun packet => { packet, sendTimeId := b.sendTimeId, isPadding }) 0 s
      (packets.foldl (fun s p => s.send b p isPadding) s) := by
  induction packets generalizing s with
  | nil => exact .refl s
  | cons p ps ih => exact (sends_send s b p isPadding).trans (ih (s.send b p isPadding))

/-- Padding is answered with the octets that are queued. -/
theorem sends_writePadding (s : Subscription) (budget : Nat) :
    ∃ os, Sends os 0 s (s.writePadding budget).1 ∧ (∀ o ∈ os, s.Made .padding o) ∧
      (s.writePadding budget).2 = (os.map fun o => o.packet.size).sum := by
  unfold writePadding
  split
  · exact ⟨[], .refl s, by simp, rfl⟩
  · rename_i b hb
    have bound : s.binding = some b := by
      split at hb
      · cases hb
      · exact binding_of_canGenerate hb
    dsimp only
    have numbered : Sends [] 0 s
        { s with forwarder := (s.forwarder.padding (s.paddingCount budget)).1 } :=
      .nothing rfl rfl rfl
    split
    · exact ⟨[], .refl s, by simp, rfl⟩
    · split
      · exact ⟨[], numbered, by simp, rfl⟩
      · rename_i places hp
        refine ⟨_, numbered.trans (sends_foldl_send _ b (places.map (paddingPacket b)) true),
          fun o ho => ?_, ?_⟩
        · obtain ⟨packet, hpacket, rfl⟩ := List.mem_map.1 ho
          obtain ⟨place, -, rfl⟩ := List.mem_map.1 hpacket
          exact ⟨by simp, ⟨b, bound, rfl⟩, fun _ => ⟨b, place, rfl⟩⟩
        · rw [List.nil_append, List.map_map, List.sum_eq_foldr]
          simp only [List.foldr_map]
          rfl

theorem sends_blankPayload (s : Subscription) (format : PayloadFormat) (endsFrame : Bool) :
    Sends [] 0 s (s.blankPayload format endsFrame).1 := by
  unfold blankPayload Forwarder.blankDescriptor
  split
  · cases s.forwarder.pictures <;> exact .nothing rfl rfl rfl
  · exact .refl s

theorem sends_sendBlankFrames (s : Subscription) (b : Binding) (places : List Place)
    (endsFrame : Bool) :
    ∃ os, Sends os 0 s (sendBlankFrames b s places endsFrame).1 ∧
      ∀ o ∈ os, o.isPadding = false ∧ o.sendTimeId = b.sendTimeId := by
  induction places generalizing s endsFrame with
  | nil => exact ⟨[], .refl s, by simp⟩
  | cons place places ih =>
    have start := s.sends_blankPayload b.format endsFrame
    unfold sendBlankFrames
    dsimp only
    split
    · exact ⟨[], start, by simp⟩
    · rename_i payload hp
      let packet : Rtp.Packet := {
        header := {
          marker := true
          payloadType := b.payloadType
          number := place.number
          timestamp := place.timestamp
          ssrc := b.ssrc }
        payload }
      have first := start.trans (sends_send _ b packet false)
      obtain ⟨os, rest, made⟩ := ih ((s.blankPayload b.format endsFrame).1.send b packet false) false
      refine ⟨_, first.trans rest, fun o ho => ?_⟩
      rcases List.mem_cons.1 ho with rfl | ho
      · exact ⟨rfl, rfl⟩
      · exact made o ho

theorem sends_writeBlankFrames (s : Subscription) :
    ∃ os, Sends os 0 s s.writeBlankFrames.1 ∧ ∀ o ∈ os, s.Made .blank o := by
  unfold writeBlankFrames
  split
  · exact ⟨[], .refl s, by simp⟩
  · rename_i b hb
    split
    · exact ⟨[], .refl s, by simp⟩
    · dsimp only
      have numbered : Sends [] 0 s { s with forwarder := s.forwarder.blankFrames.1 } :=
        .nothing rfl rfl rfl
      split
      · exact ⟨[], numbered, by simp⟩
      · rename_i places endsFrame hp
        obtain ⟨os, sent, made⟩ := sends_sendBlankFrames
          { s with forwarder := s.forwarder.blankFrames.1 } b places endsFrame
        refine ⟨os, numbered.trans sent, fun o ho => ?_⟩
        obtain ⟨plain, sendTime⟩ := made o ho
        exact ⟨by simp [plain], ⟨b, binding_of_canGenerate hb, sendTime⟩, by simp⟩

/-! ## Copies and feedback -/

theorem sends_makeCopies (s : Subscription) (v : PublisherView) :
    ∃ os, Sends os 0 s (s.makeCopies v) ∧ ∀ o ∈ os, s.Made .copy o := by
  cases hb : s.binding with
  | none =>
    simp only [makeCopies, hb]
    exact ⟨[], .nothing rfl rfl (by simp [terms, hb]), by simp⟩
  | some b =>
    rw [makeCopies_eq hb]
    refine ⟨copiesOf v b s.copies, ⟨⟨rfl, rfl⟩, rfl⟩, fun o ho => ?_⟩
    obtain ⟨p, -, -, form⟩ := mem_copiesOf ho
    rw [form]
    exact ⟨by simp, ⟨b, hb, rfl⟩, by simp⟩

theorem FeedbackState.sends_handle (now : Moment) (f : FeedbackState) (message : Rtcp.Message) :
    Sends [] 0 f.subscription (f.handle now message).subscription := by
  have asked : Sends [] 0 f.subscription (f.askKeyFrame now).subscription := by
    unfold FeedbackState.askKeyFrame
    dsimp only
    split <;> exact .nothing rfl rfl rfl
  cases message with
  | pictureLoss => exact asked
  | fullIntraRequest => exact asked
  | bandwidthEstimate e => exact .refl _
  | receiverReport r =>
    simp only [FeedbackState.handle, FeedbackState.report]
    split <;> exact .nothing rfl rfl rfl
  | nack losses =>
    simp only [FeedbackState.handle, FeedbackState.nack]
    split <;> exact .nothing rfl rfl rfl
  | other => exact .refl _

theorem sends_handleMessages (s : Subscription) (now : Moment) (ms : List Rtcp.Message) :
    Sends [] 0 s (s.handleMessages now ms).1 := by
  have fold : ∀ f : FeedbackState,
      Sends [] 0 f.subscription (ms.foldl (FeedbackState.handle now) f).subscription := by
    induction ms with
    | nil => exact fun f => .refl _
    | cons message ms ih => exact fun f => (f.sends_handle now message).trans (ih _)
  exact fold { subscription := s, notices := [.rtcp ms] }

theorem sends_handleRtcp {now : Moment} {raw : Octets} {notices : List Notice}
    (h : s.handleRtcp now raw = .ok (s', notices)) : Sends [] 0 s s' := by
  unfold handleRtcp at h
  split at h
  · rename_i ms hm
    have done := sends_handleMessages s now ms
    cases h
    exact done
  · cases h
    exact .refl s
  · cases h

/-! ## Every command -/

theorem muted_of_allocated {g g' : Gate} (h : g.Allocated g') : g'.muted = g.muted := by
  have aimed : ∀ (g : Gate) (target : Layers), (g.aim target).muted = g.muted := by
    intro g target
    unfold Gate.aim
    split <;> rfl
  cases h with
  | kept => rfl
  | aimed target => exact aimed g target
  | stopped => exact aimed _ .none

/-- What a command puts into the queue. -/
def originOf : SubscriptionCommand → Origin
  | .write _ _ => .media
  | .padding _ => .padding
  | _ => .blank

/-- The packets of the publisher that come with a command, if a binding is in force. -/
def arrivals (s : Subscription) : SubscriptionCommand → List Arrival
  | .write x _ => if s.activeBinding.isSome then [x] else []
  | _ => []

/-- The answer to a request for padding. -/
def paddingAnswer : SubscriptionCommand → SubscriptionAnswer → Option Nat
  | .padding _, .count n => some n
  | _, _ => none

/-- The terms after a command. -/
def termsAfter (s : Subscription) : SubscriptionCommand → Terms
  | .bind offer => { s.terms with binding := (s.bind offer).1.binding }
  | .mute on => { s.terms with muted := on }
  | .close => { s.terms with muted := !s.closed || s.forwarder.muted, closed := true }
  | _ => s.terms

/-- What a command does to queue, counts and terms. -/
structure Does (c : SubscriptionCommand) (s s' : Subscription) (answer : SubscriptionAnswer)
    (os : List Outgoing) (n : Nat) : Prop where
  puts : Puts os n s s'
  made : ∀ o ∈ os, s.Made (originOf c) o
  /-- A packet that comes is queued or left out, and nothing else is left out. -/
  media : (if originOf c = .media then os.length else 0) + n = (s.arrivals c).length
  answer : paddingAnswer c answer =
    if originOf c = .padding then some (os.map fun o => o.packet.size).sum else none
  terms : s'.terms = s.termsAfter c

/-- A command that puts nothing into the queue. -/
theorem does_nothing {c : SubscriptionCommand} {answer : SubscriptionAnswer} (hp : Puts [] 0 s s')
    (hc : originOf c = .blank) (ht : s'.terms = s.termsAfter c) : Does c s s' answer [] 0 where
  puts := hp
  made := by simp
  media := by
    rw [hc]
    cases c <;> first | rfl | cases hc
  answer := by
    rw [hc]
    cases c <;> first | rfl | cases hc
  terms := ht

/-- What a forwarder is told about layers and bandwidth does not mute it. -/
theorem does_withForwarder {c : SubscriptionCommand} {answer : SubscriptionAnswer} (f : Forwarder)
    (hc : originOf c = .blank) (ht : s.termsAfter c = s.terms) (hf : f.muted = s.forwarder.muted) :
    Does c s { s with forwarder := f } answer [] 0 :=
  does_nothing (.nothing rfl rfl) hc (by simp [ht, terms, hf])

theorem does_close (s : Subscription) : ∃ os, Does .close s s.close.1 .done os 0 := by
  unfold close
  split
  · rename_i closed
    refine ⟨[], does_nothing (.nothing rfl rfl) rfl ?_⟩
    simp [terms, termsAfter, closed]
  · rename_i closed
    obtain ⟨os, sent, made⟩ := sends_writeBlankFrames
      { s with closed := true, forwarder := (s.forwarder.mute true).1 }
    refine ⟨os, ⟨sent.puts.queue, sent.puts.stats⟩, fun o ho => (made o ho).of_terms rfl, rfl, rfl,
      ?_⟩
    refine sent.terms.trans ?_
    simp [terms, termsAfter, closed, Forwarder.mute]

theorem does_bind (s : Subscription) (offer : BindOffer) (answer : SubscriptionAnswer) :
    Does (.bind offer) s (s.bind offer).1 answer [] 0 := by
  refine does_nothing ?_ rfl ?_
  · unfold Subscription.bind
    split <;> exact .nothing rfl rfl
  · simp only [terms, termsAfter]
    unfold Subscription.bind
    split <;> rfl

theorem does_mute (s : Subscription) (on : Bool) : Does (.mute on) s (s.mute on).1 .done [] 0 := by
  unfold mute Forwarder.mute
  dsimp only
  split
  · exact does_nothing (.nothing rfl rfl) rfl rfl
  · rename_i same
    refine does_nothing (.nothing rfl rfl) rfl ?_
    have already : s.forwarder.muted = on := by simpa using same
    simp [terms, termsAfter, already]

/-- Every command puts into the queue what it may, and counts what it drops. -/
theorem does_perform {brs : Bitrates} {now : Moment} {c : SubscriptionCommand}
    {notices : List Notice} {answer : SubscriptionAnswer}
    (h : s.perform v brs now c = .ok (s', notices, answer)) :
    ∃ os n, Does c s s' answer os n := by
  cases c with
  | write x layer =>
    obtain ⟨out, hw, he⟩ := map_eq_ok.1 h
    cases he
    obtain ⟨os, n, sent, made, count⟩ := sends_write hw
    refine ⟨os, n, sent.puts, made, ?_, rfl, sent.terms⟩
    rw [arrivals, apply_ite List.length]
    exact count
  | padding budget =>
    obtain ⟨os, sent, made, size⟩ := sends_writePadding s budget
    cases h
    exact ⟨os, 0, sent.puts, made, rfl, congrArg some size, sent.terms⟩
  | blankFrames =>
    obtain ⟨os, sent, made⟩ := sends_writeBlankFrames s
    simp only [perform] at h
    split at h <;> cases h <;> exact ⟨os, 0, sent.puts, made, rfl, rfl, sent.terms⟩
  | close =>
    obtain ⟨os, does⟩ := does_close s
    cases h
    exact ⟨os, 0, does⟩
  | rtcp raw =>
    obtain ⟨out, hf, he⟩ := map_eq_ok.1 h
    cases he
    have sent := sends_handleRtcp hf
    exact ⟨[], 0, does_nothing sent.puts rfl sent.terms⟩
  | bind offer =>
    cases h
    exact ⟨[], 0, does_bind s offer _⟩
  | mute on =>
    cases h
    exact ⟨[], 0, does_mute s on⟩
  | boundSpatial bound =>
    have muted : (s.forwarder.boundSpatial bound).1.muted = s.forwarder.muted := by
      unfold Forwarder.boundSpatial
      dsimp only
      split <;> rfl
    cases h
    exact ⟨[], 0, does_withForwarder _ rfl rfl muted⟩
  | boundTemporal bound =>
    have muted : (s.forwarder.boundTemporal bound).1.muted = s.forwarder.muted := by
      unfold Forwarder.boundTemporal
      dsimp only
      split <;> rfl
    cases h
    exact ⟨[], 0, does_withForwarder _ rfl rfl muted⟩
  | allocate capacity =>
    cases h
    exact ⟨[], 0, does_withForwarder _ rfl rfl (muted_of_allocated Forwarder.allocate_allocated)⟩
  | tryAllocate extra =>
    cases h
    exact ⟨[], 0, does_withForwarder _ rfl rfl (muted_of_allocated Forwarder.tryAllocate_allocated)⟩
  | allocateNextHigher =>
    cases h
    exact ⟨[], 0, does_withForwarder _ rfl rfl
      (muted_of_allocated Forwarder.allocateNextHigher_allocated)⟩
  | finalize =>
    cases h
    exact ⟨[], 0, does_withForwarder _ rfl rfl (muted_of_allocated Forwarder.finalize_allocated)⟩
  | _ =>
    cases h
    exact ⟨[], 0, does_nothing (.nothing rfl rfl) rfl rfl⟩

end Simulcast.Subscription
