import Simulcast.Proofs.Subscription.Accounting
import Mathlib.Algebra.Order.BigOperators.Group.List
import Mathlib.Algebra.Order.Ring.Nat

/-!
# Octets that are counted and octets on the wire

A packet with the padding bit is longer on the wire than its header and payload: its padding is written
behind them. Requests for padding are answered with that size, but header and payload alone are counted
once the packet is sent. `octets_on_wire_iff` says by how much the counts fall short, when nothing is
lost: by the padding of all packets that were written. The counts are right as long as no packet has
padding.
-/

namespace Simulcast

theorem Rtp.Packet.paddingSize_eq_zero {p : Rtp.Packet} :
    p.paddingSize = 0 ↔ p.header.padding = false := by
  unfold paddingSize
  split
  · rename_i padded
    have short : p.payload.length % 4 < 4 := Nat.mod_lt _ (by decide)
    rw [padded]
    simp
    omega
  · rename_i plain
    simpa using plain

namespace Subscription

variable {s s' s₀ : Subscription} {log es : List Event} {a : Act} {as : List Act} {o : Outgoing}

/-! ## Packets without a send time -/

/-- No send time is agreed on. -/
def Act.Unstamped : Act → Prop
  | .command _ _ _ (.bind offer) => sendTimeIdOf offer.extensions = 0
  | _ => True

/-- A packet without a send time is handed to the link as it is. -/
theorem transmit_unstamped (h : o.sendTimeId = 0) (unixNanos : Int) (link : Link) :
    (o.transmit unixNanos link).packet = o.packet := by
  simp [Outgoing.transmit, Rtp.Header.stampSendTime, h]

/-- The sizes of the padding packets among some that were queued. -/
def paddingSizes (os : List Outgoing) : Nat :=
  ((os.filter Outgoing.isPadding).map fun o => o.packet.size).sum

/-- Nothing that was queued has a send time, and requests for padding were answered with the sizes of
the padding packets that were queued. -/
structure Unstamped (s : Subscription) (log : List Event) : Prop where
  binding : ∀ b, s.terms.binding = some b → b.sendTimeId = 0
  queued : ∀ o ∈ queuedIn log, o.sendTimeId = 0
  padding : ∀ o ∈ queuedIn log, o.isPadding = true → ∃ b place, o.packet = paddingPacket b place
  padded : paddedIn log = paddingSizes (queuedIn log)

theorem binding_bind (s : Subscription) (offer : BindOffer) :
    (s.bind offer).1.binding = s.binding ∨
      ∃ b, (s.bind offer).1.binding = some b ∧ b.sendTimeId = sendTimeIdOf offer.extensions := by
  unfold Subscription.bind
  split
  · exact .inl rfl
  · exact .inr ⟨_, rfl, rfl⟩

theorem binding_termsAfterAct (h : ∀ b, s.terms.binding = some b → b.sendTimeId = 0)
    (ha : a.Unstamped) : ∀ b, (s.termsAfterAct a).binding = some b → b.sendTimeId = 0 := by
  cases a with
  | command v brs now c =>
    cases c with
    | bind offer =>
      intro b hb
      rcases s.binding_bind offer with same | ⟨b', hb', id⟩
      · exact h b (same.symm.trans hb)
      · obtain rfl : b' = b := Option.some.inj (hb'.symm.trans hb)
        exact id.trans ha
    | _ => exact h
  | _ => exact h

theorem paddingSizes_append (os os' : List Outgoing) :
    paddingSizes (os ++ os') = paddingSizes os + paddingSizes os' := by
  rw [paddingSizes, List.filter_append, List.map_append, List.sum_append]
  rfl

theorem paddingSizes_made {origin : Origin} {os : List Outgoing} (h : ∀ o ∈ os, s.Made origin o) :
    paddingSizes os = if origin = .padding then (os.map fun o => o.packet.size).sum else 0 := by
  unfold paddingSizes
  split
  · rename_i padding
    rw [List.filter_eq_self.2 fun o ho => (h o ho).padding.2 padding]
  · rename_i other
    rw [List.filter_eq_nil_iff.2 fun o ho => mt (h o ho).padding.1 other]
    rfl

theorem Unstamped.undergo (h : Unstamped s log) (hr : s.queue.stopped = false) (ha : a.Unstamped)
    (hu : s.undergo a = .ok (s', es)) : Unstamped s' (log ++ es) := by
  have binding : ∀ b, s'.terms.binding = some b → b.sendTimeId = 0 := by
    rw [terms_undergo hu]
    exact binding_termsAfterAct h.binding ha
  have silent : queuedIn es = [] → paddedIn es = 0 → Unstamped s' (log ++ es) := by
    intro nothing unasked
    have same : queuedIn (log ++ es) = queuedIn log := by
      rw [queuedIn, queuedFrom_append, ← queuedIn, ← queuedIn, nothing, List.append_nil]
    refine ⟨binding, same ▸ h.queued, same ▸ h.padding, ?_⟩
    rw [same, paddedIn_append, unasked]
    exact h.padded
  cases undergoes hr hu with
  | @puts origin os n puts made records =>
    have all : queuedIn (log ++ es) = queuedIn log ++ os := by
      rw [queuedIn, queuedFrom_append, records.queued]
      rfl
    refine ⟨binding, fun o ho => ?_, fun o ho padding => ?_, ?_⟩
    · rw [all] at ho
      rcases List.mem_append.1 ho with before | now
      · exact h.queued o before
      · obtain ⟨b, hb, id⟩ := (made o now).bound
        exact id.trans (h.binding b hb)
    · rw [all] at ho
      rcases List.mem_append.1 ho with before | now
      · exact h.padding o before padding
      · exact (made o now).empty ((made o now).padding.1 padding)
    · rw [all, paddingSizes_append, paddedIn_append, h.padded, records.padded, paddingSizes_made made]
  | sends worker next answers => exact silent (answers.queued _) answers.padded
  | works worker next seen =>
    subst seen
    exact silent rfl rfl

theorem unstamped_create {name : TrackName} {peer : String} {codec : Codec}
    {settings : SubscriptionSettings} (hs : create name peer codec settings = .ok s) :
    Unstamped s [] := by
  obtain ⟨kind, -, rfl⟩ := map_eq_ok.1 hs
  exact ⟨fun b hb => by simp [terms] at hb, by simp [queuedIn, queuedFrom],
    by simp [queuedIn, queuedFrom], rfl⟩

/-! ## What was written -/

/-- The packets that were handed to the link, in turn. -/
def writtenIn (log : List Event) : List Rtp.Packet := (answersIn log).map Transmission.packet

/-- All that was handed to the link was taken. -/
def AllTaken (log : List Event) : Prop := ∀ t ∈ answersIn log, t.succeeded = true

theorem takenOctets_of_allTaken (h : AllTaken log) (p : Transmission → Bool) :
    takenOctets p (answersIn log) = (((answersIn log).filter p).map Transmission.size).sum := by
  rw [takenOctets, List.filter_congr fun t ht => by rw [h t ht, Bool.true_and]]

/-- A packet is its header and payload, and its padding. -/
theorem size_add_paddingSize (ts : List Transmission) :
    (ts.map Transmission.size).sum + (ts.map fun t => t.packet.paddingSize).sum =
      (ts.map fun t => t.packet.size).sum := by
  induction ts with
  | nil => rfl
  | cons t ts ih =>
    have one : t.packet.size = t.size + t.packet.paddingSize := rfl
    simp only [List.map_cons, List.sum_cons, one, ← ih]
    omega

/-- Padding packets that were queued without a send time come out as they are. -/
theorem paddingSizes_of_sent {os : List Outgoing} {ts : List Transmission} (h : os.Forall₂ Sent ts)
    (hu : ∀ o ∈ os, o.sendTimeId = 0)
    (hp : ∀ o ∈ os, o.isPadding = true → ∃ b place, o.packet = paddingPacket b place) :
    ((ts.filter Transmission.isPadding).map Transmission.size).sum +
      4 * ts.countP Transmission.isPadding = paddingSizes os := by
  induction h with
  | nil => rfl
  | @cons o t os ts sent rest ih =>
    have ih := ih (fun o ho => hu o (List.mem_cons_of_mem _ ho))
      fun o ho => hp o (List.mem_cons_of_mem _ ho)
    obtain ⟨unixNanos, link, rfl⟩ := sent
    have plain := transmit_unstamped (hu o List.mem_cons_self) unixNanos link
    have kind : (o.transmit unixNanos link).isPadding = o.isPadding := rfl
    unfold paddingSizes at ih ⊢
    cases padding : o.isPadding with
    | false =>
      rw [List.filter_cons_of_neg (by simp [kind, padding]),
        List.countP_cons_of_neg (by simp [kind, padding]),
        List.filter_cons_of_neg (by simp [padding])]
      exact ih
    | true =>
      obtain ⟨b, place, form⟩ := hp o List.mem_cons_self padding
      have size : o.packet.size = (o.transmit unixNanos link).size + 4 := by
        rw [Transmission.size, plain, form]
        rfl
      rw [List.filter_cons_of_pos (by simp [kind, padding]),
        List.countP_cons_of_pos (by simp [kind, padding]),
        List.filter_cons_of_pos (by simp [padding]), List.map_cons, List.map_cons, List.sum_cons,
        List.sum_cons, size]
      omega

/-- Every run of a new subscription that never agrees on a send time, with a link that takes all, once
the queue has drained: the octets that are counted and the padding of the packets that were written are
the sizes of these packets, and the padding octets that are counted, with four more for each padding
packet, are those with which requests for padding were answered. So the first count is right just if no
packet that was written has the padding bit, and the second one just if no padding was sent. -/
theorem octets_on_wire_iff {name : TrackName} {peer : String} {codec : Codec}
    {settings : SubscriptionSettings} (hs : create name peer codec settings = .ok s₀)
    (ha : ∀ a ∈ as, a.Unstamped) (hr : s₀.run as = .ok (s, log)) (hl : AllTaken log)
    (hd : s.queue.Drained) :
    (s.stats.octets + ((writtenIn log).map Rtp.Packet.paddingSize).sum =
        ((writtenIn log).map Rtp.Packet.size).sum ∧
      s.stats.paddingOctets + 4 * s.stats.paddingPackets = paddedIn log) ∧
    (s.stats.octets = ((writtenIn log).map Rtp.Packet.size).sum ↔
      ∀ p ∈ writtenIn log, p.header.padding = false) ∧
    (s.stats.paddingOctets = paddedIn log ↔ s.stats.paddingPackets = 0) := by
  obtain ⟨tallies, unstamped⟩ : Tallies s log ∧ Unstamped s log :=
    run_induction (P := fun s log => Tallies s log ∧ Unstamped s log)
      (fun a h _ _ _ _ ht hu => ⟨ht.1.undergo hu, ht.2.undergo ht.1.service.running (ha a h) hu⟩)
      ⟨tallies_create hs, unstamped_create hs⟩ hr
  obtain ⟨gone, order, sent⟩ := tallies.order
  rw [SendQueue.drained_iff.1 hd, List.append_nil] at order
  subst order
  have octets : s.stats.octets + ((writtenIn log).map Rtp.Packet.paddingSize).sum =
      ((writtenIn log).map Rtp.Packet.size).sum := by
    rw [tallies.octets, takenOctets_of_allTaken hl, List.filter_true, writtenIn, List.map_map,
      List.map_map]
    exact size_add_paddingSize _
  have padding : s.stats.paddingOctets + 4 * s.stats.paddingPackets = paddedIn log := by
    have count : s.stats.paddingPackets = (answersIn log).countP Transmission.isPadding := by
      rw [tallies.paddingPackets]
      exact List.countP_congr fun t ht => by rw [hl t ht, Bool.true_and]
    rw [tallies.paddingOctets, takenOctets_of_allTaken hl, count, unstamped.padded]
    exact paddingSizes_of_sent sent unstamped.queued unstamped.padding
  refine ⟨⟨octets, padding⟩, ?_, by omega⟩
  have none : ((writtenIn log).map Rtp.Packet.paddingSize).sum = 0 ↔
      ∀ p ∈ writtenIn log, p.header.padding = false := by
    simp [List.sum_eq_zero_iff, Rtp.Packet.paddingSize_eq_zero]
  rw [← none]
  omega

/-! ## One padding packet -/

/-- A key frame and one padding packet behind it are sent. -/
def paddedOnce : List Act :=
  asked (firstKeyFrame ++ [.padding 1]) ++ workAll (List.replicate 6 (0, .up))

theorem paddedOnce_unstamped : ∀ a ∈ paddedOnce, a.Unstamped := by
  simp [paddedOnce, asked, firstKeyFrame, workAll, Act.Unstamped, vp8Offer, sendTimeIdOf]

/-- The four octets of padding are on the wire and in the answer, but not in the counts. -/
theorem octets_short_of_padding :
    create vp8Subscription.name "peer" vp8Codec {} = .ok vp8Subscription ∧
      (∀ a ∈ paddedOnce, a.Unstamped) ∧
      ∃ s log, vp8Subscription.run paddedOnce = .ok (s, log) ∧ AllTaken log ∧ s.queue.Drained ∧
        s.stats.octets = 30 ∧ ((writtenIn log).map Rtp.Packet.size).sum = 34 ∧
        s.stats.paddingOctets = 12 ∧ paddedIn log = 16 := by
  refine ⟨rfl, paddedOnce_unstamped, _, _, rfl, ?_, SendQueue.drained_iff.2 rfl, rfl, rfl, rfl, rfl⟩
  unfold AllTaken
  decide

/-- Its padding packet is what the counts are short of. -/
theorem octets_on_wire_iff_paddedOnce :
    create vp8Subscription.name "peer" vp8Codec {} = .ok vp8Subscription ∧
      (∀ a ∈ paddedOnce, a.Unstamped) ∧
      ∃ s log, vp8Subscription.run paddedOnce = .ok (s, log) ∧ AllTaken log ∧ s.queue.Drained ∧
        s.stats.paddingPackets = 1 ∧ s.stats.paddingOctets + 4 = paddedIn log ∧
        s.stats.paddingOctets ≠ paddedIn log := by
  have created : create vp8Subscription.name "peer" vp8Codec {} = .ok vp8Subscription := rfl
  obtain ⟨s, log, ran, taken, drained, one⟩ : ∃ s log,
      vp8Subscription.run paddedOnce = .ok (s, log) ∧ AllTaken log ∧ s.queue.Drained ∧
        s.stats.paddingPackets = 1 := by
    refine ⟨_, _, rfl, ?_, SendQueue.drained_iff.2 rfl, rfl⟩
    unfold AllTaken
    decide
  obtain ⟨⟨-, padding⟩, -, unpadded⟩ :=
    octets_on_wire_iff created paddedOnce_unstamped ran taken drained
  rw [one] at padding unpadded
  exact ⟨created, paddedOnce_unstamped, s, log, ran, taken, drained, one, padding,
    mt unpadded.1 one_ne_zero⟩

end Subscription
end Simulcast
