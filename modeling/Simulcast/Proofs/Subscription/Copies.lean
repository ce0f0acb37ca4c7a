import Simulcast.Subscription.Feedback
import Simulcast.Proofs.Intake.Reading
import Simulcast.Proofs.SendLog
import Simulcast.Proofs.SendQueue

/-!
# Copies of sent packets

A subscriber names the packets that it lost. The log hands out what was sent under these
numbers, and nothing but the log and the list of copies to be made changes (`Asked`,
`handleMessages_asked`). The copies are queued under the numbers of the packets that they
repeat, in turn (`makeCopies_eq`, `numbers_copiesOf`).
-/

namespace Simulcast

namespace Rtcp

/-- The packets that a message asks for again. -/
def Message.nacked : Message → List UInt16
  | .nack losses => losses.flatMap LossPair.numbers
  | _ => []

/-- The packets that a compound asks for again. -/
def nackedNumbers (ms : List Message) : List UInt16 := ms.flatMap Message.nacked

end Rtcp

namespace Subscription

variable {s s' s'' : Subscription} {v : PublisherView} {b : Binding} {p : SentPacket}
  {ps : List SentPacket} {o : Outgoing} {now : Time} {ns ms : List UInt16}

/-! ## Asking for lost packets -/

/-- The packets that the log hands out for some numbers. -/
def handedOut (s : Subscription) (now : Time) (ns : List UInt16) : List SentPacket :=
  match s.log with
  | none => []
  | some l => (l.requestAll now ns).2

/-- The log once it has handed out packets for some numbers. -/
def logAfter (s : Subscription) (now : Time) (ns : List UInt16) : Option SendLog :=
  s.log.map fun l => (l.requestAll now ns).1

/-- What becomes of a subscription that is asked for some numbers: the packets that the log
hands out are noted down, and the forwarder and the queue stay as they are. -/
structure Asked (now : Time) (ns : List UInt16) (s s' : Subscription) : Prop where
  forwarder : s'.forwarder = s.forwarder
  queue : s'.queue = s.queue
  log : s'.log = s.logAfter now ns
  copies : s'.copies = s.copies ++ s.handedOut now ns

theorem Asked.nothing (hf : s'.forwarder = s.forwarder) (hq : s'.queue = s.queue)
    (hl : s'.log = s.log) (hc : s'.copies = s.copies) : Asked now [] s s' where
  forwarder := hf
  queue := hq
  log := by
    rw [hl, logAfter]
    cases s.log <;> rfl
  copies := by
    rw [hc, handedOut]
    cases s.log <;> exact (List.append_nil _).symm

theorem Asked.trans (h : Asked now ns s s') (h' : Asked now ms s' s'') :
    Asked now (ns ++ ms) s s'' where
  forwarder := h'.forwarder.trans h.forwarder
  queue := h'.queue.trans h.queue
  log := by
    have later := h'.log
    rw [logAfter, h.log, logAfter] at later
    rw [later, logAfter]
    cases s.log with
    | none => rfl
    | some l => rw [Option.map_some, Option.map_some, Option.map_some, SendLog.requestAll_append]
  copies := by
    have later := h'.copies
    rw [handedOut, h.log, h.copies, logAfter, List.append_assoc] at later
    rw [later, handedOut, handedOut]
    cases s.log with
    | none => rfl
    | some l => simp only [Option.map_some, SendLog.requestAll_append]

/-- What one message of a compound asks for. -/
theorem FeedbackState.handle_asked (now : Moment) (f : FeedbackState) (m : Rtcp.Message) :
    Asked now.time m.nacked f.subscription (f.handle now m).subscription := by
  have asked : Asked now.time [] f.subscription (f.askKeyFrame now).subscription := by
    unfold FeedbackState.askKeyFrame
    dsimp only
    split <;> exact .nothing rfl rfl rfl rfl
  cases m with
  | pictureLoss => exact asked
  | fullIntraRequest => exact asked
  | bandwidthEstimate e => exact .nothing rfl rfl rfl rfl
  | receiverReport r =>
    simp only [FeedbackState.handle, FeedbackState.report]
    split <;> exact .nothing rfl rfl rfl rfl
  | nack losses =>
    simp only [FeedbackState.handle, FeedbackState.nack]
    cases hl : f.subscription.log with
    | none => exact ⟨rfl, rfl, by rw [logAfter, hl]; rfl,
        by rw [handedOut, hl, List.append_nil]⟩
    | some l =>
      refine ⟨rfl, rfl, ?_, ?_⟩
      · rw [logAfter, hl]
        rfl
      · rw [handedOut, hl]
        rfl
  | other => exact .nothing rfl rfl rfl rfl

/-- A compound asks for the numbers of all its messages. -/
theorem handleMessages_asked (s : Subscription) (now : Moment) (ms : List Rtcp.Message) :
    Asked now.time (Rtcp.nackedNumbers ms) s (s.handleMessages now ms).1 := by
  have fold : ∀ f : FeedbackState, Asked now.time (Rtcp.nackedNumbers ms) f.subscription
      (ms.foldl (FeedbackState.handle now) f).subscription := by
    induction ms with
    | nil => exact fun f => .nothing rfl rfl rfl rfl
    | cons m ms ih => exact fun f => (f.handle_asked now m).trans (ih _)
  exact fold { subscription := s, notices := [.rtcp ms] }

/-! ## Making copies -/

/-- The copies of sent packets: of all that can be made again, up to one that runs over its
buffer. -/
def copiesOf (v : PublisherView) (b : Binding) : List SentPacket → List Outgoing
  | [] => []
  | p :: ps => match copyOf v b p with
    | .ok packet => { packet, sendTimeId := b.sendTimeId } :: copiesOf v b ps
    | .error (.fault _) => copiesOf v b ps
    | .error .overrun => []

theorem sendCopies_eq (s : Subscription) (v : PublisherView) (b : Binding) (ps : List SentPacket) :
    sendCopies v b s ps = { s with queue := s.queue.enqueueAll (copiesOf v b ps) } := by
  induction ps generalizing s with
  | nil => rfl
  | cons p ps ih =>
    rw [sendCopies, copiesOf]
    cases copyOf v b p with
    | ok packet => exact ih (s.send b packet false)
    | error e =>
      cases e with
      | fault e => exact ih s
      | overrun => rfl

/-- The copies are put into the queue, and everything else stays. -/
theorem makeCopies_eq (hb : s.binding = some b) :
    s.makeCopies v =
      { s with copies := [], queue := s.queue.enqueueAll (copiesOf v b s.copies) } := by
  simp only [makeCopies, hb, sendCopies_eq]

/-- What a copy is made of. -/
theorem copyOf_eq_ok {packet : Rtp.Packet} :
    copyOf v b p = .ok packet ↔
      ∃ raw read payload, v.packet p.layer p.source copyRoom = .ok raw ∧
        Rtp.Packet.parse raw = .ok read ∧ restoreDescriptor read.payload p.descriptor = .ok payload ∧
        packet = { header := readdress b ⟨p.target, p.timestamp⟩ read.header, payload } := by
  unfold copyOf
  constructor
  · intro h
    split at h
    · cases h
    · rename_i raw hraw
      obtain ⟨read, hread, h⟩ := bind_eq_ok.1 h
      obtain ⟨payload, hp, h⟩ := bind_eq_ok.1 h
      cases h
      exact ⟨raw, read, payload, hraw, hread, hp, rfl⟩
  · rintro ⟨raw, read, payload, hraw, hread, hp, rfl⟩
    rw [hraw]
    exact bind_eq_ok.2 ⟨read, hread, bind_eq_ok.2 ⟨payload, hp, rfl⟩⟩

/-- A copy has the number under which the packet was sent. -/
theorem number_of_copyOf {packet : Rtp.Packet} (h : copyOf v b p = .ok packet) :
    packet.header.number = p.target := by
  obtain ⟨raw, read, payload, -, -, -, rfl⟩ := copyOf_eq_ok.1 h
  rfl

theorem mem_copiesOf (h : o ∈ copiesOf v b ps) :
    ∃ p ∈ ps, copyOf v b p = .ok o.packet ∧ o = { packet := o.packet, sendTimeId := b.sendTimeId } := by
  induction ps with
  | nil => cases h
  | cons p ps ih =>
    unfold copiesOf at h
    split at h
    · rename_i packet hp
      rcases List.mem_cons.1 h with rfl | h
      · exact ⟨p, List.mem_cons_self, hp, rfl⟩
      · exact (ih h).imp fun q hq => ⟨List.mem_cons_of_mem p hq.1, hq.2⟩
    · exact (ih h).imp fun q hq => ⟨List.mem_cons_of_mem p hq.1, hq.2⟩
    · cases h

/-- The numbers of the copies are among those of the packets, in turn. -/
theorem numbers_copiesOf (v : PublisherView) (b : Binding) (ps : List SentPacket) :
    ((copiesOf v b ps).map fun o => o.packet.header.number).Sublist (ps.map SentPacket.target) := by
  induction ps with
  | nil => exact .slnil
  | cons p ps ih =>
    unfold copiesOf
    split
    · rename_i packet hp
      rw [List.map_cons, List.map_cons, number_of_copyOf hp]
      exact ih.cons_cons _
    · exact ih.cons _
    · exact List.nil_sublist _

/-- They are all of them, if every packet can be made again. -/
theorem numbers_copiesOf_eq (h : ∀ p ∈ ps, ∃ packet, copyOf v b p = .ok packet) :
    ((copiesOf v b ps).map fun o => o.packet.header.number) = ps.map SentPacket.target := by
  induction ps with
  | nil => rfl
  | cons p ps ih =>
    obtain ⟨packet, hp⟩ := h p List.mem_cons_self
    unfold copiesOf
    rw [hp]
    dsimp only
    rw [List.map_cons, List.map_cons, number_of_copyOf hp,
      ih fun q hq => h q (List.mem_cons_of_mem p hq)]

end Subscription

end Simulcast
