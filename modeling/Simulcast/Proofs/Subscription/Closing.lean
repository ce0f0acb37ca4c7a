import Simulcast.Proofs.Subscription.Accounting

/-!
# Closing a subscription

To close a subscription is to mute it, to queue its blank frames and to mark it as closed. Nothing but a
second close looks at the mark, so that a subscription with the mark and one without it do the same from
then on (`undergo_asClosed`, `run_asClosed`). Hence nothing more is sent as long as the mute stays, and
only so long (`closing_is_muting`, `reopened_by_unmute`).
-/

namespace Simulcast.Subscription

variable {s s' t t' : Subscription} {v : PublisherView} {b : Binding} {x : Arrival} {layer : Int}
  {d : Decision} {a : Act} {as : List Act} {es : List Event}

/-- The subscription, marked as closed. -/
def asClosed (s : Subscription) : Subscription := { s with closed := true }

/-! ## The mark does not matter -/

section

variable (s : Subscription)

@[simp] theorem activeBinding_asClosed : s.asClosed.activeBinding = s.activeBinding := rfl

@[simp] theorem canGenerate_asClosed : s.asClosed.canGenerate = s.canGenerate := rfl

@[simp] theorem forwarder_asClosed : s.asClosed.forwarder = s.forwarder := rfl

/-- Media goes out of a closed subscription as out of an open one, since nothing asks whether it is
closed. -/
theorem sendMedia_asClosed (b : Binding) (x : Arrival) (layer : Int) (place : Placement)
    (d : Decision) :
    s.asClosed.sendMedia b x layer place d = (s.sendMedia b x layer place d).map asClosed := by
  unfold sendMedia
  cases payloadFor x d <;> rfl

theorem carryOut_asClosed (b : Binding) (x : Arrival) (layer : Int) (d : Decision) :
    s.asClosed.carryOut b x layer d = (s.carryOut b x layer d).map fun r => (r.1.asClosed, r.2) := by
  unfold carryOut
  split
  · rename_i place _ _
    rw [sendMedia_asClosed]
    cases s.sendMedia b x layer place d with
    | ok s' => rfl
    | error e => cases e <;> rfl
  · rfl

theorem write_asClosed (now : Moment) (x : Arrival) (layer : Int) :
    s.asClosed.write now x layer = (s.write now x layer).map fun r => (r.1.asClosed, r.2) := by
  have rest : ∀ (t : Subscription) (b : Binding) (d : Decision) (ns : List Notice),
      (t.asClosed.carryOut b x layer d).map (fun r => (r.1, ns, r.2)) =
        ((t.carryOut b x layer d).map fun r => (r.1, ns, r.2)).map fun r => (r.1.asClosed, r.2) := by
    intro t b d ns
    rw [carryOut_asClosed]
    cases t.carryOut b x layer d <;> rfl
  let t : Subscription :=
    { s with lastPacket := now.unixMillis, forwarder := (s.forwarder.forward x layer).1 }
  have bound : ∀ t : Subscription,
      ({ t with lastPacket := now.unixMillis } : Subscription).activeBinding = t.activeBinding :=
    fun _ => rfl
  unfold write
  dsimp only
  rw [bound, bound, activeBinding_asClosed]
  cases s.activeBinding with
  | none => rfl
  | some b =>
    rw [forwarder_asClosed]
    cases (s.forwarder.forward x layer).2 with
    | error e => rfl
    | ok d =>
      dsimp only
      split
      · exact rest (t.requestKeyFrame now layer).1 b d (t.requestKeyFrame now layer).2
      · exact rest t b d []

theorem foldl_send_asClosed (b : Binding) (packets : List Rtp.Packet) (isPadding : Bool) :
    packets.foldl (fun s p => s.send b p isPadding) s.asClosed =
      (packets.foldl (fun s p => s.send b p isPadding) s).asClosed := by
  induction packets generalizing s with
  | nil => rfl
  | cons p ps ih => exact ih (s.send b p isPadding)

theorem writePadding_asClosed (budget : Nat) :
    s.asClosed.writePadding budget =
      ((s.writePadding budget).1.asClosed, (s.writePadding budget).2) := by
  have count : s.asClosed.paddingCount budget = s.paddingCount budget := rfl
  unfold writePadding
  rw [forwarder_asClosed, canGenerate_asClosed, count]
  cases (if s.forwarder.muted = true then none else s.canGenerate) with
  | none => rfl
  | some b =>
    dsimp only
    by_cases hc : s.paddingCount budget = 0
    · rw [if_pos hc, if_pos hc]
    · rw [if_neg hc, if_neg hc]
      cases (s.forwarder.padding (s.paddingCount budget)).2 with
      | error e => rfl
      | ok places =>
        exact Prod.ext (foldl_send_asClosed
          { s with forwarder := (s.forwarder.padding (s.paddingCount budget)).1 } b _ true) rfl

theorem blankPayload_asClosed (format : PayloadFormat) (endsFrame : Bool) :
    s.asClosed.blankPayload format endsFrame =
      ((s.blankPayload format endsFrame).1.asClosed, (s.blankPayload format endsFrame).2) := by
  unfold blankPayload
  split <;> rfl

theorem sendBlankFrames_asClosed (b : Binding) (places : List Place) (endsFrame : Bool) :
    sendBlankFrames b s.asClosed places endsFrame =
      ((sendBlankFrames b s places endsFrame).1.asClosed, (sendBlankFrames b s places endsFrame).2) := by
  induction places generalizing s endsFrame with
  | nil => rfl
  | cons place places ih =>
    unfold sendBlankFrames
    rw [blankPayload_asClosed]
    dsimp only
    cases (s.blankPayload b.format endsFrame).2 with
    | error e => rfl
    | ok payload =>
      let packet : Rtp.Packet := {
        header := {
          marker := true
          payloadType := b.payloadType
          number := place.number
          timestamp := place.timestamp
          ssrc := b.ssrc }
        payload }
      exact ih ((s.blankPayload b.format endsFrame).1.send b packet false) false

theorem writeBlankFrames_asClosed :
    s.asClosed.writeBlankFrames = (s.writeBlankFrames.1.asClosed, s.writeBlankFrames.2) := by
  unfold writeBlankFrames
  rw [canGenerate_asClosed]
  cases s.canGenerate with
  | none => rfl
  | some b =>
    dsimp only
    rw [forwarder_asClosed]
    split
    · rfl
    · cases s.forwarder.blankFrames.2 with
      | error e => rfl
      | ok placed =>
        have sent := sendBlankFrames_asClosed { s with forwarder := s.forwarder.blankFrames.1 } b
          placed.1 placed.2
        exact congrArg (fun r => (r.1, r.2.map fun _ => placed.1.length)) sent

theorem makeCopies_asClosed (v : PublisherView) :
    s.asClosed.makeCopies v = (s.makeCopies v).asClosed := by
  cases hb : s.binding with
  | none =>
    have unbound : s.asClosed.binding = none := hb
    simp only [makeCopies, hb, unbound]
    rfl
  | some b =>
    have bound : s.asClosed.binding = some b := hb
    rw [makeCopies_eq hb, makeCopies_eq bound]
    rfl

theorem mute_asClosed (on : Bool) :
    s.asClosed.mute on = ((s.mute on).1.asClosed, (s.mute on).2) := by
  unfold mute
  rw [forwarder_asClosed]
  dsimp only
  split <;> rfl

theorem account_asClosed (t : Transmission) :
    s.asClosed.account t = ((s.account t).1.asClosed, (s.account t).2) := by
  unfold account
  dsimp only
  split <;> rfl

theorem bind_asClosed (offer : BindOffer) :
    s.asClosed.bind offer = ((s.bind offer).1.asClosed, (s.bind offer).2) := by
  unfold Subscription.bind
  have codec : s.asClosed.codec = s.codec := rfl
  rw [codec]
  split <;> rfl

end

/-- A compound that is being worked on, for a subscription that is marked as closed. -/
def FeedbackState.asClosed (f : FeedbackState) : FeedbackState :=
  { f with subscription := f.subscription.asClosed }

theorem FeedbackState.handle_asClosed (now : Moment) (f : FeedbackState) (message : Rtcp.Message) :
    f.asClosed.handle now message = (f.handle now message).asClosed := by
  have asked : f.asClosed.askKeyFrame now = (f.askKeyFrame now).asClosed := by
    have same : f.asClosed.asked = f.asked ∧
        f.asClosed.subscription.forwarder = f.subscription.forwarder := ⟨rfl, rfl⟩
    unfold FeedbackState.askKeyFrame
    rw [same.1, same.2]
    dsimp only
    split <;> rfl
  cases message with
  | pictureLoss => exact asked
  | fullIntraRequest => exact asked
  | bandwidthEstimate e => rfl
  | receiverReport r =>
    have same : f.asClosed.subscription.binding = f.subscription.binding := rfl
    simp only [FeedbackState.handle, FeedbackState.report, same]
    split <;> rfl
  | nack losses =>
    have same : f.asClosed.subscription.log = f.subscription.log := rfl
    simp only [FeedbackState.handle, FeedbackState.nack, same]
    cases f.subscription.log <;> rfl
  | other => rfl

theorem handleMessages_asClosed (s : Subscription) (now : Moment) (ms : List Rtcp.Message) :
    s.asClosed.handleMessages now ms =
      ((s.handleMessages now ms).1.asClosed, (s.handleMessages now ms).2) := by
  have fold : ∀ f : FeedbackState, ms.foldl (FeedbackState.handle now) f.asClosed =
      (ms.foldl (FeedbackState.handle now) f).asClosed := by
    induction ms with
    | nil => exact fun f => rfl
    | cons message ms ih =>
      intro f
      rw [List.foldl_cons, f.handle_asClosed now message]
      exact ih _
  have all := fold { subscription := s, notices := [.rtcp ms] }
  exact congrArg (fun f => (f.subscription, f.notices)) all

/-- No command but another close tells a closed subscription from an open one. -/
theorem perform_asClosed {brs : Bitrates} {now : Moment} {c : SubscriptionCommand} (hc : c ≠ .close)
    (s : Subscription) :
    s.asClosed.perform v brs now c = (s.perform v brs now c).map fun r => (r.1.asClosed, r.2) := by
  cases c with
  | close => exact absurd rfl hc
  | write x layer =>
    simp only [perform, write_asClosed]
    cases s.write now x layer <;> rfl
  | padding budget =>
    simp only [perform, writePadding_asClosed]
    rfl
  | blankFrames =>
    simp only [perform, writeBlankFrames_asClosed]
    cases s.writeBlankFrames.2 with
    | ok n => rfl
    | error e => cases e <;> rfl
  | mute on =>
    simp only [perform, mute_asClosed]
    rfl
  | bind offer =>
    simp only [perform, bind_asClosed]
    rfl
  | rtcp raw =>
    simp only [perform, handleRtcp]
    split
    · rw [handleMessages_asClosed]
      rfl
    · rfl
    · rfl
  | _ => rfl

theorem undergo_asClosed (ha : ∀ v brs now, a ≠ .command v brs now .close) (s : Subscription) :
    s.asClosed.undergo a = (s.undergo a).map fun r => (r.1.asClosed, r.2) := by
  cases a with
  | command v brs now c =>
    have other : c ≠ .close := fun h => ha v brs now (congrArg _ h)
    simp only [undergo, perform_asClosed other]
    cases s.perform v brs now c <;> rfl
  | copies v =>
    simp only [undergo, makeCopies_asClosed]
    rfl
  | work unixNanos link =>
    cases hw : s.queue.worker.inHand with
    | some o =>
      have held : s.asClosed.queue.worker.inHand = some o := hw
      rw [undergo_work_sending hw, undergo_work_sending held, account_withQueue, account_withQueue,
        account_asClosed]
      rfl
    | none =>
      have held : s.asClosed.queue.worker.inHand = none := hw
      rw [undergo_work_idle hw, undergo_work_idle held]
      rfl

/-! ## What follows a close -/

def Act.isClose : Act → Bool
  | .command _ _ _ .close => true
  | _ => false

/-- A subscription that is closed does not hear that it is closed again. -/
theorem run_asClosed (s : Subscription) (as : List Act) :
    s.asClosed.run as =
      (s.run (as.filter fun a => !a.isClose)).map fun r => (r.1.asClosed, r.2) := by
  induction as generalizing s with
  | nil => rfl
  | cons a as ih =>
    cases closing : a.isClose with
    | true =>
      have still : s.asClosed.undergo a = .ok (s.asClosed, []) := by
        cases a with
        | command v brs now c =>
          cases c with
          | close => simp [undergo, perform, close, asClosed, told, eventsOf, arrivals, newlyQueued,
              paddingAnswer, Except.map]
          | _ => cases closing
        | _ => cases closing
      rw [List.filter_cons_of_neg (by simp [closing]), ← ih s]
      simp only [run, still]
      show (s.asClosed.run as >>= fun r => .ok (r.1, [] ++ r.2)) = s.asClosed.run as
      cases s.asClosed.run as <;> rfl
    | false =>
      have other : ∀ v brs now, a ≠ .command v brs now .close := by
        rintro v brs now rfl
        cases closing
      rw [List.filter_cons_of_pos (by simp [closing])]
      simp only [run, undergo_asClosed other]
      cases s.undergo a with
      | error e => rfl
      | ok r =>
        show (r.1.asClosed.run as >>= fun later => .ok (later.1, r.2 ++ later.2)) =
          (r.1.run _ >>= fun later => .ok (later.1, r.2 ++ later.2)).map fun r => (r.1.asClosed, r.2)
        rw [ih r.1]
        cases r.1.run (as.filter fun a => !a.isClose) <;> rfl

/-! ## What tells of a close -/

theorem notices_write {now : Moment} {r : List Notice × Except Fault Unit}
    (h : s.write now x layer = .ok (s', r)) : .closed ∉ r.1 := by
  unfold write at h
  dsimp only at h
  split at h
  · cases h
    simp
  · split at h
    · cases h
      simp
    · obtain ⟨out, -, he⟩ := map_eq_ok.1 h
      cases he
      dsimp only
      split <;> simp [requestKeyFrame]

theorem FeedbackState.notices_handle (now : Moment) (f : FeedbackState) (message : Rtcp.Message)
    (h : .closed ∉ f.notices) : .closed ∉ (f.handle now message).notices := by
  have asked : .closed ∉ (f.askKeyFrame now).notices := by
    unfold FeedbackState.askKeyFrame
    dsimp only
    split
    · exact h
    · simp [h, requestKeyFrame]
  cases message with
  | pictureLoss => exact asked
  | fullIntraRequest => exact asked
  | bandwidthEstimate e => simp [FeedbackState.handle, h]
  | receiverReport r =>
    simp only [FeedbackState.handle, FeedbackState.report]
    split
    · exact h
    · simp [h]
  | nack losses =>
    simp only [FeedbackState.handle, FeedbackState.nack]
    split <;> exact h
  | other => exact h

theorem notices_handleMessages (s : Subscription) (now : Moment) (ms : List Rtcp.Message) :
    .closed ∉ (s.handleMessages now ms).2 := by
  have fold : ∀ f : FeedbackState, .closed ∉ f.notices →
      .closed ∉ (ms.foldl (FeedbackState.handle now) f).notices := by
    induction ms with
    | nil => exact fun f h => h
    | cons message ms ih => exact fun f h => ih _ (f.notices_handle now message h)
  exact fold { subscription := s, notices := [.rtcp ms] } (by simp)

theorem notices_perform {brs : Bitrates} {now : Moment} {c : SubscriptionCommand}
    {notices : List Notice} {answer : SubscriptionAnswer} (hc : c ≠ .close)
    (h : s.perform v brs now c = .ok (s', notices, answer)) : .closed ∉ notices := by
  have bounded : ∀ bound : Option Layers, .closed ∉ boundNotice bound := by
    intro bound
    cases bound <;> simp [boundNotice]
  cases c with
  | close => exact absurd rfl hc
  | write x layer =>
    obtain ⟨out, hw, he⟩ := map_eq_ok.1 h
    cases he
    exact notices_write hw
  | blankFrames =>
    simp only [perform] at h
    split at h <;> cases h <;> simp
  | mute on =>
    cases h
    unfold Subscription.mute
    dsimp only
    split <;> simp
  | bind offer =>
    cases h
    split <;> simp
  | boundSpatial bound =>
    cases h
    exact bounded _
  | boundTemporal bound =>
    cases h
    exact bounded _
  | rtcp raw =>
    simp only [perform, handleRtcp] at h
    split at h
    · rename_i ms _
      have quiet := notices_handleMessages s now ms
      cases h
      exact quiet
    · cases h
      simp
    · cases h
  | _ =>
    cases h
    simp [unbind, setAvailable]

/-- Nobody is told of a close that was not asked for. -/
theorem notices_undergo (ha : a.isClose = false) (h : s.undergo a = .ok (s', es)) :
    .closed ∉ noticesIn es := by
  cases undergo_outcome h with
  | @command v brs now c _ _ _ hp =>
    have other : c ≠ .close := by
      rintro rfl
      cases ha
    rw [noticesIn_eventsOf]
    exact notices_perform other hp
  | copies v =>
    rw [noticesIn, filterMap_map_blind fun _ => rfl]
    exact List.not_mem_nil
  | sends unixNanos link hw =>
    rw [noticesIn_answered]
    unfold account
    dsimp only
    split <;> simp
  | works unixNanos link hw => exact List.not_mem_nil

/-! ## Mutes -/

/-- The packets of the publisher, and padding. -/
def Origin.isLive : Origin → Bool
  | .media | .padding => true
  | _ => false

/-- What an act asks for by way of muting. -/
def Act.mutes : Act → Option Bool
  | .command _ _ _ (.mute on) => some on
  | _ => none

/-- A muted subscription puts no packet of the publisher into the queue. -/
theorem queue_write_of_muted {now : Moment} {r : List Notice × Except Fault Unit}
    (hm : s.forwarder.muted = true) (h : s.write now x layer = .ok (s', r)) : s'.queue = s.queue := by
  have left : s.forwarder.forward x layer = (s.forwarder, .ok .leaveOut) := if_pos hm
  unfold write at h
  dsimp only at h
  split at h
  · cases h
    rfl
  · rw [left] at h
    cases h
    rfl

theorem queue_writePadding_of_muted (hm : s.forwarder.muted = true) (budget : Nat) :
    (s.writePadding budget).1.queue = s.queue := by
  unfold writePadding
  rw [if_pos hm]

/-- A muted subscription puts neither packets of the publisher nor padding into the queue. -/
theorem live_undergo_of_muted (hr : s.queue.stopped = false) (hm : s.forwarder.muted = true)
    (h : s.undergo a = .ok (s', es)) : queuedFrom Origin.isLive es = [] := by
  cases undergo_outcome h with
  | @command v brs now c _ _ _ hp =>
    obtain ⟨os, n, does⟩ := does_perform hp
    rw [(does.records hr).queued]
    have same : s'.queue = s.queue → os = [] := by
      intro hq
      rw [← newlyQueued_of_puts hr does.puts, newlyQueued, hq, List.drop_length]
    cases c with
    | write x layer =>
      obtain ⟨out, hw, he⟩ := map_eq_ok.1 hp
      cases he
      exact same (queue_write_of_muted hm hw)
    | padding budget =>
      cases hp
      exact same (queue_writePadding_of_muted hm budget)
    | _ => rfl
  | copies v => exact queuedFrom_map_queued _ .copy _
  | sends unixNanos link hw => exact (answers_answered _ _).queued _
  | works unixNanos link hw => rfl

/-- Whether a subscription is muted after an act. -/
theorem muted_undergo (h : s.undergo a = .ok (s', es)) :
    s'.forwarder.muted =
      a.mutes.getD (if a.isClose then !s.closed || s.forwarder.muted else s.forwarder.muted) := by
  have terms := congrArg Terms.muted (terms_undergo h)
  cases a with
  | command v brs now c => cases c <;> exact terms
  | _ => exact terms

theorem closed_undergo (hc : s.closed = true) (h : s.undergo a = .ok (s', es)) :
    s'.closed = true := by
  have terms := congrArg Terms.closed (terms_undergo h)
  cases a with
  | command v brs now c => cases c <;> first | exact terms | exact terms.trans hc
  | _ => exact terms.trans hc

/-- A closed subscription is muted as the last command about that says. -/
theorem muted_run (hc : s.closed = true) (h : s.run as = .ok (t, es)) :
    t.closed = true ∧
      t.forwarder.muted = ((as.filterMap Act.mutes).getLast?).getD s.forwarder.muted := by
  induction as generalizing s es with
  | nil =>
    cases h
    exact ⟨hc, rfl⟩
  | cons a as ih =>
    obtain ⟨s₁, first, later, ha, rest, rfl⟩ := run_cons_eq_ok.1 h
    obtain ⟨closed, muted⟩ := ih (closed_undergo hc ha) rest
    have next := muted_undergo ha
    rw [hc, Bool.not_true, Bool.false_or, ite_self] at next
    refine ⟨closed, ?_⟩
    rw [muted, next]
    cases hm : a.mutes with
    | none => rw [List.filterMap_cons_none hm, Option.getD_none]
    | some on => rw [List.filterMap_cons_some hm, List.getLast?_cons, Option.getD_some, Option.getD_some]

/-! ## Closing is muting -/

/-- The subscription, muted, with blank frames queued. -/
def hushed (s : Subscription) : Subscription :=
  { s with forwarder := (s.forwarder.mute true).1 }.writeBlankFrames.1

theorem close_of_open (hc : s.closed = false) : s.close = (s.hushed.asClosed, [.closed]) := by
  unfold close
  rw [hc, if_neg Bool.false_ne_true]
  have blank := writeBlankFrames_asClosed { s with forwarder := (s.forwarder.mute true).1 }
  exact congrArg (fun r => (r.1, [Notice.closed])) blank

theorem notices_run (ha : ∀ a ∈ as, a.isClose = false) (h : s.run as = .ok (t, es)) :
    .closed ∉ noticesIn es := by
  have all : .closed ∉ noticesIn ([] ++ es) := by
    have start : Notice.closed ∉ noticesIn [] := List.not_mem_nil
    refine run_induction (P := fun _ log => .closed ∉ noticesIn log) ?_ start h
    intro a ha' _ _ log first quiet hu
    rw [noticesIn_append]
    exact fun hm => (List.mem_append.1 hm).elim quiet (notices_undergo (ha a ha') hu)
  exact all

/-- Every run of a new subscription, the first close in it, and whatever follows. A close is made known
then and not again. From there on the log is that of a subscription that is muted and has queued its
blank frames, but was not closed: so as long as the last command about that does not unmute it, nothing
that is done with it puts a packet of the publisher or padding into the queue. -/
theorem closing_is_muting {name : TrackName} {peer : String} {codec : Codec}
    {settings : SubscriptionSettings} {s₀ : Subscription} {before after : List Act} {log : List Event}
    (hs : create name peer codec settings = .ok s₀) (hr : s₀.run before = .ok (s, log))
    (hc : s.closed = false) (ht : s.close.1.run after = .ok (t, es)) :
    s.close.2 = [.closed] ∧ .closed ∉ noticesIn es ∧
    (∃ t', s.hushed.run (after.filter fun a => !a.isClose) = .ok (t', es) ∧ t = t'.asClosed) ∧
    ((after.filterMap Act.mutes).getLast? ≠ some false →
      ∀ a t' es', t.undergo a = .ok (t', es') → queuedFrom Origin.isLive es' = []) := by
  have closing : s.close = (s.hushed.asClosed, [.closed]) := close_of_open hc
  have alike := run_asClosed s.hushed after
  rw [closing] at ht
  obtain ⟨⟨t', es'⟩, ht', he⟩ := map_eq_ok.1 (alike.symm.trans ht)
  cases he
  refine ⟨congrArg Prod.snd closing, ?_, ⟨t', ht', rfl⟩, fun still a u us hu => ?_⟩
  · exact notices_run (fun a ha => by simpa using (List.mem_filter.1 ha).2) ht'
  · have closed : s.undergo (.command noPackets Bitrates.zero ⟨0, 0⟩ .close) =
        .ok (s.close.1, s.eventsOf s.close.1 .close s.close.2 .done) := rfl
    have service := ((((tallies_create hs).run hr).undergo closed).run (closing ▸ ht)).service
    have start : s.hushed.asClosed.forwarder.muted = true := by
      have muted := congrArg Terms.muted (terms_undergo closed)
      rw [closing] at muted
      exact muted.trans (by simp [termsAfterAct, termsAfter, hc])
    have muted : t'.asClosed.forwarder.muted = true := by
      obtain ⟨-, last⟩ := muted_run rfl ht
      rw [last, start]
      cases hlast : (after.filterMap Act.mutes).getLast? with
      | none => rfl
      | some on =>
        cases on with
        | true => rfl
        | false => exact absurd hlast still
    exact live_undergo_of_muted service.running muted hu

/-! ## A close that is undone -/

/-- It is unmuted, gets the next packet, and is asked for padding. -/
def unmutedLater : List Act :=
  asked [.mute false, .write (vp8Packet 101 11 0 false) 0, .padding 1]

/-- A close does not last: the packet is put into the queue, and so is padding. -/
theorem reopened_by_unmute :
    create vp8Subscription.name "peer" vp8Codec {} = .ok vp8Subscription ∧
      ∃ s log, vp8Subscription.run (asked firstKeyFrame) = .ok (s, log) ∧ s.closed = false ∧
        ∃ t es, s.close.1.run unmutedLater = .ok (t, es) ∧ t.closed = true ∧
          (mediaIn es).length = 1 ∧ (queuedFrom (· == .padding) es).length = 1 :=
  ⟨rfl, _, _, rfl, rfl, _, _, rfl, rfl, rfl, rfl⟩

/-- The packet, padding and a second close, without a word about muting. -/
def closedTwice : List Act :=
  asked [.write (vp8Packet 101 11 0 false) 0, .padding 1, .close]

/-- The close lasts, and is not made known again. -/
theorem closing_is_muting_closedTwice :
    create vp8Subscription.name "peer" vp8Codec {} = .ok vp8Subscription ∧
      ∃ s log, vp8Subscription.run (asked firstKeyFrame) = .ok (s, log) ∧ s.closed = false ∧
        ∃ t es, s.close.1.run closedTwice = .ok (t, es) ∧ .closed ∉ noticesIn es ∧
          ∀ a t' es', t.undergo a = .ok (t', es') → queuedFrom Origin.isLive es' = [] := by
  have created : create vp8Subscription.name "peer" vp8Codec {} = .ok vp8Subscription := rfl
  obtain ⟨s, log, ran, opened, t, es, later⟩ : ∃ s log,
      vp8Subscription.run (asked firstKeyFrame) = .ok (s, log) ∧ s.closed = false ∧
        ∃ t es, s.close.1.run closedTwice = .ok (t, es) := ⟨_, _, rfl, rfl, _, _, rfl⟩
  obtain ⟨-, once, -, still⟩ := closing_is_muting created ran opened later
  exact ⟨created, s, log, ran, opened, t, es, later, once, still (by decide)⟩

end Simulcast.Subscription
