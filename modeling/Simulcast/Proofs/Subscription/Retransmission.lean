import Simulcast.Proofs.Forwarding.Failure
import Simulcast.Proofs.Subscription.Logging

/-!
# Retransmissions

A packet that the subscriber lost is read again from the publisher, and the descriptor and the
place that it got the first time are taken from the log. What is queued then is the packet that
was queued before, header and payload, whatever became of the forwarder in between.

* `Recalls`: what the log keeps of a packet is enough to make it again, `copyOf_of_recalls`;
* `Retains.perform`, `Retains.settle`: the log keeps that of every packet that is queued, in
  every run, and hands out what was not asked for before;
* `retransmission_repeats`: so the copies repeat what was queued, and asking for them leaves
  the forwarder alone.
-/

namespace Simulcast

namespace Forwarder

variable {f : Forwarder} {a : Arrival} {layer : Int} {d d' : Decision}

theorem descriptor_placePacket (hv : a.vp8 = none) (hd : d.descriptor = none)
    (h : (f.placePacket a d).2 = .ok d') : d'.descriptor = none := by
  cases hr : ((f.takeUp a).numbering.place a).2 with
  | error e =>
    rw [placePacket_of_error (Prod.ext rfl hr)] at h
    unfold leaveOutOr at h
    split at h <;> cases h
    exact hd
  | ok place =>
    cases hp : (f.takeUp a).pictures with
    | none =>
      rw [placePacket_plain (Prod.ext rfl hr) hp] at h
      cases h
      exact hd
    | some pics =>
      rw [placePacket_of_ok (Prod.ext rfl hr) hp, describePicture_error_iff.2 ⟨rfl, hv⟩] at h
      cases h

/-- A packet without a descriptor does not get one. -/
theorem descriptor_forward (hv : a.vp8 = none) (h : (f.forward a layer).2 = .ok d) :
    d.descriptor = none := by
  unfold forward at h
  split at h
  · cases h
    rfl
  · split at h
    · unfold forwardAudio at h
      dsimp only at h
      split at h
      · cases h
        rfl
      · unfold leaveOutOr at h
        split at h <;> cases h
        rfl
    · unfold forwardVideo at h
      split at h
      · cases h
        rfl
      · dsimp only at h
        split at h
        · exact descriptor_placePacket hv rfl h
        · cases h
          rfl

end Forwarder

namespace Subscription

variable {s s' s'' : Subscription} {v : PublisherView} {b : Binding} {a : Arrival} {layer : Int}
  {p : SentPacket} {d : Decision} {format : PayloadFormat}

/-! ## What the log keeps of a packet -/

/-- A packet that was queued for the subscriber. -/
structure Queued where
  arrival : Arrival
  /-- The layer it came on. -/
  layer : Int
  /-- The binding in force. -/
  binding : Option Binding
  outgoing : Outgoing

/-- What is logged of a packet, and its octets, are enough to make it again. -/
structure Recalls (p : SentPacket) (w : Queued) : Prop where
  source : p.source = w.arrival.number
  layer : p.layer = loggedLayer w.layer
  read : Rtp.Packet.parse w.arrival.raw = .ok w.arrival.packet
  made : ∃ b payload, w.binding = some b ∧
    restoreDescriptor w.arrival.packet.payload p.descriptor = .ok payload ∧
    w.outgoing = {
      packet := {
        header := readdress b ⟨p.target, p.timestamp⟩ w.arrival.packet.header
        payload }
      sendTimeId := b.sendTimeId }

/-- The descriptor in front of the payload was read off it, so that reading it again finds the
same. -/
theorem restoreDescriptor_of_payloadFor {payload : Octets} (hr : a.ReadAs format)
    (hd : a.vp8 = none → d.descriptor = none) (h : payloadFor a d = .ok payload) :
    restoreDescriptor a.packet.payload d.descriptor = .ok payload := by
  unfold payloadFor at h
  cases hv : a.vp8 with
  | none =>
    rw [hd hv] at h ⊢
    exact h
  | some incoming =>
    rw [hv] at h
    cases ho : d.descriptor with
    | none =>
      rw [ho] at h
      exact h
    | some outgoing =>
      rw [ho] at h
      simp only [restoreDescriptor, hr.parsed hv]
      exact h

/-- A layer is logged by its own number. -/
theorem loggedLayer_toNat (l : UInt8) : loggedLayer l.toNat = l := by
  have small := l.toNat_lt
  rw [loggedLayer, if_pos ⟨Int.natCast_nonneg _, by omega⟩]
  exact UInt8.ofNat_toNat

/-- The publisher still has the octets of a packet. -/
def KeptBy (v : PublisherView) (w : Queued) : Prop :=
  ∃ l : UInt8, (l.toNat : Int) = w.layer ∧
    v.packet l w.arrival.number copyRoom = .ok w.arrival.raw

/-- The copy of a packet is the packet itself. -/
theorem copyOf_of_recalls {w : Queued} (hp : Recalls p w) (hb : w.binding = some b)
    (hv : KeptBy v w) :
    copyOf v b p = .ok w.outgoing.packet ∧
      w.outgoing = { packet := w.outgoing.packet, sendTimeId := b.sendTimeId } := by
  obtain ⟨b', payload, hb', restored, made⟩ := hp.made
  obtain rfl : b = b' := Option.some.inj (hb.symm.trans hb')
  obtain ⟨l, hl, kept⟩ := hv
  have layer : p.layer = l := by rw [hp.layer, ← hl, loggedLayer_toNat]
  rw [made]
  refine ⟨copyOf_eq_ok.2 ⟨_, _, payload, ?_, hp.read, restored, rfl⟩, rfl⟩
  rw [layer, hp.source]
  exact kept

/-! ## Runs -/

/-- What is asked of a subscription at some time, and whether its worker is let run then. -/
structure Turn where
  now : Moment
  view : PublisherView
  brs : Bitrates
  command : SubscriptionCommand
  link : Option Link := none

/-- A subscription whose worker is let run, if it is. -/
def Turn.settle (t : Turn) (s : Subscription) : Subscription :=
  match t.link with
  | none => s
  | some link => (s.flush t.view t.now link).1

/-- The packet of the publisher that a command put into the queue. -/
def queuedBy (s s' : Subscription) : SubscriptionCommand → Option Queued
  | .write a layer => (s'.queue.packets.drop s.queue.packets.length).head?.map fun outgoing =>
    { arrival := a, layer, binding := s.binding, outgoing }
  | _ => none

/-- A history with the packet that was queued, under its number. -/
def fileQueued (h : List (Filed Queued)) : Option Queued → List (Filed Queued)
  | none => h
  | some w => Filed.file h w.outgoing.packet.header.number w

/-- A subscription after some turns, with the history of what was queued. -/
def play : Subscription → List (Filed Queued) → List Turn →
    Attempt (Subscription × List (Filed Queued))
  | s, h, [] => .ok (s, h)
  | s, h, t :: ts => do
    let (s', _) ← s.perform t.view t.brs t.now t.command
    play (t.settle s') (fileQueued h (s.queuedBy s' t.command)) ts

/-- The packets come as an intake reads them. -/
def TakesIntake (c : SubscriptionCommand) : Prop :=
  ∀ a layer, c = .write a layer → ∃ format, a.ReadAs format

/-- The numbers that a command asks for again. -/
def nackedBy : SubscriptionCommand → List UInt16
  | .rtcp raw => match Rtcp.parseCompound raw with
    | .ok ms => Rtcp.nackedNumbers ms
    | .error _ => []
  | _ => []

/-- The numbers that some turns ask for again. -/
def nackedIn (ts : List Turn) : List UInt16 := ts.flatMap fun t => nackedBy t.command

/-- The log of a video keeps what it takes to make the packets of a history again, and hands
out what was not asked for. -/
structure Retains (kind : MediaKind) (capacity : Nat) (asked : List UInt16) (s : Subscription)
    (h : List (Filed Queued)) : Prop where
  running : s.queue.stopped = false
  video : kind = .video → s.log.isSome = true
  tracks : ∀ l, s.log = some l → SendLog.Tracks Recalls l h ∧ l.capacity = max capacity 1
  due : ∀ l, s.log = some l → ∀ n, n ∉ asked → SendLog.Due l n

variable {kind : MediaKind} {capacity : Nat} {asked : List UInt16} {h h' : List (Filed Queued)}

theorem Retains.keepsLog (hr : Retains kind capacity asked s h) (hk : KeepsLog s s') :
    Retains kind capacity asked s' h where
  running := hk.stopped.trans hr.running
  video hv := hk.log ▸ hr.video hv
  tracks l hl := hr.tracks l (hk.log.symm.trans hl)
  due l hl := hr.due l (hk.log.symm.trans hl)

/-- What is logged of a packet that is queued is enough to make it again. -/
theorem recalls_of_queues {place : Placement} {payload : Octets}
    (hread : a.ReadAs format) (hb : s.activeBinding = some b)
    (hd : (s.forwarder.forward a layer).2 = .ok d)
    (hq : Queues s b a layer d place payload s') :
    Recalls
      { source := a.number, target := place.number, timestamp := place.timestamp
        layer := loggedLayer layer, descriptor := d.descriptor }
      { arrival := a, layer, binding := s.binding
        outgoing := {
          packet := { header := readdress b place.toPlace a.packet.header, payload }
          sendTimeId := b.sendTimeId } } where
  source := rfl
  layer := rfl
  read := (Arrival.readAs_iff.1 hread).1
  made := by
    have bound : s.binding = some b := by
      unfold activeBinding at hb
      split at hb
      · exact hb
      · cases hb
    have restored := restoreDescriptor_of_payloadFor hread
      (fun hv => Forwarder.descriptor_forward hv hd) hq.written
    exact ⟨b, payload, bound, restored, rfl⟩

/-- A packet that is queued is logged as the history files it. -/
theorem Retains.write {now : Moment} {r : List Notice × Except Fault Unit}
    (hr : Retains kind capacity asked s h) (hread : a.ReadAs format)
    (hw : s.write now a layer = .ok (s', r)) :
    Retains kind capacity asked s' (fileQueued h (s.queuedBy s' (.write a layer))) := by
  rcases write_cases hw with ⟨log, queue⟩ | ⟨b, d, place, payload, hb, hd, hq⟩
  · rw [queuedBy, queue, List.drop_length]
    exact hr.keepsLog ⟨log, by rw [queue]⟩
  · have stopped : s'.queue.stopped = s.queue.stopped := by
      rw [hq.queue, SendQueue.stopped_enqueue]
    rw [queuedBy, hq.queue, SendQueue.packets_enqueue hr.running, List.drop_left]
    refine ⟨stopped.trans hr.running, fun hv => ?_, fun l' hl' => ?_, fun l' hl' n hn => ?_⟩
    · rw [hq.log, logPacket, Option.isSome_map]
      exact hr.video hv
    · rw [hq.log, logPacket] at hl'
      obtain ⟨l, hl, rfl⟩ := Option.map_eq_some_iff.1 hl'
      obtain ⟨tracks, size⟩ := hr.tracks l hl
      exact ⟨tracks.record (recalls_of_queues hread hb hd hq),
        (SendLog.capacity_record tracks).trans size⟩
    · rw [hq.log, logPacket] at hl'
      obtain ⟨l, hl, rfl⟩ := Option.map_eq_some_iff.1 hl'
      exact (hr.due l hl n hn).record _

/-- Feedback leaves in the log what it keeps. -/
theorem Retains.feedback {now : Time} {ns : List UInt16} (hr : Retains kind capacity asked s h)
    (ha : Asked now ns s s') : Retains kind capacity (asked ++ ns) s' h where
  running := by rw [ha.queue, hr.running]
  video hv := by
    rw [ha.log, logAfter, Option.isSome_map]
    exact hr.video hv
  tracks l' hl' := by
    rw [ha.log, logAfter] at hl'
    obtain ⟨l, hl, rfl⟩ := Option.map_eq_some_iff.1 hl'
    obtain ⟨tracks, size⟩ := hr.tracks l hl
    obtain ⟨tracks', size'⟩ := tracks.requestAll now ns
    exact ⟨tracks', size'.trans size⟩
  due l' hl' n hn := by
    rw [ha.log, logAfter] at hl'
    obtain ⟨l, hl, rfl⟩ := Option.map_eq_some_iff.1 hl'
    obtain ⟨before, now'⟩ := not_or.1 (mt List.mem_append.2 hn)
    exact (hr.due l hl n before).requestAll now' now

theorem Retains.perform {t : Turn} {r : List Notice × SubscriptionAnswer}
    (hr : Retains kind capacity asked s h) (hc : TakesIntake t.command)
    (hp : s.perform t.view t.brs t.now t.command = .ok (s', r)) :
    Retains kind capacity (asked ++ nackedBy t.command) s'
      (fileQueued h (s.queuedBy s' t.command)) := by
  generalize t.command = c at hc hp ⊢
  cases c with
  | write a layer =>
    obtain ⟨format, hread⟩ := hc a layer rfl
    obtain ⟨out, hw, he⟩ := map_eq_ok.1 hp
    cases he
    simp only [nackedBy, List.append_nil]
    exact hr.write hread hw
  | rtcp raw =>
    obtain ⟨out, hf, he⟩ := map_eq_ok.1 hp
    cases he
    unfold handleRtcp at hf
    cases hm : Rtcp.parseCompound raw with
    | ok ms =>
      rw [hm] at hf
      cases hf
      simp only [nackedBy, hm]
      exact hr.feedback (handleMessages_asked s t.now ms)
    | error e =>
      rw [hm] at hf
      cases e <;> cases hf
      simp only [nackedBy, hm, List.append_nil]
      exact hr
  | _ =>
    simp only [nackedBy, List.append_nil]
    exact hr.keepsLog (keepsLog_perform rfl hp)

theorem Retains.settle (hr : Retains kind capacity asked s h) (t : Turn) :
    Retains kind capacity asked (t.settle s) h := by
  unfold Turn.settle
  split
  · exact hr
  · exact hr.keepsLog (keepsLog_flush _ _ _)

theorem Retains.play {ts : List Turn} (hr : Retains kind capacity asked s h)
    (hc : ∀ t ∈ ts, TakesIntake t.command) (hp : play s h ts = .ok (s', h')) :
    Retains kind capacity (asked ++ nackedIn ts) s' h' := by
  induction ts generalizing s h asked with
  | nil =>
    cases hp
    rw [nackedIn, List.flatMap_nil, List.append_nil]
    exact hr
  | cons t ts ih =>
    obtain ⟨⟨s₁, r⟩, hs₁, hp⟩ := bind_eq_ok.1 hp
    have later := (hr.perform (hc t List.mem_cons_self) hs₁).settle t
    have last := ih later (fun t' ht' => hc t' (List.mem_cons_of_mem t ht')) hp
    rw [List.append_assoc] at last
    exact last

theorem retains_create {name : TrackName} {peer : String} {codec : Codec}
    {settings : SubscriptionSettings} (hk : codec.kind = .ok kind)
    (hs : create name peer codec settings = .ok s) :
    Retains kind settings.logCapacity [] s [] := by
  rw [create, hk] at hs
  cases hs
  refine ⟨rfl, ?_, fun l hl => ?_, fun l hl n _ => ?_⟩
  · rintro rfl
    rfl
  · cases kind with
    | audio => cases hl
    | video =>
      cases hl
      exact ⟨SendLog.tracks_ofCapacity _, SendLog.capacity_ofCapacity _⟩
  · cases kind with
    | audio => cases hl
    | video =>
      cases hl
      exact SendLog.due_ofCapacity _ n

/-! ## Copies repeat what was queued -/

/-- The packet that was queued last under a number can be repeated: one was queued under it
within reach of the log, and the binding and the octets of the publisher are what they were. -/
structure Repeatable (h : List (Filed Queued)) (capacity : Nat) (v : PublisherView) (b : Binding)
    (number : UInt16) (w : Queued) : Prop where
  reach : Filed.InReach h capacity number
  last : ∃ e, Filed.latest h number = some e ∧ e.item = w
  binding : w.binding = some b
  kept : KeptBy v w

/-- What the log hands out for a number makes the packet that was queued last under it. -/
theorem Retains.copyOf_handedOut {now : Time} {ns : List UInt16} {w : Queued}
    (hr : Retains kind capacity asked s h) (hp : p ∈ s.handedOut now ns)
    (hw : Repeatable h capacity v b p.target w) :
    copyOf v b p = .ok w.outgoing.packet ∧
      w.outgoing = { packet := w.outgoing.packet, sendTimeId := b.sendTimeId } := by
  unfold handedOut at hp
  cases hl : s.log with
  | none =>
    rw [hl] at hp
    cases hp
  | some l =>
    rw [hl] at hp
    obtain ⟨tracks, size⟩ := hr.tracks l hl
    obtain ⟨e, he, within⟩ := tracks.counted.within_latest hw.reach
    obtain ⟨e', he', rfl⟩ := hw.last
    cases he.symm.trans he'
    have reach := within.mono (size ▸ Nat.le_max_left capacity 1)
    exact copyOf_of_recalls ((tracks.handed now ns).2 p hp e he reach) hw.binding hw.kept

theorem Retains.numbers_handedOut (hr : Retains kind capacity asked s h) (now : Time)
    (ns : List UInt16) : ((s.handedOut now ns).map SentPacket.target).Sublist ns := by
  unfold handedOut
  cases hl : s.log with
  | none => exact List.nil_sublist ns
  | some l => exact ((hr.tracks l hl).1.handed now ns).1

/-- The log of a video hands out what is within reach and was not asked for. -/
theorem Retains.handedOut_of_inReach {ns : List UInt16} {n : UInt16}
    (hr : Retains .video capacity asked s h) (hn : n ∈ ns) (hf : n ∉ asked)
    (hi : Filed.InReach h capacity n) (now : Time) :
    n ∈ (s.handedOut now ns).map SentPacket.target := by
  obtain ⟨l, hl⟩ := Option.isSome_iff_exists.1 (hr.video rfl)
  obtain ⟨tracks, size⟩ := hr.tracks l hl
  obtain ⟨e, he, within⟩ := tracks.counted.within_latest hi
  have reach := within.mono (size ▸ Nat.le_max_left capacity 1)
  rw [handedOut, hl]
  exact tracks.handed_of_due (hr.due l hl n hf) he reach now hn

/-- Every run of a new subscription, with packets as an intake reads them, of any payload format,
on any layers and from any sources, and with whatever else may be asked of it in between. When
a compound of the subscriber comes in then, the forwarder stays as it is, and some packets are
noted down under the numbers that it asks for; among them are those of a video within reach of
the log that were not asked for before. Whenever these copies are made, by a subscription whose
queue is in service, the forwarder stays as it is again, and the copies come under those
numbers, in turn. Each is the very packet that was queued last under its number, if that can be
repeated; and none is left out, if all can be. -/
theorem retransmission_repeats {name : TrackName} {peer : String} {codec : Codec}
    {settings : SubscriptionSettings} {ts : List Turn} {s₀ : Subscription} {raw : Octets}
    {ms : List Rtcp.Message} (now : Moment) (hs : create name peer codec settings = .ok s₀)
    (hc : ∀ t ∈ ts, TakesIntake t.command) (hp : play s₀ [] ts = .ok (s, h))
    (hm : Rtcp.parseCompound raw = .ok ms) :
    ∃ s' notices found, s.handleRtcp now raw = .ok (s', notices) ∧
      s'.forwarder = s.forwarder ∧ s'.copies = s.copies ++ found ∧
      (found.map SentPacket.target).Sublist (Rtcp.nackedNumbers ms) ∧
      (codec.kind = .ok .video → ∀ n ∈ Rtcp.nackedNumbers ms, n ∉ nackedIn ts →
        Filed.InReach h settings.logCapacity n → n ∈ found.map SentPacket.target) ∧
      ∀ (t : Subscription) (v : PublisherView) (b : Binding), t.binding = some b →
        t.copies = found → t.queue.stopped = false →
        (t.makeCopies v).forwarder = t.forwarder ∧
        ∃ copies, (t.makeCopies v).queue.packets = t.queue.packets ++ copies ∧
          (copies.map fun o => o.packet.header.number).Sublist (found.map SentPacket.target) ∧
          (∀ o ∈ copies, ∀ w,
            Repeatable h settings.logCapacity v b o.packet.header.number w → o = w.outgoing) ∧
          ((∀ n ∈ Rtcp.nackedNumbers ms, ∃ w, Repeatable h settings.logCapacity v b n w) →
            (copies.map fun o => o.packet.header.number) = found.map SentPacket.target) := by
  obtain ⟨kind, hk, -⟩ := map_eq_ok.1 hs
  have retains : Retains kind settings.logCapacity (nackedIn ts) s h :=
    (retains_create hk hs).play hc hp
  have asked := handleMessages_asked s now ms
  have handled : s.handleRtcp now raw = .ok (s.handleMessages now ms) := by
    unfold handleRtcp
    rw [hm]
  refine ⟨_, _, _, handled, asked.forwarder, asked.copies, retains.numbers_handedOut _ _, ?_, ?_⟩
  · intro hv n hn fresh reach
    cases hk.symm.trans hv
    exact retains.handedOut_of_inReach hn fresh reach _
  · intro t v b hb hcopies running
    rw [makeCopies_eq hb, hcopies]
    refine ⟨rfl, _, SendQueue.packets_enqueueAll running _, numbers_copiesOf v b _, ?_, ?_⟩
    · intro o ho w hw
      obtain ⟨p, hp, hcopy, form⟩ := mem_copiesOf ho
      rw [number_of_copyOf hcopy] at hw
      obtain ⟨hcopy', form'⟩ := retains.copyOf_handedOut hp hw
      have same : o.packet = w.outgoing.packet := Except.ok.inj (hcopy.symm.trans hcopy')
      rw [form, form', same]
    · intro all
      refine numbers_copiesOf_eq fun p hp => ?_
      have named : p.target ∈ Rtcp.nackedNumbers ms :=
        (retains.numbers_handedOut _ _).subset (List.mem_map_of_mem hp)
      obtain ⟨w, hw⟩ := all p.target named
      exact ⟨_, (retains.copyOf_handedOut hp hw).1⟩

/-! ## A subscriber that switched layers -/

/-- The codec of the example. -/
def vp8Video : Codec := { mime := "video/VP8", clockRate := 90000 }

/-- The octets of a VP8 packet of a layer: its number, its picture, and the first octet of its
frame data. -/
def layerOctets (layer number picture frame : UInt8) : Octets :=
  [0x80, 0xe0, 0, number, 0, 0, 0, number, 0, 0, 4, layer, 0x90, 0x80, picture, frame, 0xaa]

/-- The intake of a layer that got some packets. -/
def layerIntake (ssrc : UInt32) (packets : List Octets) : Intake :=
  (Intake.empty ssrc vp8Video { capacity := 4 }).receive (packets.map fun raw => (0, raw))

/-- A key frame and another frame of the low layer. -/
def lowIntake : Intake := layerIntake 0x400 [layerOctets 0 100 10 0, layerOctets 0 101 11 1]

/-- A key frame of the high layer. -/
def highIntake : Intake := layerIntake 0x401 [layerOctets 1 7 30 0]

/-- What the publisher of both layers has. -/
def layersView : PublisherView where
  packet l number room := (if l = 0 then lowIntake else highIntake).stored number room
  clock _ := none

/-- The packets of the low layer, and then those of the high one. -/
def switchedLayers : List Turn :=
  let commands :=
    [.bind { ssrc := 777, codecs := [{ codec := vp8Video, payloadType := 96 }] },
      .setAvailable [0], .allocate unlimited] ++
    lowIntake.queue.map (fun a => .write a 0) ++
    [.setAvailable [0, 1], .allocate unlimited] ++
    highIntake.queue.map (fun a => .write a 1)
  commands.map fun command => { now := ⟨0, 0⟩, view := layersView, brs := Bitrates.zero, command }

/-- A compound that asks for the numbers 101 and 102. -/
def lostTwo : Octets := [0x81, 205, 0, 3, 0, 0, 0, 1, 0, 0, 3, 9, 0, 101, 0, 1]

theorem readAs_of_mem_layerIntake {a : Arrival} {ssrc : UInt32} {packets : List Octets}
    (h : a ∈ (layerIntake ssrc packets).queue) : a.ReadAs .vp8 := by
  have format : vp8Video.format = .vp8 := by decide
  have read := Intake.readAs_of_mem_receive (i := Intake.empty ssrc vp8Video { capacity := 4 }) _
    (fun _ he => nomatch he) a h
  exact format ▸ read

theorem switchedLayers_takesIntake : ∀ t ∈ switchedLayers, TakesIntake t.command := by
  intro t ht a layer hc
  refine ⟨.vp8, ?_⟩
  obtain ⟨command, hm, rfl⟩ := List.mem_map.1 ht
  change command = .write a layer at hc
  rw [hc] at hm
  simp only [List.mem_append, List.mem_cons, List.mem_map, List.not_mem_nil, or_false,
    reduceCtorEq, false_or, SubscriptionCommand.write.injEq] at hm
  rcases hm with ⟨a', ha', rfl, -⟩ | ⟨a', ha', rfl, -⟩
  · exact readAs_of_mem_layerIntake ha'
  · exact readAs_of_mem_layerIntake ha'

/-- The last two of the three packets can be repeated, when the subscriber asks for them. -/
theorem switchedLayers_repeatable :
    ∃ s₀ s h ms s' notices b low high,
      create ⟨"track", "stream"⟩ "peer" vp8Video { logCapacity := 4 } = .ok s₀ ∧
      play s₀ [] switchedLayers = .ok (s, h) ∧
      Rtcp.parseCompound lostTwo = .ok ms ∧ Rtcp.nackedNumbers ms = [101, 102] ∧
      s.handleRtcp ⟨0, 0⟩ lostTwo = .ok (s', notices) ∧
      s.copies = [] ∧ s'.copies.map SentPacket.target = [101, 102] ∧
      s'.binding = some b ∧ s'.queue = s.queue ∧ s.queue.stopped = false ∧
      s.queue.packets.length = 3 ∧ s.queue.packets.drop 1 = [low.outgoing, high.outgoing] ∧
      Repeatable h 4 layersView b 101 low ∧ Repeatable h 4 layersView b 102 high :=
  ⟨_, _, _, _, _, _, _, _, _, rfl, rfl, rfl, rfl, rfl, rfl, rfl, rfl, rfl, rfl, rfl, rfl,
    ⟨⟨_, .tail _ (.head _), rfl, by decide⟩, ⟨_, rfl, rfl⟩, rfl, 0, rfl, rfl⟩,
    ⟨⟨_, .head _, rfl, by decide⟩, ⟨_, rfl, rfl⟩, rfl, 1, rfl, rfl⟩⟩

/-- It asks for a packet of the layer that it left and for one of the layer that it gets now,
which has another number and another picture there, and gets both again. -/
theorem retransmission_repeats_switchedLayers :
    ∃ s₀ s h ms s' notices,
      create ⟨"track", "stream"⟩ "peer" vp8Video { logCapacity := 4 } = .ok s₀ ∧
      (∀ t ∈ switchedLayers, TakesIntake t.command) ∧ play s₀ [] switchedLayers = .ok (s, h) ∧
      Rtcp.parseCompound lostTwo = .ok ms ∧
      s.handleRtcp ⟨0, 0⟩ lostTwo = .ok (s', notices) ∧ s'.forwarder = s.forwarder ∧
      s.queue.packets.length = 3 ∧
      (s'.makeCopies layersView).queue.packets = s.queue.packets ++ s.queue.packets.drop 1 := by
  obtain ⟨s₀, s, h, ms, s', notices, b, low, high, hs, hp, hm, nacked, hs', none, targets, hb,
    queue, running, three, sent, hlow, hhigh⟩ := switchedLayers_repeatable
  obtain ⟨s'', notices', found, handled, forwarder, noted, -, -, made⟩ :=
    retransmission_repeats ⟨0, 0⟩ hs switchedLayers_takesIntake hp hm
  obtain ⟨rfl, -⟩ := Prod.mk.inj (Except.ok.inj (hs'.symm.trans handled))
  rw [none, List.nil_append] at noted
  obtain ⟨-, copies, packets, -, same, complete⟩ :=
    made s' layersView b hb noted (queue ▸ running)
  have all : ∀ n ∈ Rtcp.nackedNumbers ms, ∃ w, Repeatable h 4 layersView b n w := by
    rw [nacked]
    intro n hn
    rcases List.mem_pair.1 hn with rfl | rfl
    · exact ⟨low, hlow⟩
    · exact ⟨high, hhigh⟩
  have numbers := (complete all).trans (noted ▸ targets)
  obtain ⟨o₁, rest, rfl, n₁, numbers⟩ := List.map_eq_cons_iff.1 numbers
  obtain ⟨o₂, rest, rfl, n₂, numbers⟩ := List.map_eq_cons_iff.1 numbers
  obtain rfl := List.map_eq_nil_iff.1 numbers
  have first : o₁ = low.outgoing := same o₁ List.mem_cons_self low (n₁ ▸ hlow)
  have second : o₂ = high.outgoing :=
    same o₂ (List.mem_cons_of_mem _ List.mem_cons_self) high (n₂ ▸ hhigh)
  refine ⟨s₀, s, h, ms, s', notices, hs, switchedLayers_takesIntake, hp, hm, hs', forwarder,
    three, ?_⟩
  rw [packets, queue, sent, first, second]

end Subscription

end Simulcast
