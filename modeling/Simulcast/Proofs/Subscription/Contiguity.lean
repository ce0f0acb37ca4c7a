import Simulcast.Subscription.Command
import Simulcast.Proofs.Intake.Reading
import Simulcast.Proofs.Numbering.Drift
import Simulcast.Proofs.SendQueue

/-!
# The numbers that a subscriber gets

A VP8 subscription that is locked on a spatial layer gets its packets without loss and in
order, and adds packets of the relay's own. `sentNumbers_consecutive_iff` says for every
such course exactly when the numbers that it sends follow each other: when its `Drift`
never breaks. `sentNumbers_skip` is a course in which one does.

The packets come as an intake reads them (`ReadAsVp8`), each behind the one before it or
the first of another source (`LossFree`). `Serves` is what holds of the subscription all
along; `Serves.write` and `Serves.generate` are its steps.
-/

namespace Simulcast.Subscription

/-- The numbers of the packets that were handed to the queue. -/
def sentNumbers (s : Subscription) : List UInt16 :=
  s.queue.packets.map fun o => o.packet.header.number

/-! ## A course of packets -/

/-- The newest packet of a VP8 source, as an intake reads it. -/
structure ReadAsVp8 (a : Arrival) : Prop where
  head : a.head = true
  vp8 : Intake.descriptorOf .vp8 a.packet.payload = .ok a.vp8
  keyFrame : a.keyFrame = Intake.isKeyFrame .vp8 a.vp8 a.packet.payload

/-- A packet comes right behind the last one of its source, or it is the first of its
source and starts a key frame. -/
def FollowsOn (earlier : List Arrival) (a : Arrival) : Prop :=
  match earlier with
  | [] => a.keyFrame = true
  | p :: _ => if a.ssrc = p.ssrc then a.number = p.number + 1 else a.keyFrame = true

/-- A command that hands a packet of the layer to the subscription, without loss and in
order, or that adds packets of the relay's own. -/
def Delivers (layer : Int) (earlier : List Arrival) : SubscriptionCommand → Prop
  | .write a l => l = layer ∧ ReadAsVp8 a ∧ FollowsOn earlier a
  | .padding _ | .blankFrames | .close => True
  | _ => False

/-- The packets that came so far, the last one first. -/
def packetsWith (earlier : List Arrival) : SubscriptionCommand → List Arrival
  | .write a _ => a :: earlier
  | _ => earlier

/-- The commands deliver a layer without loss and in order. -/
def LossFree (layer : Int) : List Arrival → List (Moment × SubscriptionCommand) → Prop
  | _, [] => True
  | earlier, (_, c) :: cs => Delivers layer earlier c ∧ LossFree layer (packetsWith earlier c) cs

/-- What a packet tells of its source. A source is taken up as the first one as long as
every source so far had the identifier zero. -/
def sourceHappenings (earlier : List Arrival) (a : Arrival) : List Happening :=
  match earlier with
  | [] => []
  | p :: _ =>
    if a.ssrc = p.ssrc then []
    else if earlier.all fun q => q.ssrc == 0 then [.restarted (a.number - 1 - p.number)]
    else [.resourced]

/-- What happened to the numbers at a command that led from `s` to `s'`. -/
def happenings (s s' : Subscription) (earlier : List Arrival) :
    SubscriptionCommand → List Happening
  | .write a _ =>
    if s.forwarder.muted then []
    else sourceHappenings earlier a ++
      if s'.sentNumbers ≠ s.sentNumbers then [.sent]
      else if a.carriesMedia then [.filtered] else []
  | _ => if s'.sentNumbers ≠ s.sentNumbers then [.generated] else []

/-- A subscription after some commands, with what happened to its numbers. -/
def course (v : PublisherView) (brs : Bitrates) (s : Subscription) (earlier : List Arrival) :
    List (Moment × SubscriptionCommand) → Attempt (Subscription × List Happening)
  | [] => .ok (s, [])
  | (now, c) :: cs => do
    let (s', _) ← s.perform v brs now c
    let (last, later) ← course v brs s' (packetsWith earlier c) cs
    return (last, s.happenings s' earlier c ++ later)

/-! ## What holds all along -/

/-- The forwarder lets the packets of the layer pass, and knows the last one. -/
structure Passing (f : Forwarder) (layer : Int) (earlier : List Arrival) : Prop where
  live : f.gate.Live
  target : f.target.spatial = layer
  source : match earlier with
    | [] => f.lastSsrc = 0 ∧ f.started = false
    | p :: _ => f.current.spatial = layer ∧ f.lastSsrc = p.ssrc ∧ f.numbering.highest = p.number ∧
        f.started = !earlier.all fun q => q.ssrc == 0

/-- A bound VP8 subscription with what was delivered to it so far. -/
structure Serves (s : Subscription) (layer : Int) (earlier : List Arrival) : Prop where
  binding : ∃ b, s.activeBinding = some b ∧ b.format = .vp8
  running : s.queue.stopped = false
  kind : s.forwarder.kind = .video
  pictures : s.forwarder.pictures.isSome = true
  written : s.written = true → s.sentNumbers ≠ []
  unsent : earlier = [] → s.sentNumbers = []
  passing : s.forwarder.muted = true ∨ Passing s.forwarder layer earlier

/-- A subscription that was bound and locks on a layer, and has not sent anything yet. -/
structure Ready (s : Subscription) (layer : Int) : Prop where
  binding : ∃ b, s.activeBinding = some b ∧ b.format = .vp8
  queue : s.queue = {}
  written : s.written = false
  kind : s.forwarder.kind = .video
  pictures : s.forwarder.pictures.isSome = true
  live : s.forwarder.gate.Live
  target : s.forwarder.target.spatial = layer
  source : s.forwarder.lastSsrc = 0 ∧ s.forwarder.started = false

theorem Ready.serves {s : Subscription} {layer : Int} (h : Ready s layer) : Serves s layer [] where
  binding := h.binding
  running := by rw [h.queue]
  kind := h.kind
  pictures := h.pictures
  written hw := Bool.noConfusion (h.written.symm.trans hw)
  unsent _ := by rw [sentNumbers, h.queue]; rfl
  passing := .inr ⟨h.live, h.target, h.source⟩

variable {s s' : Subscription} {b : Binding} {a : Arrival} {layer : Int} {earlier : List Arrival}

/-! ## Handing packets over -/

theorem sentNumbers_send (hr : s.queue.stopped = false) (packet : Rtp.Packet) (isPadding : Bool) :
    (s.send b packet isPadding).sentNumbers = s.sentNumbers ++ [packet.header.number] := by
  rw [sentNumbers, send, SendQueue.packets_enqueue hr, List.map_append]
  rfl

theorem stopped_send (packet : Rtp.Packet) (isPadding : Bool) :
    (s.send b packet isPadding).queue.stopped = s.queue.stopped :=
  SendQueue.stopped_enqueue _

/-- What packets of the relay's own leave as it is. -/
structure Undisturbed (s s' : Subscription) : Prop where
  binding : s'.activeBinding = s.activeBinding
  stopped : s'.queue.stopped = s.queue.stopped
  written : s'.written = s.written
  gate : s'.forwarder.gate = s.forwarder.gate
  lastSsrc : s'.forwarder.lastSsrc = s.forwarder.lastSsrc
  started : s'.forwarder.started = s.forwarder.started
  pictures : s'.forwarder.pictures.isSome = s.forwarder.pictures.isSome

theorem Undisturbed.trans {s'' : Subscription} (h : Undisturbed s s') (h' : Undisturbed s' s'') :
    Undisturbed s s'' where
  binding := h'.binding.trans h.binding
  stopped := h'.stopped.trans h.stopped
  written := h'.written.trans h.written
  gate := h'.gate.trans h.gate
  lastSsrc := h'.lastSsrc.trans h.lastSsrc
  started := h'.started.trans h.started
  pictures := h'.pictures.trans h.pictures

theorem undisturbed_send (packet : Rtp.Packet) (isPadding : Bool) :
    Undisturbed s (s.send b packet isPadding) :=
  ⟨rfl, stopped_send packet isPadding, rfl, rfl, rfl, rfl, rfl⟩

/-- Packets of the relay's own keep the subscription in service. -/
theorem Serves.undisturbed (h : Serves s layer earlier) (hu : Undisturbed s s')
    (hh : s'.forwarder.numbering.highest = s.forwarder.numbering.highest)
    (hs : s'.sentNumbers = [] ↔ s.sentNumbers = []) : Serves s' layer earlier where
  binding := hu.binding ▸ h.binding
  running := hu.stopped.trans h.running
  kind := (congrArg Gate.kind hu.gate).trans h.kind
  pictures := hu.pictures.trans h.pictures
  written hw := mt hs.1 (h.written (hu.written.symm.trans hw))
  unsent he := hs.2 (h.unsent he)
  passing := by
    refine h.passing.imp (congrArg Gate.muted hu.gate).trans fun hp => ⟨?_, ?_, ?_⟩
    · rw [hu.gate]
      exact hp.live
    · exact (congrArg (fun g => g.target.spatial) hu.gate).trans hp.target
    · have source := hp.source
      have sent : s'.forwarder.current.spatial = s.forwarder.current.spatial :=
        congrArg Gate.sent hu.gate
      cases earlier with
      | nil => exact ⟨hu.lastSsrc.trans source.1, hu.started.trans source.2⟩
      | cons p ps =>
        exact ⟨sent.trans source.1, hu.lastSsrc.trans source.2.1, hh.trans source.2.2.1,
          hu.started.trans source.2.2.2⟩

/-! ## Packets of the source -/

theorem ReadAsVp8.parsed (h : ReadAsVp8 a) (hm : a.carriesMedia = true) :
    ∃ incoming, a.vp8 = some incoming ∧ Vp8.Descriptor.parse a.packet.payload = .ok incoming := by
  have described : a.vp8.isSome = true := (Intake.isSome_of_descriptorOf h.vp8).trans hm
  obtain ⟨incoming, hi⟩ := Option.isSome_iff_exists.1 described
  exact ⟨incoming, hi, Intake.parse_of_descriptorOf (hi ▸ h.vp8)⟩

/-- A packet that starts a key frame has media. -/
theorem ReadAsVp8.carriesMedia (h : ReadAsVp8 a) (hk : a.keyFrame = true) :
    a.carriesMedia = true := by
  rw [Arrival.carriesMedia, Intake.media_of_isKeyFrame h.vp8 (h.keyFrame.symm.trans hk)]
  rfl

/-- A packet that was placed can be written. -/
theorem payloadFor_ok {d : Decision} (h : ReadAsVp8 a) (hm : a.carriesMedia = true)
    (hw : d.Writable a) : ∃ payload, payloadFor a d = .ok payload := by
  obtain ⟨incoming, hi, hp⟩ := h.parsed hm
  obtain ⟨fits, size, six⟩ := Vp8.Descriptor.parse_fits hp
  obtain ⟨outgoing, ho, fits', seven⟩ := hw incoming hi fits six
  have small : outgoing.size < Vp8.sizeLimit := Nat.lt_of_le_of_lt seven (by decide)
  rw [payloadFor, ho, hi]
  exact Vp8.replaceDescriptor_of_fits size fits' small

/-- How a source is taken up: the source happens to the drift, and then the packet is the
next one. Only a key frame is the first of a source. -/
theorem takeUp_reaches {f : Forwarder} {d : Drift} {numbers : List UInt16}
    (hp : Passing f layer earlier) (ha : FollowsOn earlier a) (hd : d.Stands f.numbering numbers)
    (hn : earlier = [] → numbers = []) :
    let d' := d.nextAll (sourceHappenings earlier a)
    d'.Reaches (f.takeUp a).numbering numbers ∧
      (d' ≠ .fresh → a.number = (f.takeUp a).numbering.highest + 1) ∧
      (a.keyFrame = false → a.number = (f.takeUp a).numbering.highest + 1 ∧
        (f.takeUp a).numbering = f.numbering ∧ sourceHappenings earlier a = []) := by
  dsimp only
  rw [Forwarder.numbering_takeUp]
  cases earlier with
  | nil =>
    have none := hn rfl
    obtain rfl := hd.fresh_iff.2 none
    exact ⟨none, fun h => absurd rfl h, fun hk => Bool.noConfusion (hk.symm.trans ha)⟩
  | cons p ps =>
    obtain ⟨-, ssrc, highest, started⟩ := hp.source
    simp only [FollowsOn] at ha
    by_cases hs : a.ssrc = p.ssrc
    · rw [if_pos hs] at ha
      have same : (f.takeSource a (f.ticksSince a)).numbering = f.numbering := by
        rw [Forwarder.takeSource, if_pos (ssrc.trans hs.symm)]
      rw [sourceHappenings, if_pos hs, same, highest]
      exact ⟨hd.1, fun _ => ha, fun _ => ⟨ha, rfl, rfl⟩⟩
    · rw [if_neg hs] at ha
      have change : ¬f.lastSsrc = a.ssrc := fun he => hs (he.symm.trans ssrc)
      rw [sourceHappenings, if_neg hs, Forwarder.takeSource, if_neg change]
      dsimp only
      rw [started]
      refine ⟨?_, fun _ => ?_, fun hk => Bool.noConfusion (hk.symm.trans ha)⟩
      · cases (p :: ps).all fun q => q.ssrc == 0 with
        | true =>
          rw [← highest]
          exact hd.restarted
        | false => exact hd.resourced _
      · cases (p :: ps).all fun q => q.ssrc == 0 with
        | true => exact (UInt16.sub_add_cancel _ _).symm
        | false => exact (UInt16.sub_add_cancel _ _).symm

/-- What a packet does to a subscription whose forwarder decided on it without asking for
a key frame. -/
theorem write_of_forward {f' : Forwarder} {d : Decision} {now : Moment}
    (hb : s.activeBinding = some b) (hf : s.forwarder.forward a layer = (f', .ok d))
    (hask : d.askKeyFrame = false) :
    s.write now a layer =
      ({ s with lastPacket := now.unixMillis, forwarder := f' }.carryOut b a layer d).map
        fun (s, r) => (s, [], r) := by
  have bound : { s with lastPacket := now.unixMillis }.activeBinding = some b := hb
  simp only [write, bound, hf, hask, Bool.false_eq_true, if_false]

/-- What a packet leaves as it is, with the forwarder that decided on it. -/
structure Took (s : Subscription) (f' : Forwarder) (s' : Subscription) : Prop where
  binding : s'.activeBinding = s.activeBinding
  stopped : s'.queue.stopped = s.queue.stopped
  forwarder : s'.forwarder = f'

theorem write_dropped {f' : Forwarder} {d : Decision} (now : Moment)
    (hb : s.activeBinding = some b) (hf : s.forwarder.forward a layer = (f', .ok d))
    (hask : d.askKeyFrame = false) (hd : d.drop = true) :
    ∃ s', s.write now a layer = .ok (s', [], .ok ()) ∧ s.Took f' s' ∧
      s'.sentNumbers = s.sentNumbers ∧ s'.written = s.written := by
  rw [write_of_forward hb hf hask, carryOut, hd]
  exact ⟨_, rfl, ⟨rfl, rfl, rfl⟩, rfl, rfl⟩

theorem write_sent {f' : Forwarder} {d : Decision} {p : Placement} {payload : Octets} (now : Moment)
    (hb : s.activeBinding = some b) (hf : s.forwarder.forward a layer = (f', .ok d))
    (hask : d.askKeyFrame = false) (hd : d.drop = false) (hp : d.place = some p)
    (hl : payloadFor a d = .ok payload) (hr : s.queue.stopped = false) :
    ∃ s', s.write now a layer = .ok (s', [], .ok ()) ∧ s.Took f' s' ∧
      s'.sentNumbers = s.sentNumbers ++ [p.number] := by
  rw [write_of_forward hb hf hask, carryOut, hd, hp]
  simp only [sendMedia, hl, Except.map]
  exact ⟨_, rfl, ⟨rfl, stopped_send _ _, rfl⟩, sentNumbers_send hr _ _⟩

theorem Serves.took {f' : Forwarder} (h : Serves s layer earlier) (ht : s.Took f' s')
    (hk : f'.kind = .video) (hpics : f'.pictures.isSome = true)
    (hw : s'.written = true → s'.sentNumbers ≠ [])
    (hp : f'.muted = true ∨ Passing f' layer (a :: earlier)) : Serves s' layer (a :: earlier) where
  binding := ht.binding ▸ h.binding
  running := ht.stopped.trans h.running
  kind := ht.forwarder ▸ hk
  pictures := ht.forwarder ▸ hpics
  written := hw
  unsent he := absurd he (List.cons_ne_nil a earlier)
  passing := ht.forwarder ▸ hp

/-- The forwarder passes the packets of the layer on, and knows this one. -/
theorem passing_of_forward {f f' g : Forwarder} (hp : Passing f layer earlier)
    (hs : Forwarder.SameBehind f g) (hg : g.gate = f.gate.take a.keyFrame layer)
    (hc : g.current.spatial = layer) (ht : g.TookUp a f')
    (hh : f'.numbering.highest = a.number) : Passing f' layer (a :: earlier) where
  live := by
    rw [ht.gate, hg, Gate.Live, Gate.take_muted, Gate.take_target]
    exact hp.live
  target := by
    have target := congrArg Gate.target (ht.gate.trans hg)
    rw [Gate.take_target] at target
    exact (congrArg Layers.spatial target).trans hp.target
  source := by
    refine ⟨(congrArg Gate.sent ht.gate).trans hc, ht.lastSsrc, hh, ?_⟩
    rw [ht.started, hs.started, hs.lastSsrc, List.all_cons]
    have source := hp.source
    cases earlier with
    | nil =>
      rw [source.1, source.2, List.all_nil, Bool.false_or, Bool.and_true, bne, BEq.comm]
    | cons p ps =>
      rw [source.2.1, source.2.2.2]
      cases hall : (p :: ps).all fun q => q.ssrc == 0 with
      | true =>
        have zero : p.ssrc = 0 := by
          simp only [List.all_cons, Bool.and_eq_true, beq_iff_eq] at hall
          exact hall.1
        rw [zero, Bool.not_true, Bool.false_or, Bool.and_true, bne, BEq.comm]
      | false => simp only [Bool.not_false, Bool.true_or, Bool.and_false]

/-- What a passing forwarder makes of the next packet. -/
theorem Passing.forward {f : Forwarder} {d : Drift} {numbers : List UInt16}
    (hp : Passing f layer earlier) (hk : f.kind = .video) (hpics : f.pictures.isSome = true)
    (hr : ReadAsVp8 a) (ha : FollowsOn earlier a) (hd : d.Stands f.numbering numbers)
    (hn : earlier = [] → numbers = []) :
    let d' := d.nextAll (sourceHappenings earlier a)
    ∃ f' out, f.forward a layer = (f', .ok out) ∧ out.askKeyFrame = false ∧ f'.kind = .video ∧
      f'.pictures.isSome = true ∧ Passing f' layer (a :: earlier) ∧
      ((∃ p, out.drop = false ∧ out.place = some p ∧ a.carriesMedia = true ∧ out.Writable a ∧
          (d'.next .sent).Stands f'.numbering (numbers ++ [p.number])) ∨
        out.drop = true ∧
          (d'.nextAll (if a.carriesMedia = true then [.filtered] else [])).Stands f'.numbering
            numbers) := by
  intro d'
  have locks : f.current.spatial = layer ∨ a.keyFrame = true := by
    have source := hp.source
    cases earlier with
    | nil => exact .inr ha
    | cons p ps => exact .inl source.1
  obtain ⟨g, hg, same, gate, current⟩ := Forwarder.forward_locked hk hp.live hp.target locks
  obtain ⟨reaches, next, plain⟩ := takeUp_reaches hp ha hd hn
  have plainOf : a.carriesMedia = false → a.keyFrame = false := fun hm =>
    Bool.eq_false_iff.2 fun hkey => Bool.noConfusion (hm.symm.trans (hr.carriesMedia hkey))
  rw [← same.numbering_takeUp] at reaches next plain
  obtain ⟨outcome, took⟩ :
      PacketOutcome (g.takeUp a).numbering a (g.placePacket a {}).1.numbering (g.placePacket a {}).2 ∧
        g.TookUp a (g.placePacket a {}).1 :=
    Forwarder.placePacket_outcome (same.pictures ▸ hpics) hr.head rfl
      (fun hm => (hr.parsed hm).imp fun _ hi => hi.1) fun hm => (plain (plainOf hm)).1
  have stands : a.carriesMedia = false → d'.Stands (g.takeUp a).numbering numbers := by
    intro hm
    obtain ⟨-, sameNumbering, none⟩ := plain (plainOf hm)
    rw [show d' = d.nextAll (sourceHappenings earlier a) from rfl, none, sameNumbering]
    exact hd
  obtain ⟨out, hout, result⟩ := reaches.outcome outcome next stands
  refine ⟨(g.placePacket a {}).1, out, hg.trans (Prod.ext rfl hout), ?_, ?_, took.pictures, ?_, result⟩
  · exact Forwarder.placePacket_asks g a hout
  · have kind := congrArg Gate.kind (took.gate.trans gate)
    rw [Gate.take_kind] at kind
    exact kind.trans hk
  · exact passing_of_forward hp same gate current took outcome.highest

/-- A packet of the source keeps the subscription in service, and the drift with it. -/
theorem Serves.write {d : Drift} (h : Serves s layer earlier) (now : Moment) (hr : ReadAsVp8 a)
    (ha : FollowsOn earlier a) (hd : d.Stands s.forwarder.numbering s.sentNumbers) :
    ∃ s' notices r, s.write now a layer = .ok (s', notices, r) ∧ Serves s' layer (a :: earlier) ∧
      (d.nextAll (s.happenings s' earlier (.write a layer))).Stands s'.forwarder.numbering
        s'.sentNumbers := by
  obtain ⟨b, hb, -⟩ := h.binding
  rcases h.passing with hmuted | hp
  · have still : s.forwarder.forward a layer = (s.forwarder, .ok .leaveOut) :=
      Forwarder.forward_of_not_live h.kind fun hl => Bool.noConfusion (hmuted.symm.trans hl.1)
    obtain ⟨s', hs', took, sent, written⟩ := write_dropped now hb still rfl rfl
    refine ⟨s', [], .ok (), hs', ?_, ?_⟩
    · exact h.took took h.kind h.pictures (fun hw => sent ▸ h.written (written ▸ hw)) (.inl hmuted)
    · rw [happenings, if_pos hmuted, took.forwarder, sent]
      exact hd
  · have unmuted : ¬s.forwarder.muted = true := Bool.eq_false_iff.1 hp.live.1
    obtain ⟨f', out, hf, hask, hk, hpics, hp', ⟨p, hdrop, hplace, hm, hw, stands⟩ | ⟨hdrop, stands⟩⟩ :=
      hp.forward h.kind h.pictures hr ha hd h.unsent
    · obtain ⟨payload, hl⟩ := payloadFor_ok hr hm hw
      obtain ⟨s', hs', took, sent⟩ := write_sent now hb hf hask hdrop hplace hl h.running
      have more : s'.sentNumbers ≠ [] := by
        rw [sent]
        exact List.concat_ne_nil _ _
      refine ⟨s', [], .ok (), hs', h.took took hk hpics (fun _ => more) (.inr hp'), ?_⟩
      rw [happenings, if_neg unmuted, if_pos, Drift.nextAll_append, took.forwarder, sent]
      · exact stands
      · rw [sent]
        exact fun he => absurd (List.append_right_eq_self.1 he) (List.cons_ne_nil _ _)
    · obtain ⟨s', hs', took, sent, written⟩ := write_dropped now hb hf hask hdrop
      refine ⟨s', [], .ok (), hs', ?_, ?_⟩
      · exact h.took took hk hpics (fun hw => sent ▸ h.written (written ▸ hw)) (.inr hp')
      · rw [happenings, if_neg unmuted, if_neg (not_not_intro sent), Drift.nextAll_append,
          took.forwarder, sent]
        exact stands

/-! ## Packets of the relay's own -/

/-- What packets of the relay's own add: nothing, or some packets behind the last number
given out. -/
inductive Adds (s s' : Subscription) : Prop where
  | nothing (hu : Undisturbed s s') (sent : s'.sentNumbers = s.sentNumbers)
      (numbering : s'.forwarder.numbering = s.forwarder.numbering)
  | packets (count : Nat) (hc : 0 < count) (hw : s.written = true) (hu : Undisturbed s s')
      (sent : s'.sentNumbers =
        s.sentNumbers ++ numbersAfter s.forwarder.numbering.last.number count)
      (highest : s'.forwarder.numbering.highest = s.forwarder.numbering.highest)
      (reach : s'.forwarder.numbering.reach =
        s.forwarder.numbering.reach + UInt16.ofNat count)
      (last : s'.forwarder.numbering.last.number =
        s.forwarder.numbering.last.number + UInt16.ofNat count)

theorem Undisturbed.refl (s : Subscription) : Undisturbed s s := ⟨rfl, rfl, rfl, rfl, rfl, rfl, rfl⟩

/-- They keep the subscription in service, and the drift with it. -/
theorem Serves.adds {d : Drift} (h : Serves s layer earlier) (ha : Adds s s')
    (hd : d.Stands s.forwarder.numbering s.sentNumbers) :
    Serves s' layer earlier ∧
      (d.nextAll (if s'.sentNumbers ≠ s.sentNumbers then [.generated] else [])).Stands
        s'.forwarder.numbering s'.sentNumbers := by
  cases ha with
  | nothing hu sent numbering =>
    refine ⟨h.undisturbed hu (by rw [numbering]) (by rw [sent]), ?_⟩
    rw [if_neg (not_not_intro sent), numbering, sent]
    exact hd
  | packets count hc hw hu sent highest reach last =>
    have some : s.sentNumbers ≠ [] := h.written hw
    have more : numbersAfter s.forwarder.numbering.last.number count ≠ [] := by
      intro he
      have head : (numbersAfter s.forwarder.numbering.last.number count).head? = _ :=
        head?_numbersAfter hc
      rw [he] at head
      cases head
    refine ⟨h.undisturbed hu highest ?_, ?_⟩
    · rw [sent]
      exact iff_of_false (fun he => some (List.append_eq_nil_iff.1 he).1) some
    · rw [sent, if_pos fun he => more (List.append_right_eq_self.1 he)]
      exact hd.generated (mt hd.fresh_iff.1 some) hc reach last

theorem foldl_send (hr : s.queue.stopped = false) (packets : List Rtp.Packet) (isPadding : Bool) :
    Undisturbed s (packets.foldl (fun s p => s.send b p isPadding) s) ∧
      (packets.foldl (fun s p => s.send b p isPadding) s).sentNumbers =
        s.sentNumbers ++ packets.map (fun p => p.header.number) ∧
      (packets.foldl (fun s p => s.send b p isPadding) s).forwarder = s.forwarder := by
  induction packets generalizing s with
  | nil => exact ⟨.refl s, (List.append_nil _).symm, rfl⟩
  | cons p ps ih =>
    obtain ⟨hu, sent, forwarder⟩ := ih ((stopped_send p isPadding).trans hr)
    refine ⟨(undisturbed_send p isPadding).trans hu, ?_, forwarder⟩
    rw [List.foldl_cons, sent, sentNumbers_send hr, List.map_cons, List.append_assoc]
    rfl

theorem canGenerate_some (h : s.canGenerate = some b) :
    s.written = true ∧ s.activeBinding = some b := by
  unfold canGenerate at h
  split at h
  · cases h
  · rename_i hw
    exact ⟨of_not_not fun hne => hw (.inr (by simpa using hne)), h⟩

/-- A subscription with another numbering in its forwarder. -/
theorem undisturbed_numbering (n : Numbering) :
    Undisturbed s { s with forwarder := { s.forwarder with numbering := n } } :=
  ⟨rfl, rfl, rfl, rfl, rfl, rfl, rfl⟩

/-- Packets are added at generated places, once the forwarder has the numbering behind
them. -/
theorem adds_of_generate {count : Nat} {clockRate frameRate : UInt32} {force : Bool}
    {places : List Place} (hc : 0 < count) (hw : s.written = true)
    (hg : (s.forwarder.numbering.generate count clockRate frameRate force).2 = .ok places)
    (hu : Undisturbed s s') (sent : s'.sentNumbers = s.sentNumbers ++ places.map Place.number)
    (hn : s'.forwarder.numbering =
      (s.forwarder.numbering.generate count clockRate frameRate force).1) : Adds s s' := by
  obtain ⟨numbers, highest, reach, last⟩ := Numbering.generate_ok hc hg
  rw [← hn] at highest reach last
  exact .packets count hc hw hu (by rw [sent, numbers]) highest reach last

theorem writePadding_adds (hr : s.queue.stopped = false) (budget : Nat) :
    Adds s (s.writePadding budget).1 := by
  unfold writePadding
  split
  · exact .nothing (.refl s) rfl rfl
  · rename_i b hb
    have can : s.canGenerate = some b := by
      split at hb
      · cases hb
      · exact hb
    dsimp only
    split
    · exact .nothing (.refl s) rfl rfl
    · rename_i hcount
      simp only [Forwarder.padding]
      split
      · rename_i e he
        exact .nothing (undisturbed_numbering _) rfl (Numbering.generate_refused he)
      · rename_i places hp
        have written := (canGenerate_some can).1
        generalize hn : (s.forwarder.numbering.generate (s.paddingCount budget) 0 0
          (s.forwarder.target = .none)).1 = n
        have later := undisturbed_numbering (s := s) n
        obtain ⟨hu, sent, forwarder⟩ :=
          foldl_send (b := b) (later.stopped.trans hr) (places.map (paddingPacket b)) true
        refine adds_of_generate (Nat.pos_of_ne_zero hcount) written hp (later.trans hu) ?_ ?_
        · rw [sent, List.map_map]
          rfl
        · rw [forwarder]
          exact hn.symm

/-- A blank VP8 frame always has a payload. -/
theorem blankPayload_vp8 (hp : s.forwarder.pictures.isSome = true) (endsFrame : Bool) :
    ∃ f' payload, s.blankPayload .vp8 endsFrame = ({ s with forwarder := f' }, .ok payload) ∧
      Undisturbed s { s with forwarder := f' } ∧ f'.numbering = s.forwarder.numbering := by
  obtain ⟨p, hp⟩ := Option.isSome_iff_exists.1 hp
  have fits := Vp8.PictureNumbering.generate_fits p (!endsFrame)
  simp only [blankPayload, if_true, Forwarder.blankDescriptor, hp,
    Vp8.Descriptor.writeInto_of_fits fits, Except.map]
  exact ⟨_, _, rfl, ⟨rfl, rfl, rfl, rfl, rfl, rfl, by rw [hp]; rfl⟩, rfl⟩

theorem sendBlankFrames_vp8 (hb : b.format = .vp8) (hr : s.queue.stopped = false)
    (hp : s.forwarder.pictures.isSome = true) (places : List Place) (endsFrame : Bool) :
    ∃ s', sendBlankFrames b s places endsFrame = (s', .ok ()) ∧ Undisturbed s s' ∧
      s'.sentNumbers = s.sentNumbers ++ places.map Place.number ∧
      s'.forwarder.numbering = s.forwarder.numbering := by
  induction places generalizing s endsFrame with
  | nil => exact ⟨s, rfl, .refl s, (List.append_nil _).symm, rfl⟩
  | cons place places ih =>
    obtain ⟨f', payload, hpay, hu, numbering⟩ := blankPayload_vp8 hp endsFrame
    simp only [sendBlankFrames, hb, hpay]
    let header : Rtp.Header :=
      { marker := true, payloadType := b.payloadType, number := place.number
        timestamp := place.timestamp, ssrc := b.ssrc }
    have hu' : Undisturbed s ({ s with forwarder := f' }.send b { header, payload } false) :=
      hu.trans (undisturbed_send _ _)
    obtain ⟨s', hs', hu'', sent, numbering'⟩ :=
      ih (hu'.stopped.trans hr) (hu'.pictures.trans hp) false
    refine ⟨s', hs', hu'.trans hu'', ?_, numbering'.trans numbering⟩
    rw [sent, sentNumbers_send (hu.stopped.trans hr), List.map_cons, List.append_assoc]
    rfl

/-- Blank frames are added, or refused; no buffer runs over. -/
theorem writeBlankFrames_adds (h : Serves s layer earlier) :
    Adds s s.writeBlankFrames.1 ∧
      ((∃ n, s.writeBlankFrames.2 = .ok n) ∨ ∃ e, s.writeBlankFrames.2 = .error (.fault e)) := by
  obtain ⟨b, hb, hfmt⟩ := h.binding
  unfold writeBlankFrames
  split
  · exact ⟨.nothing (.refl s) rfl rfl, .inl ⟨0, rfl⟩⟩
  · rename_i b' hb'
    obtain ⟨hw, hactive⟩ := canGenerate_some hb'
    obtain rfl : b = b' := Option.some.inj (hb.symm.trans hactive)
    rw [hfmt, if_neg PayloadFormat.noConfusion]
    simp only [Forwarder.blankFrames]
    generalize (!s.forwarder.numbering.isOnFrameBoundary) = endsFrame
    have some : 0 < Forwarder.blankFrameCount + if endsFrame = true then 1 else 0 :=
      Nat.add_pos_left (by decide) _
    generalize (Forwarder.blankFrameCount + if endsFrame = true then 1 else 0) = count at some ⊢
    cases hg : (s.forwarder.numbering.generate count s.forwarder.codec.clockRate
        Forwarder.blankFrameRate endsFrame).2 with
    | error e =>
      exact ⟨.nothing (undisturbed_numbering _) rfl (Numbering.generate_refused hg), .inr ⟨e, rfl⟩⟩
    | ok places =>
      generalize hn : (s.forwarder.numbering.generate count s.forwarder.codec.clockRate
        Forwarder.blankFrameRate endsFrame).1 = n
      have later := undisturbed_numbering (s := s) n
      obtain ⟨s', hs', hu, sent, numbering⟩ := sendBlankFrames_vp8 hfmt (later.stopped.trans h.running)
        (later.pictures.trans h.pictures) places endsFrame
      simp only [Except.map, hs']
      refine ⟨adds_of_generate some hw hg (later.trans hu) sent ?_, .inl ⟨_, rfl⟩⟩
      rw [numbering]
      exact hn.symm

/-- To close a subscription mutes it, and adds blank frames the first time. -/
theorem Serves.close {d : Drift} (h : Serves s layer earlier)
    (hd : d.Stands s.forwarder.numbering s.sentNumbers) :
    Serves s.close.1 layer earlier ∧
      (d.nextAll (if s.close.1.sentNumbers ≠ s.sentNumbers then [.generated] else [])).Stands
        s.close.1.forwarder.numbering s.close.1.sentNumbers := by
  unfold Subscription.close
  split
  · rw [if_neg (not_not_intro rfl)]
    exact ⟨h, hd⟩
  · have muted : Serves { s with closed := true, forwarder := (s.forwarder.mute true).1 } layer earlier :=
      ⟨h.binding, h.running, h.kind, h.pictures, h.written, h.unsent, .inl rfl⟩
    exact muted.adds (writeBlankFrames_adds muted).1 hd

/-! ## Every course -/

/-- A command that delivers a layer keeps the subscription in service, and the drift with
it. -/
theorem Serves.perform {d : Drift} {c : SubscriptionCommand} (h : Serves s layer earlier)
    (v : PublisherView) (brs : Bitrates) (now : Moment) (hc : Delivers layer earlier c)
    (hd : d.Stands s.forwarder.numbering s.sentNumbers) :
    ∃ s' r, s.perform v brs now c = .ok (s', r) ∧ Serves s' layer (packetsWith earlier c) ∧
      (d.nextAll (s.happenings s' earlier c)).Stands s'.forwarder.numbering s'.sentNumbers := by
  cases c with
  | write a l =>
    obtain ⟨rfl, hr, ha⟩ := hc
    obtain ⟨s', notices, r, hs', serves, stands⟩ := h.write now hr ha hd
    simp only [Subscription.perform, hs', Except.map]
    exact ⟨s', _, rfl, serves, stands⟩
  | padding budget => exact ⟨_, _, rfl, h.adds (writePadding_adds h.running budget) hd⟩
  | blankFrames =>
    obtain ⟨adds, result⟩ := writeBlankFrames_adds h
    obtain ⟨serves, stands⟩ := h.adds adds hd
    simp only [Subscription.perform]
    rcases result with ⟨n, hn⟩ | ⟨e, he⟩
    · rw [hn]
      exact ⟨_, _, rfl, serves, stands⟩
    · rw [he]
      exact ⟨_, _, rfl, serves, stands⟩
  | close => exact ⟨_, _, rfl, h.close hd⟩
  | _ => exact absurd hc id

theorem Serves.course {d : Drift} (v : PublisherView) (brs : Bitrates)
    (cs : List (Moment × SubscriptionCommand)) (h : Serves s layer earlier)
    (hcs : LossFree layer earlier cs) (hd : d.Stands s.forwarder.numbering s.sentNumbers) :
    ∃ last hs, course v brs s earlier cs = .ok (last, hs) ∧
      (d.nextAll hs).Stands last.forwarder.numbering last.sentNumbers := by
  induction cs generalizing s earlier d with
  | nil => exact ⟨s, [], rfl, hd⟩
  | cons step cs ih =>
    obtain ⟨now, c⟩ := step
    obtain ⟨s', r, hs', serves, stands⟩ := h.perform v brs now hcs.1 hd
    obtain ⟨last, later, hlast, stands'⟩ := ih serves hcs.2 stands
    refine ⟨last, s.happenings s' earlier c ++ later, ?_, ?_⟩
    · simp only [Subscription.course, hs', Bind.bind, Except.bind, hlast, pure, Except.pure]
    · rw [Drift.nextAll_append]
      exact stands'

/-- Every course of a VP8 subscription that locks on a layer, from its first packet on:
packets without loss and in order, of any temporal layers and of any sources that start
with a key frame, with padding and blank frames at any time, until it is closed and
beyond. No command fails, and the numbers that were handed to the queue follow each other
if and only if the drift does not break. -/
theorem sentNumbers_consecutive_iff (s : Subscription) (layer : Int) (v : PublisherView)
    (brs : Bitrates) (cs : List (Moment × SubscriptionCommand)) (hs : Ready s layer)
    (hcs : LossFree layer [] cs) :
    ∃ last hs, s.course v brs [] cs = .ok (last, hs) ∧
      (Consecutive last.sentNumbers ↔ Drift.fresh.nextAll hs ≠ .broken) := by
  have start : Drift.fresh.Stands s.forwarder.numbering s.sentNumbers :=
    Drift.stands_fresh (hs.serves.unsent rfl)
  obtain ⟨last, happened, hlast, stands⟩ := hs.serves.course v brs cs hcs start
  exact ⟨last, happened, hlast, stands.consecutive_iff⟩

/-! ## A course that skips a number -/

/-- A packet of one VP8 source, with its number, its picture and its temporal layer. -/
def vp8Packet (number : UInt16) (picture tid : UInt8) (keyFrame : Bool) : Arrival :=
  let payload := [0x90, 0xe0, picture, picture, tid <<< 6 ||| 0x20, if keyFrame then 0 else 1]
  let vp8 := (Vp8.Descriptor.parse payload).toOption
  { head := true
    time := 0
    packet := { header := { marker := true, number, ssrc := 1111 }, payload }
    vp8
    keyFrame := Intake.isKeyFrame .vp8 vp8 payload }

/-- The codec of the example. -/
def vp8Codec : Codec := { mime := "video/VP8", clockRate := 90000 }

/-- A new subscription to a video of that codec. -/
def vp8Subscription : Subscription :=
  { name := ⟨"track", "stream"⟩
    peer := "peer"
    forwarder := Forwarder.forCodec vp8Codec .video
    maxPadding := 255
    log := some (SendLog.ofCapacity 500) }

/-- The subscription once it is bound and its lowest pair of layers is aimed for. -/
def aimedLow : Subscription :=
  let s := (vp8Subscription.bind {
    ssrc := 777, codecs := [{ codec := vp8Codec, payloadType := 96 }] }).1
  let s := (s.boundTemporal 0).1
  let s := (s.setAvailable [0]).1
  (s.allocate unlimited Bitrates.zero).1

theorem aimedLow_ready : Ready aimedLow 0 :=
  ⟨⟨_, rfl, rfl⟩, rfl, rfl, rfl, rfl, ⟨rfl, by decide⟩, rfl, rfl, rfl⟩

/-- A key frame, a packet that is filtered out for its temporal layer, padding, and a
packet of the base layer. -/
def paddedBehindFiltered : List (Moment × SubscriptionCommand) :=
  [.write (vp8Packet 100 10 0 true) 0, .write (vp8Packet 101 11 1 false) 0, .padding 275,
    .write (vp8Packet 102 12 0 false) 0].map fun c => (⟨0, 0⟩, c)

theorem paddedBehindFiltered_lossFree : LossFree 0 [] paddedBehindFiltered :=
  ⟨⟨rfl, ⟨rfl, rfl, rfl⟩, rfl⟩, ⟨rfl, ⟨rfl, rfl, rfl⟩, rfl⟩, trivial, ⟨rfl, ⟨rfl, rfl, rfl⟩, rfl⟩,
    trivial⟩

/-- Padding behind a filtered packet skips the number that the packet gave back, and the
next packet of the source repeats that of the padding. -/
theorem sentNumbers_skip :
    create vp8Subscription.name "peer" vp8Codec {} = .ok vp8Subscription ∧ Ready aimedLow 0 ∧
      LossFree 0 [] paddedBehindFiltered ∧ ∀ v, ∃ last hs,
        aimedLow.course v Bitrates.zero [] paddedBehindFiltered = .ok (last, hs) ∧
          last.sentNumbers = [100, 102, 102] ∧ ¬Consecutive last.sentNumbers := by
  have numbers : ¬Consecutive [100, 102, 102] := by
    intro h
    exact absurd (List.isChain_cons_cons.1 h).1 (by decide)
  exact ⟨rfl, aimedLow_ready, paddedBehindFiltered_lossFree, fun v => ⟨_, _, rfl, rfl, numbers⟩⟩

/-- The condition on the drift, for that course. -/
theorem paddedBehindFiltered_drift :
    Ready aimedLow 0 ∧ LossFree 0 [] paddedBehindFiltered ∧ ∀ v, ∃ last hs,
      aimedLow.course v Bitrates.zero [] paddedBehindFiltered = .ok (last, hs) ∧
        (Consecutive last.sentNumbers ↔ Drift.fresh.nextAll hs ≠ .broken) := by
  refine ⟨aimedLow_ready, paddedBehindFiltered_lossFree, fun v => ?_⟩
  exact sentNumbers_consecutive_iff aimedLow 0 v Bitrates.zero paddedBehindFiltered aimedLow_ready
    paddedBehindFiltered_lossFree

end Simulcast.Subscription
