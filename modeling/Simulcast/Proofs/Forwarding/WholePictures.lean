import Simulcast.Proofs.Forwarding.Temporal
import Simulcast.Proofs.Intake.Reading
import Simulcast.Proofs.Vp8.PictureRun

/-!
# Pictures forwarded as a whole

The packets of a source come in order on the layer that a forwarder is locked to, and
allocation changes the temporal layers that it aims for between any two of them. Each
`Passage` of a packet is written down with the picture that it belongs to and the descriptor
that it was sent with, if it was.

`wholePictures_iff` says when every picture is sent as a whole, under one id of its own, or
left out as a whole: if and only if no packet is within the layers aimed for of which an
earlier one of the same picture was left out (`Passage.CaughtUp`). To lower the target does
no harm. That holds as long as the pictures of the source are counted below 2³¹
(`Passage.Counted`). `splitPicture_sent` is a picture that loses its first packet to a target
that is raised behind it, and goes on under the id of the picture before it.

A picture in flight is one that was `sent` so far or not, at a level of the subscriber's count
(`InFlight`). One packet more keeps both or goes on to the next picture (`InFlight.packet`),
and later passages stand above the level (`later_passages`).
-/

namespace Simulcast

open Vp8 Vp8.PictureNumbering

/-- The packet comes next in its source, in the same picture or the next one. -/
structure Arrival.ComesNext (w : IdWidth) (b a : Arrival) : Prop where
  head : a.head = true
  media : a.carriesMedia = true
  ssrc : a.ssrc = b.ssrc
  number : a.number = b.number + 1
  picture : ∃ p d, b.vp8 = some p ∧ a.vp8 = some d ∧ w.Writes d ∧ (p.SamePicture d ∨ w.Next p d)

/-- Whether a packet has the picture id of the one before it. -/
def Arrival.continuesPicture (b a : Arrival) : Bool :=
  a.vp8.map Descriptor.pictureId == b.vp8.map Descriptor.pictureId

namespace Forwarder

/-- What became of a packet, with the number of its picture. -/
structure Passage where
  picture : Nat
  descriptor : Descriptor
  /-- The temporal layers that were aimed for. -/
  target : Int
  sent : Option Descriptor

namespace Passage

/-- The picture id that the packet was sent with, if it was. -/
def sentId (e : Passage) : Option UInt16 := e.sent.map Descriptor.pictureId

/-- Packets of one picture are all sent with one id, or all left out. -/
def Together (e e' : Passage) : Prop := e.picture = e'.picture → e.sentId = e'.sentId

/-- Pictures that are sent less than a cycle of ids apart are sent with different ones. -/
def ToldApart (e e' : Passage) : Prop :=
  e.picture < e'.picture → e'.picture < e.picture + 0x8000 → e.sentId = e'.sentId →
    e.sentId = none

/-- The packet was within the layers that were aimed for. -/
def Wanted (e : Passage) : Prop := ¬e.descriptor.Exceeds e.target

instance (e : Passage) : Decidable e.Wanted := inferInstanceAs (Decidable (¬_))

/-- A packet was left out, and a later one of its picture is wanted. -/
def CaughtUp (e e' : Passage) : Prop :=
  e.picture = e'.picture ∧ e.sentId = none ∧ e'.Wanted

/-- The picture comes before number 2³¹ of its source, counted on from the id of the first
one. -/
def Counted (first : Arrival) (e : Passage) : Prop :=
  ((first.vp8.getD {}).pictureId.toNat : Int) + e.picture < 0x80000000

instance (first : Arrival) (e : Passage) : Decidable (e.Counted first) :=
  inferInstanceAs (Decidable (_ < _))

end Passage

/-- The passage of a packet that belongs to picture `k`. -/
def passage (f : Forwarder) (k : Nat) (a : Arrival) (layer : Int) : Passage :=
  { picture := k, descriptor := a.vp8.getD {}, target := f.target.temporal
    sent := f.describedAs a layer }

/-- The passages of a run behind a packet of picture `k`. -/
def passages (f : Forwarder) (k : Nat) (b : Arrival) : List Command → List Passage
  | [] => []
  | .forward a layer :: cs =>
    let k := if b.continuesPicture a then k else k + 1
    f.passage k a layer :: (f.forward a layer).1.passages k a cs
  | c :: cs => (f.perform c).passages k b cs

/-- The passages of a packet and of a run behind it. -/
def passagesFrom (f : Forwarder) (a : Arrival) (layer : Int) (cs : List Command) : List Passage :=
  f.passage 0 a layer :: (f.forward a layer).1.passages 0 a cs

/-- The command changes no more than the temporal layers aimed for. -/
structure Steers (f : Forwarder) (c : Command) : Prop where
  quiet : c.isQuiet = true
  muted : (f.perform c).muted = f.muted
  current : (f.perform c).current = f.current
  spatial : (f.perform c).target.spatial = f.target.spatial

/-- Behind a packet, the source goes on in order, and commands steer the temporal layers. -/
inductive InOrder (w : IdWidth) (layer : Int) : Forwarder → Arrival → List Command → Prop where
  | nil (f : Forwarder) (b : Arrival) : InOrder w layer f b []
  | packet {f : Forwarder} {b a : Arrival} {cs : List Command} (next : b.ComesNext w a)
      (rest : InOrder w layer (f.forward a layer).1 a cs) :
      InOrder w layer f b (.forward a layer :: cs)
  | steer {f : Forwarder} {b : Arrival} {c : Command} {cs : List Command} (steers : f.Steers c)
      (rest : InOrder w layer (f.perform c) b cs) : InOrder w layer f b (c :: cs)

/-- The forwarder aims at a layer of the grid. -/
structure AimsAt (f : Forwarder) (layer : Int) : Prop where
  kind : f.kind = .video
  muted : f.muted = false
  target : f.target.spatial = layer
  nonneg : 0 ≤ layer

/-- The packet is the first one of a source, on a layer that the forwarder is locked to or
that the packet locks it to. -/
structure Opens (f : Forwarder) (w : IdWidth) (a : Arrival) (layer : Int) : Prop
    extends f.AimsAt layer where
  pictures : ∃ n, f.pictures = some n ∧ (f.started = true → n.usesPictureId = true)
  locked : f.current.spatial = layer ∨ a.keyFrame = true
  source : f.lastSsrc ≠ a.ssrc
  head : a.head = true
  media : a.carriesMedia = true
  picture : ∃ d, a.vp8 = some d ∧ w.Writes d

/-- The state behind a packet. Its picture has a number in the source. It was sent so far, or
filtered out, and stands at a level of the subscriber's count. -/
structure InFlight (f : Forwarder) (w : IdWidth) (layer : Int) (b : Arrival) (number : Int)
    (sent : Bool) (level : Int) : Prop where
  aims : f.AimsAt layer
  current : f.current.spatial = layer
  lastSsrc : f.lastSsrc = b.ssrc
  highest : f.numbering.highest = b.number
  picture : ∃ d n, b.vp8 = some d ∧ f.pictures = some n ∧ n.In w d ∧
    n.clock.newest.toInt = number ∧ n.level = Int32.ofInt level ∧
    (sent = true → ¬d.Exceeds f.current.temporal) ∧
    (sent = false → d.Exceeds f.current.temporal ∧ n.lastFiltered = some n.clock.newest)

variable {f : Forwarder} {w : IdWidth} {a b : Arrival} {p d : Descriptor} {c : Command}
  {layer number level : Int} {sent continues : Bool} {k : Nat} {n : PictureNumbering}
  {cs : List Command} {e : Passage}

/-! ## One packet -/

theorem AimsAt.live (h : f.AimsAt layer) : f.gate.Live := by
  refine ⟨h.muted, fun hnone => ?_⟩
  have spatial : f.target.spatial = -1 := congrArg Layers.spatial hnone
  have target := h.target
  have nonneg := h.nonneg
  omega

theorem AimsAt.admits (h : f.AimsAt layer) (hk : f.current.spatial = layer ∨ a.keyFrame = true) :
    f.Admits a layer :=
  ⟨h.muted, fun _ => take_passes h.live h.target hk⟩

/-- The gate is locked behind the packet. -/
theorem AimsAt.forward (h : f.AimsAt layer) (hk : f.current.spatial = layer ∨ a.keyFrame = true) :
    (f.forward a layer).1.AimsAt layer ∧ (f.forward a layer).1.current.spatial = layer := by
  have gate : (f.forward a layer).1.gate = f.gate.take a.keyFrame layer := gate_forward h.kind
  refine ⟨⟨?_, ?_, ?_, h.nonneg⟩, ?_⟩
  · exact (congrArg Gate.kind gate).trans (Gate.take_kind.trans h.kind)
  · exact (congrArg Gate.muted gate).trans (Gate.take_muted.trans h.muted)
  · exact (congrArg (fun g : Gate => g.target.spatial) gate).trans
      ((congrArg Layers.spatial Gate.take_target).trans h.target)
  · exact (congrArg Gate.sent gate).trans (take_passes h.live h.target hk).2.1

/-- A packet that is found in its picture is filtered out, or sent with the id of its level. -/
theorem inFlight_forward (h : f.AimsAt layer)
    (hk : f.current.spatial = layer ∨ a.keyFrame = true) (hpics : f.picturesFor a = some n)
    (hhead : a.head = true) (hm : a.carriesMedia = true)
    (hn : a.number = (f.numberingFor a).highest + 1) (hd : a.vp8 = some d)
    (hf : n.Finds w d continues) (hl : n.level = Int32.ofInt level) :
    ∃ sent level', (f.forward a layer).1.InFlight w layer a
        (n.clock.newest.toInt + if continues then 0 else 1) sent level' ∧
      (sent = true ↔ ¬d.Exceeds (f.temporalFor a)) ∧
      (∀ k, (f.passage k a layer).sentId = if sent then some (idOf level') else none) ∧
      (sent = true → level' = level + if continues then 0 else 1) ∧
      (sent = false → (continues = true → n.lastFiltered = some n.clock.newest) →
        level' = level) := by
  obtain ⟨leaves, outcome⟩ := forward_next h.kind (h.admits hk) hpics hhead hm hn hd
  obtain ⟨aims, current⟩ := h.forward hk
  obtain ⟨within, clock, filtered, kept⟩ := hf.describe hd (f.temporalFor a)
  have number := hf.count
  rw [← clock] at number
  rcases outcome with ⟨hx, none, -⟩ | ⟨hx, ⟨out, hout, some⟩, -⟩
  · obtain ⟨last, same⟩ := filtered hx
    obtain ⟨level', stands, same⟩ : ∃ level',
        (n.describe a .contiguous (f.temporalFor a)).1.level = Int32.ofInt level' ∧
          ((continues = true → n.lastFiltered = Option.some n.clock.newest) → level' = level) := by
      by_cases hc : continues = true → n.lastFiltered = Option.some n.clock.newest
      · exact ⟨level, (same hc).trans hl, fun _ => rfl⟩
      · exact ⟨_, (Int32.ofInt_toInt _).symm, fun again => absurd again hc⟩
    refine ⟨false, level', ⟨aims, current, leaves.lastSsrc, leaves.highest, d, _, hd,
      leaves.pictures, within, number, stands, nofun, fun _ => ⟨?_, last⟩⟩,
      iff_of_false Bool.false_ne_true (not_not_intro hx), fun k => ?_, nofun, fun _ => same⟩
    · rw [leaves.temporal]
      exact hx
    · rw [passage, Passage.sentId, none]
      rfl
  · obtain ⟨out', hout', id, raised⟩ := kept hx
    have stands : (n.describe a .contiguous (f.temporalFor a)).1.level =
        Int32.ofInt (level + if continues then 0 else 1) := by
      rw [raised, hl, Int32.ofInt_add]
      cases continues <;> rfl
    refine ⟨true, _, ⟨aims, current, leaves.lastSsrc, leaves.highest, d, _, hd, leaves.pictures,
      within, number, stands, fun _ => ?_, nofun⟩, iff_of_true rfl hx, fun k => ?_, fun _ => rfl,
      nofun⟩
    · rw [leaves.temporal]
      exact hx
    · rw [hout] at hout'
      cases hout'
      rw [passage, Passage.sentId, some, Option.map_some, id, stands, idOf_ofInt]
      rfl

theorem sent_of_wanted (hd : a.vp8 = some d) (hs : sent = true ↔ ¬d.Exceeds (f.temporalFor a))
    (hw : (f.passage k a layer).Wanted) : sent = true := by
  refine hs.2 fun hx => ?_
  simp only [Passage.Wanted, passage, hd, Option.getD_some] at hw
  exact hw ((exceeds_temporalFor_iff hd).1 hx).1

/-- The first packet of a source. -/
theorem Opens.forward (h : f.Opens w a layer) (k : Nat) :
    ∃ sent level, (f.forward a layer).1.InFlight w layer a
        ((a.vp8.getD {}).pictureId.toNat + (0 : Nat)) sent level ∧
      (f.passage k a layer).sentId = (if sent then some (idOf level) else none) ∧
      ((f.passage k a layer).Wanted → sent = true) := by
  obtain ⟨n, hn, uses⟩ := h.pictures
  obtain ⟨d, hd, writes⟩ := h.picture
  obtain ⟨m, hm, clock, finds⟩ : ∃ m, f.picturesFor a = some m ∧
      m.clock = PictureClock.before d ∧ m.Finds w d false := by
    unfold picturesFor takePictures
    rw [if_neg h.source]
    simp only [hn, Option.map_some, Option.some.injEq, exists_eq_left']
    split
    · have clock : (n.changeSource a).clock = PictureClock.before d := by
        simp only [PictureNumbering.changeSource, hd, uses ‹_›, if_true]
      exact ⟨clock, finds_first writes clock (by simp only [PictureNumbering.changeSource, hd])⟩
    · have clock : (n.start a).clock = PictureClock.before d := by
        simp only [PictureNumbering.start, hd, writes.hasPictureId, if_true]
      exact ⟨clock, finds_first writes clock (by simp only [PictureNumbering.start, hd])⟩
  have next : a.number = (f.numberingFor a).highest + 1 := by
    have next : a.number = a.number - 1 + 1 := by grind
    unfold numberingFor takeSource
    rw [if_neg h.source]
    dsimp only
    split <;> exact next
  obtain ⟨sent, level, inFlight, whether, id, -, -⟩ :=
    inFlight_forward h.toAimsAt h.locked hm h.head h.media next hd finds
      (Int32.ofInt_toInt _).symm
  refine ⟨sent, level, ?_, id k, sent_of_wanted hd whether⟩
  rw [clock, PictureClock.toInt_before, if_neg Bool.false_ne_true, Int.sub_add_cancel] at inFlight
  rw [hd, Option.getD_some]
  exact inFlight

/-- A further packet of the picture keeps what became of it, unless it catches up; the next
picture goes up by one level if it is sent. -/
theorem InFlight.packet (h : f.InFlight w layer b number sent level) (next : b.ComesNext w a)
    (k : Nat) (room : b.continuesPicture a = false → number + 1 < 0x80000000) :
    ∃ sent' level', (f.forward a layer).1.InFlight w layer a
        (if b.continuesPicture a then number else number + 1) sent' level' ∧
      (f.passage k a layer).sentId = (if sent' then some (idOf level') else none) ∧
      ((f.passage k a layer).Wanted → sent' = true) ∧
      if b.continuesPicture a then
        (sent = false → ¬(f.passage k a layer).Wanted) → sent' = sent ∧ level' = level
      else level' = level + if sent' then 1 else 0 := by
  obtain ⟨p, d, hp, hd, writes, order⟩ := next.picture
  obtain ⟨p', n, hp', hn, within, rfl, hl, kept, filtered⟩ := h.picture
  cases hp.symm.trans hp'
  have same : f.lastSsrc = a.ssrc := h.lastSsrc.trans next.ssrc.symm
  have hpics : f.picturesFor a = some n := by
    rw [picturesFor, takePictures, if_pos same, hn]
  have follows : a.number = (f.numberingFor a).highest + 1 := by
    rw [numberingFor, takeSource, if_pos same, h.highest]
    exact next.number
  have continues : b.continuesPicture a = decide (d.pictureId = p.pictureId) := by
    rw [Arrival.continuesPicture, hp, hd]
    rfl
  rcases order with order | order
  · obtain ⟨sent', level', inFlight, whether, id, up, stay⟩ := inFlight_forward h.aims
      (.inl h.current) hpics next.head next.media follows hd (within.finds_same writes order) hl
    rw [if_pos rfl, Int.add_zero] at inFlight up
    rw [continues, if_pos (decide_eq_true order.pictureId)]
    refine ⟨sent', level', inFlight, id k, sent_of_wanted hd whether, ?_⟩
    rw [if_pos (decide_eq_true order.pictureId)]
    intro quiet
    have layers : ∀ max, d.Exceeds max ↔ p.Exceeds max := fun max => by
      rw [Descriptor.Exceeds, Descriptor.Exceeds, order.hasTid, order.tid]
    have decided : sent' = sent := by
      cases sent with
      | true =>
        refine whether.2 fun hx => kept rfl ?_
        exact (layers _).1 ((exceeds_temporalFor_iff hd).1 hx).2
      | false =>
        refine Bool.eq_false_iff.2 fun hs => whether.1 hs ?_
        refine (exceeds_temporalFor_iff hd).2 ⟨?_, (layers _).2 (filtered rfl).1⟩
        have beyond := of_not_not (quiet rfl)
        simp only [passage, hd, Option.getD_some] at beyond
        exact beyond
    subst decided
    refine ⟨rfl, ?_⟩
    cases sent' with
    | true => exact up rfl
    | false => exact stay rfl fun _ => (filtered rfl).2
  · have fresh : ¬decide (d.pictureId = p.pictureId) = true := by
      rw [decide_eq_true_eq]
      exact order.ne
    rw [continues, Bool.eq_false_iff] at room
    obtain ⟨sent', level', inFlight, whether, id, up, stay⟩ := inFlight_forward h.aims
      (.inl h.current) hpics next.head next.media follows hd
      (within.finds_next writes order (room fresh)) hl
    rw [if_neg Bool.false_ne_true] at inFlight up
    rw [continues, if_neg fresh]
    refine ⟨sent', level', inFlight, id k, sent_of_wanted hd whether, ?_⟩
    rw [if_neg fresh]
    cases sent' with
    | true => exact up rfl
    | false => exact (stay rfl fun h => Bool.noConfusion h).trans (Int.add_zero _).symm

/-- A command that steers leaves the picture as it is. -/
theorem InFlight.steer (h : f.InFlight w layer b number sent level) (steers : f.Steers c) :
    (f.perform c).InFlight w layer b number sent level := by
  have behind := behind_perform (f := f) steers.quiet
  obtain ⟨kind, -, -, ssrc, -, numbering, pictures⟩ := Behind.mk.inj behind
  obtain ⟨d, n, hb, hn, within, hc, hl, kept, filtered⟩ := h.picture
  refine ⟨⟨kind.trans h.aims.kind, steers.muted.trans h.aims.muted,
    steers.spatial.trans h.aims.target, h.aims.nonneg⟩, ?_, ssrc.trans h.lastSsrc, ?_,
    d, n, hb, pictures.trans hn, within, hc, hl, ?_⟩
  · rw [steers.current]
    exact h.current
  · rw [numbering]
    exact h.highest
  · rw [steers.current]
    exact ⟨kept, filtered⟩

/-! ## Runs -/

theorem passages_steer (hc : c.isQuiet = true) :
    f.passages k b (c :: cs) = (f.perform c).passages k b cs := by
  cases c with
  | forward => cases hc
  | _ => rfl

/-- The packets of a run find what is in flight before them: the picture of the packet before,
and its number in the source. -/
theorem InFlight.next {start : Int} (h : f.InFlight w layer b (start + k) sent level)
    (next : b.ComesNext w a)
    (counted : ∀ e ∈ f.passages k b (.forward a layer :: cs), start + e.picture < 0x80000000) :
    let k' := if b.continuesPicture a then k else k + 1
    ∃ sent' level', (f.forward a layer).1.InFlight w layer a (start + k') sent' level' ∧
      (f.passage k' a layer).sentId = (if sent' then some (idOf level') else none) ∧
      ((f.passage k' a layer).Wanted → sent' = true) ∧
      (∀ e ∈ (f.forward a layer).1.passages k' a cs, start + e.picture < 0x80000000) ∧
      if b.continuesPicture a then
        (sent = false → ¬(f.passage k' a layer).Wanted) → sent' = sent ∧ level' = level
      else level' = level + if sent' then 1 else 0 := by
  intro k'
  obtain ⟨own, counted⟩ := List.forall_mem_cons.1 counted
  have room : b.continuesPicture a = false → start + k + 1 < 0x80000000 := fun fresh => by
    have own : start + (k' : Int) < 0x80000000 := own
    rw [show k' = k + 1 from if_neg (Bool.eq_false_iff.1 fresh)] at own
    omega
  obtain ⟨sent', level', inFlight, id, wanted, step⟩ := h.packet next k' room
  have number : (if b.continuesPicture a then start + (k : Int) else start + k + 1) =
      start + k' := by
    cases continues : b.continuesPicture a <;> simp only [k', continues, Bool.false_eq_true,
      if_true, if_false]
    omega
  exact ⟨sent', level', number ▸ inFlight, id, wanted, counted, step⟩

/-- A packet that is wanted is sent. -/
theorem sentId_of_wanted {start : Int} (ho : InOrder w layer f b cs)
    (h : f.InFlight w layer b (start + k) sent level)
    (counted : ∀ e ∈ f.passages k b cs, start + e.picture < 0x80000000) :
    ∀ e ∈ f.passages k b cs, e.Wanted → e.sentId ≠ none := by
  induction ho generalizing k sent level with
  | nil => exact fun e he => absurd he List.not_mem_nil
  | packet next rest ih =>
    intro e he hw
    obtain ⟨sent', level', inFlight, id, wanted, counted, -⟩ := h.next next counted
    rcases List.mem_cons.1 he with rfl | he
    · rw [id, wanted hw]
      nofun
    · exact ih inFlight counted e he hw
  | steer steers rest ih =>
    rw [passages_steer steers.quiet] at counted ⊢
    exact ih (h.steer steers) counted

/-- While no picture is caught up with: the later packets of the picture in flight are sent or
left out like it, and those of later pictures are sent with the ids of higher levels. -/
theorem later_passages {start : Int} (ho : InOrder w layer f b cs)
    (h : f.InFlight w layer b (start + k) sent level)
    (counted : ∀ e ∈ f.passages k b cs, start + e.picture < 0x80000000)
    (free : (f.passages k b cs).Pairwise fun e e' => ¬e.CaughtUp e')
    (quiet : sent = false → ∀ e ∈ f.passages k b cs, e.picture = k → ¬e.Wanted) :
    ∀ e ∈ f.passages k b cs, k ≤ e.picture ∧
      (e.picture = k → e.sentId = if sent then some (idOf level) else none) ∧
      (k < e.picture → ∀ id, e.sentId = some id →
        ∃ higher, id = idOf higher ∧ level < higher ∧ higher ≤ level + (e.picture - k : Int)) := by
  induction ho generalizing k sent level with
  | nil => exact fun e he => absurd he List.not_mem_nil
  | @packet f b a cs next rest ih =>
    obtain ⟨sent', level', inFlight, id, -, counted, step⟩ := h.next next counted
    rw [passages] at free quiet ⊢
    generalize hk' : (if b.continuesPicture a then k else k + 1) = k' at *
    obtain ⟨first, free⟩ := List.pairwise_cons.1 free
    -- Behind a packet that is left out, none of its picture is wanted.
    have quiet' : sent' = false →
        ∀ e ∈ (f.forward a layer).1.passages k' a cs, e.picture = k' → ¬e.Wanted := by
      rintro rfl e he rfl hw
      exact first e he ⟨rfl, id, hw⟩
    have later := ih inFlight counted free quiet'
    intro e he
    cases continues : b.continuesPicture a with
    | true =>
      rw [continues, if_pos rfl] at hk' step
      subst hk'
      obtain ⟨rfl, rfl⟩ := step fun hs => quiet hs _ List.mem_cons_self rfl
      rcases List.mem_cons.1 he with rfl | he
      · exact ⟨Nat.le_refl _, fun _ => id, fun hlt => absurd hlt (Nat.lt_irrefl _)⟩
      · exact later e he
    | false =>
      rw [continues, if_neg Bool.false_ne_true] at hk' step
      subst hk'
      have raised : ∀ x, (if sent' then some (idOf level') else none) = some x →
          x = idOf level' ∧ level' = level + 1 := by
        intro x hx
        cases sent' with
        | true => exact ⟨(Option.some.inj hx).symm, step⟩
        | false => cases hx
      rcases List.mem_cons.1 he with rfl | he
      · refine ⟨Nat.le_succ k, fun heq => absurd heq (Nat.succ_ne_self k), fun _ x hx => ?_⟩
        obtain ⟨rfl, rfl⟩ := raised x (id ▸ hx)
        exact ⟨_, rfl, Int.lt_succ level, by simp only [passage]; omega⟩
      · obtain ⟨le, same, above⟩ := later e he
        refine ⟨Nat.le_of_succ_le le, fun heq => by omega, fun _ x hx => ?_⟩
        rcases Nat.eq_or_lt_of_le le with heq | hlt
        · obtain ⟨rfl, rfl⟩ := raised x (same heq.symm ▸ hx)
          exact ⟨_, rfl, Int.lt_succ level, by omega⟩
        · obtain ⟨higher, rfl, low, high⟩ := above hlt x hx
          refine ⟨higher, rfl, ?_, ?_⟩ <;> cases sent' <;>
            simp only [Bool.false_eq_true, if_true, if_false] at step <;> omega
  | steer steers rest ih =>
    rw [passages_steer steers.quiet] at counted free quiet ⊢
    exact ih (h.steer steers) counted free quiet

/-- Ids of levels within one cycle are different. -/
theorem idOf_ne {level higher : Int} (low : level < higher) (high : higher < level + 0x8000) :
    idOf level ≠ idOf higher := by
  intro h
  have id := congrArg (fun id : UInt16 => (id.toNat : Int)) h
  simp only [toNat_idOf] at id
  omega

/-- A packet goes with the passages behind it, if none catches up with a picture. -/
theorem goesWith_passages {start : Int} (ho : InOrder w layer f b cs)
    (h : f.InFlight w layer b (start + k) sent level)
    (counted : ∀ e ∈ f.passages k b cs, start + e.picture < 0x80000000)
    (hk : e.picture = k) (he : e.sentId = if sent then some (idOf level) else none)
    (free : (e :: f.passages k b cs).Pairwise fun e e' => ¬e.CaughtUp e') :
    ∀ e' ∈ f.passages k b cs, e.Together e' ∧ e.ToldApart e' := by
  obtain ⟨first, free⟩ := List.pairwise_cons.1 free
  intro e' he'
  obtain ⟨-, same, above⟩ := later_passages ho h counted free
    (fun hs e' he' hk' hw => first e' he' ⟨hk.trans hk'.symm, by rw [he, hs]; rfl, hw⟩) e' he'
  refine ⟨fun heq => he.trans (same (heq.symm.trans hk)).symm, fun hlt near heq => ?_⟩
  cases sent with
  | false => exact he
  | true =>
    obtain ⟨higher, hid, low, high⟩ := above (hk ▸ hlt) _ (heq.symm.trans he)
    exact absurd hid (idOf_ne low (by omega))

/-- Behind a packet, pictures stay whole and apart if none is caught up with. -/
theorem pairwise_passages {start : Int} (ho : InOrder w layer f b cs)
    (h : f.InFlight w layer b (start + k) sent level)
    (counted : ∀ e ∈ f.passages k b cs, start + e.picture < 0x80000000)
    (hk : e.picture = k) (he : e.sentId = if sent then some (idOf level) else none)
    (free : (e :: f.passages k b cs).Pairwise fun e e' => ¬e.CaughtUp e') :
    (e :: f.passages k b cs).Pairwise fun e e' => e.Together e' ∧ e.ToldApart e' := by
  induction ho generalizing k sent level e with
  | nil => exact List.pairwise_singleton _ _
  | packet next rest ih =>
    refine List.pairwise_cons.2 ⟨goesWith_passages (.packet next rest) h counted hk he free, ?_⟩
    obtain ⟨sent', level', inFlight, id, -, counted, -⟩ := h.next next counted
    exact ih inFlight counted rfl id (List.pairwise_cons.1 free).2
  | steer steers rest ih =>
    rw [passages_steer steers.quiet] at counted free ⊢
    exact ih (h.steer steers) counted hk he free

theorem passagesFrom_sent (ho : f.Opens w a layer)
    (hc : InOrder w layer (f.forward a layer).1 a cs)
    (counted : ∀ e ∈ f.passagesFrom a layer cs, e.Counted a) :
    ∀ e ∈ f.passagesFrom a layer cs, e.Wanted → e.sentId ≠ none := by
  obtain ⟨sent, level, inFlight, id, wanted⟩ := ho.forward 0
  intro e he hw
  rcases List.mem_cons.1 he with rfl | he
  · rw [id, wanted hw]
    nofun
  · exact sentId_of_wanted hc inFlight (List.forall_mem_cons.1 counted).2 e he hw

theorem passagesFrom_whole (ho : f.Opens w a layer)
    (hc : InOrder w layer (f.forward a layer).1 a cs)
    (counted : ∀ e ∈ f.passagesFrom a layer cs, e.Counted a)
    (free : (f.passagesFrom a layer cs).Pairwise fun e e' => ¬e.CaughtUp e') :
    (f.passagesFrom a layer cs).Pairwise Passage.Together ∧
      (f.passagesFrom a layer cs).Pairwise Passage.ToldApart := by
  obtain ⟨sent, level, inFlight, id, -⟩ := ho.forward 0
  have both := pairwise_passages hc inFlight (List.forall_mem_cons.1 counted).2 rfl id free
  exact ⟨both.imp And.left, both.imp And.right⟩

/-- A source starts on the layer that the forwarder is locked to and goes on in order, without
coming to picture 2³¹, while commands steer the temporal layers. Every picture is sent as a
whole or left out as a whole, and pictures within one cycle of ids are sent with different
ones, if and only if no packet is wanted of which an earlier one of the same picture was left
out. -/
theorem wholePictures_iff (ho : f.Opens w a layer)
    (hc : InOrder w layer (f.forward a layer).1 a cs)
    (counted : ∀ e ∈ f.passagesFrom a layer cs, e.Counted a) :
    ((f.passagesFrom a layer cs).Pairwise Passage.Together ∧
      (f.passagesFrom a layer cs).Pairwise Passage.ToldApart) ↔
    (f.passagesFrom a layer cs).Pairwise fun e e' => ¬e.CaughtUp e' := by
  refine ⟨fun ⟨together, _⟩ => ?_, passagesFrom_whole ho hc counted⟩
  refine together.imp_of_mem fun _ he' whole caught => ?_
  exact passagesFrom_sent ho hc counted _ he' caught.2.2
    ((whole caught.1).symm.trans caught.2.1)

/-! ## Lowering the target -/

/-- The packets of a picture have one temporal layer. -/
theorem layers_passages (ho : InOrder w layer f b cs) (hb : b.vp8 = some p) :
    ∀ e ∈ f.passages k b cs, k ≤ e.picture ∧
      (e.picture = k → ∀ max, e.descriptor.Exceeds max ↔ p.Exceeds max) := by
  induction ho generalizing k p with
  | nil => exact fun e he => absurd he List.not_mem_nil
  | @packet f b a cs next rest ih =>
    obtain ⟨p', d, hp', hd, -, order⟩ := next.picture
    cases hb.symm.trans hp'
    have own : (f.passage k a layer).descriptor = d := by rw [passage, hd]; rfl
    intro e he
    rw [passages] at he
    rcases order with same | next
    · have continues : b.continuesPicture a = true := by
        rw [Arrival.continuesPicture, hp', hd, beq_iff_eq, Option.map_some, Option.map_some,
          same.pictureId]
      have layers : ∀ max, d.Exceeds max ↔ p.Exceeds max := fun max => by
        rw [Descriptor.Exceeds, Descriptor.Exceeds, same.hasTid, same.tid]
      rw [continues, if_pos rfl] at he
      rcases List.mem_cons.1 he with rfl | he
      · exact ⟨Nat.le_refl k, fun _ max => own ▸ layers max⟩
      · obtain ⟨le, exceeds⟩ := ih hd e he
        exact ⟨le, fun heq max => (exceeds heq max).trans (layers max)⟩
    · have continues : b.continuesPicture a = false := by
        rw [Arrival.continuesPicture, hp', hd, beq_eq_false_iff_ne]
        exact fun h => next.ne (Option.some.inj h)
      rw [continues, if_neg Bool.false_ne_true] at he
      have later : k + 1 ≤ e.picture := by
        rcases List.mem_cons.1 he with rfl | he
        · exact Nat.le_refl _
        · exact (ih hd e he).1
      exact ⟨Nat.le_of_succ_le later, fun heq => by omega⟩
  | steer steers rest ih =>
    rw [passages_steer steers.quiet]
    exact ih hb

theorem pairwise_layers (ho : InOrder w layer f b cs) (hb : b.vp8 = some d) (hk : e.picture = k)
    (he : e.descriptor = d) :
    (e :: f.passages k b cs).Pairwise fun e e' =>
      e.picture = e'.picture → ∀ max, e'.descriptor.Exceeds max ↔ e.descriptor.Exceeds max := by
  induction ho generalizing k d e with
  | nil => exact List.pairwise_singleton _ _
  | @packet f b a cs next rest ih =>
    refine List.pairwise_cons.2 ⟨fun e' he' heq => ?_, ?_⟩
    · rw [he]
      exact (layers_passages (.packet next rest) hb e' he').2 (heq.symm.trans hk)
    · obtain ⟨-, d', -, hd', -⟩ := next.picture
      exact ih hd' rfl (by rw [passage, hd']; rfl)
  | steer steers rest ih =>
    rw [passages_steer steers.quiet]
    exact ih hb hk he

/-- As long as the target is not raised within a picture, all pictures stay whole. -/
theorem whole_of_lowered (ho : f.Opens w a layer)
    (hc : InOrder w layer (f.forward a layer).1 a cs)
    (counted : ∀ e ∈ f.passagesFrom a layer cs, e.Counted a)
    (lowered : (f.passagesFrom a layer cs).Pairwise fun e e' =>
      e.picture = e'.picture → e'.target ≤ e.target) :
    (f.passagesFrom a layer cs).Pairwise Passage.Together ∧
      (f.passagesFrom a layer cs).Pairwise Passage.ToldApart := by
  obtain ⟨d, hd, -⟩ := ho.picture
  have layers : (f.passagesFrom a layer cs).Pairwise fun e e' =>
      e.picture = e'.picture → ∀ max, e'.descriptor.Exceeds max ↔ e.descriptor.Exceeds max :=
    pairwise_layers hc hd rfl (by rw [passage, hd]; rfl)
  refine passagesFrom_whole ho hc counted ((lowered.and layers).imp_of_mem fun he _ both caught => ?_)
  obtain ⟨same, none, wanted⟩ := caught
  refine passagesFrom_sent ho hc counted _ he (fun beyond => wanted ?_) none
  have target := both.1 same
  exact (both.2 same _).2 ⟨beyond.1, Int.lt_of_le_of_lt target beyond.2⟩

/-! ## A picture that is split -/

/-- A packet of a picture in some temporal layer, as an intake reads it. -/
def layeredArrival (first number id tid : UInt8) (keyFrame : Bool) : Arrival where
  head := true
  time := 0
  packet :=
    { header := { payloadType := 96, number := number.toUInt16, ssrc := 1111 }
      payload := [first, 0xa0, id, tid <<< 6, if keyFrame then 0 else 1] }
  vp8 := some
    { firstOctet := first, hasPictureId := true, pictureId := id.toUInt16, hasTid := true, tid
      size := 4, keyFrame }
  keyFrame
  raw := Intake.packetOctets 0x80 number
    [first, 0xa0, id, tid <<< 6, if keyFrame then 0 else 1]

/-- Two temporal layers of one spatial layer. -/
def twoTemporal : Bitrates :=
  #v[#v[100, 200, 0, 0], Vector.replicate 4 0, Vector.replicate 4 0]

/-- A forwarder that aims for the lower one. -/
def aimedAtBase : Forwarder :=
  run { mime := "video/VP8", clockRate := 90000 } .video
    [.setAvailable [0], .allocate 150 twoTemporal]

/-- The two packets of a picture in the upper layer, with capacity for it found between
them. -/
def splitPicture : List Command :=
  [.forward (layeredArrival 0x90 101 11 1 false) 0, .allocate 1000 twoTemporal,
    .forward (layeredArrival 0x80 102 11 1 false) 0]

theorem readAs_splitPicture :
    ∀ a ∈ [layeredArrival 0x90 100 10 0 true, layeredArrival 0x90 101 11 1 false,
      layeredArrival 0x80 102 11 1 false], a.ReadAs .vp8 := by
  simp only [List.forall_mem_cons]
  exact ⟨rfl, rfl, rfl, fun a ha => by cases ha⟩

theorem opens_splitPicture :
    aimedAtBase.Opens .short (layeredArrival 0x90 100 10 0 true) 0 where
  kind := rfl
  muted := rfl
  target := rfl
  nonneg := Int.le_refl 0
  pictures := ⟨_, rfl, nofun⟩
  locked := .inr rfl
  source := by decide
  head := rfl
  media := rfl
  picture := ⟨_, rfl, rfl, by decide, rfl⟩

theorem inOrder_splitPicture :
    InOrder .short 0 (aimedAtBase.forward (layeredArrival 0x90 100 10 0 true) 0).1
      (layeredArrival 0x90 100 10 0 true) splitPicture := by
  refine .packet ⟨rfl, rfl, rfl, rfl, _, _, rfl, rfl, ⟨rfl, by decide, rfl⟩, .inr (by decide)⟩
    (.steer ⟨rfl, rfl, rfl, rfl⟩
      (.packet ⟨rfl, rfl, rfl, rfl, _, _, rfl, rfl, ⟨rfl, by decide, rfl⟩,
        .inl ⟨rfl, rfl, rfl, rfl⟩⟩ (.nil _ _)))

theorem counted_splitPicture :
    ∀ e ∈ aimedAtBase.passagesFrom (layeredArrival 0x90 100 10 0 true) 0 splitPicture,
      e.Counted (layeredArrival 0x90 100 10 0 true) := by
  decide

/-- The first packet of the picture is left out and the second one is sent, with the id of the
picture before it. -/
theorem splitPicture_sent :
    (∀ a ∈ [layeredArrival 0x90 100 10 0 true, layeredArrival 0x90 101 11 1 false,
      layeredArrival 0x80 102 11 1 false], a.ReadAs .vp8) ∧
    aimedAtBase.Opens .short (layeredArrival 0x90 100 10 0 true) 0 ∧
    InOrder .short 0 (aimedAtBase.forward (layeredArrival 0x90 100 10 0 true) 0).1
      (layeredArrival 0x90 100 10 0 true) splitPicture ∧
    (aimedAtBase.passagesFrom (layeredArrival 0x90 100 10 0 true) 0 splitPicture).map
      (fun e => (e.picture, e.sentId)) = [(0, some 10), (1, none), (1, some 10)] :=
  ⟨readAs_splitPicture, opens_splitPicture, inOrder_splitPicture, rfl⟩

/-- The condition missed by that run. -/
theorem wholePictures_iff_splitPicture :
    let es := aimedAtBase.passagesFrom (layeredArrival 0x90 100 10 0 true) 0 splitPicture
    aimedAtBase.Opens .short (layeredArrival 0x90 100 10 0 true) 0 ∧
    InOrder .short 0 (aimedAtBase.forward (layeredArrival 0x90 100 10 0 true) 0).1
      (layeredArrival 0x90 100 10 0 true) splitPicture ∧
    (∀ e ∈ es, e.Counted (layeredArrival 0x90 100 10 0 true)) ∧
    ¬(es.Pairwise Passage.Together ∧ es.Pairwise Passage.ToldApart) := by
  intro es
  refine ⟨opens_splitPicture, inOrder_splitPicture, counted_splitPicture, fun whole => ?_⟩
  have free := (wholePictures_iff opens_splitPicture inOrder_splitPicture
    counted_splitPicture).1 whole
  obtain ⟨-, free⟩ := List.pairwise_cons.1 free
  exact (List.pairwise_cons.1 free).1 _ (.head _) ⟨rfl, rfl, by decide⟩

end Forwarder
end Simulcast
