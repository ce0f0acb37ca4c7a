import Simulcast.Proofs.SendLog

/-!
# How often a packet is handed out

What is done with a send log is noted down, the last thing first (`SendLog.Deed`): each packet that
was recorded, with its position, and what was handed out at which time. From these notes follows
when copies were made of a packet since it was recorded (`copyTimes`), and so whether one more may
be (`MayCopy`).

A log `Serves` its notes, whatever is done with it (`Serves.perform`): under the number of each packet
that is less than its size behind the newest one, and was not recorded again, it has the packet
with its copies counted. When that number is asked for, be it once or many times over, one copy is
handed out if one may be, and none otherwise (`requestAll_get`). That is `handed_out_iff`.
-/

namespace Simulcast

namespace SendLog

open Filed

/-! ## Asking for a number -/

section

variable {ω : Type} {Tells : SentPacket → ω → Prop} {l : SendLog} {h : List (Filed ω)}
  {p : SentPacket} {item : ω} {number : UInt16} {entry : SendLogEntry}

theorem isDue_iff (now : Time) :
    entry.isDue now = true ↔
      entry.copies < 3 ∧ ∀ last ∈ entry.lastCopy, last + 100 * nanosPerMilli < now := by
  unfold SendLogEntry.isDue SendLogEntry.copyLimit SendLogEntry.copyInterval
  rw [Bool.and_eq_true, decide_eq_true_eq]
  refine and_congr_right fun _ => ?_
  cases entry.lastCopy with
  | none => exact iff_of_true rfl nofun
  | some last =>
    rw [decide_eq_true_eq]
    simp only [Option.mem_some, forall_eq']
    exact Nat.lt_sub_iff_add_lt'

/-- What was just copied is not due. -/
theorem isDue_copied (now : Time) : (entry.copied now).isDue now = false := by
  refine Bool.eq_false_iff.2 fun due => ?_
  have later : now + 100 * nanosPerMilli < now := ((isDue_iff now).1 due).2 now rfl
  exact absurd later (Nat.not_lt.2 (Nat.le_add_right _ _))

theorem Tracks.get_record_self (ht : Tracks Tells l h)
    (hw : Within (file h p.target item) l.capacity (next h p.target)) :
    PacketRing.get? (l.record p) p.target = some { packet := p } := by
  have stored := ht.slotAt_record_self hw
  have reaches : (l.record p).Reaches (newest (file h p.target item)) := ht.reaches_record
  unfold Within at hw
  refine reaches.get_eq (ofInt_next h p.target).symm ?_ ?_ ?_ stored
  · omega
  · exact newest_file ▸ Int.le_max_right _ _
  · rw [capacity_record ht]
    omega

/-- To record a packet changes nothing of what is found under other numbers. -/
theorem Tracks.get_record_other {e : Filed ω} (ht : Tracks Tells l h)
    (hl : latest h number = some e) (hne : p.target ≠ number)
    (hw : Within (file h p.target item) l.capacity e.position) :
    PacketRing.get? (l.record p) number = PacketRing.get? l number := by
  obtain ⟨he, hnum⟩ := mem_of_latest hl
  obtain ⟨same, -, high⟩ := ht.counted.mem he
  have mono : newest h ≤ newest (file h p.target item) := newest_le_file
  have kept := ht.slotAt_record_other he (hnum ▸ hne) hw
  have reaches : (l.record p).Reaches (newest (file h p.target item)) := ht.reaches_record
  unfold Within at hw
  obtain ⟨entry, stored, -⟩ := ht.stored hl (by unfold Within; omega)
  have found : PacketRing.get? l number = some entry :=
    (ht.reaches (List.ne_nil_of_mem he)).get_eq (hnum ▸ same) (by omega) high (by omega) stored
  rw [found]
  refine reaches.get_eq (hnum ▸ same) ?_ ?_ ?_ (kept.trans stored)
  · omega
  · omega
  · rw [capacity_record ht]
    omega

/-- What is older than the log reaches changes nothing. -/
theorem Tracks.record_eq_self (ht : Tracks Tells l h)
    (behind : (l.capacity : Int) ≤ newest h - next h p.target) : l.record p = l := by
  by_cases hh : h = []
  · subst hh
    have capacity := ht.capacity
    have first : next ([] : List (Filed ω)) p.target = p.target.toNat := rfl
    have zero : newest ([] : List (Filed ω)) = 0 := rfl
    omega
  · rw [next_of_ne_nil hh] at behind
    exact (ht.reaches hh).add_eq_self behind

theorem request_of_get (hg : PacketRing.get? l number = some entry) (now : Time) :
    l.request now number =
      if entry.isDue now then (PacketRing.replace l number (entry.copied now), some entry.packet)
      else (l, none) := by
  rw [SendLog.request, hg]

/-- To ask for another number changes nothing of what is found. -/
theorem get_request_other {other : UInt16} (hne : other ≠ number) (now : Time) :
    PacketRing.get? (l.request now other).1 number = PacketRing.get? l number := by
  cases hr : (l.request now other).2 with
  | none => rw [request_eq_none hr]
  | some p =>
    obtain ⟨found, hg, -, he⟩ := request_eq_some hr
    rw [he]
    exact PacketRing.get_replace_other hg hne

/-- However often a number is asked for at one time, one copy is handed out if it is due, and none
otherwise. -/
theorem Tracks.requestAll_get (ht : Tracks Tells l h)
    (hg : PacketRing.get? l number = some entry) (now : Time) (ns : List UInt16) :
    (l.requestAll now ns).2.filter (fun p => p.target = number) =
        (if number ∈ ns ∧ entry.isDue now = true then [entry.packet] else []) ∧
      PacketRing.get? (l.requestAll now ns).1 number =
        some (if number ∈ ns ∧ entry.isDue now = true then entry.copied now else entry) := by
  induction ns generalizing l entry with
  | nil => simpa [SendLog.requestAll] using hg
  | cons n ns ih =>
    have tracks := ht.request now n
    by_cases hne : n = number
    · subst hne
      have target : entry.packet.target = n := by
        obtain ⟨_, -, hs⟩ := PacketRing.slot_of_get hg
        exact ht.targets hs
      have asked := request_of_get hg now
      cases due : entry.isDue now with
      | true =>
        -- One copy, and then no more at the same time.
        rw [due, if_pos rfl] at asked
        rw [asked] at tracks
        obtain ⟨rest, after⟩ := ih tracks (PacketRing.get_replace_self hg)
        simp only [isDue_copied, Bool.false_eq_true, and_false, if_false] at rest after
        simp only [SendLog.requestAll, asked, Option.toList_some, List.filter_append, rest, after,
          List.mem_cons, true_or, and_self, if_true]
        simp [target]
      | false =>
        rw [due, if_neg Bool.false_ne_true] at asked
        obtain ⟨rest, after⟩ := ih ht hg
        simp only [due, Bool.false_eq_true, and_false, if_false] at rest after ⊢
        simp only [SendLog.requestAll, asked, Option.toList_none, List.nil_append, rest, after,
          and_self]
    · have found : PacketRing.get? (l.request now n).1 number = some entry :=
        (get_request_other hne now).trans hg
      obtain ⟨rest, after⟩ := ih tracks found
      have others : (l.request now n).2.toList.filter (fun p => p.target = number) = [] := by
        refine List.filter_eq_nil_iff.2 fun p hp => ?_
        have handed := ht.request_found (Option.mem_toList.1 hp)
        simpa [handed.1] using hne
      simp only [SendLog.requestAll, List.filter_append, others, List.nil_append, List.mem_cons,
        Ne.symm hne, false_or]
      exact ⟨rest, after⟩

end

/-! ## Runs -/

/-- What may be done with a log. -/
inductive Call where
  | record (p : SentPacket)
  | request (now : Time) (ns : List UInt16)

/-- What was done with a log. -/
inductive Deed where
  /-- A packet was recorded at a position. -/
  | recorded (position : Int) (p : SentPacket)
  /-- Packets were handed out. -/
  | handed (now : Time) (ps : List SentPacket)

/-- The packets that were recorded. -/
def filed : List Deed → List (Filed SentPacket)
  | [] => []
  | .recorded position p :: ds => ⟨position, p.target, p⟩ :: filed ds
  | .handed _ _ :: ds => filed ds

/-- A log after a call, and what was done. The position of a packet that is recorded is that of its
number next to the newest one. -/
def perform (l : SendLog) (past : List Deed) : Call → SendLog × Deed
  | .record p => (l.record p, .recorded (next (filed past) p.target) p)
  | .request now ns => ((l.requestAll now ns).1, .handed now (l.requestAll now ns).2)

/-- A log after some calls, and the notes of what was done. -/
def run (l : SendLog) (past : List Deed) : List Call → SendLog × List Deed
  | [] => (l, past)
  | c :: cs => run (l.perform past c).1 ((l.perform past c).2 :: past) cs

/-- When packets were handed out under a number, the last time first. -/
def copyTimes (number : UInt16) : List Deed → List Time
  | [] => []
  | .recorded _ _ :: ds => copyTimes number ds
  | .handed now ps :: ds =>
    (ps.filter fun p => p.target = number).map (fun _ => now) ++ copyTimes number ds

/-- A packet may be handed out that was so at the given times: fewer than three, the last one more
than 100 ms ago. -/
def MayCopy (times : List Time) (now : Time) : Prop :=
  times.length < 3 ∧ ∀ last ∈ times.head?, last + 100 * nanosPerMilli < now

instance (times : List Time) (now : Time) : Decidable (MayCopy times now) :=
  inferInstanceAs (Decidable (_ ∧ _))

variable {l : SendLog} {past later earlier : List Deed} {size : Nat} {position : Int}
  {p : SentPacket} {number : UInt16}

/-- A log has each packet with its copies counted that is within reach and was not recorded
again. -/
structure Serves (size : Nat) (l : SendLog) (past : List Deed) : Prop where
  tracks : Tracks (fun p q => p = q) l (filed past)
  capacity : l.capacity = size
  counts : ∀ {later earlier : List Deed} {position : Int} {p : SentPacket},
    past = later ++ .recorded position p :: earlier →
    (∀ position' p', .recorded position' p' ∈ later → p'.target ≠ p.target) →
    Within (filed past) size position →
    PacketRing.get? l p.target =
      some ⟨p, (copyTimes p.target later).length, (copyTimes p.target later).head?⟩

theorem filed_append (later earlier : List Deed) :
    filed (later ++ earlier) = filed later ++ filed earlier := by
  induction later with
  | nil => rfl
  | cons d later ih => cases d <;> simp [filed, ih]

theorem mem_filed {e : Filed SentPacket} :
    e ∈ filed past ↔ ∃ position p, .recorded position p ∈ past ∧ e = ⟨position, p.target, p⟩ := by
  induction past with
  | nil => simp [filed]
  | cons d past ih =>
    cases d with
    | recorded position p =>
      simp only [filed, List.mem_cons, ih, Deed.recorded.injEq]
      grind
    | handed now ps => simp [filed, ih]

/-- The last packet under a number is the one that was not recorded again. -/
theorem latest_filed (same : past = later ++ .recorded position p :: earlier)
    (once : ∀ position' p', .recorded position' p' ∈ later → p'.target ≠ p.target) :
    latest (filed past) p.target = some ⟨position, p.target, p⟩ := by
  have none : (filed later).find? (fun e => e.number == p.target) = none := by
    refine List.find?_eq_none.2 fun e he => ?_
    obtain ⟨position', p', hp, rfl⟩ := mem_filed.1 he
    simpa using once position' p' hp
  rw [same, filed_append, latest, List.find?_append, none]
  simp only [filed, Option.none_or, List.find?_cons, beq_self_eq_true]

theorem serves_ofCapacity (hs : 0 < size) : Serves size (SendLog.ofCapacity size) [] where
  tracks := tracks_ofCapacity size
  capacity := by
    rw [capacity_ofCapacity]
    omega
  counts {later earlier position p} same := by cases later <;> cases same

/-- To record a packet keeps the others within reach as they are. -/
theorem Serves.record (h : Serves size l past) (p : SentPacket) :
    Serves size (l.perform past (.record p)).1 ((l.perform past (.record p)).2 :: past) where
  tracks := h.tracks.record rfl
  capacity := (capacity_record h.tracks).trans h.capacity
  counts {later earlier position q} same once hw := by
    rw [← h.capacity] at hw
    cases later with
    | nil =>
      cases same
      exact h.tracks.get_record_self hw
    | cons d later =>
      obtain ⟨rfl, before⟩ := List.cons.inj same
      have once' : ∀ position' p', .recorded position' p' ∈ later → p'.target ≠ q.target :=
        fun position' p' hp => once position' p' (List.mem_cons_of_mem _ hp)
      have other : p.target ≠ q.target := once _ p List.mem_cons_self
      have mono : newest (filed past) ≤ newest (file (filed past) p.target p) := newest_le_file
      have counted := h.counts before once' (by
        rw [← h.capacity]
        unfold Within at hw ⊢
        change newest (file (filed past) p.target p) - position < _ at hw
        omega)
      exact (h.tracks.get_record_other (latest_filed before once') other hw).trans counted

/-- To ask for packets counts the copies that are handed out. -/
theorem Serves.request (h : Serves size l past) (now : Time) (ns : List UInt16) :
    Serves size (l.perform past (.request now ns)).1
      ((l.perform past (.request now ns)).2 :: past) where
  tracks := (h.tracks.requestAll now ns).1
  capacity := (h.tracks.requestAll now ns).2.trans h.capacity
  counts {later earlier position q} same once hw := by
    cases later with
    | nil => cases same
    | cons d later =>
      obtain ⟨rfl, before⟩ := List.cons.inj same
      have counted := h.counts before
        (fun position' p' hp => once position' p' (List.mem_cons_of_mem _ hp)) hw
      obtain ⟨copies, found⟩ := h.tracks.requestAll_get counted now ns
      refine found.trans ?_
      simp only [perform, copyTimes, copies]
      split <;> rfl

/-- Whatever is done with a log, it serves its notes. -/
theorem Serves.run (h : Serves size l past) (cs : List Call) :
    Serves size (l.run past cs).1 (l.run past cs).2 := by
  induction cs generalizing l past with
  | nil => exact h
  | cons c cs ih =>
    cases c with
    | record p => exact ih (h.record p)
    | request now ns => exact ih (h.request now ns)

/-- What was not recorded again at its position was not recorded again under its number, as long as
it is within reach. -/
theorem Serves.once (h : Serves size l past)
    (same : past = later ++ .recorded position p :: earlier)
    (once : ∀ position' p', .recorded position' p' ∈ later → position' ≠ position)
    (hw : Within (filed past) size position) :
    ∀ position' p', .recorded position' p' ∈ later → p'.target ≠ p.target := by
  intro position' p' hp target
  have mem : (⟨position, p.target, p⟩ : Filed SentPacket) ∈ filed past :=
    mem_filed.2 ⟨position, p, by rw [same]; exact List.mem_append_right _ List.mem_cons_self, rfl⟩
  -- The last packet under the number is one of the later ones, yet it stands at the position.
  obtain ⟨e, he⟩ := Option.isSome_iff_exists.1
    (List.find?_isSome.2 ⟨_, mem_filed.2 ⟨position', p', hp, rfl⟩, beq_iff_eq.2 target⟩ :
      (latest (filed later) p.target).isSome = true)
  have last : latest (filed past) p.target = some e := by
    rw [same, filed_append, latest, List.find?_append]
    exact Option.or_eq_some_iff.2 (.inl he)
  have place : e.position = position :=
    h.tracks.counted.position_latest mem (Int.lt_of_lt_of_le hw (Int.min_le_right _ _)) last
  obtain ⟨position'', p'', hp'', rfl⟩ := mem_filed.1 (mem_of_latest he).1
  exact once position'' p'' hp'' place

/-- What a log has under the number of a packet is due if one more copy may be made. -/
theorem isDue_counted (now : Time) (times : List Time) :
    (SendLogEntry.mk p times.length times.head?).isDue now = true ↔ MayCopy times now :=
  isDue_iff now

/-! ## Handing out -/

/-- Whatever is recorded in a log and asked of it, and whenever: a packet that was not recorded again
at its position, and is less than the size of the log behind the newest one, is handed out if its
number is asked for and one more copy may be made of it, once however often the number is
repeated, and is not handed out otherwise. To record a packet that is further behind changes
nothing. -/
theorem handed_out_iff {calls : List Call} (hs : 1 ≤ size) (hc : size ≤ 0x8000)
    (hr : (SendLog.ofCapacity size).run [] calls = (l, past)) :
    (∀ later position p earlier, past = later ++ .recorded position p :: earlier →
      (∀ position' p', .recorded position' p' ∈ later → position' ≠ position) →
      newest (filed past) - position < size →
      ∀ now ns, (l.requestAll now ns).2.filter (fun q => q.target = p.target) =
        if p.target ∈ ns ∧ MayCopy (copyTimes p.target later) now then [p] else []) ∧
      ∀ p, size ≤ newest (filed past) - next (filed past) p.target → l.record p = l := by
  have serves : Serves size l past := by
    have serves := (serves_ofCapacity hs).run calls
    rw [hr] at serves
    exact serves
  refine ⟨fun later position p earlier same once reach now ns => ?_, fun p behind => ?_⟩
  · have within : Within (filed past) size position := by
      unfold Within
      omega
    have counted := serves.counts same (serves.once same once within) within
    obtain ⟨copies, -⟩ := serves.tracks.requestAll_get counted now ns
    simpa only [isDue_counted] using copies
  · exact serves.tracks.record_eq_self (serves.capacity.symm ▸ behind)

/-- A packet with a number. -/
def numberedPacket (number : UInt16) : SentPacket :=
  { source := 0, target := number, timestamp := 0, layer := 0 }

/-- Four packets around the end of a cycle, the third of them late, asked for at once and after
150 ms. -/
def aroundTheEnd : List Call :=
  [.record (numberedPacket 65534), .record (numberedPacket 65535), .record (numberedPacket 1),
    .request 0 [65535, 65535], .record (numberedPacket 0),
    .request (150 * nanosPerMilli) [0, 65535]]

/-- Of a packet that was handed out twice, the last time 150 ms after the first, a third copy is
handed out after more than 100 ms only. What is four behind the newest changes nothing. -/
theorem handed_out_iff_aroundTheEnd :
    ∃ l past, (SendLog.ofCapacity 4).run [] aroundTheEnd = (l, past) ∧
      (l.requestAll (300 * nanosPerMilli) [65535, 65535]).2.filter (fun q => q.target = 65535) =
        [numberedPacket 65535] ∧
      (l.requestAll (250 * nanosPerMilli) [65535]).2.filter (fun q => q.target = 65535) = [] ∧
      l.record (numberedPacket 65533) = l := by
  obtain ⟨l, past, later, earlier, hr, same, places, reach, times, behind⟩ :
      ∃ l past later earlier, (SendLog.ofCapacity 4).run [] aroundTheEnd = (l, past) ∧
        past = later ++ .recorded 65535 (numberedPacket 65535) :: earlier ∧
        (filed later).map Filed.position = [65536, 65537] ∧
        newest (filed past) - 65535 < (4 : Nat) ∧
        copyTimes 65535 later = [150 * nanosPerMilli, 0] ∧
        ((4 : Nat) : Int) ≤ newest (filed past) - next (filed past) 65533 :=
    ⟨_, _, [_, _, _, _], [_], rfl, rfl, rfl, by decide, rfl, by decide⟩
  obtain ⟨served, left⟩ := handed_out_iff (by decide) (by decide) hr
  have apart : ∀ position' p', .recorded position' p' ∈ later → position' ≠ 65535 := by
    rintro position' p' hp rfl
    have place : (65535 : Int) ∈ (filed later).map Filed.position :=
      List.mem_map.2 ⟨_, mem_filed.2 ⟨65535, p', hp, rfl⟩, rfl⟩
    rw [places] at place
    exact absurd place (by decide)
  have asked := served later 65535 (numberedPacket 65535) earlier same apart reach
  change ∀ now ns, _ = if 65535 ∈ ns ∧ MayCopy (copyTimes 65535 later) now then _ else _ at asked
  rw [times] at asked
  exact ⟨l, past, hr, (asked _ _).trans (if_pos (by decide)),
    (asked _ _).trans (if_neg (by decide)), left _ behind⟩

end SendLog

end Simulcast
