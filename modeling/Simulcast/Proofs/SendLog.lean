import Simulcast.SendLog
import Simulcast.Proofs.Filed

/-!
# What a send log hands out

What is recorded is filed in a history, each item at the position of its number next to the
newest one of that time (`Filed`, `Counted`). A log `Tracks` a history when it remembers of
each item that is last under its number and within reach what is to be told of it:

* `Tracks.record`, `Tracks.requestAll`: this holds of every log, whatever is recorded in it and
  asked of it;
* `Tracks.handed`: what is handed out under a number tells of the last item filed under it;
* `Tracks.handed_of_due`: and something is handed out, if the number is due, as every one is that
  was not asked for yet (`Due`).
-/

namespace Simulcast

namespace SendLog

open Filed

variable {ω : Type} {Tells : SentPacket → ω → Prop} {l : SendLog} {h : List (Filed ω)}
  {p : SentPacket} {item : ω} {now : Time} {number : UInt16} {ns : List UInt16}

/-- A log remembers what is to be told of the items of a history. -/
structure Tracks (Tells : SentPacket → ω → Prop) (l : SendLog) (h : List (Filed ω)) : Prop where
  counted : Counted h
  capacity : 0 < l.capacity
  start : h = [] → l.newest = none
  reaches : h ≠ [] → l.Reaches (newest h)
  stored : ∀ {number e}, latest h number = some e → Within h l.capacity e.position →
    ∃ entry : SendLogEntry, l.slotAt e.position = some (number, entry) ∧ Tells entry.packet e.item
  targets : ∀ {i : Nat} {number : UInt16} {entry : SendLogEntry},
    l.slots[i]? = some (some (number, entry)) → entry.packet.target = number

theorem capacity_ofCapacity (n : Nat) : (SendLog.ofCapacity n).capacity = max n 1 :=
  PacketRing.capacity_ofCapacity n

theorem slots_ofCapacity (n : Nat) {i : Nat} {c : UInt16 × SendLogEntry} :
    (SendLog.ofCapacity n).slots[i]? ≠ some (some c) := by
  unfold SendLog.ofCapacity PacketRing.ofCapacity
  rw [Array.getElem?_replicate]
  split <;> nofun

/-- An empty log has nothing to remember. -/
theorem tracks_ofCapacity (n : Nat) : Tracks Tells (SendLog.ofCapacity n) [] where
  counted := .nil
  capacity := by
    rw [capacity_ofCapacity]
    exact Nat.lt_of_lt_of_le Nat.one_pos (Nat.le_max_right n 1)
  start _ := rfl
  reaches hh := absurd rfl hh
  stored hl _ := nomatch hl
  targets hs := absurd hs (slots_ofCapacity n)

theorem Tracks.inStep (ht : Tracks Tells l h) : l.InStep h :=
  ⟨ht.counted, ht.capacity, ht.start, ht.reaches⟩

theorem capacity_record (ht : Tracks Tells l h) : (l.record p).capacity = l.capacity :=
  ht.inStep.capacity_add p.target _

/-- A packet is recorded at its position in the history. -/
theorem Tracks.reaches_record (ht : Tracks Tells l h) :
    (l.record p).Reaches (newest (file h p.target item)) :=
  (ht.inStep.add p.target _ item).reaches (List.cons_ne_nil _ _)

theorem Tracks.slotAt_record_self (ht : Tracks Tells l h)
    (hw : Within (file h p.target item) l.capacity (next h p.target)) :
    (l.record p).slotAt (next h p.target) = some (p.target, { packet := p }) := by
  unfold Within at hw
  rw [newest_file] at hw
  by_cases hh : h = []
  · subst hh
    exact (PacketRing.add_first (ht.start rfl) ht.capacity).2.2
  · rw [next_of_ne_nil hh] at hw ⊢
    exact (ht.reaches hh).add_self (by omega)

theorem Tracks.slotAt_record_other {e : Filed ω} (ht : Tracks Tells l h) (he : e ∈ h)
    (hne : p.target ≠ e.number) (hw : Within (file h p.target item) l.capacity e.position) :
    (l.record p).slotAt e.position = l.slotAt e.position := by
  have hh : h ≠ [] := List.ne_nil_of_mem he
  obtain ⟨same, low, high⟩ := ht.counted.mem he
  unfold Within at hw
  rw [newest_file, next_of_ne_nil hh] at hw
  refine (ht.reaches hh).add_other (fun hp => hne ?_) low high (by omega)
  rw [same, hp, Serial.ofInt_near]

/-- What is recorded is remembered, and so is what else stays within reach. -/
theorem Tracks.record (ht : Tracks Tells l h) (hp : Tells p item) :
    Tracks Tells (l.record p) (file h p.target item) where
  counted := .cons p.target item ht.counted
  capacity := (capacity_record ht).symm ▸ ht.capacity
  start hh := absurd hh (List.cons_ne_nil _ _)
  reaches _ := ht.reaches_record
  stored {number e} hl hw := by
    rw [capacity_record ht] at hw
    by_cases hn : p.target = number
    · subst hn
      rw [latest_file_self] at hl
      cases hl
      exact ⟨_, ht.slotAt_record_self hw, hp⟩
    · rw [latest_file_other hn] at hl
      obtain ⟨he, hnum⟩ := mem_of_latest hl
      rw [ht.slotAt_record_other he (hnum ▸ hn) hw]
      have mono : newest h ≤ newest (file h p.target item) := newest_le_file
      refine ht.stored hl ?_
      unfold Within at hw ⊢
      omega
  targets hs := by
    rcases PacketRing.slots_add hs with he | hs
    · cases he
      rfl
    · exact ht.targets hs

/-! ## Handing out -/

/-- A packet that is handed out is entered as one more copy. -/
theorem request_eq_some (hr : (l.request now number).2 = some p) :
    ∃ entry : SendLogEntry, PacketRing.get? l number = some entry ∧ entry.packet = p ∧
      (l.request now number).1 = PacketRing.replace l number (entry.copied now) := by
  unfold SendLog.request at hr ⊢
  cases hg : PacketRing.get? l number with
  | none => rw [hg] at hr; cases hr
  | some entry =>
    rw [hg] at hr
    dsimp only at hr ⊢
    split at hr
    · rename_i due
      rw [if_pos due]
      cases hr
      exact ⟨entry, rfl, rfl, rfl⟩
    · cases hr

theorem request_eq_none (hr : (l.request now number).2 = none) : (l.request now number).1 = l := by
  unfold SendLog.request at hr ⊢
  cases hg : PacketRing.get? l number with
  | none => rfl
  | some entry =>
    rw [hg] at hr
    dsimp only at hr ⊢
    split at hr
    · cases hr
    · rename_i due
      rw [if_neg due]

/-- Another entry for the same packet does not change what is remembered. -/
theorem Tracks.replace {entry entry' : SendLogEntry} (ht : Tracks Tells l h)
    (hg : PacketRing.get? l number = some entry) (hp : entry'.packet = entry.packet) :
    Tracks Tells (PacketRing.replace l number entry') h where
  counted := ht.counted
  capacity := Nat.lt_of_lt_of_eq ht.capacity PacketRing.capacity_replace.symm
  start hh := PacketRing.newest_replace.trans (ht.start hh)
  reaches hh := (ht.reaches hh).replace
  stored hl hw := by
    rw [PacketRing.capacity_replace] at hw
    obtain ⟨stored, hs, told⟩ := ht.stored hl hw
    rcases PacketRing.slotAt_replace hg hs with same | ⟨he, new⟩
    · exact ⟨stored, same, told⟩
    · refine ⟨entry', new, ?_⟩
      rw [hp, ← he]
      exact told
  targets {i n stored} hs := by
    rcases PacketRing.slots_replace (b := entry') hg i with same | ⟨old, new⟩
    · exact ht.targets (same ▸ hs)
    · rw [new] at hs
      cases hs
      exact hp ▸ ht.targets old

theorem Tracks.request (ht : Tracks Tells l h) (now : Time) (number : UInt16) :
    Tracks Tells (l.request now number).1 h := by
  cases hr : (l.request now number).2 with
  | none => exact (request_eq_none hr).symm ▸ ht
  | some p =>
    obtain ⟨entry, hg, -, he⟩ := request_eq_some hr
    rw [he]
    exact ht.replace hg rfl

/-- The last item under a number, if it is within reach, is told of by what is found under the
number. -/
theorem Tracks.get {e : Filed ω} (ht : Tracks Tells l h) (hl : latest h number = some e)
    (hw : Within h l.capacity e.position) :
    ∃ entry : SendLogEntry, PacketRing.get? l number = some entry ∧ Tells entry.packet e.item := by
  obtain ⟨he, hnum⟩ := mem_of_latest hl
  obtain ⟨same, -, high⟩ := ht.counted.mem he
  obtain ⟨entry, hs, told⟩ := ht.stored hl hw
  unfold Within at hw
  refine ⟨entry, ?_, told⟩
  exact (ht.reaches (List.ne_nil_of_mem he)).get_eq (hnum ▸ same) (by omega) high (by omega) hs

/-- What is handed out under a number is a packet with that number, and it tells of the last
item that was filed under it within reach. -/
theorem Tracks.request_found (ht : Tracks Tells l h) (hr : (l.request now number).2 = some p) :
    p.target = number ∧
      ∀ e, latest h number = some e → Within h l.capacity e.position → Tells p e.item := by
  obtain ⟨entry, hg, rfl, -⟩ := request_eq_some hr
  constructor
  · obtain ⟨_, -, hs⟩ := PacketRing.slot_of_get hg
    exact ht.targets hs
  · intro e hl hw
    obtain ⟨found, hf, told⟩ := ht.get hl hw
    rw [hg] at hf
    cases hf
    exact told

theorem capacity_request (now : Time) (number : UInt16) :
    (l.request now number).1.capacity = l.capacity := by
  unfold SendLog.request
  split
  · rfl
  · split
    · exact PacketRing.capacity_replace
    · rfl

/-- Handing out keeps what is remembered and how much of it. -/
theorem Tracks.requestAll (ht : Tracks Tells l h) (now : Time) (ns : List UInt16) :
    Tracks Tells (l.requestAll now ns).1 h ∧ (l.requestAll now ns).1.capacity = l.capacity := by
  induction ns generalizing l with
  | nil => exact ⟨ht, rfl⟩
  | cons n ns ih =>
    obtain ⟨tracks, capacity⟩ := ih (ht.request now n)
    exact ⟨tracks, capacity.trans (capacity_request now n)⟩

/-- The packets that are handed out have some of the numbers asked for, in turn. Each tells of
the last item that was filed under its number within reach. -/
theorem Tracks.handed (ht : Tracks Tells l h) (now : Time) (ns : List UInt16) :
    ((l.requestAll now ns).2.map SentPacket.target).Sublist ns ∧
      ∀ p ∈ (l.requestAll now ns).2, ∀ e, latest h p.target = some e →
        Within h l.capacity e.position → Tells p e.item := by
  induction ns generalizing l with
  | nil => exact ⟨.slnil, fun p hp => nomatch hp⟩
  | cons n ns ih =>
    obtain ⟨sub, tell⟩ := ih (ht.request now n)
    rw [capacity_request] at tell
    simp only [SendLog.requestAll]
    cases hr : (l.request now n).2 with
    | none => exact ⟨sub.cons n, tell⟩
    | some p =>
      obtain ⟨target, told⟩ := ht.request_found hr
      rw [Option.toList_some, List.cons_append, List.nil_append, List.map_cons, target]
      refine ⟨sub.cons_cons n, fun p' hp' => ?_⟩
      rcases List.mem_cons.1 hp' with rfl | hp'
      · rw [target]
        exact told
      · exact tell p' hp'

/-! ## Numbers that are due -/

/-- Whatever is stored under a number may be handed out at any time. -/
def Due (l : SendLog) (number : UInt16) : Prop :=
  ∀ (i : Nat) (entry : SendLogEntry), l.slots[i]? = some (some (number, entry)) →
    ∀ now, entry.isDue now = true

theorem due_ofCapacity (n : Nat) (number : UInt16) : Due (SendLog.ofCapacity n) number :=
  fun _ _ hs => absurd hs (slots_ofCapacity n)

/-- What is recorded is due. -/
theorem Due.record (hd : Due l number) (p : SentPacket) : Due (l.record p) number := by
  intro i entry hs
  rcases PacketRing.slots_add hs with he | hs
  · cases he
    exact fun _ => rfl
  · exact hd i entry hs

/-- To ask for another number leaves a number due. -/
theorem Due.request {other : UInt16} (hd : Due l number) (hne : other ≠ number) (now : Time) :
    Due (l.request now other).1 number := by
  cases hr : (l.request now other).2 with
  | none => exact (request_eq_none hr).symm ▸ hd
  | some p =>
    obtain ⟨found, hg, -, he⟩ := request_eq_some hr
    rw [he]
    intro i entry hs
    rcases PacketRing.slots_replace (b := found.copied now) hg i with same | ⟨-, new⟩
    · exact hd i entry (same ▸ hs)
    · rw [new] at hs
      cases hs
      exact absurd rfl hne

theorem Due.requestAll (hd : Due l number) (hn : number ∉ ns) (now : Time) :
    Due (l.requestAll now ns).1 number := by
  induction ns generalizing l with
  | nil => exact hd
  | cons n ns ih =>
    obtain ⟨hne, hn⟩ := not_or.1 (mt List.mem_cons.2 hn)
    exact ih (hd.request (Ne.symm hne) now) hn

/-- A number that is due, and under which an item is within reach, gets a packet when it is
asked for. -/
theorem Tracks.handed_of_due {e : Filed ω} (ht : Tracks Tells l h) (hd : Due l number)
    (hl : latest h number = some e) (hw : Within h l.capacity e.position) (now : Time)
    (hn : number ∈ ns) : number ∈ (l.requestAll now ns).2.map SentPacket.target := by
  induction ns generalizing l with
  | nil => cases hn
  | cons n ns ih =>
    simp only [SendLog.requestAll, List.map_append, List.mem_append]
    by_cases hne : n = number
    · subst hne
      obtain ⟨entry, hg, -⟩ := ht.get hl hw
      obtain ⟨_, -, hs⟩ := PacketRing.slot_of_get hg
      have found : (l.request now n).2 = some entry.packet := by
        simp only [SendLog.request, hg, hd _ _ hs now, if_true]
      refine .inl ?_
      rw [found, Option.toList_some, List.map_singleton, List.mem_singleton]
      exact (ht.targets hs).symm
    · refine .inr (ih (ht.request now n) (hd.request hne now) ?_ ?_)
      · rw [capacity_request]
        exact hw
      · exact (List.mem_cons.1 hn).resolve_left (Ne.symm hne)

/-! ## Asking again -/

/-- To ask for more numbers at the same time is to ask again. -/
theorem requestAll_append (l : SendLog) (now : Time) (ns ms : List UInt16) :
    l.requestAll now (ns ++ ms) =
      (((l.requestAll now ns).1.requestAll now ms).1,
        (l.requestAll now ns).2 ++ ((l.requestAll now ns).1.requestAll now ms).2) := by
  induction ns generalizing l with
  | nil => rfl
  | cons n ns ih => simp only [List.cons_append, SendLog.requestAll, ih, List.append_assoc]

end SendLog

end Simulcast
