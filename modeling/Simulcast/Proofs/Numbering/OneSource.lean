import Simulcast.Intake.Basic
import Simulcast.Proofs.Numbering.Position

/-!
# The packets of one source

A `Feed` puts the packets of one source through a fresh numbering, in whatever order
they come in, and leaves some of the newest ones out after they were placed. It keeps
a record of each packet: its position in the source, as the intake counts it, and
what came of it.

`run_places` says what the record of a whole run looks like: which packets are
placed, and that each gets its position in the source less the number of packets left
out before it. The invariant is `Inv`, with one step for a late packet (`Inv.late`)
and one for the newest (`Inv.head`).
-/

namespace Simulcast.Numbering

/-- A packet that was put through a numbering, with what came of it. -/
structure Passage where
  arrival : Arrival
  /-- Its number in the source, counted on without wrapping. -/
  position : Int
  result : Except Fault Placement
  /-- The packet was placed, and left out after all. -/
  dropped : Bool

namespace Passage

/-- The packet was given a place. -/
def placed (e : Passage) : Bool := e.result.isOk

/-- The packet was absorbed, since it only holds padding. -/
def absorbed (e : Passage) : Bool :=
  match e.result with
  | .error .paddingOnly => true
  | _ => false

/-- The packet was the newest one, and the next packets take its place. -/
def leftOut (e : Passage) : Bool := e.arrival.head && (e.absorbed || e.dropped)

end Passage

/-- How many packets before a position were left out. -/
def leftOutBefore (passages : List Passage) (position : Int) : Nat :=
  passages.countP fun e => e.leftOut && e.position < position

/-- A numbering at work on one source. -/
structure Feed where
  numbering : Numbering
  /-- The position of the newest packet. -/
  newest : Option Int := none
  /-- The packets that came in, the last one first. -/
  passages : List Passage := []

namespace Feed

/-- The position of a number: that of the first packet is its number, and every other
number stands at the position nearest to the newest packet. -/
def positionOf (f : Feed) (number : UInt16) : Int :=
  match f.newest with
  | none => number.toNat
  | some p => p + Serial.lead number (UInt16.ofInt p)

/-- Puts a packet through, and leaves it out after all if it was placed, is the newest
one and is to be dropped. -/
def pass (f : Feed) (a : Arrival) (position : Int) (drop : Bool) : Feed :=
  let (numbering, result) := f.numbering.place a
  let dropped := drop && a.head && result.isOk
  { numbering := if dropped then numbering.drop a else numbering
    newest := if a.head then some position else f.newest
    passages := { arrival := a, position, result, dropped } :: f.passages }

/-- Puts a packet through as it comes from the intake, which tells whether it is the
newest one. -/
def take (f : Feed) (a : Arrival) (drop : Bool) : Feed :=
  f.pass { a with head := Intake.isHead (f.newest.map UInt16.ofInt) a.number }
    (f.positionOf a.number) drop

/-- Puts packets through in turn. -/
def takeAll (f : Feed) (packets : List (Arrival × Bool)) : Feed :=
  packets.foldl (fun f p => f.take p.1 p.2) f

/-- A run over one source: a numbering is started with the first packet, and every
packet is put through, the first one included. -/
def run (first : Arrival × Bool) (rest : List (Arrival × Bool)) : Feed :=
  takeAll { numbering := ({} : Numbering).start first.1 } (first :: rest)

end Feed

/-! ## What is left out -/

theorem leftOutBefore_cons (e : Passage) (ps : List Passage) (p : Int) :
    leftOutBefore (e :: ps) p =
      leftOutBefore ps p + if e.leftOut = true ∧ e.position < p then 1 else 0 := by
  simp [leftOutBefore, List.countP_cons]

theorem leftOutBefore_cons_of_le {e : Passage} {ps : List Passage} {p : Int} (h : p ≤ e.position) :
    leftOutBefore (e :: ps) p = leftOutBefore ps p := by
  rw [leftOutBefore_cons, if_neg fun h' => by omega, Nat.add_zero]

theorem leftOutBefore_cons_of_kept {e : Passage} {ps : List Passage} (h : e.leftOut = false)
    (p : Int) : leftOutBefore (e :: ps) p = leftOutBefore ps p := by
  rw [leftOutBefore_cons, if_neg fun h' => by simp [h] at h', Nat.add_zero]

/-- Behind the last packet left out, the count stays. -/
theorem leftOutBefore_congr {ps : List Passage} {p q : Int}
    (h : ∀ e ∈ ps, e.leftOut = true → (e.position < p ↔ e.position < q)) :
    leftOutBefore ps p = leftOutBefore ps q := by
  refine List.countP_congr fun e he => ?_
  cases hl : e.leftOut with
  | false => simp
  | true => simp [h e he hl]

/-! ## The invariant -/

/-- How a packet stands to those before it: its position, whether it is the newest
one, and whether it is placed. -/
structure Fits (first : Int) (e : Passage) (older : List Passage) : Prop where
  number : UInt16.ofInt e.position = e.arrival.number
  head_iff : e.arrival.head = true ↔ ∀ o ∈ older, o.position < e.position
  unseen : e.placed = true → ∀ o ∈ older, o.position ≠ e.position
  late_iff : e.arrival.head = false →
    (e.placed = true ↔ first < e.position ∧ (∀ o ∈ older, o.position ≤ e.position + 100) ∧
      ∀ o ∈ older, o.position ≠ e.position)

namespace Feed

/-- What holds of a feed that has come to the position `newest`: the numbering stands
there, and the record is right so far. -/
structure Inv (f : Feed) (first newest : Int) (awaited : List Int) : Prop where
  stands : f.numbering.At newest (leftOutBefore f.passages) awaited
  awaits : ∀ p, p ∈ awaited ↔
    first < p ∧ p < newest ∧ newest ≤ p + 100 ∧ ∀ e ∈ f.passages, e.position ≠ p
  le_newest : ∀ e ∈ f.passages, e.position ≤ newest
  numbered : ∀ e ∈ f.passages, e.dropped = false → ∀ p, e.result = .ok p →
    p.number = UInt16.ofInt (e.position - leftOutBefore f.passages e.position)
  history : ∀ newer e older, f.passages = newer ++ e :: older → Fits first e older

/-- The newest packet has come in, and is not older than the first one. -/
structure Reached (f : Feed) (first newest : Int) : Prop where
  newest_eq : f.newest = some newest
  attained : ∃ e ∈ f.passages, e.position = newest
  first_le : first ≤ newest

theorem Inv.start (a : Arrival) (h : Int) (hh : h = a.number.toNat) :
    Inv { numbering := ({} : Numbering).start a } h (h - 1) [] where
  stands := hh ▸ At.start a
  awaits p := by simp; omega
  le_newest := by simp
  numbered := by simp
  history := by simp

variable {f : Feed} {first newest position : Int} {awaited : List Int} {a : Arrival}

/-- A record grows by a packet that fits. -/
theorem Inv.history_cons (h : f.Inv first newest awaited) {e : Passage}
    (he : Fits first e f.passages) :
    ∀ newer e' older, e :: f.passages = newer ++ e' :: older → Fits first e' older
  | [], e', older, hs => by
    obtain ⟨rfl, rfl⟩ := List.cons.inj hs
    exact he
  | _ :: newer, e', older, hs => h.history newer e' older (List.cons.inj hs).2

theorem pass_reached (drop : Bool) (ha : a.head = true) (hf : first ≤ position) :
    (f.pass a position drop).Reached first position := by
  simp only [pass, ha, if_true]
  exact ⟨rfl, ⟨_, List.mem_cons_self, rfl⟩, hf⟩

theorem Reached.late (drop : Bool) (h : f.Reached first newest) (ha : a.head = false) :
    (f.pass a position drop).Reached first newest := by
  obtain ⟨e, he, hp⟩ := h.attained
  refine ⟨?_, ⟨e, ?_, hp⟩, h.first_le⟩
  · simp only [pass, ha, Bool.false_eq_true, if_false]
    exact h.newest_eq
  · simp only [pass]
    exact List.mem_cons_of_mem _ he

/-- What a late packet leaves as it was, and what it adds to the record. -/
theorem pass_late (drop : Bool) (ha : a.head = false) :
    f.pass a position drop =
      { numbering := (f.numbering.placeLate a).1
        newest := f.newest
        passages := { arrival := a, position, result := (f.numbering.placeLate a).2
                      dropped := false } :: f.passages } := by
  simp only [pass, place, ha, Bool.and_false, Bool.false_and, Bool.false_eq_true, if_false]

/-- A packet is awaited if and only if it is newer than the first one, near the newest
one and has not come in. -/
theorem Inv.mem_awaited_iff (h : f.Inv first newest awaited) (hr : f.Reached first newest)
    (h1 : position ≤ newest) :
    position ∈ awaited ↔ first < position ∧ (∀ o ∈ f.passages, o.position ≤ position + 100) ∧
      ∀ o ∈ f.passages, o.position ≠ position := by
  obtain ⟨top, htop, rfl⟩ := hr.attained
  rw [h.awaits]
  constructor
  · rintro ⟨hf, -, hnear, hne⟩
    refine ⟨hf, fun o ho => ?_, hne⟩
    have := h.le_newest o ho
    omega
  · rintro ⟨hf, hnear, hne⟩
    have := hne top htop
    exact ⟨hf, by omega, hnear top htop, hne⟩

/-- What a late packet keeps. -/
theorem Inv.late (drop : Bool) (h : f.Inv first newest awaited) (hr : f.Reached first newest)
    (ha : a.head = false) (hn : UInt16.ofInt position = a.number) (h1 : position ≤ newest)
    (h2 : newest - position ≤ 0x8000) :
    (f.pass a position drop).Inv first newest (awaited.erase position) := by
  obtain ⟨hat, hplaced, hnum⟩ := h.stands.placeLate hn.symm h1 h2
  have awaited_iff := h.mem_awaited_iff hr h1
  have nodup : awaited.Nodup := h.stands.sorted.imp fun hlt => Int.ne_of_lt hlt
  rw [pass_late drop ha]
  generalize (f.numbering.placeLate a).2 = result at hplaced hnum
  have count : leftOutBefore ({ arrival := a, position, result, dropped := false } :: f.passages) =
      leftOutBefore f.passages :=
    funext (leftOutBefore_cons_of_kept (by simp [Passage.leftOut, ha]))
  refine ⟨by rw [count]; exact hat, fun p => ?_, ?_, ?_, h.history_cons ⟨hn, ?_, fun hpl => ?_, fun _ => ?_⟩⟩
  · rw [nodup.mem_erase_iff, h.awaits, List.forall_mem_cons]
    simp only [ne_comm (a := position)]
    tauto
  · exact List.forall_mem_cons.2 ⟨h1, h.le_newest⟩
  · rw [count]
    exact List.forall_mem_cons.2 ⟨fun _ => hnum, h.numbered⟩
  · obtain ⟨top, htop, rfl⟩ := hr.attained
    refine iff_of_false (by simp [ha]) fun hall => ?_
    have : top.position < position := hall top htop
    omega
  · exact (awaited_iff.1 (hplaced.1 hpl)).2.2
  · exact hplaced.trans awaited_iff

/-! ## The newest packet -/

/-- What the newest packet adds to the record. -/
theorem pass_head (drop : Bool) (ha : a.head = true) :
    f.pass a position drop =
      { numbering := if drop && (f.numbering.placeHead a).2.isOk then
          (f.numbering.placeHead a).1.leaveOut a else (f.numbering.placeHead a).1
        newest := some position
        passages := { arrival := a, position, result := (f.numbering.placeHead a).2
                      dropped := drop && (f.numbering.placeHead a).2.isOk } :: f.passages } := by
  simp only [pass, place, Numbering.drop, ha, Bool.and_true, if_true]

/-- Behind the newest packet, nothing more is left out so far. -/
theorem Inv.leftOut_behind (h : f.Inv first newest awaited) {p : Int} (hp : newest < p) :
    leftOutBefore f.passages p = leftOutBefore f.passages (newest + 1) := by
  refine leftOutBefore_congr fun e he _ => ?_
  have := h.le_newest e he
  omega

/-- Where the numbering stands after the newest packet. -/
theorem Inv.head_stands (drop : Bool) (h : f.Inv first newest awaited) (ha : a.head = true)
    (hn : UInt16.ofInt position = a.number) (h1 : newest < position)
    (h2 : position - newest < 0x8000) :
    (f.pass a position drop).numbering.At position
        (leftOutBefore (f.pass a position drop).passages) (awaitedAfter newest position awaited) ∧
      ∀ p, (f.numbering.placeHead a).2 = .ok p →
        p.number = UInt16.ofInt (position - leftOutBefore f.passages position) := by
  rw [pass_head drop ha, h.leftOut_behind h1]
  have behind : ∀ p, newest < p → p ≤ position →
      leftOutBefore f.passages p = leftOutBefore f.passages (newest + 1) :=
    fun p hp _ => h.leftOut_behind hp
  by_cases hs : newest + 1 < position ∨ a.carriesMedia = true
  · obtain ⟨⟨p, hok, hnum⟩, hat⟩ := h.stands.placeHead_sent hn.symm h1 h2 behind hs
    have sent : (f.numbering.placeHead a).1.At position (leftOutBefore f.passages)
        (awaitedAfter newest position awaited) :=
      hat _ (fun _ _ => rfl) (h.leftOut_behind (by omega))
    refine ⟨?_, fun q hq => ?_⟩
    · cases drop with
      | false =>
        rw [hok]
        refine hat _ (fun q hq => leftOutBefore_cons_of_le hq) ?_
        rw [leftOutBefore_cons_of_kept (by simp [Passage.leftOut, Passage.absorbed]),
          h.leftOut_behind (by omega)]
      | true =>
        rw [hok]
        refine sent.leaveOut hn.symm (fun q hq => leftOutBefore_cons_of_le hq) ?_
        rw [leftOutBefore_cons, if_pos]
        exact ⟨by simp [Passage.leftOut, Except.isOk, Except.toBool, ha], Int.lt_succ position⟩
    · rw [hok] at hq
      cases hq
      exact hnum
  · obtain ⟨hgap, hmedia⟩ := not_or.1 hs
    obtain rfl : position = newest + 1 := by omega
    obtain ⟨herr, hat⟩ := h.stands.placeHead_padding hn.symm (by simpa using hmedia)
    refine ⟨?_, fun q hq => by rw [herr] at hq; cases hq⟩
    rw [herr]
    simp only [Except.isOk, Except.toBool, Bool.and_false, Bool.false_eq_true, if_false]
    refine hat _ (fun q hq => leftOutBefore_cons_of_le hq) ?_
    rw [leftOutBefore_cons, if_pos, h.leftOut_behind (by omega)]
    exact ⟨by simp [Passage.leftOut, Passage.absorbed, ha], Int.lt_succ (newest + 1)⟩

/-- Up to the newest packet, the packets that have not come in are the lost ones and
those that were awaited before, but for those too far behind. -/
theorem Inv.awaits_past (h : f.Inv first newest awaited)
    (hf : f.Reached first newest ∨ newest + 1 = first ∧ position = first) (h1 : newest < position)
    {p : Int} (hp : position ≤ p + 100) :
    (p ∈ awaited ∨ newest < p ∧ p < position) ↔
      first < p ∧ p < position ∧ ∀ o ∈ f.passages, o.position ≠ p := by
  rw [h.awaits]
  constructor
  · rintro (⟨hf1, hp1, -, hne⟩ | ⟨hp1, hp2⟩)
    · exact ⟨hf1, by omega, hne⟩
    · refine ⟨?_, hp2, fun o ho => ?_⟩
      · rcases hf with hr | ⟨hf, rfl⟩
        · have := hr.first_le
          omega
        · omega
      · have := h.le_newest o ho
        omega
  · rintro ⟨hf1, hp1, hne⟩
    by_cases hp2 : newest < p
    · exact .inr ⟨hp2, hp1⟩
    · rcases hf with hr | ⟨hf, rfl⟩
      · obtain ⟨top, htop, rfl⟩ := hr.attained
        have := hne top htop
        exact .inl ⟨hf1, by omega, by omega, hne⟩
      · omega

/-- What the newest packet keeps. -/
theorem Inv.head (drop : Bool) (h : f.Inv first newest awaited) (ha : a.head = true)
    (hn : UInt16.ofInt position = a.number) (h1 : newest < position)
    (h2 : position - newest < 0x8000)
    (hf : f.Reached first newest ∨ newest + 1 = first ∧ position = first) :
    (f.pass a position drop).Inv first position (awaitedAfter newest position awaited) := by
  obtain ⟨hat, hnum⟩ := h.head_stands drop ha hn h1 h2
  have older : ∀ o ∈ f.passages, o.position < position := fun o ho => by
    have := h.le_newest o ho
    omega
  rw [pass_head drop ha] at hat ⊢
  generalize (f.numbering.placeHead a).2 = result at hat hnum ⊢
  refine ⟨hat, fun p => ?_, ?_, ?_, h.history_cons ⟨hn, ?_, fun _ => ?_, fun hl => ?_⟩⟩
  · rw [At.mem_awaitedAfter h1, List.forall_mem_cons, and_congr_right (h.awaits_past hf h1)]
    simp only [ne_eq]
    constructor
    · rintro ⟨hp, hf1, hp1, hne⟩
      exact ⟨hf1, hp1, hp, by omega, hne⟩
    · rintro ⟨hf1, hp1, hp, -, hne⟩
      exact ⟨hp, hf1, hp1, hne⟩
  · exact List.forall_mem_cons.2 ⟨Int.le_refl _, fun o ho => Int.le_of_lt (older o ho)⟩
  · refine List.forall_mem_cons.2 ⟨fun _ p hp => ?_, fun o ho hd p hp => ?_⟩
    · rw [leftOutBefore_cons_of_le (Int.le_refl _)]
      exact hnum p hp
    · rw [leftOutBefore_cons_of_le (Int.le_of_lt (older o ho))]
      exact h.numbered o ho hd p hp
  · exact iff_of_true ha older
  · exact fun o ho => Int.ne_of_lt (older o ho)
  · rw [ha] at hl
    cases hl

/-! ## Runs -/

theorem ofInt_positionOf (f : Feed) (number : UInt16) :
    UInt16.ofInt (f.positionOf number) = number := by
  cases h : f.newest with
  | none => simp only [positionOf, h, Serial.ofInt_toNat]
  | some p => simp only [positionOf, h, Serial.ofInt_add_lead]

/-- The invariant holds from the first packet on. -/
theorem take_first (a : Arrival) (drop : Bool) :
    ∃ awaited, (Feed.take { numbering := ({} : Numbering).start a } a drop).Inv a.number.toNat
        a.number.toNat awaited ∧
      (Feed.take { numbering := ({} : Numbering).start a } a drop).Reached a.number.toNat
        a.number.toNat := by
  have position : Feed.positionOf { numbering := ({} : Numbering).start a } a.number =
      a.number.toNat := rfl
  rw [Feed.take, position]
  exact ⟨_, (Inv.start a _ rfl).head drop rfl (Serial.ofInt_toNat _) (by omega) (by omega)
    (.inr ⟨by omega, rfl⟩), pass_reached drop rfl (Int.le_refl _)⟩

/-- Every packet keeps the invariant: it stands at most half a cycle from the newest
one, on one side or the other. -/
theorem Inv.take (drop : Bool) (h : f.Inv first newest awaited) (hr : f.Reached first newest) :
    ∃ newest' awaited', (f.take a drop).Inv first newest' awaited' ∧
      (f.take a drop).Reached first newest' := by
  have number := f.ofInt_positionOf a.number
  have position : f.positionOf a.number = newest + Serial.lead a.number (UInt16.ofInt newest) := by
    simp only [positionOf, hr.newest_eq]
  have bounds := Serial.lead_bounds a.number (UInt16.ofInt newest)
  have ahead := Serial.isAhead_iff a.number (UInt16.ofInt newest)
  rw [Feed.take, hr.newest_eq, Option.map_some]
  cases hh : Intake.isHead (some (UInt16.ofInt newest)) a.number with
  | true =>
    have := ahead.1 hh
    have hf := hr.first_le
    exact ⟨_, _, h.head drop rfl number (by omega) (by omega) (.inl hr),
      pass_reached drop rfl (by omega)⟩
  | false =>
    have := mt ahead.2 (Bool.eq_false_iff.1 hh)
    exact ⟨_, _, h.late drop hr rfl number (by omega) (by omega), hr.late drop rfl⟩

theorem Inv.takeAll (packets : List (Arrival × Bool)) (h : f.Inv first newest awaited)
    (hr : f.Reached first newest) :
    ∃ newest' awaited', (f.takeAll packets).Inv first newest' awaited' := by
  induction packets generalizing f newest awaited with
  | nil => exact ⟨_, _, h⟩
  | cons p packets ih =>
    obtain ⟨_, _, h', hr'⟩ := h.take (a := p.1) p.2 hr
    exact ih h' hr'

/-- The record goes back to the first packet. -/
theorem getLast?_takeAll (packets : List (Arrival × Bool)) {e : Passage}
    (h : f.passages.getLast? = some e) : (f.takeAll packets).passages.getLast? = some e := by
  induction packets generalizing f with
  | nil => exact h
  | cons p packets ih =>
    refine ih (f := f.take p.1 p.2) ?_
    simp only [Feed.take, pass, List.getLast?_cons, h, Option.getD_some]

/-- The packets that are put through are those that the intake queues. -/
theorem queue_foldl_accept (packets : List (Arrival × Bool)) {i : Intake} (hc : i.closed = false)
    (hn : i.newest = f.newest.map UInt16.ofInt)
    (hq : i.queue = f.passages.reverse.map Passage.arrival) :
    ((packets.map Prod.fst).foldl Intake.accept i).queue =
      (f.takeAll packets).passages.reverse.map Passage.arrival := by
  induction packets generalizing f i with
  | nil => exact hq
  | cons p packets ih =>
    have number := f.ofInt_positionOf p.1.number
    refine ih (f := f.take p.1 p.2) ?_ ?_ ?_
    · simp only [Intake.accept, hc, Bool.false_eq_true, if_false]
    · simp only [Intake.accept, hc, Bool.false_eq_true, if_false, Feed.take, pass, hn]
      split
      · rw [Option.map_some, number]
        rfl
      · rfl
    · simp only [Intake.accept, hc, Bool.false_eq_true, if_false, Feed.take, pass, hn, hq,
        List.reverse_cons, List.map_append, List.map_cons, List.map_nil]

end Feed

/-! ## The places of a run -/

/-- A position less what was left out before it. -/
def targetOf (passages : List Passage) (position : Int) : Int :=
  position - leftOutBefore passages position

/-- The packets at a position that were left out: at most one, as only the newest
packet can be. -/
theorem leftOutBefore_succ {first : Int} {passages : List Passage}
    (h : ∀ newer e older, passages = newer ++ e :: older → Fits first e older) (position : Int) :
    ((∃ e ∈ passages, e.leftOut = true ∧ e.position = position) →
        leftOutBefore passages (position + 1) = leftOutBefore passages position + 1) ∧
      ((¬∃ e ∈ passages, e.leftOut = true ∧ e.position = position) →
        leftOutBefore passages (position + 1) = leftOutBefore passages position) := by
  induction passages with
  | nil => simp [leftOutBefore]
  | cons e older ih =>
    obtain ⟨ih1, ih2⟩ := ih fun newer e' older' he => h (e :: newer) e' older' (by rw [he]; rfl)
    have fits := h [] e older rfl
    rw [leftOutBefore_cons, leftOutBefore_cons]
    by_cases he : e.leftOut = true ∧ e.position = position
    · obtain ⟨hl, rfl⟩ := he
      have below := fits.head_iff.1 (by simp only [Passage.leftOut, Bool.and_eq_true] at hl; exact hl.1)
      have none : ¬∃ o ∈ older, o.leftOut = true ∧ o.position = e.position := by
        rintro ⟨o, ho, -, heq⟩
        have := below o ho
        omega
      rw [ih2 none, if_pos ⟨hl, by omega⟩, if_neg (by omega)]
      exact ⟨fun _ => rfl, fun hno => absurd ⟨e, List.mem_cons_self, hl, rfl⟩ hno⟩
    · have same : (e.leftOut = true ∧ e.position < position + 1) ↔
          (e.leftOut = true ∧ e.position < position) := by
        refine and_congr_right fun hl => ⟨fun hp => ?_, fun hp => by omega⟩
        have : e.position ≠ position := fun heq => he ⟨hl, heq⟩
        omega
      simp only [same, List.mem_cons, exists_eq_or_imp, he, false_or]
      exact ⟨fun hex => by rw [ih1 hex]; omega, fun hno => by rw [ih2 hno]⟩

theorem targetOf_succ {first : Int} {passages : List Passage}
    (h : ∀ newer e older, passages = newer ++ e :: older → Fits first e older) (position : Int) :
    ((∃ e ∈ passages, e.leftOut = true ∧ e.position = position) →
        targetOf passages (position + 1) = targetOf passages position) ∧
      ((¬∃ e ∈ passages, e.leftOut = true ∧ e.position = position) →
        targetOf passages (position + 1) = targetOf passages position + 1) := by
  obtain ⟨h1, h2⟩ := leftOutBefore_succ h position
  simp only [targetOf]
  exact ⟨fun he => by rw [h1 he]; omega, fun hn => by rw [h2 hn]; omega⟩

theorem targetOf_mono {first : Int} {passages : List Passage}
    (h : ∀ newer e older, passages = newer ++ e :: older → Fits first e older) (position : Int)
    (n : Nat) : targetOf passages position ≤ targetOf passages (position + n) := by
  induction n with
  | zero => simp
  | succ n ih =>
    obtain ⟨h1, h2⟩ := targetOf_succ h (position + n)
    rw [Int.natCast_succ, ← Int.add_assoc]
    by_cases he : ∃ e ∈ passages, e.leftOut = true ∧ e.position = position + n
    · rw [h1 he]
      exact ih
    · rw [h2 he]
      omega

/-- No packet is left out at the position of one that is sent. -/
theorem sent_ne_leftOut {first : Int} {passages : List Passage}
    (h : ∀ newer e older, passages = newer ++ e :: older → Fits first e older) {e o : Passage}
    (he : e ∈ passages) (ho : o ∈ passages) (hp : e.placed = true) (hd : e.dropped = false)
    (hl : o.leftOut = true) : o.position ≠ e.position := by
  obtain ⟨newer, older, rfl⟩ := List.append_of_mem ho
  have head : o.arrival.head = true ∧ (o.absorbed = true ∨ o.dropped = true) := by
    simpa only [Passage.leftOut, Bool.and_eq_true, Bool.or_eq_true] using hl
  rcases List.mem_append.1 he with hn | hn
  · obtain ⟨n1, n2, rfl⟩ := List.append_of_mem hn
    refine (h n1 e (n2 ++ o :: older) (by simp)).unseen hp o ?_
    exact List.mem_append_right _ List.mem_cons_self
  · rcases List.mem_cons.1 hn with rfl | hn
    · rcases head.2 with ha | ha
      · cases hr : e.result <;> simp [Passage.placed, Passage.absorbed, hr, Except.isOk, Except.toBool] at hp ha
      · simp [hd] at ha
    · have := (h newer o older rfl).head_iff.1 head.1 e hn
      omega

/-- What is sent comes before everything that follows it in the source. -/
theorem targetOf_lt {first : Int} {passages : List Passage}
    (h : ∀ newer e older, passages = newer ++ e :: older → Fits first e older) {e : Passage}
    (he : e ∈ passages) (hp : e.placed = true) (hd : e.dropped = false) {position : Int}
    (hlt : e.position < position) : targetOf passages e.position < targetOf passages position := by
  have step := (targetOf_succ h e.position).2 fun ⟨o, ho, hl, heq⟩ =>
    sent_ne_leftOut h he ho hp hd hl heq
  have mono := targetOf_mono h (e.position + 1) (position - (e.position + 1)).toNat
  rw [Int.toNat_of_nonneg (by omega), show e.position + 1 + (position - (e.position + 1)) = position
    by omega] at mono
  omega

/-- Every run over one source, with any packets lost, late, repeated or left out:

* the packets are those that an intake queues, so that the newest ones are told from
  the late ones as the intake does, and positions count from the first one's number;
* a packet that is sent gets the number of its `targetOf`;
* the targets follow each other: one that was left out leaves no hole, and every other
  position, lost or not, takes up one;
* the packets that are sent keep their order;
* no position is placed twice, and a late packet is placed if and only if it is newer
  than the first one, at most 100 behind the newest, and was never seen (`Fits`). -/
theorem run_places (first : Arrival × Bool) (rest : List (Arrival × Bool)) (ssrc : UInt32)
    (codec : Codec) (settings : IntakeSettings) :
    let ps := (Feed.run first rest).passages
    (((first :: rest).map Prod.fst).foldl Intake.accept (.empty ssrc codec settings)).queue =
        ps.reverse.map Passage.arrival ∧
      ps.getLast?.map Passage.position = some (first.1.number.toNat : Int) ∧
      (∀ e ∈ ps, e.dropped = false → ∀ p, e.result = .ok p →
        p.number = UInt16.ofInt (targetOf ps e.position)) ∧
      (∀ position,
        ((∃ e ∈ ps, e.leftOut = true ∧ e.position = position) →
          targetOf ps (position + 1) = targetOf ps position) ∧
        ((¬∃ e ∈ ps, e.leftOut = true ∧ e.position = position) →
          targetOf ps (position + 1) = targetOf ps position + 1)) ∧
      (∀ e ∈ ps, ∀ e' ∈ ps, e.placed = true → e.dropped = false → e.position < e'.position →
        targetOf ps e.position < targetOf ps e'.position) ∧
      ∀ newer e older, ps = newer ++ e :: older → Fits first.1.number.toNat e older := by
  intro ps
  obtain ⟨_, inv₀, reached₀⟩ := Feed.take_first first.1 first.2
  obtain ⟨newest, awaited, inv⟩ := inv₀.takeAll rest reached₀
  have history := inv.history
  refine ⟨?_, ?_, inv.numbered, fun position => targetOf_succ history position, ?_, history⟩
  · exact Feed.queue_foldl_accept (first :: rest) rfl rfl rfl
  · rw [show ps.getLast? = _ from Feed.getLast?_takeAll rest rfl]
    rfl
  · exact fun e he _ _ hp hd hlt => targetOf_lt history he hp hd hlt

end Simulcast.Numbering
