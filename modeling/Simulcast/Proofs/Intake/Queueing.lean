import Simulcast.Proofs.Intake.Reading
import Simulcast.Proofs.PacketRing.LookUp

/-!
# What an intake delivers

What is done with an intake is noted down, the last thing first (`Intake.Deed`). From these notes
follows which packets were taken in (`taken`): those that were written without fault before the
intake was closed. Each of them has a position next to the newest one of its time, and its head
mark says whether it moved that on (`leads`, `stamped`).

An intake `Holds` what its notes say, whatever is done with it (`Holds.perform`): its queue has the
packets that were taken in and not delivered yet, its ring has them all, and its newest number is
that of the ring. So every reader gets the packets in turn, and the end behind the last of them
(`intake_delivers`).
-/

namespace Simulcast

namespace Filed

open Serial

variable {ω α : Type} {h : List (Filed ω)} {number : UInt16} {item : ω}

/-- The newest number of a history. -/
def newestNumber : List (Filed ω) → Option UInt16
  | [] => none
  | e :: h => some (UInt16.ofInt (newest (e :: h)))

/-- A number is the first of all, or 1 to `0x7fff` ahead of the newest one before it. -/
def leads (h : List (Filed ω)) (number : UInt16) : Bool :=
  match newestNumber h with
  | none => true
  | some newest => 1 ≤ (number - newest).toNat && (number - newest).toNat ≤ 0x7fff

theorem newestNumber_of_ne_nil (hh : h ≠ []) : newestNumber h = some (UInt16.ofInt (newest h)) := by
  cases h with
  | nil => exact absurd rfl hh
  | cons e h => rfl

/-- A number that is not the first leads if its position is ahead. -/
theorem leads_iff (hh : h ≠ []) : leads h number = true ↔ newest h < next h number := by
  have ahead := isAhead_iff number (UInt16.ofInt (newest h))
  have distance : isAhead number (UInt16.ofInt (newest h)) = true ↔
      1 ≤ (number - UInt16.ofInt (newest h)).toNat ∧
        (number - UInt16.ofInt (newest h)).toNat ≤ 0x7fff := by
    have zero : number - UInt16.ofInt (newest h) = 0 ↔
        (number - UInt16.ofInt (newest h)).toNat = 0 := by
      rw [← UInt16.toNat_inj]
      rfl
    have half : number - UInt16.ofInt (newest h) < 0x8000 ↔
        (number - UInt16.ofInt (newest h)).toNat < 0x8000 := UInt16.lt_iff_toNat_lt
    simp only [isAhead, Bool.and_eq_true, bne_iff_ne, ne_eq, zero, decide_eq_true_eq, half]
    omega
  rw [next_of_ne_nil hh, near, leads, newestNumber_of_ne_nil hh]
  simp only [Bool.and_eq_true, decide_eq_true_eq]
  rw [← distance, ahead]
  omega

/-- A number that leads is the newest one from then on. -/
theorem newestNumber_file :
    newestNumber (file h number item) =
      if leads h number then some number else newestNumber h := by
  have newer : newestNumber (file h number item) =
      some (UInt16.ofInt (newest (file h number item))) := rfl
  rw [newer]
  by_cases hh : h = []
  · subst hh
    rw [newest_file_nil, ofInt_toNat]
    rfl
  · rw [newest_file]
    by_cases hl : leads h number = true
    · rw [if_pos hl, Int.max_eq_right (Int.le_of_lt ((leads_iff hh).1 hl)), ofInt_next]
    · rw [if_neg hl, Int.max_eq_left (Int.not_lt.1 (mt (leads_iff hh).2 hl)),
        newestNumber_of_ne_nil hh]

end Filed

/-- The newest number of a ring is that of its history. -/
theorem PacketRing.InStep.newest_number {α ω : Type} {r : PacketRing α} {h : List (Filed ω)}
    (hs : r.InStep h) : r.newest.map Newest.number = Filed.newestNumber h := by
  by_cases hh : h = []
  · rw [hs.start hh, hh]
    rfl
  · rw [(hs.reaches hh).stands, Filed.newestNumber_of_ne_nil hh]
    rfl

namespace Intake

open Filed

/-! ## Runs -/

/-- What may be done with an intake. -/
inductive Act where
  | write (now : Time) (raw : Octets)
  | read
  | measure (now : Time)
  | setClock (now : Time) (timestamp : UInt32) (ntp : UInt64)
  | close

/-- What was done with an intake, and what came of it. -/
inductive Deed where
  | wrote (now : Time) (raw : Octets) (outcome : Attempt Unit)
  | got (r : ReadResult)
  /-- The meter or the clock was set. -/
  | tended
  | closed

/-- An intake after an act, and what came of it. -/
def perform (i : Intake) : Act → Intake × Deed
  | .write now raw => (i.takeIn now raw, .wrote now raw ((i.write now raw).map fun _ => ()))
  | .read => (i.read.1, .got i.read.2)
  | .measure now => (i.measure now, .tended)
  | .setClock now timestamp ntp => (i.setClock now timestamp ntp, .tended)
  | .close => (i.close, .closed)

/-- An intake after some acts, and the notes with what came of them. -/
def run (i : Intake) (past : List Deed) : List Act → Intake × List Deed
  | [] => (i, past)
  | act :: acts => run (i.perform act).1 ((i.perform act).2 :: past) acts

theorem perform_write_ok {i : Intake} {a : Arrival} {now : Time} {raw : Octets}
    (hr : readArrival i.codec.format now raw = .ok a) :
    i.perform (.write now raw) = (i.accept a, .wrote now raw (.ok ())) := by
  rw [perform, takeIn, write, hr]
  rfl

theorem perform_write_error {i : Intake} {e : Failure} {now : Time} {raw : Octets}
    (hr : readArrival i.codec.format now raw = .error e) :
    i.perform (.write now raw) = (i, .wrote now raw (.error e)) := by
  rw [perform, takeIn, write, hr]
  rfl

theorem perform_read_cons {i : Intake} {a : Arrival} {rest : List Arrival}
    (hq : i.queue = a :: rest) :
    i.perform .read = ({ i with queue := rest }, .got (.packet a)) := by
  simp only [perform, read, hq]

theorem perform_read_nil {i : Intake} (hq : i.queue = []) :
    i.perform .read = (i, .got (if i.closed then .ended else .pending)) := by
  simp only [perform, read, hq]

/-! ## What the notes say -/

/-- The intake was closed. -/
def wasClosed : List Deed → Bool
  | [] => false
  | .closed :: _ => true
  | _ :: ds => wasClosed ds

/-- The packets that were taken in: written without fault, before the intake was closed. -/
def taken (format : PayloadFormat) : List Deed → List (Filed Arrival)
  | [] => []
  | .wrote now raw (.ok _) :: ds =>
    if wasClosed ds then taken format ds
    else match readArrival format now raw with
      | .ok a => file (taken format ds) a.number a
      | .error _ => taken format ds
  | _ :: ds => taken format ds

/-- The packets that were delivered, in turn. -/
def delivered : List Deed → List Arrival
  | [] => []
  | .got (.packet a) :: ds => delivered ds ++ [a]
  | _ :: ds => delivered ds

/-- The packets of a history in the order in which they were taken in. Those that lead are marked
as head. -/
def stamped : List (Filed Arrival) → List Arrival
  | [] => []
  | e :: h => stamped h ++ [{ e.item with head := leads h e.number }]

variable {i : Intake} {past : List Deed} {format : PayloadFormat} {size : Nat} {a : Arrival}
  {now : Time} {raw : Octets}

/-- An intake is as its notes say. -/
structure Holds (format : PayloadFormat) (size : Nat) (i : Intake) (past : List Deed) : Prop where
  reads : i.codec.format = format
  ring : PacketRing.Filled Arrival.raw size i.ring (taken format past)
  newest : i.newest = newestNumber (taken format past)
  queue : delivered past ++ i.queue = stamped (taken format past)
  closed : i.closed = wasClosed past

/-- A new intake holds nothing. -/
theorem holds_empty (ssrc : UInt32) (codec : Codec) (settings : IntakeSettings) :
    Holds codec.format (max settings.capacity 1) (empty ssrc codec settings) [] where
  reads := rfl
  ring := PacketRing.filled_ofCapacity settings.capacity
  newest := rfl
  queue := rfl
  closed := rfl

/-- What changes neither the queue nor what was taken in. -/
theorem Holds.keep {i' : Intake} {d : Deed} (h : Holds format size i past) (codec : i'.codec = i.codec)
    (ring : i'.ring = i.ring) (newest : i'.newest = i.newest) (queue : i'.queue = i.queue)
    (closed : i'.closed = wasClosed (d :: past)) (same : taken format (d :: past) = taken format past)
    (none : delivered (d :: past) = delivered past) : Holds format size i' (d :: past) where
  reads := by rw [codec, h.reads]
  ring := by
    rw [ring, same]
    exact h.ring
  newest := by rw [newest, same, h.newest]
  queue := by rw [none, queue, same, h.queue]
  closed := closed

theorem isHead_newestNumber (h : List (Filed Arrival)) (number : UInt16) :
    isHead (newestNumber h) number = leads h number := by
  by_cases hh : h = []
  · rw [hh]
    rfl
  · have ahead := Serial.isAhead_iff number (UInt16.ofInt (Filed.newest h))
    rw [Bool.eq_iff_iff, leads_iff hh, newestNumber_of_ne_nil hh, isHead, ahead, next_of_ne_nil hh,
      Serial.near]
    omega

/-- A packet that is taken in goes to the queue and to the ring, with its head mark. -/
theorem Holds.accept (h : Holds format size i past) (ho : i.closed = false)
    (hr : readArrival format now raw = .ok a) :
    Holds format size (i.accept a) (.wrote now raw (.ok ()) :: past) := by
  have isOpen : wasClosed past = false := h.closed.symm.trans ho
  have same : taken format (.wrote now raw (.ok ()) :: past) =
      file (taken format past) a.number a := by
    simp only [taken, isOpen, hr, Bool.false_eq_true, if_false]
  have head : isHead i.newest a.number = leads (taken format past) a.number := by
    rw [h.newest, isHead_newestNumber]
  have accepted : i.accept a =
      let a' := { a with head := leads (taken format past) a.number }
      { i with
        newest := if a'.head then some a.number else i.newest
        ring := i.ring.add a.number a.raw
        meter := i.meter.add a.time a'.temporal a.raw.length
        queue := i.queue ++ [a'] } := by
    rw [Intake.accept, if_neg (by rw [ho]; exact Bool.false_ne_true), ← head]
    rfl
  rw [accepted]
  refine ⟨h.reads, ?_, ?_, ?_, h.closed⟩
  · rw [same]
    exact h.ring.add a.number a
  · rw [same, newestNumber_file, ← h.newest]
  · rw [same]
    change delivered past ++ (i.queue ++ _) = stamped (taken format past) ++ _
    rw [← List.append_assoc, h.queue]

/-- A write takes a packet in, or changes nothing. -/
theorem Holds.write (h : Holds format size i past) (now : Time) (raw : Octets) :
    Holds format size (i.perform (.write now raw)).1 ((i.perform (.write now raw)).2 :: past) := by
  cases hr : readArrival format now raw with
  | error e =>
    rw [perform_write_error (h.reads ▸ hr)]
    exact h.keep rfl rfl rfl rfl h.closed rfl rfl
  | ok a =>
    rw [perform_write_ok (h.reads ▸ hr)]
    by_cases ho : i.closed = true
    · have unchanged : i.accept a = i := if_pos ho
      have shut : wasClosed past = true := h.closed.symm.trans ho
      dsimp only
      rw [unchanged]
      refine h.keep rfl rfl rfl rfl h.closed ?_ rfl
      simp only [taken, shut, if_true]
    · exact h.accept (Bool.eq_false_iff.2 ho) hr

/-- With an empty queue, all was delivered. -/
theorem Holds.all (h : Holds format size i past) (hq : i.queue = []) :
    delivered past = stamped (taken format past) := by
  rw [← h.queue, hq, List.append_nil]

/-- A read takes the next packet off the queue. -/
theorem Holds.read (h : Holds format size i past) :
    Holds format size (i.perform .read).1 ((i.perform .read).2 :: past) := by
  cases hq : i.queue with
  | cons a rest =>
    rw [perform_read_cons hq]
    refine ⟨h.reads, h.ring, h.newest, ?_, h.closed⟩
    change (delivered past ++ [a]) ++ rest = _
    rw [List.append_assoc, List.singleton_append, ← hq]
    exact h.queue
  | nil =>
    rw [perform_read_nil hq]
    cases i.closed <;> exact h.keep rfl rfl rfl rfl h.closed rfl rfl

/-- Whatever is done with an intake, it is as its notes say. -/
theorem Holds.perform (h : Holds format size i past) (act : Act) :
    Holds format size (i.perform act).1 ((i.perform act).2 :: past) := by
  cases act with
  | write now raw => exact h.write now raw
  | read => exact h.read
  | measure now => exact h.keep rfl rfl rfl rfl h.closed rfl rfl
  | setClock now timestamp ntp =>
    exact h.keep rfl rfl rfl rfl h.closed rfl rfl
  | close => exact h.keep rfl rfl rfl rfl rfl rfl rfl

theorem Holds.run (h : Holds format size i past) (acts : List Act) :
    Holds format size (i.run past acts).1 (i.run past acts).2 := by
  induction acts generalizing i past with
  | nil => exact h
  | cons act acts ih => exact ih (h.perform act)

/-! ## Further reads -/

/-- Further reads deliver what is left, one packet each, as far as it goes. -/
theorem Holds.delivered_reads (h : Holds format size i past) (n : Nat) :
    delivered (i.run past (List.replicate n .read)).2 =
      (stamped (taken format past)).take ((delivered past).length + n) := by
  induction n generalizing i past with
  | zero =>
    rw [← h.queue, Nat.add_zero, List.take_left]
    rfl
  | succ n ih =>
    rw [List.replicate_succ]
    refine (ih h.read).trans ?_
    cases hq : i.queue with
    | cons a rest =>
      rw [perform_read_cons hq]
      simp only [delivered, taken, List.length_append, List.length_singleton]
      rw [Nat.add_assoc, Nat.add_comm 1 n]
    | nil =>
      -- The read finds nothing, and all was delivered before it.
      have none : delivered ((i.perform .read).2 :: past) = delivered past := by
        rw [perform_read_nil hq]
        cases i.closed <;> rfl
      have same : taken format ((i.perform .read).2 :: past) = taken format past := by
        rw [perform_read_nil hq]
        rfl
      rw [none, same, h.all hq, List.take_of_length_le (Nat.le_add_right _ _),
        List.take_of_length_le (Nat.le_add_right _ _)]

/-- The end is reported if the intake is closed and all was delivered. -/
theorem Holds.ended_iff (h : Holds format size i past) :
    (i.perform .read).2 = .got .ended ↔
      wasClosed past = true ∧ delivered past = stamped (taken format past) := by
  rw [← h.closed, ← h.queue]
  cases hq : i.queue with
  | cons a rest =>
    rw [perform_read_cons hq]
    refine iff_of_false nofun fun both => ?_
    exact List.cons_ne_nil a rest (List.append_right_eq_self.1 both.2.symm)
  | nil =>
    rw [perform_read_nil hq, List.append_nil]
    cases i.closed with
    | true => exact iff_of_true rfl ⟨rfl, rfl⟩
    | false => exact iff_of_false nofun fun both => Bool.false_ne_true both.1

/-! ## The queue -/

/-- Whatever is done with a new intake, and whenever: what its reader has got are the first of the
packets that were taken in, in the order in which they were written, each once and with its head
mark, and each further read delivers the next of them. A read reports the end if and only if the
intake was closed and all of them were delivered. A write that is refused, or that comes after the
closing, leaves the intake as it is. The newest number is that of the packet that leads, which is the
newest one of the ring. -/
theorem intake_delivers {ssrc : UInt32} {codec : Codec} {settings : IntakeSettings}
    {acts : List Act} (hr : (empty ssrc codec settings).run [] acts = (i, past)) :
    (∀ n, delivered (i.run past (List.replicate n .read)).2 =
        (stamped (taken codec.format past)).take ((delivered past).length + n)) ∧
      ((i.perform .read).2 = .got .ended ↔
        wasClosed past = true ∧ delivered past = stamped (taken codec.format past)) ∧
      (∀ now raw, wasClosed past = true → (i.perform (.write now raw)).1 = i) ∧
      (∀ now raw e, i.write now raw = .error e → (i.perform (.write now raw)).1 = i) ∧
      i.newest = newestNumber (taken codec.format past) ∧
      i.newest = i.ring.newest.map Newest.number := by
  have holds : Holds codec.format (max settings.capacity 1) i past := by
    have holds := (holds_empty ssrc codec settings).run acts
    rw [hr] at holds
    exact holds
  refine ⟨holds.delivered_reads, holds.ended_iff, ?_, ?_, holds.newest, ?_⟩
  · intro now raw shut
    have closed : i.closed = true := holds.closed.trans shut
    rcases takeIn_eq i now raw with same | ⟨a, -, taken⟩
    · exact same
    · exact taken.trans (if_pos closed)
  · intro now raw e refused
    change i.takeIn now raw = i
    rw [takeIn, refused]
  · rw [holds.newest, holds.ring.newest_number]

/-- The octets of a packet with a number. -/
def numberedOctets (number : UInt16) : Octets :=
  [0x80, 0x60] ++ Octets.ofWord16 number ++ [0, 0, 0, 0, 0, 0, 4, 0x57, 0xaa]

/-- Packets that are half a cycle apart and one less, one that is late, one that cannot be read, and
one that comes after the closing. -/
def halfCycle : List Act :=
  [.write 0 (numberedOctets 1), .write 0 (numberedOctets 0x8001), .write 0 (numberedOctets 0),
    .write 0 [0x80], .read, .write 0 (numberedOctets 0x8000), .close,
    .write 0 (numberedOctets 0x8001)]

/-- Of the packets half a cycle from the first, only the nearer one is newer. One was delivered so
far, and four more reads deliver the other three. -/
theorem intake_delivers_halfCycle :
    ∃ i past, (empty 0x457 {} { capacity := 4 }).run [] halfCycle = (i, past) ∧
      (delivered past).length = 1 ∧ (i.perform .read).2 ≠ .got .ended ∧
      (delivered (i.run past (List.replicate 4 .read)).2).map (fun a => (a.number, a.head)) =
        [(1, true), (0x8001, false), (0, false), (0x8000, true)] ∧
      (i.perform (.write 0 (numberedOctets 0x8002))).1 = i ∧
      (i.perform (.write 0 [])).1 = i ∧
      i.newest = some 0x8000 ∧ i.ring.newest.map Newest.number = some 0x8000 := by
  obtain ⟨i, past, hr, four, shut, one, newest, e, refusal⟩ : ∃ i past,
      (empty 0x457 {} { capacity := 4 }).run [] halfCycle = (i, past) ∧
        (stamped (taken .other past)).map (fun a => (a.number, a.head)) =
          [(1, true), (0x8001, false), (0, false), (0x8000, true)] ∧
        wasClosed past = true ∧ (delivered past).length = 1 ∧
        newestNumber (taken .other past) = some 0x8000 ∧ ∃ e, i.write 0 [] = .error e :=
    ⟨_, _, rfl, rfl, rfl, rfl, rfl, _, rfl⟩
  obtain ⟨reads, ended, after, refused, number, ring⟩ := intake_delivers hr
  refine ⟨i, past, hr, one, fun done => ?_, ?_, after 0 _ shut, refused 0 [] e refusal,
    number.trans newest, ring.symm.trans (number.trans newest)⟩
  · have all := congrArg List.length (ended.1 done).2
    have length := congrArg List.length four
    rw [List.length_map] at length
    rw [one] at all
    exact absurd (all.trans length) (by decide)
  · rw [reads 4, one, List.map_take]
    exact congrArg (List.take 5) four

end Intake

end Simulcast
