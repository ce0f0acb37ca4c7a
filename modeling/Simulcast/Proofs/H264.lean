import Simulcast.Fault
import Simulcast.H264

/-!
# Key frames in aggregates

An aggregate is an octet that has its type, and behind it NAL units, each after its length. The
lengths lead from each unit to the next one, so that every unit is looked at, and what follows the
last one is searched like the rest (`aggregateHasKey_framed`).

`isKeyFrame` takes a payload apart from its front. A receiver has the payload in a buffer and goes
through it by places: `scan` looks the octets up one by one, a unit in each round, and overruns if
it looks behind the end. The lengths are those of an untrusted sender. But a round only looks where
there are octets, and goes on at a place further back (`round_of_lt`), or ends the search
(`round_of_le`). So a search never overruns, ends after a round for each pair of octets and one
more, and finds what is to be found from its place on (`search_eq`). A scan does the same, and its
answer is that of `isKeyFrame` (`scan_eq`).
-/

namespace Simulcast.H264

theorem isKeyType_iff (t : UInt8) : isKeyType t = true ↔ t = 5 ∨ t = 7 := by
  rw [isKeyType, Bool.or_eq_true, beq_iff_eq, beq_iff_eq]

/-! ## Aggregates -/

/-- A NAL unit that an aggregate can hold: it has a first octet, and its length fits a word. -/
structure NalUnit where
  octets : Octets
  ne_nil : octets ≠ []
  length_le : octets.length ≤ 65535

namespace NalUnit

variable (u : NalUnit)

/-- The type of a unit. -/
def kind : UInt8 := unitType (u.octets.head u.ne_nil)

/-- A unit as it stands in an aggregate: behind its length. -/
def framed : Octets := Octets.ofWord16 (UInt16.ofNat u.octets.length) ++ u.octets

end NalUnit

/-- The payload of some units behind an octet. -/
def aggregateOf (first : UInt8) (units : List NalUnit) : Octets :=
  first :: units.flatMap NalUnit.framed

/-- The length in front of a unit leads to what follows the unit. -/
theorem aggregateHasKey_framed_append (u : NalUnit) (rest : Octets) :
    aggregateHasKey (u.framed ++ rest) = (isKeyType u.kind || aggregateHasKey rest) := by
  obtain ⟨octets, ne_nil, length_le⟩ := u
  obtain ⟨first, body, rfl⟩ := List.exists_cons_of_ne_nil ne_nil
  let length := UInt16.ofNat (first :: body).length
  have told : length.toNat = (first :: body).length :=
    UInt16.toNat_ofNat_of_lt' (Nat.lt_succ_of_le length_le)
  -- Two octets of length, and the first one of the unit.
  change aggregateHasKey (UInt8.ofNat (length.toNat / 0x100) :: UInt8.ofNat length.toNat ::
    first :: (body ++ rest)) = (isKeyType (unitType first) || aggregateHasKey rest)
  rw [aggregateHasKey, Octets.word16_ofWord16, told, ← List.cons_append, List.drop_left]

theorem aggregateHasKey_framed (units : List NalUnit) (rest : Octets) :
    aggregateHasKey (units.flatMap NalUnit.framed ++ rest) =
      (units.any (fun u => isKeyType u.kind) || aggregateHasKey rest) := by
  induction units with
  | nil => rfl
  | cons u units ih =>
    rw [List.flatMap_cons, List.append_assoc, aggregateHasKey_framed_append, ih, List.any_cons,
      Bool.or_assoc]

theorem isKeyFrame_aggregate {first : UInt8} (many : unitType first = aggregate) (rest : Octets) :
    isKeyFrame (first :: rest) = aggregateHasKey rest := by
  have other : isKeyType aggregate = false := rfl
  simp only [isKeyFrame, many, other, Bool.false_eq_true, if_false, if_true]

/-- Two octets or fewer are no more than a length. -/
theorem aggregateHasKey_of_le {bs : Octets} (h : bs.length ≤ 2) : aggregateHasKey bs = false := by
  rw [aggregateHasKey]
  rintro a b first rest rfl
  exact absurd h (by simp)

/-! ## The search by places -/

/-- Looks up the octet at a place, which has to be there. -/
def octetAt (p : Octets) (place : Nat) : Attempt UInt8 :=
  match p[place]? with
  | some b => .ok b
  | none => .error .overrun

/-- What a round comes to: the place of the next unit, or the answer. -/
inductive Finding where
  | next (place : Nat)
  | answer (found : Bool)

/-- Looks at the unit whose length stands at a place, if there is an octet behind the length. -/
def round (p : Octets) (place : Nat) : Attempt Finding :=
  if place + 2 < p.length then do
    let high ← octetAt p place
    let low ← octetAt p (place + 1)
    let first ← octetAt p (place + 2)
    if isKeyType (unitType first) then return .answer true
    return .next (place + (2 + (Octets.word16 high low).toNat))
  else return .answer false

/-- Searches an aggregate from a place on, for so many rounds. There is no answer if it has to go
on then. -/
def search (p : Octets) : Nat → Nat → Attempt (Option Bool)
  | 0, _ => return none
  | rounds + 1, place => do
    match ← round p place with
    | .next place => search p rounds place
    | .answer found => return some found

/-- Tests by places whether a payload starts or carries a key frame, with so many rounds for an
aggregate. -/
def scan (p : Octets) (rounds : Nat) : Attempt (Option Bool) :=
  match p[0]? with
  | none => return some false
  | some first =>
    let t := unitType first
    if isKeyType t then return some true
    else if t = aggregate then search p rounds 1
    else if t = fragment then
      match p[1]? with
      | none => return some false
      | some head => return some (head &&& 0x80 != 0 && isKeyType (unitType head))
    else return some false

variable {p : Octets} {place : Nat}

theorem octetAt_of_lt (h : place < p.length) : octetAt p place = .ok p[place] := by
  rw [octetAt, List.getElem?_eq_getElem h]

/-- The place behind the unit whose length stands at a place. -/
def behind (p : Octets) (place : Nat) (h : place + 2 < p.length) : Nat :=
  place + (2 + (Octets.word16 p[place] p[place + 1]).toNat)

theorem round_of_lt (h : place + 2 < p.length) :
    round p place = .ok
      (if isKeyType (unitType p[place + 2]) then .answer true else .next (behind p place h)) := by
  rw [round, if_pos h, octetAt_of_lt (by omega), octetAt_of_lt (by omega), octetAt_of_lt h]
  change (if _ then Except.ok _ else Except.ok _) = _
  rw [← apply_ite Except.ok, behind]

theorem round_of_le (h : p.length ≤ place + 2) : round p place = .ok (.answer false) :=
  if_neg (Nat.not_lt.2 h)

/-- What a round looks at is the unit in front of the octets from its place on. -/
theorem aggregateHasKey_drop (h : place + 2 < p.length) :
    aggregateHasKey (p.drop place) =
      (isKeyType (unitType p[place + 2]) || aggregateHasKey (p.drop (behind p place h))) := by
  have unit : p[place + 2] :: p.drop (place + 2 + 1) = p.drop (place + 2) :=
    (List.drop_eq_getElem_cons h).symm
  rw [List.drop_eq_getElem_cons (by omega), List.drop_eq_getElem_cons (by omega), ← unit,
    aggregateHasKey, unit, List.drop_drop, behind, Nat.add_assoc]

theorem search_of_lt (rounds : Nat) (h : place + 2 < p.length) :
    search p (rounds + 1) place =
      if isKeyType (unitType p[place + 2]) then .ok (some true)
      else search p rounds (behind p place h) := by
  rw [search, round_of_lt h]
  split <;> rfl

theorem search_of_le (rounds : Nat) (h : p.length ≤ place + 2) :
    search p (rounds + 1) place = .ok (some false) := by
  rw [search, round_of_le h]
  rfl

/-- A search finds what is to be found from its place on, or has to go on after so many rounds. It
only has to while there is a pair of octets for each of them, as a round passes a length. -/
theorem search_eq (p : Octets) (rounds place : Nat) :
    search p rounds place = .ok (some (aggregateHasKey (p.drop place))) ∨
      search p rounds place = .ok none ∧ rounds ≤ (p.length - place) / 2 := by
  induction rounds generalizing place with
  | zero => exact .inr ⟨rfl, Nat.zero_le _⟩
  | succ rounds ih =>
    by_cases h : place + 2 < p.length
    · rw [search_of_lt rounds h, aggregateHasKey_drop h]
      split
      · rename_i key
        rw [key, Bool.true_or]
        exact .inl rfl
      · rename_i other
        rw [Bool.eq_false_iff.2 other, Bool.false_or]
        refine (ih (behind p place h)).imp_right fun ⟨under, few⟩ => ⟨under, ?_⟩
        -- A unit may be empty, but its length takes two octets.
        have further : place + 2 ≤ behind p place h :=
          Nat.add_le_add_left (Nat.le_add_right _ _) _
        omega
    · have ends := Nat.not_lt.1 h
      rw [search_of_le rounds ends, aggregateHasKey_of_le (by rw [List.length_drop]; omega)]
      exact .inl rfl

/-- A scan has the answer, or has to go on with an aggregate that has a pair of octets for each
round. -/
theorem scan_eq (p : Octets) (rounds : Nat) :
    scan p rounds = .ok (some (isKeyFrame p)) ∨
      scan p rounds = .ok none ∧ rounds ≤ p.length / 2 := by
  cases p with
  | nil => exact .inl rfl
  | cons first rest =>
    simp only [scan, isKeyFrame, List.getElem?_cons_zero]
    by_cases key : isKeyType (unitType first) = true
    · rw [if_pos key, if_pos key]
      exact .inl rfl
    rw [if_neg key, if_neg key]
    by_cases many : unitType first = aggregate
    · rw [if_pos many, if_pos many]
      refine (search_eq (first :: rest) rounds 1).imp_right fun ⟨under, few⟩ => ⟨under, ?_⟩
      omega
    rw [if_neg many, if_neg many]
    split
    · cases rest <;> exact .inl rfl
    · exact .inl rfl

/-- An aggregate, whatever the other bits of its first octet, is taken for a key frame if and only
if one of its units is a picture that refreshes the decoder, or sequence parameters. A scan of any
payload, however malformed, never looks behind its end, and has the answer after a round for each
pair of octets and one more. -/
theorem aggregates_searched :
    (∀ (first : UInt8) (units : List NalUnit), unitType first = aggregate →
      (isKeyFrame (aggregateOf first units) = true ↔ ∃ u ∈ units, u.kind = 5 ∨ u.kind = 7)) ∧
    ∀ p : Octets,
      (∀ rounds, ∃ answer, scan p rounds = .ok answer) ∧
      ∀ rounds, p.length / 2 < rounds → scan p rounds = .ok (some (isKeyFrame p)) := by
  refine ⟨fun first units many => ?_, fun p => ⟨fun rounds => ?_, fun rounds enough => ?_⟩⟩
  · have searched : isKeyFrame (aggregateOf first units) =
        aggregateHasKey (units.flatMap NalUnit.framed ++ []) := by
      rw [aggregateOf, isKeyFrame_aggregate many, List.append_nil]
    have nothing : aggregateHasKey [] = false := aggregateHasKey_of_le (by decide)
    rw [searched, aggregateHasKey_framed, nothing, Bool.or_false, List.any_eq_true]
    simp only [isKeyType_iff]
  · exact (scan_eq p rounds).elim (fun found => ⟨_, found⟩) fun under => ⟨_, under.1⟩
  · exact (scan_eq p rounds).resolve_right fun under => Nat.not_le.2 enough under.2

/-- The parameters of a picture. -/
def pictureParameters : NalUnit := ⟨[0x68, 0xce], by decide, by decide⟩

/-- A picture that refreshes the decoder, with nothing behind its first octet. -/
def bareRefresh : NalUnit := ⟨[0x65], by decide, by decide⟩

/-- A last unit of one octet is looked at. A length that points behind the end of the payload ends
the search. -/
theorem aggregates_searched_oneOctetLast :
    unitType 0x78 = aggregate ∧
      aggregateOf 0x78 [pictureParameters, bareRefresh] =
        [0x78, 0x00, 0x02, 0x68, 0xce, 0x00, 0x01, 0x65] ∧
      isKeyFrame (aggregateOf 0x78 [pictureParameters, bareRefresh]) = true ∧
      isKeyFrame (aggregateOf 0x78 [pictureParameters]) = false ∧
      [0x78, 0xff, 0xff, 0x41].length / 2 < 3 ∧
      scan [0x78, 0xff, 0xff, 0x41] 3 = .ok (some false) ∧
      isKeyFrame [0x78, 0xff, 0xff, 0x41] = false := by
  obtain ⟨built, untrusted⟩ := aggregates_searched
  refine ⟨rfl, rfl, ?_, ?_, by decide, rfl, ?_⟩
  · exact (built 0x78 _ rfl).2 ⟨bareRefresh, by simp, .inl rfl⟩
  · refine Bool.eq_false_iff.2 fun key => ?_
    obtain ⟨u, hu, kind⟩ := (built 0x78 _ rfl).1 key
    rw [List.mem_singleton.1 hu] at kind
    exact absurd kind (by decide)
  · have answer : Except.ok (some false) = Except.ok (some (isKeyFrame _)) :=
      (untrusted [0x78, 0xff, 0xff, 0x41]).2 3 (by decide)
    exact (Option.some.inj (Except.ok.inj answer)).symm

end Simulcast.H264
