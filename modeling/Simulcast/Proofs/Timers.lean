import Simulcast.Timers
import Mathlib.Data.List.Basic
import Mathlib.Data.List.Perm.Basic

/-!
# Passing time

Time goes on by rings, one after the other: of the timers that are due the earliest rings, and is
set anew or not. What each ring keeps, of the timers and of what they ring for, is kept however long
it goes on: `advance_induction`, and `advance_induction_due` where it counts that the timer was due.
And it goes on long enough: no timer is due afterwards (`after_advance`).

A timer can also ring out of turn (`ringAt`), as one does whose work is kept waiting. In turn or not
makes no difference to what rings keep: `exists_advance_eq` has the rings of passing time as such.
-/

namespace Simulcast

namespace Timer

variable {κ : Type} {t : Timer κ} {moment : Time}

theorem ringsUntil_eq_zero_iff : t.ringsUntil moment = 0 ↔ moment < t.deadline := by
  unfold ringsUntil
  split
  · exact iff_of_true rfl ‹_›
  · exact iff_of_false (Nat.succ_ne_zero _) ‹_›

/-- A timer that rings falls due once less. -/
theorem ringsUntil_again (due : t.deadline ≤ moment) (period : 0 < t.period) :
    t.again.ringsUntil moment + 1 = t.ringsUntil moment := by
  rw [ringsUntil, ringsUntil, if_neg (Nat.not_lt.2 due)]
  show (if moment < t.deadline + t.period then 0
    else (moment - (t.deadline + t.period)) / t.period + 1) + 1 = _
  unfold Time at *
  split
  · rw [Nat.div_eq_of_lt (by omega)]
  · rw [Nat.div_eq_sub_div period (by omega : t.period ≤ moment - t.deadline), Nat.sub_sub]

end Timer

namespace Timers

variable {κ σ : Type} {ts rest : Timers κ} {t u : Timer κ} {moment : Time}

/-! ## The timer that is due first -/

theorem eq_nil_of_takeEarliest (h : takeEarliest ts = none) : ts = [] := by
  cases ts with
  | nil => rfl
  | cons t ts =>
    rw [takeEarliest] at h
    split at h
    · cases h
    · split at h <;> cases h

/-- It is taken out of its place. -/
theorem exists_place (h : takeEarliest ts = some (t, rest)) :
    ∃ n, ts[n]? = some t ∧ ts.eraseIdx n = rest := by
  induction ts generalizing t rest with
  | nil => cases h
  | cons x ts ih =>
    rw [takeEarliest] at h
    cases hts : takeEarliest ts with
    | none =>
      rw [hts] at h
      cases h
      exact ⟨0, rfl, eq_nil_of_takeEarliest hts⟩
    | some earliest =>
      obtain ⟨y, others⟩ := earliest
      rw [hts] at h
      dsimp only at h
      split at h
      · cases h
        exact ⟨0, rfl, rfl⟩
      · cases h
        obtain ⟨n, place, rfl⟩ := ih hts
        exact ⟨n + 1, place, rfl⟩

theorem perm_of_place {n : Nat} (h : ts[n]? = some t) : ts.Perm (t :: ts.eraseIdx n) := by
  obtain ⟨lt, rfl⟩ := List.getElem?_eq_some_iff.1 h
  exact (List.getElem_cons_eraseIdx_perm lt).symm

theorem perm_of_takeEarliest (h : takeEarliest ts = some (t, rest)) : ts.Perm (t :: rest) := by
  obtain ⟨n, place, rfl⟩ := exists_place h
  exact perm_of_place place

theorem mem_of_takeEarliest (h : takeEarliest ts = some (t, rest)) : u ∈ ts ↔ u = t ∨ u ∈ rest :=
  (perm_of_takeEarliest h).mem_iff.trans List.mem_cons

theorem deadline_le_of_takeEarliest (h : takeEarliest ts = some (t, rest)) (hu : u ∈ ts) :
    t.deadline ≤ u.deadline := by
  induction ts generalizing t rest with
  | nil => cases hu
  | cons x ts ih =>
    rw [takeEarliest] at h
    cases hts : takeEarliest ts with
    | none =>
      rw [hts] at h
      cases h
      rw [eq_nil_of_takeEarliest hts, List.mem_singleton] at hu
      exact Nat.le_of_eq (congrArg Timer.deadline hu.symm)
    | some earliest =>
      obtain ⟨y, others⟩ := earliest
      rw [hts] at h
      dsimp only at h
      have rests (hu : u ∈ ts) : y.deadline ≤ u.deadline := ih hts hu
      split at h <;> cases h <;> rcases List.mem_cons.1 hu with rfl | hu
      · exact Nat.le_refl _
      · exact Nat.le_trans ‹_› (rests hu)
      · exact Nat.le_of_not_le ‹_›
      · exact rests hu

/-! ## Rings, one after the other -/

variable {r : σ → κ → σ × Bool} {P : Timers κ → σ → Prop} {s : σ}

/-- What is kept when the timer that is due rings, and is set anew or not, is kept as time goes
on. -/
theorem advance_induction_due (step : ∀ {ts rest t s}, P ts s → takeEarliest ts = some (t, rest) →
      t.deadline ≤ moment → P (if (r s t.key).2 then rest ++ [t.again] else rest) (r s t.key).1)
    (h : P ts s) : P (ts.advance r moment s).1 (ts.advance r moment s).2 := by
  unfold advance
  generalize ts.foldr (fun t n => t.ringsUntil moment + n) 0 = n
  induction n generalizing ts s with
  | zero => exact h
  | succ n ih =>
    rw [ringDue]
    split
    · exact h
    · rename_i found
      split
      · exact h
      · exact ih (step h found (Nat.not_lt.1 ‹_›))

/-- The same for what does not depend on the clock. -/
theorem advance_induction (step : ∀ {ts rest t s}, P ts s → takeEarliest ts = some (t, rest) →
      P (if (r s t.key).2 then rest ++ [t.again] else rest) (r s t.key).1)
    {s : σ} (h : P ts s) (moment : Time) :
    P (ts.advance r moment s).1 (ts.advance r moment s).2 :=
  advance_induction_due (fun h found _ => step h found) h

/-- How often timers fall due until a moment. -/
def rings (ts : Timers κ) (moment : Time) : Nat := ts.foldr (fun t n => t.ringsUntil moment + n) 0

theorem rings_concat (ts : Timers κ) (t : Timer κ) (moment : Time) :
    rings (ts ++ [t]) moment = ts.rings moment + t.ringsUntil moment := by
  induction ts with
  | nil => exact Nat.add_comm _ _
  | cons u ts ih =>
    show u.ringsUntil moment + rings (ts ++ [t]) moment = u.ringsUntil moment + rings ts moment + _
    rw [ih, Nat.add_assoc]

theorem rings_of_perm {us : Timers κ} (h : ts.Perm us) : ts.rings moment = us.rings moment := by
  induction h with
  | nil => rfl
  | cons t _ ih => exact congrArg (t.ringsUntil moment + ·) ih
  | swap t u ts => exact Nat.add_left_comm _ _ _
  | trans _ _ ih ih' => exact ih.trans ih'

theorem lt_deadline_of_rings (h : ts.rings moment = 0) (ht : t ∈ ts) : moment < t.deadline := by
  induction ts with
  | nil => cases ht
  | cons u ts ih =>
    obtain ⟨none, others⟩ := Nat.add_eq_zero_iff.1 h
    rcases List.mem_cons.1 ht with rfl | ht
    · exact Timer.ringsUntil_eq_zero_iff.1 none
    · exact ih others ht

/-- As many rings as there may be are enough. -/
theorem after_ringDue (r : σ → κ → σ × Bool) {n : Nat} (periods : ∀ t ∈ ts, 0 < t.period)
    (enough : ts.rings moment ≤ n) (ht : t ∈ (ringDue r moment n ts s).1) : moment < t.deadline := by
  induction n generalizing ts s with
  | zero => exact lt_deadline_of_rings (Nat.le_zero.1 enough) ht
  | succ n ih =>
    rw [ringDue] at ht
    split at ht
    · rename_i none
      rw [eq_nil_of_takeEarliest none] at ht
      cases ht
    · rename_i u rest found
      have members (v : Timer κ) : v ∈ ts ↔ v = u ∨ v ∈ rest := mem_of_takeEarliest found
      split at ht
      · exact Nat.lt_of_lt_of_le ‹_› (deadline_le_of_takeEarliest found ht)
      · have due : u.deadline ≤ moment := Nat.not_lt.1 ‹_›
        have period : 0 < u.period := periods u ((members u).2 (.inl rfl))
        have count : ts.rings moment = u.ringsUntil moment + rings rest moment :=
          rings_of_perm (perm_of_takeEarliest found)
        have less := Timer.ringsUntil_again due period
        refine ih (fun v hv => ?_) ?_ ht
        · split at hv
          · rcases List.mem_append.1 hv with hv | hv
            · exact periods v ((members v).2 (.inr hv))
            · rw [List.mem_singleton.1 hv]
              exact period
          · exact periods v ((members v).2 (.inr hv))
        · split
          · rw [rings_concat]
            omega
          · omega

/-- When time has gone on, no timer is due. -/
theorem after_advance (r : σ → κ → σ × Bool) (periods : ∀ t ∈ ts, 0 < t.period)
    (ht : t ∈ (ts.advance r moment s).1) : moment < t.deadline :=
  after_ringDue r periods (Nat.le_refl _) ht

/-! ## Rings out of turn -/

/-- The timer at a place rings, whether it is due or not. -/
def ringAt (ring : σ → κ → σ × Bool) (n : Nat) (ts : Timers κ) (s : σ) : Timers κ × σ :=
  match ts[n]? with
  | none => (ts, s)
  | some t =>
    let (s, goesOn) := ring s t.key
    (if goesOn then ts.eraseIdx n ++ [t.again] else ts.eraseIdx n, s)

theorem ringAt_of_none {n : Nat} (h : ts[n]? = none) (s : σ) : ringAt r n ts s = (ts, s) := by
  rw [ringAt, h]

theorem ringAt_of_some {n : Nat} (h : ts[n]? = some t) (s : σ) : ringAt r n ts s =
    (if (r s t.key).2 then ts.eraseIdx n ++ [t.again] else ts.eraseIdx n, (r s t.key).1) := by
  rw [ringAt, h]

/-- A timer that is left after a ring was there before, or is the one that rang. -/
theorem exists_key_of_mem_rung {n : Nat} (place : ts[n]? = some t) {goesOn : Bool}
    (hu : u ∈ if goesOn then ts.eraseIdx n ++ [t.again] else ts.eraseIdx n) :
    ∃ v ∈ ts, v.key = u.key := by
  have others (h : u ∈ ts.eraseIdx n) : ∃ v ∈ ts, v.key = u.key := ⟨u, List.mem_of_mem_eraseIdx h, rfl⟩
  split at hu
  · rcases List.mem_append.1 hu with hu | hu
    · exact others hu
    · rw [List.mem_singleton.1 hu]
      exact ⟨t, List.mem_of_getElem? place, rfl⟩
  · exact others hu

/-- Passing time is a series of rings. -/
theorem exists_advance_eq (r : σ → κ → σ × Bool) (moment : Time) (ts : Timers κ) (s : σ) :
    ∃ places : List Nat, ts.advance r moment s =
      places.foldl (fun p n => ringAt r n p.1 p.2) (ts, s) := by
  refine advance_induction_due (r := r)
    (P := fun us v => ∃ places : List Nat, (us, v) =
      places.foldl (fun p n => ringAt r n p.1 p.2) (ts, s)) (fun h found _ => ?_) ⟨[], rfl⟩
  obtain ⟨places, series⟩ := h
  obtain ⟨n, place, rfl⟩ := exists_place found
  exact ⟨places ++ [n], by rw [List.foldl_append, ← series, List.foldl_cons, List.foldl_nil,
    ringAt_of_some place]⟩

end Timers
end Simulcast
