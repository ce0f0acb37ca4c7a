import Simulcast.Intake.Arrival

/-!
# Timers

Timers that ring again and again, each after its own period. `Timers.advance` lets
time go on and rings all that fall due, the earliest first, and of those due at the
same moment the one that was set first. A timer that rings is set anew, unless the
one it rings for is done with it.
-/

namespace Simulcast

/-- A timer for something named by a key. -/
structure Timer (κ : Type) where
  key : κ
  deadline : Time
  period : Nat
  deriving DecidableEq, Repr

namespace Timer

variable {κ : Type}

/-- The timer after it has rung. -/
def again (t : Timer κ) : Timer κ := { t with deadline := t.deadline + t.period }

/-- How often a timer falls due until a moment. -/
def ringsUntil (t : Timer κ) (moment : Time) : Nat :=
  if moment < t.deadline then 0 else (moment - t.deadline) / t.period + 1

end Timer

/-- Timers in the order in which they were set. -/
abbrev Timers (κ : Type) := List (Timer κ)

namespace Timers

variable {κ σ : Type}

/-- Sets a timer that first rings after one period. One without a period never
rings. -/
def set (ts : Timers κ) (key : κ) (now : Time) (period : Nat) : Timers κ :=
  if period = 0 then ts else ts ++ [{ key, deadline := now + period, period }]

/-- Takes out the timer that falls due first. -/
def takeEarliest : Timers κ → Option (Timer κ × Timers κ)
  | [] => none
  | t :: ts => match takeEarliest ts with
    | none => some (t, [])
    | some (u, rest) =>
      if t.deadline ≤ u.deadline then some (t, ts) else some (u, t :: rest)

/-- Rings up to a number of timers that fall due until a moment. `ring` says what
happens and whether the timer is set anew. -/
def ringDue (ring : σ → κ → σ × Bool) (moment : Time) : Nat → Timers κ → σ → Timers κ × σ
  | 0, ts, s => (ts, s)
  | n + 1, ts, s => match takeEarliest ts with
    | none => (ts, s)
    | some (t, rest) =>
      if moment < t.deadline then (ts, s)
      else
        let (s, goesOn) := ring s t.key
        ringDue ring moment n (if goesOn then rest ++ [t.again] else rest) s

/-- Lets time go on until a moment. -/
def advance (ts : Timers κ) (ring : σ → κ → σ × Bool) (moment : Time) (s : σ) : Timers κ × σ :=
  ringDue ring moment (ts.foldr (fun t n => t.ringsUntil moment + n) 0) ts s

end Timers
end Simulcast
