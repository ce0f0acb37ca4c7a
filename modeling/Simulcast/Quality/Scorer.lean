import Simulcast.Quality.Basic

/-!
# Scoring over windows

A scorer is fed one window after the other and reports a score. A window of a lower
grade than the reported one is reported at once. A better one is not: while the
scorer recovers, windows are kept, and only when the grade has been held for a while
is their median reported. A muted stream is reported as flawless.

* `Scorer.prune` drops what is older than the hold of the reported grade and says
  whether that grade has been held long enough.
* `Scorer.take` is the whole rule for one window.

Moments are nanoseconds on any clock.
-/

namespace Simulcast

/-- A stretch of time with its score. -/
structure Window (α : Type) where
  start : Int
  score : α
  deriving DecidableEq, Repr

/-- The state of scoring. -/
structure Scorer (α : Type) where
  /-- The reported score. -/
  score : α
  /-- The reported grade is below the best, and windows are kept until it is better. -/
  recovering : Bool := false
  windows : List (Window α) := []
  lastUpdate : Option Int := none
  mutedAt : Option Int := none
  unmutedAt : Option Int := none
  deriving DecidableEq, Repr

/-- Nanoseconds in a second. -/
def nanosPerSecond : Nat := 1000000000

/-- A number of nanoseconds in seconds. -/
def inSeconds (nanos : Nat) : Float :=
  Float.ofNat (nanos / nanosPerSecond) + Float.ofNat (nanos % nanosPerSecond) / 1e9

/-- The time from one moment to a later one; nothing if it is not later. -/
def elapsed (start stop : Int) : Nat := (stop - start).toNat

namespace Quality

/-- How long a grade is held before a better one is reported. -/
def hold : Quality → Nat
  | poor => 25 * nanosPerSecond
  | _ => 15 * nanosPerSecond

end Quality

namespace Scorer

variable {α : Type}

/-! ## Muting -/

/-- The time has begun. -/
def start (s : Scorer α) (moment : Int) : Scorer α :=
  { s with lastUpdate := some moment }

/-- Whether the stream is muted: it was muted after it was last unmuted. -/
def isMuted (s : Scorer α) : Bool :=
  match s.mutedAt, s.unmutedAt with
  | none, _ => false
  | some _, none => true
  | some muted, some unmuted => decide (unmuted < muted)

/-- Whether the stream was not muted for more than half of the time since the last
update. -/
def isUnmutedEnough (s : Scorer α) (moment : Int) : Bool :=
  match s.unmutedAt, s.lastUpdate with
  | some unmuted, some last =>
    let sinceUpdate := inSeconds (elapsed last moment)
    if sinceUpdate == 0.0 then false
    else decide (0.5 < inSeconds (elapsed unmuted moment) / sinceUpdate)
  | _, _ => true

/-- Whether an update at a moment is passed over. -/
def passesOver (s : Scorer α) (moment : Int) : Bool :=
  s.isMuted || !s.isUnmutedEnough moment

/-- The stream is no longer muted. -/
def unmute (s : Scorer α) (moment : Int) : Scorer α :=
  { s with unmutedAt := some moment }

/-! ## Windows -/

variable [Score α]

/-- A scorer that has not been fed. -/
def new : Scorer α := { score := Score.full }

/-- The reported grade. -/
def quality (s : Scorer α) : Quality := Score.quality s.score

/-- The stream is muted. -/
def mute (s : Scorer α) (moment : Int) : Scorer α :=
  { s with mutedAt := some moment, recovering := false, windows := [], score := Score.full }

/-- The window of an update for which there are no statistics. -/
def missingWindow (s : Scorer α) (moment : Int) : Window α :=
  { start := s.lastUpdate.getD moment, score := Score.missing }

/-- Windows by their start. Of equal ones the order stays. -/
def byStart (ws : List (Window α)) : List (Window α) :=
  ws.mergeSort fun v w => v.start ≤ w.start

/-- Windows by their score. Of equal ones the order stays. -/
def byScore (ws : List (Window α)) : List (Window α) :=
  ws.mergeSort fun v w => Score.atMost v.score w.score

/-- Windows in order of their start, without those at the front that started before a
moment, unless all did. -/
def recent (moment : Int) (ws : List (Window α)) : List (Window α) :=
  match (byStart ws).dropWhile fun w => w.start < moment with
  | [] => byStart ws
  | rest => rest

/-- Whether the first window of a grade started long enough ago. -/
def isHeld (q : Quality) (moment : Int) (ws : List (Window α)) : Bool :=
  match ws.find? fun w => Score.quality w.score = q with
  | some w => q.hold ≤ elapsed w.start moment
  | none => false

/-- Drops the windows that are too old to matter for the reported grade, and says
whether that grade has been held long enough. -/
def prune (s : Scorer α) (moment : Int) : Scorer α × Bool :=
  let windows := recent (moment - s.quality.hold) s.windows
  ({ s with windows }, isHeld s.quality moment windows)

/-- The lower median of the scores of windows that are sorted by them. -/
def median? (ws : List (Window α)) : Option α :=
  (ws[(ws.length + 1) / 2 - 1]?).map Window.score

/-- Reports the median of the windows. The best grade ends the recovery. -/
def raise (s : Scorer α) : Scorer α :=
  let windows := byScore s.windows
  let s := { s with windows, score := (median? windows).getD s.score }
  if s.quality = .excellent then { s with recovering := false, windows := [] } else s

/-- Reports a window of a lower grade. -/
def drop (s : Scorer α) (w : Window α) : Scorer α :=
  { s with windows := [w], recovering := true, score := w.score }

/-- Keeps a window, and reports the median when the grade has been held. -/
def keep (s : Scorer α) (w : Window α) (moment : Int) : Scorer α :=
  match { s with windows := s.windows ++ [w] }.prune moment with
  | (s, true) => s.raise
  | (s, false) => s

/-- Takes account of a window. -/
def take (s : Scorer α) (w : Window α) (moment : Int) : Scorer α :=
  let s := s.start moment
  let q := Score.quality w.score
  if q < s.quality then s.drop w
  else if !s.recovering ∧ q = .excellent then { s with score := w.score }
  else s.keep w moment

/-- Feeds the window that ends at a moment, or none if there are no statistics for
it. -/
def update (s : Scorer α) (w : Option (Window α)) (moment : Int) : Scorer α :=
  if s.passesOver moment then s.start moment
  else s.take (w.getD (s.missingWindow moment)) moment

end Scorer
end Simulcast
