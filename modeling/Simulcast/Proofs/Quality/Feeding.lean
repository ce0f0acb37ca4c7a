import Simulcast.Proofs.Quality.Windows

/-!
# Runs of a scorer

All that can be asked of a scorer, as one type, and the runs of it. The windows that are scored
on a run are logged, each with the grade that was reported before (`Feeding`).

All that a window can do to a scorer is told once, by `taken`. What holds of a new scorer, and is
kept by each window, holds after every run on which the stream is not muted: that is
`play_induction`.
-/

namespace Simulcast

/-- A window that is scored, with the moment of its update and the grade reported before. -/
structure Feeding (α : Type) where
  window : Window α
  moment : Int
  reported : Quality

/-- The window is of a lower grade than the one reported. -/
def Feeding.Drops {α : Type} [Score α] (f : Feeding α) : Prop := f.window.grade < f.reported

/-- The windows start in the order in which they are fed. -/
def InOrder {α : Type} (log : List (Feeding α)) : Prop :=
  log.Pairwise fun f g => f.window.start ≤ g.window.start

namespace Scorer

/-- What a scorer may be asked to do. -/
inductive Event (α : Type) where
  | start (moment : Int)
  | mute (moment : Int)
  | unmute (moment : Int)
  | update (window : Option (Window α)) (moment : Int)

variable {α : Type}

/-- Whether the stream is muted or unmuted. -/
def Event.mutes : Event α → Bool
  | mute _ | unmute _ => true
  | _ => false

variable [Score α]

/-- A scorer after an event. -/
def perform (s : Scorer α) : Event α → Scorer α
  | .start moment => s.start moment
  | .mute moment => s.mute moment
  | .unmute moment => s.unmute moment
  | .update w moment => s.update w moment

/-- A scorer after some events. -/
def play (s : Scorer α) (es : List (Event α)) : Scorer α := es.foldl perform s

/-- What an update feeds. -/
def feeding (s : Scorer α) (w : Option (Window α)) (moment : Int) : Feeding α :=
  { window := w.getD (s.missingWindow moment), moment, reported := s.quality }

/-- What an event feeds. An update that is passed over feeds nothing. -/
def fed (s : Scorer α) : Event α → List (Feeding α)
  | .update w moment => if s.passesOver moment then [] else [s.feeding w moment]
  | _ => []

/-- What some events feed. -/
def feedings (s : Scorer α) : List (Event α) → List (Feeding α)
  | [] => []
  | e :: es => s.fed e ++ (s.perform e).feedings es

variable {s : Scorer α} {w : Window α} {m : Int}

/-! ## Reporting the median -/

theorem raise_score : s.raise.score = (median? (byScore s.windows)).getD s.score := by
  unfold raise
  dsimp only
  split <;> rfl

theorem raise_recovering :
    s.raise.recovering = if s.raise.quality = .excellent then false else s.recovering := by
  unfold quality
  rw [raise_score]
  exact apply_ite recovering _ _ _

theorem raise_windows :
    s.raise.windows = if s.raise.quality = .excellent then [] else byScore s.windows := by
  unfold quality
  rw [raise_score]
  exact apply_ite windows _ _ _

/-! ## Taking a window -/

/-- The windows that are left when one more is kept. -/
def retained (s : Scorer α) (w : Window α) (moment : Int) : List (Window α) :=
  recent (moment - s.quality.hold) (s.windows ++ [w])

theorem retained_ne_nil (w : Window α) (m : Int) : s.retained w m ≠ [] :=
  recent_ne_nil (List.append_ne_nil_of_right_ne_nil _ (List.cons_ne_nil _ _)) _

theorem keep_eq : s.keep w m =
    if isHeld s.quality m (s.retained w m) = true
    then { s with windows := s.retained w m }.raise
    else { s with windows := s.retained w m } := by
  have pruned : { s with windows := s.windows ++ [w] }.prune m =
      ({ s with windows := s.retained w m }, isHeld s.quality m (s.retained w m)) := rfl
  rw [keep, pruned]
  cases isHeld s.quality m (s.retained w m) <;> rfl

/-- What a window does to a scorer. -/
inductive Taken (s : Scorer α) (w : Window α) (moment : Int) : Scorer α → Prop where
  | dropped (lower : w.grade < s.quality) : Taken s w moment ((s.start moment).drop w)
  | steady (stable : s.recovering = false) (best : w.grade = .excellent) :
      Taken s w moment { s.start moment with score := w.score }
  | kept (notLower : ¬w.grade < s.quality)
      (unsettled : s.recovering = false → w.grade ≠ .excellent)
      (notHeld : isHeld s.quality moment (s.retained w moment) = false) :
      Taken s w moment { s.start moment with windows := s.retained w moment }
  | raised (notLower : ¬w.grade < s.quality)
      (unsettled : s.recovering = false → w.grade ≠ .excellent)
      (held : isHeld s.quality moment (s.retained w moment) = true) :
      Taken s w moment { s.start moment with windows := s.retained w moment }.raise

theorem taken (s : Scorer α) (w : Window α) (m : Int) : s.Taken w m (s.take w m) := by
  unfold take
  dsimp only
  split
  · rename_i lower
    exact .dropped lower
  · rename_i notLower
    split
    · rename_i settled
      have stable : (!s.recovering) = true := settled.1
      exact .steady (by simpa using stable) settled.2
    · rename_i not
      have unsettled : s.recovering = false → w.grade ≠ .excellent :=
        fun stable best => not ⟨congrArg Bool.not stable, best⟩
      rw [keep_eq]
      split
      · rename_i held
        exact .raised notLower unsettled held
      · rename_i notHeld
        exact .kept notLower unsettled (Bool.eq_false_iff.2 notHeld)

/-- A window neither mutes nor unmutes. -/
theorem take_mutes (s : Scorer α) (w : Window α) (m : Int) :
    (s.take w m).mutedAt = s.mutedAt ∧ (s.take w m).unmutedAt = s.unmutedAt := by
  generalize ht : s.take w m = t
  have := ht ▸ s.taken w m
  cases this with
  | raised =>
    unfold raise
    dsimp only
    split <;> exact ⟨rfl, rfl⟩
  | _ => exact ⟨rfl, rfl⟩

/-! ## Runs without muting -/

/-- The stream was neither muted nor unmuted. -/
def NeverMuted (s : Scorer α) : Prop := s.mutedAt = none ∧ s.unmutedAt = none

omit [Score α] in
theorem NeverMuted.scores (h : s.NeverMuted) (m : Int) : s.passesOver m = false := by
  rw [passesOver, isMuted, isUnmutedEnough, h.1, h.2]
  rfl

theorem NeverMuted.update (h : s.NeverMuted) (w : Option (Window α)) (m : Int) :
    s.update w m = s.take (s.feeding w m).window m := by
  rw [Scorer.update, h.scores]
  rfl

theorem NeverMuted.fed (h : s.NeverMuted) (w : Option (Window α)) (m : Int) :
    s.fed (.update w m) = [s.feeding w m] := by
  rw [Scorer.fed, h.scores]
  rfl

theorem NeverMuted.take (h : s.NeverMuted) (w : Window α) (m : Int) : (s.take w m).NeverMuted :=
  ⟨(take_mutes s w m).1.trans h.1, (take_mutes s w m).2.trans h.2⟩

/-- What holds of a new scorer, and is kept when the time begins and when a window is taken, holds
after every run without muting. -/
theorem play_induction {P : Scorer α → List (Feeding α) → Prop} (init : P new [])
    (start : ∀ s log m, P s log → P (s.start m) log)
    (take : ∀ s log f, f.reported = s.quality → P s log →
      P (s.take f.window f.moment) (log ++ [f]))
    {es : List (Event α)} (unmuted : ∀ e ∈ es, e.mutes = false) :
    P (new.play es) (new.feedings es) := by
  suffices run : ∀ (s : Scorer α) log, s.NeverMuted → P s log →
      P (s.play es) (log ++ s.feedings es) from run new [] ⟨rfl, rfl⟩ init
  induction es with
  | nil =>
    intro s log _ h
    rw [feedings, List.append_nil]
    exact h
  | cons e es ih =>
    intro s log never h
    have ih := ih fun e he => unmuted e (List.mem_cons_of_mem _ he)
    change P ((s.perform e).play es) (log ++ (s.fed e ++ (s.perform e).feedings es))
    rw [← List.append_assoc]
    cases e with
    | start m =>
      rw [show s.fed (.start m) = [] from rfl, List.append_nil]
      exact ih _ _ never (start s log m h)
    | update w m =>
      rw [never.fed, show s.perform (.update w m) = s.take (s.feeding w m).window m from
        never.update w m]
      exact ih _ _ (never.take _ _) (take s log (s.feeding w m) rfl h)
    | _ => cases unmuted _ List.mem_cons_self

theorem neverMuted_play {es : List (Event α)} (unmuted : ∀ e ∈ es, e.mutes = false) :
    (new.play es : Scorer α).NeverMuted :=
  play_induction (P := fun s _ => s.NeverMuted) ⟨rfl, rfl⟩ (fun _ _ _ h => h)
    (fun _ _ _ _ h => h.take _ _) unmuted

end Scorer
end Simulcast
