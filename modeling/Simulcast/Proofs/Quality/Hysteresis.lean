import Simulcast.Proofs.Quality.Feeding

/-!
# Hysteresis

A worse window is reported at once, and a better grade only after the old one has been held. A
scorer of a stream that was never muted is stable or recovers from its last drop (`LastDrop`), and
keeps no window that was fed before it: that is `Recorded`, which each window keeps. `hysteresis`
is what follows for a run.
-/

namespace Simulcast

open scoped List

variable {α : Type} [Score α] {log rest : List (Feeding α)} {d f : Feeding α}

/-- The last drop of a log, and what was fed after it. -/
structure LastDrop (log : List (Feeding α)) (d : Feeding α) (rest : List (Feeding α)) : Prop where
  split : ∃ before, log = before ++ d :: rest
  drops : d.Drops
  others : ∀ f ∈ rest, ¬f.Drops

namespace LastDrop

theorem of_drops (h : f.Drops) : LastDrop (log ++ [f]) f [] :=
  ⟨⟨log, rfl⟩, h, fun _ hf => nomatch hf⟩

theorem concat (h : LastDrop log d rest) (hf : ¬f.Drops) : LastDrop (log ++ [f]) d (rest ++ [f]) := by
  obtain ⟨⟨before, rfl⟩, drops, others⟩ := h
  exact ⟨⟨before, List.append_assoc before (d :: rest) [f]⟩, drops,
    List.forall_mem_append.2 ⟨others, List.forall_mem_singleton.2 hf⟩⟩

/-- In order, nothing fed since a drop started before it. -/
theorem start_le (h : LastDrop log d rest) (order : InOrder log) {w : Window α}
    (hw : w ∈ (d :: rest).map Feeding.window) : d.window.start ≤ w.start := by
  obtain ⟨⟨before, rfl⟩, -, -⟩ := h
  obtain ⟨f, hf, rfl⟩ := List.mem_map.1 hw
  rcases List.mem_cons.1 hf with rfl | hf
  · exact le_refl _
  · exact List.rel_of_pairwise_cons (List.pairwise_append.1 order).2.1 hf

end LastDrop

namespace Scorer

variable {s : Scorer α}

/-- A scorer that was never muted is stable, or it recovers from the last drop. -/
inductive Recorded (s : Scorer α) (log : List (Feeding α)) : Prop where
  | stable (stable : s.recovering = false) (best : s.quality = .excellent)
      (windows : s.windows = [])
  | recovering (recovers : s.recovering = true) (worse : s.quality ≠ .excellent)
      {d : Feeding α} {rest : List (Feeding α)} (last : LastDrop log d rest)
      (windows : s.windows <+~ (d :: rest).map Feeding.window)

theorem recorded_new [LawfulScore α] : (new : Scorer α).Recorded [] :=
  .stable rfl LawfulScore.quality_full rfl

theorem Recorded.start (h : s.Recorded log) (m : Int) : (s.start m).Recorded log := by
  cases h with
  | stable stable best windows => exact .stable stable best windows
  | recovering recovers worse last windows => exact .recovering recovers worse last windows

/-- A window is kept only during a recovery, and adds itself at most to what was kept. -/
theorem Recorded.retained (h : s.Recorded log) (notLower : ¬f.window.grade < s.quality)
    (unsettled : s.recovering = false → f.window.grade ≠ .excellent) :
    s.recovering = true ∧ s.quality ≠ .excellent ∧ ∃ d rest, LastDrop log d rest ∧
      s.retained f.window f.moment <+~ (d :: (rest ++ [f])).map Feeding.window := by
  cases h with
  | stable stable best =>
    rw [best, not_lt] at notLower
    exact absurd (le_antisymm (Quality.le_excellent _) notLower) (unsettled stable)
  | recovering recovers worse last windows =>
    refine ⟨recovers, worse, _, _, last, (recent_subperm _ _).trans ?_⟩
    rw [← List.cons_append, List.map_append]
    exact (List.subperm_append_right _).2 windows

theorem Recorded.take (h : s.Recorded log) (hf : f.reported = s.quality) :
    (s.take f.window f.moment).Recorded (log ++ [f]) := by
  have drops : f.Drops ↔ f.window.grade < s.quality := by rw [Feeding.Drops, hf]
  generalize ht : s.take f.window f.moment = t
  have taken := ht ▸ s.taken f.window f.moment
  cases taken with
  | dropped lower =>
    have worse : f.window.grade ≠ .excellent :=
      fun best => absurd (best ▸ lower) (not_lt.2 (Quality.le_excellent _))
    exact .recovering rfl worse (.of_drops (drops.2 lower)) (List.Subperm.refl _)
  | steady stable best =>
    cases h with
    | stable _ _ windows => exact .stable stable best windows
    | recovering recovers => exact nomatch stable.symm.trans recovers
  | kept notLower unsettled =>
    obtain ⟨recovers, worse, d, rest, last, windows⟩ := h.retained notLower unsettled
    exact .recovering recovers worse (last.concat (drops.not.2 notLower)) windows
  | raised notLower unsettled =>
    obtain ⟨recovers, -, d, rest, last, windows⟩ := h.retained notLower unsettled
    generalize hr : ({ s.start f.moment with windows := s.retained f.window f.moment }) = r
    by_cases best : r.raise.quality = .excellent
    · have stable : r.raise.recovering = false := by rw [raise_recovering, if_pos best]
      have cleared : r.raise.windows = [] := by rw [raise_windows, if_pos best]
      exact .stable stable best cleared
    · have recovers : r.raise.recovering = true := by
        rw [raise_recovering, if_neg best, ← hr]
        exact recovers
      have windows : r.raise.windows <+~ (d :: (rest ++ [f])).map Feeding.window := by
        rw [raise_windows, if_neg best, ← hr]
        exact (byScore_perm _).subperm.trans windows
      exact .recovering recovers best (last.concat (drops.not.2 notLower)) windows

/-- A better grade is reported only when the old one was held since the last drop. -/
theorem Recorded.due_of_raises (h : s.Recorded log) (hf : f.reported = s.quality)
    (order : InOrder (log ++ [f])) (raises : s.quality < (s.take f.window f.moment).quality) :
    ∃ d rest, LastDrop log d rest ∧ d.window.start + s.quality.hold ≤ f.moment := by
  generalize ht : s.take f.window f.moment = t at raises
  have taken := ht ▸ s.taken f.window f.moment
  cases taken with
  | dropped lower => exact absurd raises lower.asymm
  | steady stable =>
    cases h with
    | stable _ best =>
      rw [best] at raises
      exact absurd raises (not_lt.2 (Quality.le_excellent _))
    | recovering recovers => exact nomatch stable.symm.trans recovers
  | kept => exact absurd raises (lt_irrefl _)
  | raised notLower unsettled held =>
    obtain ⟨-, -, d, rest, last, windows⟩ := h.retained notLower unsettled
    obtain ⟨w, hw, due⟩ := exists_of_isHeld held
    have later := last.concat (f := f) (by rwa [Feeding.Drops, hf])
    have first := later.start_le order (windows.subset hw)
    exact ⟨d, rest, last, by omega⟩

/-- On every run without muting, the scorer is stable exactly if the best grade is reported, and
the windows that it keeps were fed since the last drop. A window of a lower grade than the one
reported is reported at once. As long as windows start in order, a better grade is reported only
when the old one has been held since the window of the last drop started. -/
theorem hysteresis [LawfulScore α] {es : List (Event α)} (unmuted : ∀ e ∈ es, e.mutes = false) :
    let s : Scorer α := new.play es
    let log := new.feedings es
    (s.recovering = false ↔ s.quality = .excellent) ∧
      (s.windows = [] ∨
        ∃ d rest, LastDrop log d rest ∧ s.windows <+~ (d :: rest).map Feeding.window) ∧
      ∀ w m,
        ((s.feeding w m).Drops → (s.update w m).score = (s.feeding w m).window.score) ∧
        (InOrder (log ++ [s.feeding w m]) → s.quality < (s.update w m).quality →
          ∃ d rest, LastDrop log d rest ∧ d.window.start + s.quality.hold ≤ m) := by
  intro s log
  have recorded : s.Recorded log :=
    play_induction recorded_new (fun _ _ m h => h.start m) (fun _ _ _ hf h => h.take hf) unmuted
  have updates (w : Option (Window α)) (m : Int) :
      s.update w m = s.take (s.feeding w m).window m := (neverMuted_play unmuted).update w m
  refine ⟨?_, ?_, fun w m => ⟨fun drops => ?_, fun order raises => ?_⟩⟩
  · cases recorded with
    | stable stable best => exact iff_of_true stable best
    | recovering recovers worse =>
      exact iff_of_false (fun stable => nomatch stable.symm.trans recovers) worse
  · cases recorded with
    | stable _ _ windows => exact .inl windows
    | recovering _ _ last windows => exact .inr ⟨_, _, last, windows⟩
  · rw [updates, Scorer.take]
    exact congrArg score (if_pos drops)
  · rw [updates] at raises
    exact recorded.due_of_raises rfl order raises

/-- A drop to a good grade and a flawless window behind it. -/
def dropped : List (Event ℚ) :=
  [.start 0, .update (some ⟨0, 80⟩) (1 * nanosPerSecond),
    .update (some ⟨1 * nanosPerSecond, 100⟩) (8 * nanosPerSecond)]

/-- Another flawless window raises that grade, fifteen seconds after the drop. -/
theorem hysteresis_dropped :
    let s := new.play dropped
    let w := some (⟨8 * nanosPerSecond, 100⟩ : Window ℚ)
    let m : Int := 15 * nanosPerSecond
    (∀ e ∈ dropped, e.mutes = false) ∧ InOrder (new.feedings dropped ++ [s.feeding w m]) ∧
      s.quality = .good ∧ (s.update w m).quality = .excellent ∧
      ∃ d rest, LastDrop (new.feedings dropped) d rest ∧
        d.window.start + s.quality.hold ≤ m := by
  intro s w m
  have unmuted : ∀ e ∈ dropped, e.mutes = false := by
    simp only [dropped, List.forall_mem_cons]
    exact ⟨rfl, rfl, rfl, nofun⟩
  obtain ⟨good, excellent⟩ : s.quality = .good ∧ (s.update w m).quality = .excellent := by
    subst s w m
    delta play perform update take keep prune recent raise
    simp only [byStart_eq, byScore_eq]
    decide +kernel
  have starts : (new.feedings dropped).map (fun f => f.window.start) = [0, 1 * nanosPerSecond] := rfl
  have order : InOrder (new.feedings dropped ++ [s.feeding w m]) := by
    refine List.pairwise_map (f := fun f : Feeding ℚ => f.window.start) |>.1 ?_
    rw [List.map_append, starts]
    decide
  have raises : s.quality < (s.update w m).quality := by
    rw [good, excellent]
    decide
  exact ⟨unmuted, order, good, excellent, ((hysteresis unmuted).2.2 w m).2 order raises⟩

end Scorer
end Simulcast
