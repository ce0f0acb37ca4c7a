import Simulcast.Proofs.Quality.Hysteresis

/-!
# Relapses

A window of a lower grade than the one reported lowers the report at once. The median should only
ever raise it, but it may also take a grade back. While a scorer recovers, it keeps what was fed
since the last drop, windows too that were fed when a poor grade was reported. Once the median is
good and that is reported, windows are kept for a shorter time: the older ones are cut off, which
may be the better ones, and the median is poor again.

Which windows a scorer keeps is told by the log alone (`upToDate`, `Retains`). `lowers_iff` says that
an update lowers the report if its window is of a lower grade, or if a good grade has been held and
half of the windows kept are poor (`Outvoted`), and not otherwise. `lowered_relapsing` is a run on
which a good window lowers the report from good to poor.
-/

namespace Simulcast

open scoped List

variable {α : Type} {log rest : List (Feeding α)} {d f : Feeding α}

/-! ## Windows that are up to date -/

/-- A window is out of date when another one is fed: it started longer ago than the hold of the grade
reported by then, and the other one did not. -/
def Feeding.Outdates (f : Feeding α) (w : Window α) : Prop :=
  w.start < f.moment - f.reported.hold ∧ f.moment - f.reported.hold ≤ f.window.start

instance (f : Feeding α) (w : Window α) : Decidable (f.Outdates w) :=
  inferInstanceAs (Decidable (_ ∧ _))

/-- The windows of a log that were not out of date whenever a later one was fed. -/
def upToDate : List (Feeding α) → List (Window α)
  | [] => []
  | f :: later =>
    if ∃ g ∈ later, g.Outdates f.window then upToDate later else f.window :: upToDate later

theorem upToDate_concat : upToDate (log ++ [f]) =
    (upToDate log).filter (fun w => !decide (f.Outdates w)) ++ [f.window] := by
  induction log with
  | nil => rfl
  | cons g later ih =>
    have outdated : (∃ h ∈ later ++ [f], h.Outdates g.window) ↔
        (∃ h ∈ later, h.Outdates g.window) ∨ f.Outdates g.window := by
      simp only [List.mem_append, List.mem_singleton, or_and_right, exists_or, exists_eq_left]
    rw [List.cons_append, upToDate, upToDate, ih]
    by_cases before : ∃ h ∈ later, h.Outdates g.window
    · rw [if_pos before, if_pos (outdated.2 (.inl before))]
    · rw [if_neg before]
      by_cases now : f.Outdates g.window
      · rw [if_pos (outdated.2 (.inr now)), List.filter_cons_of_neg (by simpa using now)]
      · rw [if_neg (not_or.2 ⟨before, now⟩ ∘ outdated.1),
          List.filter_cons_of_pos (by simpa using now), List.cons_append]

theorem upToDate_sublist : (upToDate log).Sublist (log.map Feeding.window) := by
  induction log with
  | nil => exact .refl _
  | cons f later ih =>
    rw [upToDate]
    split
    · exact ih.cons _
    · exact ih.cons_cons _

variable [Score α]

/-- A good grade is reported and has been held, but of the windows since the last drop that are up to
date, at least half are poor. -/
def Outvoted (log : List (Feeding α)) (f : Feeding α) : Prop :=
  f.reported = .good ∧ ∃ d rest, LastDrop log d rest ∧
    (∃ w ∈ upToDate (d :: (rest ++ [f])), w.grade = .good ∧
      w.start + Quality.good.hold ≤ f.moment) ∧
    (upToDate (d :: (rest ++ [f]))).length ≤
      2 * (upToDate (d :: (rest ++ [f]))).countP fun w => decide (w.grade = .poor)

/-- A log has one last drop. -/
theorem LastDrop.unique {d' : Feeding α} {rest' : List (Feeding α)} (h : LastDrop log d rest)
    (h' : LastDrop log d' rest') : d = d' ∧ rest = rest' := by
  obtain ⟨⟨before, split⟩, drops, others⟩ := h
  obtain ⟨⟨before', split'⟩, drops', others'⟩ := h'
  -- Of two drops, the earlier one is followed by the other, which drops too.
  rcases List.append_eq_append_iff.1 (split.symm.trans split') with
    ⟨between, rfl, eq⟩ | ⟨between, rfl, eq⟩
  · cases between with
    | nil => exact List.cons.inj eq
    | cons x between =>
      obtain ⟨rfl, rfl⟩ := List.cons.inj eq
      exact absurd drops' (others d' (List.mem_append_right _ List.mem_cons_self))
  · cases between with
    | nil => exact (List.cons.inj eq).imp Eq.symm Eq.symm
    | cons x between =>
      obtain ⟨rfl, rfl⟩ := List.cons.inj eq
      exact absurd drops (others' d (List.mem_append_right _ List.mem_cons_self))

namespace Scorer

variable {s : Scorer α}

/-! ## What a scorer keeps -/

/-- A scorer that recovers keeps the windows since the last drop that are up to date. -/
def Retains (s : Scorer α) (log : List (Feeding α)) : Prop :=
  s.recovering = true → ∃ d rest, LastDrop log d rest ∧ s.windows ~ upToDate (d :: rest)

theorem retained_perm_upToDate (last : LastDrop log d rest) (order : InOrder (log ++ [f]))
    (hf : f.reported = s.quality) (windows : s.windows ~ upToDate (d :: rest)) :
    s.retained f.window f.moment ~ upToDate (d :: (rest ++ [f])) := by
  have before : ∀ v ∈ s.windows, v.start ≤ f.window.start := by
    intro v hv
    obtain ⟨g, hg, rfl⟩ := List.mem_map.1 (upToDate_sublist.subset (windows.subset hv))
    obtain ⟨⟨front, rfl⟩, -, -⟩ := last
    exact (List.pairwise_append.1 order).2.2 g (List.mem_append_right _ hg) f
      (List.mem_singleton_self f)
  refine (recent_append_perm before).trans ?_
  rw [← List.cons_append, upToDate_concat, ← hf]
  exact (windows.filter _).append_right _

theorem Retains.take (h : s.Retains log) (recorded : s.Recorded log) (hf : f.reported = s.quality)
    (order : InOrder (log ++ [f])) : (s.take f.window f.moment).Retains (log ++ [f]) := by
  have drops : f.Drops ↔ f.window.grade < s.quality := by rw [Feeding.Drops, hf]
  generalize ht : s.take f.window f.moment = t
  have taken := ht ▸ s.taken f.window f.moment
  cases taken with
  | dropped lower => exact fun _ => ⟨f, [], .of_drops (drops.2 lower), .refl _⟩
  | steady stable => exact fun recovers => absurd (stable.symm.trans recovers) Bool.false_ne_true
  | kept notLower unsettled =>
    intro recovers
    obtain ⟨d, rest, last, windows⟩ := h recovers
    exact ⟨d, rest ++ [f], last.concat (drops.not.2 notLower),
      retained_perm_upToDate last order hf windows⟩
  | raised notLower unsettled =>
    intro recovers
    obtain ⟨d, rest, last, windows⟩ := h (recorded.retained notLower unsettled).1
    refine ⟨d, rest ++ [f], last.concat (drops.not.2 notLower), ?_⟩
    rw [raise_recovering] at recovers
    rw [raise_windows]
    split at recovers
    · cases recovers
    · rename_i notBest
      rw [if_neg notBest]
      exact (byScore_perm _).trans (retained_perm_upToDate last order hf windows)

theorem retains_play [LawfulScore α] {es : List (Event α)} (unmuted : ∀ e ∈ es, e.mutes = false)
    (order : InOrder (new.feedings es)) :
    (new.play es : Scorer α).Recorded (new.feedings es) ∧
      (new.play es : Scorer α).Retains (new.feedings es) := by
  have run : (new.play es : Scorer α).Recorded (new.feedings es) ∧
      (InOrder (new.feedings es) → (new.play es : Scorer α).Retains (new.feedings es)) := by
    refine play_induction (P := fun s log => s.Recorded log ∧ (InOrder log → s.Retains log))
      ⟨recorded_new, fun _ => nofun⟩ (fun _ _ m h => ⟨h.1.start m, h.2⟩) ?_ unmuted
    rintro s log f hf ⟨recorded, retains⟩
    refine ⟨recorded.take hf, fun order => ?_⟩
    exact (retains (List.pairwise_append.1 order).1).take recorded hf order
  exact run.imp_right fun retains => retains order

/-! ## What lowers the report -/

/-- A median lowers the report if and only if that is good and at least half of the windows are
poor. -/
theorem raise_lt_iff [LawfulScore α] (nonempty : s.windows ≠ []) (worse : s.quality ≠ .excellent) :
    s.raise.quality < s.quality ↔ s.quality = .good ∧
      s.windows.length ≤ 2 * s.windows.countP fun w => decide (w.grade = .poor) := by
  obtain ⟨a, median⟩ := median?_eq_some nonempty
  have grade : s.raise.quality = Score.quality a := by
    rw [quality, raise_score, median]
    rfl
  have lowest (q : Quality) : q ≤ .poor ↔ q = .poor := by cases q <;> decide
  have half := median_le_iff (q := .poor) median
  simp only [lowest] at half
  rw [grade, ← half]
  generalize s.quality = reported at worse
  cases reported with
  | excellent => exact absurd rfl worse
  | good | poor => cases Score.quality a <;> decide

/-- Whether a grade is outvoted can be read off the windows that are left. -/
theorem outvoted_iff (last : LastDrop log d rest) (order : InOrder (log ++ [f]))
    (hf : f.reported = s.quality) (windows : s.windows ~ upToDate (d :: rest)) :
    Outvoted log f ↔ s.quality = .good ∧
      isHeld s.quality f.moment (s.retained f.window f.moment) = true ∧
      (s.retained f.window f.moment).length ≤
        2 * (s.retained f.window f.moment).countP fun w => decide (w.grade = .poor) := by
  have perm := retained_perm_upToDate last order hf windows
  have exists_held : isHeld s.quality f.moment (s.retained f.window f.moment) = true ↔ _ :=
    isHeld_iff_exists (recent_pairwise _ _)
  simp only [perm.mem_iff] at exists_held
  rw [exists_held, perm.length_eq, perm.countP_eq, Outvoted, hf]
  constructor
  · rintro ⟨good, d', rest', last', held, half⟩
    obtain ⟨rfl, rfl⟩ := last'.unique last
    rw [good]
    exact ⟨rfl, held, half⟩
  · rintro ⟨good, held, half⟩
    rw [good] at held
    exact ⟨good, d, rest, last, held, half⟩

theorem Recorded.excellent_of_stable (h : s.Recorded log) (stable : s.recovering = false) :
    s.quality = .excellent := by
  cases h with
  | stable _ best => exact best
  | recovering recovers => exact nomatch stable.symm.trans recovers

/-- On every run without muting, as long as windows start in order, an update lowers the report if
and only if its window is of a lower grade than the one reported, or the one reported is good and
outvoted by poor windows that were fed since the last drop. -/
theorem lowers_iff [LawfulScore α] {es : List (Event α)} (unmuted : ∀ e ∈ es, e.mutes = false)
    (w : Option (Window α)) (m : Int)
    (order : InOrder (new.feedings es ++ [(new.play es).feeding w m])) :
    let s : Scorer α := new.play es
    let f := s.feeding w m
    (s.update w m).quality < s.quality ↔ f.Drops ∨ Outvoted (new.feedings es) f := by
  intro s f
  obtain ⟨recorded, retains⟩ := retains_play unmuted (List.pairwise_append.1 order).1
  rw [show s.update w m = s.take f.window f.moment from (neverMuted_play unmuted).update w m]
  generalize ht : s.take f.window f.moment = t
  have taken := ht ▸ s.taken f.window f.moment
  cases taken with
  | dropped lower => exact iff_of_true lower (.inl lower)
  | steady stable best =>
    have reported : s.quality = .excellent := recorded.excellent_of_stable stable
    have same : f.window.grade = s.quality := best.trans reported.symm
    refine iff_of_false (fun lower => ?_) (not_or.2 ⟨fun lower => ?_, fun outvoted => ?_⟩)
    · exact lower.ne same
    · exact lower.ne same
    · exact nomatch reported.symm.trans outvoted.1
  | kept notLower unsettled notHeld =>
    obtain ⟨d, rest, last, windows⟩ := retains (recorded.retained notLower unsettled).1
    refine iff_of_false (lt_irrefl _) (not_or.2 ⟨notLower, fun outvoted => ?_⟩)
    have held := ((outvoted_iff last order rfl windows).1 outvoted).2.1
    exact nomatch notHeld.symm.trans held
  | raised notLower unsettled held =>
    obtain ⟨recovers, worse, -⟩ := recorded.retained notLower unsettled
    obtain ⟨d, rest, last, windows⟩ := retains recovers
    rw [or_iff_right (a := f.Drops) notLower, outvoted_iff last order rfl windows,
      and_iff_right held]
    exact raise_lt_iff (retained_ne_nil _ _) worse

/-! ## A grade that is taken back -/

/-- Windows of two and a half seconds, one after the other, with their scores. -/
def inTurn (scores : List ℚ) : List (Event ℚ) :=
  scores.mapIdx fun i score => .update (some ⟨2500000000 * i, score⟩) (2500000000 * (i + 1))

/-- A drop, five good windows, three poor ones and a good one, by which a good grade is reported. -/
def relapsing : List (Event ℚ) := .start 0 :: inTurn [60, 80, 80, 80, 80, 80, 60, 60, 60, 80]

/-- The good window that comes then. -/
def relapse : Option (Window ℚ) := some ⟨25000000000, 80⟩

theorem unmuted_relapsing : ∀ e ∈ relapsing, e.mutes = false := by
  simp only [relapsing, inTurn, List.mapIdx_cons, List.mapIdx_nil, List.forall_mem_cons]
  exact ⟨rfl, rfl, rfl, rfl, rfl, rfl, rfl, rfl, rfl, rfl, rfl, nofun⟩

theorem times_relapsing :
    ((new.feedings relapsing).map fun f => f.window.start) =
        (List.range 10).map (fun i => 2500000000 * (i : Int)) ∧
      (new.feedings relapsing).map Feeding.moment =
        (List.range 10).map fun i => 2500000000 * (i + 1 : Int) := by
  simp only [relapsing, inTurn, List.mapIdx_cons, List.mapIdx_nil, feedings]
  delta perform update take keep prune recent raise
  simp only [byStart_eq, byScore_eq]
  decide +kernel

theorem inOrder_relapsing :
    InOrder (new.feedings relapsing ++ [(new.play relapsing).feeding relapse 27500000000]) := by
  refine List.pairwise_map (f := fun f : Feeding ℚ => f.window.start) |>.1 ?_
  rw [List.map_append, times_relapsing.1]
  decide

theorem run_relapsing :
    (new.play relapsing).quality = .good ∧
      ((new.play relapsing).feeding relapse 27500000000).window.grade = .good ∧
      ((new.play relapsing).update relapse 27500000000).quality = .poor := by
  delta play perform update take keep prune recent raise
  simp only [byStart_eq, byScore_eq]
  decide +kernel

/-- The report falls from good to poor at a good window, fed in order of windows and updates. -/
theorem lowered_relapsing :
    let s := new.play relapsing
    let f := s.feeding relapse 27500000000
    (∀ e ∈ relapsing, e.mutes = false) ∧ InOrder (new.feedings relapsing ++ [f]) ∧
      ((new.feedings relapsing ++ [f]).map Feeding.moment).Pairwise (· ≤ ·) ∧
      s.quality = .good ∧ f.window.grade = .good ∧ ¬f.Drops ∧
      (s.update relapse 27500000000).quality = .poor := by
  obtain ⟨quality, grade, lowered⟩ := run_relapsing
  refine ⟨unmuted_relapsing, inOrder_relapsing, ?_, quality, grade, ?_, lowered⟩
  · rw [List.map_append, times_relapsing.2]
    decide
  · rw [Feeding.Drops, grade]
    exact quality.symm ▸ lt_irrefl _

/-- Its good grade is outvoted. -/
theorem lowers_iff_relapsing :
    (∀ e ∈ relapsing, e.mutes = false) ∧
      InOrder (new.feedings relapsing ++ [(new.play relapsing).feeding relapse 27500000000]) ∧
      Outvoted (new.feedings relapsing) ((new.play relapsing).feeding relapse 27500000000) := by
  obtain ⟨quality, grade, poor⟩ := run_relapsing
  refine ⟨unmuted_relapsing, inOrder_relapsing, ?_⟩
  have lowered : ((new.play relapsing).update relapse 27500000000).quality <
      (new.play relapsing).quality := by
    rw [poor, quality]
    decide
  refine ((lowers_iff unmuted_relapsing _ _ inOrder_relapsing).1 lowered).resolve_left fun drops => ?_
  rw [Feeding.Drops, grade] at drops
  exact absurd quality drops.ne'

end Scorer
end Simulcast
