import Simulcast.Proofs.Quality.Feeding

/-!
# Recovery from a drop

After a drop, better windows are fed. The grade of the drop is reported until an update finds that
it has been held since the window of the drop started, which takes that window to be still there:
but the same update first cuts off what is older than the hold (`Feeding.ExpiredBy`).

`recovers_iff` says exactly when a better grade is reported: an update that is not the first after
the drop came when the grade had been held, and none up to it had cut off the drop (`Confirmed`).
Once that window is gone, better windows alone never raise the grade (`sticks_of_expired`), and
`sticks_sparse` is a run for which that is so.
-/

namespace Simulcast

open scoped List

variable {α : Type} [Score α]

namespace Feeding

/-- The grade of the drop has been held when the window is fed. -/
def DueAt (d f : Feeding α) : Prop := d.window.start + d.window.grade.hold ≤ f.moment

/-- The window of the drop is older than the hold when the window is fed, which itself is not. -/
def ExpiredBy (d f : Feeding α) : Prop :=
  d.window.start + d.window.grade.hold < f.moment ∧
    f.moment ≤ f.window.start + d.window.grade.hold

end Feeding

/-- After the drop, a window that is not the first was fed when the grade had been held, and none up
to it had let the drop expire. -/
def Confirmed (d : Feeding α) (later : List (Feeding α)) : Prop :=
  ∃ before f, before ++ [f] <+: later ∧ before ≠ [] ∧ d.DueAt f ∧
    ∀ g ∈ before ++ [f], ¬d.ExpiredBy g

variable {d f : Feeding α} {later : List (Feeding α)}

theorem confirmed_concat : Confirmed d (later ++ [f]) ↔
    Confirmed d later ∨ later ≠ [] ∧ d.DueAt f ∧ ∀ g ∈ later ++ [f], ¬d.ExpiredBy g := by
  constructor
  · rintro ⟨before, g, front, nonempty, due, kept⟩
    rcases List.prefix_concat_iff.1 front with whole | front
    · obtain ⟨rfl, last⟩ := List.append_inj' whole rfl
      obtain rfl := List.singleton_inj.1 last
      exact .inr ⟨nonempty, due, kept⟩
    · exact .inl ⟨before, g, front, nonempty, due, kept⟩
  · rintro (⟨before, g, front, rest⟩ | ⟨nonempty, due, kept⟩)
    · exact ⟨before, g, front.trans (List.prefix_append _ _), rest⟩
    · exact ⟨later, f, List.prefix_refl _, nonempty, due, kept⟩

theorem not_confirmed_concat (h : ¬Confirmed d later)
    (hf : later ≠ [] → d.DueAt f → ∃ g ∈ later ++ [f], d.ExpiredBy g) :
    ¬Confirmed d (later ++ [f]) := by
  rw [confirmed_concat]
  rintro (confirmed | ⟨nonempty, due, kept⟩)
  · exact h confirmed
  · obtain ⟨g, hg, expired⟩ := hf nonempty due
    exact kept g hg expired

/-- When the drop has expired, no later window confirms it. -/
theorem confirmed_append_iff (expired : ∃ g ∈ later, d.ExpiredBy g) (more : List (Feeding α)) :
    Confirmed d (later ++ more) ↔ Confirmed d later := by
  induction more generalizing later with
  | nil => rw [List.append_nil]
  | cons f more ih =>
    obtain ⟨g, hg, late⟩ := expired
    have still : ∃ g ∈ later ++ [f], d.ExpiredBy g := ⟨g, List.mem_append_left _ hg, late⟩
    rw [List.append_cons, ih still, confirmed_concat]
    exact or_iff_left fun h => h.2.2 g (List.mem_append_left _ hg) late

theorem not_confirmed_nil : ¬Confirmed d [] := by
  rintro ⟨before, f, front, -⟩
  exact absurd (List.prefix_nil.1 front) (List.append_ne_nil_of_right_ne_nil _ (List.cons_ne_nil _ _))

namespace Scorer

/-! ## Windows that outweigh a drop -/

/-- The window of the drop is gone, or two others outweigh it. -/
def Outweighed (d : Window α) (ws : List (Window α)) : Prop :=
  (∀ w ∈ ws, d.grade < w.grade) ∨
    ∃ rest, ws ~ d :: rest ∧ 2 ≤ rest.length ∧ ∀ w ∈ rest, d.grade < w.grade ∧ d.start ≤ w.start

namespace Outweighed

variable {d w : Window α} {ws vs : List (Window α)}

theorem perm (h : Outweighed d ws) (hp : vs ~ ws) : Outweighed d vs := by
  rcases h with better | ⟨rest, split, many, later⟩
  · exact .inl fun w hw => better w (hp.mem_iff.1 hw)
  · exact .inr ⟨rest, hp.trans split, many, later⟩

theorem recent (h : Outweighed d ws) (better : d.grade < w.grade) (after : d.start ≤ w.start)
    (m : Int) : Outweighed d (recent m (ws ++ [w])) := by
  rcases h with all | ⟨rest, split, many, later⟩
  · have all : ∀ v ∈ ws ++ [w], d.grade < v.grade :=
      List.forall_mem_append.2 ⟨all, List.forall_mem_singleton.2 better⟩
    exact .inl fun v hv => all v ((recent_subperm m _).subset hv)
  · have split : ws ++ [w] ~ d :: (rest ++ [w]) := split.append_right [w]
    have later : ∀ v ∈ rest ++ [w], d.grade < v.grade ∧ d.start ≤ v.start :=
      List.forall_mem_append.2 ⟨later, List.forall_mem_singleton.2 ⟨better, after⟩⟩
    by_cases stays : m ≤ d.start ∨ ∀ v ∈ rest ++ [w], v.start < m
    · refine .inr ⟨rest ++ [w], ?_, ?_, later⟩
      · exact (recent_perm split (fun v hv => (later v hv).2) stays).trans split
      · rw [List.length_append]
        exact Nat.le_add_right_of_le many
    · push Not at stays
      obtain ⟨old, v, hv, young⟩ := stays
      exact .inl fun u hu => (later u (mem_of_mem_recent split old hv young hu)).1

/-- The median of such windows is of a better grade. -/
theorem median [LawfulScore α] (h : Outweighed d ws) {a : α} (ha : median? (byScore ws) = some a) :
    d.grade < Score.quality a := by
  rcases h with better | ⟨rest, split, many, later⟩
  · obtain ⟨w, hw, rfl⟩ := exists_of_median? ha
    exact better w ((byScore_perm ws).mem_iff.1 hw)
  · obtain ⟨w, hw, score⟩ := median_of_outweighed split (fun w hw => (later w hw).1) many
    cases ha.symm.trans score
    exact (later w hw).1

end Outweighed

/-! ## Phases -/

/-- How far a scorer has come since a drop. -/
inductive Since (s : Scorer α) (d : Feeding α) (later : List (Feeding α)) : Prop where
  /-- The window of the drop is still there. -/
  | pending (recovers : s.recovering = true) (same : s.quality = d.window.grade)
      (windows : s.windows ~ d.window :: later.map Feeding.window)
      (kept : ∀ f ∈ later, ¬d.ExpiredBy f) (unconfirmed : ¬Confirmed d later)
  /-- It was cut off before a better grade was reported. -/
  | stuck (recovers : s.recovering = true) (same : s.quality = d.window.grade)
      (windows : ∀ w ∈ s.windows, d.window.grade < w.grade)
      (expired : ∃ f ∈ later, d.ExpiredBy f) (unconfirmed : ¬Confirmed d later)
  /-- A better grade was reported. -/
  | recovered (better : d.window.grade < s.quality) (windows : Outweighed d.window s.windows)
      (confirmed : Confirmed d later)

variable {s : Scorer α}

/-- Windows that outweigh a drop raise the grade above that of the drop. -/
theorem Outweighed.raise [LawfulScore α] {w : Window α} (h : Outweighed w s.windows)
    (nonempty : s.windows ≠ []) :
    w.grade < s.raise.quality ∧ Outweighed w s.raise.windows := by
  obtain ⟨a, median⟩ := median?_eq_some nonempty
  constructor
  · rw [quality, raise_score, median]
    exact h.median median
  · rw [raise_windows]
    split
    · exact .inl fun _ hv => nomatch hv
    · exact h.perm (byScore_perm _)

/-- One window does not outweigh a worse one, which is reported again. -/
theorem raise_of_worst [LawfulScore α] {w : Window α} {rest : List (Window α)}
    (windows : s.windows ~ w :: rest) (better : ∀ v ∈ rest, w.grade < v.grade)
    (few : rest.length ≤ 1) (notBest : w.grade ≠ .excellent) :
    s.raise.quality = w.grade ∧ s.raise.recovering = s.recovering ∧
      s.raise.windows ~ w :: rest := by
  have score : s.raise.score = w.score := by
    rw [raise_score, median_of_worst windows better few]
    rfl
  have grade : s.raise.quality = w.grade := congrArg Score.quality score
  have notBest : ¬s.raise.quality = .excellent := grade ▸ notBest
  refine ⟨grade, ?_, ?_⟩
  · rw [raise_recovering, if_neg notBest]
  · rw [raise_windows, if_neg notBest]
    exact (byScore_perm _).trans windows

/-! ## One window after a drop -/

section Step

variable (order : InOrder (d :: (later ++ [f])))
  (better : ∀ w ∈ (later ++ [f]).map Feeding.window, d.window.grade < w.grade)

omit [Score α] in
theorem newest_mem : f.window ∈ (later ++ [f]).map Feeding.window :=
  List.mem_map_of_mem List.mem_concat_self

section Pending

variable (same : s.quality = d.window.grade)
  (windows : s.windows ~ d.window :: later.map Feeding.window)

omit [Score α] in
include windows in
theorem windows_append :
    s.windows ++ [f.window] ~ d.window :: (later ++ [f]).map Feeding.window := by
  rw [List.map_append]
  exact windows.append_right _

include order same windows

/-- The window of the drop is kept, and all later ones with it, unless it has expired. -/
theorem retained_perm (kept : ¬d.ExpiredBy f) :
    s.retained f.window f.moment ~ d.window :: (later ++ [f]).map Feeding.window := by
  obtain ⟨first, order⟩ := List.pairwise_cons.1 order
  have all := windows_append (f := f) windows
  refine (recent_perm all (List.forall_mem_map.2 first) ?_).trans all
  rw [same]
  by_cases old : d.window.start + d.window.grade.hold < f.moment
  · have older : f.window.start + d.window.grade.hold < f.moment :=
      not_le.1 fun young => kept ⟨old, young⟩
    refine .inr (List.forall_mem_map.2 fun g hg => ?_)
    have before : ∀ g ∈ later ++ [f], g.window.start ≤ f.window.start :=
      List.forall_mem_append.2 ⟨fun g hg => (List.pairwise_append.1 order).2.2 g hg f
        (List.mem_singleton.2 rfl), List.forall_mem_singleton.2 le_rfl⟩
    exact (before g hg).trans_lt (by omega)
  · exact .inl (by omega)

omit order in
/-- Only later ones are kept when it has expired. -/
theorem mem_of_mem_retained (expired : d.ExpiredBy f) {w : Window α}
    (hw : w ∈ s.retained f.window f.moment) : w ∈ (later ++ [f]).map Feeding.window := by
  obtain ⟨old, young⟩ := expired
  unfold retained at hw
  rw [same] at hw
  exact mem_of_mem_recent (windows_append windows) (by omega) newest_mem (by omega) hw

include better

/-- The grade of the drop is found held exactly when it is due and the drop has not expired. -/
theorem isHeld_retained_iff : isHeld s.quality f.moment (s.retained f.window f.moment) = true ↔
    d.DueAt f ∧ ¬d.ExpiredBy f := by
  have other : ∀ w ∈ (later ++ [f]).map Feeding.window, w.grade ≠ s.quality := by
    rw [same]
    exact fun w hw => (better w hw).ne'
  by_cases expired : d.ExpiredBy f
  · refine iff_of_false ?_ fun h => h.2 expired
    rw [Bool.not_eq_true]
    exact isHeld_eq_false fun w hw => other w (mem_of_mem_retained same windows expired hw)
  · rw [isHeld_iff_of_only (retained_perm order same windows expired) same.symm other, same]
    exact (and_iff_left expired).symm

theorem take_pending [LawfulScore α] (recovers : s.recovering = true)
    (kept : ∀ g ∈ later, ¬d.ExpiredBy g) (unconfirmed : ¬Confirmed d later) :
    (s.take f.window f.moment).Since d (later ++ [f]) := by
  have higher : d.window.grade < f.window.grade := better _ newest_mem
  have held := isHeld_retained_iff order better same windows
  have keeps (h : ¬d.ExpiredBy f) : ∀ g ∈ later ++ [f], ¬d.ExpiredBy g :=
    List.forall_mem_append.2 ⟨kept, List.forall_mem_singleton.2 h⟩
  generalize ht : s.take f.window f.moment = t
  have taken := ht ▸ s.taken f.window f.moment
  cases taken with
  | dropped lower => exact absurd (same ▸ lower) higher.asymm
  | steady stable => exact nomatch stable.symm.trans recovers
  | kept _ _ notHeld =>
    by_cases expired : d.ExpiredBy f
    · have late : ∃ g ∈ later ++ [f], d.ExpiredBy g :=
        ⟨f, List.mem_concat_self, expired⟩
      have others : ∀ w ∈ s.retained f.window f.moment, d.window.grade < w.grade :=
        fun w hw => better w (mem_of_mem_retained same windows expired hw)
      exact .stuck recovers same others late (not_confirmed_concat unconfirmed fun _ _ => late)
    · have notDue : ¬d.DueAt f := fun due =>
        nomatch notHeld.symm.trans (held.2 ⟨due, expired⟩)
      exact .pending recovers same (retained_perm order same windows expired) (keeps expired)
        (not_confirmed_concat unconfirmed fun _ due => absurd due notDue)
  | raised _ _ isHeld =>
    obtain ⟨due, expired⟩ := held.1 isHeld
    have split := retained_perm order same windows expired
    cases later with
    | nil =>
      have notBest : d.window.grade ≠ .excellent :=
        (higher.trans_le (Quality.le_excellent _)).ne
      obtain ⟨grade, recovering, windows⟩ := raise_of_worst
        (s := { s.start f.moment with windows := s.retained f.window f.moment })
        split better le_rfl notBest
      exact .pending (recovering.trans recovers) grade windows (keeps expired)
        (not_confirmed_concat unconfirmed fun nonempty => absurd rfl nonempty)
    | cons g later =>
      have starts : ∀ w ∈ (g :: later ++ [f]).map Feeding.window, d.window.start ≤ w.start :=
        List.forall_mem_map.2 (List.pairwise_cons.1 order).1
      obtain ⟨grade, windows⟩ := Outweighed.raise
        (s := { s.start f.moment with windows := s.retained f.window f.moment })
        (.inr ⟨_, split, by simp, fun w hw => ⟨better w hw, starts w hw⟩⟩) (retained_ne_nil _ _)
      exact .recovered grade windows
        (confirmed_concat.2 (.inr ⟨List.cons_ne_nil _ _, due, keeps expired⟩))

end Pending

section Later

variable (higher : d.window.grade < f.window.grade)
include higher

theorem take_stuck (recovers : s.recovering = true) (same : s.quality = d.window.grade)
    (windows : ∀ w ∈ s.windows, d.window.grade < w.grade)
    (expired : ∃ g ∈ later, d.ExpiredBy g) (unconfirmed : ¬Confirmed d later) :
    (s.take f.window f.moment).Since d (later ++ [f]) := by
  have all : ∀ w ∈ s.windows ++ [f.window], d.window.grade < w.grade :=
    List.forall_mem_append.2 ⟨windows, List.forall_mem_singleton.2 higher⟩
  have others : ∀ w ∈ s.retained f.window f.moment, d.window.grade < w.grade :=
    fun w hw => all w ((recent_subperm _ _).subset hw)
  have late : ∃ g ∈ later ++ [f], d.ExpiredBy g := by
    obtain ⟨g, hg, late⟩ := expired
    exact ⟨g, List.mem_append_left _ hg, late⟩
  generalize ht : s.take f.window f.moment = t
  have taken := ht ▸ s.taken f.window f.moment
  cases taken with
  | dropped lower => exact absurd (same ▸ lower) higher.asymm
  | steady stable => exact nomatch stable.symm.trans recovers
  | kept => exact .stuck recovers same others late (not_confirmed_concat unconfirmed fun _ _ => late)
  | raised _ _ held =>
    have notHeld : isHeld s.quality f.moment (s.retained f.window f.moment) = false :=
      isHeld_eq_false fun w hw => (same ▸ (others w hw).ne')
    exact nomatch notHeld.symm.trans held

theorem take_recovered [LawfulScore α] (grade : d.window.grade < s.quality)
    (windows : Outweighed d.window s.windows) (confirmed : Confirmed d later)
    (after : d.window.start ≤ f.window.start) :
    (s.take f.window f.moment).Since d (later ++ [f]) := by
  have confirmed : Confirmed d (later ++ [f]) := confirmed_concat.2 (.inl confirmed)
  have retained : Outweighed d.window (s.retained f.window f.moment) :=
    windows.recent higher after _
  generalize ht : s.take f.window f.moment = t
  have taken := ht ▸ s.taken f.window f.moment
  cases taken with
  | dropped => exact .recovered higher (.inl (List.forall_mem_singleton.2 higher)) confirmed
  | steady => exact .recovered higher windows confirmed
  | kept => exact .recovered grade retained confirmed
  | raised =>
    obtain ⟨grade, windows⟩ := Outweighed.raise
      (s := { s.start f.moment with windows := s.retained f.window f.moment })
      retained (retained_ne_nil _ _)
    exact .recovered grade windows confirmed

end Later
end Step

theorem Since.start (h : s.Since d later) (m : Int) : (s.start m).Since d later := by
  cases h with
  | pending recovers same windows kept unconfirmed =>
    exact .pending recovers same windows kept unconfirmed
  | stuck recovers same windows expired unconfirmed =>
    exact .stuck recovers same windows expired unconfirmed
  | recovered grade windows confirmed => exact .recovered grade windows confirmed

theorem Since.take [LawfulScore α] (h : s.Since d later) (order : InOrder (d :: (later ++ [f])))
    (better : ∀ g ∈ later ++ [f], d.window.grade < g.window.grade) :
    (s.take f.window f.moment).Since d (later ++ [f]) := by
  have newest : f ∈ later ++ [f] := List.mem_concat_self
  cases h with
  | pending recovers same windows kept unconfirmed =>
    exact take_pending order (List.forall_mem_map.2 better) same windows recovers kept unconfirmed
  | stuck recovers same windows expired unconfirmed =>
    exact take_stuck (better f newest) recovers same windows expired unconfirmed
  | recovered grade windows confirmed =>
    exact take_recovered (better f newest) grade windows confirmed
      ((List.pairwise_cons.1 order).1 f newest)

/-! ## Runs -/

theorem since_drop (f : Feeding α) (hf : f.reported = s.quality) (drops : f.Drops) :
    (s.take f.window f.moment).Since f [] := by
  have takes : s.take f.window f.moment = (s.start f.moment).drop f.window :=
    if_pos (hf ▸ drops)
  rw [takes]
  exact .pending rfl rfl (.refl _) (fun _ hg => nomatch hg) not_confirmed_nil

section Run

variable [LawfulScore α] {es : List (Event α)} {earlier : List (Feeding α)}

theorem since_play (unmuted : ∀ e ∈ es, e.mutes = false)
    (log : new.feedings es = earlier ++ d :: later) (drops : d.Drops)
    (order : InOrder (d :: later)) (better : ∀ f ∈ later, d.window.grade < f.window.grade) :
    (new.play es).Since d later := by
  refine play_induction (P := fun s log => ∀ earlier d later, log = earlier ++ d :: later →
    d.Drops → InOrder (d :: later) → (∀ f ∈ later, d.window.grade < f.window.grade) →
    s.Since d later) ?_ ?_ ?_ unmuted earlier d later log drops order better
  · intro earlier d later log
    exact absurd log.symm (List.append_ne_nil_of_right_ne_nil _ (List.cons_ne_nil _ _))
  · intro s log m h earlier d later split drops order better
    exact (h earlier d later split drops order better).start m
  · -- What is fed last is the drop itself or a window behind it.
    intro s log f hf h earlier d later split drops order better
    rcases List.eq_nil_or_concat later with rfl | ⟨later, g, rfl⟩
    · obtain ⟨-, last⟩ := List.append_inj' split rfl
      obtain rfl := List.singleton_inj.1 last
      exact since_drop f hf drops
    · rw [List.concat_eq_append] at *
      rw [← List.cons_append, ← List.append_assoc] at split
      obtain ⟨rfl, last⟩ := List.append_inj' split rfl
      obtain rfl := List.singleton_inj.1 last
      have front : InOrder (d :: later) := order.sublist (List.sublist_append_left _ [f])
      exact (h earlier d later rfl drops front
        fun g hg => better g (List.mem_append_left _ hg)).take order better

/-- Once the drop has expired unconfirmed, its grade is reported as long as the windows are in
order and all of a better grade. -/
theorem sticks_of_expired {more : List (Feeding α)} (unmuted : ∀ e ∈ es, e.mutes = false)
    (log : new.feedings es = earlier ++ d :: (later ++ more)) (drops : d.Drops)
    (order : InOrder (d :: (later ++ more)))
    (better : ∀ f ∈ later ++ more, d.window.grade < f.window.grade)
    (expired : ∃ g ∈ later, d.ExpiredBy g) (unconfirmed : ¬Confirmed d later) :
    (new.play es).quality = d.window.grade := by
  cases since_play unmuted log drops order better with
  | pending _ same | stuck _ same => exact same
  | recovered _ _ confirmed => exact absurd ((confirmed_append_iff expired more).1 confirmed) unconfirmed

/-- On every run without muting, after a drop and with windows in order that are all of a better
grade than it: a better grade is reported if and only if an update that was not the first came when
the grade of the drop had been held, and none up to it had let the drop expire. -/
theorem recovers_iff (unmuted : ∀ e ∈ es, e.mutes = false)
    (log : new.feedings es = earlier ++ d :: later) (drops : d.Drops)
    (order : InOrder (d :: later)) (better : ∀ f ∈ later, d.window.grade < f.window.grade) :
    d.window.grade < (new.play es).quality ↔ Confirmed d later := by
  cases since_play unmuted log drops order better with
  | pending _ same _ _ unconfirmed | stuck _ same _ _ unconfirmed =>
    exact iff_of_false (same ▸ lt_irrefl _) unconfirmed
  | recovered grade _ confirmed => exact iff_of_true grade confirmed

end Run

/-! ## A run that does not recover -/

/-- A drop to a good grade, and two flawless windows of seven seconds and more behind it. -/
def sparse : List (Event ℚ) :=
  [.start 0, .update (some ⟨0, 80⟩) 1000000000,
    .update (some ⟨1000000000, 100⟩) 8000000000,
    .update (some ⟨8000000000, 100⟩) 15500000000]

/-- What it feeds first. -/
def sparseDrop : Feeding ℚ := ⟨⟨0, 80⟩, 1000000000, .excellent⟩

/-- What it feeds then. -/
def sparseLater : List (Feeding ℚ) :=
  [⟨⟨1000000000, 100⟩, 8000000000, .good⟩, ⟨⟨8000000000, 100⟩, 15500000000, .good⟩]

theorem unmuted_sparse : ∀ e ∈ sparse, e.mutes = false := by
  simp only [sparse, List.forall_mem_cons]
  exact ⟨rfl, rfl, rfl, rfl, nofun⟩

theorem run_sparse :
    new.feedings sparse = sparseDrop :: sparseLater ∧ (new.play sparse).quality = .good := by
  simp only [sparse, feedings]
  delta play perform update take keep prune recent raise
  simp only [byStart_eq, byScore_eq]
  exact ⟨rfl, rfl⟩

theorem grade_sparseDrop : sparseDrop.window.grade = .good := by decide

theorem drops_sparse : sparseDrop.Drops := by
  rw [Feeding.Drops, grade_sparseDrop]
  decide

theorem inOrder_sparse : InOrder (sparseDrop :: sparseLater) := by
  unfold InOrder
  decide

theorem better_sparse : ∀ f ∈ sparseLater, sparseDrop.window.grade < f.window.grade := by
  have excellent : Score.quality (100 : ℚ) = .excellent := by decide
  have better : Quality.good < Score.quality (100 : ℚ) := by
    rw [excellent]
    decide
  rw [grade_sparseDrop]
  exact List.forall_mem_cons.2 ⟨better, List.forall_mem_singleton.2 better⟩

/-- The grade of the drop is still reported when both windows have been fed and it has been
held. -/
theorem sticks_sparse :
    (∀ e ∈ sparse, e.mutes = false) ∧ new.feedings sparse = sparseDrop :: sparseLater ∧
      sparseDrop.Drops ∧ InOrder (sparseDrop :: sparseLater) ∧
      ((sparseDrop :: sparseLater).map Feeding.moment).Pairwise (· ≤ ·) ∧
      (∀ f ∈ sparseLater, sparseDrop.window.grade < f.window.grade) ∧ 2 ≤ sparseLater.length ∧
      (∃ f ∈ sparseLater.getLast?, sparseDrop.DueAt f) ∧
      ¬sparseDrop.window.grade < (new.play sparse).quality := by
  refine ⟨unmuted_sparse, run_sparse.1, drops_sparse, inOrder_sparse, by decide, better_sparse,
    le_rfl, ⟨_, rfl, ?_⟩, ?_⟩
  · rw [Feeding.DueAt, grade_sparseDrop]
    decide
  · rw [run_sparse.2, grade_sparseDrop]
    exact lt_irrefl _

/-- No update of that run finds the drop due and unexpired. -/
theorem recovers_iff_sparse :
    (∀ e ∈ sparse, e.mutes = false) ∧ new.feedings sparse = [] ++ sparseDrop :: sparseLater ∧
      sparseDrop.Drops ∧ InOrder (sparseDrop :: sparseLater) ∧
      (∀ f ∈ sparseLater, sparseDrop.window.grade < f.window.grade) ∧
      ¬Confirmed sparseDrop sparseLater := by
  have log : new.feedings sparse = [] ++ sparseDrop :: sparseLater := run_sparse.1
  refine ⟨unmuted_sparse, log, drops_sparse, inOrder_sparse, better_sparse, fun confirmed => ?_⟩
  have recovers :=
    (recovers_iff unmuted_sparse log drops_sparse inOrder_sparse better_sparse).2 confirmed
  rw [run_sparse.2, grade_sparseDrop] at recovers
  exact lt_irrefl _ recovers

end Scorer
end Simulcast
