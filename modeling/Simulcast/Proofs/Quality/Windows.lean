import Simulcast.Proofs.Backlog
import Simulcast.Proofs.Sorted
import Simulcast.Quality.Scorer
import Mathlib.Algebra.Order.Ring.Cast
import Mathlib.Data.List.Perm.Subperm
import Mathlib.Data.List.TakeWhile
import Mathlib.Tactic.NormNum

/-!
# Grades and windows

Grades are ordered by their rank, and a higher score has no lower grade (`LawfulScore`): so it is
for exact numbers, of any ordered ring.

A scorer sorts the windows that it keeps, cuts off the old ones and looks for the first of a grade
and for the median. What comes of a list is told up to the order of its windows:

* `recent_subperm`, `recent_perm`, `mem_of_mem_recent`, `recent_append_perm`: what is cut off;
* `isHeld_iff_exists`: whether a grade has been held, of windows in order of their start, and
  `isHeld_iff_of_only`: when one window only is of that grade;
* `byStart_eq`, `byScore_eq`: windows in order, by a sort that computes on a given list;
* `median_le_iff`: the median is of a grade or a lower one when half of the windows are;
* `median_of_worst`: the median of windows with one that is worse than all others. It takes two
  others to outweigh that one.
-/

namespace Simulcast

open scoped List

/-! ## Grades -/

namespace Quality

theorem rank_injective : Function.Injective rank := by
  intro a b h
  cases a <;> cases b <;> first | rfl | cases h

instance : LinearOrder Quality where
  le a b := a.rank ≤ b.rank
  toLT := inferInstance
  le_refl _ := Nat.le_refl _
  le_trans _ _ _ := Nat.le_trans
  lt_iff_le_not_ge _ _ := Nat.lt_iff_le_and_not_ge
  le_antisymm _ _ h h' := rank_injective (Nat.le_antisymm h h')
  le_total _ _ := Nat.le_total _ _
  toDecidableLE a b := inferInstanceAs (Decidable (a.rank ≤ b.rank))

theorem le_excellent (q : Quality) : q ≤ excellent := by
  cases q <;> decide

theorem hold_pos (q : Quality) : 0 < q.hold := by
  cases q <;> decide

end Quality

/-- Scores whose order is total and agrees with their grades. -/
class LawfulScore (α : Type) [Score α] : Prop where
  atMost_total (a b : α) : (Score.atMost a b || Score.atMost b a) = true
  atMost_trans (a b c : α) :
    Score.atMost a b = true → Score.atMost b c = true → Score.atMost a c = true
  isAbove_of_atMost {a b : α} {n : Nat} :
    Score.atMost a b = true → Score.isAbove a n = true → Score.isAbove b n = true
  quality_full : Score.quality (Score.full : α) = .excellent
  quality_missing : Score.quality (Score.missing : α) = .poor

section Exact

variable {K : Type} [Ring K] [LinearOrder K] [IsStrictOrderedRing K]

instance : Score K where
  full := 100
  missing := 50
  isAbove s n := decide ((n : K) < s)
  atMost a b := decide (a ≤ b)

instance : LawfulScore K where
  atMost_total a b := by simpa [Score.atMost] using le_total a b
  atMost_trans a b c := by simpa [Score.atMost] using le_trans
  isAbove_of_atMost := by
    simp only [Score.atMost, Score.isAbove, decide_eq_true_eq]
    exact fun le lt => lt.trans_le le
  quality_full := by
    norm_num [Score.quality, Score.isAbove, Score.full]
  quality_missing := by
    norm_num [Score.quality, Score.isAbove, Score.missing]

end Exact

theorem Score.quality_mono {α : Type} [Score α] [LawfulScore α] {a b : α} (h : atMost a b = true) :
    quality a ≤ quality b := by
  have above (n : Nat) : isAbove a n = true → isAbove b n = true :=
    LawfulScore.isAbove_of_atMost h
  unfold quality
  by_cases excellent : isAbove a 80 = true
  · rw [if_pos excellent, if_pos (above 80 excellent)]
  · rw [if_neg excellent]
    by_cases good : isAbove a 60 = true
    · rw [if_pos good, if_pos (above 60 good)]
      split <;> decide
    · rw [if_neg good]
      exact Nat.zero_le _

/-- The grade of a window. -/
def Window.grade {α : Type} [Score α] (w : Window α) : Quality := Score.quality w.score

namespace Scorer

variable {α : Type} {ws rest : List (Window α)} {d w : Window α} {q : Quality} {m : Int}

/-! ## Recent windows -/

theorem byStart_perm (ws : List (Window α)) : byStart ws ~ ws := List.mergeSort_perm _ _

theorem starts_trans (u v w : Window α) (uv : decide (u.start ≤ v.start) = true)
    (vw : decide (v.start ≤ w.start) = true) : decide (u.start ≤ w.start) = true :=
  decide_eq_true (le_trans (of_decide_eq_true uv) (of_decide_eq_true vw))

theorem starts_total (v w : Window α) :
    (decide (v.start ≤ w.start) || decide (w.start ≤ v.start)) = true := by
  simpa using le_total v.start w.start

theorem byStart_pairwise (ws : List (Window α)) :
    (byStart ws).Pairwise fun v w => v.start ≤ w.start :=
  (List.pairwise_mergeSort starts_trans starts_total ws).imp fun h => of_decide_eq_true h

/-- The order as it computes. -/
theorem byStart_eq (ws : List (Window α)) :
    byStart ws = ws.insertionSort fun v w => decide (v.start ≤ w.start) = true :=
  mergeSort_eq_insertionSort starts_trans starts_total ws

theorem recent_pairwise (m : Int) (ws : List (Window α)) :
    (recent m ws).Pairwise fun v w => v.start ≤ w.start := by
  unfold recent
  split
  · exact byStart_pairwise ws
  · exact (byStart_pairwise ws).sublist (List.dropWhile_sublist _)

/-- When all windows started before, none is cut off. -/
theorem recent_eq_byStart (h : ∀ w ∈ ws, w.start < m) : recent m ws = byStart ws := by
  have all : (byStart ws).dropWhile (fun w => decide (w.start < m)) = [] :=
    List.dropWhile_eq_nil_iff.2 fun w hw => decide_eq_true (h w ((byStart_perm ws).mem_iff.1 hw))
  rw [recent, all]

/-- When some window started since, all that started before are cut off. -/
theorem recent_eq_filter (hw : w ∈ ws) (h : m ≤ w.start) :
    recent m ws = (byStart ws).filter fun v => !decide (v.start < m) := by
  have sorted := Backlog.dropWhile_eq_filter (p := fun v : Window α => decide (v.start < m))
    ((byStart_pairwise ws).imp fun le lt => decide_eq_true (le.trans_lt (of_decide_eq_true lt)))
  have kept : w ∈ (byStart ws).filter fun v => !decide (v.start < m) :=
    List.mem_filter.2 ⟨(byStart_perm ws).mem_iff.2 hw, by simpa using h⟩
  rw [recent, sorted]
  split
  · rename_i none
    rw [none] at kept
    cases kept
  · rfl

theorem recent_subperm (m : Int) (ws : List (Window α)) : (recent m ws).Subperm ws := by
  refine List.Subperm.trans ?_ (byStart_perm ws).subperm
  unfold recent
  split
  · exact List.Subperm.refl _
  · exact (List.dropWhile_sublist _).subperm

theorem recent_ne_nil (h : ws ≠ []) (m : Int) : recent m ws ≠ [] := by
  have sorted : byStart ws ≠ [] := fun none => h (List.nil_perm.1 (none ▸ byStart_perm ws))
  unfold recent
  split
  · exact sorted
  · assumption

/-- The first window stays, and all others with it, unless it alone is too old. -/
theorem recent_perm (h : ws ~ d :: rest) (first : ∀ w ∈ rest, d.start ≤ w.start)
    (stays : m ≤ d.start ∨ ∀ w ∈ rest, w.start < m) : recent m ws ~ ws := by
  by_cases hd : m ≤ d.start
  · have since : ∀ w ∈ byStart ws, (!decide (w.start < m)) = true := by
      intro w hw
      rcases List.mem_cons.1 (h.mem_iff.1 ((byStart_perm ws).mem_iff.1 hw)) with rfl | hw
      · simpa using hd
      · simpa using hd.trans (first w hw)
    rw [recent_eq_filter (h.mem_iff.2 List.mem_cons_self) hd, List.filter_eq_self.2 since]
    exact byStart_perm ws
  · have before : ∀ w ∈ ws, w.start < m := by
      intro w hw
      rcases List.mem_cons.1 (h.mem_iff.1 hw) with rfl | hw
      · exact not_le.1 hd
      · exact stays.resolve_left hd w hw
    rw [recent_eq_byStart before]
    exact byStart_perm ws

/-- The first window is cut off when it alone is too old. -/
theorem mem_of_mem_recent (h : ws ~ d :: rest) (old : d.start < m) {v : Window α} (hv : v ∈ rest)
    (young : m ≤ v.start) (hw : w ∈ recent m ws) : w ∈ rest := by
  rw [recent_eq_filter (h.mem_iff.2 (List.mem_cons_of_mem _ hv)) young, List.mem_filter] at hw
  obtain ⟨hw, since⟩ := hw
  rcases List.mem_cons.1 (h.mem_iff.1 ((byStart_perm ws).mem_iff.1 hw)) with rfl | hw
  · rw [decide_eq_true old] at since
    cases since
  · exact hw

/-- When the last window started after all others, it decides whether any is cut off. -/
theorem recent_append_perm (last : ∀ v ∈ ws, v.start ≤ w.start) :
    recent m (ws ++ [w]) ~
      ws.filter (fun v => !decide (v.start < m ∧ m ≤ w.start)) ++ [w] := by
  by_cases young : m ≤ w.start
  · rw [recent_eq_filter (List.mem_append_right _ (List.mem_singleton_self w)) young]
    refine ((byStart_perm _).filter _).trans ?_
    simp [young]
  · have old : ∀ v ∈ ws ++ [w], v.start < m :=
      List.forall_mem_append.2 ⟨fun v hv => (last v hv).trans_lt (not_le.1 young),
        List.forall_mem_singleton.2 (not_le.1 young)⟩
    rw [recent_eq_byStart old]
    simpa [young] using byStart_perm (ws ++ [w])

/-! ## Holding a grade -/

variable [Score α]

theorem hold_le_elapsed {a b : Int} : q.hold ≤ elapsed a b ↔ a + q.hold ≤ b := by
  have := q.hold_pos
  unfold elapsed
  omega

theorem isHeld_iff :
    isHeld q m ws = true ↔
      ∃ w, ws.find? (fun w => decide (w.grade = q)) = some w ∧ w.start + q.hold ≤ m := by
  unfold isHeld
  split
  · rename_i w found
    rw [decide_eq_true_iff, hold_le_elapsed]
    constructor
    · exact fun held => ⟨w, found, held⟩
    · rintro ⟨v, found', held⟩
      cases found.symm.trans found'
      exact held
  · rename_i none
    refine iff_of_false Bool.false_ne_true ?_
    rintro ⟨w, found, -⟩
    cases none.symm.trans found

theorem exists_of_isHeld (h : isHeld q m ws = true) : ∃ w ∈ ws, w.start + q.hold ≤ m := by
  obtain ⟨w, found, held⟩ := isHeld_iff.1 h
  exact ⟨w, List.mem_of_find?_eq_some found, held⟩

/-- In order of their start, windows hold a grade if any of that grade started long enough ago. -/
theorem isHeld_iff_exists (sorted : ws.Pairwise fun v w => v.start ≤ w.start) :
    isHeld q m ws = true ↔ ∃ w ∈ ws, w.grade = q ∧ w.start + q.hold ≤ m := by
  rw [isHeld_iff]
  constructor
  · rintro ⟨w, found, held⟩
    exact ⟨w, List.mem_of_find?_eq_some found, by simpa using List.find?_some found, held⟩
  · rintro ⟨w, hw, grade, held⟩
    have some : (ws.find? fun w => decide (w.grade = q)).isSome = true :=
      List.find?_isSome.2 ⟨w, hw, decide_eq_true grade⟩
    obtain ⟨v, found⟩ := Option.isSome_iff_exists.1 some
    refine ⟨v, found, ?_⟩
    rcases rel_of_find? sorted found hw (decide_eq_true grade) with rfl | earlier
    · exact held
    · exact (Int.add_le_add_right earlier _).trans held

/-- A grade that one window only has is held since that window. -/
theorem isHeld_iff_of_only (h : ws ~ d :: rest) (hd : d.grade = q) (other : ∀ w ∈ rest, w.grade ≠ q) :
    isHeld q m ws = true ↔ d.start + q.hold ≤ m := by
  have found : ws.find? (fun w => decide (w.grade = q)) = some d := by
    have some : (ws.find? fun w => decide (w.grade = q)).isSome = true :=
      List.find?_isSome.2 ⟨d, h.mem_iff.2 List.mem_cons_self, decide_eq_true hd⟩
    obtain ⟨w, found⟩ := Option.isSome_iff_exists.1 some
    rcases List.mem_cons.1 (h.mem_iff.1 (List.mem_of_find?_eq_some found)) with rfl | hw
    · exact found
    · exact absurd (by simpa using List.find?_some found) (other w hw)
  rw [isHeld_iff, found]
  constructor
  · rintro ⟨w, ⟨⟩, held⟩
    exact held
  · exact fun held => ⟨d, rfl, held⟩

/-- A grade that no window has is not held. -/
theorem isHeld_eq_false (other : ∀ w ∈ ws, w.grade ≠ q) : isHeld q m ws = false := by
  rw [Bool.eq_false_iff]
  intro held
  obtain ⟨w, found, -⟩ := isHeld_iff.1 held
  exact other w (List.mem_of_find?_eq_some found) (by simpa using List.find?_some found)

/-! ## Medians -/

omit [Score α] in
theorem exists_of_median? {a : α} (h : median? ws = some a) : ∃ w ∈ ws, w.score = a := by
  obtain ⟨w, found, score⟩ := Option.map_eq_some_iff.1 h
  exact ⟨w, List.mem_of_getElem? found, score⟩

theorem byScore_perm (ws : List (Window α)) : byScore ws ~ ws := List.mergeSort_perm _ _

theorem byScore_pairwise [LawfulScore α] (ws : List (Window α)) :
    (byScore ws).Pairwise fun v w => v.grade ≤ w.grade :=
  (List.pairwise_mergeSort (fun a b c : Window α => LawfulScore.atMost_trans a.score b.score c.score)
    (fun a b => LawfulScore.atMost_total a.score b.score) ws).imp Score.quality_mono

/-- The order as it computes. -/
theorem byScore_eq [LawfulScore α] (ws : List (Window α)) :
    byScore ws = ws.insertionSort fun v w => Score.atMost v.score w.score = true :=
  mergeSort_eq_insertionSort
    (fun a b c : Window α => LawfulScore.atMost_trans a.score b.score c.score)
    (fun a b => LawfulScore.atMost_total a.score b.score) ws

/-- The median is of a grade or a lower one if and only if at least half of the windows are. -/
theorem median_le_iff [LawfulScore α] {a : α} (h : median? (byScore ws) = some a) :
    Score.quality a ≤ q ↔ ws.length ≤ 2 * ws.countP fun w => decide (w.grade ≤ q) := by
  obtain ⟨w, found, rfl⟩ := Option.map_eq_some_iff.1 h
  obtain ⟨inside, rfl⟩ := List.getElem?_eq_some_iff.1 found
  have first : (byScore ws).Pairwise fun v w =>
      decide (w.grade ≤ q) = true → decide (v.grade ≤ q) = true :=
    (byScore_pairwise ws).imp fun le => by simpa using le.trans
  have count := lt_countP_iff first inside
  rw [decide_eq_true_eq] at count
  have perm := byScore_perm ws
  rw [← perm.countP_eq, ← perm.length_eq]
  refine count.symm.trans ?_
  omega

theorem median?_eq_some {ws : List (Window α)} (h : ws ≠ []) : ∃ a, median? (byScore ws) = some a := by
  have length := (byScore_perm ws).length_eq
  have inside : ((byScore ws).length + 1) / 2 - 1 < (byScore ws).length := by
    have := List.length_pos_iff.2 h
    omega
  exact ⟨_, by rw [median?, List.getElem?_eq_getElem inside]; rfl⟩

/-- A window that is worse than all others comes first by score. -/
theorem byScore_of_worst [LawfulScore α] (h : ws ~ d :: rest)
    (better : ∀ w ∈ rest, d.grade < w.grade) : ∃ others, byScore ws = d :: others ∧ others ~ rest := by
  have perm := (byScore_perm ws).trans h
  have sorted := byScore_pairwise ws
  generalize byScore ws = sortedWs at perm sorted
  cases sortedWs with
  | nil => exact absurd perm.symm List.not_perm_cons_nil
  | cons v others =>
    have first : v = d := by
      by_contra ne
      have hv : v ∈ rest := (List.mem_cons.1 (perm.mem_iff.1 List.mem_cons_self)).resolve_left ne
      have hd : d ∈ others :=
        (List.mem_cons.1 (perm.mem_iff.2 List.mem_cons_self)).resolve_left (Ne.symm ne)
      exact absurd (better v hv) (not_lt.2 (List.rel_of_pairwise_cons sorted hd))
    subst first
    exact ⟨others, rfl, (List.perm_cons v).1 perm⟩

/-- One other window does not outweigh the worst. -/
theorem median_of_worst [LawfulScore α] (h : ws ~ d :: rest)
    (better : ∀ w ∈ rest, d.grade < w.grade) (few : rest.length ≤ 1) :
    median? (byScore ws) = some d.score := by
  obtain ⟨others, sorted, perm⟩ := byScore_of_worst h better
  have length := perm.length_eq
  have middle : (others.length + 1 + 1) / 2 - 1 = 0 := by omega
  rw [sorted, median?, List.length_cons, middle]
  rfl

/-- Two other windows outweigh the worst. -/
theorem median_of_outweighed [LawfulScore α] (h : ws ~ d :: rest)
    (better : ∀ w ∈ rest, d.grade < w.grade) (many : 2 ≤ rest.length) :
    ∃ w ∈ rest, median? (byScore ws) = some w.score := by
  obtain ⟨others, sorted, perm⟩ := byScore_of_worst h better
  have length := perm.length_eq
  obtain ⟨i, middle⟩ : ∃ i, (others.length + 1 + 1) / 2 - 1 = i + 1 :=
    Nat.exists_eq_add_of_le' (by omega)
  have inside : i < others.length := by omega
  refine ⟨others.get ⟨i, inside⟩, perm.mem_iff.1 (List.get_mem _ _), ?_⟩
  rw [sorted, median?, List.length_cons, middle, List.getElem?_cons_succ,
    List.getElem?_eq_getElem inside]
  rfl

end Scorer
end Simulcast
