import Simulcast.Proofs.Liveness.Cycles

/-!
# Trackers that lag

Of two trackers that are otherwise the same, one has counted fewer packets of the cycle under way,
or knows of fewer good cycles in a row (`Tracker.Lags`). What happens to both keeps it so, until a
cycle is judged differently. That depends on the cycles that come: `Tracker.Doomed` says that all
of them, up to the one that makes the layer active or keeps it so, are good for the one tracker,
and for the other the first is not, or it knows of too few.

Each kind of step has a lemma that says what becomes of the two (`Passes`): most leave the lag as
it is, a call ends it or keeps the trackers from judging, and the end of a cycle takes the cycle
off those that come (`Lags.cycleEnd`).
-/

namespace Simulcast

namespace Tracker

variable {t u : Tracker} {count good missed : Nat} {counts : List Nat}

/-- The tracker with other numbers of packets and of good cycles. -/
def recount (t : Tracker) (count goodCycles : Nat) : Tracker := { t with count, goodCycles }

/-- Until it is active, a tracker has seen fewer good cycles in a row than it takes. -/
def Climbs (t : Tracker) : Prop :=
  t.status = .stopped → t.goodCycles < max t.thresholds.cycles 1

/-- The good cycles in a row after which the layer is active for sure. -/
def awaited (t : Tracker) : Nat :=
  match t.status with
  | .active => 1
  | .stopped => max t.thresholds.cycles 1 - t.goodCycles

/-- The good cycles at the beginning of a row of cycles with so many packets each. -/
def goodAhead (t : Tracker) (counts : List Nat) : Nat :=
  (counts.takeWhile fun n => t.thresholds.samples ≤ n).length

/-- In a row of cycles with so many packets each, it makes a difference to have missed some of
those in the first one, and to know of so few good cycles before it. -/
def Deprived (t : Tracker) (missed good : Nat) (counts : List Nat) : Prop :=
  t.awaited ≤ t.goodAhead counts ∧
    ((∃ n ∈ counts.head?, n - missed < t.thresholds.samples) ∨
      t.status = .stopped ∧ good < t.goodCycles)

instance (t : Tracker) (missed good : Nat) (counts : List Nat) :
    Decidable (t.Deprived missed good counts) :=
  inferInstanceAs (Decidable (_ ∧ _))

/-! ## Good cycles -/

theorem one_le_awaited (h : t.Climbs) : 1 ≤ t.awaited := by
  unfold awaited
  cases status : t.status with
  | active => exact Nat.le_refl 1
  | stopped =>
    have below := h status
    dsimp only
    omega

theorem goodAhead_cons (t : Tracker) (n : Nat) (counts : List Nat) :
    t.goodAhead (n :: counts) =
      if t.thresholds.samples ≤ n then t.goodAhead counts + 1 else 0 := by
  rw [goodAhead, List.takeWhile_cons]
  by_cases enough : t.thresholds.samples ≤ n
  · rw [decide_eq_true enough, if_pos rfl, if_pos enough, List.length_cons, goodAhead]
  · rw [decide_eq_false enough, if_neg Bool.false_ne_true, if_neg enough, List.length_nil]

theorem not_deprived_nil (h : t.Climbs) : ¬t.Deprived missed good [] := by
  rintro ⟨awaited, -⟩
  exact Nat.not_succ_le_zero 0 (Nat.le_trans (one_le_awaited h) awaited)

theorem deprived_cons (t : Tracker) (missed good n : Nat) (counts : List Nat) (h : t.Climbs) :
    t.Deprived missed good (n :: counts) ↔
      t.thresholds.samples ≤ n ∧ t.awaited ≤ t.goodAhead counts + 1 ∧
        (n - missed < t.thresholds.samples ∨ t.status = .stopped ∧ good < t.goodCycles) := by
  have one := one_le_awaited h
  rw [Deprived, goodAhead_cons, List.head?_cons]
  simp only [Option.mem_some_iff, exists_eq_left']
  by_cases enough : t.thresholds.samples ≤ n
  · rw [if_pos enough]
    simp only [enough, true_and]
  · rw [if_neg enough]
    simp only [enough, false_and, iff_false]
    omega

/-- Nothing is missing from the count. -/
theorem deprived_zero (h : t.Climbs) :
    t.Deprived 0 good counts ↔
      t.awaited ≤ t.goodAhead counts ∧ t.status = .stopped ∧ good < t.goodCycles := by
  cases counts with
  | nil =>
    refine iff_of_false (not_deprived_nil h) ?_
    rintro ⟨awaited, -⟩
    exact Nat.not_succ_le_zero 0 (Nat.le_trans (one_le_awaited h) awaited)
  | cons n counts =>
    have one := one_le_awaited h
    rw [deprived_cons t 0 good n counts h, goodAhead_cons]
    by_cases enough : t.thresholds.samples ≤ n
    · simp only [enough, true_and, if_true, Nat.sub_zero, Nat.not_lt.2 enough, false_or]
    · rw [if_neg enough]
      simp only [enough, false_and, false_iff, not_and]
      omega

/-! ## The end of a cycle -/

theorem judge_recount (t : Tracker) (missed good : Nat) :
    (t.recount (t.count - missed) good).judge =
      if t.thresholds.samples ≤ t.count - missed then good + 1 else 0 := rfl

theorem judge_recount_le (less : good ≤ t.goodCycles) :
    (t.recount (t.count - missed) good).judge ≤ t.judge := by
  rw [judge_recount, judge]
  split
  · rename_i enough
    rw [if_pos (Nat.le_trans enough (Nat.sub_le _ _))]
    exact Nat.succ_le_succ less
  · exact Nat.zero_le _

theorem climbs_endCycle (t : Tracker) : t.endCycle.Climbs := by
  rw [endCycle_eq, setStatus_eq, Climbs, verdict]
  dsimp only
  intro stopped
  split at stopped
  · rename_i none
    omega
  · split at stopped
    · cases stopped
    · omega

/-- Trackers that come to the same verdict go on alike. -/
theorem endCycle_recount (same : (t.recount count good).verdict = t.verdict) :
    (t.recount count good).endCycle = t.endCycle.recount 0 (t.recount count good).judge := by
  rw [endCycle_eq, endCycle_eq, same, setStatus_eq, setStatus_eq]
  rfl

theorem status_endCycle (t : Tracker) : t.endCycle.status = t.verdict := by
  rw [endCycle_eq, setStatus_eq]

theorem counts_endCycle (t : Tracker) :
    t.endCycle.count = 0 ∧ t.endCycle.goodCycles = t.judge := by
  rw [endCycle_eq, setStatus_eq]
  exact ⟨rfl, rfl⟩

theorem starts_endCycle (t : Tracker) : t.endCycle.starts = t.starts := by
  obtain ⟨-, paused, armed, -, -, ended⟩ := t.carries_endCycle
  rw [starts, starts, paused, armed, ended]

theorem goodAhead_endCycle (t : Tracker) (counts : List Nat) :
    t.endCycle.goodAhead counts = t.goodAhead counts := by
  rw [goodAhead, t.carries_endCycle.thresholds, goodAhead]

/-- A good cycle makes the layer active if it is the last one to wait for. -/
theorem verdict_active_iff (h : t.Climbs) (enough : t.thresholds.samples ≤ t.count) :
    t.verdict = .active ↔ t.awaited = 1 := by
  rw [verdict_of_le enough, awaited]
  cases status : t.status with
  | active => simp only [ite_self]
  | stopped =>
    have below := h status
    dsimp only
    split
    · refine iff_of_true rfl ?_
      omega
    · refine iff_of_false nofun ?_
      omega

/-- Otherwise there is one less to wait for. -/
theorem awaited_of_verdict_stopped (enough : t.thresholds.samples ≤ t.count)
    (verdict : t.verdict = .stopped) :
    t.status = .stopped ∧ t.awaited = t.endCycle.awaited + 1 := by
  have after : t.endCycle.awaited = max t.thresholds.cycles 1 - (t.goodCycles + 1) := by
    rw [awaited, status_endCycle, verdict, endCycle_eq, setStatus_eq, judge_of_le enough]
  rw [verdict_of_le enough] at verdict
  split at verdict
  · cases verdict
  · refine ⟨verdict, ?_⟩
    rw [awaited, verdict, after]
    dsimp only
    omega

theorem verdict_recount (kept : t.thresholds.samples ≤ t.count - missed) :
    (t.recount (t.count - missed) good).verdict =
      if t.thresholds.cycles ≤ good + 1 then .active else t.status := verdict_of_le kept

/-- Where the layer would be active, packets or good cycles that are missing make it stopped. -/
theorem verdict_recount_iff (h : t.Climbs) (enough : t.thresholds.samples ≤ t.count)
    (verdict : t.verdict = .active) :
    (t.recount (t.count - missed) good).verdict = .stopped ↔
      t.count - missed < t.thresholds.samples ∨ t.status = .stopped ∧ good < t.goodCycles := by
  rcases Nat.lt_or_ge (t.count - missed) t.thresholds.samples with few | kept
  · exact iff_of_true (verdict_of_lt few) (.inl few)
  · rw [verdict_of_le enough] at verdict
    rw [verdict_recount kept, or_iff_right (Nat.not_lt.2 kept)]
    cases status : t.status with
    | active => simp only [ite_self, reduceCtorEq, false_and]
    | stopped =>
      have below := h status
      rw [status] at verdict
      simp only [ite_eq_left_iff, reduceCtorEq, imp_false, Decidable.not_not] at verdict
      simp only [ite_eq_right_iff, reduceCtorEq, imp_false, true_and]
      omega

/-- Where it would be stopped, they change nothing. -/
theorem verdict_recount_of_stopped (less : good ≤ t.goodCycles) (verdict : t.verdict = .stopped) :
    (t.recount (t.count - missed) good).verdict = .stopped := by
  rcases Nat.lt_or_ge (t.count - missed) t.thresholds.samples with few | kept
  · exact verdict_of_lt few
  · rw [verdict_of_le (Nat.le_trans kept (Nat.sub_le _ _))] at verdict
    rw [verdict_recount kept]
    split at verdict
    · cases verdict
    · rw [if_neg (by omega), verdict]

/-- As long as its verdicts are the same, a tracker that has missed packets is deprived of good
cycles alone. -/
theorem deprived_endCycle (h : t.Climbs)
    (same : (t.recount (t.count - missed) good).verdict = t.verdict) :
    t.endCycle.Deprived 0 (t.recount (t.count - missed) good).judge counts ↔
      t.Deprived missed good (t.count :: counts) := by
  rw [deprived_zero t.climbs_endCycle, deprived_cons t missed good _ _ h, status_endCycle,
    goodAhead_endCycle, judge_recount, t.counts_endCycle.2]
  rcases Nat.lt_or_ge t.count t.thresholds.samples with few | enough
  · rw [judge_of_lt few]
    refine iff_of_false (fun deprived => Nat.not_lt_zero _ deprived.2.2) fun deprived => ?_
    exact Nat.not_le.2 few deprived.1
  · rw [judge_of_le enough]
    cases verdict : t.verdict with
    | stopped =>
      obtain ⟨status, awaited⟩ := awaited_of_verdict_stopped enough verdict
      simp only [awaited, status, enough, true_and, Nat.add_le_add_iff_right]
      refine and_congr_right fun _ => ?_
      split <;> omega
    | active =>
      refine iff_of_false nofun fun deprived => ?_
      rw [(verdict_recount_iff h enough verdict).2 deprived.2.2, verdict] at same
      cases same

/-- When they differ, it has been deprived. -/
theorem deprived_of_verdict_ne (h : t.Climbs) (less : good ≤ t.goodCycles)
    (other : (t.recount (t.count - missed) good).verdict ≠ t.verdict) :
    t.Deprived missed good (t.count :: counts) := by
  rw [deprived_cons t missed good _ _ h]
  cases verdict : t.verdict with
  | stopped =>
    rw [verdict_recount_of_stopped less verdict, verdict] at other
    exact absurd rfl other
  | active =>
    have enough : t.thresholds.samples ≤ t.count := Decidable.byContradiction fun few => by
      rw [verdict_of_lt (Nat.not_le.1 few)] at verdict
      cases verdict
    refine ⟨enough, ?_, (verdict_recount_iff h enough verdict).1 ?_⟩
    · rw [(verdict_active_iff h enough).1 verdict]
      exact Nat.le_add_left 1 _
    · cases recounted : (t.recount (t.count - missed) good).verdict with
      | stopped => rfl
      | active => exact absurd (recounted.trans verdict.symm) other

/-! ## Two trackers -/

/-- A tracker that is the same as another one, but for packets of the cycle under way and good
cycles that it knows nothing of. -/
structure Lags (t u : Tracker) : Prop where
  same : u = t.recount u.count u.goodCycles
  count_le : u.count ≤ t.count
  good_le : u.goodCycles ≤ t.goodCycles
  climbs : t.Climbs
  started : t.starts = true → u = t

/-- If the cycles to come have so many packets each, the two trackers will differ in their
verdicts. -/
def Doomed (t u : Tracker) (counts : List Nat) : Prop :=
  (t.paused || t.ended) = false ∧ t.Deprived (t.count - u.count) u.goodCycles counts

/-- What a step does to two trackers of which one lags. After a call it makes no difference. -/
structure Passes (t u t' u' : Tracker) (call : Bool) (judged : List Nat) : Prop where
  lags : t'.Lags u'
  doomed_iff : ∀ counts, t'.Doomed u' counts ↔ call = false ∧ t.Doomed u (judged ++ counts)

variable {t' u' : Tracker} {call : Bool} {judged : List Nat}

theorem Lags.refl (h : t.Climbs) : t.Lags t where
  same := rfl
  count_le := Nat.le_refl _
  good_le := Nat.le_refl _
  climbs := h
  started _ := rfl

theorem not_doomed_self (h : t.Climbs) : ¬t.Doomed t counts := by
  rintro ⟨-, deprived⟩
  rw [Nat.sub_self, deprived_zero h] at deprived
  exact Nat.lt_irrefl _ deprived.2.2

theorem not_doomed_nil (l : t.Lags u) : ¬t.Doomed u [] := fun doomed =>
  not_deprived_nil l.climbs doomed.2

/-- The two trackers show the same, and take note of the same cycles. -/
theorem Lags.shows (l : t.Lags u) : u.status = t.status ∧ u.notices = t.notices ∧
    u.starts = t.starts ∧ u.generation = t.generation ∧ ∀ g, u.judges g = t.judges g := by
  rw [l.same]
  exact ⟨rfl, rfl, rfl, rfl, fun _ => rfl⟩

/-- The one that lags has other numbers of packets and of good cycles. -/
theorem Lags.recounted (l : t.Lags u) : ∃ count good, u = t.recount count good ∧
    count ≤ t.count ∧ good ≤ t.goodCycles := ⟨_, _, l.same, l.count_le, l.good_le⟩

/-- The one that lags has missed some packets of the cycle under way. -/
theorem Lags.eq_missed (l : t.Lags u) :
    t.recount (t.count - (t.count - u.count)) u.goodCycles = u := by
  rw [Nat.sub_sub_self l.count_le]
  exact l.same.symm

/-! ### Steps -/

theorem Passes.refl (l : t.Lags u) : Passes t u t u false [] where
  lags := l
  doomed_iff _ := (and_iff_right rfl).symm

/-- A step after which the trackers are the same. -/
theorem Passes.of_same (h : t'.Climbs) (judged : List Nat) : Passes t u t' t' true judged where
  lags := .refl h
  doomed_iff _ := iff_of_false (not_doomed_self h) fun after => Bool.noConfusion after.1

/-- A step after which the trackers judge nothing. -/
theorem Passes.of_resting (l : t'.Lags u') (resting : (t'.paused || t'.ended) = true)
    (judged : List Nat) : Passes t u t' u' true judged where
  lags := l
  doomed_iff _ := iff_of_false (fun doomed => Bool.noConfusion (resting.symm.trans doomed.1))
    fun after => Bool.noConfusion after.1

theorem climbs_of_blank (blank : t.goodCycles = 0) : t.Climbs := fun _ => by
  rw [blank]
  exact Nat.lt_of_lt_of_le Nat.zero_lt_one (Nat.le_max_right _ _)

theorem Lags.observe (l : t.Lags u) (number : UInt16) :
    Passes t u (t.observe number) (u.observe number) false [] := by
  cases starts : t.starts with
  | true =>
    have climbs : (t.observe number).Climbs := by
      rw [observe_of_starts starts]
      exact nofun
    rw [l.started starts]
    refine ⟨.refl climbs, fun counts => iff_of_false (not_doomed_self climbs) fun doomed => ?_⟩
    exact not_doomed_self l.climbs doomed.2
  | false =>
    obtain ⟨count, good, rfl, count_le, good_le⟩ := l.recounted
    have recounted : (t.recount count good).observe number =
        if t.armed && !t.paused then (t.recount count good).countPacket number
        else t.recount count good := observe_of_not_starts (t := t.recount count good) starts number
    rw [observe_of_not_starts starts, recounted]
    split
    · by_cases old : tooOld < number - t.lastNumber
      · have same : t.countPacket number = t := if_pos old
        have same' : (t.recount count good).countPacket number = t.recount count good := if_pos old
        rw [same, same']
        exact .refl l
      · have counts : t.countPacket number = { t with
            lastNumber := number, count := t.count + 1 } := if_neg old
        have counts' : (t.recount count good).countPacket number = { t with
            lastNumber := number, count := count + 1, goodCycles := good } := if_neg old
        rw [counts, counts']
        constructor
        case lags =>
          exact ⟨rfl, Nat.succ_le_succ count_le, good_le, l.climbs, fun starts' =>
            absurd (starts.symm.trans starts') Bool.false_ne_true⟩
        case doomed_iff =>
          intro counts
          rw [Doomed, Nat.add_sub_add_right]
          exact (and_iff_right rfl).symm
    · exact .refl l

theorem Lags.deliver (l : t.Lags u) : Passes t u t.deliver.1 u.deliver.1 false [] := by
  obtain ⟨count, good, rfl, count_le, good_le⟩ := l.recounted
  constructor
  case lags =>
    exact ⟨rfl, count_le, good_le, l.climbs, fun starts =>
      congrArg (·.deliver.1) (l.started starts)⟩
  case doomed_iff => exact fun counts => (and_iff_right rfl).symm

theorem Passes.deliver (p : Passes t u t' u' call judged) :
    Passes t u t'.deliver.1 u'.deliver.1 call judged where
  lags := p.lags.deliver.lags
  doomed_iff counts :=
    (p.lags.deliver.doomed_iff counts).trans ((and_iff_right rfl).trans (p.doomed_iff counts))

theorem Lags.setPaused (l : t.Lags u) (paused : Bool) :
    Passes t u (t.setPaused paused) (u.setPaused paused) true [] := by
  obtain ⟨count, good, rfl, count_le, good_le⟩ := l.recounted
  cases paused with
  | true =>
    have lags : (t.setPaused true).Lags ((t.recount count good).setPaused true) :=
      ⟨rfl, count_le, good_le, l.climbs, fun starts => absurd starts Bool.false_ne_true⟩
    exact .of_resting lags rfl _
  | false => exact .of_same (climbs_of_blank rfl) _

theorem Lags.reset (l : t.Lags u) : Passes t u t.reset u.reset true [] := by
  obtain ⟨count, good, rfl, count_le, good_le⟩ := l.recounted
  cases ended : t.ended with
  | true =>
    have same : t.reset = t := if_pos ended
    have same' : (t.recount count good).reset = t.recount count good := if_pos ended
    rw [same, same']
    exact .of_resting l (by rw [ended, Bool.or_true]) _
  | false =>
    have blank : t.reset = { t with
        generation := t.generation + 1
        armed := false
        count := 0
        goodCycles := 0 }.setStatus .stopped := if_neg (Bool.eq_false_iff.1 ended)
    have same : (t.recount count good).reset = t.reset :=
      (if_neg (Bool.eq_false_iff.1 ended)).trans blank.symm
    rw [same]
    refine .of_same (climbs_of_blank ?_) _
    rw [blank, setStatus_eq]

theorem Lags.stop (l : t.Lags u) : Passes t u t.stop u.stop true [] := by
  obtain ⟨count, good, rfl, count_le, good_le⟩ := l.recounted
  cases ended : t.ended with
  | true =>
    have same : t.stop = t := if_pos ended
    have same' : (t.recount count good).stop = t.recount count good := if_pos ended
    rw [same, same']
    exact .of_resting l (by rw [ended, Bool.or_true]) _
  | false =>
    have stopped : t.stop = t.endDetection.shut := if_neg (Bool.eq_false_iff.1 ended)
    have stopped' : (t.recount count good).stop = t.stop.recount count good := by
      rw [stopped]
      exact if_neg (Bool.eq_false_iff.1 ended)
    have idle : t.stop.starts = false := by rw [starts, t.ended_stop, Bool.not_true, Bool.and_false]
    have lags : t.stop.Lags (t.stop.recount count good) := by
      refine ⟨rfl, ?_, ?_, ?_, fun starts => absurd (idle.symm.trans starts) Bool.false_ne_true⟩
      · rw [stopped]
        exact count_le
      · rw [stopped]
        exact good_le
      · rw [stopped]
        exact l.climbs
    rw [stopped']
    exact .of_resting lags (by rw [t.ended_stop, Bool.or_true]) _

/-- A cycle that is judged alike is taken off those that come. -/
theorem Lags.cycleEnd (l : t.Lags u) (generation : Nat)
    (alike : t.judges generation = true → u.verdict = t.verdict) :
    Passes t u (t.cycleEnd generation) (u.cycleEnd generation) false
      (if t.judges generation then [t.count] else []) := by
  rw [cycleEnd_eq, cycleEnd_eq, l.shows.2.2.2.2]
  cases judges : t.judges generation with
  | false => exact .refl l
  | true =>
    have same := alike judges
    rw [← l.eq_missed] at same
    have ends := endCycle_recount same
    rw [l.eq_missed] at ends
    rw [if_pos rfl, if_pos rfl, if_pos rfl, ends]
    obtain ⟨blank, goodCycles⟩ := t.counts_endCycle
    constructor
    case lags =>
      refine ⟨rfl, Nat.zero_le _, ?_, t.climbs_endCycle, fun starts => ?_⟩
      · rw [goodCycles, ← l.eq_missed]
        exact judge_recount_le l.good_le
      · rw [starts_endCycle] at starts
        exact ends.symm.trans (congrArg Tracker.endCycle (l.started starts))
    case doomed_iff =>
      intro counts
      obtain ⟨-, paused, -, -, -, ended⟩ := t.carries_endCycle
      have deprived : t.endCycle.Deprived 0 _ counts ↔ _ := deprived_endCycle l.climbs same
      rw [l.eq_missed] at deprived
      rw [Doomed, paused, ended, blank]
      exact (and_congr_right fun _ => deprived).trans (and_iff_right rfl).symm

/-- The verdicts show. -/
theorem Lags.status_cycleEnd (l : t.Lags u) {generation : Nat}
    (judges : t.judges generation = true) :
    (u.cycleEnd generation).status = u.verdict ∧ (t.cycleEnd generation).status = t.verdict := by
  rw [cycleEnd_eq, cycleEnd_eq, l.shows.2.2.2.2, judges, if_pos rfl, if_pos rfl, status_endCycle,
    status_endCycle]
  exact ⟨rfl, rfl⟩

/-- If a cycle is judged differently, that had to come. -/
theorem Lags.doomed_of_verdict_ne (l : t.Lags u) {generation : Nat}
    (judges : t.judges generation = true) (other : u.verdict ≠ t.verdict) :
    t.Doomed u (t.count :: counts) := by
  constructor
  · simp only [Tracker.judges, Bool.and_eq_true, Bool.not_eq_true'] at judges
    rw [judges.1.2, judges.2]
    rfl
  · refine deprived_of_verdict_ne l.climbs l.good_le ?_
    rwa [l.eq_missed]

end Tracker
end Simulcast
