import Simulcast.Proofs.Liveness.Delivery

/-!
# Cycles of detection

A tracker that is armed and left alone: packets come, time goes on, notices are delivered. What a
packet counts for is told by `Arrivals`, which knows nothing of the tracker: a packet that is not older
than the newest before it counts in the cycle in which it comes, cycle `k` being the time from `k` to
`k + 1` cycle lengths after the packet that armed the tracker.

The end of a cycle is one step of the tracker (`Follows.endCycle`): the good cycles in a row are those
since the last that was short of packets. As time goes on the task of the generation ends the cycles one
by one, and the tasks of generations that are over go (`Detects.ring`), so that a run ends all cycles
that are due and no other (`Underway.follow`). From this follow the status after any run
(`active_iff_cycles`), and when it never was but active (`stays_active_iff`).
-/

namespace Simulcast

/-! ## One cycle -/

namespace Tracker

variable {t : Tracker} {n m : Nat → Nat} {ends : Nat}

/-- What a tracker has made of the cycles that have ended, with so many packets in each. -/
structure Follows (n : Nat → Nat) (ends : Nat) (t : Tracker) : Prop where
  within : t.goodCycles ≤ ends
  good : ∀ k < ends, ends ≤ k + t.goodCycles → t.thresholds.samples ≤ n k
  /-- The cycle before the good ones was short of packets. -/
  short : ∀ k, k + 1 + t.goodCycles = ends → n k < t.thresholds.samples
  status : t.status = .active ↔ t.goodCycles = ends ∨ max 1 t.thresholds.cycles ≤ t.goodCycles

/-- What comes later does not count in cycles that have ended. -/
theorem Follows.congr (f : Follows n ends t) (same : ∀ k < ends, m k = n k) : Follows m ends t where
  within := f.within
  good k ended row := by
    rw [same k ended]
    exact f.good k ended row
  short k row := by
    rw [same k (by omega)]
    exact f.short k row
  status := f.status

theorem judge_of_le (h : t.thresholds.samples ≤ t.count) : t.judge = t.goodCycles + 1 := if_pos h

theorem judge_of_lt (h : t.count < t.thresholds.samples) : t.judge = 0 := if_neg (Nat.not_le.2 h)

theorem verdict_of_lt (h : t.count < t.thresholds.samples) : t.verdict = .stopped :=
  if_pos (judge_of_lt h)

theorem verdict_of_le (h : t.thresholds.samples ≤ t.count) :
    t.verdict = if t.thresholds.cycles ≤ t.goodCycles + 1 then .active else t.status := by
  rw [verdict, judge_of_le h, if_neg (Nat.succ_ne_zero _)]

theorem Follows.endCycle (f : Follows n ends t) (count : t.count = n ends) :
    Follows n (ends + 1) t.endCycle := by
  obtain ⟨within, good, short, status⟩ := f
  rw [endCycle_eq, setStatus_eq]
  rcases Nat.lt_or_ge t.count t.thresholds.samples with few | enough
  · rw [judge_of_lt few, verdict_of_lt few]
    constructor
    case within => exact Nat.zero_le _
    case good => exact fun k ended row => absurd row (by simp only [Nat.add_zero]; omega)
    case short =>
      intro k row
      obtain rfl : k = ends := Nat.succ.inj row
      exact count ▸ few
    case status =>
      show LayerStatus.stopped = .active ↔ 0 = ends + 1 ∨ max 1 t.thresholds.cycles ≤ 0
      exact iff_of_false nofun (by omega)
  · rw [judge_of_le enough, verdict_of_le enough]
    constructor
    case within => exact Nat.succ_le_succ within
    case good =>
      intro k ended row
      show t.thresholds.samples ≤ n k
      change ends + 1 ≤ k + (t.goodCycles + 1) at row
      rcases Nat.lt_or_eq_of_le (Nat.le_of_lt_succ ended) with earlier | rfl
      · exact good k earlier (by omega)
      · exact count ▸ enough
    case short =>
      intro k row
      change k + 1 + (t.goodCycles + 1) = ends + 1 at row
      exact short k (by omega)
    case status =>
      show (if t.thresholds.cycles ≤ t.goodCycles + 1 then LayerStatus.active else t.status) = .active ↔
        t.goodCycles + 1 = ends + 1 ∨ max 1 t.thresholds.cycles ≤ t.goodCycles + 1
      split
      · exact iff_of_true rfl (.inr (by omega))
      · rw [status]
        omega

theorem Follows.goodCycles_eq_iff (f : Follows n ends t) :
    t.goodCycles = ends ↔ ∀ k < ends, t.thresholds.samples ≤ n k := by
  obtain ⟨within, good, short, -⟩ := f
  refine ⟨fun all k ended => good k ended (by omega), fun enough => ?_⟩
  refine Decidable.byContradiction fun other => ?_
  have few := short (ends - t.goodCycles - 1) (by omega)
  have := enough (ends - t.goodCycles - 1) (by omega)
  omega

/-- The status by the numbers of packets alone. -/
theorem Follows.active_iff (f : Follows n ends t) : t.status = .active ↔
    (∀ k < ends, t.thresholds.samples ≤ n k) ∨
      ∃ j, n j < t.thresholds.samples ∧ (∀ k < ends, j < k → t.thresholds.samples ≤ n k) ∧
        j + max 1 t.thresholds.cycles < ends := by
  rw [f.status, f.goodCycles_eq_iff]
  obtain ⟨within, good, short, -⟩ := f
  constructor
  · rintro (enough | long)
    · exact .inl enough
    · rcases Nat.lt_or_eq_of_le within with some | all
      · refine .inr ⟨ends - t.goodCycles - 1, short _ (by omega), fun k ended later => ?_, by omega⟩
        exact good k ended (by omega)
      · exact .inl fun k ended => good k ended (by omega)
  · rintro (enough | ⟨j, few, later, long⟩)
    · exact .inl enough
    · -- the row cannot have begun after a later cycle, since that was not short of packets
      refine .inr (Decidable.byContradiction fun row => ?_)
      have few' := short (ends - t.goodCycles - 1) (by omega)
      have enough := later (ends - t.goodCycles - 1) (by omega) (by omega)
      omega

/-- What a tracker has said since it was armed, after what was said before: nothing more as long as all
cycles were good, and then more. -/
def Said (past delivered : List LayerStatus) (ends : Nat) (t : Tracker) : Prop :=
  ∃ later, delivered ++ t.notices = past ++ .active :: later ∧ (later = [] ↔ t.goodCycles = ends)

theorem Said.endCycle {past delivered : List LayerStatus} (s : Said past delivered ends t)
    (f : Follows n ends t) (running : t.ended = false) :
    Said past delivered (ends + 1) t.endCycle := by
  obtain ⟨later, said, quiet⟩ := s
  rw [endCycle_of_running running]
  refine ⟨later ++ if t.status = t.verdict then [] else [t.verdict], ?_, ?_⟩
  · show delivered ++ (t.notices ++ _) = _
    rw [← List.append_assoc, said, List.append_assoc, List.cons_append]
  · show _ ↔ t.judge = ends + 1
    rw [List.append_eq_nil_iff, quiet]
    rcases Nat.lt_or_ge t.count t.thresholds.samples with few | enough
    · rw [judge_of_lt few, verdict_of_lt few]
      refine iff_of_false ?_ (by omega)
      rintro ⟨all, same⟩
      rw [f.status.2 (.inl all)] at same
      cases same
    · rw [judge_of_le enough, verdict_of_le enough, Nat.succ_inj]
      refine ⟨And.left, fun all => ⟨all, ?_⟩⟩
      rw [f.status.2 (.inl all)]
      split <;> rfl

end Tracker

namespace Monitor

/-! ## Packets as they come -/

/-- What happens to a monitor that is left alone. -/
inductive Step where
  | packet (number : UInt16)
  /-- Time goes on, and the cycles end that are due. -/
  | wait (nanos : Nat)
  | deliver

/-- The packets that have come. -/
structure Arrivals where
  now : Time
  /-- The number of the newest packet. -/
  newest : UInt16
  /-- When packets came that were not older than the newest before them. -/
  times : List Time := []

namespace Arrivals

variable {a : Arrivals} {start : Time} {cycle k : Nat}

/-- One step more. -/
def take (a : Arrivals) : Step → Arrivals
  | .packet number =>
    if number - a.newest ≤ 0x8000 then { a with newest := number, times := a.times ++ [a.now] } else a
  | .wait nanos => { a with now := a.now + nanos }
  | .deliver => a

/-- More steps. -/
def follow (a : Arrivals) (steps : List Step) : Arrivals := steps.foldl take a

/-- The packets in a cycle, of those that began at a moment. -/
def inCycle (a : Arrivals) (start : Time) (cycle k : Nat) : Nat :=
  a.times.countP fun t => start + k * cycle ≤ t ∧ t < start + (k + 1) * cycle

/-- The cycles that have ended. -/
def ended (a : Arrivals) (start : Time) (cycle : Nat) : Nat := (a.now - start) / cycle

theorem follow_append (a : Arrivals) (steps later : List Step) :
    a.follow (steps ++ later) = (a.follow steps).follow later := List.foldl_append

theorem inCycle_eq_zero (h : ∀ t ∈ a.times, t < start + k * cycle) : a.inCycle start cycle k = 0 := by
  refine List.countP_eq_zero.2 fun t ht here => ?_
  exact absurd (of_decide_eq_true here).1 (Nat.not_le.2 (h t ht))

/-- A packet counts in the cycle in which it comes. -/
theorem inCycle_concat (a : Arrivals) (start : Time) (cycle k : Nat) :
    inCycle { a with times := a.times ++ [a.now] } start cycle k = a.inCycle start cycle k +
      if start + k * cycle ≤ a.now ∧ a.now < start + (k + 1) * cycle then 1 else 0 := by
  simp only [inCycle, List.countP_append, List.countP_singleton, decide_eq_true_eq]

/-- Nothing counts any more in a cycle that is over. -/
theorem inCycle_take (gone : start + (k + 1) * cycle ≤ a.now) (s : Step) :
    (a.take s).inCycle start cycle k = a.inCycle start cycle k := by
  cases s with
  | packet number =>
    unfold take
    dsimp only
    split
    · exact (a.inCycle_concat start cycle k).trans (by rw [if_neg fun h => Nat.not_lt.2 gone h.2]; rfl)
    · rfl
  | wait nanos => rfl
  | deliver => rfl

theorem now_le_take (a : Arrivals) (s : Step) : a.now ≤ (a.take s).now := by
  cases s with
  | packet number =>
    unfold take
    dsimp only
    split <;> exact Nat.le_refl _
  | wait nanos => exact Nat.le_add_right _ _
  | deliver => exact Nat.le_refl _

theorem inCycle_follow (gone : start + (k + 1) * cycle ≤ a.now) (steps : List Step) :
    (a.follow steps).inCycle start cycle k = a.inCycle start cycle k ∧
      a.now ≤ (a.follow steps).now := by
  induction steps generalizing a with
  | nil => exact ⟨rfl, Nat.le_refl _⟩
  | cons s steps ih =>
    obtain ⟨same, later⟩ := ih (Nat.le_trans gone (a.now_le_take s))
    exact ⟨same.trans (inCycle_take gone s), Nat.le_trans (a.now_le_take s) later⟩

theorem ended_eq (begun : start + k * cycle ≤ a.now) (going : a.now < start + (k + 1) * cycle) :
    a.ended start cycle = k := by
  unfold Time at *
  exact Nat.div_eq_of_lt_le (by omega) (by omega)

theorem lt_ended (period : 0 < cycle) (gone : start + (k + 1) * cycle ≤ a.now) :
    k < a.ended start cycle :=
  (Nat.le_div_iff_mul_le period).2 (Nat.le_sub_of_add_le' gone)

end Arrivals

namespace History

/-- A history with one step more. -/
def take (h : History) : Step → History
  | .packet number => h.perform (.observe number)
  | .wait nanos => h.onMonitor fun m => m.advance nanos
  | .deliver => h.perform .deliver

/-- A history with more steps. -/
def follow (h : History) (steps : List Step) : History := steps.foldl take h

end History

/-! ## Cycle by cycle -/

variable {thresholds : Thresholds} {start moment : Time} {cycle ends : Nat} {a : Arrivals}
  {ts rest : Timers Nat} {t : Tracker} {u : Timer Nat}

/-- A tracker that detects, with its timers, when some cycles have ended. -/
structure Detects (thresholds : Thresholds) (start : Time) (cycle : Nat) (a : Arrivals) (ends : Nat)
    (ts : Timers Nat) (t : Tracker) : Prop where
  thresholds : t.thresholds = thresholds
  detects : t.armed = true ∧ t.paused = false ∧ t.ended = false
  newest : t.lastNumber = a.newest
  count : t.count = a.inCycle start cycle ends
  follows : t.Follows (a.inCycle start cycle) ends
  /-- No packet has come after the cycle that is going on. -/
  seen : ∀ x ∈ a.times, x < start + (ends + 1) * cycle
  periods : ∀ u ∈ ts, 0 < u.period
  /-- Of the generation there is one task, which waits for the end of this cycle. -/
  task : ts.filter (fun u => u.key == t.generation) =
    [⟨t.generation, start + (ends + 1) * cycle, cycle⟩]

theorem Detects.judges (d : Detects thresholds start cycle a ends ts t) :
    t.judges t.generation = true := by
  obtain ⟨-, paused, ended⟩ := d.detects
  rw [Tracker.judges, paused, ended, Tracker.isCurrent, beq_self_eq_true]
  rfl

/-- The timer that rings is the one of the generation, which ends a cycle, or one of a generation that is
over, which goes. -/
theorem Detects.ring (d : Detects thresholds start cycle a ends ts t)
    (found : ts.takeEarliest = some (u, rest)) :
    (u.deadline = start + (ends + 1) * cycle ∧ u.key = t.generation ∧
        Detects thresholds start cycle a (ends + 1) (rest ++ [u.again]) t.endCycle) ∨
      (u.key ≠ t.generation ∧ Detects thresholds start cycle a ends rest t) := by
  have judges := d.judges
  obtain ⟨same, detects, newest, count, follows, seen, periods, task⟩ := d
  have perm := Timers.perm_of_takeEarliest found
  have own := (perm.filter fun u => u.key == t.generation).symm
  rw [task, List.filter_cons] at own
  have others : ∀ v ∈ rest, 0 < v.period := fun v hv =>
    periods v (perm.mem_iff.2 (List.mem_cons_of_mem _ hv))
  by_cases here : u.key = t.generation
  · rw [if_pos (beq_iff_eq.2 here)] at own
    obtain ⟨rfl, none⟩ := List.cons.inj (List.perm_singleton.1 own)
    obtain ⟨sameThresholds, samePaused, sameArmed, sameNewest, sameGeneration, sameEnded⟩ :=
      t.carries_endCycle
    have period : 0 < cycle := periods _ (perm.mem_iff.2 List.mem_cons_self)
    have far : start + (ends + 1) * cycle ≤ start + (ends + 1 + 1) * cycle :=
      Nat.add_le_add_left (Nat.mul_le_mul_right _ (Nat.le_succ _)) _
    refine .inl ⟨rfl, rfl, sameThresholds.trans same, ?_, sameNewest.trans newest, ?_,
      follows.endCycle count, fun x hx => Nat.lt_of_lt_of_le (seen x hx) far, ?_, ?_⟩
    · rw [sameArmed, samePaused, sameEnded]
      exact detects
    · rw [Arrivals.inCycle_eq_zero seen, Tracker.endCycle_eq, Tracker.setStatus_eq]
    · intro v hv
      rcases List.mem_append.1 hv with hv | hv
      · exact others v hv
      · rw [List.mem_singleton.1 hv]
        exact period
    · have next : start + (ends + 1) * cycle + cycle = start + (ends + 1 + 1) * cycle := by
        rw [Nat.add_assoc, ← Nat.succ_mul]
      rw [sameGeneration, List.filter_append, none, List.nil_append, Timer.again, next]
      exact List.filter_cons_of_pos (beq_self_eq_true _)
  · rw [if_neg fun same => here (beq_iff_eq.1 same)] at own
    exact .inr ⟨here, same, detects, newest, count, follows, seen, others, List.perm_singleton.1 own⟩

/-- Time ends the cycles that are due, one after the other. -/
theorem Detects.advance {past delivered : List LayerStatus}
    (d : Detects thresholds start cycle a ends ts t) (said : t.Said past delivered ends)
    (begun : start + ends * cycle ≤ moment) :
    ∃ ends, Detects thresholds start cycle a ends (ts.advance Monitor.ring moment t).1
        (ts.advance Monitor.ring moment t).2 ∧
      (ts.advance Monitor.ring moment t).2.Said past delivered ends ∧
      start + ends * cycle ≤ moment ∧ moment < start + (ends + 1) * cycle := by
  have rung : ∃ ends, Detects thresholds start cycle a ends (ts.advance Monitor.ring moment t).1
      (ts.advance Monitor.ring moment t).2 ∧
      (ts.advance Monitor.ring moment t).2.Said past delivered ends ∧ start + ends * cycle ≤ moment := by
    refine Timers.advance_induction_due (r := Monitor.ring)
      (P := fun ts t => ∃ ends, Detects thresholds start cycle a ends ts t ∧
        t.Said past delivered ends ∧ start + ends * cycle ≤ moment)
      (fun {ts rest u t} ⟨ends, d, said, begun⟩ found due => ?_) ⟨ends, d, said, begun⟩
    rcases d.ring found with ⟨deadline, current, d'⟩ | ⟨other, d'⟩
    · have again : Monitor.ring t u.key = (t.endCycle, true) := by
        rw [Monitor.ring, current, Tracker.cycleEnd_eq, d.judges, if_pos rfl, Tracker.isCurrent,
          beq_self_eq_true]
      rw [again]
      exact ⟨ends + 1, d', said.endCycle d.follows d.detects.2.2, deadline ▸ due⟩
    · have gone : Monitor.ring t u.key = (t, false) := by
        have past : t.isCurrent u.key = false := beq_false_of_ne (Ne.symm other)
        rw [Monitor.ring, Tracker.cycleEnd_of_not_judges (by rw [Tracker.judges, past]; rfl), past]
      rw [gone]
      exact ⟨ends, d', said, begun⟩
  obtain ⟨after, d', said, begun⟩ := rung
  have task := List.mem_of_mem_filter (d'.task ▸ List.mem_cons_self)
  exact ⟨after, d', said, begun, Timers.after_advance Monitor.ring d.periods task⟩

/-- A packet counts in the cycle that is going on, unless it is an old one. -/
theorem Detects.packet (d : Detects thresholds start cycle a ends ts t)
    (begun : start + ends * cycle ≤ a.now) (going : a.now < start + (ends + 1) * cycle)
    (number : UInt16) :
    Detects thresholds start cycle (a.take (.packet number)) ends ts (t.countPacket number) := by
  obtain ⟨same, detects, newest, count, follows, seen, periods, task⟩ := d
  have before : ∀ k < ends, (a.take (.packet number)).inCycle start cycle k = a.inCycle start cycle k :=
    fun k ended => Arrivals.inCycle_take
      (Nat.le_trans (Nat.add_le_add_left (Nat.mul_le_mul_right _ ended) _) begun) _
  have follows := follows.congr before
  rw [Tracker.countPacket_eq]
  by_cases old : Tracker.tooOld < number - t.lastNumber
  · have stays : a.take (.packet number) = a := if_neg (by rwa [← newest, UInt16.not_le])
    rw [stays] at follows ⊢
    simp only [if_pos old]
    exact ⟨same, detects, newest, count, follows, seen, periods, task⟩
  · have counts : a.take (.packet number) = { a with newest := number, times := a.times ++ [a.now] } :=
      if_pos (by rwa [← newest, ← UInt16.not_lt])
    rw [counts] at follows ⊢
    simp only [if_neg old]
    refine ⟨same, detects, rfl, ?_, ⟨follows.within, follows.good, follows.short, follows.status⟩,
      fun x hx => ?_, periods, task⟩
    · show t.count + 1 = _
      rw [count]
      exact ((a.inCycle_concat start cycle ends).trans (by rw [if_pos ⟨begun, going⟩])).symm
    · rcases List.mem_append.1 hx with hx | hx
      · exact seen x hx
      · rw [List.mem_singleton.1 hx]
        exact going

/-! ## Runs -/

namespace History

variable {h : History} {past : List LayerStatus}

/-- A history since its tracker was armed. -/
structure Underway (thresholds : Thresholds) (start : Time) (past : List LayerStatus) (a : Arrivals)
    (h : History) : Prop where
  now : h.monitor.now = a.now
  detects : ∃ ends, Detects thresholds start h.monitor.cycle a ends h.monitor.timers h.monitor.tracker ∧
    h.monitor.tracker.Said past h.delivered ends ∧
    start + ends * h.monitor.cycle ≤ a.now ∧ a.now < start + (ends + 1) * h.monitor.cycle

theorem Underway.take (w : Underway thresholds start past a h) (s : Step) :
    Underway thresholds start past (a.take s) (h.take s) ∧ (h.take s).monitor.cycle = h.monitor.cycle := by
  obtain ⟨now, ends, d, said, begun, going⟩ := w
  cases s with
  | packet number =>
    obtain ⟨armed, paused, -⟩ := d.detects
    have starts : h.monitor.tracker.starts = false := by
      rw [Tracker.starts, armed, Bool.not_true, Bool.and_false, Bool.false_and]
    have counts : h.monitor.tracker.observe number = h.monitor.tracker.countPacket number := by
      rw [Tracker.observe_of_not_starts starts, armed, paused]
      rfl
    have clock : (a.take (.packet number)).now = a.now := by
      unfold Arrivals.take
      dsimp only
      split <;> rfl
    have monitor : (h.take (.packet number)) = h.onMonitor fun m =>
        { m with tracker := m.tracker.countPacket number } := by
      show h.onMonitor (fun m => m.observe number) = _
      rw [onMonitor, Monitor.observe_of_not_starts starts, counts]
      rfl
    rw [monitor]
    refine ⟨⟨now.trans clock.symm, ends, d.packet begun going number, ?_, ?_⟩, rfl⟩
    · show (h.monitor.tracker.countPacket number).Said past h.delivered ends
      rw [Tracker.countPacket_eq]
      exact said
    · rw [clock]
      exact ⟨begun, going⟩
  | wait nanos =>
    have due : start + ends * h.monitor.cycle ≤ h.monitor.now + nanos := by
      rw [now]
      exact Nat.le_add_right_of_le begun
    obtain ⟨after, d, said, begun, going⟩ := d.advance said due
    have clock : h.monitor.now + nanos = (a.take (.wait nanos)).now := by rw [now]; rfl
    rw [clock] at begun going
    obtain ⟨same, detects, newest, count, follows, seen, periods, task⟩ := d
    exact ⟨⟨clock, after, ⟨same, detects, newest, count, follows, seen, periods, task⟩, said, begun,
      going⟩, rfl⟩
  | deliver =>
    obtain ⟨same, detects, newest, count, follows, seen, periods, task⟩ := d
    obtain ⟨later, told, quiet⟩ := said
    refine ⟨⟨now, ends, ⟨same, detects, newest, count, ⟨follows.within, follows.good, follows.short,
      follows.status⟩, seen, periods, task⟩, ⟨later, ?_, quiet⟩, begun, going⟩, rfl⟩
    show (h.delivered ++ h.monitor.tracker.notices) ++ [] = _
    rw [List.append_nil, told]

theorem Underway.follow (w : Underway thresholds start past a h) (steps : List Step) :
    Underway thresholds start past (a.follow steps) (h.follow steps) ∧
      (h.follow steps).monitor.cycle = h.monitor.cycle := by
  induction steps generalizing a h with
  | nil => exact ⟨w, rfl⟩
  | cons s steps ih =>
    obtain ⟨w, cycle⟩ := w.take s
    obtain ⟨w, cycle'⟩ := ih w
    exact ⟨w, cycle'.trans cycle⟩

/-- The packet that arms the tracker begins the first cycle. -/
theorem Kept.underway (k : h.Kept) (period : 0 < h.monitor.cycle)
    (starts : h.monitor.tracker.starts = true) (first : UInt16) :
    Underway h.monitor.tracker.thresholds h.monitor.now h.said ⟨h.monitor.now, first, []⟩
      (h.perform (.observe first)) := by
  obtain ⟨paused, unarmed, running⟩ := Tracker.of_starts starts
  obtain ⟨status, count, goodCycles⟩ := k.tasked.sound.blank unarmed
  have monitor : h.perform (.observe first) = h.onMonitor fun m => { m with
      tracker := m.tracker.observe first
      timers := m.timers.set m.tracker.generation m.now m.cycle } := by
    show h.onMonitor (fun m => m.observe first) = _
    rw [onMonitor, Monitor.observe_of_starts starts]
    rfl
  have others : h.monitor.timers.filter (fun u => u.key == h.monitor.tracker.generation) = [] := by
    refine List.filter_eq_nil_iff.2 fun u hu same => k.tasked.sound.not_mem unarmed ?_
    rw [← beq_iff_eq.1 same]
    exact List.mem_map_of_mem hu
  rw [monitor]
  refine ⟨rfl, 0, ?_, ?_, ?_⟩
  · show Detects h.monitor.tracker.thresholds h.monitor.now h.monitor.cycle _ 0
      (h.monitor.timers.set h.monitor.tracker.generation h.monitor.now h.monitor.cycle)
      (h.monitor.tracker.observe first)
    rw [Tracker.observe_of_starts starts]
    constructor
    case thresholds => rfl
    case detects => exact ⟨rfl, paused, running⟩
    case newest => rfl
    case count => exact count
    case follows =>
      exact ⟨Nat.le_of_eq goodCycles, fun k ended => absurd ended (Nat.not_lt_zero k),
        fun k row => absurd row (by omega), iff_of_true rfl (.inl goodCycles)⟩
    case seen =>
      intro x hx
      cases hx
    case periods =>
      intro u hu
      rcases mem_set.1 hu with hu | ⟨period, rfl⟩
      · exact k.tasked.periods u hu
      · exact period
    case task =>
      rw [Timers.set, if_neg (Nat.ne_of_gt period), List.filter_append, others, List.nil_append,
        Nat.zero_add, Nat.one_mul]
      exact List.filter_cons_of_pos (beq_self_eq_true _)
  · show (h.monitor.tracker.observe first).Said h.said h.delivered 0
    rw [Tracker.observe_of_starts starts, status]
    exact ⟨[], (List.append_assoc _ _ _).symm, iff_of_true rfl goodCycles⟩
  · rw [Nat.zero_mul, Nat.zero_add, Nat.one_mul]
    exact ⟨Nat.le_refl _, Nat.lt_add_of_pos_right period⟩

theorem thresholds_perform (h : History) (a : Act) :
    (h.perform a).monitor.tracker.thresholds = h.monitor.tracker.thresholds := by
  cases a with
  | observe number =>
    show (h.monitor.tracker.observe number).thresholds = _
    cases starts : h.monitor.tracker.starts with
    | true => rw [Tracker.observe_of_starts starts]
    | false =>
      rw [Tracker.observe_of_not_starts starts, Tracker.countPacket_eq]
      split <;> rfl
  | setPaused paused =>
    show (h.monitor.tracker.setPaused paused).thresholds = _
    unfold Tracker.setPaused
    split <;> rfl
  | reset =>
    show h.monitor.tracker.reset.thresholds = _
    unfold Tracker.reset
    split
    · rfl
    · rw [Tracker.setStatus_eq]
  | stop =>
    show h.monitor.tracker.stop.thresholds = _
    unfold Tracker.stop
    split <;> rfl
  | cycleEnd task =>
    show (h.monitor.endCycle task).tracker.thresholds = _
    cases place : h.monitor.timers[task]? with
    | none => rw [endCycle_of_none place]
    | some t =>
      rw [endCycle_of_some place]
      exact (h.monitor.tracker.carries_cycleEnd t.key).thresholds
  | pass nanos => rfl
  | deliver => rfl

theorem thresholds_run (h : History) (acts : List Act) :
    (h.run acts).monitor.tracker.thresholds = h.monitor.tracker.thresholds := by
  induction acts generalizing h with
  | nil => rfl
  | cons a acts ih => exact (ih _).trans (thresholds_perform h a)

section

variable (thresholds : Thresholds) (cycle : Nat) (before : List Act) (first : UInt16) (steps : List Step)

/-- What is true once a packet has armed the tracker and some steps have been taken. -/
theorem underway_follow (period : 0 < cycle)
    (starts : ((ofThresholds thresholds cycle).run before).monitor.tracker.starts = true) :
    let h := (ofThresholds thresholds cycle).run before
    let a := Arrivals.follow ⟨h.monitor.now, first, []⟩ steps
    let later := (h.perform (.observe first)).follow steps
    let ends := a.ended h.monitor.now cycle
    later.monitor.tracker.Follows (a.inCycle h.monitor.now cycle) ends ∧
      later.monitor.tracker.Said h.said later.delivered ends ∧
      later.monitor.tracker.thresholds = thresholds ∧ h.monitor.now + ends * cycle ≤ a.now := by
  intro h a later ends
  have own : h.monitor.cycle = cycle := cycle_run _ before
  have same : h.monitor.tracker.thresholds = thresholds := thresholds_run _ before
  have kept : h.Kept := (kept_new thresholds cycle).run before
  obtain ⟨⟨-, ended, d, said, begun, going⟩, cycles⟩ :=
    (kept.underway (by rwa [own]) starts first).follow steps
  have cycles : later.monitor.cycle = cycle := cycles.trans own
  rw [cycles] at begun going
  have gone : ended = ends := (Arrivals.ended_eq begun going).symm
  subst gone
  exact ⟨cycles ▸ d.follows, said, d.thresholds.trans same, begun⟩

end

end History

end Monitor
end Simulcast
