import Simulcast.Liveness.Monitor
import Simulcast.Proofs.Liveness.Detection
import Mathlib.Data.List.Nodup

/-!
# Notices in order, and cycles judged once

What happens to a monitor, as one type: packets, calls from outside, the ends of cycles, and the
delivery of notices, in any order, each as a whole. The task that ends a cycle may be kept waiting for
as long as a run likes, or come early, so that runs have more interleavings than passing time has
(`exists_run_advance`). A `History` keeps what has been delivered and which cycles were judged.

Two things are kept by every act. Notices come in turn (`InTurn`), since each reports a change between
two statuses. And the tasks stay in order (`Tasked`): no two are of one generation, there is one of
the current generation exactly while the tracker detects, and it has yet to judge the cycle whose end
it waits for. `delivery_in_order` is what follows for histories. What becomes of it when calls come in
between each other is the matter of `Tracker.Traffic`.
-/

namespace Simulcast

/-- What a notice reports by its place: at first that the layer is active, then by turns. -/
def LayerStatus.turn (n : Nat) : LayerStatus := if n % 2 = 0 then .active else .stopped

theorem LayerStatus.turn_add_two (n : Nat) : turn (n + 2) = turn n := by
  rw [turn, turn, Nat.add_mod_right]

theorem LayerStatus.eq_turn_of_ne {s : LayerStatus} {n : Nat} (h : s ≠ turn (n + 1)) : s = turn n := by
  unfold turn at h ⊢
  cases s with
  | active =>
    have odd : (n + 1) % 2 ≠ 0 := fun even => h (by rw [if_pos even])
    rw [if_pos (by omega)]
  | stopped =>
    have even : (n + 1) % 2 = 0 := Decidable.not_not.1 fun odd => h (by rw [if_neg odd])
    rw [if_neg (by omega)]

namespace Monitor

/-- The generations that the tasks of a monitor are for. -/
def tasks (m : Monitor) : List Nat := m.timers.map Timer.key

/-- The task at a place comes to the end of a cycle. -/
def endCycle (m : Monitor) (task : Nat) : Monitor :=
  let (timers, tracker) := m.timers.ringAt ring task m.tracker
  { m with timers, tracker }

/-- The cycle that is judged when the task at a place comes to its end: its generation, and the moment
at which it is due to end. -/
def judgement (m : Monitor) (task : Nat) : List (Nat × Time) :=
  match m.timers[task]? with
  | none => []
  | some t => if m.tracker.judges t.key then [(t.key, t.deadline)] else []

/-- What happens to a monitor. -/
inductive Act where
  | observe (number : UInt16)
  | setPaused (paused : Bool)
  | reset
  | stop
  /-- The task at a place comes to the end of a cycle, whether it is due or not. -/
  | cycleEnd (task : Nat)
  /-- The clock goes on. -/
  | pass (nanos : Nat)
  | deliver

/-- A monitor with what it has done. -/
structure History where
  monitor : Monitor
  /-- Notices in the order in which they were delivered. -/
  delivered : List LayerStatus := []
  /-- Cycles that have been judged. -/
  judged : List (Nat × Time) := []

namespace History

/-- Nothing has happened. -/
def ofThresholds (thresholds : Thresholds) (cycle : Nat) : History where
  monitor := .ofThresholds thresholds cycle

/-- Changes the monitor. -/
def onMonitor (h : History) (change : Monitor → Monitor) : History :=
  { h with monitor := change h.monitor }

/-- A history with one act more. -/
def perform (h : History) : Act → History
  | .observe number => h.onMonitor fun m => m.observe number
  | .setPaused paused => h.onMonitor fun m => m.onTracker fun t => t.setPaused paused
  | .reset => h.onMonitor fun m => m.onTracker Tracker.reset
  | .stop => h.onMonitor fun m => m.onTracker Tracker.stop
  | .cycleEnd task =>
    { h with monitor := h.monitor.endCycle task, judged := h.judged ++ h.monitor.judgement task }
  | .pass nanos => h.onMonitor fun m => { m with now := m.now + nanos }
  | .deliver =>
    { h with monitor := h.monitor.deliver.1, delivered := h.delivered ++ h.monitor.deliver.2 }

/-- A history with more acts. -/
def run (h : History) (acts : List Act) : History := acts.foldl perform h

end History

/-! ## Notices -/

/-- Notices that have come in turn, with the status that they lead to. -/
structure InTurn (told : List LayerStatus) (status : LayerStatus) : Prop where
  turns : ∀ n s, told[n]? = some s → s = LayerStatus.turn n
  status : status = LayerStatus.turn (told.length + 1)

variable {told : List LayerStatus} {status : LayerStatus} {t u : Tracker}

theorem InTurn.newest (h : InTurn told status) : told.getLast?.getD .stopped = status := by
  rw [h.status, List.getLast?_eq_getElem?]
  cases length : told.length with
  | zero =>
    rw [List.eq_nil_of_length_eq_zero length]
    rfl
  | succ n =>
    obtain ⟨s, hs⟩ : ∃ s, told[n]? = some s := ⟨_, List.getElem?_eq_getElem (by omega)⟩
    rw [Nat.add_sub_cancel, hs, Option.getD_some, LayerStatus.turn_add_two]
    exact h.turns n s hs

/-- A notice of another status is the one whose turn it is. -/
theorem InTurn.concat (h : InTurn told status) {next : LayerStatus} (other : next ≠ status) :
    InTurn (told ++ [next]) next := by
  have turn : next = .turn told.length := LayerStatus.eq_turn_of_ne (h.status ▸ other)
  refine ⟨fun n s hs => ?_, ?_⟩
  · rcases Nat.lt_or_ge n told.length with here | beyond
    · rw [List.getElem?_append_left here] at hs
      exact h.turns n s hs
    · rw [List.getElem?_append_right beyond, List.getElem?_singleton] at hs
      split at hs
      · cases hs
        rw [turn, show n = told.length by omega]
      · cases hs
  · rw [List.length_append, List.length_singleton, LayerStatus.turn_add_two]
    exact turn

/-- What a tracker reports comes in turn. -/
theorem InTurn.reports {delivered : List LayerStatus} (h : InTurn (delivered ++ t.notices) t.status)
    (reports : t.Reports u) : InTurn (delivered ++ u.notices) u.status := by
  rw [reports, ← List.append_assoc]
  split
  · rename_i same
    rwa [List.append_nil, same]
  · exact h.concat ‹_›

/-! ## Tasks -/

/-- What holds of the tasks of a monitor. -/
structure Tasked (m : Monitor) : Prop where
  sound : m.tracker.Sound m.tasks
  single : m.tasks.Nodup
  periods : ∀ t ∈ m.timers, 0 < t.period
  attended : 0 < m.cycle → m.tracker.armed = true → m.tracker.ended = false →
    m.tracker.generation ∈ m.tasks

/-- What holds of a monitor that has judged some cycles. -/
structure Judged (judged : List (Nat × Time)) (m : Monitor) : Prop where
  reached : ∀ c ∈ judged, c.1 ≤ m.tracker.generation
  unjudged : m.tracker.armed = false → ∀ c ∈ judged, c.1 ≠ m.tracker.generation
  /-- The cycle whose end a task waits for is later than those it has judged. -/
  ahead : ∀ t ∈ m.timers, ∀ c ∈ judged, c.1 = t.key → c.2 < t.deadline
  once : judged.Nodup

variable {m : Monitor} {judged : List (Nat × Time)}

theorem tasked_new (thresholds : Thresholds) (cycle : Nat) : Tasked (ofThresholds thresholds cycle) where
  sound := Tracker.sound_new thresholds
  single := List.nodup_nil
  periods _ h := by cases h
  attended _ h := by cases h

theorem judged_new (thresholds : Thresholds) (cycle : Nat) :
    Judged [] (ofThresholds thresholds cycle) where
  reached _ h := by cases h
  unjudged _ _ h := by cases h
  ahead _ h := by cases h
  once := List.nodup_nil

/-! ### Changes of the tracker -/

/-- A change of the tracker stays within its generation, or ends it. -/
inductive Turns (t u : Tracker) : Prop where
  | within (generation : u.generation = t.generation) (armed : u.armed = t.armed)
      (ended : u.ended = t.ended)
  | beyond (generation : t.generation < u.generation) (quiet : u.armed = false ∨ u.ended = true)

theorem Turns.generation_le (turns : Turns t u) : t.generation ≤ u.generation := by
  cases turns with
  | within generation => exact Nat.le_of_eq generation.symm
  | beyond generation => exact Nat.le_of_lt generation

theorem turns_setPaused (t : Tracker) (paused : Bool) : Turns t (t.setPaused paused) := by
  unfold Tracker.setPaused
  split <;> exact .within rfl rfl rfl

theorem turns_reset (t : Tracker) : Turns t t.reset := by
  unfold Tracker.reset
  split
  · exact .within rfl rfl rfl
  · rw [Tracker.setStatus_eq]
    exact .beyond (Nat.lt_succ_self _) (.inl rfl)

theorem turns_stop (t : Tracker) : Turns t t.stop := by
  unfold Tracker.stop
  split
  · exact .within rfl rfl rfl
  · exact .beyond (Nat.lt_succ_self _) (.inr rfl)

theorem Tasked.onTracker (s : Tasked m) (sound : u.Sound m.tasks) (turns : Turns m.tracker u) :
    Tasked { m with tracker := u } where
  sound := sound
  single := s.single
  periods := s.periods
  attended period isArmed running := by
    cases turns with
    | within generation armed ended =>
      show u.generation ∈ m.tasks
      rw [generation]
      exact s.attended period (armed ▸ isArmed) (ended ▸ running)
    | beyond generation quiet =>
      rcases quiet with unarmed | ended
      · exact absurd (isArmed.symm.trans unarmed) Bool.noConfusion
      · exact absurd (running.symm.trans ended) Bool.noConfusion

theorem Judged.onTracker (j : Judged judged m) (turns : Turns m.tracker u) :
    Judged judged { m with tracker := u } where
  reached c hc := by
    cases turns with
    | within generation => exact Nat.le_trans (j.reached c hc) (Nat.le_of_eq generation.symm)
    | beyond generation => exact Nat.le_trans (j.reached c hc) (Nat.le_of_lt generation)
  unjudged unarmed c hc := by
    show c.1 ≠ u.generation
    cases turns with
    | within generation armed =>
      rw [generation]
      exact j.unjudged (armed ▸ unarmed) c hc
    | beyond generation => exact Nat.ne_of_lt (Nat.lt_of_le_of_lt (j.reached c hc) generation)
  ahead := j.ahead
  once := j.once

/-! ### Packets -/

theorem observe_of_not_starts (h : m.tracker.starts = false) (number : UInt16) :
    m.observe number = { m with tracker := m.tracker.observe number } := by
  rw [Monitor.observe, h, if_neg Bool.false_ne_true]

theorem observe_of_starts (h : m.tracker.starts = true) (number : UInt16) :
    m.observe number = { m with
      tracker := m.tracker.observe number
      timers := m.timers.set m.tracker.generation m.now m.cycle } := by
  rw [Monitor.observe, h, if_pos rfl]

theorem mem_set {ts : Timers Nat} {g cycle : Nat} {now : Time} {t : Timer Nat} :
    t ∈ ts.set g now cycle ↔ t ∈ ts ∨ 0 < cycle ∧ t = ⟨g, now + cycle, cycle⟩ := by
  unfold Timers.set
  split
  · rename_i timeless
    simp only [timeless, Nat.lt_irrefl, false_and, or_false]
  · rename_i period
    simp only [List.mem_append, List.mem_singleton, Nat.pos_of_ne_zero period, true_and]

/-- The packet that arms the tracker starts the task of its generation. -/
theorem Tasked.observe (s : Tasked m) (number : UInt16) : Tasked (m.observe number) := by
  have sound := s.sound.observe number
  cases starts : m.tracker.starts with
  | false =>
    rw [starts, if_neg Bool.false_ne_true] at sound
    rw [observe_of_not_starts starts]
    obtain ⟨generation, armed, ended⟩ := Tracker.kept_observe starts number
    exact s.onTracker sound (.within generation armed ended)
  | true =>
    obtain ⟨-, unarmed, -⟩ := Tracker.of_starts starts
    rw [starts, if_pos rfl] at sound
    rw [observe_of_starts starts]
    constructor
    case sound =>
      refine sound.of_subset fun g hg => ?_
      obtain ⟨t, ht, rfl⟩ := List.mem_map.1 hg
      rcases mem_set.1 ht with ht | ⟨-, rfl⟩
      · exact List.mem_append_left _ (List.mem_map_of_mem ht)
      · exact List.mem_append_right _ (List.mem_singleton_self _)
    case single =>
      show (List.map Timer.key (m.timers.set _ _ _)).Nodup
      unfold Timers.set
      split
      · exact s.single
      · rw [List.map_append]
        exact List.Nodup.append s.single (List.nodup_singleton _)
          (List.disjoint_singleton.2 (s.sound.not_mem unarmed))
    case periods =>
      intro t ht
      rcases mem_set.1 ht with ht | ⟨period, rfl⟩
      · exact s.periods t ht
      · exact period
    case attended =>
      intro period _ _
      show (m.tracker.observe number).generation ∈ List.map Timer.key (m.timers.set _ _ _)
      rw [Tracker.observe_of_starts starts]
      exact List.mem_map_of_mem (mem_set.2 (.inr ⟨period, rfl⟩))

theorem Judged.observe (j : Judged judged m) (number : UInt16) : Judged judged (m.observe number) := by
  cases starts : m.tracker.starts with
  | false =>
    rw [observe_of_not_starts starts]
    obtain ⟨generation, armed, ended⟩ := Tracker.kept_observe starts number
    exact j.onTracker (.within generation armed ended)
  | true =>
    obtain ⟨-, unarmed, -⟩ := Tracker.of_starts starts
    rw [observe_of_starts starts, Tracker.observe_of_starts starts]
    refine ⟨j.reached, fun h => absurd h Bool.noConfusion, fun t ht c hc => ?_, j.once⟩
    rcases mem_set.1 ht with ht | ⟨-, rfl⟩
    · exact j.ahead t ht c hc
    · exact fun same => absurd same (j.unjudged unarmed c hc)

/-! ### Ends of cycles -/

section

variable {n : Nat} {t v : Timer Nat}

theorem endCycle_of_none (h : m.timers[n]? = none) : m.endCycle n = m := by
  rw [endCycle, Timers.ringAt_of_none h]

theorem judgement_of_none (h : m.timers[n]? = none) : m.judgement n = [] := by
  rw [judgement, h]

theorem endCycle_of_some (h : m.timers[n]? = some t) : m.endCycle n = { m with
    timers := if m.tracker.isCurrent t.key then m.timers.eraseIdx n ++ [t.again]
      else m.timers.eraseIdx n
    tracker := m.tracker.cycleEnd t.key } := by
  rw [endCycle, Timers.ringAt_of_some h]
  rfl

theorem mem_judgement (h : m.timers[n]? = some t) {c : Nat × Time} :
    c ∈ m.judgement n ↔ c = (t.key, t.deadline) ∧ m.tracker.judges t.key = true := by
  rw [judgement, h]
  dsimp only
  split
  · rename_i judges
    simp only [List.mem_singleton, judges, and_true]
  · rename_i idle
    simp only [List.not_mem_nil, idle, Bool.false_eq_true, and_false]

theorem nodup_judgement (m : Monitor) (n : Nat) : (m.judgement n).Nodup := by
  unfold judgement
  split
  · exact List.nodup_nil
  · split
    · exact List.nodup_singleton _
    · exact List.nodup_nil

/-- The timers that are left are others, or the one of the task, which waits for the next cycle. -/
theorem mem_timers_endCycle (single : m.tasks.Nodup) (h : m.timers[n]? = some t) :
    v ∈ (m.endCycle n).timers ↔
      v ∈ m.timers ∧ v.key ≠ t.key ∨ v = t.again ∧ m.tracker.generation = t.key := by
  have perm := Timers.perm_of_place h
  have keys : m.tasks.Perm (t.key :: (m.timers.eraseIdx n).map Timer.key) := perm.map _
  have ⟨apart, _⟩ := List.nodup_cons.1 (keys.nodup_iff.1 single)
  have others : v ∈ m.timers.eraseIdx n ↔ v ∈ m.timers ∧ v.key ≠ t.key := by
    rw [perm.mem_iff, List.mem_cons]
    refine ⟨fun hv => ⟨.inr hv, fun same => apart (same ▸ List.mem_map_of_mem hv)⟩, ?_⟩
    rintro ⟨rfl | hv, other⟩
    · exact absurd rfl other
    · exact hv
  rw [endCycle_of_some h]
  dsimp only
  split
  · rename_i current
    rw [List.mem_append, List.mem_singleton, others]
    simp only [eq_of_beq current, and_true]
  · rename_i past
    have other : m.tracker.generation ≠ t.key := fun same => past (beq_iff_eq.2 same)
    simp only [others, other, and_false, or_false]

theorem Tasked.endCycle (s : Tasked m) (n : Nat) : Tasked (m.endCycle n) := by
  cases h : m.timers[n]? with
  | none => rwa [endCycle_of_none h]
  | some t =>
    have task : t.key ∈ m.tasks := List.mem_map_of_mem (List.mem_of_getElem? h)
    have left {v : Timer Nat} := mem_timers_endCycle (v := v) s.single h
    have keys : m.tasks.Perm (t.key :: (m.timers.eraseIdx n).map Timer.key) :=
      (Timers.perm_of_place h).map _
    obtain ⟨-, -, armed, -, generation, ended⟩ := m.tracker.carries_cycleEnd t.key
    have tracker : (m.endCycle n).tracker = m.tracker.cycleEnd t.key := by rw [endCycle_of_some h]
    constructor
    case sound =>
      rw [tracker]
      refine (s.sound.cycleEnd task).of_subset fun g hg => ?_
      obtain ⟨v, hv, rfl⟩ := List.mem_map.1 hg
      rcases left.1 hv with ⟨hv, -⟩ | ⟨rfl, -⟩
      · exact List.mem_map_of_mem hv
      · exact task
    case single =>
      rw [tasks, endCycle_of_some h]
      dsimp only
      split
      · rw [List.map_append]
        exact (keys.trans (List.perm_append_singleton _ _).symm).nodup_iff.1 s.single
      · exact (List.nodup_cons.1 (keys.nodup_iff.1 s.single)).2
    case periods =>
      intro v hv
      rcases left.1 hv with ⟨hv, -⟩ | ⟨rfl, -⟩
      · exact s.periods v hv
      · exact s.periods t (List.mem_of_getElem? h)
    case attended =>
      rw [tracker, generation, armed, ended]
      intro period isArmed running
      rw [endCycle_of_some h] at period
      obtain ⟨v, hv, same⟩ := List.mem_map.1 (s.attended period isArmed running)
      by_cases current : v.key = t.key
      · exact List.mem_map.2 ⟨t.again, left.2 (.inr ⟨rfl, same ▸ current⟩), (current ▸ same :)⟩
      · exact List.mem_map.2 ⟨v, left.2 (.inl ⟨hv, current⟩), same⟩

theorem Judged.endCycle (j : Judged judged m) (s : Tasked m) (n : Nat) :
    Judged (judged ++ m.judgement n) (m.endCycle n) := by
  cases h : m.timers[n]? with
  | none => rwa [endCycle_of_none h, judgement_of_none h, List.append_nil]
  | some t =>
    have here : t ∈ m.timers := List.mem_of_getElem? h
    have task : t.key ∈ m.tasks := List.mem_map_of_mem here
    have members {c : Nat × Time} : c ∈ judged ++ m.judgement n ↔
        c ∈ judged ∨ c = (t.key, t.deadline) ∧ m.tracker.judges t.key = true := by
      rw [List.mem_append, mem_judgement h]
    obtain ⟨-, -, armed, -, generation, -⟩ := m.tracker.carries_cycleEnd t.key
    have tracker : (m.endCycle n).tracker = m.tracker.cycleEnd t.key := by rw [endCycle_of_some h]
    constructor
    case reached =>
      intro c hc
      rw [tracker, generation]
      rcases members.1 hc with hc | ⟨rfl, -⟩
      · exact j.reached c hc
      · exact s.sound.reached _ task
    case unjudged =>
      rw [tracker, generation, armed]
      intro unarmed c hc
      rcases members.1 hc with hc | ⟨rfl, judges⟩
      · exact j.unjudged unarmed c hc
      · exact absurd (Tracker.generation_of_judges judges ▸ task) (s.sound.not_mem unarmed)
    case ahead =>
      intro v hv c hc same
      have period := s.periods t here
      rcases (mem_timers_endCycle s.single h).1 hv with ⟨hv, other⟩ | ⟨rfl, -⟩ <;>
        rcases members.1 hc with hc | ⟨rfl, -⟩
      · exact j.ahead v hv c hc same
      · exact absurd same.symm other
      · exact Nat.lt_add_right _ (j.ahead t here c hc same)
      · exact Nat.lt_add_of_pos_right period
    case once =>
      refine j.once.append (nodup_judgement m n) fun c hc new => ?_
      obtain ⟨rfl, -⟩ := (mem_judgement h).1 new
      exact absurd (j.ahead t here _ hc rfl) (Nat.lt_irrefl _)

end

/-! ## Histories -/

namespace History

variable {h : History}

/-- What every act keeps. -/
structure Kept (h : History) : Prop where
  tasked : Tasked h.monitor
  judged : Judged h.judged h.monitor
  inTurn : InTurn (h.delivered ++ h.monitor.tracker.notices) h.monitor.tracker.status

theorem kept_new (thresholds : Thresholds) (cycle : Nat) : (ofThresholds thresholds cycle).Kept where
  tasked := tasked_new thresholds cycle
  judged := judged_new thresholds cycle
  inTurn := ⟨fun _ _ h => (by cases h), rfl⟩

theorem Kept.onTracker (k : h.Kept) (sound : u.Sound h.monitor.tasks)
    (turns : Turns h.monitor.tracker u) (reports : h.monitor.tracker.Reports u) :
    (h.onMonitor fun m => { m with tracker := u }).Kept where
  tasked := k.tasked.onTracker sound turns
  judged := k.judged.onTracker turns
  inTurn := k.inTurn.reports reports

theorem Kept.perform (k : h.Kept) (a : Act) : (h.perform a).Kept := by
  cases a with
  | observe number =>
    exact ⟨k.tasked.observe number, k.judged.observe number,
      k.inTurn.reports (h.monitor.tracker.reports_observe number)⟩
  | setPaused paused =>
    exact k.onTracker (k.tasked.sound.setPaused paused) (turns_setPaused _ paused)
      (Tracker.reports_setPaused _ paused)
  | reset => exact k.onTracker k.tasked.sound.reset (turns_reset _) (Tracker.reports_reset _)
  | stop => exact k.onTracker k.tasked.sound.stop (turns_stop _) (Tracker.reports_stop _)
  | cycleEnd task =>
    refine ⟨k.tasked.endCycle task, k.judged.endCycle k.tasked task, ?_⟩
    show InTurn (h.delivered ++ (h.monitor.endCycle task).tracker.notices)
      (h.monitor.endCycle task).tracker.status
    cases place : h.monitor.timers[task]? with
    | none =>
      rw [endCycle_of_none place]
      exact k.inTurn
    | some t =>
      rw [endCycle_of_some place]
      exact k.inTurn.reports (h.monitor.tracker.reports_cycleEnd t.key)
  | pass nanos =>
    obtain ⟨⟨sound, single, periods, attended⟩, ⟨reached, unjudged, ahead, once⟩, inTurn⟩ := k
    exact ⟨⟨sound, single, periods, attended⟩, ⟨reached, unjudged, ahead, once⟩, inTurn⟩
  | deliver =>
    refine ⟨k.tasked.onTracker k.tasked.sound.deliver (.within rfl rfl rfl),
      k.judged.onTracker (.within rfl rfl rfl), ?_⟩
    show InTurn ((h.delivered ++ h.monitor.tracker.notices) ++ []) h.monitor.tracker.status
    rw [List.append_nil]
    exact k.inTurn

theorem Kept.run (k : h.Kept) (acts : List Act) : (h.run acts).Kept := by
  induction acts generalizing h with
  | nil => exact k
  | cons a acts ih => exact ih (k.perform a)

/-- Passing time is a run: the clock goes on, and tasks come to the ends of their cycles. -/
theorem exists_run_advance (h : History) (nanos : Nat) :
    ∃ places : List Nat, (h.run (.pass nanos :: places.map .cycleEnd)).monitor =
      h.monitor.advance nanos := by
  obtain ⟨places, series⟩ :=
    Timers.exists_advance_eq ring (h.monitor.now + nanos) h.monitor.timers h.monitor.tracker
  have each (places : List Nat) (h : History) : (h.run (places.map .cycleEnd)).monitor =
      let rung := places.foldl (fun p n => Timers.ringAt ring n p.1 p.2)
        (h.monitor.timers, h.monitor.tracker)
      { h.monitor with timers := rung.1, tracker := rung.2 } := by
    induction places generalizing h with
    | nil => rfl
    | cons n places ih => exact ih (h.perform (.cycleEnd n))
  refine ⟨places, (each places (h.perform (.pass nanos))).trans ?_⟩
  rw [advance, series]
  rfl

/-! ### Generations that are over -/

theorem cycle_perform (h : History) (a : Act) : (h.perform a).monitor.cycle = h.monitor.cycle := by
  cases a <;> rfl

theorem cycle_run (h : History) (acts : List Act) : (h.run acts).monitor.cycle = h.monitor.cycle := by
  induction acts generalizing h with
  | nil => rfl
  | cons a acts ih => exact (ih _).trans (cycle_perform h a)

theorem generation_le_perform (h : History) (a : Act) :
    h.monitor.tracker.generation ≤ (h.perform a).monitor.tracker.generation := by
  cases a with
  | observe number =>
    show _ ≤ (h.monitor.tracker.observe number).generation
    cases starts : h.monitor.tracker.starts with
    | true => exact Nat.le_of_eq (by rw [Tracker.observe_of_starts starts])
    | false => exact Nat.le_of_eq (Tracker.kept_observe starts number).1.symm
  | setPaused paused => exact (turns_setPaused _ paused).generation_le
  | reset => exact (turns_reset _).generation_le
  | stop => exact (turns_stop _).generation_le
  | cycleEnd task =>
    show _ ≤ (h.monitor.endCycle task).tracker.generation
    cases place : h.monitor.timers[task]? with
    | none => exact Nat.le_of_eq (by rw [endCycle_of_none place])
    | some t =>
      rw [endCycle_of_some place]
      exact Nat.le_of_eq (h.monitor.tracker.carries_cycleEnd t.key).generation.symm
  | pass nanos => exact Nat.le_refl _
  | deliver => exact Nat.le_refl _

theorem generation_le_run (h : History) (acts : List Act) :
    h.monitor.tracker.generation ≤ (h.run acts).monitor.tracker.generation := by
  induction acts generalizing h with
  | nil => exact Nat.le_refl _
  | cons a acts ih => exact Nat.le_trans (generation_le_perform h a) (ih _)

/-- A reset or a stop leaves the generations of all tasks behind. One that has no effect finds no task
of the generation. -/
theorem past_of_turns {tasks : List Nat} (sound : t.Sound tasks) {g : Nat} (task : g ∈ tasks) :
    g < t.reset.generation ∧ g < t.stop.generation := by
  have reached := sound.reached g task
  unfold Tracker.reset Tracker.stop
  split
  · rename_i ended
    have other : g ≠ t.generation := fun same => by
      rw [(sound.detects (same ▸ task)).2] at ended
      cases ended
    exact ⟨Nat.lt_of_le_of_ne reached other, Nat.lt_of_le_of_ne reached other⟩
  · rw [Tracker.setStatus_eq]
    exact ⟨Nat.lt_succ_of_le reached, Nat.lt_succ_of_le reached⟩

/-- The end of a cycle of a generation that is over changes nothing, and ends the task. -/
theorem ring_past {g : Nat} (past : g < t.generation) : ring t g = (t, false) := by
  have other : t.isCurrent g = false := beq_false_of_ne (Nat.ne_of_gt past)
  have idle : t.judges g = false := by rw [Tracker.judges, other]; rfl
  rw [ring, Tracker.cycleEnd_of_not_judges idle, other]

/-- A task that changes the tracker is the one of its generation. -/
theorem place_of_acts {n : Nat} (acts : (h.monitor.endCycle n).tracker ≠ h.monitor.tracker) :
    h.monitor.tasks[n]? = some h.monitor.tracker.generation := by
  cases place : h.monitor.timers[n]? with
  | none => exact absurd (by rw [endCycle_of_none place]) acts
  | some t =>
    rw [endCycle_of_some place] at acts
    cases judges : h.monitor.tracker.judges t.key with
    | false => exact absurd (Tracker.cycleEnd_of_not_judges judges) acts
    | true => rw [tasks, List.getElem?_map, place, Tracker.generation_of_judges judges]; rfl

/-! ### After a stop -/

/-- The notices that have been delivered, and those that wait. -/
def said (h : History) : List LayerStatus := h.delivered ++ h.monitor.tracker.notices

/-- A tracker that has ended says nothing more, and keeps its status. -/
theorem perform_of_ended (ended : h.monitor.tracker.ended = true) (a : Act) :
    (h.perform a).monitor.tracker.ended = true ∧
      (h.perform a).monitor.tracker.status = h.monitor.tracker.status ∧ (h.perform a).said = h.said := by
  cases a with
  | observe number =>
    have starts : h.monitor.tracker.starts = false := by
      rw [Tracker.starts, ended, Bool.not_true, Bool.and_false]
    simp only [perform, onMonitor, said, Monitor.observe, Tracker.observe_of_not_starts starts,
      Tracker.countPacket_eq]
    split <;> exact ⟨ended, rfl, rfl⟩
  | setPaused paused =>
    simp only [perform, onMonitor, said, onTracker, Tracker.setPaused]
    split <;> exact ⟨ended, rfl, rfl⟩
  | reset =>
    have same : h.monitor.tracker.reset = h.monitor.tracker := if_pos ended
    simp only [perform, onMonitor, said, onTracker, same, ended, and_self]
  | stop =>
    have same : h.monitor.tracker.stop = h.monitor.tracker := if_pos ended
    simp only [perform, onMonitor, said, onTracker, same, ended, and_self]
  | cycleEnd task =>
    show (h.monitor.endCycle task).tracker.ended = true ∧
      (h.monitor.endCycle task).tracker.status = h.monitor.tracker.status ∧
      h.delivered ++ (h.monitor.endCycle task).tracker.notices = h.said
    have same : (h.monitor.endCycle task).tracker = h.monitor.tracker := by
      cases place : h.monitor.timers[task]? with
      | none => rw [endCycle_of_none place]
      | some t =>
        rw [endCycle_of_some place]
        exact Tracker.cycleEnd_of_not_judges (by rw [Tracker.judges, ended, Bool.not_true, Bool.and_false])
    rw [same]
    exact ⟨ended, rfl, rfl⟩
  | pass nanos => exact ⟨ended, rfl, rfl⟩
  | deliver => exact ⟨ended, rfl, List.append_nil _⟩

theorem run_of_ended (ended : h.monitor.tracker.ended = true) (acts : List Act) :
    (h.run acts).monitor.tracker.status = h.monitor.tracker.status ∧ (h.run acts).said = h.said := by
  induction acts generalizing h with
  | nil => exact ⟨rfl, rfl⟩
  | cons a acts ih =>
    obtain ⟨ended, status, said⟩ := perform_of_ended ended a
    obtain ⟨status', said'⟩ := ih ended
    exact ⟨status'.trans status, said'.trans said⟩

/-- A stop says nothing itself. -/
theorem perform_stop (h : History) : (h.perform .stop).monitor.tracker.ended = true ∧
    (h.perform .stop).monitor.tracker.status = h.monitor.tracker.status ∧
      (h.perform .stop).said = h.said := by
  simp only [perform, onMonitor, said, onTracker, Tracker.stop]
  split
  · exact ⟨‹_›, rfl, rfl⟩
  · exact ⟨rfl, rfl, rfl⟩

/-- Whatever happens to a monitor, and in whatever order, as long as no call comes between the steps of
another:

* the notices that are delivered are by turns that the layer is active and that it is stopped;
* when all have been delivered, the last is the status of the tracker;
* after a stop nothing is said but what was waiting, and the status stays;
* a task that was there before a reset or a stop never changes the tracker again, in its status, in
  what it counts or in its notices, and it goes at its next turn;
* of all tasks no more than one can change the tracker, and while the tracker detects there is one of
  its generation;
* no cycle is judged twice. -/
theorem delivery_in_order (thresholds : Thresholds) (cycle : Nat) (acts : List Act) :
    let start := ofThresholds thresholds cycle
    let h := start.run acts
    (∀ n s, h.delivered[n]? = some s → s = LayerStatus.turn n) ∧
    (h.monitor.tracker.notices = [] →
      h.delivered.getLast?.getD .stopped = h.monitor.tracker.status) ∧
    (∀ before later, acts = before ++ .stop :: later →
      h.monitor.tracker.status = (start.run before).monitor.tracker.status ∧
        h.said = (start.run before).said) ∧
    (∀ before a later, acts = before ++ a :: later → a = .reset ∨ a = .stop →
      ∀ t ∈ (start.run before).monitor.timers,
        ring h.monitor.tracker t.key = (h.monitor.tracker, false)) ∧
    (∀ i j, (h.monitor.endCycle i).tracker ≠ h.monitor.tracker →
      (h.monitor.endCycle j).tracker ≠ h.monitor.tracker → i = j) ∧
    (0 < cycle → h.monitor.tracker.armed = true → h.monitor.tracker.ended = false →
      ∃ t ∈ h.monitor.timers, t.key = h.monitor.tracker.generation) ∧
    h.judged.Nodup := by
  intro start h
  have kept : h.Kept := (kept_new thresholds cycle).run acts
  have apart {before later : List Act} {a : Act} (same : acts = before ++ a :: later) :
      h = ((start.run before).perform a).run later := by
    show List.foldl perform start acts = _
    rw [same, List.foldl_append]
    rfl
  refine ⟨fun n s hs => ?_, fun none => ?_, fun before later same => ?_,
    fun before a later same ending t ht => ?_, fun i j hi hj => ?_, fun period armed running => ?_,
    kept.judged.once⟩
  · refine kept.inTurn.turns n s ?_
    rw [List.getElem?_append_left (List.getElem?_eq_some_iff.1 hs).1]
    exact hs
  · have newest := kept.inTurn.newest
    rwa [none, List.append_nil] at newest
  · obtain ⟨ended, status, said⟩ := perform_stop (start.run before)
    obtain ⟨status', said'⟩ := run_of_ended ended later
    rw [apart same]
    exact ⟨status'.trans status, said'.trans said⟩
  · have before_kept : (start.run before).Kept := (kept_new thresholds cycle).run before
    have task : t.key ∈ (start.run before).monitor.tasks := List.mem_map_of_mem ht
    obtain ⟨reset, stop⟩ := past_of_turns before_kept.tasked.sound task
    have past : t.key < ((start.run before).perform a).monitor.tracker.generation := by
      rcases ending with rfl | rfl
      · exact reset
      · exact stop
    have later_le := generation_le_run ((start.run before).perform a) later
    rw [apart same]
    exact ring_past (Nat.lt_of_lt_of_le past later_le)
  · have hi := place_of_acts hi
    have hj := place_of_acts hj
    exact (List.getElem?_inj (List.getElem?_eq_some_iff.1 hi).1 kept.tasked.single).1 (hi.trans hj.symm)
  · have attended := kept.tasked.attended (by rwa [cycle_run]) armed running
    exact List.mem_map.1 attended

/-- A task that is left over from before a reset, next to the one that was started since. -/
example :
    let h := (ofThresholds ⟨1, 4⟩ 500).run [.observe 1, .pass 100, .reset, .observe 2]
    h.monitor.timers = [⟨0, 500, 500⟩, ⟨1, 600, 500⟩] ∧
      ring h.monitor.tracker 0 = (h.monitor.tracker, false) :=
  ⟨rfl, (delivery_in_order ⟨1, 4⟩ 500 [.observe 1, .pass 100, .reset, .observe 2]).2.2.2.1
    [.observe 1, .pass 100] .reset [.observe 2] rfl (.inl rfl) ⟨0, 500, 500⟩ List.mem_cons_self⟩

end History

end Monitor
end Simulcast
