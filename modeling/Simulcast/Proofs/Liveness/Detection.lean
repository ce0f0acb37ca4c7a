import Simulcast.Proofs.Liveness.Reports

/-!
# Tasks of detection

The cycles of a tracker are ended by tasks, each of which was started for one generation. A task
whose generation is over does nothing (`cycleEnd_of_not_judges`), and a generation gets its task when
the first packet arms the tracker. So there is a task of the current generation only while the
tracker is armed and has not ended: that is what `Sound` says, with one lemma for each thing that can
happen to a tracker.

`observe_of_starts`, `countPacket_eq` and `endCycle_eq` say what the steps of a tracker do, field by field.
-/

namespace Simulcast.Tracker

variable {t u : Tracker} {tasks others : List Nat}

/-! ## Steps, field by field -/

theorem countPacket_eq (t : Tracker) (number : UInt16) : t.countPacket number = { t with
    lastNumber := if tooOld < number - t.lastNumber then t.lastNumber else number
    count := if tooOld < number - t.lastNumber then t.count else t.count + 1 } := by
  unfold countPacket
  split <;> rfl

/-- The status after a cycle. -/
def verdict (t : Tracker) : LayerStatus :=
  if t.judge = 0 then .stopped else if t.thresholds.cycles ≤ t.judge then .active else t.status

theorem endCycle_eq (t : Tracker) :
    t.endCycle = { t with count := 0, goodCycles := t.judge }.setStatus t.verdict := by
  unfold endCycle verdict
  dsimp only
  split
  · rfl
  · split
    · rfl
    · rw [setStatus, if_pos rfl]

/-- While a tracker runs, its verdict goes into the queue. -/
theorem endCycle_of_running (running : t.ended = false) : t.endCycle = { t with
    count := 0
    goodCycles := t.judge
    status := t.verdict
    notices := t.notices ++ if t.status = t.verdict then [] else [t.verdict] } := by
  rw [endCycle_eq]
  exact setStatus_of_taken (t := { t with count := 0, goodCycles := t.judge }) (taken_of_running running) _

/-- Whether the end of a cycle of a generation is acted on. -/
def judges (t : Tracker) (generation : Nat) : Bool :=
  t.isCurrent generation && !t.paused && !t.ended

theorem cycleEnd_eq (t : Tracker) (generation : Nat) :
    t.cycleEnd generation = if t.judges generation then t.endCycle else t := by
  rw [cycleEnd, judgeCycle, judges]
  cases t.paused with
  | true => rw [if_pos rfl, Bool.not_true, Bool.and_false, Bool.false_and, if_neg Bool.false_ne_true]
  | false => rw [if_neg Bool.false_ne_true, Bool.not_false, Bool.and_true]

theorem cycleEnd_of_not_judges {generation : Nat} (h : t.judges generation = false) :
    t.cycleEnd generation = t := by
  rw [cycleEnd_eq, h]
  rfl

theorem generation_of_judges {generation : Nat} (h : t.judges generation = true) :
    t.generation = generation := by
  simp only [judges, isCurrent, Bool.and_eq_true, beq_iff_eq] at h
  exact h.1.1

/-- The end of a cycle concerns what was counted, the status and its notices. -/
structure Carries (t u : Tracker) : Prop where
  thresholds : u.thresholds = t.thresholds
  paused : u.paused = t.paused
  armed : u.armed = t.armed
  lastNumber : u.lastNumber = t.lastNumber
  generation : u.generation = t.generation
  ended : u.ended = t.ended

theorem Carries.refl (t : Tracker) : t.Carries t := ⟨rfl, rfl, rfl, rfl, rfl, rfl⟩

theorem carries_setStatus (t : Tracker) (status : LayerStatus) : t.Carries (t.setStatus status) := by
  rw [setStatus_eq]
  exact ⟨rfl, rfl, rfl, rfl, rfl, rfl⟩

theorem carries_endCycle (t : Tracker) : t.Carries t.endCycle := by
  rw [endCycle_eq, setStatus_eq]
  exact ⟨rfl, rfl, rfl, rfl, rfl, rfl⟩

/-- Judged or not, a cycle carries the rest of the tracker over. -/
theorem carries_judgeCycle (t : Tracker) (generation : Nat) : t.Carries (t.judgeCycle generation) := by
  unfold judgeCycle
  split
  · exact carries_endCycle t
  · exact .refl t

theorem carries_cycleEnd (t : Tracker) (generation : Nat) : t.Carries (t.cycleEnd generation) := by
  unfold cycleEnd
  split
  · exact .refl t
  · exact carries_judgeCycle t generation

theorem of_starts (h : t.starts = true) : t.paused = false ∧ t.armed = false ∧ t.ended = false := by
  simpa only [starts, Bool.and_eq_true, Bool.not_eq_true', and_assoc] using h

/-- The first packet makes the layer active at once. -/
theorem observe_of_starts (h : t.starts = true) (number : UInt16) : t.observe number = { t with
    lastNumber := number
    armed := true
    status := .active
    notices := t.notices ++ if t.status = .active then [] else [.active] } := by
  obtain ⟨paused, armed, running⟩ := of_starts h
  have start : t.observe number = (t.arm number).declareActive := by
    simp only [observe, paused, armed, running, Bool.false_eq_true, if_false]
  exact start.trans (setStatus_of_taken (t := t.arm number) (taken_of_running running) .active)

/-- A packet that starts nothing is counted if the tracker is armed and not paused. -/
theorem observe_of_not_starts (h : t.starts = false) (number : UInt16) :
    t.observe number = if t.armed && !t.paused then t.countPacket number else t := by
  unfold observe
  cases paused : t.paused with
  | true => rw [Bool.not_true, Bool.and_false, if_pos rfl, if_neg Bool.false_ne_true]
  | false =>
    cases armed : t.armed with
    | true => rfl
    | false =>
      have ended : t.ended = true := by simpa [starts, paused, armed] using h
      rw [ended]
      rfl

theorem kept_observe (h : t.starts = false) (number : UInt16) :
    (t.observe number).generation = t.generation ∧ (t.observe number).armed = t.armed ∧
      (t.observe number).ended = t.ended := by
  rw [observe_of_not_starts h, countPacket_eq]
  split <;> exact ⟨rfl, rfl, rfl⟩

theorem ended_observe (t : Tracker) (number : UInt16) : (t.observe number).ended = t.ended := by
  cases starts : t.starts with
  | true =>
    rw [observe_of_starts starts]
    rfl
  | false => exact (kept_observe starts number).2.2

theorem ended_setPaused (t : Tracker) (paused : Bool) : (t.setPaused paused).ended = t.ended := by
  unfold setPaused
  split <;> rfl

theorem ended_reset (t : Tracker) : t.reset.ended = t.ended := by
  unfold reset
  split
  · rfl
  · rw [setStatus_eq]
    rfl

theorem ended_stop (t : Tracker) : t.stop.ended = true := by
  unfold stop
  split
  · assumption
  · rfl

/-! ## Trackers and their tasks -/

/-- What holds of a tracker with tasks of some generations. -/
structure Sound (tasks : List Nat) (t : Tracker) : Prop where
  reached : ∀ g ∈ tasks, g ≤ t.generation
  /-- A generation gets its task with the first packet, and loses it when it is over. -/
  detects : t.generation ∈ tasks → t.armed = true ∧ t.ended = false
  blank : t.armed = false → t.status = .stopped ∧ t.count = 0 ∧ t.goodCycles = 0

theorem sound_new (thresholds : Thresholds) : Sound [] { thresholds } where
  reached _ h := by cases h
  detects h := by cases h
  blank _ := ⟨rfl, rfl, rfl⟩

theorem Sound.of_subset (s : t.Sound tasks) (sub : ∀ g ∈ others, g ∈ tasks) : t.Sound others where
  reached g h := s.reached g (sub g h)
  detects h := s.detects (sub _ h)
  blank := s.blank

/-- A tracker that is not armed has no task. -/
theorem Sound.not_mem (s : t.Sound tasks) (h : t.armed = false) : t.generation ∉ tasks := fun here => by
  rw [(s.detects here).1] at h
  cases h

/-- What happens within a generation. -/
theorem Sound.within (s : t.Sound tasks) (generation : u.generation = t.generation)
    (armed : u.armed = t.armed) (ended : u.ended = t.ended)
    (blank : t.armed = false → u.status = t.status ∧ u.count = 0 ∧ u.goodCycles = 0) :
    u.Sound tasks where
  reached := generation ▸ s.reached
  detects := by
    rw [generation, armed, ended]
    exact s.detects
  blank h := by
    obtain ⟨status, counted⟩ := blank (armed ▸ h)
    exact ⟨status.trans (s.blank (armed ▸ h)).1, counted⟩

/-- A generation that is over leaves its tasks behind. -/
theorem Sound.beyond (s : t.Sound tasks) (generation : u.generation = t.generation + 1)
    (blank : u.armed = false → u.status = .stopped ∧ u.count = 0 ∧ u.goodCycles = 0) :
    u.Sound tasks where
  reached g h := by
    rw [generation]
    exact Nat.le_succ_of_le (s.reached g h)
  detects h := by
    rw [generation] at h
    exact absurd (s.reached _ h) (Nat.not_succ_le_self _)
  blank := blank

theorem Sound.setPaused (s : t.Sound tasks) (paused : Bool) : (t.setPaused paused).Sound tasks := by
  unfold Tracker.setPaused
  split
  · exact s.within rfl rfl rfl fun h => ⟨rfl, (s.blank h).2⟩
  · exact s.within rfl rfl rfl fun _ => ⟨rfl, rfl, rfl⟩

theorem Sound.stop (s : t.Sound tasks) : t.stop.Sound tasks := by
  unfold Tracker.stop
  split
  · exact s
  · exact s.beyond rfl s.blank

/-- A reset leaves the tasks behind, and forgets what was counted. -/
theorem Sound.reset (s : t.Sound tasks) : t.reset.Sound tasks := by
  unfold Tracker.reset
  split
  · exact s
  · rw [setStatus_eq]
    exact s.beyond rfl fun _ => ⟨rfl, rfl, rfl⟩

theorem Sound.deliver (s : t.Sound tasks) : t.deliver.1.Sound tasks :=
  s.within rfl rfl rfl fun h => ⟨rfl, (s.blank h).2⟩

/-- A packet that arms the tracker starts a task of its generation. -/
theorem Sound.observe (s : t.Sound tasks) (number : UInt16) :
    (t.observe number).Sound (if t.starts then tasks ++ [t.generation] else tasks) := by
  cases starts : t.starts with
  | true =>
    rw [if_pos rfl, observe_of_starts starts]
    refine ⟨fun g h => ?_, fun _ => ⟨rfl, (of_starts starts).2.2⟩, fun h => by cases h⟩
    rcases List.mem_append.1 h with h | h
    · exact s.reached g h
    · exact Nat.le_of_eq (List.mem_singleton.1 h)
  | false =>
    rw [if_neg Bool.false_ne_true, observe_of_not_starts starts, countPacket_eq]
    split
    · rename_i counts
      refine s.within rfl rfl rfl fun unarmed => ?_
      rw [unarmed] at counts
      cases counts
    · exact s

/-- A cycle ends within its generation, whose task has another to wait for. -/
theorem Sound.cycleEnd (s : t.Sound tasks) {generation : Nat} (task : generation ∈ tasks) :
    (t.cycleEnd generation).Sound tasks := by
  cases h : t.judges generation with
  | false => rwa [cycleEnd_of_not_judges h]
  | true =>
    obtain ⟨-, -, armed, -, same, ended⟩ := t.carries_cycleEnd generation
    refine s.within same armed ended fun unarmed => absurd task ?_
    rw [← generation_of_judges h]
    exact s.not_mem unarmed

end Simulcast.Tracker
