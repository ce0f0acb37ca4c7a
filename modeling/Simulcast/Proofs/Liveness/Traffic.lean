import Simulcast.Proofs.Liveness.Delivery
import Mathlib.Data.List.Perm.Basic

/-!
# Calls of a tracker that come in between each other

Packets, pauses, resets and stops come to a tracker from any number of callers, and its cycles are
ended by tasks of their own. A call that takes several steps can be overtaken between any two of
them: a packet looks for a pause and for a first packet before it, arms the tracker, declares the
layer active and starts the task; a stop ends detection and then shuts the queue of notices; a task
looks whether its generation goes on and whether there is a pause before it judges. What is done
while the lock is held is one step, but for the end of a pause: packets are counted without the lock,
so that one can come in before the counts are cleared. `Act` has all that may happen next, so that
its runs are the interleavings; the calls that nothing comes in between are those of a history
(`tracker_observe`, `tracker_setPaused`, `tracker_stop`, `tracker_cycleEnd`).

A packet does not ask again whether detection has ended when it declares the layer active. If a stop
has shut the queue by then, the status changes and nobody is told (`Untold`). That is all that goes
wrong: `told_in_turn` says what holds of every run, and that the last notice is the status exactly
if no declaration was too late.
-/

namespace Simulcast.Tracker

open Monitor (InTurn Turns turns_reset)

/-- A call that is under way, by what it does next. -/
inductive Call where
  /-- It has found no pause, and looks whether a packet has come before. -/
  | looking (number : UInt16)
  /-- It has found that no packet came before, and waits for the lock. -/
  | arming (number : UInt16)
  /-- It compares its number with the last one. -/
  | comparing (number : UInt16)
  /-- Its number is not too old, and becomes the last one. -/
  | noting (number : UInt16)
  /-- It adds its packet to the count. -/
  | adding
  /-- It has resumed, and clears what was counted before the pause. -/
  | clearing
  /-- It has ended detection, and shuts the queue of notices. -/
  | shutting
  deriving DecidableEq, Repr

/-- What a detection does next: in the call of the packet that has begun it, then in its task. -/
inductive Phase where
  /-- The packet has armed the tracker, and declares the layer active. -/
  | declaring
  /-- The packet starts the task. -/
  | starting
  /-- The task waits for the end of a cycle, to see then whether its generation goes on. -/
  | waiting (deadline : Time)
  /-- The task looks whether there is a pause. -/
  | asking (deadline : Time)
  /-- The task waits for the lock, to judge the cycle. -/
  | judging (deadline : Time)
  deriving DecidableEq, Repr

/-- The end of the cycle that the task is at, once there is a task. -/
def Phase.deadline? : Phase → Option Time
  | .declaring | .starting => none
  | .waiting deadline | .asking deadline | .judging deadline => some deadline

/-- Detection for one generation. -/
structure Detection where
  generation : Nat
  phase : Phase
  deriving DecidableEq, Repr

/-- What the next step of a call makes of the tracker. -/
def Call.onTracker (t : Tracker) : Call → Tracker
  | .looking _ | .comparing _ => t
  | .arming number => if t.armed || t.ended then t else t.arm number
  | .noting number => { t with lastNumber := number }
  | .adding => { t with count := t.count + 1 }
  | .clearing => { t with count := 0, goodCycles := 0 }
  | .shutting => t.shut

/-- What is left of a call after its next step. -/
def Call.next (t : Tracker) : Call → Option Call
  | .looking number => some (if t.armed then .comparing number else .arming number)
  | .comparing number => if tooOld < number - t.lastNumber then none else some (.noting number)
  | .noting _ => some .adding
  | .arming _ | .adding | .clearing | .shutting => none

/-- The detection that the next step of a call begins. -/
def Call.begins (t : Tracker) : Call → List Detection
  | .arming _ => if t.armed || t.ended then [] else [⟨t.generation, .declaring⟩]
  | _ => []

/-- What the next step of a detection makes of the tracker. -/
def Detection.onTracker (d : Detection) (t : Tracker) : Tracker :=
  match d.phase with
  | .declaring => t.declareActive
  | .judging _ => t.judgeCycle d.generation
  | .starting | .waiting _ | .asking _ => t

theorem Detection.carries (d : Detection) (x : Tracker) : x.Carries (d.onTracker x) := by
  unfold Detection.onTracker
  split
  · exact carries_setStatus x .active
  · exact carries_judgeCycle x d.generation
  all_goals exact .refl x

/-- A step of a call says nothing, and leaves the status as it is. -/
theorem Call.same_onTracker (x : Tracker) (c : Call) :
    (c.onTracker x).status = x.status ∧ (c.onTracker x).notices = x.notices := by
  cases c with
  | arming number => cases free : x.armed || x.ended <;> simp [Call.onTracker, arm, free]
  | looking | comparing | noting | adding | clearing | shutting => exact ⟨rfl, rfl⟩

theorem Call.shut_onTracker {x : Tracker} (shut : x.stage = .shut) (c : Call) :
    (c.onTracker x).stage = .shut := by
  cases c with
  | arming number => cases free : x.armed || x.ended <;> simp [Call.onTracker, arm, free, shut]
  | shutting => rfl
  | looking | comparing | noting | adding | clearing => exact shut

/-- A step of a detection is reported, unless it makes the layer active when the queue is shut. -/
theorem Detection.reports {x : Tracker} (d : Detection)
    (taken : d.phase = .declaring → x.stage ≠ .shut ∨ x.status ≠ .stopped) :
    x.Reports (d.onTracker x) := by
  unfold Detection.onTracker
  split
  · rename_i declaring
    by_cases active : x.status = .active
    · have same : x.declareActive = x := if_pos active
      rw [same]
      exact .refl x
    · have stopped : x.status = .stopped := by
        cases status : x.status with
        | stopped => rfl
        | active => exact absurd status active
      exact .setStatus rfl rfl rfl _ ((taken declaring).resolve_right (not_not.2 stopped))
  · exact reports_judgeCycle x d.generation
  all_goals exact .refl x

/-- Once the queue is shut and the layer active, no detection changes anything. -/
theorem Detection.onTracker_of_shut {x : Tracker} (shut : x.stage = .shut)
    (active : x.status = .active) (d : Detection) : d.onTracker x = x := by
  have ended : x.ended = true := by rw [Tracker.ended, shut]; rfl
  unfold Detection.onTracker
  split
  · exact if_pos active
  · rw [judgeCycle, ended, Bool.not_true, Bool.and_false]
    exact if_neg Bool.false_ne_true
  all_goals rfl

theorem Call.ended_onTracker {x : Tracker} (ended : x.ended = true) (c : Call) :
    (c.onTracker x).ended = true := by
  cases c with
  | arming number =>
    rw [Call.onTracker, ended, Bool.or_true, if_pos rfl]
    exact ended
  | shutting => rfl
  | looking | comparing | noting | adding | clearing => exact ended

theorem Call.next_ne_shutting (x : Tracker) (c : Call) : c.next x ≠ some .shutting := by
  unfold Call.next
  repeat' split
  all_goals exact nofun

/-- A tracker, what is under way there, and what it has done. -/
structure Traffic where
  tracker : Tracker
  cycle : Nat
  now : Time := 0
  calls : List Call := []
  detections : List Detection := []
  /-- Notices in the order in which they were delivered. -/
  delivered : List LayerStatus := []
  /-- Cycles that have been judged, each by its generation and its end. -/
  judged : List (Nat × Time) := []

/-- What happens at a tracker. -/
inductive Act where
  | observe (number : UInt16)
  | setPaused (paused : Bool)
  | reset
  | stop
  /-- The call at a place goes on by a step. -/
  | goOn (place : Nat)
  /-- The detection at a place goes on by a step. -/
  | proceed (place : Nat)
  /-- The clock goes on. -/
  | pass (nanos : Nat)
  /-- The first notice of the queue is delivered. -/
  | deliver
  deriving DecidableEq, Repr

namespace Traffic

/-- Nothing has happened. -/
def ofThresholds (thresholds : Thresholds) (cycle : Nat) : Traffic where
  tracker := { thresholds }
  cycle

/-- Changes the tracker. -/
def onTracker (t : Traffic) (change : Tracker → Tracker) : Traffic :=
  { t with tracker := change t.tracker }

/-- A call is under way. -/
def begin (t : Traffic) (c : Call) : Traffic := { t with calls := t.calls ++ [c] }

/-- The call at a place goes on by a step. -/
def goOn (t : Traffic) (place : Nat) : Traffic :=
  match t.calls[place]? with
  | none => t
  | some c => { t with
      tracker := c.onTracker t.tracker
      calls := t.calls.eraseIdx place ++ (c.next t.tracker).toList
      detections := t.detections ++ c.begins t.tracker }

/-- The phase that a detection comes to by its next step, unless it ends. A task does not end with
its generation, but when it next sees that. -/
def next (t : Traffic) (d : Detection) : Option Phase :=
  match d.phase with
  | .declaring => some .starting
  | .starting => if t.cycle = 0 then none else some (.waiting (t.now + t.cycle))
  | .waiting deadline =>
    if t.now < deadline then some (.waiting deadline)
    else if t.tracker.isCurrent d.generation then some (.asking deadline) else none
  | .asking deadline =>
    some (if t.tracker.paused then .waiting (deadline + t.cycle) else .judging deadline)
  | .judging deadline => some (.waiting (deadline + t.cycle))

/-- The cycle that a detection judges by its next step. -/
def judgement (t : Traffic) (d : Detection) : List (Nat × Time) :=
  match d.phase with
  | .judging deadline =>
    if t.tracker.isCurrent d.generation && !t.tracker.ended then [(d.generation, deadline)] else []
  | .declaring | .starting | .waiting _ | .asking _ => []

/-- The detection at a place goes on by a step. -/
def proceed (t : Traffic) (place : Nat) : Traffic :=
  match t.detections[place]? with
  | none => t
  | some d => { t with
      tracker := d.onTracker t.tracker
      detections := t.detections.eraseIdx place ++
        (t.next d).toList.map fun phase => { d with phase }
      judged := t.judged ++ t.judgement d }

/-- Delivers the first notice of the queue. -/
def deliver (t : Traffic) : Traffic :=
  { t with
    tracker := { t.tracker with notices := t.tracker.notices.tail }
    delivered := t.delivered ++ t.tracker.notices.head?.toList }

/-- A tracker after an act. -/
def perform (t : Traffic) : Act → Traffic
  | .observe number => if t.tracker.paused then t else t.begin (.looking number)
  | .setPaused paused =>
    let t := t.onTracker fun x => { x with paused }
    if paused then t else t.begin .clearing
  | .reset => t.onTracker Tracker.reset
  | .stop => if t.tracker.ended then t else (t.onTracker endDetection).begin .shutting
  | .goOn place => t.goOn place
  | .proceed place => t.proceed place
  | .pass nanos => { t with now := t.now + nanos }
  | .deliver => t.deliver

/-- A tracker after some acts. -/
def run (t : Traffic) (acts : List Act) : Traffic := acts.foldl perform t

/-- By an act a packet declares the layer active. -/
def declares (t : Traffic) : Act → Bool
  | .proceed place => (t.detections[place]?).map Detection.phase == some .declaring
  | _ => false

/-- A packet declares a stopped layer active when the queue of notices is shut. -/
def Untold (t : Traffic) (a : Act) : Prop :=
  t.declares a = true ∧ t.tracker.stage = .shut ∧ t.tracker.status = .stopped

instance (t : Traffic) (a : Act) : Decidable (t.Untold a) :=
  inferInstanceAs (Decidable (_ ∧ _ ∧ _))

/-- In a run there is a declaration that nobody is told of. -/
def Belated (t : Traffic) : List Act → Prop
  | [] => False
  | a :: acts => t.Untold a ∨ (t.perform a).Belated acts

instance decidableBelated (t : Traffic) : ∀ acts, Decidable (t.Belated acts)
  | [] => .isFalse id
  | a :: acts => @instDecidableOr _ _ _ (decidableBelated (t.perform a) acts)

variable {t u : Traffic} {d e : Detection} {place : Nat}

/-! ## Calls that nothing comes in between -/

theorem goOn_of_length (t : Traffic) : t.goOn t.calls.length = t := by
  rw [goOn, List.getElem?_eq_none (Nat.le_refl _)]

/-- The call of a packet takes four steps at most. If it arms the tracker, its detection declares the
layer active. -/
theorem tracker_observe (t : Traffic) (number : UInt16) :
    (t.run [.observe number, .goOn t.calls.length, .goOn t.calls.length, .goOn t.calls.length,
      .goOn t.calls.length, .proceed t.detections.length]).tracker = t.tracker.observe number := by
  simp only [run, List.foldl_cons, List.foldl_nil, perform, Tracker.observe]
  cases paused : t.tracker.paused with
  | true => simp [goOn_of_length, proceed]
  | false =>
    cases armed : t.tracker.armed with
    | true =>
      by_cases old : tooOld < number - t.tracker.lastNumber <;>
        simp [begin, goOn, Call.onTracker, Call.next, Call.begins, proceed, countPacket,
          List.eraseIdx_append_of_length_le, paused, armed, old]
    | false =>
      cases ended : t.tracker.ended <;>
        simp [begin, goOn, Call.onTracker, Call.next, Call.begins, proceed, Detection.onTracker,
          List.eraseIdx_append_of_length_le, armed, ended]

/-- A pause takes one step, and the end of it two. -/
theorem tracker_setPaused (t : Traffic) (paused : Bool) :
    (t.run [.setPaused paused, .goOn t.calls.length]).tracker = t.tracker.setPaused paused := by
  simp only [run, List.foldl_cons, List.foldl_nil, perform, Tracker.setPaused]
  cases paused with
  | true => exact congrArg tracker (goOn_of_length (t.onTracker fun x => { x with paused := true }))
  | false => simp [begin, onTracker, goOn, Call.onTracker]

/-- The call of a stop takes two steps. -/
theorem tracker_stop (t : Traffic) :
    (t.run [.stop, .goOn t.calls.length]).tracker = t.tracker.stop := by
  simp only [run, List.foldl_cons, List.foldl_nil, perform, Tracker.stop]
  cases ended : t.tracker.ended with
  | true => simp [goOn_of_length]
  | false => simp [begin, onTracker, goOn, Call.onTracker]

/-- A task takes three steps when a cycle has ended. -/
theorem tracker_cycleEnd {generation : Nat} {deadline : Time} (due : deadline ≤ t.now)
    (here : t.detections[place]? = some ⟨generation, .waiting deadline⟩) :
    (t.run [.proceed place, .proceed (t.detections.length - 1),
      .proceed (t.detections.length - 1)]).tracker = t.tracker.cycleEnd generation := by
  have inside : place < t.detections.length := (List.getElem?_eq_some_iff.1 here).1
  have others : (t.detections.eraseIdx place).length = t.detections.length - 1 :=
    List.length_eraseIdx_of_lt inside
  rw [← others]
  simp only [run, List.foldl_cons, List.foldl_nil, perform]
  have woken : t.proceed place = { t with
      detections := t.detections.eraseIdx place ++
        if t.tracker.isCurrent generation then [⟨generation, .asking deadline⟩] else [] } := by
    rw [proceed, here]
    cases current : t.tracker.isCurrent generation <;>
      simp [next, judgement, Detection.onTracker, Nat.not_lt.2 due, current]
  rw [woken, Tracker.cycleEnd, Tracker.judgeCycle]
  cases current : t.tracker.isCurrent generation with
  | false => simp [proceed]
  | true =>
    cases paused : t.tracker.paused <;>
      simp [proceed, next, judgement, Detection.onTracker, Tracker.judgeCycle,
        List.eraseIdx_append_of_length_le, paused, current]

/-! ## Detections -/

/-- A stop that is about to shut the queue has ended detection. -/
def Closing (t : Traffic) : Prop := .shutting ∈ t.calls → t.tracker.ended = true

/-- What an act does to detection. -/
inductive Effect (t u : Traffic) : Prop where
  /-- The tracker stays within its generation, or ends it. -/
  | turns (turns : Turns t.tracker u.tracker) (cycle : u.cycle = t.cycle)
      (detections : u.detections = t.detections) (judged : u.judged = t.judged)
  /-- A packet arms the tracker. -/
  | begins (unarmed : t.tracker.armed = false) (running : t.tracker.ended = false) (number : UInt16)
      (tracker : u.tracker = t.tracker.arm number) (cycle : u.cycle = t.cycle)
      (detections : u.detections = t.detections ++ [⟨t.tracker.generation, .declaring⟩])
      (judged : u.judged = t.judged)
  /-- A detection goes on, or ends. -/
  | proceeds (d : Detection) (rest : List Detection) (here : t.detections.Perm (d :: rest))
      (carries : t.tracker.Carries u.tracker) (cycle : u.cycle = t.cycle)
      (detections : u.detections = rest ++ (t.next d).toList.map fun phase => { d with phase })
      (judged : u.judged = t.judged ++ t.judgement d)

theorem effect_goOn (closing : t.Closing) (place : Nat) : t.Effect (t.goOn place) := by
  unfold goOn
  split
  · exact .turns (.within rfl rfl rfl) rfl rfl rfl
  · rename_i c here
    cases c with
    | arming number =>
      cases free : t.tracker.armed || t.tracker.ended with
      | true =>
        simp only [Call.onTracker, Call.begins, free, if_true, List.append_nil]
        exact .turns (.within rfl rfl rfl) rfl rfl rfl
      | false =>
        obtain ⟨unarmed, running⟩ := Bool.or_eq_false_iff.1 free
        simp only [Call.onTracker, Call.begins, free, Bool.false_eq_true, if_false]
        exact .begins unarmed running number rfl rfl rfl rfl
    | shutting =>
      have ended := closing (List.mem_of_getElem? here)
      exact .turns (.within rfl rfl ended.symm) rfl (List.append_nil _) rfl
    | looking | comparing | noting | adding | clearing =>
      exact .turns (.within rfl rfl rfl) rfl (List.append_nil _) rfl

theorem effect_proceed (t : Traffic) (place : Nat) : t.Effect (t.proceed place) := by
  unfold proceed
  split
  · exact .turns (.within rfl rfl rfl) rfl rfl rfl
  · rename_i d here
    obtain ⟨inside, rfl⟩ := List.getElem?_eq_some_iff.1 here
    exact .proceeds _ _ (List.getElem_cons_eraseIdx_perm inside).symm (Detection.carries _ _) rfl rfl
      rfl

theorem effect_perform (closing : t.Closing) (a : Act) : t.Effect (t.perform a) := by
  cases a with
  | observe number =>
    simp only [perform]
    split <;> exact .turns (.within rfl rfl rfl) rfl rfl rfl
  | setPaused paused => cases paused <;> exact .turns (.within rfl rfl rfl) rfl rfl rfl
  | reset => exact .turns (turns_reset _) rfl rfl rfl
  | stop =>
    simp only [perform]
    split
    · exact .turns (.within rfl rfl rfl) rfl rfl rfl
    · exact .turns (.beyond (Nat.lt_succ_self _) (.inr rfl)) rfl rfl rfl
  | goOn place => exact effect_goOn closing place
  | proceed place => exact effect_proceed t place
  | pass nanos | deliver => exact .turns (.within rfl rfl rfl) rfl rfl rfl

theorem Closing.begin (closing : t.Closing) {c : Call} (other : c ≠ .shutting) :
    (t.begin c).Closing := by
  refine fun here => closing ((List.mem_append.1 here).resolve_right fun new => ?_)
  exact other (List.mem_singleton.1 new).symm

/-- Only a stop, which has ended detection, goes on to shut the queue. -/
theorem Closing.perform (closing : t.Closing) (a : Act) : (t.perform a).Closing := by
  cases a with
  | observe number =>
    simp only [Traffic.perform]
    split
    · exact closing
    · exact closing.begin nofun
  | setPaused paused =>
    cases paused with
    | true => exact closing
    | false => exact Closing.begin (t := t.onTracker fun x => { x with paused := false }) closing nofun
  | reset => exact fun h => (ended_reset _).trans (closing h)
  | stop =>
    simp only [Traffic.perform]
    split
    · exact closing
    · exact fun _ => rfl
  | goOn place =>
    simp only [Traffic.perform, goOn]
    split
    · exact closing
    · rename_i c here
      refine fun h => Call.ended_onTracker (closing ?_) c
      rcases List.mem_append.1 h with h | h
      · exact List.mem_of_mem_eraseIdx h
      · exact absurd (Option.mem_toList.1 h) (Call.next_ne_shutting _ _)
  | proceed place =>
    simp only [Traffic.perform, proceed]
    split
    · exact closing
    · rename_i d here
      exact fun h => (d.carries t.tracker).ended.trans (closing h)
  | pass nanos => exact closing
  | deliver => exact closing

/-- What holds of detection at any time. -/
structure Sound (t : Traffic) : Prop where
  reached : ∀ d ∈ t.detections, d.generation ≤ t.tracker.generation
  /-- A generation gets its detection with the first packet, and loses it when it is over. -/
  detects : ∀ d ∈ t.detections, d.generation = t.tracker.generation →
    t.tracker.armed = true ∧ t.tracker.ended = false
  single : (t.detections.map Detection.generation).Nodup
  attended : 0 < t.cycle → t.tracker.armed = true → t.tracker.ended = false →
    ∃ d ∈ t.detections, d.generation = t.tracker.generation
  periods : ∀ d ∈ t.detections, ∀ deadline, d.phase.deadline? = some deadline → 0 < t.cycle

theorem sound_new (thresholds : Thresholds) (cycle : Nat) : (ofThresholds thresholds cycle).Sound where
  reached _ h := by cases h
  detects _ h := by cases h
  single := List.nodup_nil
  attended _ h := by cases h
  periods _ h := by cases h

theorem mem_proceeds {rest : List Detection} :
    e ∈ rest ++ (t.next d).toList.map (fun phase => { d with phase }) ↔
      e ∈ rest ∨ ∃ phase, t.next d = some phase ∧ e = { d with phase } := by
  simp only [List.mem_append, List.mem_map, Option.mem_toList, eq_comm]

/-- While its generation goes on, so does a detection. -/
theorem next_of_current (period : 0 < t.cycle) (current : d.generation = t.tracker.generation) :
    ∃ phase, t.next d = some phase := by
  have goesOn : t.tracker.isCurrent d.generation = true := beq_iff_eq.2 current.symm
  unfold next
  split
  · exact ⟨_, rfl⟩
  · rw [if_neg (Nat.ne_of_gt period)]
    exact ⟨_, rfl⟩
  · rw [if_pos goesOn]
    split <;> exact ⟨_, rfl⟩
  all_goals exact ⟨_, rfl⟩

/-- A task comes from a call, whose detection has cycles to wait for, or from a task. -/
theorem period_of_next {phase : Phase} {deadline : Time} (going : t.next d = some phase)
    (task : phase.deadline? = some deadline)
    (period : ∀ deadline, d.phase.deadline? = some deadline → 0 < t.cycle) : 0 < t.cycle := by
  unfold next at going
  split at going
  · cases going
    cases task
  · split at going
    · cases going
    · exact Nat.pos_of_ne_zero ‹_›
  all_goals
    rename_i here
    exact period _ (by rw [here]; rfl)

theorem Sound.effect (s : t.Sound) (effect : t.Effect u) : u.Sound := by
  obtain ⟨reached, detects, single, attended, periods⟩ := s
  cases effect with
  | turns turns cycle detections judged =>
    constructor
    case reached =>
      rw [detections]
      exact fun d hd => Nat.le_trans (reached d hd) turns.generation_le
    case detects =>
      rw [detections]
      intro d hd current
      cases turns with
      | within generation armed ended =>
        rw [armed, ended]
        exact detects d hd (current.trans generation)
      | beyond generation => exact absurd (current ▸ reached d hd) (Nat.not_le.2 generation)
    case single => rwa [detections]
    case attended =>
      rw [cycle, detections]
      intro period isArmed running
      cases turns with
      | within generation armed ended =>
        rw [generation]
        exact attended period (armed ▸ isArmed) (ended ▸ running)
      | beyond generation quiet =>
        rcases quiet with unarmed | ended
        · exact absurd (isArmed.symm.trans unarmed) Bool.noConfusion
        · exact absurd (running.symm.trans ended) Bool.noConfusion
    case periods => rwa [detections, cycle]
  | begins unarmed running number tracker cycle detections judged =>
    have generation : u.tracker.generation = t.tracker.generation := by rw [tracker]; rfl
    have members (e) : e ∈ u.detections ↔
        e ∈ t.detections ∨ e = ⟨t.tracker.generation, .declaring⟩ := by
      rw [detections, List.mem_append, List.mem_singleton]
    have other : ∀ d ∈ t.detections, d.generation ≠ t.tracker.generation := fun d hd same => by
      rw [(detects d hd same).1] at unarmed
      cases unarmed
    constructor
    case reached =>
      intro d hd
      rw [generation]
      rcases (members d).1 hd with hd | rfl
      · exact reached d hd
      · exact Nat.le_refl _
    case detects =>
      intro d hd current
      rw [tracker]
      exact ⟨rfl, running⟩
    case single =>
      rw [detections, List.map_append]
      refine single.append (List.nodup_singleton _) (List.disjoint_singleton.2 fun here => ?_)
      obtain ⟨d, hd, same⟩ := List.mem_map.1 here
      exact other d hd same
    case attended =>
      exact fun _ _ _ => ⟨_, (members _).2 (.inr rfl), generation.symm⟩
    case periods =>
      intro d hd deadline task
      rw [cycle]
      rcases (members d).1 hd with hd | rfl
      · exact periods d hd deadline task
      · cases task
  | proceeds d rest here carries cycle detections judged =>
    obtain ⟨-, -, armed, -, generation, ended⟩ := carries
    have members {e} : e ∈ u.detections ↔
        e ∈ rest ∨ ∃ phase, t.next d = some phase ∧ e = { d with phase } := by
      rw [detections, mem_proceeds]
    have mine : d ∈ t.detections := here.mem_iff.2 List.mem_cons_self
    have others : ∀ e ∈ rest, e ∈ t.detections := fun e he =>
      here.mem_iff.2 (List.mem_cons_of_mem _ he)
    constructor
    case reached =>
      intro e he
      rw [generation]
      rcases members.1 he with he | ⟨phase, -, rfl⟩
      · exact reached e (others e he)
      · exact reached d mine
    case detects =>
      intro e he
      rw [generation, armed, ended]
      rcases members.1 he with he | ⟨phase, -, rfl⟩
      · exact detects e (others e he)
      · exact detects d mine
    case single =>
      have keys := (here.map Detection.generation).nodup_iff.1 single
      rw [detections]
      cases t.next d with
      | none =>
        simp only [Option.toList_none, List.map_nil, List.append_nil]
        exact (List.nodup_cons.1 keys).2
      | some phase =>
        simp only [Option.toList_some, List.map_append]
        exact (List.perm_append_singleton _ _).nodup_iff.2 keys
    case attended =>
      intro period isArmed running
      rw [generation]
      rw [cycle] at period
      obtain ⟨e, he, current⟩ := attended period (armed ▸ isArmed) (ended ▸ running)
      rcases List.mem_cons.1 (here.mem_iff.1 he) with rfl | he
      · obtain ⟨phase, going⟩ := next_of_current period current
        exact ⟨_, members.2 (.inr ⟨phase, going, rfl⟩), current⟩
      · exact ⟨e, members.2 (.inl he), current⟩
    case periods =>
      intro e he deadline task
      rw [cycle]
      rcases members.1 he with he | ⟨phase, going, rfl⟩
      · exact periods e (others e he) deadline task
      · exact period_of_next going task (periods d mine)

/-! ### Cycles -/

/-- The task of a detection is at a cycle that ends after a moment. -/
def EndsAfter (d : Detection) (moment : Time) : Prop :=
  ∃ deadline, d.phase.deadline? = some deadline ∧ moment < deadline

/-- What holds of the cycles that were judged. -/
structure Judged (t : Traffic) : Prop where
  reached : ∀ c ∈ t.judged, c.1 ≤ t.tracker.generation
  unjudged : t.tracker.armed = false → ∀ c ∈ t.judged, c.1 ≠ t.tracker.generation
  /-- The cycle that a task is at is later than those it has judged. -/
  ahead : ∀ d ∈ t.detections, ∀ c ∈ t.judged, c.1 = d.generation → EndsAfter d c.2
  once : t.judged.Nodup

theorem judged_new (thresholds : Thresholds) (cycle : Nat) :
    (ofThresholds thresholds cycle).Judged where
  reached _ h := by cases h
  unjudged _ _ h := by cases h
  ahead _ h := by cases h
  once := List.nodup_nil

/-- A task goes from one cycle to the next. -/
theorem EndsAfter.next {moment : Time} (h : EndsAfter d moment) {phase : Phase}
    (going : t.next d = some phase) : EndsAfter { d with phase } moment := by
  obtain ⟨deadline, task, later⟩ := h
  unfold Traffic.next at going
  split at going
  · rename_i here
    rw [here] at task
    cases task
  · rename_i here
    rw [here] at task
    cases task
  all_goals
    rename_i here
    rw [here] at task
    cases task
  · split at going
    · cases going
      exact ⟨_, rfl, later⟩
    · split at going <;> cases going
      exact ⟨_, rfl, later⟩
  · split at going <;> cases going
    · exact ⟨_, rfl, Nat.lt_add_right _ later⟩
    · exact ⟨_, rfl, later⟩
  · cases going
    exact ⟨_, rfl, Nat.lt_add_right _ later⟩

theorem mem_judgement {c : Nat × Time} : c ∈ t.judgement d ↔
    d.phase = .judging c.2 ∧ c.1 = d.generation ∧ t.tracker.generation = d.generation ∧
      t.tracker.ended = false := by
  unfold judgement Tracker.isCurrent
  split
  · rename_i deadline judging
    rw [judging, Phase.judging.injEq]
    split
    · rename_i goesOn
      rw [Bool.and_eq_true, Bool.not_eq_true', beq_iff_eq] at goesOn
      rw [List.mem_singleton, Prod.ext_iff]
      exact ⟨fun ⟨generation, moment⟩ => ⟨moment.symm, generation, goesOn⟩,
        fun ⟨moment, generation, _⟩ => ⟨generation, moment.symm⟩⟩
    · rename_i gone
      rw [Bool.and_eq_true, Bool.not_eq_true', beq_iff_eq] at gone
      exact ⟨nofun, fun ⟨_, _, goesOn⟩ => absurd goesOn gone⟩
  all_goals
    rename_i here
    rw [here]
    exact ⟨nofun, fun h => nomatch h.1⟩

theorem nodup_judgement (t : Traffic) (d : Detection) : (t.judgement d).Nodup := by
  unfold judgement
  repeat' split
  · exact List.nodup_singleton _
  all_goals exact List.nodup_nil

theorem Judged.effect (j : t.Judged) (s : t.Sound) (effect : t.Effect u) : u.Judged := by
  obtain ⟨reached, unjudged, ahead, once⟩ := j
  cases effect with
  | turns turns cycle detections judged =>
    constructor
    case reached =>
      rw [judged]
      exact fun c hc => Nat.le_trans (reached c hc) turns.generation_le
    case unjudged =>
      rw [judged]
      intro unarmed c hc
      cases turns with
      | within generation armed =>
        rw [generation]
        exact unjudged (armed ▸ unarmed) c hc
      | beyond generation => exact Nat.ne_of_lt (Nat.lt_of_le_of_lt (reached c hc) generation)
    case ahead => rwa [judged, detections]
    case once => rwa [judged]
  | begins unarmed running number tracker cycle detections judged =>
    have generation : u.tracker.generation = t.tracker.generation := by rw [tracker]; rfl
    constructor
    case reached => rwa [judged, generation]
    case unjudged =>
      rw [tracker]
      exact fun armed => absurd armed Bool.noConfusion
    case ahead =>
      rw [judged, detections]
      intro d hd c hc same
      rcases List.mem_append.1 hd with hd | hd
      · exact ahead d hd c hc same
      · rw [List.mem_singleton.1 hd] at same
        exact absurd same (unjudged unarmed c hc)
    case once => rwa [judged]
  | proceeds d rest here carries cycle detections judged =>
    obtain ⟨-, -, armed, -, generation, -⟩ := carries
    have mine : d ∈ t.detections := here.mem_iff.2 List.mem_cons_self
    have others : ∀ e ∈ rest, e ∈ t.detections ∧ e.generation ≠ d.generation := by
      have keys := (here.map Detection.generation).nodup_iff.1 s.single
      refine fun e he => ⟨here.mem_iff.2 (List.mem_cons_of_mem _ he), fun same => ?_⟩
      exact (List.nodup_cons.1 keys).1 (same ▸ List.mem_map_of_mem he)
    have members {c} : c ∈ u.judged ↔ c ∈ t.judged ∨ c ∈ t.judgement d := by
      rw [judged, List.mem_append]
    constructor
    case reached =>
      intro c hc
      rw [generation]
      rcases members.1 hc with hc | hc
      · exact reached c hc
      · rw [(mem_judgement.1 hc).2.1]
        exact s.reached d mine
    case unjudged =>
      rw [armed, generation]
      intro unarmed c hc
      rcases members.1 hc with hc | hc
      · exact unjudged unarmed c hc
      · -- a detection of the generation that judges would have found the tracker armed
        obtain ⟨-, -, current, -⟩ := mem_judgement.1 hc
        rw [(s.detects d mine current.symm).1] at unarmed
        cases unarmed
    case ahead =>
      rw [detections]
      intro e he c hc same
      rcases mem_proceeds.1 he with he | ⟨phase, going, rfl⟩ <;> rcases members.1 hc with hc | hc
      · exact ahead e (others e he).1 c hc same
      · exact absurd ((mem_judgement.1 hc).2.1 ▸ same).symm (others e he).2
      · exact (ahead d mine c hc same).next going
      · obtain ⟨judging, -⟩ := mem_judgement.1 hc
        have period : 0 < t.cycle := s.periods d mine c.2 (by rw [judging]; rfl)
        rw [next, judging] at going
        cases going
        exact ⟨_, rfl, Nat.lt_add_of_pos_right period⟩
    case once =>
      rw [judged]
      refine once.append (nodup_judgement t d) fun c hc new => ?_
      obtain ⟨judging, same, -⟩ := mem_judgement.1 new
      obtain ⟨deadline, task, later⟩ := ahead d mine c hc same
      rw [judging] at task
      cases task
      exact absurd later (Nat.lt_irrefl _)

/-! ## Notices -/

/-- The notices that have been delivered, and those that wait. -/
def said (t : Traffic) : List LayerStatus := t.delivered ++ t.tracker.notices

/-- The layer became active when the queue was shut, so that the last notice says otherwise. -/
structure Lost (t : Traffic) : Prop where
  inTurn : InTurn t.said .stopped
  active : t.tracker.status = .active
  shut : t.tracker.stage = .shut

theorem said_deliver (t : Traffic) : t.deliver.said = t.said := by
  unfold said deliver
  cases t.tracker.notices with
  | nil => simp only [List.head?_nil, Option.toList_none, List.append_nil, List.tail_nil]
  | cons s notices =>
    simp only [List.head?_cons, Option.toList_some, List.tail_cons, List.append_assoc,
      List.singleton_append]

/-- If nobody is not told of a declaration, notices come in turn. -/
theorem inTurn_perform (told : InTurn t.said t.tracker.status) {a : Act} (h : ¬t.Untold a) :
    InTurn (t.perform a).said (t.perform a).tracker.status := by
  cases a with
  | observe number =>
    simp only [perform]
    split <;> exact told
  | setPaused paused => cases paused <;> exact told
  | reset => exact told.reports (reports_reset _)
  | stop =>
    simp only [perform]
    split
    · exact told
    · exact told.reports (.of_eq rfl rfl)
  | goOn place =>
    simp only [perform, goOn]
    split
    · exact told
    · rename_i c here
      obtain ⟨status, notices⟩ := c.same_onTracker t.tracker
      exact told.reports (.of_eq notices status)
  | proceed place =>
    simp only [perform, proceed]
    split
    · exact told
    · rename_i d here
      refine told.reports (d.reports fun declaring => ?_)
      refine Decidable.not_and_iff_not_or_not.1 fun late => h ⟨?_, late⟩
      rw [declares, here, Option.map_some, declaring]
      rfl
  | pass nanos => exact told
  | deliver =>
    show InTurn t.deliver.said t.tracker.status
    rwa [said_deliver]

/-- A declaration that comes too late changes the status and says nothing. -/
theorem lost_perform (told : InTurn t.said t.tracker.status) {a : Act} (h : t.Untold a) :
    (t.perform a).Lost := by
  obtain ⟨declares, shut, stopped⟩ := h
  cases a with
  | proceed place =>
    obtain ⟨d, here, declaring⟩ := Option.map_eq_some_iff.1 (beq_iff_eq.1 declares)
    have active : d.onTracker t.tracker = { t.tracker with status := .active } := by
      simp only [Detection.onTracker, declaring, declareActive, setStatus_eq, shut, or_true, if_true,
        List.append_nil]
    simp only [perform, proceed, here, active]
    exact ⟨stopped ▸ told, rfl, shut⟩
  | _ => cases declares

/-- After that the status stays, and nothing is said any more. -/
theorem Lost.perform (l : t.Lost) (a : Act) : (t.perform a).Lost := by
  obtain ⟨inTurn, active, shut⟩ := l
  have ended : t.tracker.ended = true := by rw [Tracker.ended, shut]; rfl
  cases a with
  | observe number =>
    simp only [Traffic.perform]
    split <;> exact ⟨inTurn, active, shut⟩
  | setPaused paused =>
    cases paused <;> exact ⟨inTurn, active, shut⟩
  | reset =>
    have same : t.tracker.reset = t.tracker := if_pos ended
    simp only [Traffic.perform, onTracker, same]
    exact ⟨inTurn, active, shut⟩
  | stop =>
    simp only [Traffic.perform, ended, if_true]
    exact ⟨inTurn, active, shut⟩
  | goOn place =>
    simp only [Traffic.perform, goOn]
    split
    · exact ⟨inTurn, active, shut⟩
    · rename_i c here
      obtain ⟨status, notices⟩ := c.same_onTracker t.tracker
      refine ⟨?_, status.trans active, c.shut_onTracker shut⟩
      show InTurn (t.delivered ++ (c.onTracker t.tracker).notices) .stopped
      rwa [notices]
  | proceed place =>
    simp only [Traffic.perform, proceed]
    split
    · exact ⟨inTurn, active, shut⟩
    · rename_i d here
      rw [d.onTracker_of_shut shut active]
      exact ⟨inTurn, active, shut⟩
  | pass nanos => exact ⟨inTurn, active, shut⟩
  | deliver =>
    refine ⟨?_, active, shut⟩
    show InTurn t.deliver.said .stopped
    rwa [said_deliver]

/-! ## Runs -/

/-- What every act keeps. -/
structure Kept (t : Traffic) : Prop where
  closing : t.Closing
  sound : t.Sound
  judged : t.Judged

theorem kept_new (thresholds : Thresholds) (cycle : Nat) : (ofThresholds thresholds cycle).Kept where
  closing h := by cases h
  sound := sound_new thresholds cycle
  judged := judged_new thresholds cycle

theorem Kept.perform (k : t.Kept) (a : Act) : (t.perform a).Kept :=
  have effect := effect_perform k.closing a
  ⟨k.closing.perform a, k.sound.effect effect, k.judged.effect k.sound effect⟩

theorem Kept.run (k : t.Kept) (acts : List Act) : (t.run acts).Kept := by
  induction acts generalizing t with
  | nil => exact k
  | cons a acts ih => exact ih (k.perform a)

theorem Lost.run (l : t.Lost) (acts : List Act) : (t.run acts).Lost := by
  induction acts generalizing t with
  | nil => exact l
  | cons a acts ih => exact ih (l.perform a)

/-- Notices come in turn, up to the status or, after a declaration that nobody was told of, up to
the one before. -/
theorem inTurn_run (told : InTurn t.said t.tracker.status) (acts : List Act) :
    t.Belated acts ∧ (t.run acts).Lost ∨
      ¬t.Belated acts ∧ InTurn (t.run acts).said (t.run acts).tracker.status := by
  induction acts generalizing t with
  | nil => exact .inr ⟨id, told⟩
  | cons a acts ih =>
    by_cases h : t.Untold a
    · exact .inl ⟨.inl h, (lost_perform told h).run acts⟩
    · refine (ih (inTurn_perform told h)).imp (And.imp_left .inr) (And.imp_left fun timely => ?_)
      exact not_or.2 ⟨h, timely⟩

theorem Effect.generation_le (effect : t.Effect u) :
    t.tracker.generation ≤ u.tracker.generation := by
  cases effect with
  | turns turns => exact turns.generation_le
  | begins _ _ _ tracker =>
    rw [tracker]
    exact Nat.le_refl _
  | proceeds _ _ _ carries => exact Nat.le_of_eq carries.generation.symm

theorem Kept.generation_le_run (k : t.Kept) (acts : List Act) :
    t.tracker.generation ≤ (t.run acts).tracker.generation := by
  induction acts generalizing t with
  | nil => exact Nat.le_refl _
  | cons a acts ih =>
    exact Nat.le_trans (effect_perform k.closing a).generation_le (ih (k.perform a))

theorem Kept.cycle_run (k : t.Kept) (acts : List Act) : (t.run acts).cycle = t.cycle := by
  induction acts generalizing t with
  | nil => rfl
  | cons a acts ih =>
    refine (ih (k.perform a)).trans ?_
    cases effect_perform k.closing a with
    | turns _ cycle => exact cycle
    | begins _ _ _ _ cycle => exact cycle
    | proceeds _ _ _ _ cycle => exact cycle

/-- A reset or a stop leaves all detections behind, wherever they are. One that has no effect finds
none of the generation. -/
theorem Sound.past_of_turns (s : t.Sound) (here : d ∈ t.detections) {a : Act}
    (ending : a = .reset ∨ a = .stop) : d.generation < (t.perform a).tracker.generation := by
  have reached := s.reached d here
  have past (ended : t.tracker.ended = true) : d.generation < t.tracker.generation := by
    refine Nat.lt_of_le_of_ne reached fun current => ?_
    rw [(s.detects d here current).2] at ended
    cases ended
  rcases ending with rfl | rfl
  · show d.generation < t.tracker.reset.generation
    unfold Tracker.reset
    split
    · exact past ‹_›
    · rw [setStatus_eq]
      exact Nat.lt_succ_of_le reached
  · simp only [perform]
    split
    · exact past ‹_›
    · exact Nat.lt_succ_of_le reached

/-- The end of a cycle of a generation that is over changes nothing. -/
theorem judgeCycle_past {x : Tracker} {g : Nat} (past : g < x.generation) :
    x.judgeCycle g = x ∧ x.isCurrent g = false := by
  have gone : x.isCurrent g = false := beq_false_of_ne (Nat.ne_of_gt past)
  rw [judgeCycle, gone]
  exact ⟨rfl, rfl⟩

/-- Of two detections at most one is of the generation. -/
theorem Sound.eq_of_acts (s : t.Sound) {i j : Nat} (hi : t.detections[i]? = some d)
    (hj : t.detections[j]? = some e) (di : t.tracker.judgeCycle d.generation ≠ t.tracker)
    (dj : t.tracker.judgeCycle e.generation ≠ t.tracker) : i = j := by
  have current {f : Detection} {n : Nat} (place : t.detections[n]? = some f)
      (acts : t.tracker.judgeCycle f.generation ≠ t.tracker) :
      f.generation = t.tracker.generation := by
    have reached := s.reached f (List.mem_of_getElem? place)
    exact Nat.le_antisymm reached (Nat.not_lt.1 fun past => acts (judgeCycle_past past).1)
  have keys : (t.detections.map Detection.generation)[i]? =
      (t.detections.map Detection.generation)[j]? := by
    rw [List.getElem?_map, List.getElem?_map, hi, hj, Option.map_some, Option.map_some,
      current hi di, current hj dj]
  refine (List.getElem?_inj ?_ s.single).1 keys
  rw [List.length_map]
  exact (List.getElem?_eq_some_iff.1 hi).1

/-- Whatever comes in between whatever at a tracker:

* the notices that are delivered are by turns that the layer is active and that it is stopped;
* when all have been delivered, the last is the status of the tracker, unless a packet has declared the
  layer active after a stop had shut the queue, and only then;
* a detection that was there before a reset or a stop never changes the tracker again by the end of a
  cycle, in its status, in what it counts or in its notices, and its task goes at its next turn;
* of all detections no more than one can change the tracker by the end of a cycle, and while the
  tracker detects there is one of its generation;
* no cycle is judged twice. -/
theorem told_in_turn (thresholds : Thresholds) (cycle : Nat) (acts : List Act) :
    let start := ofThresholds thresholds cycle
    let t := start.run acts
    (∀ n s, t.delivered[n]? = some s → s = LayerStatus.turn n) ∧
    (t.tracker.notices = [] →
      (t.delivered.getLast?.getD .stopped = t.tracker.status ↔ ¬start.Belated acts)) ∧
    (∀ before a later, acts = before ++ a :: later → a = .reset ∨ a = .stop →
      ∀ d ∈ (start.run before).detections,
        t.tracker.judgeCycle d.generation = t.tracker ∧ t.tracker.isCurrent d.generation = false) ∧
    (∀ (i j : Nat) (d e : Detection), t.detections[i]? = some d → t.detections[j]? = some e →
      t.tracker.judgeCycle d.generation ≠ t.tracker →
      t.tracker.judgeCycle e.generation ≠ t.tracker → i = j) ∧
    (0 < cycle → t.tracker.armed = true → t.tracker.ended = false →
      ∃ d ∈ t.detections, d.generation = t.tracker.generation) ∧
    t.judged.Nodup := by
  intro start t
  have fresh : start.Kept := kept_new thresholds cycle
  have kept : t.Kept := fresh.run acts
  have nothing : InTurn start.said start.tracker.status := ⟨fun _ _ h => (by cases h), rfl⟩
  have told := inTurn_run nothing acts
  refine ⟨fun n s hs => ?_, fun none => ?_, fun before a later same ending d hd => ?_,
    fun i j d e hi hj => kept.sound.eq_of_acts hi hj, fun period armed running => ?_, kept.judged.once⟩
  · have said : t.said[n]? = some s := by
      rw [said, List.getElem?_append_left (List.getElem?_eq_some_iff.1 hs).1]
      exact hs
    rcases told with ⟨-, lost⟩ | ⟨-, inTurn⟩
    · exact lost.inTurn.turns n s said
    · exact inTurn.turns n s said
  · have all : t.said = t.delivered := by rw [said, none, List.append_nil]
    rw [← all]
    rcases told with ⟨belated, lost⟩ | ⟨timely, inTurn⟩
    · rw [lost.inTurn.newest, lost.active]
      exact iff_of_false nofun (not_not_intro belated)
    · exact iff_of_true inTurn.newest timely
  · have apart : t = ((start.run before).perform a).run later := by
      show List.foldl perform start acts = _
      rw [same, List.foldl_append]
      rfl
    have before_kept : (start.run before).Kept := fresh.run before
    have past := before_kept.sound.past_of_turns hd ending
    rw [apart]
    exact judgeCycle_past (Nat.lt_of_lt_of_le past ((before_kept.perform a).generation_le_run later))
  · exact kept.sound.attended (by rwa [fresh.cycle_run]) armed running

/-- A reset comes between the step by which a packet arms the tracker and the one by which it declares
the layer active, and the next packet arms it again. The detection of the first one is idle. -/
theorem told_in_turn_reset_between :
    let acts : List Act := [.observe 1, .goOn 0, .goOn 0, .reset, .proceed 0, .observe 2, .goOn 0,
      .goOn 0, .deliver]
    let t := (ofThresholds ⟨1, 4⟩ 500).run acts
    t.detections = [⟨0, .starting⟩, ⟨1, .declaring⟩] ∧ t.delivered = [.active] ∧
      t.delivered.getLast?.getD .stopped = t.tracker.status ∧
      t.tracker.judgeCycle 0 = t.tracker ∧ t.tracker.isCurrent 0 = false := by
  intro acts t
  obtain ⟨-, newest, idle, -⟩ := told_in_turn ⟨1, 4⟩ 500 acts
  exact ⟨rfl, rfl, (newest rfl).2 (by decide),
    idle [.observe 1, .goOn 0, .goOn 0] .reset _ rfl (.inl rfl) ⟨0, .declaring⟩ List.mem_cons_self⟩

/-- A stop comes between the two steps, and shuts the queue. When nothing is left to happen the layer
is active, and nobody has been told. -/
theorem untold_of_stop_between :
    let t := (ofThresholds ⟨1, 4⟩ 500).run [.observe 1, .goOn 0, .goOn 0, .stop, .goOn 0, .proceed 0,
      .proceed 0, .pass 500, .proceed 0]
    t.calls = [] ∧ t.detections = [] ∧ t.tracker.notices = [] ∧ t.tracker.status = .active ∧
      t.delivered = [] ∧ t.delivered.getLast?.getD .stopped ≠ t.tracker.status :=
  ⟨rfl, rfl, rfl, rfl, rfl, nofun⟩

end Traffic
end Simulcast.Tracker
