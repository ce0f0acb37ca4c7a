import Simulcast.Proofs.Liveness.Attendance
import Simulcast.Proofs.Liveness.Lagging

/-!
# Runs side by side

The same happens to two monitors, or to two watches, that are the same but for trackers of which
the second ones lag behind the first. They show the same at all times (`Alike`), until a cycle is
judged differently. `Monitor.History.alike_iff` and `LayerWatch.alike_iff` follow the two runs act
by act, and say by the packets in the cycles to come when that never happens.
-/

namespace Simulcast

/-- Two states show the same at all times while the same happens to them. -/
def Alike {σ α β : Type} (step : σ → α → σ) (shown : σ → β) (s t : σ) (acts : List α) : Prop :=
  ∀ earlier, earlier <+: acts → shown (earlier.foldl step t) = shown (earlier.foldl step s)

section

variable {σ α β : Type} {step : σ → α → σ} {shown : σ → β} {s t : σ} {a : α} {acts : List α}

theorem alike_nil : Alike step shown s t [] ↔ shown t = shown s := by
  refine ⟨fun alike => alike [] List.nil_prefix, fun same earlier before => ?_⟩
  rw [List.prefix_nil.1 before]
  exact same

theorem alike_cons : Alike step shown s t (a :: acts) ↔
    shown t = shown s ∧ Alike step shown (step s a) (step t a) acts := by
  constructor
  · intro alike
    refine ⟨alike [] List.nil_prefix, fun earlier before => ?_⟩
    exact alike (a :: earlier) (List.cons_prefix_cons.2 ⟨rfl, before⟩)
  · rintro ⟨now, later⟩ earlier before
    cases earlier with
    | nil => exact now
    | cons b earlier =>
      obtain ⟨rfl, within⟩ := List.cons_prefix_cons.1 before
      exact later earlier within

theorem Alike.refl (s : σ) (acts : List α) : Alike step shown s s acts := fun _ _ => rfl

end

/-! ## Monitors -/

namespace Monitor.History

variable {h : History} {u : Tracker} {a : Act} {acts : List Act}

/-- What is to be seen of a history: the status, the notices that wait, those that have been
delivered, and the time. -/
def shown (h : History) : LayerStatus × List LayerStatus × List LayerStatus × Time :=
  (h.monitor.tracker.status, h.monitor.tracker.notices, h.delivered, h.monitor.now)

/-- A call that ends what was counted, or the counting. -/
def isCall : Act → Bool
  | .setPaused _ | .reset | .stop => true
  | _ => false

/-- The packets in the cycle that is judged by an act. -/
def judgedCount (h : History) : Act → List Nat
  | .cycleEnd task => (h.monitor.judgement task).map fun _ => h.monitor.tracker.count
  | _ => []

/-- The packets in each cycle that is judged before the next call. -/
def counts (h : History) : List Act → List Nat
  | [] => []
  | a :: acts => if isCall a then [] else h.judgedCount a ++ (h.perform a).counts acts

/-- The history with another tracker. -/
def withTracker (h : History) (u : Tracker) : History :=
  h.onMonitor fun m => { m with tracker := u }

theorem shown_withTracker (l : h.monitor.tracker.Lags u) : (h.withTracker u).shown = h.shown := by
  obtain ⟨status, notices, -⟩ := l.shows
  show (u.status, u.notices, h.delivered, h.monitor.now) = _
  rw [status, notices]
  rfl

/-! ### One act -/

section

variable {task : Nat} {v : Timer Nat}

theorem perform_cycleEnd (place : h.monitor.timers[task]? = some v) :
    h.perform (.cycleEnd task) = { h with
      monitor := { h.monitor with
        timers :=
          if h.monitor.tracker.isCurrent v.key then h.monitor.timers.eraseIdx task ++ [v.again]
          else h.monitor.timers.eraseIdx task
        tracker := h.monitor.tracker.cycleEnd v.key }
      judged :=
        h.judged ++ if h.monitor.tracker.judges v.key then [(v.key, v.deadline)] else [] } := by
  rw [perform, endCycle_of_some place, judgement, place]

theorem perform_cycleEnd_of_none (place : h.monitor.timers[task]? = none) :
    h.perform (.cycleEnd task) = h := by
  rw [perform, endCycle_of_none place, judgement_of_none place, List.append_nil]

theorem judgedCount_cycleEnd (place : h.monitor.timers[task]? = some v) :
    h.judgedCount (.cycleEnd task) =
      if h.monitor.tracker.judges v.key then [h.monitor.tracker.count] else [] := by
  rw [judgedCount, judgement, place]
  dsimp only
  split <;> rfl

theorem judgedCount_cycleEnd_of_none (place : h.monitor.timers[task]? = none) :
    h.judgedCount (.cycleEnd task) = [] := by
  rw [judgedCount, judgement_of_none place]
  rfl

end

/-- What happens to both histories is the same, but for the tracker. -/
theorem perform_withTracker (l : h.monitor.tracker.Lags u) (a : Act) :
    (h.withTracker u).perform a =
      (h.perform a).withTracker ((h.withTracker u).perform a).monitor.tracker := by
  obtain ⟨-, notices, starts, generation, judges⟩ := l.shows
  cases a with
  | observe number =>
    simp only [perform, withTracker, onMonitor, Monitor.observe, starts, generation]
  | cycleEnd task =>
    cases place : h.monitor.timers[task]? with
    | none =>
      rw [perform_cycleEnd_of_none place, perform_cycleEnd_of_none (h := h.withTracker u) place]
      rfl
    | some v =>
      have current : u.isCurrent v.key = h.monitor.tracker.isCurrent v.key := by
        rw [Tracker.isCurrent, generation, Tracker.isCurrent]
      rw [perform_cycleEnd place, perform_cycleEnd (h := h.withTracker u) place]
      simp only [withTracker, onMonitor, judges, current]
  | deliver =>
    simp only [perform, withTracker, onMonitor, Monitor.deliver, Tracker.deliver, notices]
  | _ => rfl

theorem passes_perform (l : h.monitor.tracker.Lags u) (a : Act)
    (alike : h.judgedCount a ≠ [] → u.verdict = h.monitor.tracker.verdict) :
    h.monitor.tracker.Passes u (h.perform a).monitor.tracker
      ((h.withTracker u).perform a).monitor.tracker (isCall a) (h.judgedCount a) := by
  cases a with
  | observe number => exact l.observe number
  | setPaused paused => exact l.setPaused paused
  | reset => exact l.reset
  | stop => exact l.stop
  | pass nanos => exact .refl l
  | deliver => exact l.deliver
  | cycleEnd task =>
    cases place : h.monitor.timers[task]? with
    | none =>
      rw [perform_cycleEnd_of_none place, judgedCount_cycleEnd_of_none place,
        perform_cycleEnd_of_none (h := h.withTracker u) place]
      exact .refl l
    | some v =>
      rw [judgedCount_cycleEnd place] at alike ⊢
      rw [perform_cycleEnd place, perform_cycleEnd (h := h.withTracker u) place]
      refine l.cycleEnd v.key fun judges => alike ?_
      rw [judges, if_pos rfl]
      exact List.cons_ne_nil _ _

/-- If a cycle is judged differently, that had to come, and it shows. -/
theorem differs (l : h.monitor.tracker.Lags u) (judged : h.judgedCount a ≠ [])
    (other : u.verdict ≠ h.monitor.tracker.verdict) :
    ((h.withTracker u).perform a).shown ≠ (h.perform a).shown ∧ isCall a = false ∧
      ∀ counts, h.monitor.tracker.Doomed u (h.judgedCount a ++ counts) := by
  cases a with
  | cycleEnd task =>
    cases place : h.monitor.timers[task]? with
    | none => exact absurd (judgedCount_cycleEnd_of_none place) judged
    | some v =>
      rw [judgedCount_cycleEnd place] at judged ⊢
      have judges : h.monitor.tracker.judges v.key = true := by simpa using judged
      rw [judges]
      refine ⟨fun same => other ?_, rfl, fun counts => l.doomed_of_verdict_ne judges other⟩
      have status : ((h.withTracker u).perform (.cycleEnd task)).monitor.tracker.status =
          (h.perform (.cycleEnd task)).monitor.tracker.status := congrArg Prod.fst same
      rw [perform_cycleEnd place, perform_cycleEnd (h := h.withTracker u) place] at status
      exact (l.status_cycleEnd judges).1.symm.trans (status.trans (l.status_cycleEnd judges).2)
  | _ => exact absurd rfl judged

/-- Of two histories with trackers of which one lags, the two show the same at all times if and only
if that one is not doomed to judge differently. -/
theorem alike_iff (l : h.monitor.tracker.Lags u) :
    Alike perform shown h (h.withTracker u) acts ↔ ¬h.monitor.tracker.Doomed u (h.counts acts) := by
  induction acts generalizing h u with
  | nil => exact iff_of_true (alike_nil.2 (shown_withTracker l)) (Tracker.not_doomed_nil l)
  | cons a acts ih =>
    rw [alike_cons, and_iff_right (shown_withTracker l), counts]
    by_cases alike : h.judgedCount a ≠ [] → u.verdict = h.monitor.tracker.verdict
    · have passes := passes_perform l a alike
      rw [perform_withTracker l a, ih passes.lags, passes.doomed_iff]
      cases isCall a with
      | true =>
        exact iff_of_true (fun doomed => Bool.noConfusion doomed.1) (Tracker.not_doomed_nil l)
      | false => rw [if_neg Bool.false_ne_true, and_iff_right rfl]
    · obtain ⟨judged, other⟩ := Classical.not_imp.1 alike
      obtain ⟨shows, call, doomed⟩ := differs l judged other
      rw [call, if_neg Bool.false_ne_true]
      exact iff_of_false (fun alike => shows (alike [] List.nil_prefix))
        (not_not_intro (doomed _))

end Monitor.History
/-! ## Watches -/

namespace LayerWatch

variable {w v : LayerWatch} {x y x' y' : Option Watched} {i j : LayerIndex} {call : Bool}
  {judged : List Nat}

/-- What is to be seen of a watch: the status of each layer, the notices that wait, the layers that
flow, what has been announced, and the time. -/
def shown (w : LayerWatch) : (LayerIndex → Option LayerStatus) × List (LayerIndex × LayerStatus) ×
    List Int × List (List Int) × Time :=
  (w.status?, w.pending, w.available, w.announcements, w.now)

/-- A call that ends what was counted for a layer, or the counting, or puts another tracker in
place. -/
def isCall (w : LayerWatch) (i : LayerIndex) : Act → Bool
  | .setPaused _ | .stop => true
  | .addTracker layer | .removeTracker layer => layerIndex? layer = some i
  | .setMaxExpected layer => (w.newlyExpected layer).contains i
  | _ => false

/-- The packets of a layer in the cycle that is judged by an act. -/
def judgedCount (w : LayerWatch) (i : LayerIndex) : Act → List Nat
  | .cycleEnd task =>
    match w.timers[task]? with
    | none => []
    | some timer =>
      match w.tracker? timer.key.1 with
      | none => []
      | some t => if i = timer.key.1.layer ∧ t.judges timer.key.2 then [t.count] else []
  | _ => []

/-- The packets of a layer in each cycle that is judged before the next call. -/
def counts (w : LayerWatch) (i : LayerIndex) : List Act → List Nat
  | [] => []
  | a :: acts => if w.isCall i a then [] else w.judgedCount i a ++ (w.perform a).counts i acts

/-! ### One layer -/

/-- The second tracker lags behind the first, or there is none in either place. -/
inductive LagsAt : Option Watched → Option Watched → Prop
  | none : LagsAt none none
  | some {serial : Nat} {t u : Tracker} (lags : t.Lags u) :
    LagsAt (some ⟨serial, t⟩) (some ⟨serial, u⟩)

/-- There are two trackers, and they will differ in their verdicts. -/
def DoomedAt : Option Watched → Option Watched → List Nat → Prop
  | some x, some y, counts => x.tracker.Doomed y.tracker counts
  | _, _, _ => False

/-- What a step does to two trackers in their places. -/
structure PassesAt (x y x' y' : Option Watched) (call : Bool) (judged : List Nat) : Prop where
  lags : LagsAt x' y'
  doomed_iff : ∀ counts, DoomedAt x' y' counts ↔ call = false ∧ DoomedAt x y (judged ++ counts)

theorem LagsAt.not_doomed_nil (l : LagsAt x y) : ¬DoomedAt x y [] := by
  cases l with
  | none => exact id
  | some lags => exact Tracker.not_doomed_nil lags

theorem LagsAt.status (l : LagsAt x y) :
    (y.map fun x => x.tracker.status) = x.map fun x => x.tracker.status := by
  cases l with
  | none => rfl
  | some lags => exact congrArg Option.some lags.shows.1

theorem PassesAt.refl (l : LagsAt x y) : PassesAt x y x y false [] where
  lags := l
  doomed_iff _ := (and_iff_right rfl).symm

theorem PassesAt.none (call : Bool) (judged : List Nat) :
    PassesAt none none none none call judged where
  lags := .none
  doomed_iff _ := (and_iff_right_of_imp False.elim).symm

theorem PassesAt.of_same (l : LagsAt x' x') (judged : List Nat) :
    PassesAt x y x' x' true judged where
  lags := l
  doomed_iff counts := by
    refine iff_of_false (fun doomed => ?_) fun after => Bool.noConfusion after.1
    cases l with
    | none => exact doomed
    | some lags => exact Tracker.not_doomed_self lags.climbs doomed

/-! ### All layers -/

/-- Two watches that are the same, but for trackers that lag. -/
structure Behind (w v : LayerWatch) : Prop where
  rest : v = { w with trackers := v.trackers }
  lags : ∀ i, LagsAt (w.trackers.get i) (v.trackers.get i)

/-- What an act does to both. -/
structure Carried (w v w' v' : LayerWatch) (call : LayerIndex → Bool)
    (judged : LayerIndex → List Nat) : Prop where
  rest : v' = { w' with trackers := v'.trackers }
  passes : ∀ i, PassesAt (w.trackers.get i) (v.trackers.get i) (w'.trackers.get i)
    (v'.trackers.get i) (call i) (judged i)

theorem Behind.shown (b : Behind w v) : v.shown = w.shown := by
  have statuses : v.status? = w.status? := funext fun i => (b.lags i).status
  rw [LayerWatch.shown, LayerWatch.shown, statuses, b.rest]

theorem Carried.behind {w' v' : LayerWatch} {call : LayerIndex → Bool}
    {judged : LayerIndex → List Nat} (c : Carried w v w' v' call judged) : Behind w' v' where
  rest := c.rest
  lags i := (c.passes i).lags

theorem Carried.refl (b : Behind w v) : Carried w v w v (fun _ => false) fun _ => [] where
  rest := b.rest
  passes i := .refl (b.lags i)

theorem Carried.trans {w' v' w'' v'' : LayerWatch} {call call' : LayerIndex → Bool}
    {judged judged' : LayerIndex → List Nat} (c : Carried w v w' v' call judged)
    (c' : Carried w' v' w'' v'' call' judged') :
    Carried w v w'' v'' (fun i => call i || call' i) fun i => judged i ++ judged' i where
  rest := c'.rest
  passes i := by
    refine ⟨(c'.passes i).lags, fun counts => ?_⟩
    rw [(c'.passes i).doomed_iff, (c.passes i).doomed_iff, Bool.or_eq_false_iff, List.append_assoc,
      and_left_comm, and_assoc]

/-- What concerns no tracker. -/
structure Aside (f : LayerWatch → LayerWatch) : Prop where
  keeps : ∀ w, (f w).trackers = w.trackers
  apart : ∀ w trackers, f { w with trackers } = { f w with trackers }

theorem Carried.aside {f : LayerWatch → LayerWatch} (h : Aside f) {w' v' : LayerWatch}
    {call : LayerIndex → Bool} {judged : LayerIndex → List Nat}
    (c : Carried w v w' v' call judged) : Carried w v (f w') (f v') call judged where
  rest := by
    rw [h.keeps, ← h.apart, ← c.rest]
  passes i := by
    rw [h.keeps, h.keeps]
    exact c.passes i

/-! ### Acts -/

theorem Behind.modify (b : Behind w v) (j : LayerIndex) {change : Tracker → Tracker}
    {call : LayerIndex → Bool} {judged : LayerIndex → List Nat}
    (others : ∀ i, i ≠ j → call i = false ∧ judged i = [])
    (step : ∀ serial t u, w.trackers.get j = some ⟨serial, t⟩ →
      v.trackers.get j = some ⟨serial, u⟩ → t.Lags u →
        t.Passes u (change t) (change u) (call j) (judged j)) :
    Carried w v (w.modify j change) (v.modify j change) call judged := by
  have apart (i : LayerIndex) (other : i ≠ j) : PassesAt (w.trackers.get i) (v.trackers.get i)
      ((w.modify j change).trackers.get i) ((v.modify j change).trackers.get i) (call i)
      (judged i) := by
    obtain ⟨call, judged⟩ := others i other
    rw [get_modify_of_ne other.symm, get_modify_of_ne other.symm, call, judged]
    exact .refl (b.lags i)
  generalize hx : w.trackers.get j = x at step
  generalize hy : v.trackers.get j = y at step
  have l := b.lags j
  rw [hx, hy] at l
  cases l with
  | none =>
    rw [modify_of_none hx, modify_of_none hy] at apart ⊢
    refine ⟨b.rest, fun i => ?_⟩
    by_cases here : i = j
    · rw [here, hx, hy]
      exact .none _ _
    · exact apart i here
  | @some serial t u lags =>
    have passes := (step serial t u rfl rfl lags).deliver
    have notices : (change u).notices = (change t).notices :=
      (step serial t u rfl rfl lags).lags.shows.2.1
    constructor
    case rest =>
      rw [modify_of_some hx, modify_of_some hy, notices, b.rest]
    case passes =>
      intro i
      by_cases here : i = j
      · rw [here, get_modify_self hx, get_modify_self hy, hx, hy]
        exact ⟨.some passes.lags, passes.doomed_iff⟩
      · exact apart i here

theorem Behind.modifyAll (b : Behind w v) (layers : List LayerIndex) {change : Tracker → Tracker}
    (step : ∀ t u : Tracker, t.Lags u → t.Passes u (change t) (change u) true []) :
    Carried w v (layers.foldl (fun w i => w.modify i change) w)
      (layers.foldl (fun w i => w.modify i change) v) (fun i => layers.contains i) fun _ => [] := by
  induction layers generalizing w v with
  | nil =>
    exact .refl b
  | cons j layers ih =>
    have first : Carried w v (w.modify j change) (v.modify j change) (fun i => i == j)
        fun _ => [] :=
      b.modify j (fun i other => ⟨beq_false_of_ne other, rfl⟩) fun _ t u _ _ lags => by
        rw [beq_self_eq_true]
        exact step t u lags
    simp only [List.contains_cons]
    exact first.trans (ih first.behind)

theorem Behind.tracker? (b : Behind w v) (key : WatchKey) :
    w.tracker? key = none ∧ v.tracker? key = none ∨
      ∃ t u, w.tracker? key = some t ∧ v.tracker? key = some u ∧ t.Lags u := by
  have l := b.lags key.layer
  unfold LayerWatch.tracker?
  generalize w.trackers.get key.layer = x at l
  generalize v.trackers.get key.layer = y at l
  cases l with
  | none => exact .inl ⟨rfl, rfl⟩
  | @some serial t u lags =>
    by_cases own : serial = key.serial
    · exact .inr ⟨t, u, if_pos own, if_pos own, lags⟩
    · exact .inl ⟨if_neg own, if_neg own⟩

theorem Behind.observe (b : Behind w v) (key : WatchKey) (number : UInt16) :
    Carried w v (w.observe key number) (v.observe key number) (fun _ => false) fun _ => [] := by
  rcases b.tracker? key with ⟨none, none'⟩ | ⟨t, u, found, found', lags⟩
  · rw [observe_of_none none, observe_of_none none']
    exact .refl b
  · have same : v.timed key u = v.timed key t := by
      obtain ⟨-, -, starts, generation, -⟩ := lags.shows
      rw [timed, starts, generation, timed]
    have aside : Aside (fun w => w.timed key t) := by
      refine ⟨fun w => trackers_timed, fun w trackers => ?_⟩
      unfold timed
      split <;> rfl
    rw [observe_of_some found, observe_of_some found', same]
    have first := (Carried.refl b).aside aside
    exact first.trans (first.behind.modify key.layer (fun _ _ => ⟨rfl, rfl⟩)
      fun _ t u _ _ lags => lags.observe number)

/-- A tracker that is put in place, or taken away. -/
theorem Behind.set (b : Behind w v) (j : LayerIndex) {x : Option Watched} (same : LagsAt x x) :
    Carried w v { w with trackers := w.trackers.set j x j.lt }
      { v with trackers := v.trackers.set j x j.lt } (fun i => j = i) fun _ => [] where
  rest := by rw [b.rest]
  passes i := by
    rw [get_set, get_set]
    by_cases here : j = i
    · rw [if_pos here, if_pos here, decide_eq_true here]
      exact .of_same same _
    · rw [if_neg here, if_neg here, decide_eq_false here]
      exact .refl (b.lags i)

section

variable {task : Nat} {timer : Timer (WatchKey × Nat)}

theorem judgedCount_of_none (place : w.timers[task]? = none) (i : LayerIndex) :
    w.judgedCount i (.cycleEnd task) = [] := by
  rw [judgedCount, place]

theorem judgedCount_of_lost (place : w.timers[task]? = some timer)
    (lost : w.tracker? timer.key.1 = none) (i : LayerIndex) :
    w.judgedCount i (.cycleEnd task) = [] := by
  rw [judgedCount, place]
  dsimp only
  rw [lost]

theorem judgedCount_of_found {t : Tracker} (place : w.timers[task]? = some timer)
    (found : w.tracker? timer.key.1 = some t) (i : LayerIndex) :
    w.judgedCount i (.cycleEnd task) =
      if i = timer.key.1.layer ∧ t.judges timer.key.2 then [t.count] else [] := by
  rw [judgedCount, place]
  dsimp only
  rw [found]

theorem status?_endCycle {t : Tracker} (place : w.timers[task]? = some timer)
    (found : w.tracker? timer.key.1 = some t) :
    (w.endCycle task).status? timer.key.1.layer = some (t.cycleEnd timer.key.2).status := by
  rw [endCycle_of_some place, judge_of_some found]
  exact status?_modify_self (tracker?_eq_some_iff.1 found)

theorem Behind.cycleEnd (b : Behind w v) (task : Nat)
    (alike : ∀ i serial t u, w.trackers.get i = some ⟨serial, t⟩ →
      v.trackers.get i = some ⟨serial, u⟩ → w.judgedCount i (.cycleEnd task) ≠ [] →
        u.verdict = t.verdict) :
    Carried w v (w.endCycle task) (v.endCycle task) (fun _ => false)
      fun i => w.judgedCount i (.cycleEnd task) := by
  have timers : v.timers = w.timers := by rw [b.rest]
  have retimed (timers : Timers (WatchKey × Nat)) : Aside fun w => { w with timers } :=
    ⟨fun _ => rfl, fun _ _ => rfl⟩
  cases place : w.timers[task]? with
  | none =>
    rw [endCycle_of_none place, endCycle_of_none (timers ▸ place)]
    simp only [judgedCount_of_none place]
    exact .refl b
  | some timer =>
    rw [endCycle_of_some place, endCycle_of_some (timers ▸ place), timers]
    rcases b.tracker? timer.key.1 with ⟨lost, lost'⟩ | ⟨t, u, found, found', lags⟩
    · rw [judge_of_none lost, judge_of_none lost']
      simp only [judgedCount_of_lost place lost]
      exact (Carried.refl b).aside (retimed _)
    · have current : u.isCurrent timer.key.2 = t.isCurrent timer.key.2 := by
        rw [Tracker.isCurrent, lags.shows.2.2.2.1, Tracker.isCurrent]
      have count := judgedCount_of_found place found
      rw [judge_of_some found, judge_of_some found', current]
      refine Carried.aside (retimed _) ?_
      show Carried w v (w.modify timer.key.1.layer fun t => t.cycleEnd timer.key.2)
        (v.modify timer.key.1.layer fun t => t.cycleEnd timer.key.2) _ _
      refine b.modify timer.key.1.layer (fun i other => ⟨rfl, ?_⟩) ?_
      · rw [count, if_neg fun both => other both.1]
      · intro serial t' u' here here' lags'
        cases here.symm.trans (tracker?_eq_some_iff.1 found)
        cases here'.symm.trans (tracker?_eq_some_iff.1 found')
        have own : w.judgedCount timer.key.1.layer (.cycleEnd task) =
            if t.judges timer.key.2 then [t.count] else [] := by
          simp only [count, true_and]
        rw [own]
        refine lags.cycleEnd timer.key.2 fun judges => ?_
        refine alike _ _ t u here here' ?_
        rw [own, judges, if_pos rfl]
        exact List.cons_ne_nil _ _

end

theorem Behind.perform (b : Behind w v) (a : Act)
    (alike : ∀ i serial t u, w.trackers.get i = some ⟨serial, t⟩ →
      v.trackers.get i = some ⟨serial, u⟩ → w.judgedCount i a ≠ [] → u.verdict = t.verdict) :
    Carried w v (w.perform a) (v.perform a) (fun i => w.isCall i a) fun i => w.judgedCount i a := by
  cases a with
  | addTracker layer =>
    have calls (i : LayerIndex) :
        w.isCall i (.addTracker layer) = decide (layerIndex? layer = some i) := rfl
    obtain ⟨trackers, rfl⟩ : ∃ trackers, v = { w with trackers } := ⟨_, b.rest⟩
    show Carried w _ (w.addTracker layer).1 (LayerWatch.addTracker _ layer).1 _ _
    simp only [calls, LayerWatch.addTracker]
    cases layerIndex? layer with
    | none =>
      simp only [reduceCtorEq, decide_false]
      exact .refl b
    | some j =>
      have fresh : LagsAt (some ⟨w.nextSerial, { thresholds := w.settings.thresholdsFor layer }⟩)
          (some ⟨w.nextSerial, { thresholds := w.settings.thresholdsFor layer }⟩) :=
        .some (.refl (Tracker.climbs_of_blank rfl))
      have given : Aside fun v => { v with nextSerial := w.nextSerial + 1 } :=
        ⟨fun _ => rfl, fun _ _ => rfl⟩
      simp only [Option.some.injEq]
      exact (b.set j fresh).aside given
  | removeTracker layer =>
    have calls (i : LayerIndex) :
        w.isCall i (.removeTracker layer) = decide (layerIndex? layer = some i) := rfl
    show Carried w v (w.removeTracker layer) (v.removeTracker layer) _ _
    simp only [calls, LayerWatch.removeTracker]
    cases layerIndex? layer with
    | none =>
      simp only [reduceCtorEq, decide_false]
      exact .refl b
    | some j =>
      simp only [Option.some.injEq]
      exact b.set j .none
  | observe key number => exact b.observe key number
  | setPaused paused =>
    have all := b.modifyAll (List.finRange 3) fun t u lags => lags.setPaused paused
    simp only [List.contains_iff_mem.2 (List.mem_finRange _)] at all
    exact all
  | setMaxExpected layer =>
    have expected : v.newlyExpected layer = w.newlyExpected layer := by
      rw [b.rest]
      rfl
    have raised : Aside fun w => { w with maxExpected := layer } := ⟨fun _ => rfl, fun _ _ => rfl⟩
    have resets := b.modifyAll (w.newlyExpected layer) fun t u lags => lags.reset
    show Carried w v _ { (v.newlyExpected layer).foldl _ v with maxExpected := layer } _ _
    rw [expected]
    exact resets.aside raised
  | addAvailable layer =>
    have aside : Aside fun w => w.addAvailable layer := by
      refine ⟨fun w => ?_, fun w trackers => ?_⟩
      all_goals
        unfold addAvailable
        split <;> rfl
    exact (Carried.refl b).aside aside
  | removeAvailable layer =>
    have aside : Aside fun w => w.removeAvailable layer := by
      refine ⟨fun w => ?_, fun w trackers => ?_⟩
      all_goals
        unfold removeAvailable
        split <;> rfl
    exact (Carried.refl b).aside aside
  | stop =>
    have rest : v.stop = { w.stop with trackers := v.stop.trackers } := by
      rw [LayerWatch.stop, b.rest]
      rfl
    refine ⟨rest, fun i => ?_⟩
    have none (w : LayerWatch) : w.stop.trackers.get i = none := Vector.getElem_replicate _
    show PassesAt _ _ (w.stop.trackers.get i) (v.stop.trackers.get i) true []
    rw [none, none]
    exact .of_same .none _
  | cycleEnd task => exact b.cycleEnd task alike
  | pass nanos =>
    have later : Aside fun w => { w with now := w.now + nanos } := ⟨fun _ => rfl, fun _ _ => rfl⟩
    exact (Carried.refl b).aside later
  | deliver place =>
    have aside : Aside fun w => w.deliverAt place := by
      refine ⟨fun w => ?_, fun w trackers => ?_⟩
      · cases waiting : w.pending[place]? with
        | none => rw [deliverAt_of_none waiting]
        | some n => rw [deliverAt_of_some waiting, notice_eq]
      · cases waiting : w.pending[place]? with
        | none =>
          rw [deliverAt_of_none waiting, deliverAt_of_none (w := { w with trackers }) waiting]
        | some n =>
          rw [deliverAt_of_some waiting, deliverAt_of_some (w := { w with trackers }) waiting,
            notice_eq, notice_eq]
    exact (Carried.refl b).aside aside

/-- If a cycle is judged differently, that had to come, and it shows. -/
theorem Behind.differs (b : Behind w v) {a : Act} {serial : Nat} {t u : Tracker}
    (here : w.trackers.get i = some ⟨serial, t⟩) (here' : v.trackers.get i = some ⟨serial, u⟩)
    (judged : w.judgedCount i a ≠ []) (other : u.verdict ≠ t.verdict) :
    (v.perform a).shown ≠ (w.perform a).shown ∧ w.isCall i a = false ∧
      ∀ counts, DoomedAt (some ⟨serial, t⟩) (some ⟨serial, u⟩) (w.judgedCount i a ++ counts) := by
  cases a with
  | cycleEnd task =>
    have timers : v.timers = w.timers := by rw [b.rest]
    cases place : w.timers[task]? with
    | none => exact absurd (judgedCount_of_none place i) judged
    | some timer =>
      rcases b.tracker? timer.key.1 with ⟨lost, -⟩ | ⟨t', u', found, found', lags⟩
      · exact absurd (judgedCount_of_lost place lost i) judged
      rw [judgedCount_of_found place found] at judged ⊢
      have both : i = timer.key.1.layer ∧ t'.judges timer.key.2 = true := by simpa using judged
      obtain ⟨rfl, judges⟩ := both
      cases here.symm.trans (tracker?_eq_some_iff.1 found)
      cases here'.symm.trans (tracker?_eq_some_iff.1 found')
      refine ⟨fun same => other ?_, rfl, fun counts => ?_⟩
      · have status : (v.endCycle task).status? timer.key.1.layer =
            (w.endCycle task).status? timer.key.1.layer := congrFun (congrArg Prod.fst same) _
        rw [status?_endCycle place found, status?_endCycle (timers ▸ place) found',
          Option.some.injEq, (lags.status_cycleEnd judges).1, (lags.status_cycleEnd judges).2]
          at status
        exact status
      · rw [if_pos ⟨rfl, judges⟩]
        exact lags.doomed_of_verdict_ne judges other
  | _ => exact absurd rfl judged

variable {acts : List Act}

/-- Two watches of which the trackers of one lag show the same at all times if and only if none of
these is doomed to judge differently. -/
theorem alike_iff (b : Behind w v) :
    Alike perform shown w v acts ↔
      ∀ i, ¬DoomedAt (w.trackers.get i) (v.trackers.get i) (w.counts i acts) := by
  induction acts generalizing w v with
  | nil => exact iff_of_true (alike_nil.2 b.shown) fun i => (b.lags i).not_doomed_nil
  | cons a acts ih =>
    rw [alike_cons, and_iff_right b.shown]
    by_cases alike : ∀ i serial t u, w.trackers.get i = some ⟨serial, t⟩ →
        v.trackers.get i = some ⟨serial, u⟩ → w.judgedCount i a ≠ [] → u.verdict = t.verdict
    · have carried := b.perform a alike
      rw [ih carried.behind]
      refine forall_congr' fun i => ?_
      rw [(carried.passes i).doomed_iff, counts]
      cases w.isCall i a with
      | true =>
        exact iff_of_true (fun doomed => Bool.noConfusion doomed.1) (b.lags i).not_doomed_nil
      | false => rw [if_neg Bool.false_ne_true, and_iff_right rfl]
    · simp only [not_forall] at alike
      obtain ⟨i, serial, t, u, here, here', judged, other⟩ := alike
      obtain ⟨shows, call, doomed⟩ := b.differs here here' judged other
      refine iff_of_false (fun alike => shows (alike [] List.nil_prefix)) fun fine => fine i ?_
      rw [here, here', counts, call, if_neg Bool.false_ne_true]
      exact doomed _

end LayerWatch
end Simulcast
