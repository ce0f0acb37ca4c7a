import Simulcast.Proofs.Liveness.Lockstep

/-!
# Pausing again

To pause a tracker that is paused changes nothing. To resume one that is not paused forgets what
was counted in the cycle under way, and the good cycles in a row (`setPaused_again`): the tracker
lags behind the one that was left alone. By what is known of runs side by side, such a call goes
unnoticed if and only if the cycles to come are judged alike nevertheless
(`pausedAgain_unnoticed_iff`), for one tracker, and for a watch with all its trackers.
`resumedAgain_stops` is a layer that is declared stopped while its packets come in.
-/

namespace Simulcast

namespace Tracker

variable {t : Tracker} {counts : List Nat}

theorem setPaused_again {paused : Bool} (h : t.paused = paused) :
    t.setPaused paused = if paused then t else t.recount 0 0 := by
  unfold setPaused recount
  cases paused with
  | true =>
    rw [if_pos rfl, if_pos rfl, ← h]
  | false =>
    rw [if_neg Bool.false_ne_true, if_neg Bool.false_ne_true, h]

/-- A tracker that forgets all that it has counted lags behind itself. -/
theorem lags_forgetful {tasks : List Nat} (climbs : t.Climbs) (sound : t.Sound tasks) :
    t.Lags (t.recount 0 0) where
  same := rfl
  count_le := Nat.zero_le _
  good_le := Nat.zero_le _
  climbs
  started starts := by
    obtain ⟨-, count, goodCycles⟩ := sound.blank (of_starts starts).2.1
    have same : t.recount t.count t.goodCycles = t := rfl
    rwa [count, goodCycles] at same

theorem doomed_forgetful (running : (t.paused || t.ended) = false) :
    t.Doomed (t.recount 0 0) counts ↔ t.Deprived t.count 0 counts := and_iff_right running

end Tracker

namespace Monitor.History

variable {h : History}

theorem climbs_run (climbs : h.monitor.tracker.Climbs) (acts : List Act) :
    (h.run acts).monitor.tracker.Climbs := by
  induction acts generalizing h with
  | nil => exact climbs
  | cons a acts ih => exact ih (passes_perform (.refl climbs) a fun _ => rfl).lags.climbs

theorem judgedCount_of_ended (ended : h.monitor.tracker.ended = true) (a : Act) :
    h.judgedCount a = [] := by
  cases a with
  | cycleEnd task =>
    cases place : h.monitor.timers[task]? with
    | none => exact judgedCount_cycleEnd_of_none place
    | some v =>
      have idle : h.monitor.tracker.judges v.key = false := by
        rw [Tracker.judges, ended, Bool.not_true, Bool.and_false]
      rw [judgedCount_cycleEnd place, idle, if_neg Bool.false_ne_true]
  | _ => rfl

/-- A tracker that has ended judges nothing. -/
theorem counts_of_ended (ended : h.monitor.tracker.ended = true) (acts : List Act) :
    h.counts acts = [] := by
  induction acts generalizing h with
  | nil => rfl
  | cons a acts ih =>
    rw [counts, judgedCount_of_ended ended, ih (perform_of_ended ended a).1, List.append_nil,
      ite_self]

/-- The call that is made again goes unnoticed if no cycle is judged differently. -/
theorem Kept.setPaused_again (k : h.Kept) (climbs : h.monitor.tracker.Climbs) {paused : Bool}
    (again : h.monitor.tracker.paused = paused) (acts : List Act) :
    Alike History.perform shown h (h.perform (.setPaused paused)) acts ↔
      paused = true ∨
        ¬h.monitor.tracker.Deprived h.monitor.tracker.count 0 (h.counts acts) := by
  have call : h.perform (.setPaused paused) =
      h.withTracker (h.monitor.tracker.setPaused paused) := rfl
  rw [call, Tracker.setPaused_again again]
  cases paused with
  | true => exact iff_of_true (.refl h acts) (.inl rfl)
  | false =>
    rw [if_neg Bool.false_ne_true, or_iff_right Bool.false_ne_true,
      alike_iff (Tracker.lags_forgetful climbs k.tasked.sound)]
    cases ended : h.monitor.tracker.ended with
    | true =>
      rw [counts_of_ended ended]
      exact iff_of_true (fun doomed => Tracker.not_deprived_nil climbs doomed.2)
        (Tracker.not_deprived_nil climbs)
    | false => rw [Tracker.doomed_forgetful (by rw [again, ended]; rfl)]

end Monitor.History

namespace LayerWatch

variable {w : LayerWatch} {change : Tracker → Tracker}

/-- The watch with each tracker at its place changed, and no notice. -/
def onTrackers (w : LayerWatch) (change : Tracker → Tracker) : LayerWatch :=
  { w with trackers := w.trackers.map fun x => x.map fun x =>
      { x with tracker := change x.tracker } }

theorem get_onTrackers (w : LayerWatch) (change : Tracker → Tracker) (i : LayerIndex) :
    (w.onTrackers change).trackers.get i =
      (w.trackers.get i).map fun x => { x with tracker := change x.tracker } :=
  Vector.getElem_map _ i.isLt

/-- A change that gives no notice. -/
theorem modify_silent (d : w.Delivered) (silent : ∀ t, (change t).notices = t.notices)
    (j : LayerIndex) : w.modify j change = { w with
      trackers := w.trackers.set j ((w.trackers.get j).map fun x =>
        { x with tracker := change x.tracker }) j.lt } := by
  cases h : w.trackers.get j with
  | none =>
    rw [modify_of_none h, Option.map_none, ← h]
    exact congrArg (fun trackers => { w with trackers }) (Vector.set_getElem_self _).symm
  | some x =>
    have none : (change x.tracker).notices = [] := (silent _).trans (d j x h)
    have same : (change x.tracker).deliver.1 = change x.tracker := by
      rw [Tracker.deliver, ← none]
    rw [modify_of_some h, none, List.map_nil, List.append_nil, same, Option.map_some]

theorem modifyAll_silent (d : w.Delivered) (silent : ∀ t, (change t).notices = t.notices) :
    (List.finRange 3).foldl (fun w i => w.modify i change) w = w.onTrackers change := by
  have order : List.finRange 3 = [0, 1, 2] := rfl
  have first := d.modify 0 change
  rw [order, List.foldl_cons, List.foldl_cons, List.foldl_cons, List.foldl_nil,
    modify_silent (first.modify 1 change) silent, modify_silent first silent,
    modify_silent d silent]
  refine congrArg (fun trackers => { w with trackers }) (Vector.ext fun n small => ?_)
  show Vector.get _ (⟨n, small⟩ : LayerIndex) = (w.onTrackers change).trackers.get ⟨n, small⟩
  generalize (⟨n, small⟩ : LayerIndex) = i
  simp only [get_onTrackers, get_set]
  match i with
  | 0 => rfl
  | 1 => rfl
  | 2 => rfl

/-- A call that is made again, to a watch. -/
theorem setPaused_again {paused : Bool} (d : w.Delivered)
    (again : ∀ i, ∀ x ∈ w.trackers.get i, x.tracker.paused = paused) :
    w.setPaused paused = if paused then w else w.onTrackers fun t => t.recount 0 0 := by
  have silent (t : Tracker) : (t.setPaused paused).notices = t.notices := by
    unfold Tracker.setPaused
    split <;> rfl
  have each (n : Nat) (small : n < 3) : w.trackers[n].map (fun x =>
      { x with tracker := x.tracker.setPaused paused }) = w.trackers[n].map fun x =>
        { x with tracker := if paused then x.tracker else x.tracker.recount 0 0 } :=
    Option.map_congr fun x here => by rw [Tracker.setPaused_again (again ⟨n, small⟩ x here)]
  rw [setPaused, modifyAll_silent d silent]
  cases paused with
  | true =>
    refine congrArg (fun trackers => { w with trackers }) (Vector.ext fun n small => ?_)
    rw [Vector.getElem_map, each n small]
    exact Option.map_id'
  | false =>
    refine congrArg (fun trackers => { w with trackers }) (Vector.ext fun n small => ?_)
    rw [Vector.getElem_map, Vector.getElem_map, each n small]
    rfl

theorem behind_new (settings : WatchSettings) : Behind { settings } { settings } := by
  refine ⟨rfl, fun i => ?_⟩
  have none : (Vector.replicate 3 none : Vector (Option Watched) 3).get i = none :=
    Vector.getElem_replicate _
  rw [none]
  exact .none

theorem behind_run (b : Behind w w) (acts : List Act) : Behind (w.run acts) (w.run acts) := by
  induction acts generalizing w with
  | nil => exact b
  | cons a acts ih =>
    refine ih (b.perform a fun i serial t u here here' _ => ?_).behind
    cases here.symm.trans here'
    rfl

/-- A watch of which all trackers forget lags behind itself. -/
theorem Attended.behind_forgetful (s : w.Attended) (climb : Behind w w) :
    Behind w (w.onTrackers fun t => t.recount 0 0) := by
  refine ⟨rfl, fun i => ?_⟩
  have l := climb.lags i
  rw [get_onTrackers]
  cases here : w.trackers.get i with
  | none => exact .none
  | some x =>
    rw [here] at l
    cases l with
    | some lags =>
      have key := s.trackers ⟨i, _⟩ _ (tracker?_eq_some_iff.2 here)
      exact .some (Tracker.lags_forgetful lags.climbs key.sound)

/-- The same of a watch with all its trackers. -/
theorem Attended.setPaused_again (s : w.Attended) (climb : Behind w w) {paused : Bool}
    (again : ∀ i, ∀ x ∈ w.trackers.get i, x.tracker.paused = paused) (acts : List Act) :
    Alike LayerWatch.perform shown w (w.perform (.setPaused paused)) acts ↔
      paused = true ∨ ∀ i, ∀ x ∈ w.trackers.get i,
        ¬x.tracker.Deprived x.tracker.count 0 (w.counts i acts) := by
  have call : w.perform (.setPaused paused) = w.setPaused paused := rfl
  rw [call, LayerWatch.setPaused_again s.delivered again]
  cases paused with
  | true => exact iff_of_true (.refl w acts) (.inl rfl)
  | false =>
    rw [if_neg Bool.false_ne_true, or_iff_right Bool.false_ne_true]
    rw [alike_iff (s.behind_forgetful climb)]
    refine forall_congr' fun i => ?_
    rw [get_onTrackers]
    cases here : w.trackers.get i with
    | none => exact iff_of_true id nofun
    | some x =>
      have key := s.trackers ⟨i, x.serial⟩ x.tracker (tracker?_eq_some_iff.2 here)
      have running : (x.tracker.paused || x.tracker.ended) = false := by
        rw [again i x here, key.running]
        rfl
      refine (not_congr (Tracker.doomed_forgetful running)).trans ?_
      simp only [Option.mem_def, Option.some.injEq, forall_eq']

end LayerWatch

/-- To pause or to resume once more goes unnoticed if and only if it is to pause, or to resume it
makes no difference to the cycles that are judged before the next call. Otherwise packets of the
cycle under way or good cycles in a row are missing, and a layer is stopped where without the call
it is active. This is so for each tracker, and for a watch with all its trackers. -/
theorem pausedAgain_unnoticed_iff (paused : Bool) :
    (∀ (thresholds : Thresholds) (cycle : Nat) (before after : List Monitor.Act),
      let h := (Monitor.History.ofThresholds thresholds cycle).run before
      h.monitor.tracker.paused = paused →
        (Alike Monitor.History.perform Monitor.History.shown h (h.perform (.setPaused paused))
            after ↔
          paused = true ∨
            ¬h.monitor.tracker.Deprived h.monitor.tracker.count 0 (h.counts after))) ∧
    ∀ (settings : WatchSettings) (before after : List LayerWatch.Act),
      let w := LayerWatch.run { settings } before
      (∀ i, ∀ x ∈ w.trackers.get i, x.tracker.paused = paused) →
        (Alike LayerWatch.perform LayerWatch.shown w (w.perform (.setPaused paused)) after ↔
          paused = true ∨ ∀ i, ∀ x ∈ w.trackers.get i,
            ¬x.tracker.Deprived x.tracker.count 0 (w.counts i after)) := by
  constructor
  · intro thresholds cycle before after h again
    have kept : h.Kept := (Monitor.History.kept_new thresholds cycle).run before
    exact kept.setPaused_again (Monitor.History.climbs_run (Tracker.climbs_of_blank rfl) before)
      again after
  · intro settings before after w again
    have attended : w.Attended := (LayerWatch.attended_new settings).run before
    exact attended.setPaused_again (LayerWatch.behind_run (LayerWatch.behind_new settings) before)
      again after

/-- Enough packets come after the call, to a tracker and to a watch. -/
theorem resumedAgain_unnoticed :
    let h := (Monitor.History.ofThresholds ⟨1, 4⟩ 500).run [.observe 100, .observe 101]
    let w := LayerWatch.run {} [.addTracker 0, .observe ⟨0, 0⟩ 100, .observe ⟨0, 0⟩ 101]
    h.monitor.tracker.paused = false ∧
      Alike Monitor.History.perform Monitor.History.shown h (h.perform (.setPaused false))
        [.observe 102, .pass 500, .cycleEnd 0] ∧
      (∀ i, ∀ x ∈ w.trackers.get i, x.tracker.paused = false) ∧
      Alike LayerWatch.perform LayerWatch.shown w (w.perform (.setPaused false))
        [.observe ⟨0, 0⟩ 102, .cycleEnd 0] := by
  intro h w
  have resumed : ∀ i, ∀ x ∈ w.trackers.get i, x.tracker.paused = false := by decide
  obtain ⟨tracker, watch⟩ := pausedAgain_unnoticed_iff false
  exact ⟨rfl, (tracker _ _ _ _ rfl).2 (.inr (by decide)), resumed,
    (watch _ _ _ resumed).2 (.inr (by decide))⟩

/-- A packet came in the cycle, and the layer is declared stopped since its tracker was resumed once
more. -/
theorem resumedAgain_stops :
    let h := (Monitor.History.ofThresholds ⟨1, 4⟩ 500).run [.observe 100, .observe 101]
    h.monitor.tracker.paused = false ∧
      (h.run [.pass 500, .cycleEnd 0]).monitor.tracker.status = .active ∧
      ((h.perform (.setPaused false)).run [.pass 500, .cycleEnd 0]).monitor.tracker.status =
        .stopped := by decide

end Simulcast
