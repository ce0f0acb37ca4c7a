import Simulcast.Proofs.Liveness.Attendance
import Mathlib.Data.List.Chain

/-!
# Announcements of a layer watch

The list of layers that flow is written in one place (`announce`), and each time by one layer more or
less, so that what is announced is a chain of such lists that ends with the present one (`Told`).

A tracker that has been reset is not armed, and stays so until it takes note of a packet (`Unarmed`),
which makes its layer flow at once (`available_of_unarmed`). Setting the highest layer to be expected
resets none but trackers of layers that do not flow, whose notices change nothing (`Harmless`).
`availability_announced` puts it together.
-/

namespace Simulcast
namespace LayerWatch

variable {w v : LayerWatch}

/-! ## What is announced -/

/-- Two lists that differ by one layer. -/
def OneApart (ls ms : List Int) : Prop :=
  ∃ l, (l ∈ ls ↔ l ∉ ms) ∧ ∀ m, m ≠ l → (m ∈ ls ↔ m ∈ ms)

/-- What has been announced leads to the list of layers that flow, by one layer each time. -/
structure Told (w : LayerWatch) : Prop where
  ordered : w.available.Pairwise (· < ·)
  lists : ∀ ls ∈ w.announcements, ls.Pairwise (· < ·)
  chain : ([] :: w.announcements).IsChain OneApart
  newest : w.announcements.getLast?.getD [] = w.available

theorem told_new (settings : WatchSettings) : Told { settings } where
  ordered := List.Pairwise.nil
  lists ls h := by cases h
  chain := List.isChain_singleton _
  newest := rfl

theorem Told.of_eq (h : w.Told) (available : v.available = w.available)
    (announcements : v.announcements = w.announcements) : v.Told where
  ordered := available ▸ h.ordered
  lists := announcements ▸ h.lists
  chain := announcements ▸ h.chain
  newest := by rw [available, announcements, h.newest]

theorem Told.announce (h : w.Told) {ls : List Int} (ordered : ls.Pairwise (· < ·))
    (apart : OneApart w.available ls) : (w.announce ls).Told where
  ordered := ordered
  lists ms hms := by
    rcases List.mem_append.1 hms with hms | hms
    · exact h.lists ms hms
    · rw [List.mem_singleton.1 hms]
      exact ordered
  chain := by
    show ([] :: (w.announcements ++ [ls])).IsChain OneApart
    rw [← List.cons_append, List.isChain_append]
    refine ⟨h.chain, List.isChain_singleton _, fun before last next new => ?_⟩
    rw [List.getLast?_cons, h.newest] at last
    cases last
    cases new
    exact apart
  newest := by
    show (w.announcements ++ [ls]).getLast?.getD [] = ls
    rw [List.getLast?_concat]
    rfl

theorem Told.addAvailable (h : w.Told) (layer : Int) : (w.addAvailable layer).Told := by
  unfold LayerWatch.addAvailable
  split
  · exact h
  · rename_i new
    rw [List.contains_eq_mem, decide_eq_true_eq] at new
    refine h.announce (pairwise_insertLayer h.ordered new) ⟨layer, ?_, fun m other => ?_⟩
    · simp [new, mem_insertLayer]
    · simp [other, mem_insertLayer]

theorem Told.removeAvailable (h : w.Told) (layer : Int) : (w.removeAvailable layer).Told := by
  unfold LayerWatch.removeAvailable
  split
  · rename_i here
    rw [List.contains_eq_mem, decide_eq_true_eq] at here
    refine h.announce (h.ordered.filter _) ⟨layer, ?_, fun m other => ?_⟩
    · simp [here]
    · simp [other]
  · exact h

/-- A notice changes one layer at most, wherever it stood. -/
theorem Told.deliverAt (h : w.Told) (place : Nat) : (w.deliverAt place).Told := by
  cases waiting : w.pending[place]? with
  | none => rwa [deliverAt_of_none waiting]
  | some n =>
    obtain ⟨layer, status⟩ := n
    have rest : Told { w with pending := w.pending.eraseIdx place } := h.of_eq rfl rfl
    rw [deliverAt_of_some waiting]
    cases status with
    | active => exact rest.addAvailable layer.val
    | stopped => exact rest.removeAvailable layer.val

theorem waits_judge (w : LayerWatch) (key : WatchKey × Nat) : Waits w (w.judge key).1 := by
  cases found : w.tracker? key.1 with
  | none =>
    rw [judge_of_none found]
    exact ⟨rfl, rfl⟩
  | some t =>
    rw [judge_of_some found]
    exact waits_modify w key.1.layer fun t => t.cycleEnd key.2

theorem waits_endCycle (w : LayerWatch) (task : Nat) : Waits w (w.endCycle task) := by
  cases place : w.timers[task]? with
  | none =>
    rw [endCycle_of_none place]
    exact ⟨rfl, rfl⟩
  | some u =>
    obtain ⟨available, announcements⟩ := waits_judge w u.key
    rw [endCycle_of_some place]
    exact ⟨available, announcements⟩

theorem Told.perform (h : w.Told) (a : Act) : (w.perform a).Told := by
  have waiting {v : LayerWatch} (waits : Waits w v) : v.Told := h.of_eq waits.available waits.announcements
  cases a with
  | addTracker layer =>
    refine waiting ?_
    unfold LayerWatch.perform addTracker
    dsimp only
    split <;> exact ⟨rfl, rfl⟩
  | removeTracker layer =>
    refine waiting ?_
    unfold LayerWatch.perform removeTracker
    dsimp only
    split <;> exact ⟨rfl, rfl⟩
  | observe key number => exact waiting (waits_observe w key number)
  | setPaused paused => exact waiting (waits_foldl_modify _ _ w)
  | setMaxExpected layer =>
    obtain ⟨available, announcements⟩ := waits_foldl_modify Tracker.reset (w.newlyExpected layer) w
    exact waiting ⟨available, announcements⟩
  | addAvailable layer => exact h.addAvailable layer
  | removeAvailable layer => exact h.removeAvailable layer
  | stop => exact waiting ⟨rfl, rfl⟩
  | cycleEnd task => exact waiting (waits_endCycle w task)
  | pass nanos => exact waiting ⟨rfl, rfl⟩
  | deliver place => exact h.deliverAt place

theorem Told.run (h : w.Told) (acts : List Act) : (w.run acts).Told := by
  induction acts generalizing w with
  | nil => exact h
  | cons a acts ih => exact ih (h.perform a)

/-! ## Trackers that are not armed -/

variable {key : WatchKey} {t : Tracker} {change : Tracker → Tracker} {j : LayerIndex}

/-- The tracker is not armed, if it is still there. -/
structure Unarmed (key : WatchKey) (w : LayerWatch) : Prop where
  given : key.serial < w.nextSerial
  armed : ∀ t, w.tracker? key = some t → t.armed = false

theorem Unarmed.of_leaves (h : Unarmed key w) (l : Leaves w v) : Unarmed key v where
  given := l.nextSerial ▸ h.given
  armed t found := h.armed t (l.trackers key t found)

theorem Unarmed.modify (h : Unarmed key w)
    (keeps : ∀ t, key.layer = j → w.tracker? key = some t → t.armed = false → (change t).armed = false) :
    Unarmed key (w.modify j change) where
  given := by
    rw [nextSerial_modify]
    exact h.given
  armed u found := by
    rw [tracker?_modify] at found
    split at found
    · rename_i here
      obtain ⟨t, there, rfl⟩ := Option.map_eq_some_iff.1 found
      exact keeps t here.symm there (h.armed t there)
    · exact h.armed u found

theorem Unarmed.modifyAll (h : Unarmed key w) (keeps : ∀ t, t.armed = false → (change t).armed = false)
    (layers : List LayerIndex) : Unarmed key (layers.foldl (fun w i => w.modify i change) w) := by
  induction layers generalizing w with
  | nil => exact h
  | cons j layers ih => exact ih (h.modify fun t _ _ => keeps t)

theorem armed_reset {t : Tracker} (h : t.armed = false) : t.reset.armed = false := by
  unfold Tracker.reset
  split
  · exact h
  · rw [Tracker.setStatus_eq]

/-- The end of a cycle arms no tracker. -/
theorem Unarmed.judge (h : Unarmed key w) (task : WatchKey × Nat) : Unarmed key (w.judge task).1 := by
  cases found : w.tracker? task.1 with
  | none => rwa [judge_of_none found]
  | some t =>
    rw [judge_of_some found]
    exact h.modify fun t _ _ unarmed => (t.carries_cycleEnd task.2).armed.trans unarmed

/-- A tracker arms itself only when it takes note of a packet while it is not paused. -/
theorem Unarmed.perform (h : Unarmed key w) (a : Act)
    (quiet : ∀ number, a = .observe key number → ∀ t, w.tracker? key = some t → t.paused = true) :
    Unarmed key (w.perform a) := by
  cases a with
  | addTracker layer =>
    refine ⟨Nat.lt_of_lt_of_le h.given (addTracker_keeps w layer).2, fun t found => ?_⟩
    rcases of_tracker?_addTracker found with found | ⟨new, -⟩
    · exact h.armed t found
    · exact absurd h.given (new ▸ Nat.lt_irrefl _)
  | removeTracker layer => exact h.of_leaves (leaves_removeTracker w layer)
  | observe other number =>
    show Unarmed key (w.observe other number)
    cases found : w.tracker? other with
    | none => rwa [observe_of_none found]
    | some u =>
      have timed : Unarmed key (w.timed other u) := by
        refine ⟨?_, fun t there => h.armed t ?_⟩
        · rw [nextSerial_timed]
          exact h.given
        · rwa [tracker?_timed] at there
      rw [observe_of_some found]
      refine timed.modify fun t layer there unarmed => ?_
      rw [tracker?_timed] at there
      obtain ⟨rfl, rfl⟩ := tracker?_unique found there layer
      rw [Tracker.observe, quiet number rfl t there, if_pos rfl]
      exact unarmed
  | setPaused paused =>
    refine h.modifyAll (fun t unarmed => ?_) _
    unfold Tracker.setPaused
    split <;> exact unarmed
  | setMaxExpected layer =>
    exact (h.modifyAll (fun t => armed_reset) (w.newlyExpected layer)).of_leaves
      ⟨fun _ _ h => h, rfl, rfl⟩
  | addAvailable layer => exact h.of_leaves (leaves_addAvailable w layer)
  | removeAvailable layer => exact h.of_leaves (leaves_removeAvailable w layer)
  | stop => exact h.of_leaves (leaves_stop w)
  | cycleEnd task =>
    show Unarmed key (w.endCycle task)
    cases place : w.timers[task]? with
    | none => rwa [endCycle_of_none place]
    | some u =>
      rw [endCycle_of_some place]
      exact ⟨(h.judge u.key).given, (h.judge u.key).armed⟩
  | pass nanos => exact h.of_leaves ⟨fun _ _ h => h, rfl, rfl⟩
  | deliver place => exact h.of_leaves (leaves_deliverAt w place)

/-- A run in which each packet of a tracker comes while it is paused. -/
def Unheard (key : WatchKey) (w : LayerWatch) (acts : List Act) : Prop :=
  ∀ before number later, acts = before ++ .observe key number :: later →
    ∀ t, (w.run before).tracker? key = some t → t.paused = true

theorem Unarmed.run {acts : List Act} (h : Unarmed key w) (unheard : Unheard key w acts) :
    Unarmed key (w.run acts) := by
  induction acts generalizing w with
  | nil => exact h
  | cons a acts ih =>
    refine ih (h.perform a fun number same => unheard [] number acts (same ▸ rfl)) ?_
    exact fun before number later same => unheard (a :: before) number later (same ▸ rfl)

/-- Resets leave the trackers unarmed. -/
theorem Attended.unarmed_reset (s : w.Attended) (found : w.tracker? key = some t)
    {layers : List LayerIndex} (here : key.layer ∈ layers) :
    Unarmed key (layers.foldl (fun w i => w.modify i Tracker.reset) w) := by
  induction layers generalizing w t with
  | nil => cases here
  | cons j layers ih =>
    have after : (w.modify j Tracker.reset).Attended := s.modifyAll keeps_reset [j]
    have now : (w.modify j Tracker.reset).tracker? key =
        if j = key.layer then some t.reset.deliver.1 else some t := by
      rw [tracker?_modify, found]
      rfl
    by_cases own : j = key.layer
    · rw [if_pos own] at now
      refine Unarmed.modifyAll ⟨(after.trackers key _ now).serial, fun u hu => ?_⟩ (fun t => armed_reset) layers
      cases now.symm.trans hu
      rw [Tracker.reset, (s.trackers key t found).running, if_neg Bool.false_ne_true, Tracker.setStatus_eq]
      rfl
    · rw [if_neg own] at now
      exact ih after now ((List.mem_cons.1 here).resolve_left (Ne.symm own))

/-- The packet that arms a tracker makes its layer flow at once. -/
theorem available_of_unarmed (s : w.Attended) (h : Unarmed key w) (found : w.tracker? key = some t)
    (awake : t.paused = false) (number : UInt16) :
    (w.observe key number).deliver.isAvailable key.layer.val = true := by
  obtain ⟨-, -, running, sound⟩ := s.trackers key t found
  have unarmed := h.armed t found
  have starts : t.starts = true := by rw [Tracker.starts, awake, unarmed, running]; rfl
  have active : (t.observe number).status = .active := by rw [Tracker.status_observe, if_pos starts]
  have place : (w.timed key t).trackers.get key.layer = some ⟨key.serial, t⟩ := by
    rw [trackers_timed]
    exact tracker?_eq_some_iff.1 found
  have delivered : (w.timed key t).Delivered := by
    rw [timed_eq]
    exact s.delivered
  rw [isAvailable_deliver_iff, observe_of_some found,
    counted_modify_self delivered place (t.reports_observe number), active, (sound.blank unarmed).1]
  simp only [reduceCtorEq, if_false]

/-! ## Raising what is expected -/

theorem mem_newlyExpected {layer : Int} {i : LayerIndex} : i ∈ w.newlyExpected layer ↔
    w.maxExpected < i.val ∧ (i.val : Int) ≤ layer ∧ w.isAvailable i.val = false := by
  simp only [newlyExpected, List.mem_filter, List.mem_finRange, true_and, Bool.and_eq_true,
    decide_eq_true_eq, Bool.not_eq_true', and_assoc]

/-- The notices that wait say that layers have stopped, and not of those that are listed. -/
def Harmless (ls : List Int) (w : LayerWatch) : Prop :=
  ∀ n ∈ w.pending, n.2 = .stopped ∧ (n.1.val : Int) ∉ ls

theorem notices_reset (none : t.notices = []) {status : LayerStatus} (h : status ∈ t.reset.notices) :
    status = .stopped := by
  unfold Tracker.reset at h
  split at h
  · rw [none] at h
    cases h
  · rw [Tracker.setStatus_eq] at h
    dsimp only at h
    rw [none, List.nil_append] at h
    split at h
    · cases h
    · exact List.mem_singleton.1 h

theorem Harmless.resets {ls : List Int} (h : Harmless ls w) (d : w.Delivered) {layers : List LayerIndex}
    (others : ∀ i ∈ layers, (i.val : Int) ∉ ls) :
    Harmless ls (layers.foldl (fun w i => w.modify i Tracker.reset) w) := by
  induction layers generalizing w with
  | nil => exact h
  | cons j layers ih =>
    obtain ⟨other, others⟩ := List.forall_mem_cons.1 others
    refine ih ?_ (d.modify j Tracker.reset) others
    show Harmless ls (w.modify j Tracker.reset)
    cases there : w.trackers.get j with
    | none => rwa [modify_of_none there]
    | some x =>
      rw [modify_of_some there]
      intro n hn
      rcases List.mem_append.1 hn with hn | hn
      · exact h n hn
      · obtain ⟨status, hs, rfl⟩ := List.mem_map.1 hn
        exact ⟨notices_reset (d j x there) hs, other⟩

/-- Acting on such notices changes nothing. -/
theorem Harmless.deliverAt {ls : List Int} (h : Harmless ls w) (flows : w.available = ls) (place : Nat) :
    Harmless ls (w.deliverAt place) ∧ (w.deliverAt place).available = ls := by
  cases waiting : w.pending[place]? with
  | none =>
    rw [deliverAt_of_none waiting]
    exact ⟨h, flows⟩
  | some n =>
    obtain ⟨layer, status⟩ := n
    obtain ⟨rfl, absent⟩ := h _ (List.mem_of_getElem? waiting)
    rw [deliverAt_of_some waiting, notice_eq]
    refine ⟨fun n hn => h n (List.mem_of_mem_eraseIdx hn), ?_⟩
    show noticed w.available (layer, .stopped) = ls
    rw [flows]
    exact if_neg (by rwa [List.contains_eq_mem, decide_eq_true_eq])

theorem Harmless.available_run {ls : List Int} (h : Harmless ls w) (flows : w.available = ls)
    (places : List Nat) : (w.run (places.map .deliver)).available = ls := by
  induction places generalizing w with
  | nil => exact flows
  | cons place places ih =>
    obtain ⟨harmless, flows⟩ := h.deliverAt flows place
    exact ih harmless flows

end LayerWatch
end Simulcast
