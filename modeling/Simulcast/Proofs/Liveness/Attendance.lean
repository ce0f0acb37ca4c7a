import Simulcast.Proofs.Liveness.Detection
import Simulcast.Proofs.Liveness.Change

/-!
# Runs of a layer watch

What happens to a watch, as one type: trackers come and go, packets arrive, cycles end, layers are added
and removed from outside, and the notices of the trackers are acted on one by one, in any order. Passing
time is a run of such acts (`exists_run_advance`).

Each tracker at its place is in order with its tasks (`InPlace`), and no timer is for a tracker that is
yet to come. Every act keeps that (`Attended.perform`): most leave the trackers as they are (`Leaves`),
or take some away; the others change those that are there (`Attended.modify`).
-/

namespace Simulcast
namespace LayerWatch

variable {w v : LayerWatch}

/-! ## Acts -/

/-- The end of a cycle, with nothing of what follows from it. -/
def judge (w : LayerWatch) (key : WatchKey × Nat) : LayerWatch × Bool :=
  match w.tracker? key.1 with
  | none => (w, false)
  | some t => (w.modify key.1.layer fun t => t.cycleEnd key.2, t.isCurrent key.2)

/-- The task at a place comes to the end of a cycle. -/
def endCycle (w : LayerWatch) (task : Nat) : LayerWatch :=
  let (timers, w) := w.timers.ringAt judge task w
  { w with timers }

/-- Acts on the notice at a place. -/
def deliverAt (w : LayerWatch) (place : Nat) : LayerWatch :=
  match w.pending[place]? with
  | none => w
  | some (layer, status) => { w with pending := w.pending.eraseIdx place }.notice layer status

/-- What happens to a watch. -/
inductive Act where
  | addTracker (layer : Int)
  | removeTracker (layer : Int)
  | observe (key : WatchKey) (number : UInt16)
  | setPaused (paused : Bool)
  | setMaxExpected (layer : Int)
  | addAvailable (layer : Int)
  | removeAvailable (layer : Int)
  | stop
  /-- The task at a place comes to the end of a cycle, whether it is due or not. -/
  | cycleEnd (task : Nat)
  /-- The clock goes on. -/
  | pass (nanos : Nat)
  /-- The notice at a place is acted on. -/
  | deliver (place : Nat)

/-- The watch after an act. -/
def perform (w : LayerWatch) : Act → LayerWatch
  | .addTracker layer => (w.addTracker layer).1
  | .removeTracker layer => w.removeTracker layer
  | .observe key number => w.observe key number
  | .setPaused paused => w.setPaused paused
  | .setMaxExpected layer => w.setMaxExpected layer
  | .addAvailable layer => w.addAvailable layer
  | .removeAvailable layer => w.removeAvailable layer
  | .stop => w.stop
  | .cycleEnd task => w.endCycle task
  | .pass nanos => { w with now := w.now + nanos }
  | .deliver place => w.deliverAt place

/-- The watch after some acts. -/
def run (w : LayerWatch) (acts : List Act) : LayerWatch := acts.foldl perform w

theorem run_append (w : LayerWatch) (acts later : List Act) :
    w.run (acts ++ later) = (w.run acts).run later := List.foldl_append

theorem deliverAt_of_some {place : Nat} {n : LayerIndex × LayerStatus} (h : w.pending[place]? = some n) :
    w.deliverAt place = { w with pending := w.pending.eraseIdx place }.notice n.1 n.2 := by
  rw [deliverAt, h]

theorem deliverAt_of_none {place : Nat} (h : w.pending[place]? = none) : w.deliverAt place = w := by
  rw [deliverAt, h]

/-! ### Passing time -/

/-- All notices are acted on by acting on the first again and again. -/
theorem run_deliver (w : LayerWatch) :
    w.run (List.replicate w.pending.length (.deliver 0)) = w.deliver := by
  suffices all : ∀ (ns : List (LayerIndex × LayerStatus)) (w : LayerWatch), w.pending = ns →
      w.run (List.replicate ns.length (.deliver 0)) = w.deliver from all _ w rfl
  intro ns
  induction ns with
  | nil =>
    intro w none
    cases w
    cases none
    rfl
  | cons n ns ih =>
    intro w pending
    have first : w.deliverAt 0 = { w with
        available := noticed w.available n
        announcements := w.announcements ++ news w.available n
        pending := ns } := by
      rw [deliverAt_of_some (by rw [pending]; rfl), pending, notice_eq]
      rfl
    show (w.deliverAt 0).run (List.replicate ns.length (.deliver 0)) = _
    rw [first, ih _ rfl, deliver_eq, deliver_eq, pending]
    simp only [noticedAll, newsAll, List.foldl_cons, List.append_assoc]

theorem judge_of_none {key : WatchKey × Nat} (h : w.tracker? key.1 = none) : w.judge key = (w, false) := by
  rw [judge, h]

theorem judge_of_some {key : WatchKey × Nat} {t : Tracker} (h : w.tracker? key.1 = some t) :
    w.judge key = (w.modify key.1.layer fun t => t.cycleEnd key.2, t.isCurrent key.2) := by
  rw [judge, h]

/-- A ring is the end of a cycle with all that follows from it. -/
theorem ring_eq_judge {key : WatchKey × Nat} {t : Tracker} (h : w.tracker? key.1 = some t) :
    w.ring key = ((w.judge key).1.deliver, (w.judge key).2) := by
  obtain ⟨k, generation⟩ := key
  rw [judge_of_some h, ring, h]

theorem endCycle_of_none {task : Nat} (h : w.timers[task]? = none) : w.endCycle task = w := by
  rw [endCycle, Timers.ringAt_of_none h]

theorem endCycle_of_some {task : Nat} {u : Timer (WatchKey × Nat)} (h : w.timers[task]? = some u) :
    w.endCycle task = { (w.judge u.key).1 with
      timers := if (w.judge u.key).2 then w.timers.eraseIdx task ++ [u.again]
        else w.timers.eraseIdx task } := by
  rw [endCycle, Timers.ringAt_of_some h]

/-- A ring is a run, whatever the timers are and the clock shows. -/
theorem exists_run_ringAt (w : LayerWatch) (timers : Timers (WatchKey × Nat)) (now : Time) (task : Nat) :
    ∃ acts : List Act, ({ w with timers, now } : LayerWatch).run acts =
      { (timers.ringAt ring task w).2 with timers := (timers.ringAt ring task w).1, now } := by
  cases place : timers[task]? with
  | none => exact ⟨[], by rw [Timers.ringAt_of_none place]; rfl⟩
  | some u =>
    let v : LayerWatch := { w with timers, now }
    have ended := endCycle_of_some (w := v) place
    rw [Timers.ringAt_of_some place]
    cases found : w.tracker? u.key.1 with
    | none =>
      have found' : v.tracker? u.key.1 = none := found
      refine ⟨[.cycleEnd task], ended.trans ?_⟩
      rw [judge_of_none found', ring_of_none found]
    | some t =>
      have found' : v.tracker? u.key.1 = some t := found
      refine ⟨.cycleEnd task :: List.replicate (v.endCycle task).pending.length (.deliver 0), ?_⟩
      refine (run_deliver (v.endCycle task)).trans ?_
      have own := tracker?_eq_some_iff.1 found
      have own' : v.trackers.get u.key.1.layer = some ⟨u.key.1.serial, t⟩ := own
      rw [ended, ring_eq_judge found, judge_of_some found, judge_of_some found', modify_of_some own,
        modify_of_some own', deliver_eq, deliver_eq]

/-- Passing time is a run: the clock goes on, tasks come to the ends of their cycles, and notices are
acted on. -/
theorem exists_run_advance (w : LayerWatch) (nanos : Nat) :
    ∃ acts : List Act, w.run acts = w.advance nanos := by
  obtain ⟨places, series⟩ := Timers.exists_advance_eq ring (w.now + nanos) w.timers w
  have each (now : Time) (places : List Nat) (timers : Timers (WatchKey × Nat)) (v : LayerWatch) :
      ∃ acts : List Act, ({ v with timers, now } : LayerWatch).run acts =
        let rung := places.foldl (fun p n => Timers.ringAt ring n p.1 p.2) (timers, v)
        { rung.2 with timers := rung.1, now } := by
    induction places generalizing timers v with
    | nil => exact ⟨[], rfl⟩
    | cons n places ih =>
      obtain ⟨acts, first⟩ := exists_run_ringAt v timers now n
      obtain ⟨later, rest⟩ := ih (timers.ringAt ring n v).1 (timers.ringAt ring n v).2
      exact ⟨acts ++ later, by rw [run_append, first, rest]; rfl⟩
  obtain ⟨acts, rung⟩ := each (w.now + nanos) places w.timers w
  refine ⟨.pass nanos :: acts, ?_⟩
  show ({ w with now := w.now + nanos } : LayerWatch).run acts = _
  rw [advance, series]
  exact rung

/-! ## Trackers and their tasks -/

/-- The generations that the tasks of a tracker are for. -/
def tasks (w : LayerWatch) (key : WatchKey) : List Nat :=
  (w.timers.filter fun u => u.key.1 == key).map fun u => u.key.2

theorem mem_tasks {key : WatchKey} {g : Nat} : g ∈ w.tasks key ↔ ∃ u ∈ w.timers, u.key = (key, g) := by
  simp only [tasks, List.mem_map, List.mem_filter, beq_iff_eq, Prod.ext_iff, and_assoc]

/-- What holds of a tracker at its place. -/
structure InPlace (w : LayerWatch) (key : WatchKey) (t : Tracker) : Prop where
  serial : key.serial < w.nextSerial
  notices : t.notices = []
  running : t.ended = false
  sound : t.Sound (w.tasks key)

/-- Each tracker is in order, and no timer is for one that is yet to come. -/
structure Attended (w : LayerWatch) : Prop where
  trackers : ∀ key t, w.tracker? key = some t → w.InPlace key t
  timers : ∀ u ∈ w.timers, u.key.1.serial < w.nextSerial

theorem Attended.delivered (s : w.Attended) : w.Delivered := fun i x hx =>
  (s.trackers ⟨i, x.serial⟩ x.tracker (tracker?_eq_some_iff.2 hx)).notices

theorem attended_new (settings : WatchSettings) : Attended { settings } where
  trackers key t h := by
    have none : (Vector.replicate 3 (none : Option Watched)).get key.layer = none := Vector.getElem_replicate _
    rw [tracker?_eq_some_iff] at h
    exact absurd (none.symm.trans h) nofun
  timers u hu := by cases hu

/-! ### Trackers that stay as they are -/

/-- The trackers that are there have been there before, and the timers are the same. -/
structure Leaves (w v : LayerWatch) : Prop where
  trackers : ∀ key t, v.tracker? key = some t → w.tracker? key = some t
  timers : v.timers = w.timers
  nextSerial : v.nextSerial = w.nextSerial

theorem leaves_removeTracker (w : LayerWatch) (layer : Int) : Leaves w (w.removeTracker layer) := by
  unfold removeTracker
  split
  · exact ⟨fun _ _ h => h, rfl, rfl⟩
  · rename_i i _
    refine ⟨fun key t h => ?_, rfl, rfl⟩
    rw [tracker?_eq_some_iff, get_set] at h
    split at h
    · cases h
    · exact tracker?_eq_some_iff.2 h

theorem leaves_stop (w : LayerWatch) : Leaves w w.stop := by
  refine ⟨fun key t h => ?_, rfl, rfl⟩
  have none : w.stop.trackers.get key.layer = none := Vector.getElem_replicate _
  rw [tracker?_eq_some_iff, none] at h
  cases h

theorem leaves_addAvailable (w : LayerWatch) (layer : Int) : Leaves w (w.addAvailable layer) := by
  unfold addAvailable
  split <;> exact ⟨fun _ _ h => h, rfl, rfl⟩

theorem leaves_removeAvailable (w : LayerWatch) (layer : Int) : Leaves w (w.removeAvailable layer) := by
  unfold removeAvailable
  split <;> exact ⟨fun _ _ h => h, rfl, rfl⟩

theorem leaves_deliverAt (w : LayerWatch) (place : Nat) : Leaves w (w.deliverAt place) := by
  cases waiting : w.pending[place]? with
  | none =>
    rw [deliverAt_of_none waiting]
    exact ⟨fun _ _ h => h, rfl, rfl⟩
  | some n =>
    rw [deliverAt_of_some waiting, notice_eq]
    exact ⟨fun _ _ h => h, rfl, rfl⟩

theorem Attended.of_leaves (s : w.Attended) (l : Leaves w v) : v.Attended where
  trackers key t h := by
    obtain ⟨serial, notices, running, sound⟩ := s.trackers key t (l.trackers key t h)
    exact ⟨l.nextSerial ▸ serial, notices, running, by rwa [tasks, l.timers]⟩
  timers := by
    rw [l.timers, l.nextSerial]
    exact s.timers

/-! ### Trackers that change -/

variable {key other : WatchKey} {t u : Tracker} {change : Tracker → Tracker} {j : LayerIndex}

theorem tracker?_modify (w : LayerWatch) (j : LayerIndex) (change : Tracker → Tracker) (key : WatchKey) :
    (w.modify j change).tracker? key =
      if j = key.layer then (w.tracker? key).map fun t => (change t).deliver.1 else w.tracker? key := by
  split
  · rename_i here
    subst here
    cases there : w.trackers.get key.layer with
    | none => rw [modify_of_none there, tracker?, there]; rfl
    | some x =>
      rw [tracker?, get_modify_self there, tracker?, there]
      dsimp only
      split <;> rfl
  · rename_i other
    rw [tracker?, get_modify_of_ne other, tracker?]

theorem tracker?_modifyAll {layers : List LayerIndex} (others : key.layer ∉ layers) :
    (layers.foldl (fun w i => w.modify i change) w).tracker? key = w.tracker? key := by
  induction layers generalizing w with
  | nil => rfl
  | cons j layers ih =>
    rw [List.mem_cons, not_or] at others
    exact (ih others.2).trans ((w.tracker?_modify j change key).trans (if_neg (Ne.symm others.1)))

/-- There is one tracker at a place. -/
theorem tracker?_unique (h : w.tracker? key = some t) (h' : w.tracker? other = some u)
    (layer : other.layer = key.layer) : other = key ∧ u = t := by
  obtain ⟨l, n⟩ := key
  obtain ⟨k, m⟩ := other
  obtain rfl : k = l := layer
  rw [tracker?_eq_some_iff] at h h'
  obtain ⟨rfl, rfl⟩ := Watched.mk.inj (Option.some.inj (h.symm.trans h'))
  exact ⟨rfl, rfl⟩

theorem Attended.modify (s : w.Attended)
    (keeps : ∀ key t, key.layer = j → w.tracker? key = some t →
      (change t).ended = false ∧ (change t).Sound (w.tasks key)) : (w.modify j change).Attended where
  trackers key u h := by
    have tasks : (w.modify j change).tasks key = w.tasks key := by
      rw [LayerWatch.tasks, timers_modify, LayerWatch.tasks]
    have next : (w.modify j change).nextSerial = w.nextSerial := nextSerial_modify
    rw [tracker?_modify] at h
    split at h
    · rename_i here
      obtain ⟨t, found, rfl⟩ := Option.map_eq_some_iff.1 h
      obtain ⟨running, sound⟩ := keeps key t here.symm found
      exact ⟨next ▸ (s.trackers key t found).serial, rfl, running, tasks ▸ sound.deliver⟩
    · obtain ⟨serial, notices, running, sound⟩ := s.trackers key u h
      exact ⟨next ▸ serial, notices, running, tasks ▸ sound⟩
  timers := by
    rw [timers_modify, nextSerial_modify]
    exact s.timers

theorem Attended.modifyAll (s : w.Attended)
    (keeps : ∀ ts t, t.ended = false → t.Sound ts → (change t).ended = false ∧ (change t).Sound ts)
    (layers : List LayerIndex) : (layers.foldl (fun w i => w.modify i change) w).Attended := by
  induction layers generalizing w with
  | nil => exact s
  | cons j layers ih =>
    exact ih (s.modify fun key t _ found =>
      keeps _ t (s.trackers key t found).running (s.trackers key t found).sound)

/-- Timers may go, and be set anew. -/
theorem Attended.retimed (s : w.Attended) {timers : Timers (WatchKey × Nat)}
    (keys : ∀ u ∈ timers, ∃ v ∈ w.timers, v.key = u.key) : Attended { w with timers } where
  trackers key t h := by
    obtain ⟨serial, notices, running, sound⟩ := s.trackers key t h
    refine ⟨serial, notices, running, sound.of_subset fun g hg => ?_⟩
    obtain ⟨u, hu, own⟩ := mem_tasks.1 hg
    obtain ⟨v, hv, same⟩ := keys u hu
    exact mem_tasks.2 ⟨v, hv, same.trans own⟩
  timers u hu := by
    obtain ⟨v, hv, same⟩ := keys u hu
    exact same ▸ s.timers v hv

theorem timers_judge (w : LayerWatch) (key : WatchKey × Nat) : (w.judge key).1.timers = w.timers := by
  cases found : w.tracker? key.1 with
  | none => rw [judge_of_none found]
  | some t =>
    rw [judge_of_some found]
    show (w.modify key.1.layer fun t => t.cycleEnd key.2).timers = w.timers
    rw [timers_modify]

/-- The end of a cycle that a timer waits for. -/
theorem Attended.judge (s : w.Attended) {timer : Timer (WatchKey × Nat)} (here : timer ∈ w.timers) :
    (w.judge timer.key).1.Attended := by
  cases found : w.tracker? timer.key.1 with
  | none => rwa [judge_of_none found]
  | some t =>
    rw [judge_of_some found]
    show (w.modify timer.key.1.layer fun t => t.cycleEnd timer.key.2).Attended
    refine s.modify fun key u layer there => ?_
    obtain ⟨rfl, rfl⟩ := tracker?_unique found there layer
    obtain ⟨-, -, running, sound⟩ := s.trackers _ u found
    exact ⟨(u.carries_cycleEnd timer.key.2).ended.trans running,
      sound.cycleEnd (mem_tasks.2 ⟨timer, here, rfl⟩)⟩

theorem Attended.endCycle (s : w.Attended) (task : Nat) : (w.endCycle task).Attended := by
  cases place : w.timers[task]? with
  | none => rwa [endCycle_of_none place]
  | some timer =>
    rw [endCycle_of_some place]
    refine (s.judge (List.mem_of_getElem? place)).retimed fun u hu => ?_
    rw [timers_judge]
    exact Timers.exists_key_of_mem_rung place hu

theorem mem_tasks_timed {g : Nat} (h : g ∈ (w.timed key t).tasks other) :
    g ∈ w.tasks other ∨ t.starts = true ∧ other = key ∧ g = t.generation := by
  obtain ⟨u, hu, own⟩ := mem_tasks.1 h
  unfold timed at hu
  split at hu
  · rename_i starts
    simp only [Timers.set] at hu
    split at hu
    · exact .inl (mem_tasks.2 ⟨u, hu, own⟩)
    · rcases List.mem_append.1 hu with hu | hu
      · exact .inl (mem_tasks.2 ⟨u, hu, own⟩)
      · rw [List.mem_singleton.1 hu] at own
        cases own
        exact .inr ⟨starts, rfl, rfl⟩
  · exact .inl (mem_tasks.2 ⟨u, hu, own⟩)

theorem nextSerial_timed : (w.timed key t).nextSerial = w.nextSerial := by rw [timed_eq]

theorem tracker?_timed : (w.timed key t).tracker? other = w.tracker? other := by rw [timed_eq]; rfl

/-- The packet that starts a tracker sets a timer for it. -/
theorem Attended.observe (s : w.Attended) (key : WatchKey) (number : UInt16) :
    (w.observe key number).Attended := by
  cases found : w.tracker? key with
  | none => rwa [observe_of_none found]
  | some t =>
    obtain ⟨serial, -, running, sound⟩ := s.trackers key t found
    rw [observe_of_some found]
    constructor
    case timers =>
      intro u hu
      rw [timers_modify] at hu
      rw [nextSerial_modify, nextSerial_timed]
      rcases key_of_mem_timed hu with hu | ⟨own, -⟩
      · exact s.timers u hu
      · rw [own]
        exact serial
    case trackers =>
      intro other u h
      have tasks : ((w.timed key t).modify key.layer fun t => t.observe number).tasks other =
          (w.timed key t).tasks other := by rw [LayerWatch.tasks, timers_modify, LayerWatch.tasks]
      have next : ((w.timed key t).modify key.layer fun t => t.observe number).nextSerial =
          w.nextSerial := nextSerial_modify.trans nextSerial_timed
      rw [tracker?_modify, tracker?_timed] at h
      split at h
      · rename_i layer
        obtain ⟨v, there, rfl⟩ := Option.map_eq_some_iff.1 h
        obtain ⟨rfl, rfl⟩ := tracker?_unique found there layer.symm
        refine ⟨next ▸ serial, rfl, (v.ended_observe number).trans running, ?_⟩
        rw [tasks]
        refine ((sound.observe number).of_subset fun g hg => ?_).deliver
        rcases mem_tasks_timed hg with hg | ⟨starts, -, rfl⟩
        · split
          · exact List.mem_append_left _ hg
          · exact hg
        · rw [if_pos starts]
          exact List.mem_append_right _ (List.mem_singleton_self _)
      · rename_i layer
        obtain ⟨serial', notices, running', sound'⟩ := s.trackers other u h
        refine ⟨next ▸ serial', notices, running', tasks ▸ sound'.of_subset fun g hg => ?_⟩
        rcases mem_tasks_timed hg with hg | ⟨-, rfl, -⟩
        · exact hg
        · exact absurd rfl layer

/-- A tracker that is added has not been there before. -/
theorem of_tracker?_addTracker {layer : Int} (h : (w.addTracker layer).1.tracker? key = some t) :
    w.tracker? key = some t ∨ key.serial = w.nextSerial ∧
      w.nextSerial < (w.addTracker layer).1.nextSerial ∧ ∃ thresholds, t = { thresholds } := by
  cases index : layerIndex? layer with
  | none =>
    rw [addTracker, index] at h
    exact .inl h
  | some i =>
    rw [addTracker, index] at h ⊢
    rw [tracker?_eq_some_iff, get_set] at h
    split at h
    · obtain ⟨serial, tracker⟩ := Watched.mk.inj (Option.some.inj h)
      exact .inr ⟨serial.symm, Nat.lt_succ_self _, _, tracker.symm⟩
    · exact .inl (tracker?_eq_some_iff.2 h)

theorem addTracker_keeps (w : LayerWatch) (layer : Int) :
    (w.addTracker layer).1.timers = w.timers ∧ w.nextSerial ≤ (w.addTracker layer).1.nextSerial := by
  unfold addTracker
  split
  · exact ⟨rfl, Nat.le_refl _⟩
  · exact ⟨rfl, Nat.le_succ _⟩

theorem Attended.addTracker (s : w.Attended) (layer : Int) : (w.addTracker layer).1.Attended := by
  obtain ⟨timers, next⟩ := addTracker_keeps w layer
  constructor
  case timers =>
    intro u hu
    exact Nat.lt_of_lt_of_le (s.timers u (timers ▸ hu)) next
  case trackers =>
    intro key t h
    have tasks : (w.addTracker layer).1.tasks key = w.tasks key := by
      rw [LayerWatch.tasks, timers, LayerWatch.tasks]
    rcases of_tracker?_addTracker h with h | ⟨new, given, thresholds, rfl⟩
    · obtain ⟨serial, notices, running, sound⟩ := s.trackers key t h
      exact ⟨Nat.lt_of_lt_of_le serial next, notices, running, tasks ▸ sound⟩
    · -- no timer is for a serial number that has not been given
      have untimed : ∀ g ∈ w.tasks key, g ∈ ([] : List Nat) := fun g hg => by
        obtain ⟨u, hu, own⟩ := mem_tasks.1 hg
        have earlier := s.timers u hu
        rw [own] at earlier
        exact absurd new (Nat.ne_of_lt earlier)
      exact ⟨new ▸ given, rfl, rfl, tasks ▸ (Tracker.sound_new thresholds).of_subset untimed⟩

theorem keeps_reset (ts : List Nat) (t : Tracker) (running : t.ended = false) (sound : t.Sound ts) :
    t.reset.ended = false ∧ t.reset.Sound ts := ⟨t.ended_reset.trans running, sound.reset⟩

theorem Attended.perform (s : w.Attended) (a : Act) : (w.perform a).Attended := by
  cases a with
  | addTracker layer => exact s.addTracker layer
  | removeTracker layer => exact s.of_leaves (leaves_removeTracker w layer)
  | observe key number => exact s.observe key number
  | setPaused paused =>
    exact s.modifyAll (fun ts t running sound =>
      ⟨(t.ended_setPaused paused).trans running, sound.setPaused paused⟩) _
  | setMaxExpected layer =>
    exact (s.modifyAll keeps_reset (w.newlyExpected layer)).of_leaves ⟨fun _ _ h => h, rfl, rfl⟩
  | addAvailable layer => exact s.of_leaves (leaves_addAvailable w layer)
  | removeAvailable layer => exact s.of_leaves (leaves_removeAvailable w layer)
  | stop => exact s.of_leaves (leaves_stop w)
  | cycleEnd task => exact s.endCycle task
  | pass nanos => exact s.of_leaves ⟨fun _ _ h => h, rfl, rfl⟩
  | deliver place => exact s.of_leaves (leaves_deliverAt w place)

theorem Attended.run (s : w.Attended) (acts : List Act) : (w.run acts).Attended := by
  induction acts generalizing w with
  | nil => exact s
  | cons a acts ih => exact ih (s.perform a)

end LayerWatch
end Simulcast
