import Simulcast.Proofs.Liveness.Notices

/-!
# Trackers and the layers that flow

A tracker reports each change of its status (`Reports`), and once its notices have been acted on the
layer flows exactly if the tracker is active (`Synced`). No change of the trackers that are there
breaks that (`Change.synced`).

A tracker that starts while its layer counts as flowing reports nothing until its first packet. Until
then the layer is `LeftOver`: nothing but that packet ends it (`Change.leftOver`), not even time, since
no timer is set for such a tracker.
-/

namespace Simulcast

namespace Tracker

variable {t u : Tracker}

/-- The change from one tracker to another is reported if its status is another one. -/
def Reports (t u : Tracker) : Prop :=
  u.notices = t.notices ++ if u.status = t.status then [] else [u.status]

theorem Reports.refl (t : Tracker) : t.Reports t := by
  rw [Reports, if_pos rfl, List.append_nil]

/-- What leaves the status alone has nothing to report. -/
theorem Reports.of_eq (notices : u.notices = t.notices) (status : u.status = t.status) :
    t.Reports u := by
  rw [Reports, if_pos status, notices, List.append_nil]

/-- The status after a change, and the notice of it, which is queued unless the queue is shut. -/
theorem setStatus_eq (t : Tracker) (status : LayerStatus) : t.setStatus status = { t with
    status
    notices := t.notices ++ if t.status = status ∨ t.stage = .shut then [] else [status] } := by
  unfold setStatus enqueue
  by_cases same : t.status = status
  · rw [if_pos same, if_pos (.inl same), List.append_nil, ← same]
  · rw [if_neg same]
    dsimp only
    split
    · rename_i closed
      rw [if_pos (.inr closed), List.append_nil]
    · rename_i taken
      rw [if_neg (not_or.2 ⟨same, taken⟩)]

/-- The queue of a tracker that has not ended takes notices. -/
theorem taken_of_running (h : t.ended = false) : t.stage ≠ .shut := fun closed => by
  rw [ended, closed] at h
  cases h

theorem setStatus_of_taken (h : t.stage ≠ .shut) (status : LayerStatus) :
    t.setStatus status = { t with
      status
      notices := t.notices ++ if t.status = status then [] else [status] } := by
  rw [setStatus_eq]
  simp only [h, or_false]

/-- Whether or not the queue takes the notice, the status is the new one. -/
theorem status_setStatus (t : Tracker) (status : LayerStatus) : (t.setStatus status).status = status := by
  rw [setStatus_eq]

/-- While the queue takes notices, what comes before a change of the status may change anything but
the status. -/
theorem Reports.setStatus (notices : u.notices = t.notices) (status : u.status = t.status)
    (stage : u.stage = t.stage) (next : LayerStatus) (taken : t.stage ≠ .shut) :
    t.Reports (u.setStatus next) := by
  rw [setStatus_of_taken (stage ▸ taken), Reports, notices, status]
  simp only [eq_comm]

theorem reports_countPacket (t : Tracker) (number : UInt16) : t.Reports (t.countPacket number) := by
  unfold countPacket
  split <;> exact .of_eq rfl rfl

/-- A packet is reported if it starts the tracker, and nothing but that. -/
theorem reports_observe (t : Tracker) (number : UInt16) : t.Reports (t.observe number) := by
  unfold observe
  split
  · exact .refl t
  · split
    · exact reports_countPacket t number
    · split
      · exact .refl t
      · rename_i running
        exact .setStatus rfl rfl rfl _ (taken_of_running (Bool.eq_false_iff.2 running))

/-- The verdict on a cycle is reported, since only a tracker that runs judges. -/
theorem reports_judgeCycle (t : Tracker) (generation : Nat) : t.Reports (t.judgeCycle generation) := by
  unfold judgeCycle
  split
  · rename_i goesOn
    rw [Bool.and_eq_true, Bool.not_eq_true'] at goesOn
    have taken := taken_of_running goesOn.2
    unfold endCycle
    dsimp only
    split
    · exact .setStatus rfl rfl rfl _ taken
    · split
      · exact .setStatus rfl rfl rfl _ taken
      · exact .of_eq rfl rfl
  · exact .refl t

theorem reports_cycleEnd (t : Tracker) (generation : Nat) : t.Reports (t.cycleEnd generation) := by
  unfold cycleEnd
  split
  · exact .refl t
  · exact reports_judgeCycle t generation

theorem reports_reset (t : Tracker) : t.Reports t.reset := by
  unfold reset
  split
  · exact .refl t
  · rename_i running
    exact .setStatus rfl rfl rfl _ (taken_of_running (Bool.eq_false_iff.2 running))

theorem reports_stop (t : Tracker) : t.Reports t.stop := by
  unfold stop
  split
  · exact .refl t
  · exact .of_eq rfl rfl

theorem reports_setPaused (t : Tracker) (paused : Bool) : t.Reports (t.setPaused paused) := by
  unfold setPaused
  split <;> exact .of_eq rfl rfl

theorem status_countPacket (t : Tracker) (number : UInt16) : (t.countPacket number).status = t.status := by
  unfold countPacket
  split <;> rfl

/-- A packet makes a tracker active that it starts, and changes no other status. -/
theorem status_observe (t : Tracker) (number : UInt16) :
    (t.observe number).status = if t.starts then .active else t.status := by
  unfold observe starts
  cases t.paused with
  | true => rfl
  | false => cases t.armed with
    | true => exact status_countPacket t number
    | false => cases t.ended with
      | true => rfl
      | false => exact status_setStatus _ _

end Tracker

namespace LayerWatch

variable {w v : LayerWatch} {i j : LayerIndex}

/-- A layer flows once the notices have been acted on. -/
def Counted (w : LayerWatch) (i : LayerIndex) : Prop :=
  (i.val : Int) ∈ noticedAll w.available w.pending

/-- The serial number of the tracker of a layer. -/
def serial? (w : LayerWatch) (i : LayerIndex) : Option Nat := (w.trackers.get i).map Watched.serial

/-- To count is to be listed once all notices have been acted on. -/
theorem isAvailable_deliver_iff : w.deliver.isAvailable i.val = true ↔ w.Counted i := by
  rw [deliver_eq, isAvailable, List.contains_eq_mem, decide_eq_true_eq, Counted]

theorem counted_deliver : w.deliver.Counted i ↔ w.Counted i := by
  rw [deliver_eq]
  rfl

/-! ## Notices of one layer -/

/-- Notices are acted on one after the other. -/
theorem noticedAll_append (ls : List Int) (ns ms : List (LayerIndex × LayerStatus)) :
    noticedAll ls (ns ++ ms) = noticedAll (noticedAll ls ns) ms := List.foldl_append

/-- Notices of other layers do not matter to a layer. -/
theorem mem_noticedAll_of_ne {ls : List Int} {ns : List (LayerIndex × LayerStatus)}
    (others : ∀ n ∈ ns, n.1 ≠ i) : (i.val : Int) ∈ noticedAll ls ns ↔ (i.val : Int) ∈ ls := by
  induction ns generalizing ls with
  | nil => rfl
  | cons n ns ih =>
    obtain ⟨other, others⟩ := List.forall_mem_cons.1 others
    have apart : (i.val : Int) ≠ n.1.val := fun same => other (Fin.ext (Int.ofNat.inj same.symm))
    rw [noticedAll, List.foldl_cons]
    refine (ih others).trans (mem_noticed.trans ?_)
    simp only [apart, ne_eq, false_and, not_false_eq_true, true_and, false_or]

/-- The last notice of a layer says whether it flows. -/
theorem mem_noticed_self {ls : List Int} {status : LayerStatus} :
    (i.val : Int) ∈ noticed ls (i, status) ↔ status = .active := by
  rw [mem_noticed]
  simp only [true_and, ne_eq, not_true_eq_false, false_and, or_false]

/-! ## Changing one tracker -/

/-- Trackers hold no notices back. -/
def Delivered (w : LayerWatch) : Prop := ∀ i x, w.trackers.get i = some x → x.tracker.notices = []

section

variable {change : Tracker → Tracker}

theorem modify_of_none (h : w.trackers.get j = none) : w.modify j change = w := by
  rw [modify, h]

theorem modify_of_some {x : Watched} (h : w.trackers.get j = some x) : w.modify j change = { w with
    trackers := w.trackers.set j (some { x with tracker := (change x.tracker).deliver.1 }) j.lt
    pending := w.pending ++ (change x.tracker).notices.map fun status => (j, status) } := by
  rw [modify, h]
  rfl

theorem get_modify_of_ne (other : j ≠ i) : (w.modify j change).trackers.get i = w.trackers.get i := by
  cases h : w.trackers.get j with
  | none => rw [modify_of_none h]
  | some x =>
    rw [modify_of_some h]
    exact (get_set _ _ _ _).trans (if_neg other)

theorem get_modify_self {x : Watched} (h : w.trackers.get j = some x) :
    (w.modify j change).trackers.get j = some { x with tracker := (change x.tracker).deliver.1 } := by
  rw [modify_of_some h]
  exact (get_set _ _ _ _).trans (if_pos rfl)

theorem serial?_modify (i : LayerIndex) : (w.modify j change).serial? i = w.serial? i := by
  by_cases here : j = i
  · subst here
    cases h : w.trackers.get j with
    | none => rw [modify_of_none h]
    | some x => rw [serial?, get_modify_self h, serial?, h]; rfl
  · rw [serial?, get_modify_of_ne here, serial?]

theorem status?_modify_of_ne (other : j ≠ i) : (w.modify j change).status? i = w.status? i := by
  rw [status?, get_modify_of_ne other, status?]

theorem status?_modify_self {x : Watched} (h : w.trackers.get j = some x) :
    (w.modify j change).status? j = some (change x.tracker).status := by
  rw [status?, get_modify_self h]
  rfl

theorem timers_modify : (w.modify j change).timers = w.timers := by
  unfold modify
  split <;> rfl

/-- A tracker has no say in whether another layer counts. -/
theorem counted_modify_of_ne (other : j ≠ i) : (w.modify j change).Counted i ↔ w.Counted i := by
  cases h : w.trackers.get j with
  | none => rw [modify_of_none h]
  | some x =>
    rw [modify_of_some h, Counted, noticedAll_append]
    refine mem_noticedAll_of_ne fun n hn => ?_
    obtain ⟨status, -, rfl⟩ := List.mem_map.1 hn
    exact other

/-- A layer counts by the last that its tracker has reported. -/
theorem counted_modify_self (d : w.Delivered) {x : Watched} (h : w.trackers.get j = some x)
    (reports : x.tracker.Reports (change x.tracker)) :
    (w.modify j change).Counted j ↔
      if (change x.tracker).status = x.tracker.status then w.Counted j
      else (change x.tracker).status = .active := by
  rw [modify_of_some h, Counted, reports, d j x h, noticedAll_append]
  split
  · rfl
  · exact mem_noticed_self

/-- A tracker that changes hands its notices over at once. -/
theorem Delivered.modify (d : w.Delivered) (j : LayerIndex) (change : Tracker → Tracker) :
    (w.modify j change).Delivered := by
  intro i x hx
  by_cases here : j = i
  · subst here
    cases h : w.trackers.get j with
    | none =>
      rw [modify_of_none h, h] at hx
      cases hx
    | some y =>
      rw [get_modify_self h] at hx
      cases hx
      rfl
  · rw [get_modify_of_ne here] at hx
    exact d i x hx

end

/-! ## Layers in step with their trackers -/

/-- Once the notices have been acted on, the layer flows exactly if its tracker is active. -/
def Synced (w : LayerWatch) (i : LayerIndex) : Prop := w.Counted i ↔ w.status? i = some .active

/-- No timer is set for the tracker that a layer has. -/
def Untimed (ts : Timers (WatchKey × Nat)) (w : LayerWatch) (i : LayerIndex) : Prop :=
  ∀ t ∈ ts, t.key.1.layer = i → w.serial? i ≠ some t.key.1.serial

/-- A layer counts as flowing, and its tracker has not been started, if there is one. -/
structure Idling (ts : Timers (WatchKey × Nat)) (w : LayerWatch) (i : LayerIndex) : Prop where
  counted : w.Counted i
  inactive : w.status? i ≠ some .active
  untimed : Untimed ts w i

theorem Idling.not_synced {ts : Timers (WatchKey × Nat)} (h : Idling ts w i) : ¬w.Synced i :=
  fun synced => h.inactive (synced.1 h.counted)

/-- A change that is reported keeps every layer in step. -/
theorem Synced.modify {change : Tracker → Tracker} (s : w.Synced i) (d : w.Delivered)
    (reports : ∀ t, Tracker.Reports t (change t)) (j : LayerIndex) : (w.modify j change).Synced i := by
  by_cases here : j = i
  · subst here
    cases h : w.trackers.get j with
    | none => rwa [modify_of_none h]
    | some x =>
      rw [Synced, counted_modify_self d h (reports x.tracker), status?_modify_self h, Option.some.injEq]
      split
      · rename_i same
        have before : w.Counted j ↔ w.status? j = some .active := s
        rw [same, before, status?, h, Option.map_some, Option.some.injEq]
      · rfl
  · rw [Synced, counted_modify_of_ne here, status?_modify_of_ne here]
    exact s

/-- A change that leaves a stopped tracker stopped leaves such a layer as it is. -/
theorem Idling.modify {ts : Timers (WatchKey × Nat)} {change : Tracker → Tracker} (s : Idling ts w i)
    (d : w.Delivered) (reports : ∀ t, Tracker.Reports t (change t))
    (calm : ∀ x, j = i → w.trackers.get j = some x → (change x.tracker).status = x.tracker.status) :
    Idling ts (w.modify j change) i := by
  have untimed : Untimed ts (w.modify j change) i := fun t ht here => by
    rw [serial?_modify]
    exact s.untimed t ht here
  by_cases here : j = i
  · subst here
    cases h : w.trackers.get j with
    | none =>
      rw [modify_of_none h] at untimed ⊢
      exact s
    | some x =>
      have same := calm x rfl h
      refine ⟨?_, ?_, untimed⟩
      · rw [counted_modify_self d h (reports x.tracker), if_pos same]
        exact s.counted
      · rw [status?_modify_self h, same]
        have inactive := s.inactive
        rwa [status?, h, Option.map_some] at inactive
  · refine ⟨(counted_modify_of_ne here).2 s.counted, ?_, untimed⟩
    rw [status?_modify_of_ne here]
    exact s.inactive

/-! ## Time and packets -/

theorem tracker?_eq_some_iff {key : WatchKey} {t : Tracker} :
    w.tracker? key = some t ↔ w.trackers.get key.layer = some ⟨key.serial, t⟩ := by
  unfold tracker?
  cases h : w.trackers.get key.layer with
  | none => exact iff_of_false nofun nofun
  | some x =>
    obtain ⟨serial, tracker⟩ := x
    simp only [Option.ite_none_right_eq_some, Option.some.injEq, Watched.mk.injEq]

theorem ring_of_none {key : WatchKey × Nat} (h : w.tracker? key.1 = none) : w.ring key = (w, false) := by
  obtain ⟨k, generation⟩ := key
  rw [ring]
  dsimp only at h ⊢
  rw [h]

theorem ring_of_some {key : WatchKey × Nat} {t : Tracker} (h : w.tracker? key.1 = some t) :
    (w.ring key).1 = (w.modify key.1.layer fun t => t.cycleEnd key.2).deliver := by
  obtain ⟨k, generation⟩ := key
  rw [ring]
  dsimp only at h ⊢
  rw [h]

/-- The delivery of notices concerns no tracker. -/
theorem trackers_deliver (w : LayerWatch) : w.deliver.trackers = w.trackers := by rw [deliver_eq]

theorem Synced.deliver (s : w.Synced i) : w.deliver.Synced i := by
  rw [Synced, counted_deliver, status?, trackers_deliver]
  exact s

theorem Idling.deliver {ts : Timers (WatchKey × Nat)} (s : Idling ts w i) : Idling ts w.deliver i where
  counted := counted_deliver.2 s.counted
  inactive := by
    rw [status?, trackers_deliver]
    exact s.inactive
  untimed t ht here := by
    rw [serial?, trackers_deliver]
    exact s.untimed t ht here

theorem Delivered.deliver (d : w.Delivered) : w.deliver.Delivered := fun i x hx =>
  d i x (by rwa [trackers_deliver] at hx)

theorem Delivered.ring (d : w.Delivered) (key : WatchKey × Nat) : (w.ring key).1.Delivered := by
  cases h : w.tracker? key.1 with
  | none => rwa [ring_of_none h]
  | some t =>
    rw [ring_of_some h]
    exact (d.modify _ _).deliver

/-- The end of a cycle keeps every layer in step. -/
theorem Synced.ring (s : w.Synced i) (d : w.Delivered) (key : WatchKey × Nat) :
    (w.ring key).1.Synced i := by
  cases h : w.tracker? key.1 with
  | none => rwa [ring_of_none h]
  | some t =>
    rw [ring_of_some h]
    exact (s.modify d (fun t => t.reports_cycleEnd key.2) _).deliver

/-- A timer that rings for another tracker leaves such a layer as it is. -/
theorem Idling.ring {ts : Timers (WatchKey × Nat)} (s : Idling ts w i) (d : w.Delivered)
    {key : WatchKey × Nat} (other : key.1.layer = i → w.serial? i ≠ some key.1.serial) :
    Idling ts (w.ring key).1 i := by
  cases h : w.tracker? key.1 with
  | none => rwa [ring_of_none h]
  | some t =>
    rw [ring_of_some h]
    refine (s.modify d (fun t => t.reports_cycleEnd key.2) fun x here found => ?_).deliver
    refine absurd ?_ (other here)
    rw [serial?, ← here, tracker?_eq_some_iff.1 h]
    rfl

theorem serial?_ring (key : WatchKey × Nat) (i : LayerIndex) : (w.ring key).1.serial? i = w.serial? i := by
  cases h : w.tracker? key.1 with
  | none => rw [ring_of_none h]
  | some t =>
    rw [ring_of_some h, serial?, trackers_deliver]
    exact serial?_modify i

/-- Time keeps every layer in step. -/
theorem Synced.advance (s : w.Synced i) (d : w.Delivered) (nanos : Nat) : (w.advance nanos).Synced i :=
  (Timers.advance_induction (P := fun _ (v : LayerWatch) => v.Synced i ∧ v.Delivered)
    (fun ⟨s, d⟩ _ => ⟨s.ring d _, d.ring _⟩) ⟨s, d⟩ _).1

/-- A timer that is left over after a ring was there before, or is the one that rang. -/
theorem key_of_mem_rung {ts rest : Timers (WatchKey × Nat)} {t u : Timer (WatchKey × Nat)} {again : Bool}
    (found : ts.takeEarliest = some (t, rest)) (hu : u ∈ if again then rest ++ [t.again] else rest) :
    ∃ v ∈ ts, v.key = u.key := by
  have here : t ∈ ts := (Timers.mem_of_takeEarliest found).2 (.inl rfl)
  have rests (h : u ∈ rest) : ∃ v ∈ ts, v.key = u.key :=
    ⟨u, (Timers.mem_of_takeEarliest found).2 (.inr h), rfl⟩
  split at hu
  · rcases List.mem_append.1 hu with hu | hu
    · exact rests hu
    · rw [List.mem_singleton.1 hu]
      exact ⟨t, here, rfl⟩
  · exact rests hu

/-- Time does not end the wait of such a layer, since no timer rings for its tracker. -/
theorem Idling.advance (s : Idling w.timers w i) (d : w.Delivered) (nanos : Nat) :
    Idling (w.advance nanos).timers (w.advance nanos) i := by
  obtain ⟨⟨counted, inactive, untimed⟩, -⟩ :=
    Timers.advance_induction (r := LayerWatch.ring) (P := fun ts v => Idling ts v i ∧ v.Delivered)
      (fun {ts rest t v} ⟨s, d⟩ found => by
        have here : t ∈ ts := (Timers.mem_of_takeEarliest found).2 (.inl rfl)
        obtain ⟨counted, inactive, -⟩ := s.ring d (s.untimed t here)
        refine ⟨⟨counted, inactive, fun u hu at_ => ?_⟩, d.ring _⟩
        obtain ⟨u', hu', same⟩ := key_of_mem_rung found hu
        rw [serial?_ring, ← same]
        exact s.untimed u' hu' (same ▸ at_))
      ⟨s, d⟩ (w.now + nanos)
  exact ⟨counted, inactive, untimed⟩

theorem observe_of_none {key : WatchKey} (h : w.tracker? key = none) (number : UInt16) :
    w.observe key number = w := by
  rw [observe, h]

/-- A watch with the timer of a tracker that is started. -/
def timed (w : LayerWatch) (key : WatchKey) (t : Tracker) : LayerWatch :=
  if t.starts then { w with timers := w.timers.set (key, t.generation) w.now w.settings.cycle } else w

theorem observe_of_some {key : WatchKey} {t : Tracker} (h : w.tracker? key = some t) (number : UInt16) :
    w.observe key number = (w.timed key t).modify key.layer fun t => t.observe number := by
  rw [observe, h]
  rfl

theorem timed_eq (w : LayerWatch) (key : WatchKey) (t : Tracker) :
    w.timed key t = { w with timers := (w.timed key t).timers } := by
  unfold timed
  split <;> rfl

/-- A timer was set before, or is that of the tracker that starts. -/
theorem key_of_mem_timed {key : WatchKey} {t : Tracker} {u : Timer (WatchKey × Nat)}
    (hu : u ∈ (w.timed key t).timers) : u ∈ w.timers ∨ u.key.1 = key ∧ t.starts = true := by
  unfold timed at hu
  split at hu
  · rename_i starts
    simp only [Timers.set] at hu
    split at hu
    · exact .inl hu
    · rcases List.mem_append.1 hu with hu | hu
      · exact .inl hu
      · rw [List.mem_singleton.1 hu]
        exact .inr ⟨rfl, starts⟩
  · exact .inl hu

/-- A packet keeps every layer in step. -/
theorem Synced.observe (s : w.Synced i) (d : w.Delivered) (key : WatchKey) (number : UInt16) :
    (w.observe key number).Synced i := by
  cases h : w.tracker? key with
  | none => rwa [observe_of_none h]
  | some t =>
    rw [observe_of_some h]
    have s' : (w.timed key t).Synced i := by rwa [timed_eq]
    have d' : (w.timed key t).Delivered := by rwa [timed_eq]
    exact s'.modify d' (fun t => t.reports_observe number) _

section

variable {key : WatchKey} {t : Tracker}

theorem trackers_timed : (w.timed key t).trackers = w.trackers := by rw [timed_eq]

/-- A timer is set only for the tracker that starts. -/
theorem Idling.timed (s : Idling w.timers w i) (other : ¬(key.layer = i ∧ t.starts = true)) :
    Idling (w.timed key t).timers (w.timed key t) i := by
  refine ⟨?_, ?_, fun u hu here => ?_⟩
  · rw [timed_eq]
    exact s.counted
  · rw [timed_eq]
    exact s.inactive
  · rw [serial?, trackers_timed]
    rcases key_of_mem_timed hu with hu | ⟨same, starts⟩
    · exact s.untimed u hu here
    · exact absurd ⟨same ▸ here, starts⟩ other

/-- The packet that starts its tracker puts such a layer in step. -/
theorem Idling.started (s : Idling w.timers w key.layer) (d : w.Delivered) (found : w.tracker? key = some t)
    (starts : t.starts = true) (number : UInt16) :
    (w.observe key number).Synced key.layer ∧
      (w.observe key number).status? key.layer = some .active := by
  have there := tracker?_eq_some_iff.1 found
  have d' : (w.timed key t).Delivered := by rwa [timed_eq]
  have active : (t.observe number).status = .active := by rw [Tracker.status_observe, if_pos starts]
  have stopped : t.status ≠ .active := fun same => s.inactive (by
    rw [status?, there, Option.map_some, same])
  rw [← trackers_timed (t := t)] at there
  have now : ((w.timed key t).modify key.layer fun t => t.observe number).status? key.layer =
      some .active := by rw [status?_modify_self there, active]
  rw [observe_of_some found]
  refine ⟨iff_of_true ?_ now, now⟩
  rw [counted_modify_self d' there (t.reports_observe number),
    if_neg fun same => stopped (same.symm.trans active)]
  exact active

end

/-- Only the packet that starts its tracker ends the wait of such a layer. -/
theorem Idling.observe (s : Idling w.timers w i) (d : w.Delivered) (key : WatchKey) (number : UInt16) :
    Idling (w.observe key number).timers (w.observe key number) i ∨
      (w.observe key number).Synced i ∧ (w.observe key number).status? i = some .active := by
  cases found : w.tracker? key with
  | none =>
    rw [observe_of_none found]
    exact .inl s
  | some t =>
    by_cases started : key.layer = i ∧ t.starts = true
    · obtain ⟨rfl, starts⟩ := started
      exact .inr (s.started d found starts number)
    · have d' : (w.timed key t).Delivered := by rwa [timed_eq]
      rw [observe_of_some found, timers_modify]
      refine .inl ((s.timed started).modify d' (fun t => t.reports_observe number) fun x here hx => ?_)
      rw [trackers_timed, tracker?_eq_some_iff.1 found] at hx
      cases hx
      rw [Tracker.status_observe, if_neg fun starts => started ⟨here, starts⟩]

/-! ## All trackers in turn -/

section

variable {change : Tracker → Tracker} (reports : ∀ t, Tracker.Reports t (change t))
include reports

theorem Synced.modifyAll (s : w.Synced i) (d : w.Delivered) (layers : List LayerIndex) :
    (layers.foldl (fun w i => w.modify i change) w).Synced i := by
  induction layers generalizing w with
  | nil => exact s
  | cons j layers ih => exact ih (s.modify d reports j) (d.modify j change)

theorem Idling.modifyAll {ts : Timers (WatchKey × Nat)} (s : Idling ts w i) (d : w.Delivered)
    (calm : ∀ t : Tracker, t.status = .stopped → (change t).status = .stopped)
    (layers : List LayerIndex) : Idling ts (layers.foldl (fun w i => w.modify i change) w) i := by
  induction layers generalizing w with
  | nil => exact s
  | cons j layers ih =>
    refine ih (s.modify d reports fun x here found => ?_) (d.modify j change)
    have stopped : x.tracker.status = .stopped := by
      have inactive := s.inactive
      rw [status?, ← here, found, Option.map_some] at inactive
      cases status : x.tracker.status with
      | stopped => rfl
      | active => exact absurd (congrArg some status) inactive
    rw [calm _ stopped, stopped]

end

theorem serial?_modifyAll (change : Tracker → Tracker) (layers : List LayerIndex) (i : LayerIndex) :
    (layers.foldl (fun w i => w.modify i change) w).serial? i = w.serial? i := by
  induction layers generalizing w with
  | nil => rfl
  | cons j layers ih => exact ih.trans (serial?_modify i)

theorem timers_modifyAll (change : Tracker → Tracker) (layers : List LayerIndex) :
    (layers.foldl (fun w i => w.modify i change) w).timers = w.timers := by
  induction layers generalizing w with
  | nil => rfl
  | cons j layers ih => exact ih.trans timers_modify

end LayerWatch
end Simulcast
