import Simulcast.Proofs.Liveness.Reports

/-!
# Changes of a layer watch

What happens to the trackers that a watch has is a `Change`: it keeps every layer in step that is
(`Change.synced`), and one that waits for the first packet of its tracker waits on or comes into
step with it (`Change.idling`). A layer gets another tracker, or none, when it is `Rekeyed`; the
other layers do not notice.

Throughout, a watch is `Sane`: serial numbers are not given twice, and the layers that flow are
listed in order.
-/

namespace Simulcast

/-- The number of a layer of the grid names that layer. -/
theorem layerIndex?_val (i : LayerIndex) : layerIndex? (i.val : Int) = some i := by
  rw [layerIndex?, if_pos (Int.natCast_nonneg _), dif_pos (by rw [Int.toNat_natCast]; exact i.isLt)]
  rfl

namespace LayerWatch

variable {w v : LayerWatch} {i j : LayerIndex}

/-- What happens to the trackers that are there. -/
inductive Change (w : LayerWatch) : LayerWatch → Prop where
  | none : Change w w
  | observe (key : WatchKey) (number : UInt16) : Change w (w.observe key number)
  | setPaused (paused : Bool) : Change w (w.setPaused paused)
  | setMaxExpected (layer : Int) : Change w (w.setMaxExpected layer)
  | advance (nanos : Nat) : Change w (w.advance nanos)
  | deliverNext (layer : LayerIndex) : Change w (w.deliverNext layer)
  /-- What was announced is passed on. -/
  | collected {v : LayerWatch} (before : Change w v) : Change w v.collect.1

/-- Serial numbers are given once, and the list of layers that flow is in order. -/
structure Sane (w : LayerWatch) : Prop where
  delivered : w.Delivered
  serials : ∀ i n, w.serial? i = some n → n < w.nextSerial
  timers : ∀ t ∈ w.timers, t.key.1.serial < w.nextSerial
  ordered : w.available.Pairwise (· < ·)
  known : ∀ l ∈ w.available, ∃ i : LayerIndex, l = i.val

/-! ## Keeping a watch sane -/

theorem nextSerial_modify {change : Tracker → Tracker} :
    (w.modify j change).nextSerial = w.nextSerial := by
  unfold modify
  split <;> rfl

theorem Sane.modify (s : w.Sane) (j : LayerIndex) (change : Tracker → Tracker) :
    (w.modify j change).Sane where
  delivered := s.delivered.modify j change
  serials i n hn := by
    rw [serial?_modify] at hn
    rw [nextSerial_modify]
    exact s.serials i n hn
  timers t ht := by
    rw [timers_modify] at ht
    rw [nextSerial_modify]
    exact s.timers t ht
  ordered := by
    rw [(waits_modify w j change).available]
    exact s.ordered
  known := by
    rw [(waits_modify w j change).available]
    exact s.known

theorem Sane.modifyAll (s : w.Sane) (change : Tracker → Tracker) (layers : List LayerIndex) :
    (layers.foldl (fun w i => w.modify i change) w).Sane := by
  induction layers generalizing w with
  | nil => exact s
  | cons j layers ih => exact ih (s.modify j change)

/-- Notices are about layers of the grid, so that the list holds no others. -/
theorem known_noticed {ls : List Int} (known : ∀ l ∈ ls, ∃ i : LayerIndex, l = i.val)
    (n : LayerIndex × LayerStatus) : ∀ l ∈ noticed ls n, ∃ i : LayerIndex, l = i.val := by
  intro l hl
  rcases mem_noticed.1 hl with ⟨here, -⟩ | ⟨-, hl⟩
  · exact ⟨n.1, here⟩
  · exact known l hl

theorem known_noticedAll {ls : List Int} (known : ∀ l ∈ ls, ∃ i : LayerIndex, l = i.val)
    (ns : List (LayerIndex × LayerStatus)) : ∀ l ∈ noticedAll ls ns, ∃ i : LayerIndex, l = i.val := by
  induction ns generalizing ls with
  | nil => exact known
  | cons n ns ih => exact ih (known_noticed known n)

theorem Sane.deliver (s : w.Sane) : w.deliver.Sane := by
  have delivered := s.delivered.deliver
  rw [deliver_eq] at delivered ⊢
  exact ⟨delivered, s.serials, s.timers, pairwise_noticedAll s.ordered, known_noticedAll s.known _⟩

theorem Sane.deliverNext (s : w.Sane) (layer : LayerIndex) : (w.deliverNext layer).Sane := by
  rcases w.deliverNext_cases layer with same | ⟨_, n, _, -, -, acted⟩
  · rwa [same]
  · rw [acted]
    exact ⟨s.delivered, s.serials, s.timers, pairwise_noticed s.ordered, known_noticed s.known n⟩

/-- The end of a cycle changes a tracker and acts on its notices. -/
theorem Sane.ring (s : w.Sane) (key : WatchKey × Nat) : (w.ring key).1.Sane := by
  cases h : w.tracker? key.1 with
  | none => rwa [ring_of_none h]
  | some t =>
    rw [ring_of_some h]
    exact (s.modify _ _).deliver

theorem nextSerial_ring (key : WatchKey × Nat) : (w.ring key).1.nextSerial = w.nextSerial := by
  cases h : w.tracker? key.1 with
  | none => rw [ring_of_none h]
  | some t =>
    rw [ring_of_some h, deliver_eq]
    exact nextSerial_modify

/-- Timers that ring give out no serial numbers, and those that are set again keep theirs. -/
theorem Sane.advance (s : w.Sane) (nanos : Nat) : (w.advance nanos).Sane := by
  obtain ⟨⟨delivered, serials, -, ordered, known⟩, timers⟩ :=
    Timers.advance_induction (r := LayerWatch.ring)
      (P := fun ts (v : LayerWatch) => v.Sane ∧ ∀ t ∈ ts, t.key.1.serial < v.nextSerial)
      (fun {ts rest t v} ⟨s, timers⟩ found => by
        refine ⟨s.ring _, fun u hu => ?_⟩
        obtain ⟨u', hu', same⟩ := key_of_mem_rung found hu
        rw [nextSerial_ring, ← same]
        exact timers u' hu')
      ⟨s, s.timers⟩ (w.now + nanos)
  exact ⟨delivered, serials, timers, ordered, known⟩

/-- A packet sets a timer at most for the tracker that it is for, which has its serial number already. -/
theorem Sane.observe (s : w.Sane) (key : WatchKey) (number : UInt16) : (w.observe key number).Sane := by
  cases h : w.tracker? key with
  | none => rwa [observe_of_none h]
  | some t =>
    rw [observe_of_some h]
    have timed : (w.timed key t).Sane := by
      have serial : w.serial? key.layer = some key.serial := by
        rw [serial?, tracker?_eq_some_iff.1 h]
        rfl
      rw [timed_eq]
      refine ⟨s.delivered, s.serials, fun u hu => ?_, s.ordered, s.known⟩
      rcases key_of_mem_timed hu with hu | ⟨same, -⟩
      · exact s.timers u hu
      · rw [same]
        exact s.serials _ _ serial
    exact timed.modify _ _

theorem Sane.collected (s : w.Sane) : w.collect.1.Sane :=
  ⟨s.delivered, s.serials, s.timers, s.ordered, s.known⟩

/-- No change of the trackers that are there makes a watch lose its order. -/
theorem Change.sane (c : Change w v) (s : w.Sane) : v.Sane := by
  induction c with
  | none => exact s
  | observe key number => exact s.observe key number
  | setPaused paused => exact s.modifyAll _ _
  | setMaxExpected layer =>
    obtain ⟨delivered, serials, timers, ordered, known⟩ :=
      s.modifyAll Tracker.reset (w.newlyExpected layer)
    exact ⟨delivered, serials, timers, ordered, known⟩
  | advance nanos => exact s.advance nanos
  | deliverNext layer => exact s.deliverNext layer
  | collected _ ih => exact ih.collected

/-! ## Keeping the layers in step -/

theorem serial?_advance (nanos : Nat) (i : LayerIndex) : (w.advance nanos).serial? i = w.serial? i :=
  Timers.advance_induction (r := LayerWatch.ring)
    (P := fun _ (v : LayerWatch) => v.serial? i = w.serial? i)
    (fun same _ => (serial?_ring _ i).trans same) rfl (w.now + nanos)

theorem serial?_observe (key : WatchKey) (number : UInt16) (i : LayerIndex) :
    (w.observe key number).serial? i = w.serial? i := by
  cases h : w.tracker? key with
  | none => rw [observe_of_none h]
  | some t =>
    rw [observe_of_some h, serial?_modify, timed_eq]
    rfl

theorem trackers_deliverNext (w : LayerWatch) (layer : LayerIndex) :
    (w.deliverNext layer).trackers = w.trackers := by
  rcases w.deliverNext_cases layer with same | ⟨_, _, _, -, -, acted⟩
  · rw [same]
  · rw [acted]

theorem timers_deliverNext (w : LayerWatch) (layer : LayerIndex) :
    (w.deliverNext layer).timers = w.timers := by
  rcases w.deliverNext_cases layer with same | ⟨_, _, _, -, -, acted⟩
  · rw [same]
  · rw [acted]

/-- Every layer keeps its tracker. -/
theorem Change.serial? (c : Change w v) (i : LayerIndex) : v.serial? i = w.serial? i := by
  induction c with
  | none => rfl
  | observe key number => exact serial?_observe key number i
  | setPaused paused => exact serial?_modifyAll _ _ i
  | setMaxExpected layer => exact serial?_modifyAll Tracker.reset (w.newlyExpected layer) i
  | advance nanos => exact serial?_advance nanos i
  | deliverNext layer => rw [LayerWatch.serial?, trackers_deliverNext, LayerWatch.serial?]
  | collected _ ih => exact ih

/-- Whether a layer flows after some notices depends on whether it flowed before, and not on others. -/
theorem mem_noticedAll_congr {ls ms : List Int} {l : Int} (same : l ∈ ls ↔ l ∈ ms)
    (ns : List (LayerIndex × LayerStatus)) : l ∈ noticedAll ls ns ↔ l ∈ noticedAll ms ns := by
  induction ns generalizing ls ms with
  | nil => exact same
  | cons n ns ih => exact ih (by rw [mem_noticed, mem_noticed, same])

/-- What remains to be acted on after the next notice comes to the same: the notices of the layer stay
in order, and those of others do not matter to it. -/
theorem counted_deliverNext {layer : LayerIndex} : (w.deliverNext layer).Counted i ↔ w.Counted i := by
  rcases w.deliverNext_cases layer with same | ⟨before, n, later, pending, first, acted⟩
  · rw [same]
  · rw [acted, Counted, Counted, pending, noticedAll_append, noticedAll_append]
    refine mem_noticedAll_congr ?_ later
    show (i.val : Int) ∈ noticedAll (noticed w.available n) before ↔
      (i.val : Int) ∈ noticed (noticedAll w.available before) n
    by_cases own : n.1 = i
    · rw [mem_noticedAll_of_ne (own ▸ first)]
      obtain ⟨_, status⟩ := n
      subst own
      rw [mem_noticed_self, mem_noticed_self]
    · have apart : (i.val : Int) ≠ n.1.val := fun same => own (Fin.ext (Int.ofNat.inj same.symm))
      have stays (ls : List Int) : (i.val : Int) ∈ noticed ls n ↔ (i.val : Int) ∈ ls := by
        rw [mem_noticed]
        simp only [apart, ne_eq, false_and, not_false_eq_true, true_and, false_or]
      rw [stays]
      exact mem_noticedAll_congr (stays w.available) before

/-- A layer that is in step with its tracker stays so. -/
theorem Change.synced (c : Change w v) (d : w.Delivered) (s : w.Synced i) : v.Synced i := by
  induction c with
  | none => exact s
  | observe key number => exact s.observe d key number
  | setPaused paused => exact s.modifyAll (fun t => t.reports_setPaused paused) d _
  | setMaxExpected layer => exact s.modifyAll Tracker.reports_reset d (w.newlyExpected layer)
  | advance nanos => exact s.advance d nanos
  | deliverNext layer =>
    rw [Synced, counted_deliverNext, LayerWatch.status?, trackers_deliverNext]
    exact s
  | collected _ ih => exact ih

theorem Idling.collected {ts : Timers (WatchKey × Nat)} (s : Idling ts w i) : Idling ts w.collect.1 i :=
  ⟨s.counted, s.inactive, s.untimed⟩

/-- A layer that waits for the first packet of its tracker waits on, unless that packet comes and makes it
active. -/
theorem Change.idling (c : Change w v) (d : w.Delivered) (s : Idling w.timers w i) :
    Idling v.timers v i ∨ v.Synced i ∧ v.status? i = some .active := by
  have reset (t : Tracker) (h : t.status = .stopped) : t.reset.status = .stopped := by
    unfold Tracker.reset
    split
    · exact h
    · exact Tracker.status_setStatus _ _
  have setPaused (paused : Bool) (t : Tracker) (h : t.status = .stopped) :
      (t.setPaused paused).status = .stopped := by
    unfold Tracker.setPaused
    split <;> exact h
  induction c with
  | none => exact .inl s
  | observe key number => exact s.observe d key number
  | setPaused paused =>
    rw [LayerWatch.setPaused, timers_modifyAll]
    exact .inl (s.modifyAll (fun t => t.reports_setPaused paused) d (setPaused paused) _)
  | setMaxExpected layer =>
    obtain ⟨counted, inactive, untimed⟩ :=
      s.modifyAll Tracker.reports_reset d reset (w.newlyExpected layer)
    refine .inl ⟨counted, inactive, fun t ht here => untimed t ?_ here⟩
    exact timers_modifyAll (w := w) Tracker.reset (w.newlyExpected layer) ▸ ht
  | advance nanos => exact .inl (s.advance d nanos)
  | deliverNext layer =>
    refine .inl ⟨counted_deliverNext.2 s.counted, ?_, ?_⟩
    · rw [LayerWatch.status?, trackers_deliverNext]
      exact s.inactive
    · rw [Untimed, LayerWatch.serial?, trackers_deliverNext, timers_deliverNext]
      exact s.untimed
  | collected _ ih => exact ih.imp_left Idling.collected

/-! ## Other trackers -/

/-- A layer that is not concerned. -/
structure Apart (w v : LayerWatch) (i : LayerIndex) : Prop where
  serial : v.serial? i = w.serial? i
  synced : w.Synced i → v.Synced i
  idling : Idling w.timers w i → Idling v.timers v i

/-- A layer is not concerned whose tracker and notices stay as they are. -/
theorem Apart.of_eq (trackers : v.trackers.get i = w.trackers.get i)
    (counted : v.Counted i ↔ w.Counted i) (timers : v.timers = w.timers) : Apart w v i where
  serial := by rw [serial?, trackers, serial?]
  synced s := by
    rw [Synced, counted, status?, trackers]
    exact s
  idling s := by
    refine ⟨counted.2 s.counted, ?_, fun t ht here => ?_⟩
    · rw [status?, trackers]
      exact s.inactive
    · rw [serial?, trackers]
      exact s.untimed t (timers ▸ ht) here

/-- One layer gets another tracker, or none, and that tracker has not been started. -/
structure Rekeyed (w v : LayerWatch) (j : LayerIndex) : Prop where
  sane : v.Sane
  others : ∀ i, i ≠ j → Apart w v i
  serial : v.serial? j ≠ w.serial? j
  inactive : v.status? j ≠ some .active
  untimed : Untimed v.timers v j

theorem Rekeyed.collected (r : Rekeyed w v j) : Rekeyed w v.collect.1 j where
  sane := r.sane.collected
  others i other := by
    obtain ⟨serial, synced, idling⟩ := r.others i other
    exact ⟨serial, synced, fun s => (idling s).collected⟩
  serial := r.serial
  inactive := r.inactive
  untimed := r.untimed

theorem addTracker_val (w : LayerWatch) (j : LayerIndex) : (w.addTracker j.val).1 = { w with
    trackers := w.trackers.set j
      (some ⟨w.nextSerial, { thresholds := w.settings.thresholdsFor j.val }⟩) j.lt
    nextSerial := w.nextSerial + 1 } := by
  rw [addTracker, layerIndex?_val]

theorem removeTracker_val (w : LayerWatch) (j : LayerIndex) :
    w.removeTracker j.val = { w with trackers := w.trackers.set j none j.lt } := by
  rw [removeTracker, layerIndex?_val]

theorem serial?_addTracker (w : LayerWatch) (j : LayerIndex) :
    (w.addTracker j.val).1.serial? j = some w.nextSerial := by
  rw [addTracker_val, serial?, get_set, if_pos rfl]
  rfl

/-- What is left when a layer loses its tracker: neither it nor its place in the list. -/
theorem removal_eq (w : LayerWatch) (j : LayerIndex) :
    (w.removeTracker j.val).removeAvailable j.val = { w with
      trackers := w.trackers.set j none j.lt
      available := noticed w.available (j, .stopped)
      announcements := w.announcements ++ news w.available (j, .stopped) } := by
  rw [removeTracker_val]
  exact notice_eq _ (j, .stopped)

theorem serial?_removal (w : LayerWatch) (j : LayerIndex) :
    ((w.removeTracker j.val).removeAvailable j.val).serial? j = none := by
  rw [removal_eq, serial?, get_set, if_pos rfl]
  rfl

/-- What is true of the trackers is true of them when one has been replaced. -/
theorem forall_get_set {P : LayerIndex → Option Watched → Prop} {x : Option Watched} (own : P j x)
    (others : ∀ i, P i (w.trackers.get i)) (i : LayerIndex) : P i ((w.trackers.set j x j.lt).get i) := by
  rw [get_set]
  split
  · rename_i here
    exact here ▸ own
  · exact others i

/-- A tracker that is added takes a layer over, with a serial number that is new. -/
theorem Sane.rekeyed_addTracker (s : w.Sane) (j : LayerIndex) : Rekeyed w (w.addTracker j.val).1 j := by
  have own := serial?_addTracker w j
  rw [addTracker_val] at own ⊢
  refine ⟨⟨?_, ?_, ?_, s.ordered, s.known⟩, ?_, ?_, ?_, ?_⟩
  · refine forall_get_set (P := fun _ x => ∀ y, x = some y → y.tracker.notices = []) ?_ s.delivered
    rintro _ ⟨⟩
    rfl
  · refine forall_get_set (P := fun _ x => ∀ n, x.map Watched.serial = some n → n < w.nextSerial + 1)
      ?_ fun i n hn => Nat.lt_succ_of_lt (s.serials i n hn)
    rintro _ ⟨⟩
    exact Nat.lt_succ_self _
  · exact fun t ht => Nat.lt_succ_of_lt (s.timers t ht)
  · exact fun i other => .of_eq ((get_set _ _ _ _).trans (if_neg (Ne.symm other))) .rfl rfl
  · rw [own]
    exact fun same => absurd (s.serials j _ same.symm) (Nat.lt_irrefl _)
  · rw [status?, get_set, if_pos rfl]
    intro same
    cases same
  · intro t ht here same
    rw [own, Option.some.injEq] at same
    exact absurd (s.timers t ht) (same ▸ Nat.lt_irrefl _)

/-- A tracker that is removed leaves its layer without one. -/
theorem Sane.rekeyed_removal (s : w.Sane) {j : LayerIndex} (had : w.serial? j ≠ none) :
    Rekeyed w ((w.removeTracker j.val).removeAvailable j.val) j := by
  have own := serial?_removal w j
  rw [removal_eq] at own ⊢
  refine ⟨⟨?_, ?_, s.timers, ?_, known_noticed s.known (j, .stopped)⟩, ?_, ?_, ?_, ?_⟩
  · exact forall_get_set (P := fun _ x => ∀ y, x = some y → y.tracker.notices = [])
      (fun y same => absurd same.symm (Option.some_ne_none y)) s.delivered
  · exact forall_get_set (P := fun _ x => ∀ n, x.map Watched.serial = some n → n < w.nextSerial)
      (fun n same => absurd same.symm (Option.some_ne_none n)) s.serials
  · exact pairwise_noticed (n := (j, .stopped)) s.ordered
  · intro i other
    have apart : (i.val : Int) ≠ j.val := fun same => other (Fin.ext (Int.ofNat.inj same))
    have stays : (i.val : Int) ∈ noticed w.available (j, .stopped) ↔ (i.val : Int) ∈ w.available := by
      rw [mem_noticed]
      simp only [apart, false_and, false_or, ne_eq, not_false_eq_true, true_and]
    exact .of_eq ((get_set _ _ _ _).trans (if_neg (Ne.symm other))) (mem_noticedAll_congr stays _) rfl
  · rw [own]
    exact Ne.symm had
  · rw [status?, get_set, if_pos rfl]
    exact (Option.some_ne_none _).symm
  · intro t _ _ same
    rw [own] at same
    cases same

end LayerWatch
end Simulcast
