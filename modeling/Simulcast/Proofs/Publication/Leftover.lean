import Simulcast.Proofs.Liveness.Change
import Simulcast.Proofs.Publication.Turns
import Mathlib.Data.List.Sort

/-!
# Layers that are left over

When the workers of a publication are idle, the layers that flow are those whose trackers are
active, with one exception: a layer that was taken to flow when its tracker was replaced or removed
is taken to flow until the tracker that it has now is started, or replaced in turn (`LeftOver`).
That is `available_eq_activeLayers_iff`.

On the way each layer is in step with its tracker or left over (`inStep_run`), however much of the
work is yet to be done.
-/

namespace Simulcast.Publication

variable {peerOf : Nat → String} {p q : Publication} {a : Act} {i j : LayerIndex}

/-- The layers with an up track whose tracker is active, in order. -/
def activeLayers (p : Publication) : List Int :=
  ((List.finRange 3).filter fun i =>
    (p.upTracks.get i).isSome && p.watch.status? i = some .active).map fun i => (i.val : Int)

/-- The layer has not come to have another tracker, and the one that it has is not active. -/
structure Waiting (p q : Publication) (i : LayerIndex) : Prop where
  serial : q.watch.serial? i = p.watch.serial? i
  inactive : q.watch.status? i ≠ some .active

/-- An act has replaced or removed the tracker of a layer that counts as flowing all the same, and
ever since the layer waits for its tracker to be started. -/
def LeftOver (peerOf : Nat → String) (p : Publication) (as : List Act) (i : LayerIndex) : Prop :=
  ∃ before a later, as = before ++ a :: later ∧
    (p.run peerOf (before ++ [a])).1.watch.serial? i ≠ (p.run peerOf before).1.watch.serial? i ∧
    (p.run peerOf (before ++ [a])).1.watch.deliver.isAvailable i.val = true ∧
    ∀ mid, mid <+: later →
      (p.run peerOf (before ++ [a])).1.Waiting (p.run peerOf (before ++ a :: mid)).1 i

theorem leftOver_concat {as : List Act} : p.LeftOver peerOf (as ++ [a]) i ↔
    (p.run peerOf (as ++ [a])).1.watch.status? i ≠ some .active ∧
      if (p.run peerOf (as ++ [a])).1.watch.serial? i = (p.run peerOf as).1.watch.serial? i then
        p.LeftOver peerOf as i
      else (p.run peerOf (as ++ [a])).1.watch.Counted i := by
  constructor
  · rintro ⟨before, b, later, same, changed, counted, waits⟩
    obtain ⟨rfl, rfl, rfl⟩ | ⟨later, rfl, rfl⟩ := split_concat same
    · refine ⟨(waits [] List.nil_prefix).inactive, ?_⟩
      rw [if_neg changed]
      exact LayerWatch.isAvailable_deliver_iff.1 counted
    · have now := waits (later ++ [a]) List.prefix_rfl
      have earlier := waits later (List.prefix_append _ _)
      rw [List.append_assoc, List.cons_append]
      refine ⟨now.inactive, ?_⟩
      rw [if_pos (now.serial.trans earlier.serial.symm)]
      exact ⟨before, b, later, rfl, changed, counted, fun mid sub =>
        waits mid (sub.trans (List.prefix_append _ _))⟩
  · rintro ⟨inactive, since⟩
    split at since
    · rename_i same
      obtain ⟨before, b, later, rfl, changed, counted, waits⟩ := since
      refine ⟨before, b, later ++ [a], by rw [List.append_assoc, List.cons_append], changed, counted,
        fun mid sub => ?_⟩
      rcases List.prefix_concat_iff.1 sub with rfl | sub
      · rw [← List.cons_append, ← List.append_assoc]
        exact ⟨same.trans (waits later List.prefix_rfl).serial, inactive⟩
      · exact waits mid sub
    · rename_i changed
      refine ⟨as, a, [], rfl, changed, LayerWatch.isAvailable_deliver_iff.2 since, fun mid sub => ?_⟩
      rw [List.prefix_nil.1 sub]
      exact ⟨rfl, inactive⟩

/-! ## What becomes of the watch -/

/-- The watch is sane, and each up track has its tracker. -/
structure Watching (p : Publication) : Prop where
  sane : p.watch.Sane
  paired : ∀ i, (p.upTracks.get i).isSome = (p.watch.serial? i).isSome

/-- What an act does to the trackers of a publication that it leaves open. -/
inductive Rewatched (p q : Publication) : Prop where
  | kept (change : p.watch.Change q.watch) (upTracks : q.upTracks = p.upTracks)
  | rekeyed (j : LayerIndex) (other : LayerWatch.Rekeyed p.watch q.watch j)
      (own : (q.upTracks.get j).isSome = (q.watch.serial? j).isSome)
      (upTracks : ∀ i, i ≠ j → q.upTracks.get i = p.upTracks.get i)

theorem Watching.rewatched (m : p.Watching) (r : Rewatched p q) : q.Watching := by
  cases r with
  | kept change upTracks =>
    refine ⟨change.sane m.sane, fun i => ?_⟩
    rw [upTracks, change.serial?, m.paired]
  | rekeyed j other own upTracks =>
    refine ⟨other.sane, fun i => ?_⟩
    by_cases here : i = j
    · exact here ▸ own
    · rw [upTracks i here, (other.others i here).serial, m.paired]

/-- The tracker of a layer goes with its up track. -/
theorem Watching.without (m : p.Watching) {f : Feed} (own : p.Feeds f) :
    Rewatched p ((p.dropFeed f).without f.layer) := by
  have had : p.watch.serial? f.layer ≠ none := by
    obtain ⟨u, up, -⟩ := Option.map_eq_some_iff.1 own
    have paired := m.paired f.layer
    rw [up] at paired
    exact fun none => by rw [none] at paired; cases paired
  refine .rekeyed f.layer (m.sane.rekeyed_removal had).collected ?_ fun i other => ?_
  · have none : (p.upTracks.set f.layer none f.layer.lt).get f.layer = none :=
      (get_set _ _ _ _).trans (if_pos rfl)
    have serial := LayerWatch.serial?_removal p.watch f.layer
    exact (congrArg Option.isSome none).trans (congrArg Option.isSome serial).symm
  · exact (get_set _ _ _ _).trans (if_neg (Ne.symm other))

/-- An up track comes with a tracker of its own. -/
theorem Watching.feedLayer (m : p.Watching) (watched : p.kind = .video ∧ p.settings.watchesLiveness = true)
    (intakes : List Intake) (rid : String) (layer : LayerIndex) (ssrc : UInt32) (intake : Nat) :
    Rewatched p ({ p with intakes }.feedLayer rid layer ssrc intake).1 := by
  rw [feedLayer_eq, expecting_of_watched (p := { p with intakes }) watched]
  refine .rekeyed layer (m.sane.rekeyed_addTracker layer).collected ?_ fun i other => ?_
  · have serial := LayerWatch.serial?_addTracker p.watch layer
    have up : (p.upTracks.set layer (some { rid, ssrc, intake }) layer.lt).get layer =
        some { rid, ssrc, intake } := (get_set _ _ _ _).trans (if_pos rfl)
    exact (congrArg Option.isSome up).trans (congrArg Option.isSome serial).symm
  · exact (get_set _ _ _ _).trans (if_neg (Ne.symm other))

theorem Watching.perform (m : p.Watching) (watched : p.kind = .video ∧ p.settings.watchesLiveness = true)
    (opened : (p.perform peerOf a).1.closed = false) : Rewatched p (p.perform peerOf a).1 := by
  generalize hr : p.perform peerOf a = r at opened ⊢
  cases hr ▸ @performed peerOf p a with
  | aside _ alike => exact .kept (alike.watch ▸ .none) alike.upTracks
  | enteredLast | closed => exact absurd opened (not_open_close _)
  | fed => exact m.feedLayer watched _ _ _ _ _
  | @paused paused => exact .kept (.setPaused paused) rfl
  | @expecting layer => exact .kept (.setMaxExpected layer) rfl
  | @advanced nanos => exact .kept (.collected (.advance nanos)) rfl
  | @delivered layer => exact .kept (.collected (.deliverNext layer)) rfl
  | @read f _ turned =>
    cases turned with
    | idle | replaced => exact .kept .none rfl
    | handed =>
      refine .kept ?_ rfl
      simp only [handOut]
      cases f.tracker with
      | none => exact .none
      | some key => exact .observe _ _
    | ended _ own => exact m.without own
    | lastEnded => exact absurd opened (not_open_close _)
  | _ => exact .kept .none rfl

/-! ## In step or left over -/

theorem watching_published (o : Offer) : o.published.Watching := by
  have none (i : LayerIndex) : o.published.watch.trackers.get i = none :=
    Vector.getElem_replicate i.isLt
  have serial (i : LayerIndex) : o.published.watch.serial? i = .none := by
    rw [LayerWatch.serial?, none]
    rfl
  refine ⟨⟨fun i x hx => ?_, fun i n hn => ?_, List.forall_mem_nil _, .nil, List.forall_mem_nil _⟩, fun i => ?_⟩
  · rw [none] at hx
    cases hx
  · rw [serial] at hn
    cases hn
  · rw [serial]
    exact congrArg Option.isSome (Vector.getElem_replicate i.isLt)

/-- A layer is in step with its tracker, or it is left over. -/
inductive InStep (left : Prop) (w : LayerWatch) (i : LayerIndex) : Prop where
  | synced (synced : w.Synced i) (clear : ¬left)
  | leftOver (idling : LayerWatch.Idling w.timers w i) (is : left)

/-- What an act does to a layer that was in step, or left over. -/
theorem inStep_concat {as : List Act} (m : (p.run peerOf as).1.Watching)
    (r : Rewatched (p.run peerOf as).1 (p.run peerOf (as ++ [a])).1)
    (before : InStep (p.LeftOver peerOf as i) (p.run peerOf as).1.watch i) :
    InStep (p.LeftOver peerOf (as ++ [a]) i) (p.run peerOf (as ++ [a])).1.watch i := by
  rw [leftOver_concat]
  generalize p.LeftOver peerOf as i = left at before ⊢
  generalize (p.run peerOf (as ++ [a])).1 = q at r ⊢
  generalize (p.run peerOf as).1 = p at m r before ⊢
  cases r with
  | kept change _ =>
    rw [if_pos (change.serial? i)]
    cases before with
    | synced synced clear =>
      exact .synced (change.synced m.sane.delivered synced) fun h => clear h.2
    | leftOver idling is =>
      rcases change.idling m.sane.delivered idling with still | ⟨synced, active⟩
      · exact .leftOver still ⟨still.inactive, is⟩
      · exact .synced synced fun h => h.1 active
  | rekeyed j other _ _ =>
    by_cases here : i = j
    · subst here
      rw [if_neg other.serial]
      by_cases counted : q.watch.Counted i
      · exact .leftOver ⟨counted, other.inactive, other.untimed⟩ ⟨other.inactive, counted⟩
      · exact .synced (iff_of_false counted other.inactive) fun h => counted h.2
    · obtain ⟨serial, synced, idling⟩ := other.others i here
      rw [if_pos serial]
      cases before with
      | synced was clear => exact .synced (synced was) fun h => clear h.2
      | leftOver was is => exact .leftOver (idling was) ⟨(idling was).inactive, is⟩

/-- As long as a video is open whose layers are watched, each layer is in step or left over. -/
theorem inStep_run {o : Offer} {as : List Act} (video : o.kind = .video)
    (watched : o.settings.watchesLiveness = true)
    (opened : (o.published.run peerOf as).1.closed = false) :
    (o.published.run peerOf as).1.Watching ∧ ∀ i,
      InStep (o.published.LeftOver peerOf as i) (o.published.run peerOf as).1.watch i := by
  induction as using List.reverseRecOn with
  | nil =>
    refine ⟨watching_published o, fun i => ?_⟩
    have inactive : o.published.watch.status? i ≠ some .active := by
      rw [LayerWatch.status?, show o.published.watch.trackers.get i = none from
        Vector.getElem_replicate i.isLt]
      exact (Option.some_ne_none _).symm
    refine .synced (iff_of_false List.not_mem_nil inactive) ?_
    rintro ⟨before, a, later, same, -⟩
    exact List.append_ne_nil_of_right_ne_nil before (List.cons_ne_nil a later) same.symm
  | append_singleton as a ih =>
    obtain ⟨m, steps⟩ := ih (closed_eq_false_of_concat opened)
    have terms := @sameTerms_run peerOf o.published as
    have r : Rewatched (o.published.run peerOf as).1 (o.published.run peerOf (as ++ [a])).1 := by
      rw [run_concat] at opened ⊢
      exact m.perform ⟨terms.kind.trans video, terms.settings ▸ watched⟩ opened
    exact ⟨m.rewatched r, fun i => inStep_concat m r (steps i)⟩

theorem mem_activeLayers : (i.val : Int) ∈ p.activeLayers ↔
    (p.upTracks.get i).isSome = true ∧ p.watch.status? i = some .active := by
  rw [activeLayers, List.mem_map]
  constructor
  · rintro ⟨j, hj, same⟩
    obtain rfl : j = i := Fin.ext (Int.ofNat.inj same)
    rwa [List.mem_filter, Bool.and_eq_true, decide_eq_true_eq, and_iff_right (List.mem_finRange j)] at hj
  · rintro ⟨up, active⟩
    refine ⟨i, List.mem_filter.2 ⟨List.mem_finRange i, ?_⟩, rfl⟩
    rw [Bool.and_eq_true, decide_eq_true_eq]
    exact ⟨up, active⟩

theorem pairwise_activeLayers (p : Publication) : p.activeLayers.Pairwise (· < ·) := by
  refine List.pairwise_map.2 (List.Pairwise.filter _ ?_)
  exact (List.pairwise_lt_finRange 3).imp fun less => Int.ofNat_lt.2 less

/-- The layers that flow are those that are active if every layer is in step, when no notice is left
to be acted on. -/
theorem Watching.available_eq_iff (m : p.Watching) (delivered : p.watch.pending = []) :
    p.available = p.activeLayers ↔ ∀ i, p.watch.Synced i := by
  have active (i : LayerIndex) : (i.val : Int) ∈ p.activeLayers ↔ p.watch.status? i = some .active := by
    rw [mem_activeLayers, m.paired, and_iff_right_iff_imp]
    intro status
    rw [LayerWatch.status?, Option.map_eq_some_iff] at status
    obtain ⟨x, found, -⟩ := status
    rw [LayerWatch.serial?, found]
    rfl
  have synced (i : LayerIndex) :
      p.watch.Synced i ↔ ((i.val : Int) ∈ p.available ↔ (i.val : Int) ∈ p.activeLayers) := by
    rw [active, LayerWatch.Synced, LayerWatch.Counted, delivered]
    rfl
  constructor
  · exact fun same i => (synced i).2 (by rw [same])
  · intro all
    refine List.Pairwise.eq_of_mem_iff m.sane.ordered (pairwise_activeLayers p) fun l => ?_
    constructor
    · intro hl
      obtain ⟨i, rfl⟩ := m.sane.known l hl
      exact ((synced i).1 (all i)).1 hl
    · intro hl
      obtain ⟨i, -, rfl⟩ := List.mem_map.1 hl
      exact ((synced i).1 (all i)).2 hl

/-- While the workers of an open video are idle whose layers are watched, the layers that flow are
those with an up track whose tracker is active, if and only if no layer is left over from a tracker
that has been replaced or removed. -/
theorem available_eq_activeLayers_iff {o : Offer} {as : List Act} (video : o.kind = .video)
    (watched : o.settings.watchesLiveness = true)
    (opened : (o.published.run peerOf as).1.closed = false)
    (idle : (o.published.run peerOf as).1.Idle) :
    (o.published.run peerOf as).1.available = (o.published.run peerOf as).1.activeLayers ↔
      ∀ i, ¬o.published.LeftOver peerOf as i := by
  obtain ⟨m, steps⟩ := inStep_run video watched opened
  rw [m.available_eq_iff idle.delivered]
  refine forall_congr' fun i => ?_
  cases steps i with
  | synced synced clear => exact iff_of_true synced clear
  | leftOver idling is => exact iff_of_false idling.not_synced fun clear => clear is

/-- The base layer gets another intake, which stays silent, and the reader of the one before comes to
its end. -/
def replacing : List Act :=
  starting ++ [.addUpTrack "q" videoIntake, .read firstFeed]

theorem available_eq_activeLayers_iff_replacing :
    Offer.video.kind = .video ∧ Offer.video.settings.watchesLiveness = true ∧
      (Offer.video.published.run (fun _ => "a") replacing).1.closed = false ∧
      (Offer.video.published.run (fun _ => "a") replacing).1.Idle ∧
      ((Offer.video.published.run (fun _ => "a") replacing).1.available =
          (Offer.video.published.run (fun _ => "a") replacing).1.activeLayers ↔
        ∀ i, ¬Offer.video.published.LeftOver (fun _ => "a") replacing i) :=
  ⟨rfl, rfl, by decide, by decide,
    available_eq_activeLayers_iff rfl rfl (by decide) (by decide)⟩

/-- The layer flows on, though its new tracker has seen no packet. -/
theorem available_replacing :
    (Offer.video.published.run (fun _ => "a") replacing).1.kind = .video ∧
      (Offer.video.published.run (fun _ => "a") replacing).1.settings.watchesLiveness = true ∧
      (Offer.video.published.run (fun _ => "a") replacing).1.closed = false ∧
      (Offer.video.published.run (fun _ => "a") replacing).1.Idle ∧
      (Offer.video.published.run (fun _ => "a") replacing).1.available = [0] ∧
      (Offer.video.published.run (fun _ => "a") replacing).1.available ≠
        (Offer.video.published.run (fun _ => "a") replacing).1.activeLayers := by
  decide

end Simulcast.Publication
