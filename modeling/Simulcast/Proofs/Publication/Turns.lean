import Simulcast.Proofs.Publication.Outcome

/-!
# Turns and rest

The workers of a publication have their turns one by one, and a publication is idle when none of
them has anything to do. In every run each up track has a reader of its own (`Tended`), so an idle
publication has no layer whose intake has been closed (`Idle.not_closed`).

To settle a publication is to give the workers turns until it is idle: `settle_eq_run`,
`idle_settle`. So every run can be carried on to rest: `exists_idle`.
-/

namespace Simulcast.Publication

variable {peerOf : Nat → String} {p : Publication} {f : Feed}

/-- No worker has anything to do. -/
structure Idle (p : Publication) : Prop where
  read : ∀ f x, ¬p.Next f x
  ended : ∀ f, ¬p.AtEnd f
  delivered : p.watch.pending = []

theorem idle_iff : p.Idle ↔
    (∀ f ∈ p.feeds, p.intakes[f.intake]?.all fun i => i.queue.isEmpty && !i.closed) ∧
      p.watch.pending = [] := by
  constructor
  · rintro ⟨read, ended, delivered⟩
    refine ⟨fun f live => ?_, delivered⟩
    cases found : p.intakes[f.intake]? with
    | none => rfl
    | some i =>
      rw [Option.all_some, Bool.and_eq_true, List.isEmpty_iff, Bool.not_eq_true']
      have empty : i.queue = [] := by
        cases queue : i.queue with
        | nil => rfl
        | cons x rest => exact absurd ⟨live, i, found, by rw [queue]; rfl⟩ (read f x)
      exact ⟨empty, Bool.eq_false_iff.2 fun closed => ended f ⟨live, i, found, empty, closed⟩⟩
  · rintro ⟨rests, delivered⟩
    have rest {f i} (live : f ∈ p.feeds) (found : p.intakes[f.intake]? = some i) :
        i.queue = [] ∧ i.closed = false := by
      have := rests f live
      rwa [found, Option.all_some, Bool.and_eq_true, List.isEmpty_iff, Bool.not_eq_true'] at this
    refine ⟨fun f x next => ?_, fun f ends => ?_, delivered⟩
    · obtain ⟨live, i, found, head⟩ := next
      rw [(rest live found).1] at head
      cases head
    · obtain ⟨live, i, found, -, closed⟩ := ends
      rw [(rest live found).2] at closed
      cases closed

instance (p : Publication) : Decidable p.Idle := decidable_of_iff _ idle_iff.symm

/-- Each feed has a known intake of its own, and each up track has a feed. -/
structure Tended (p : Publication) : Prop where
  known : ∀ f ∈ p.feeds, f.intake < p.intakes.length
  apart : p.feeds.Pairwise fun f g => f.intake ≠ g.intake
  fed : ∀ {layer u}, p.upTracks.get layer = some u → ∃ f ∈ p.feeds, f.layer = layer ∧ p.Feeds f

theorem Tended.exists_intake (t : p.Tended) (live : f ∈ p.feeds) : ∃ i, p.intakes[f.intake]? = some i :=
  ⟨_, List.getElem?_eq_getElem (t.known f live)⟩

/-- In an idle publication no layer has an intake that has come to its end. -/
theorem Idle.not_closed (h : p.Idle) (t : p.Tended) {layer : LayerIndex} {u : UpTrack}
    (hu : p.upTracks.get layer = some u) :
    ∃ i, p.intakes[u.intake]? = some i ∧ i.queue = [] ∧ i.closed = false := by
  obtain ⟨f, live, rfl, own⟩ := t.fed hu
  rw [Feeds, hu, Option.map_some, Option.some.injEq] at own
  obtain ⟨i, found⟩ := t.exists_intake live
  have rests := (idle_iff.1 h).1 f live
  rw [found, Option.all_some, Bool.and_eq_true, List.isEmpty_iff, Bool.not_eq_true'] at rests
  exact ⟨i, own ▸ found, rests⟩

/-! ## Readers of up tracks -/

theorem length_closing (intakes : List Intake) (which : List Nat) :
    (closing intakes which).length = intakes.length := by
  induction which generalizing intakes with
  | nil => rfl
  | cons i which ih => exact (ih _).trans (List.length_modify _ _ _)

/-- What only the feeds, the up tracks and the number of intakes decide. -/
theorem Tended.congr {q : Publication} (t : p.Tended) (upTracks : q.upTracks = p.upTracks)
    (feeds : q.feeds = p.feeds) (intakes : p.intakes.length ≤ q.intakes.length) : q.Tended where
  known f live := Nat.lt_of_lt_of_le (t.known f (feeds ▸ live)) intakes
  apart := feeds ▸ t.apart
  fed {layer u} hu := by
    obtain ⟨f, live, own⟩ := t.fed (upTracks ▸ hu)
    exact ⟨f, feeds ▸ live, by rwa [Feeds, upTracks]⟩

theorem tended_published (o : Offer) : o.published.Tended where
  known := nofun
  apart := .nil
  fed {layer u} hu := by
    have none : o.published.upTracks.get layer = none := Vector.getElem_replicate layer.isLt
    rw [none] at hu
    cases hu

theorem Tended.close (t : p.Tended) : p.close.1.Tended := by
  cases opened : p.closed with
  | true => rwa [close_of_closed opened]
  | false =>
    rw [close_of_open opened]
    refine ⟨fun f live => ?_, t.apart, fun {layer u} hu => ?_⟩
    · exact Nat.lt_of_lt_of_eq (t.known f live) (length_closing _ _).symm
    · have none : (Vector.replicate 3 none : Vector (Option UpTrack) 3).get layer = none :=
        Vector.getElem_replicate layer.isLt
      cases none.symm.trans hu

/-- A new up track gets a feed and an intake of its own. -/
theorem Tended.feedLayer {i : Intake} (t : p.Tended) (rid : String) (layer : LayerIndex) :
    ({ p with intakes := p.intakes ++ [i] }.feedLayer rid layer i.ssrc p.intakes.length).1.Tended := by
  rw [feedLayer_eq]
  have length : ({ p with intakes := p.intakes ++ [i] }.retire layer).intakes.length =
      p.intakes.length + 1 := by
    unfold retire
    split
    · exact List.length_append
    · exact (List.length_modify _ _ _).trans List.length_append
  refine ⟨fun f live => ?_, ?_, fun {l u} hu => ?_⟩
  · change f.intake < ({ p with intakes := p.intakes ++ [i] }.retire layer).intakes.length
    rw [length]
    rcases List.mem_append.1 live with live | new
    · exact Nat.lt_succ_of_lt (t.known f live)
    · rw [List.mem_singleton.1 new]
      exact Nat.lt_succ_self _
  · refine List.pairwise_append.2 ⟨t.apart, List.pairwise_singleton _ _, fun f live g new => ?_⟩
    rw [List.mem_singleton.1 new]
    exact Nat.ne_of_lt (t.known f live)
  · simp only [get_set] at hu
    split at hu
    · rename_i same
      refine ⟨_, List.mem_append_right _ (List.mem_singleton_self _), same, ?_⟩
      simp only [Feeds, get_set, if_true, Option.map_some]
    · rename_i other
      obtain ⟨f, live, rfl, own⟩ := t.fed hu
      refine ⟨f, List.mem_append_left _ live, rfl, ?_⟩
      simp only [Feeds, get_set]
      rwa [if_neg other]

theorem mem_feeds_dropFeed {g : Feed} : g ∈ (p.dropFeed f).feeds ↔ g ∈ p.feeds ∧ g ≠ f := by
  simp only [dropFeed, List.mem_filter, bne_iff_ne]

/-- The feed of an intake that has been replaced is not missed. -/
theorem Tended.dropFeed (t : p.Tended) (other : ¬p.Feeds f) : (p.dropFeed f).Tended where
  known g live := t.known g (mem_feeds_dropFeed.1 live).1
  apart := t.apart.filter _
  fed {layer u} hu := by
    obtain ⟨g, live, here, own⟩ := t.fed hu
    exact ⟨g, mem_feeds_dropFeed.2 ⟨live, fun same => other (same ▸ own)⟩, here, own⟩

theorem Tended.without (t : p.Tended) : ((p.dropFeed f).without f.layer).Tended where
  known g live := t.known g (mem_feeds_dropFeed.1 live).1
  apart := t.apart.filter _
  fed {layer u} hu := by
    simp only [Publication.without, Publication.dropFeed, get_set] at hu
    split at hu
    · cases hu
    · rename_i other
      obtain ⟨g, live, rfl, own⟩ := t.fed hu
      refine ⟨g, mem_feeds_dropFeed.2 ⟨live, fun same => other (same ▸ rfl)⟩, rfl, ?_⟩
      simp only [Feeds, Publication.without, Publication.dropFeed, get_set]
      rwa [if_neg other]

theorem Tended.perform (t : p.Tended) (a : Act) : (p.perform peerOf a).1.Tended := by
  generalize hr : p.perform peerOf a = r
  cases hr ▸ @performed peerOf p a with
  | aside _ alike => exact t.congr alike.upTracks alike.feeds (Nat.le_of_eq alike.intakes.symm)
  | enteredLast | closed => exact t.close
  | unfed => exact t.congr rfl rfl (by rw [quiet, List.length_append]; exact Nat.le_add_right _ _)
  | fed => exact t.feedLayer _ _
  | read turned =>
    cases turned with
    | idle => exact t
    | handed => exact t.congr rfl rfl (Nat.le_of_eq (List.length_modify _ _ _).symm)
    | replaced _ other => exact t.dropFeed other
    | ended => exact t.without
    | lastEnded => exact t.without.close
  | _ => exact t.congr rfl rfl (Nat.le_refl _)

theorem Tended.run (t : p.Tended) (as : List Act) : (p.run peerOf as).1.Tended :=
  run_induction (P := fun p _ => p.Tended) t (fun _ _ a t => t.perform a) as

theorem tended_run (o : Offer) (as : List Act) : (o.published.run peerOf as).1.Tended :=
  (tended_published o).run as

/-! ## Settling -/

/-- The turns of workers. -/
def Act.isTurn : Act → Bool
  | .read _ | .deliver _ => true
  | _ => false

/-- The reader of a feed has nothing to do. -/
structure Resting (p : Publication) (f : Feed) : Prop where
  read : ∀ x, ¬p.Next f x
  ended : ¬p.AtEnd f

theorem resting_of_gone (h : f ∉ p.feeds) : p.Resting f := ⟨fun _ next => h next.1, fun ends => h ends.1⟩

theorem resting_of_found {i : Intake} (found : p.intakes[f.intake]? = some i) (queue : i.queue = [])
    (closed : i.closed = false) : p.Resting f where
  read x next := by
    obtain ⟨-, j, hj, head⟩ := next
    cases found.symm.trans hj
    rw [queue] at head
    cases head
  ended ends := by
    obtain ⟨-, j, hj, -, shut⟩ := ends
    cases found.symm.trans hj
    rw [closed] at shut
    cases shut

/-- What a feed has to do depends on the feeds and on its intake alone. -/
theorem Resting.congr {q : Publication} (h : p.Resting f) (feeds : f ∈ q.feeds → f ∈ p.feeds)
    (intake : q.intakes[f.intake]? = p.intakes[f.intake]?) : q.Resting f where
  read x next := h.read x ⟨feeds next.1, intake ▸ next.2⟩
  ended ends := h.ended ⟨feeds ends.1, intake ▸ ends.2⟩

/-- What a turn at an intake leaves alone: the other intakes, and the other feeds. -/
structure Beside (p q : Publication) (f : Feed) : Prop where
  intakes : ∀ n, n ≠ f.intake → q.intakes[n]? = p.intakes[n]?
  kept : ∀ g ∈ p.feeds, g ≠ f → g ∈ q.feeds
  fewer : ∀ g ∈ q.feeds, g ∈ p.feeds

theorem Beside.refl (p : Publication) (f : Feed) : Beside p p f :=
  ⟨fun _ _ => rfl, fun _ live _ => live, fun _ live => live⟩

theorem Beside.trans {q r : Publication} (h : Beside p q f) (h' : Beside q r f) : Beside p r f :=
  ⟨fun n other => (h'.intakes n other).trans (h.intakes n other),
    fun g live other => h'.kept g (h.kept g live other) other, fun g live => h.fewer g (h'.fewer g live)⟩

theorem beside_dropFeed (p : Publication) (f : Feed) : Beside p (p.dropFeed f) f :=
  ⟨fun _ _ => rfl, fun _ live other => mem_feeds_dropFeed.2 ⟨live, other⟩,
    fun _ live => (mem_feeds_dropFeed.1 live).1⟩

/-- The end of the last layer finds no intake that is still to be closed. -/
theorem close_without_of_feedsAlone (last : p.FeedsAlone f) :
    ((p.without f.layer).close.1).intakes = p.intakes ∧
      ((p.without f.layer).close.1).feeds = p.feeds := by
  have none : (p.without f.layer).liveIntakes = [] :=
    List.length_eq_zero_iff.1 (without_empty_iff.2 last.2)
  cases opened : (p.without f.layer).closed with
  | true => rw [close_of_closed opened]; exact ⟨rfl, rfl⟩
  | false => rw [close_of_open opened, none]; exact ⟨rfl, rfl⟩

theorem beside_turn (p : Publication) (f : Feed) : Beside p (p.turn f).1 f := by
  generalize hr : p.turn f = r
  cases hr ▸ turned p f with
  | idle => exact .refl p f
  | handed =>
    exact ⟨fun n other => List.getElem?_modify_ne _ _ (Ne.symm other), fun _ live _ => live, fun _ live => live⟩
  | replaced => exact beside_dropFeed p f
  | ended => exact (beside_dropFeed p f).trans ⟨fun _ _ => rfl, fun _ live _ => live, fun _ live => live⟩
  | lastEnded ends last =>
    obtain ⟨intakes, feeds⟩ := close_without_of_feedsAlone (p := p.dropFeed f) last
    exact (beside_dropFeed p f).trans ⟨fun n _ => by rw [intakes], fun g live _ => feeds ▸ live,
      fun g live => feeds ▸ live⟩

/-! ### One feed -/

theorem turn_of_packet {i : Intake} {x : Arrival} {rest : List Arrival} (live : f ∈ p.feeds)
    (found : p.intakes[f.intake]? = some i) (queue : i.queue = x :: rest) :
    p.turn f = (p.modifyIntake f.intake fun _ => { i with queue := rest }).handOut f x := by
  simp only [turn, live, if_true, found, Intake.read, queue]

theorem turn_of_empty {i : Intake} (live : f ∈ p.feeds) (found : p.intakes[f.intake]? = some i)
    (queue : i.queue = []) :
    p.turn f = if i.closed then (p.dropFeed f).endLayer f.layer f.intake else p.quiet := by
  simp only [turn, live, if_true, found, Intake.read, queue]
  cases i.closed <;> rfl

theorem getElem?_modifyIntake {i : Intake} (found : p.intakes[f.intake]? = some i)
    (change : Intake → Intake) :
    (p.modifyIntake f.intake change).intakes[f.intake]? = some (change i) := by
  rw [modifyIntake, List.getElem?_modify_eq, found]
  rfl

/-- Only what becomes of the intake that is there counts. -/
theorem modifyIntake_congr {i : Intake} {change : Intake → Intake} (other : Intake → Intake)
    {n : Nat} (found : p.intakes[n]? = some i) (same : change i = other i) :
    p.modifyIntake n change = p.modifyIntake n other := by
  have intakes : p.intakes.modify n change = p.intakes.modify n other := by
    refine List.ext_getElem? fun m => ?_
    by_cases here : n = m
    · rw [← here, List.getElem?_modify_eq, List.getElem?_modify_eq, found]
      exact congrArg some same
    · rw [List.getElem?_modify_ne _ _ here, List.getElem?_modify_ne _ _ here]
  rw [modifyIntake, modifyIntake, intakes]

theorem modifyIntake_modifyIntake (n : Nat) (change other : Intake → Intake) :
    (p.modifyIntake n change).modifyIntake n other = p.modifyIntake n (other ∘ change) := by
  simp only [modifyIntake, List.modify_modify_eq]

theorem andThen_assoc (r : Result) (next later : Publication → Result) :
    andThen (andThen r next) later = andThen r fun p => andThen (next p) later := by
  simp only [andThen, List.append_assoc]

/-- What follows when an intake with an end is empty. -/
def whenEmpty (f : Feed) (closed : Bool) (p : Publication) : Result :=
  if closed then (p.dropFeed f).endLayer f.layer f.intake else p.quiet

/-- A publication with the queue of a feed taken out. -/
def drained (p : Publication) (f : Feed) : Publication :=
  p.modifyIntake f.intake fun i => { i with queue := [] }

theorem runFeed_eq {i : Intake} (found : p.intakes[f.intake]? = some i) :
    p.runFeed f = andThen (handOutAll f (p.drained f) i.queue) (whenEmpty f i.closed) := by
  unfold runFeed
  rw [found]
  rfl

/-- To read on after a packet has been handed out is to go on reading. -/
theorem runFeed_of_packet {i : Intake} {x : Arrival} {rest : List Arrival} (live : f ∈ p.feeds)
    (found : p.intakes[f.intake]? = some i) (queue : i.queue = x :: rest) :
    p.runFeed f = andThen (p.turn f) fun p => p.runFeed f := by
  have emptied : (p.modifyIntake f.intake fun _ => { i with queue := rest }).drained f =
      p.drained f := by
    rw [drained, modifyIntake_modifyIntake]
    exact modifyIntake_congr _ found rfl
  have left : (p.turn f).1.intakes[f.intake]? = some { i with queue := rest } := by
    rw [turn_of_packet live found queue]
    exact getElem?_modifyIntake found _
  have same : (p.turn f).1.drained f = ((p.drained f).handOut f x).1 := by
    rw [turn_of_packet live found queue, ← emptied]
    rfl
  calc p.runFeed f
      = andThen (andThen ((p.drained f).handOut f x) fun p => handOutAll f p rest)
          (whenEmpty f i.closed) := by rw [runFeed_eq found, queue, handOutAll]
    _ = andThen ((p.drained f).handOut f x) fun p =>
          andThen (handOutAll f p rest) (whenEmpty f i.closed) := andThen_assoc _ _ _
    _ = andThen (p.turn f) fun p => p.runFeed f := by
        simp only [andThen, runFeed_eq left, same]
        rw [turn_of_packet live found queue]
        rfl

theorem runFeed_of_empty {i : Intake} (live : f ∈ p.feeds) (found : p.intakes[f.intake]? = some i)
    (queue : i.queue = []) : p.runFeed f = p.turn f := by
  have same : p.drained f = p := by
    rw [drained, modifyIntake_congr id found (by rw [← queue]; rfl), modifyIntake, List.modify_id]
  rw [turn_of_empty live found queue, runFeed_eq found, queue, same]
  exact Prod.ext rfl (List.nil_append _)

/-- A turn that finds no packet leaves its reader with nothing to do. -/
theorem resting_turn {i : Intake} (live : f ∈ p.feeds) (found : p.intakes[f.intake]? = some i)
    (queue : i.queue = []) : (p.turn f).1.Resting f := by
  cases closed : i.closed with
  | false =>
    rw [turn_of_empty live found queue, closed]
    exact resting_of_found found queue closed
  | true =>
    have gone : ∀ {q : Publication}, q.feeds = (p.dropFeed f).feeds → q.Resting f := fun feeds =>
      resting_of_gone fun still => (mem_feeds_dropFeed.1 (feeds ▸ still)).2 rfl
    generalize hr : p.turn f = r
    cases hr ▸ turned p f with
    | idle _ goesOn => exact absurd ⟨live, i, found, queue, closed⟩ goesOn
    | handed _ other full =>
      cases found.symm.trans other
      rw [queue] at full
      cases full
    | replaced => exact gone rfl
    | ended => exact gone rfl
    | lastEnded _ last => exact gone (close_without_of_feedsAlone (p := p.dropFeed f) last).2

/-- To read an intake as far as it goes is a number of turns, and leaves nothing to do. -/
theorem runFeed_eq_run {i : Intake} (live : f ∈ p.feeds) (found : p.intakes[f.intake]? = some i) :
    p.runFeed f = p.run peerOf (List.replicate (i.queue.length + 1) (.read f)) ∧
      Beside p (p.runFeed f).1 f ∧ (p.runFeed f).1.Resting f := by
  induction queue : i.queue generalizing p i with
  | nil =>
    rw [runFeed_of_empty live found queue]
    refine ⟨?_, beside_turn p f, resting_turn live found queue⟩
    simp only [List.length_nil, Nat.zero_add, List.replicate_one, run, perform, andThen, quiet,
      List.append_nil]
  | cons x rest ih =>
    have next := turn_of_packet live found queue
    have still : f ∈ (p.turn f).1.feeds := by rw [next]; exact live
    have left : (p.turn f).1.intakes[f.intake]? = some { i with queue := rest } := by
      rw [next]
      exact getElem?_modifyIntake found _
    obtain ⟨run, beside, resting⟩ := ih still left rfl
    rw [runFeed_of_packet live found queue]
    refine ⟨?_, (beside_turn p f).trans beside, resting⟩
    rw [List.length_cons, List.replicate_succ, Publication.run, perform, andThen, run]
    rfl

/-! ### All feeds -/

theorem runFeeds_eq_run {fs : List Feed} (t : p.Tended) (live : ∀ f ∈ fs, f ∈ p.feeds)
    (apart : fs.Pairwise fun f g => f.intake ≠ g.intake) :
    (∃ turns, (∀ a ∈ turns, a.isTurn = true) ∧ runFeeds p fs = p.run peerOf turns) ∧
      (∀ f ∈ (runFeeds p fs).1.feeds, f ∈ p.feeds) ∧
      ∀ f, f ∈ fs ∨ p.Resting f ∧ (∀ g ∈ fs, f.intake ≠ g.intake) → (runFeeds p fs).1.Resting f := by
  induction fs generalizing p with
  | nil =>
    refine ⟨⟨[], nofun, rfl⟩, fun _ live => live, ?_⟩
    rintro f (none | ⟨resting, -⟩)
    · cases none
    · exact resting
  | cons f fs ih =>
    obtain ⟨here, others⟩ := List.pairwise_cons.1 apart
    obtain ⟨i, found⟩ := t.exists_intake (live f List.mem_cons_self)
    obtain ⟨run, beside, resting⟩ := @runFeed_eq_run peerOf p f i (live f List.mem_cons_self) found
    have tended : (p.runFeed f).1.Tended := run ▸ t.run _
    have live' : ∀ g ∈ fs, g ∈ (p.runFeed f).1.feeds := fun g hg =>
      beside.kept g (live g (List.mem_cons_of_mem f hg)) fun same => here g hg (same ▸ rfl)
    obtain ⟨⟨turns, areTurns, same⟩, fewer, rest⟩ := ih tended live' others
    refine ⟨⟨List.replicate (i.queue.length + 1) (.read f) ++ turns, ?_, ?_⟩,
      fun g hg => beside.fewer g (fewer g hg), ?_⟩
    · intro a ha
      rcases List.mem_append.1 ha with ha | ha
      · rw [List.eq_of_mem_replicate ha]
        rfl
      · exact areTurns a ha
    · rw [runFeeds, run_append, ← run, ← same]
      rfl
    · rintro g (hg | ⟨idle, other⟩)
      · rcases List.mem_cons.1 hg with rfl | hg
        · exact rest g (.inr ⟨resting, here⟩)
        · exact rest g (.inl hg)
      · refine rest g (.inr ⟨idle.congr (beside.fewer g) (beside.intakes _ ?_), fun g' hg' => ?_⟩)
        · exact other f List.mem_cons_self
        · exact other g' (List.mem_cons_of_mem f hg')

/-! ### All that is left -/

/-- To act on all notices is a turn for each, and one for what was announced before. -/
theorem onWatch_deliver_eq_run : p.onWatch LayerWatch.deliver =
    p.run peerOf (p.watch.pending.map (fun n => .deliver n.1) ++ [.deliver 0]) := by
  induction pending : p.watch.pending generalizing p with
  | nil =>
    have same : p.watch.deliver = p.watch.deliverNext 0 := by
      rw [LayerWatch.deliver_eq, LayerWatch.deliverNext, pending]
      simp only [LayerWatch.noticedAll, LayerWatch.newsAll, List.foldl_nil, List.append_nil,
        List.find?_nil]
      rw [← pending]
    simp only [List.map_nil, List.nil_append, run, perform, andThen, quiet, List.append_nil, onWatch,
      same]
  | cons n rest ih =>
    have first : p.watch.pending = [] ++ n :: rest := pending
    have next := LayerWatch.deliverNext_of_append first (List.forall_mem_nil _)
    have left : (p.onWatch fun w => w.deliverNext n.1).1.watch.pending = rest := by
      rw [onWatch_eq, next]
      rfl
    rw [List.map_cons, List.cons_append, run, perform, andThen, ← ih left]
    simp only [onWatch_eq, LayerWatch.deliver_eq, next, pending, LayerWatch.collect,
      LayerWatch.noticedAll, LayerWatch.newsAll, List.foldl_cons, List.nil_append,
      List.flatMap_append, List.append_assoc]

/-- To settle is to give the workers their turns. -/
theorem settle_eq_run (t : p.Tended) :
    ∃ turns, (∀ a ∈ turns, a.isTurn = true) ∧ p.settle = p.run peerOf turns := by
  obtain ⟨⟨turns, areTurns, same⟩, -⟩ := @runFeeds_eq_run peerOf p p.feeds t (fun _ live => live) t.apart
  refine ⟨turns ++ ((runFeeds p p.feeds).1.watch.pending.map (fun n => .deliver n.1) ++ [.deliver 0]),
    ?_, ?_⟩
  · intro a ha
    rcases List.mem_append.1 ha with ha | ha
    · exact areTurns a ha
    · rcases List.mem_append.1 ha with ha | ha
      · obtain ⟨n, -, rfl⟩ := List.mem_map.1 ha
        rfl
      · rw [List.mem_singleton.1 ha]
        rfl
  · rw [settle, run_append, andThen, ← same, ← onWatch_deliver_eq_run]

/-- A publication that has been settled is idle. -/
theorem idle_settle (t : p.Tended) : p.settle.1.Idle := by
  obtain ⟨-, fewer, resting⟩ := @runFeeds_eq_run (fun _ => "") p p.feeds t (fun _ live => live) t.apart
  have rests (f : Feed) : (runFeeds p p.feeds).1.Resting f := by
    by_cases live : f ∈ (runFeeds p p.feeds).1.feeds
    · exact resting f (.inl (fewer f live))
    · exact resting_of_gone live
  exact ⟨fun f => (rests f).read, fun f => (rests f).ended, by rw [settle, andThen, onWatch_eq, LayerWatch.deliver_eq]; rfl⟩

/-- After every run there is an idle publication to be had, by turns of the workers alone. -/
theorem exists_idle (o : Offer) (as : List Act) :
    ∃ turns, (∀ a ∈ turns, a.isTurn = true) ∧ (o.published.run peerOf (as ++ turns)).1.Idle := by
  obtain ⟨turns, areTurns, settled⟩ := @settle_eq_run peerOf _ (@tended_run peerOf o as)
  refine ⟨turns, areTurns, ?_⟩
  rw [run_append, ← settled]
  exact idle_settle (tended_run o as)

end Simulcast.Publication
