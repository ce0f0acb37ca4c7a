import Simulcast.Proofs.Publication.Subscribers
import Simulcast.Proofs.Publication.Turns

/-!
# What subscribers know of the layers

Whatever changes the layers that flow tells all subscribers so in the same act, and one who comes is
told of them unless none flows. So the last list that a subscriber got is the one that holds, with
one exception: one who comes while nothing flows, and knows of layers from a time before, is not
told that they are gone (`Stale`). That is `lastTold_eq_available_iff`.
-/

namespace Simulcast.Publication

variable {peerOf : Nat → String} {p q : Publication} {a : Act} {h : Nat} {es : List PublicationEvent}

/-- The list of layers that somebody is told with an event. -/
def told? (h : Nat) : PublicationEvent → Option (List Int)
  | .deliver j (.availableLayers layers) => if j = h then some layers else none
  | _ => none

/-- The lists of layers that somebody has been told. -/
def told (h : Nat) (es : List PublicationEvent) : List (List Int) := es.filterMap (told? h)

/-- The last of them, empty if there is none. -/
def lastTold (h : Nat) (es : List PublicationEvent) : List Int := (told h es).getLast?.getD []

/-- Somebody came while nothing flowed, knew of layers then, and has been told nothing since. -/
def Stale (peerOf : Nat → String) (p : Publication) (as : List Act) (h : Nat) : Prop :=
  ∃ before ends later, as = before ++ .subscribe h ends :: later ∧
    (p.run peerOf before).1.admits (peerOf h) = true ∧
    (p.run peerOf before).1.available = [] ∧
    lastTold h (p.run peerOf before).2 ≠ [] ∧
    told h ((p.run peerOf before).1.run peerOf (.subscribe h ends :: later)).2 = []

theorem told_append (h : Nat) (es es' : List PublicationEvent) :
    told h (es ++ es') = told h es ++ told h es' := List.filterMap_append

theorem lastTold_append_of_nil (silent : told h es = []) (log : List PublicationEvent) :
    lastTold h (log ++ es) = lastTold h log := by
  rw [lastTold, told_append, silent, List.append_nil, lastTold]

theorem lastTold_append (log es : List PublicationEvent) :
    lastTold h (log ++ es) = (told h es).getLast?.getD (lastTold h log) := by
  rw [lastTold, told_append, List.getLast?_append]
  cases (told h es).getLast? <;> rfl

/-- One of several who are told a list is told it once. -/
theorem told_layersFor {t : SubscriberTable Nat} (once : t.members.Nodup) (member : h ∈ t.members)
    (lists : List (List Int)) : told h (lists.flatMap (layersFor t)) = lists := by
  have one (layers : List Int) : told h (layersFor t layers) = [layers] := by
    rw [told, layersFor, List.filterMap_map]
    generalize t.members = hs at once member
    induction hs with
    | nil => cases member
    | cons j hs ih =>
      obtain ⟨new, once⟩ := List.nodup_cons.1 once
      rw [List.filterMap_cons]
      simp only [Function.comp_apply, told?]
      by_cases same : j = h
      · rw [if_pos same]
        refine congrArg (layers :: ·) (List.filterMap_eq_nil_iff.2 fun k hk => ?_)
        exact if_neg fun (here : k = h) => new ((same.trans here.symm) ▸ hk)
      · rw [if_neg same]
        exact ih once ((List.mem_cons.1 member).resolve_left (Ne.symm same))
  induction lists with
  | nil => rfl
  | cons layers lists ih =>
    rw [List.flatMap_cons, told_append, one, ih, List.singleton_append]

/-! ## What an act announces -/

/-- What an act on a publication announces, if it leaves it open. -/
inductive Announces (peerOf : Nat → String) (p : Publication) (a : Act) (r : Result) : Prop where
  | nothing (available : r.1.available = p.available)
      (members : ∀ h ∈ r.1.subscribers.members, h ∈ p.subscribers.members)
      (silent : ∀ h, told h r.2 = [])
  | lists (lists : List (List Int)) (table : r.1.subscribers = p.subscribers)
      (events : r.2 = lists.flatMap (layersFor p.subscribers))
      (last : lists.getLast?.getD p.available = r.1.available)
  | greeting (h : Nat) (ends : Bool) (act : a = .subscribe h ends)
      (yes : p.admits (peerOf h) = true) (available : r.1.available = p.available)
      (table : r.1.subscribers = p.subscribers.add (peerOf h) h)
      (events : r.2 = .deliver h (.trackType p.simulcast) :: p.greeting h)

/-- The watch has passed on what it announced. -/
def Collected (p : Publication) : Prop := p.watch.announcements = []

theorem Collected.close (c : p.Collected) : p.close.1.Collected := by
  cases opened : p.closed with
  | true => rwa [close_of_closed opened]
  | false => rwa [close_of_open opened]

theorem Collected.perform (c : p.Collected) (a : Act) : (p.perform peerOf a).1.Collected := by
  generalize hr : p.perform peerOf a = r
  cases hr ▸ @performed peerOf p a with
  | aside _ alike => rwa [Collected, quiet, alike.watch]
  | enteredLast | closed => exact c.close
  | fed => rw [feedLayer_eq]; rfl
  | paused | expecting => exact (LayerWatch.waits_foldl_modify _ _ _).announcements.trans c
  | advanced | delivered => rfl
  | @read f _ turned =>
    cases turned with
    | idle | replaced => exact c
    | handed =>
      simp only [Collected, handOut]
      cases f.tracker with
      | none => exact c
      | some key => exact (LayerWatch.waits_observe _ _ _).announcements.trans c
    | ended => rfl
    | lastEnded => exact Collected.close rfl
  | _ => exact c

theorem collected_run (o : Offer) (as : List Act) : (o.published.run peerOf as).1.Collected :=
  run_induction (p := o.published) (P := fun p _ => p.Collected) rfl (fun _ _ a c => c.perform a) as

/-- A change of the watch is announced to all subscribers. -/
theorem Collected.onWatch (c : p.Collected) (change : LayerWatch → LayerWatch)
    (tells : LayerWatch.Tells p.watch (change p.watch)) :
    Announces peerOf p a (p.onWatch change) := by
  obtain ⟨lists, told, last⟩ := tells
  rw [onWatch_eq]
  refine .lists lists rfl ?_ last
  rw [told, c, List.nil_append]

theorem tells_expecting (p : Publication) (layer : LayerIndex) :
    LayerWatch.Tells p.watch (p.expecting layer) := by
  by_cases watched : p.kind = .video ∧ p.settings.watchesLiveness = true
  · rw [expecting_of_watched watched, LayerWatch.addTracker]
    split <;> exact .of_eq rfl rfl
  · rw [expecting_of_unwatched watched]
    exact LayerWatch.tells_notice p.watch (layer, .active)

theorem tells_removal (w : LayerWatch) (layer : LayerIndex) :
    LayerWatch.Tells w ((w.removeTracker layer.val).removeAvailable layer.val) := by
  have removed : LayerWatch.Tells w (w.removeTracker layer.val) := by
    unfold LayerWatch.removeTracker
    split <;> exact .of_eq rfl rfl
  exact removed.trans (LayerWatch.tells_notice _ (layer, .stopped))

theorem Collected.announces (c : p.Collected) (sound : p.subscribers.Sound)
    (opened : (p.perform peerOf a).1.closed = false) :
    Announces peerOf p a (p.perform peerOf a) := by
  generalize hr : p.perform peerOf a = r at opened ⊢
  cases hr ▸ @performed peerOf p a with
  | aside _ alike =>
    refine .nothing ?_ (fun h hm => alike.subscribers ▸ hm) fun _ => rfl
    rw [available, quiet, alike.watch, available]
  | @entered h yes => exact .greeting h false rfl yes rfl rfl rfl
  | enteredLast | closed => exact absurd opened (not_open_close _)
  | left => exact .nothing rfl (fun h hm => sound.mem_members_remove hm) fun _ => rfl
  | @fed rid i layer going =>
    rw [feedLayer_eq]
    obtain ⟨lists, told, last⟩ := tells_expecting { p with intakes := p.intakes ++ [i] } layer
    refine .lists lists rfl ?_ last
    rw [told, c, List.nil_append]
  | paused | expecting =>
    exact .nothing (LayerWatch.waits_foldl_modify _ _ _).available (fun _ hm => hm) fun _ => rfl
  | @advanced nanos => exact c.onWatch (·.advance nanos) (LayerWatch.tells_advance p.watch nanos)
  | @delivered layer => exact c.onWatch _ (p.watch.tells_deliverNext layer)
  | @read f _ turned =>
    cases turned with
    | idle | replaced => exact .nothing rfl (fun _ hm => hm) fun _ => rfl
    | handed =>
      refine .nothing ?_ (fun _ hm => hm) fun h => ?_
      · simp only [available, handOut]
        cases f.tracker with
        | none => rfl
        | some key => exact (LayerWatch.waits_observe _ _ _).available
      · refine List.filterMap_eq_nil_iff.2 fun e he => ?_
        obtain ⟨j, -, rfl⟩ := List.mem_map.1 he
        rfl
    | ended =>
      obtain ⟨lists, told, last⟩ := tells_removal p.watch f.layer
      refine .lists lists rfl ?_ last
      rw [farewell, told, c, List.nil_append]
    | lastEnded => exact absurd opened (not_open_close _)
  | _ => exact .nothing rfl (fun _ hm => hm) fun _ => rfl

/-! ## Who is not told -/

/-- An act lets somebody in while nothing flows, who knows of layers from before. -/
def Misses (peerOf : Nat → String) (r : Result) (a : Act) (h : Nat) : Prop :=
  ∃ ends, a = .subscribe h ends ∧ r.1.admits (peerOf h) = true ∧ r.1.available = [] ∧
    lastTold h r.2 ≠ []

theorem stale_concat {as : List Act} : p.Stale peerOf (as ++ [a]) h ↔
    told h ((p.run peerOf as).1.perform peerOf a).2 = [] ∧
      (p.Stale peerOf as h ∨ Misses peerOf (p.run peerOf as) a h) := by
  constructor
  · rintro ⟨before, ends, later, same, yes, nothing, knew, silent⟩
    obtain ⟨rfl, rfl, rfl⟩ | ⟨later, rfl, rfl⟩ := split_concat same
    · rw [run_cons, told_append, List.append_eq_nil_iff] at silent
      exact ⟨silent.1, .inr ⟨ends, rfl, yes, nothing, knew⟩⟩
    · rw [← List.cons_append, run_concat, told_append, List.append_eq_nil_iff] at silent
      rw [run_append]
      exact ⟨silent.2, .inl ⟨before, ends, later, rfl, yes, nothing, knew, silent.1⟩⟩
  · rintro ⟨silent, ⟨before, ends, later, rfl, yes, nothing, knew, quiet⟩ | ⟨ends, rfl, yes, nothing, knew⟩⟩
    · rw [run_append] at silent
      refine ⟨before, ends, later ++ [a], ?_, yes, nothing, knew, ?_⟩
      · rw [List.append_assoc, List.cons_append]
      · rw [← List.cons_append, run_concat, told_append, quiet, silent, List.append_nil]
    · refine ⟨as, ends, [], rfl, yes, nothing, knew, ?_⟩
      rw [run_cons, told_append, silent]
      rfl

/-- One who has been told nothing since has known of layers all along. -/
theorem Stale.lastTold_ne_nil {as : List Act} (s : p.Stale peerOf as h) :
    lastTold h (p.run peerOf as).2 ≠ [] := by
  obtain ⟨before, ends, later, rfl, -, -, knew, silent⟩ := s
  rwa [run_append, lastTold_append_of_nil silent]

/-- A subscriber knows the layers that flow, or is not told that none does. -/
inductive Knows (stale : Prop) (h : Nat) (r : Result) : Prop where
  | current (same : lastTold h r.2 = r.1.available) (fresh : ¬stale)
  | outdated (nothing : r.1.available = []) (missed : stale)

section

variable {stale missed : Prop} {log : List PublicationEvent}

/-- Who is told nothing while nothing changes knows as much as before. -/
theorem Knows.unchanged (knows : Knows stale h (p, log)) (same : q.available = p.available)
    (silent : told h es = []) (none : ¬missed) :
    Knows (told h es = [] ∧ (stale ∨ missed)) h (q, log ++ es) := by
  cases knows with
  | current knows fresh =>
    refine .current ?_ fun now => now.2.elim fresh none
    rw [lastTold_append_of_nil silent, knows, same]
  | outdated nothing before => exact .outdated (same.trans nothing) ⟨silent, .inl before⟩

/-- Who is told something goes by the last that is told. -/
theorem Knows.of_told {layers : List Int} {lists : List (List Int)} (all : told h es = layers :: lists)
    (last : (layers :: lists).getLast?.getD [] = q.available) :
    Knows (told h es = [] ∧ missed) h (q, log ++ es) := by
  refine .current ?_ fun now => List.cons_ne_nil layers lists (all.symm.trans now.1)
  rw [lastTold_append, all, ← last, List.getLast?_cons]
  rfl

/-- Who is told nothing while nothing flows is right if no layers are known from before. -/
theorem Knows.of_nothing (known : stale → lastTold h log ≠ []) (nothing : q.available = [])
    (silent : told h es = []) (misses : missed ↔ lastTold h log ≠ []) :
    Knows (told h es = [] ∧ (stale ∨ missed)) h (q, log ++ es) := by
  by_cases knew : lastTold h log = []
  · refine .current ?_ fun now => now.2.elim known misses.1 knew
    rw [lastTold_append_of_nil silent, knew, nothing]
  · exact .outdated nothing ⟨silent, .inr (misses.2 knew)⟩

end

theorem told_greeting_of_ne {j : Nat} (other : j ≠ h) : told h (p.greeting j) = [] := by
  unfold greeting
  split
  · simp only [told, List.filterMap_cons, told?, if_neg other, List.filterMap_nil]
  · rfl

theorem told_greeting (video : p.kind = .video) (flows : p.available ≠ []) :
    told h (p.greeting h) = [p.available] := by
  rw [greeting, if_pos ⟨video, flows⟩]
  simp only [told, List.filterMap_cons, told?, if_true, List.filterMap_nil]

theorem greeting_of_nothing (nothing : p.available = []) : p.greeting h = [] :=
  if_neg fun flows => flows.2 nothing

/-- Who is subscribed already is not let in. -/
theorem KeepsTo.not_misses {r : Result} {as : List Act} (k : r.1.KeepsTo peerOf as)
    (stays : h ∈ r.1.subscribers.members) : ¬Misses peerOf r a h := by
  rintro ⟨ends, -, yes, -⟩
  have taken := k.isSome_current? (peerOf h)
  rw [(k.mem_members_iff h).1 stays, not_contains_of_admits yes] at taken
  cases taken

/-- What an act does to what a subscriber knows. -/
theorem knows_concat {o : Offer} {as : List Act} (video : o.kind = .video)
    (opened : (o.published.run peerOf (as ++ [a])).1.closed = false)
    (member : h ∈ (o.published.run peerOf (as ++ [a])).1.subscribers.members)
    (before : h ∈ (o.published.run peerOf as).1.subscribers.members →
      Knows (o.published.Stale peerOf as h) h (o.published.run peerOf as)) :
    Knows (o.published.Stale peerOf (as ++ [a]) h) h (o.published.run peerOf (as ++ [a])) := by
  have k : (o.published.run peerOf as).1.KeepsTo peerOf as := keepsTo_run o as
  have c : (o.published.run peerOf as).1.Collected := collected_run o as
  have isVideo : (o.published.run peerOf as).1.kind = .video := (sameTerms_run _ as).kind.trans video
  have known : o.published.Stale peerOf as h → lastTold h (o.published.run peerOf as).2 ≠ [] :=
    Stale.lastTold_ne_nil
  rw [stale_concat, run_concat]
  rw [run_concat] at opened member
  generalize o.published.Stale peerOf as h = stale at before known ⊢
  generalize o.published.run peerOf as = r at k c isVideo opened member before known ⊢
  cases c.announces k.sound opened with
  | nothing available members silent =>
    have stays := members h member
    exact (before stays).unchanged available (silent h) (k.not_misses stays)
  | lists lists table events last =>
    rw [table] at member
    have all : told h (r.1.perform peerOf a).2 = lists := by
      rw [events, told_layersFor k.nodup_members member]
    cases lists with
    | nil => exact (before member).unchanged last.symm all (k.not_misses member)
    | cons layers lists =>
      rw [List.getLast?_cons] at last
      exact .of_told all (List.getLast?_cons ▸ last)
  | greeting j ends act yes available table events =>
    have heard : told h (r.1.perform peerOf a).2 = told h (r.1.greeting j) := by
      rw [events]
      rfl
    by_cases own : j = h
    · subst own
      by_cases flows : r.1.available = []
      · rw [greeting_of_nothing flows] at heard
        refine .of_nothing known (available.trans flows) heard ⟨fun ⟨_, _, _, _, knew⟩ => knew, ?_⟩
        exact fun knew => ⟨ends, act, yes, flows, knew⟩
      · rw [told_greeting isVideo flows] at heard
        exact .of_told heard available.symm
    · rw [table] at member
      have stays := (k.sound.mem_members_add member).resolve_left (Ne.symm own)
      exact (before stays).unchanged available (heard.trans (told_greeting_of_ne own)) (k.not_misses stays)

theorem knows_run {o : Offer} {as : List Act} (video : o.kind = .video)
    (opened : (o.published.run peerOf as).1.closed = false)
    (member : h ∈ (o.published.run peerOf as).1.subscribers.members) :
    Knows (o.published.Stale peerOf as h) h (o.published.run peerOf as) := by
  induction as using List.reverseRecOn with
  | nil => cases member
  | append_singleton as a ih =>
    exact knows_concat video opened member fun before => ih (closed_eq_false_of_concat opened) before

/-- The last list of layers that a subscriber to a video has been told is the one that holds, unless
it came when nothing flowed, knew of layers then, and has been told nothing since. -/
theorem lastTold_eq_available_iff {o : Offer} {as : List Act} (video : o.kind = .video)
    (subscribed : (o.published.run peerOf as).1.current? peerOf as (peerOf h) = some h) :
    lastTold h (o.published.run peerOf as).2 = (o.published.run peerOf as).1.available ↔
      ¬o.published.Stale peerOf as h := by
  have k : (o.published.run peerOf as).1.KeepsTo peerOf as := keepsTo_run o as
  have opened : (o.published.run peerOf as).1.closed = false := by
    rw [current?, Option.ite_none_left_eq_some] at subscribed
    exact Bool.eq_false_iff.2 subscribed.1
  cases knows_run video opened ((k.mem_members_iff h).2 subscribed) with
  | current same fresh => exact iff_of_true same fresh
  | outdated nothing missed =>
    refine iff_of_false (fun same => ?_) fun fresh => fresh missed
    exact missed.lastTold_ne_nil (same.trans nothing)

/-- A subscriber comes while the base layer flows, leaves, and comes again when no packet has come for
a cycle. -/
def comingBack : List Act :=
  starting ++ [.subscribe 0 false, .unsubscribe "a", .advance (500 * nanosPerMilli), .subscribe 0 false]

theorem lastTold_eq_available_iff_comingBack :
    Offer.video.kind = .video ∧
      (Offer.video.published.run (fun _ => "a") comingBack).1.current? (fun _ => "a") comingBack "a" =
        some 0 ∧
      (lastTold 0 (Offer.video.published.run (fun _ => "a") comingBack).2 =
          (Offer.video.published.run (fun _ => "a") comingBack).1.available ↔
        ¬Offer.video.published.Stale (fun _ => "a") comingBack 0) :=
  ⟨rfl, by decide, lastTold_eq_available_iff rfl (by decide)⟩

/-- It still goes by the layer that it was told of at first. -/
theorem lastTold_comingBack :
    (Offer.video.published.run (fun _ => "a") comingBack).1.kind = .video ∧
      (Offer.video.published.run (fun _ => "a") comingBack).1.closed = false ∧
      (Offer.video.published.run (fun _ => "a") comingBack).1.Idle ∧
      (Offer.video.published.run (fun _ => "a") comingBack).1.current? (fun _ => "a") comingBack "a" =
        some 0 ∧
      lastTold 0 (Offer.video.published.run (fun _ => "a") comingBack).2 ≠
        (Offer.video.published.run (fun _ => "a") comingBack).1.available := by
  decide

end Simulcast.Publication
