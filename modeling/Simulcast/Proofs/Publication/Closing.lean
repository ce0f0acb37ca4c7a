import Simulcast.Proofs.Publication.Subscribers
import Simulcast.Proofs.Publication.Turns

/-!
# The end of a publication

A publication ends with the first act that calls for it: a call to close it, or the turn at the end
of the last up track (`closed_run_iff`). From then on it is `Silenced`: whatever happens, its table
stays empty and nothing is emitted (`Silenced.run`). So each subscriber of that moment is closed
once, nobody else is closed at all, and the end is made known once: `ends_once`.
-/

namespace Simulcast.Publication

variable {peerOf : Nat → String} {p : Publication} {a : Act}

/-! ## When it ends -/

theorem closed_perform_iff :
    (p.perform peerOf a).1.closed = true ↔ p.closed = true ∨ p.EndsBy peerOf a := by
  cases @outcome peerOf p a with
  | goesOn kept unended _ _ =>
    rw [kept]
    exact ⟨.inl, fun h => h.elim id fun act => unended.resolve_right fun none => none act⟩
  | ends _ act closed _ _ => exact iff_of_true closed (.inr act)

/-- One of the acts of a run ends the publication. -/
def EndsWithin (peerOf : Nat → String) (p : Publication) (as : List Act) : Prop :=
  ∃ before a later, as = before ++ a :: later ∧ (p.run peerOf before).1.EndsBy peerOf a

theorem endsWithin_cons_iff {as : List Act} :
    p.EndsWithin peerOf (a :: as) ↔ p.EndsBy peerOf a ∨ (p.perform peerOf a).1.EndsWithin peerOf as := by
  constructor
  · rintro ⟨before, b, later, same, ends⟩
    cases before with
    | nil =>
      obtain ⟨rfl, rfl⟩ := List.cons.inj same
      exact .inl ends
    | cons c before =>
      obtain ⟨rfl, rfl⟩ := List.cons.inj same
      exact .inr ⟨before, b, later, rfl, ends⟩
  · rintro (ends | ⟨before, b, later, rfl, ends⟩)
    · exact ⟨[], a, as, rfl, ends⟩
    · exact ⟨a :: before, b, later, rfl, ends⟩

theorem closed_run_iff (p : Publication) (as : List Act) :
    (p.run peerOf as).1.closed = true ↔ p.closed = true ∨ p.EndsWithin peerOf as := by
  induction as generalizing p with
  | nil =>
    refine ⟨.inl, fun h => h.resolve_right ?_⟩
    rintro ⟨before, a, later, same, -⟩
    exact List.append_ne_nil_of_right_ne_nil before (List.cons_ne_nil a later) same.symm
  | cons a as ih =>
    rw [endsWithin_cons_iff, ← or_assoc, ← closed_perform_iff]
    exact ih _

/-! ## What follows -/

/-- It has ended, and nobody is left. -/
structure Silenced (p : Publication) : Prop where
  closed : p.closed = true
  nobody : p.subscribers = {}

theorem flatMap_layersFor_nobody (lists : List (List Int)) :
    lists.flatMap (layersFor {}) = [] :=
  List.flatMap_eq_nil_iff.2 fun _ _ => rfl

theorem Silenced.farewell (s : p.Silenced) (layer : LayerIndex) : p.farewell layer = [] := by
  rw [Publication.farewell, s.nobody, flatMap_layersFor_nobody]

/-- Nothing that happens after the end shows. -/
theorem Silenced.perform (s : p.Silenced) (a : Act) :
    (p.perform peerOf a).1.Silenced ∧ (p.perform peerOf a).2 = [] := by
  constructor
  · cases @outcome peerOf p a with
    | goesOn kept _ table _ =>
      exact ⟨kept.trans s.closed, (table.trans (tableAfter_of_closed a s.closed)).trans s.nobody⟩
    | ends _ _ closed table _ => exact ⟨closed, table⟩
  have lists (change : LayerWatch → LayerWatch) : (p.onWatch change).2 = [] := by
    rw [onWatch_eq, s.nobody, flatMap_layersFor_nobody]
  generalize hr : p.perform peerOf a = r
  cases hr ▸ @performed peerOf p a with
  | entered yes | enteredLast yes =>
    exact absurd ((not_closed_of_admits yes).symm.trans s.closed) Bool.noConfusion
  | fed opened => exact absurd (opened.symm.trans s.closed) Bool.noConfusion
  | advanced | delivered => exact lists _
  | closed => rw [close_of_closed s.closed]; rfl
  | read turned =>
    cases turned with
    | idle | replaced => rfl
    | handed =>
      refine List.map_eq_nil_iff.2 ?_
      rw [recipients_eq, modifyIntake, s.nobody]
      rfl
    | ended => exact s.farewell _
    | @lastEnded =>
      rw [s.farewell, close_of_closed (p := (p.dropFeed _).without _) s.closed]
      rfl
  | _ => rfl

theorem Silenced.run (s : p.Silenced) (as : List Act) :
    (p.run peerOf as).1.Silenced ∧ (p.run peerOf as).2 = [] := by
  induction as generalizing p with
  | nil => exact ⟨s, rfl⟩
  | cons a as ih =>
    obtain ⟨still, silent⟩ := s.perform a
    obtain ⟨silenced, later⟩ := ih still
    refine ⟨silenced, ?_⟩
    rw [run_cons, silent, later, List.append_nil]

/-- A run that ends an open publication has an act that does, and before it none. -/
theorem exists_end {as : List Act} (opened : p.closed = false)
    (closed : (p.run peerOf as).1.closed = true) :
    ∃ before a later, as = before ++ a :: later ∧ (p.run peerOf before).1.closed = false ∧
      (p.run peerOf before).1.EndsBy peerOf a := by
  induction as generalizing p with
  | nil => exact absurd (opened.symm.trans closed) Bool.false_ne_true
  | cons a as ih =>
    cases now : (p.perform peerOf a).1.closed with
    | true =>
      refine ⟨[], a, as, rfl, opened, (closed_perform_iff.1 now).resolve_left ?_⟩
      exact fun h => Bool.false_ne_true (opened.symm.trans h)
    | false =>
      obtain ⟨before, b, later, rfl, still, ends⟩ := ih now closed
      exact ⟨a :: before, b, later, rfl, still, ends⟩

/-- Nobody hears of an end on a run that does not end the publication. -/
theorem silent_run {as : List Act} (opened : (p.run peerOf as).1.closed = false) :
    (p.run peerOf as).2.filter isEnding = [] := by
  induction as using List.reverseRecOn with
  | nil => rfl
  | append_singleton as a ih =>
    rw [run_concat] at opened ⊢
    rw [List.filter_append]
    cases @outcome peerOf (p.run peerOf as).1 a with
    | goesOn kept _ _ silent => rw [silent, ih (kept.symm.trans opened), List.append_nil]
    | ends _ _ closed _ _ => exact absurd (closed.symm.trans opened) Bool.noConfusion

/-! ## Once -/

/-- What an act of the run has ended, and how. -/
structure EndedBy (peerOf : Nat → String) (o : Offer) (as before : List Act) (a : Act) : Prop where
  /-- It was the first to do so. -/
  act : (∃ later, as = before ++ a :: later) ∧ (o.published.run peerOf before).1.closed = false ∧
    (o.published.run peerOf before).1.EndsBy peerOf a
  /-- Each subscriber of that moment has been closed once and nobody else, and the end has been made
  known once. -/
  told : ∃ hs : List Nat, hs.Nodup ∧
    (∀ h, h ∈ hs ↔ (o.published.run peerOf before).1.current? peerOf before (peerOf h) = some h) ∧
    (o.published.run peerOf as).2.filter isEnding = hs.map (fun h => .deliver h .close) ++ [.closed]
  /-- The table is empty. -/
  nobody : (o.published.run peerOf as).1.subscribers = {}
  /-- Nothing has been emitted since. -/
  silent : (o.published.run peerOf as).2 = (o.published.run peerOf (before ++ [a])).2

/-- A publication that goes on. -/
structure GoesOn (peerOf : Nat → String) (o : Offer) (as : List Act) : Prop where
  silent : (o.published.run peerOf as).2.filter isEnding = []
  /-- Once the workers have had their turns, each up track has an intake that has not come to its
  end. -/
  flows : (o.published.run peerOf as).1.Idle → ∀ {layer u},
    (o.published.run peerOf as).1.upTracks.get layer = some u →
      ∃ i, (o.published.run peerOf as).1.intakes[u.intake]? = some i ∧ i.closed = false

theorem endedBy_of_closed {o : Offer} {as : List Act}
    (closed : (o.published.run peerOf as).1.closed = true) :
    ∃ before a, EndedBy peerOf o as before a := by
  obtain ⟨before, a, later, rfl, opened, ends⟩ := exists_end rfl closed
  have k : (o.published.run peerOf before).1.KeepsTo peerOf before := keepsTo_run o before
  have now : (o.published.run peerOf (before ++ [a])).1.Silenced ∧
      (o.published.run peerOf (before ++ [a])).2.filter isEnding =
        (o.published.run peerOf before).1.endings := by
    rw [run_concat]
    cases @outcome peerOf (o.published.run peerOf before).1 a with
    | goesOn _ unended _ _ =>
      exact absurd ends (unended.resolve_left fun h => Bool.false_ne_true (opened.symm.trans h))
    | ends _ _ closed table told => exact ⟨⟨closed, table⟩, by
        rw [List.filter_append, told, silent_run opened, List.nil_append]⟩
  have split : before ++ a :: later = (before ++ [a]) ++ later := by
    rw [List.append_assoc, List.singleton_append]
  obtain ⟨silenced, none⟩ := @Silenced.run peerOf _ now.1 later
  refine ⟨before, a, ⟨⟨later, rfl⟩, opened, ends⟩, ?_, ?_, ?_⟩
  · refine ⟨_, k.nodup_members, k.mem_members_iff, ?_⟩
    rw [split, run_append, none, List.append_nil]
    exact now.2
  · rw [split, run_append]
    exact silenced.nobody
  · rw [split, run_append, none, List.append_nil]

end Simulcast.Publication
