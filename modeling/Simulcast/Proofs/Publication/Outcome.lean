import Simulcast.Proofs.Publication.Act
import Simulcast.Proofs.SubscriberTable

/-!
# The table of subscribers in a run

What an act does to the table of subscribers and to the end of a publication is told once, by
`outcome`: the publication ends with it, its subscribers are closed and the table is emptied; or it
goes on, nobody is told of an end, and the table changes as `tableAfter` says. The acts that end an
open publication are those of `EndsBy`.

A packet goes to those in the table when a reader has its turn with it (`turn_of_next`), and
otherwise no packet is handed out (`packets_perform`).
-/

namespace Simulcast.Publication

variable {peerOf : Nat → String} {p : Publication} {a : Act}

/-- The acts that end an open publication: a call to close it, by a subscriber that comes or by
anybody else, and the turn at the end of the last up track. -/
def EndsBy (peerOf : Nat → String) (p : Publication) : Act → Prop
  | .close => True
  | .subscribe h ends => ends = true ∧ p.admits (peerOf h) = true
  | .read f => p.AtEnd f ∧ p.FeedsAlone f
  | _ => False

/-- The table after an act that does not end the publication. -/
def tableAfter (peerOf : Nat → String) (p : Publication) : Act → SubscriberTable Nat
  | .subscribe h _ => if p.admits (peerOf h) then p.subscribers.add (peerOf h) h else p.subscribers
  | .unsubscribe peer => if p.closed then p.subscribers else p.subscribers.remove peer
  | _ => p.subscribers

/-- An event that tells of the end. -/
def isEnding : PublicationEvent → Bool
  | .deliver _ .close | .closed => true
  | _ => false

/-- What is told at the end. -/
def endings (p : Publication) : List PublicationEvent :=
  p.subscribers.members.map (fun h => .deliver h .close) ++ [.closed]

/-- What an act comes to. -/
inductive Outcome (peerOf : Nat → String) (p : Publication) (a : Act) (r : Result) : Prop where
  | goesOn (kept : r.1.closed = p.closed) (unended : p.closed = true ∨ ¬p.EndsBy peerOf a)
      (table : r.1.subscribers = p.tableAfter peerOf a) (silent : r.2.filter isEnding = [])
  | ends (opened : p.closed = false) (act : p.EndsBy peerOf a) (closed : r.1.closed = true)
      (table : r.1.subscribers = {}) (told : r.2.filter isEnding = p.endings)

/-! ## The end -/

section

variable {kind : PublicationEvent → Bool} (other : ∀ h layers, kind (.deliver h (.availableLayers layers)) = false)
include other

/-- Announcements are lists of layers, and nothing of any other kind. -/
theorem filter_layersFor (t : SubscriberTable Nat) (lists : List (List Int)) :
    (lists.flatMap (layersFor t)).filter kind = [] := by
  rw [List.filter_eq_nil_iff]
  simp only [List.mem_flatMap, layersFor, List.mem_map]
  rintro _ ⟨layers, -, h, -, rfl⟩
  rw [other]
  exact Bool.false_ne_true

theorem filter_greeting (p : Publication) (h : Nat) : (p.greeting h).filter kind = [] := by
  unfold greeting
  split
  · rw [List.filter_cons, other]
    rfl
  · rfl

end

theorem endings_close (h : p.closed = false) : p.close.2.filter isEnding = p.endings := by
  rw [close_of_open h]
  refine List.filter_eq_self.2 ?_
  simp only [List.mem_append, List.mem_map, List.mem_singleton]
  rintro _ (⟨_, -, rfl⟩ | rfl) <;> rfl

theorem not_endsBy_of_isAside (h : a.isAside = true) : ¬p.EndsBy peerOf a := by
  cases a <;> first | exact id | cases h

theorem tableAfter_of_isAside (h : a.isAside = true) : p.tableAfter peerOf a = p.subscribers := by
  cases a <;> first | rfl | cases h

theorem outcome_close : Outcome peerOf p .close p.close := by
  cases opened : p.closed with
  | true =>
    rw [close_of_closed opened]
    exact .goesOn rfl (.inl opened) rfl rfl
  | false =>
    refine .ends opened trivial ?_ ?_ (endings_close opened) <;> rw [close_of_open opened]

theorem Turned.outcome {f : Feed} {r : Result} (turned : p.Turned f r) :
    Outcome peerOf p (.read f) r := by
  cases turned with
  | idle _ goesOn => exact .goesOn rfl (.inr fun act => goesOn act.1) rfl rfl
  | handed live found queue =>
    refine .goesOn rfl (.inr fun act => ?_) rfl ?_
    · obtain ⟨-, j, hj, hq, -⟩ := act.1
      cases found.symm.trans hj
      rw [queue] at hq
      cases hq
    · rw [List.filter_eq_nil_iff]
      simp only [handOut, List.mem_map]
      rintro _ ⟨_, -, rfl⟩
      exact Bool.false_ne_true
  | replaced ends other => exact .goesOn rfl (.inr fun act => other act.2.1) rfl rfl
  | ended ends own notLast =>
    have unended : ¬p.EndsBy peerOf (.read f) := fun act => notLast act.2
    exact .goesOn rfl (.inr unended) rfl (filter_layersFor (fun _ _ => rfl) _ _)
  | lastEnded ends last =>
    cases opened : p.closed with
    | true =>
      rw [close_of_closed (p := (p.dropFeed f).without f.layer) opened]
      refine .goesOn rfl (.inl opened) rfl ?_
      rw [Publication.quiet, List.append_nil]
      exact filter_layersFor (fun _ _ => rfl) _ _
    | false =>
      refine .ends opened ⟨ends, last⟩ ?_ ?_ ?_
      · rw [close_of_open (p := (p.dropFeed f).without f.layer) opened]
      · rw [close_of_open (p := (p.dropFeed f).without f.layer) opened]
      · rw [List.filter_append, farewell, filter_layersFor fun _ _ => rfl, List.nil_append]
        exact endings_close (p := (p.dropFeed f).without f.layer) opened

theorem outcome (p : Publication) (a : Act) : Outcome peerOf p a (p.perform peerOf a) := by
  generalize hr : p.perform peerOf a = r
  cases hr ▸ @performed peerOf p a with
  | aside act alike =>
    exact .goesOn alike.closed (.inr (not_endsBy_of_isAside act))
      (alike.subscribers.trans (tableAfter_of_isAside act).symm) rfl
  | refused no =>
    refine .goesOn rfl (.inr fun act => Bool.false_ne_true (no.symm.trans act.2)) ?_ rfl
    rw [tableAfter, no]
    rfl
  | entered yes =>
    refine .goesOn rfl (.inr fun act => Bool.false_ne_true act.1) ?_ (filter_greeting (fun _ _ => rfl) p _)
    rw [tableAfter, if_pos yes]
  | @enteredLast h yes =>
    have opened := not_closed_of_admits yes
    refine .ends opened ⟨rfl, yes⟩ ?_ ?_ ?_
    · rw [close_of_open opened]
    · rw [close_of_open opened]
    · change (p.close.2 ++ p.close.1.greeting h).filter isEnding = p.endings
      rw [List.filter_append, endings_close opened, filter_greeting fun _ _ => rfl, List.append_nil]
  | stayed closed => exact .goesOn rfl (.inl closed) (by rw [tableAfter, if_pos closed]; rfl) rfl
  | left opened => exact .goesOn rfl (.inr id) (by rw [tableAfter, opened]; rfl) rfl
  | unfed => exact .goesOn rfl (.inr id) rfl rfl
  | fed opened =>
    rw [feedLayer_eq]
    exact .goesOn rfl (.inr id) rfl (filter_layersFor (fun _ _ => rfl) _ _)
  | paused | expecting => exact .goesOn rfl (.inr id) rfl rfl
  | advanced | delivered => exact .goesOn rfl (.inr id) rfl (filter_layersFor (fun _ _ => rfl) _ _)
  | closed => exact outcome_close
  | read turned => exact turned.outcome

theorem closed_eq_false_of_concat {as : List Act}
    (opened : (p.run peerOf (as ++ [a])).1.closed = false) : (p.run peerOf as).1.closed = false := by
  rw [run_concat] at opened
  cases @outcome peerOf (p.run peerOf as).1 a with
  | goesOn kept _ _ _ => exact kept.symm.trans opened
  | ends before _ _ _ _ => exact before

/-! ## What stays -/

/-- Publications of one kind, treated in the same way. -/
structure SameTerms (p q : Publication) : Prop where
  kind : q.kind = p.kind
  settings : q.settings = p.settings

theorem sameTerms_close (p : Publication) : p.SameTerms p.close.1 := by
  cases opened : p.closed with
  | true => rw [close_of_closed opened]; exact ⟨rfl, rfl⟩
  | false => rw [close_of_open opened]; exact ⟨rfl, rfl⟩

theorem sameTerms_perform (p : Publication) (a : Act) : p.SameTerms (p.perform peerOf a).1 := by
  generalize hr : p.perform peerOf a = r
  cases hr ▸ @performed peerOf p a with
  | aside _ alike => exact ⟨alike.kind, alike.settings⟩
  | enteredLast | closed => exact sameTerms_close p
  | fed => rw [feedLayer_eq]; exact ⟨rfl, rfl⟩
  | @read f _ turned =>
    cases turned with
    | idle | handed | replaced | ended => exact ⟨rfl, rfl⟩
    | lastEnded =>
      obtain ⟨kind, settings⟩ := sameTerms_close ((p.dropFeed f).without f.layer)
      exact ⟨kind, settings⟩
  | _ => exact ⟨rfl, rfl⟩

theorem sameTerms_run (p : Publication) (as : List Act) : p.SameTerms (p.run peerOf as).1 := by
  refine run_induction (P := fun q _ => p.SameTerms q) ⟨rfl, rfl⟩ (fun q _ a h => ?_) as
  obtain ⟨kind, settings⟩ := @sameTerms_perform peerOf q a
  exact ⟨kind.trans h.kind, settings.trans h.settings⟩

/-! ## Packets -/

/-- An event that hands a packet out. -/
def isPacket : PublicationEvent → Bool
  | .deliver _ (.packet _ _) => true
  | _ => false

/-- A packet of a feed handed to each of some subscribers. -/
def handed (f : Feed) (x : Arrival) (hs : List Nat) : List PublicationEvent :=
  hs.map fun h => .deliver h (.packet x f.layer.val)

theorem recipients_eq (p : Publication) : p.recipients = p.subscribers.members := by
  rw [recipients, FanOut.order_eq, SubscriberTable.members]

/-- The turn of a reader with a packet hands it to all in the table, and does nothing else that
shows. -/
theorem turn_of_next {f : Feed} {x : Arrival} (h : p.Next f x) :
    (p.turn f).2 = handed f x p.subscribers.members := by
  obtain ⟨live, i, found, head⟩ := h
  obtain ⟨rest, queue⟩ := List.head?_eq_some_iff.1 head
  simp only [turn, live, if_true, found, Intake.read, queue]
  exact congrArg (handed f x) (recipients_eq p)

theorem packets_close (p : Publication) : p.close.2.filter isPacket = [] := by
  cases opened : p.closed with
  | true => rw [close_of_closed opened]; rfl
  | false =>
    rw [close_of_open opened, List.filter_eq_nil_iff]
    simp only [List.mem_append, List.mem_map, List.mem_singleton]
    rintro _ (⟨_, -, rfl⟩ | rfl) <;> exact Bool.false_ne_true

/-- No packet is handed out but by the turn of a reader that has one. -/
theorem packets_perform (none : ∀ f x, a = .read f → ¬p.Next f x) :
    (p.perform peerOf a).2.filter isPacket = [] := by
  generalize hr : p.perform peerOf a = r
  cases hr ▸ @performed peerOf p a with
  | entered => exact filter_greeting (fun _ _ => rfl) p _
  | @enteredLast h =>
    change (p.close.2 ++ p.close.1.greeting h).filter isPacket = []
    rw [List.filter_append, packets_close, filter_greeting fun _ _ => rfl, List.append_nil]
  | fed =>
    rw [feedLayer_eq]
    exact filter_layersFor (fun _ _ => rfl) _ _
  | advanced | delivered => exact filter_layersFor (fun _ _ => rfl) _ _
  | closed => exact packets_close p
  | read turned =>
    cases turned with
    | idle | replaced => rfl
    | handed live found queue => exact absurd ⟨live, _, found, by rw [queue]; rfl⟩ (none _ _ rfl)
    | ended => exact filter_layersFor (fun _ _ => rfl) _ _
    | lastEnded =>
      rw [List.filter_append, farewell, filter_layersFor fun _ _ => rfl, packets_close, List.append_nil]
  | _ => rfl

end Simulcast.Publication
