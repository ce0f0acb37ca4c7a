import Simulcast.Proofs.Publication.Outcome

/-!
# Who is subscribed

Whom a publication serves can be told from what has happened to it, without its table: for each
peer the one who came first for it since the peer last left, and nobody once the publication has
ended (`current?`). The table keeps to that after every run, and its three parts to one another;
packets then go to those, to each once: that is `tabulated`.
-/

namespace Simulcast.Publication

/-- An act by which a peer leaves. -/
def Act.leaves (peer : String) : Act → Bool
  | .unsubscribe other => other = peer
  | _ => false

variable (peerOf : Nat → String)

/-- Who comes for a peer with an act. -/
def Act.newcomer? (peer : String) : Act → Option Nat
  | .subscribe h _ => if peerOf h = peer then some h else none
  | _ => none

/-- What has happened since a peer last left. -/
def sinceLeaving (peer : String) (as : List Act) : List Act :=
  (as.reverse.takeWhile fun a => !a.leaves peer).reverse

/-- Who came first for a peer since it last left. -/
def first? (as : List Act) (peer : String) : Option Nat :=
  (sinceLeaving peer as).findSome? (Act.newcomer? peerOf peer)

/-- Who is subscribed for a peer to a publication to which some acts have happened. -/
def current? (p : Publication) (as : List Act) (peer : String) : Option Nat :=
  if p.closed then none else first? peerOf as peer

variable {peerOf : Nat → String} {p : Publication} {as : List Act} {peer : String}

/-! ## Coming and leaving -/

theorem sinceLeaving_concat (as : List Act) (a : Act) :
    sinceLeaving peer (as ++ [a]) =
      if a.leaves peer = true then [] else sinceLeaving peer as ++ [a] := by
  simp only [sinceLeaving, List.reverse_append, List.reverse_singleton, List.singleton_append,
    List.takeWhile_cons]
  cases a.leaves peer with
  | true => rfl
  | false => exact List.reverse_cons

theorem first?_concat (as : List Act) (a : Act) :
    first? peerOf (as ++ [a]) peer =
      if a.leaves peer = true then none
      else (first? peerOf as peer).or (a.newcomer? peerOf peer) := by
  rw [first?, sinceLeaving_concat]
  split
  · rfl
  · rw [List.findSome?_append, List.findSome?_singleton, first?]

/-- Nobody is taken for another peer than its own. -/
theorem peer_of_first? {h : Nat} (hf : first? peerOf as peer = some h) : peerOf h = peer := by
  obtain ⟨a, -, ha⟩ := List.exists_of_findSome?_eq_some hf
  cases a with
  | subscribe j ends =>
    rw [Act.newcomer?, Option.ite_none_right_eq_some] at ha
    exact Option.some.inj ha.2 ▸ ha.1
  | _ => cases ha

theorem peer_of_current? {h : Nat} (hc : p.current? peerOf as peer = some h) : peerOf h = peer := by
  rw [current?, Option.ite_none_left_eq_some] at hc
  exact peer_of_first? hc.2

/-! ## The table after a run -/

/-- The table is sound, and leads each peer to whom it should. -/
structure KeepsTo (peerOf : Nat → String) (p : Publication) (as : List Act) : Prop where
  sound : p.subscribers.Sound
  leads : ∀ peer, p.subscribers.subscriber? peer = p.current? peerOf as peer

theorem KeepsTo.isSome_current? (k : p.KeepsTo peerOf as) (peer : String) :
    (p.current? peerOf as peer).isSome = p.subscribers.contains peer := by
  rw [← k.leads, k.sound.isSome_subscriber?]

theorem tableAfter_of_closed (a : Act) (h : p.closed = true) :
    p.tableAfter peerOf a = p.subscribers := by
  cases a with
  | subscribe => rw [tableAfter, not_admits_of_closed h]; rfl
  | unsubscribe => rw [tableAfter, if_pos h]
  | _ => rfl

theorem sound_tableAfter (sound : p.subscribers.Sound) (a : Act) : (p.tableAfter peerOf a).Sound := by
  cases a with
  | subscribe h ends =>
    rw [tableAfter]
    split
    · rename_i yes
      exact sound.add (not_contains_of_admits yes)
    · exact sound
  | unsubscribe gone =>
    rw [tableAfter]
    split
    · exact sound
    · exact sound.remove gone
  | _ => exact sound

/-- Who comes is let in unless somebody is there already. -/
theorem subscriber?_subscribe (sound : p.subscribers.Sound) (opened : p.closed = false) (h : Nat)
    (ends : Bool) (peer : String) : (p.tableAfter peerOf (.subscribe h ends)).subscriber? peer =
      (p.subscribers.subscriber? peer).or (if peerOf h = peer then some h else none) := by
  rw [tableAfter]
  by_cases same : peerOf h = peer
  swap
  · rw [if_neg same, Option.or_none]
    split
    · rename_i yes
      rw [sound.subscriber?_add (not_contains_of_admits yes), if_neg (Ne.symm same)]
    · rfl
  subst same
  have there := sound.isSome_subscriber? (peerOf h)
  cases yes : p.admits (peerOf h) with
  | true =>
    have free := not_contains_of_admits yes
    rw [free, Option.isSome_eq_false_iff, Option.isNone_iff_eq_none] at there
    rw [if_pos rfl, if_pos rfl, sound.subscriber?_add free, if_pos rfl, there, Option.none_or]
  | false =>
    rw [admits, opened, Bool.not_false, Bool.true_and, Bool.not_eq_false'] at yes
    rw [yes] at there
    obtain ⟨j, hj⟩ := Option.isSome_iff_exists.1 there
    rw [if_neg Bool.false_ne_true, hj, Option.some_or]

theorem subscriber?_unsubscribe (sound : p.subscribers.Sound) (opened : p.closed = false)
    (gone peer : String) : (p.tableAfter peerOf (.unsubscribe gone)).subscriber? peer =
      if gone = peer then none else p.subscribers.subscriber? peer := by
  rw [tableAfter, opened, if_neg Bool.false_ne_true, sound.subscriber?_remove]
  simp only [eq_comm]

/-- The table after an act on an open publication, which stays open. -/
theorem KeepsTo.tableAfter (k : p.KeepsTo peerOf as) (opened : p.closed = false) (a : Act)
    (peer : String) : (p.tableAfter peerOf a).subscriber? peer = first? peerOf (as ++ [a]) peer := by
  have before : p.subscribers.subscriber? peer = first? peerOf as peer := by
    rw [k.leads, current?, opened]
    rfl
  rw [first?_concat, ← before]
  cases a with
  | subscribe h ends => exact subscriber?_subscribe k.sound opened h ends peer
  | unsubscribe gone =>
    rw [subscriber?_unsubscribe k.sound opened]
    simp only [Act.leaves, decide_eq_true_eq]
    split
    · rfl
    · exact (Option.or_none).symm
  | _ => exact (Option.or_none).symm

theorem KeepsTo.perform (k : p.KeepsTo peerOf as) (a : Act) :
    (p.perform peerOf a).1.KeepsTo peerOf (as ++ [a]) := by
  have now {q : Publication} (closed : q.closed = true) (table : q.subscribers.Sound)
      (nobody : ∀ peer, q.subscribers.subscriber? peer = none) : q.KeepsTo peerOf (as ++ [a]) :=
    ⟨table, fun peer => by rw [nobody, current?, if_pos closed]⟩
  cases @outcome peerOf p a with
  | goesOn kept _ table _ =>
    cases opened : p.closed with
    | true =>
      have same := table.trans (tableAfter_of_closed a opened)
      refine now (kept.trans opened) (same ▸ k.sound) fun peer => ?_
      rw [same, k.leads, current?, if_pos opened]
    | false =>
      refine ⟨table ▸ sound_tableAfter k.sound a, fun peer => ?_⟩
      rw [table, k.tableAfter opened, current?, kept, opened]
      rfl
  | ends _ _ closed table _ =>
    exact now closed (table ▸ SubscriberTable.sound_empty) fun peer => by rw [table]; rfl

theorem keepsTo_run (o : Offer) (as : List Act) :
    (o.published.run peerOf as).1.KeepsTo peerOf as := by
  induction as using List.reverseRecOn with
  | nil => exact ⟨SubscriberTable.sound_empty, fun _ => rfl⟩
  | append_singleton as a ih =>
    rw [run_concat]
    exact ih.perform a

theorem KeepsTo.mem_members_iff (k : p.KeepsTo peerOf as) (h : Nat) :
    h ∈ p.subscribers.members ↔ p.current? peerOf as (peerOf h) = some h := by
  rw [k.sound.mem_members_iff]
  constructor
  · rintro ⟨peer, hp⟩
    rw [k.leads] at hp
    rwa [peer_of_current? hp]
  · exact fun hc => ⟨peerOf h, by rw [k.leads, hc]⟩

theorem KeepsTo.nodup_members (k : p.KeepsTo peerOf as) : p.subscribers.members.Nodup := by
  refine k.sound.nodup_members fun {peer other h} hp ho => ?_
  rw [k.leads] at hp ho
  rw [← peer_of_current? hp, peer_of_current? ho]

/-- The table only grows with an act when no slot is free. -/
theorem free_eq_nil_of_grows {a : Act} (grows : p.subscribers.slots.length <
    (p.perform peerOf a).1.subscribers.slots.length) : p.subscribers.free = [] := by
  have stays {t : SubscriberTable Nat} (same : t.slots.length = p.subscribers.slots.length)
      (longer : p.subscribers.slots.length < t.slots.length) : p.subscribers.free = [] :=
    absurd same (Nat.ne_of_gt longer)
  cases @outcome peerOf p a with
  | ends _ _ _ table _ =>
    rw [table] at grows
    exact absurd grows (Nat.not_lt_zero _)
  | goesOn _ _ table _ =>
    rw [table] at grows
    cases a with
    | subscribe h ends =>
      rw [tableAfter] at grows
      split at grows
      · exact SubscriberTable.free_eq_nil_of_length_lt grows
      · exact stays rfl grows
    | unsubscribe peer =>
      rw [tableAfter] at grows
      split at grows
      · exact stays rfl grows
      · exact stays SubscriberTable.length_remove grows
    | _ => exact stays rfl grows

/-! ## Table and packets together -/

/-- What the table of subscribers comes to after some acts, and what it means for packets. -/
structure Tabulated (peerOf : Nat → String) (p : Publication) (as : List Act) : Prop where
  injective : ∀ {peer other slot}, p.subscribers.index.find? peer = some slot →
    p.subscribers.index.find? other = some slot → peer = other
  /-- The index knows the peers for whom somebody is subscribed. -/
  listed : ∀ peer, (p.subscribers.index.find? peer).isSome = (p.current? peerOf as peer).isSome
  /-- A slot holds somebody if and only if it is that of exactly one peer. -/
  filled : ∀ slot, (∃ h, p.subscribers.slots[slot]? = some (some h)) ↔
    ∃ peer, p.subscribers.index.find? peer = some slot ∧
      ∀ other, p.subscribers.index.find? other = some slot → other = peer
  /-- It is whoever is subscribed for that peer. -/
  holds : ∀ {peer slot}, p.subscribers.index.find? peer = some slot →
    p.subscribers.slots[slot]? = some (p.current? peerOf as peer)
  freeNodup : p.subscribers.free.Nodup
  mem_free : ∀ slot, slot ∈ p.subscribers.free ↔ p.subscribers.slots[slot]? = some none
  /-- No slot is added while one is free. -/
  grows : ∀ a, p.subscribers.slots.length < (p.perform peerOf a).1.subscribers.slots.length →
    p.subscribers.free = []
  /-- The reader of an intake hands its next packet to each subscriber once, and to nobody else. -/
  serves : ∀ {f x}, p.Next f x → ∃ hs, hs.Nodup ∧
    (∀ h, h ∈ hs ↔ p.current? peerOf as (peerOf h) = some h) ∧
    (p.perform peerOf (.read f)).2 = handed f x hs
  /-- Nothing else hands packets out. -/
  quietly : ∀ a, (∀ f x, a = .read f → ¬p.Next f x) →
    (p.perform peerOf a).2.filter isPacket = []

/-- After every run the index leads peers to slots of their own, the slots hold whoever came first
for their peers since they last left, the free list names the empty slots, and the table has not
grown while one was free. Packets go to those subscribers, to each once, shared among workers or
not. -/
theorem tabulated (peerOf : Nat → String) (o : Offer) (as : List Act) :
    (o.published.run peerOf as).1.Tabulated peerOf as := by
  have k : (o.published.run peerOf as).1.KeepsTo peerOf as := keepsTo_run o as
  generalize (o.published.run peerOf as).1 = p at k
  exact {
    injective := k.sound.injective
    listed := fun peer => by rw [k.isSome_current?, SubscriberTable.contains_eq_isSome]
    filled := fun slot => (k.sound.filled slot).trans
      ⟨fun ⟨peer, hp⟩ => ⟨peer, hp, fun _ ho => k.sound.injective ho hp⟩,
        fun ⟨peer, hp, _⟩ => ⟨peer, hp⟩⟩
    holds := fun {peer slot} hp => by
      obtain ⟨h, hs, hh⟩ := k.sound.exists_slot hp
      rw [hs, ← hh, k.leads]
    freeNodup := k.sound.freeNodup
    mem_free := k.sound.mem_free
    grows := fun a => free_eq_nil_of_grows
    serves := fun next =>
      ⟨p.subscribers.members, k.nodup_members, k.mem_members_iff, turn_of_next next⟩
    quietly := fun a none => packets_perform none }

end Simulcast.Publication
