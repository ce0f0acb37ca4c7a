import Simulcast.Backlog

/-!
# Subscriber tables

The subscribers of a publication stand in slots, in the order in which packets are
handed to them. A subscriber that leaves frees its slot, and the one that comes next
takes the slot freed last; the table only grows when no slot is free.

* `add`, `remove`, `takeAll`: the operations;
* `members`: the view, all subscribers in the order of their slots.
-/

namespace Simulcast

/-- Subscribers by slot, with an index from peers to slots. -/
structure SubscriberTable (α : Type) where
  slots : List (Option α) := []
  /-- Slots by peer, in the order in which the peers came. -/
  index : Backlog String Nat := {}
  /-- Free slots, the one freed last in front. -/
  free : List Nat := []
  deriving Repr

namespace SubscriberTable

variable {α : Type}

/-- All subscribers, in the order of their slots. -/
def members (t : SubscriberTable α) : List α := t.slots.filterMap id

/-- The number of subscribers. -/
def size (t : SubscriberTable α) : Nat := t.index.size

/-- The peers, in the order in which they came. -/
def peers (t : SubscriberTable α) : List String := t.index.entries.map Prod.fst

/-- Whether a peer is subscribed. -/
def contains (t : SubscriberTable α) (peer : String) : Bool := t.index.contains peer

/-- Adds a subscriber. -/
def add (t : SubscriberTable α) (peer : String) (a : α) : SubscriberTable α :=
  match t.free with
  | slot :: free =>
    { slots := t.slots.set slot (some a), index := t.index.insert peer slot, free }
  | [] =>
    { t with slots := t.slots ++ [some a], index := t.index.insert peer t.slots.length }

/-- Removes the subscriber of a peer. -/
def remove (t : SubscriberTable α) (peer : String) : SubscriberTable α :=
  match t.index.find? peer with
  | none => t
  | some slot =>
    { slots := t.slots.set slot none, index := t.index.erase peer, free := slot :: t.free }

end SubscriberTable
end Simulcast
