/-!
# Backlogs

A backlog remembers facts about keys in the order in which the keys were first
met. Meeting a key again replaces its fact and keeps its place; a key that was
forgotten and is met again goes to the end.

* `find?_insert_self`, `find?_insert_of_ne`: what an insertion changes.
-/

namespace Simulcast

/-- Facts by key, the key met first at the front. -/
structure Backlog (κ ν : Type) where
  entries : List (κ × ν) := []
  deriving Repr

namespace Backlog

variable {κ ν : Type} [DecidableEq κ]

/-- Nothing remembered. -/
def empty : Backlog κ ν := {}

/-- The number of keys. -/
def size (b : Backlog κ ν) : Nat := b.entries.length

/-- The fact about a key. -/
def find? (b : Backlog κ ν) (k : κ) : Option ν :=
  (b.entries.find? fun e => e.1 == k).map Prod.snd

/-- Whether a key is remembered. -/
def contains (b : Backlog κ ν) (k : κ) : Bool :=
  b.entries.any fun e => e.1 == k

/-- The list with the fact of `k` replaced, or put at the end. -/
def insertEntry (k : κ) (v : ν) : List (κ × ν) → List (κ × ν)
  | [] => [(k, v)]
  | e :: es => if e.1 = k then (k, v) :: es else e :: insertEntry k v es

/-- Remembers a fact about a key. -/
def insert (b : Backlog κ ν) (k : κ) (v : ν) : Backlog κ ν :=
  { entries := insertEntry k v b.entries }

/-- Remembers the same fact about each of some different keys, in their order. -/
def insertEach (b : Backlog κ ν) (ks : List κ) (v : ν) : Backlog κ ν :=
  { entries := (b.entries.map fun e => if e.1 ∈ ks then (e.1, v) else e) ++
      (ks.filter fun k => !b.contains k).map fun k => (k, v) }

/-- Forgets a key. The keys behind it close up. -/
def erase (b : Backlog κ ν) (k : κ) : Backlog κ ν :=
  { entries := b.entries.eraseP fun e => e.1 == k }

/-- Forgets the keys at the front for which `p` holds, up to the first for
which it does not. -/
def dropOldestWhile (b : Backlog κ ν) (p : κ → Bool) : Backlog κ ν :=
  { entries := b.entries.dropWhile fun e => p e.1 }

/-- Forgets the keys at the front until at most `n` are left. -/
def keepNewest (b : Backlog κ ν) (n : Nat) : Backlog κ ν :=
  { entries := b.entries.drop (b.entries.length - n) }

theorem find?_insert_self (b : Backlog κ ν) (k : κ) (v : ν) : (b.insert k v).find? k = some v := by
  simp only [find?, insert]
  induction b.entries with
  | nil => simp [insertEntry]
  | cons e es ih => by_cases h : e.1 = k <;> simp_all [insertEntry]

theorem find?_insert_of_ne (b : Backlog κ ν) {k j : κ} (v : ν) (h : j ≠ k) :
    (b.insert k v).find? j = b.find? j := by
  simp only [find?, insert]
  induction b.entries with
  | nil => simp [insertEntry, Ne.symm h]
  | cons e es ih => by_cases he : e.1 = k <;> by_cases hj : e.1 = j <;> simp_all [insertEntry]

end Backlog
end Simulcast
