import Simulcast.Decimal.Text
import Simulcast.Document.Basic
import Simulcast.Media

/-!
# Reading settings from values

A setting has a type, and a value of another one is converted to it where that makes
sense: a text is read as a number, a number is written as a text, and yes and no are
numbers too. `Reader` is what becomes of a value, if anything does.
-/

namespace Simulcast

/-- Reads a setting from a value. -/
abbrev Reader (α : Type) := Document → Option α

namespace Reader

/-- Letters of a text in lower case. -/
def lower (text : String) : String := String.ofList (text.toList.map lowerAscii)

/-- What a word for yes or no stands for. -/
def answer? (text : String) : Option Bool :=
  if ["true", "on", "yes"].contains (lower text) then some true
  else if ["false", "off", "no"].contains (lower text) then some false
  else none

/-- Yes or no. A number that is not zero means yes. -/
def bool : Reader Bool
  | .bool b => some b
  | .int n => some (n != 0)
  | .float x => some (x != 0.0)
  | .text "1" => some true
  | .text "0" => some false
  | .text t => answer? t
  | _ => none

/-- A natural number up to a limit. A fraction is rounded, halves up; what lies below
zero counts as zero then. -/
def natural (limit : Nat) (d : Document) : Option Nat :=
  let value := match d with
    | .int n => if 0 ≤ n then some n.toNat else none
    | .float x => some x.round.toUInt64.toNat
    | .bool b => some b.toNat
    | .text t => match answer? t with
      | some b => some b.toNat
      | none => Decimal.natural? t
    | _ => none
  value.filter (· ≤ limit)

/-- A natural number of 64 bits. -/
def word64 : Reader Nat := natural 0xffffffffffffffff

/-- A natural number of 32 bits. -/
def word32 : Reader Nat := natural 0xffffffff

/-- A floating point number. -/
def float : Reader Float
  | .float x => some x
  | .int n => some (Float.ofInt n)
  | .bool b => some (if b then 1.0 else 0.0)
  | .text t => match answer? t with
    | some b => some (if b then 1.0 else 0.0)
    | none => Decimal.float? t
  | _ => none

/-- A text. -/
def text : Reader String
  | .text t => some t
  | .bool b => some (toString b)
  | .int n => some (toString n)
  | .float x => some (Decimal.floatText x)
  | _ => none

/-- A setting that may be missing on purpose. -/
def optional {α : Type} (r : Reader α) : Reader (Option α)
  | .null => some none
  | d => (r d).map some

/-! ## Sections -/

/-- The value of a field of a section: by its name in a table, or by its place in a
list. Anything else has no fields. -/
def fieldOf? (group : Document) (place : Nat) (name : String) : Option Document :=
  match group with
  | .table _ => group.field? name
  | .list items => items[place]?
  | _ => none

/-- Whether a value can stand for a section. -/
def isSection : Document → Bool
  | .table _ => true
  | .list _ => true
  | _ => false

/-- A field of a section, with a value to take if it is missing. -/
def fieldOr {α : Type} (r : Reader α) (group : Document) (place : Nat) (name : String)
    (default : α) : Option α :=
  match fieldOf? group place name with
  | some d => r d
  | none => some default

/-- A field that a section has to have. -/
def field {α : Type} (r : Reader α) (group : Document) (place : Nat) (name : String) :
    Option α :=
  (fieldOf? group place name).bind r

end Reader
end Simulcast
