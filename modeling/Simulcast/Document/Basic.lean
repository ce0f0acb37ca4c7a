/-!
# Documents

A document is a tree of named values: settings come as one, and reports are given as
one. The fields of a table keep the order in which they were put; a name occurs once.

* `Document.put` writes a field, in its old place if it had one.
* `Document.overlay` lays one document over another. Tables are merged field by field,
  and anything else takes the place of what was there.
* `Document.setPath` does so at a place deep in a document, and makes the tables on
  the way to it.
-/

namespace Simulcast

/-- A tree of named values. -/
inductive Document where
  | null
  | bool (value : Bool)
  | int (value : Int)
  | float (value : Float)
  | text (value : String)
  | list (items : List Document)
  | table (fields : List (String × Document))
  deriving Inhabited, Repr

namespace Document

/-- The fields of a table; anything else has none. -/
def fields : Document → List (String × Document)
  | .table fs => fs
  | _ => []

/-- Writes a field. -/
def put (name : String) (d : Document) : List (String × Document) → List (String × Document)
  | [] => [(name, d)]
  | (n, e) :: fs => if n = name then (n, d) :: fs else (n, e) :: put name d fs

/-- The field of a document with a name. -/
def field? (d : Document) (name : String) : Option Document :=
  (d.fields.find? fun f => f.1 == name).map Prod.snd

/-- Writes a field of a document, which becomes a table if it was none. -/
def setField (d : Document) (name : String) (value : Document) : Document :=
  .table (put name value d.fields)

mutual

/-- What is left where `new` is laid over `old`. -/
def overlay (new old : Document) : Document :=
  match new with
  | .table fs => overlayFields fs old
  | d => d

/-- Lays fields over those of a document in turn. -/
def overlayFields (fs : List (String × Document)) (old : Document) : Document :=
  match fs with
  | [] => old
  | (name, d) :: fs =>
    overlayFields fs (old.setField name (overlay d ((old.field? name).getD (.table []))))

end

/-- Lays a document over the one at the end of a path. -/
def setPath (value : Document) : List String → Document → Document
  | [], old => overlay value old
  | name :: path, old =>
    old.setField name (setPath value path ((old.field? name).getD (.table [])))

end Document
end Simulcast
