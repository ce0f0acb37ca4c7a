import Simulcast.Document.Basic
import Simulcast.Document.Token

/-!
# Documents as JSON

The tokens of a text are taken one by one. What has been opened and not yet closed
stands on a stack of frames; `Expected` says what may come next. Of fields with the
same name the last one counts.
-/

namespace Simulcast

/-- A list or a table with what has come of it so far. -/
inductive Frame where
  /-- The items of a list, the last first. -/
  | items (before : List Document)
  /-- The fields of a table, and the name of the next one. -/
  | member (before : List (String × Document)) (name : String)
  deriving Repr

/-- What may come next. -/
inductive Expected where
  /-- A value. -/
  | value
  /-- A value, or the end of the list that was opened. -/
  | firstItem
  /-- A name, or the end of the table if it is the first. -/
  | name (before : List (String × Document)) (isFirst : Bool)
  /-- The colon after a name. -/
  | colon (before : List (String × Document)) (name : String)
  /-- A comma or an end, after a value. -/
  | more (d : Document)
  deriving Repr

/-- How far a text has been read. -/
structure JsonReading where
  frames : List Frame := []
  expected : Expected := .value
  deriving Repr

namespace JsonReading

/-- How many lists and tables may be open at once. -/
def maxDepth : Nat := 127

/-- A value that is a token of its own. -/
def simple? : Token → Option Document
  | .null => some .null
  | .bool b => some (.bool b)
  | .int n => some (.int n)
  | .float x => some (.float x)
  | .text t => some (.text t)
  | _ => none

/-- A value starts. -/
def start (r : JsonReading) (t : Token) : Option JsonReading :=
  match t with
  | .openList =>
    if r.frames.length < maxDepth then some ⟨.items [] :: r.frames, .firstItem⟩ else none
  | .openTable =>
    if r.frames.length < maxDepth then some ⟨r.frames, .name [] true⟩ else none
  | t => (simple? t).map fun d => ⟨r.frames, .more d⟩

/-- A comma follows a value. -/
def goOn (frames : List Frame) (d : Document) : Option JsonReading :=
  match frames with
  | .items before :: rest => some ⟨.items (d :: before) :: rest, .value⟩
  | .member before name :: rest => some ⟨rest, .name (Document.put name d before) false⟩
  | [] => none

/-- A list ends after an item. -/
def endList (frames : List Frame) (d : Document) : Option JsonReading :=
  match frames with
  | .items before :: rest => some ⟨rest, .more (.list (d :: before).reverse)⟩
  | _ => none

/-- A table ends after a field. -/
def endTable (frames : List Frame) (d : Document) : Option JsonReading :=
  match frames with
  | .member before name :: rest => some ⟨rest, .more (.table (Document.put name d before))⟩
  | _ => none

/-- Takes a token. -/
def take (r : JsonReading) (t : Token) : Option JsonReading :=
  match r.expected, t with
  | .firstItem, .closeList => some ⟨r.frames.drop 1, .more (.list [])⟩
  | .firstItem, t => r.start t
  | .value, t => r.start t
  | .name _ true, .closeTable => some ⟨r.frames, .more (.table [])⟩
  | .name before _, .text name => some ⟨r.frames, .colon before name⟩
  | .colon before name, .colon => some ⟨.member before name :: r.frames, .value⟩
  | .more d, .comma => goOn r.frames d
  | .more d, .closeList => endList r.frames d
  | .more d, .closeTable => endTable r.frames d
  | _, _ => none

/-- The document, if nothing is missing. -/
def result? (r : JsonReading) : Option Document :=
  match r.frames, r.expected with
  | [], .more d => some d
  | _, _ => none

end JsonReading

namespace Document

/-- Reads JSON text. -/
def ofJson? (text : String) : Option Document := do
  let tokens ← Token.ofText text
  (← tokens.foldlM JsonReading.take {}).result?

end Document
end Simulcast
