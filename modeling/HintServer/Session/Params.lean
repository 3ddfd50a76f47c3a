import HintServer.Server.Call

/-! The parameters of a message, read into a call.
A record is an object with its fields by name or an array of all its fields in order; fields
that are not asked for do not count, and one malformed field refuses the whole message.
-/

namespace HintServer

namespace Json

/-- The fields of a record in the order of their names. -/
def record? (names : List String) : Json → Option (List (Option Json))
  | .obj members => some (names.map (field? (.obj members)))
  | .arr elements =>
      if elements.length = names.length then some (elements.map some) else none
  | _ => none

/-- A field that may be absent or null. -/
def optional? {α : Type} (read : Json → Option α) : Option Json → Option (Option α)
  | none => some none
  | some .null => some none
  | some value => (read value).map some

/-- Tells whether a value is an object. -/
def isObject : Json → Bool
  | .obj _ => true
  | _ => false

end Json

namespace Uri

def ofJson? (value : Json) : Option Uri :=
  value.text?.bind ofString?

end Uri

namespace Position

def ofJson? (value : Json) : Option Position := do
  let [line, character] ← value.record? ["line", "character"] | none
  some { line := ← (← line).unsigned32?, character := ← (← character).unsigned32? }

end Position

namespace Range

def ofJson? (value : Json) : Option Range := do
  let [start, stop] ← value.record? ["start", "end"] | none
  some { start := ← Position.ofJson? (← start), stop := ← Position.ofJson? (← stop) }

end Range

namespace Params

/-- Why parameters are refused. -/
inductive Problem where
  | missing
  | unexpected (params : Json)
  | malformed

/-- The address in a record that holds nothing else that matters. -/
def identifier? (value : Json) : Option Uri := do
  let [uri] ← value.record? ["uri"] | none
  Uri.ofJson? (← uri)

/-- The whole text of a change. The range it is said to cover must be well formed and is not
used.
-/
def change? (value : Json) : Option String := do
  let [range, rangeLength, text] ← value.record? ["range", "rangeLength", "text"] | none
  let _ ← Json.optional? Range.ofJson? range
  let _ ← Json.optional? Json.unsigned32? rangeLength
  (← text).text?

/-- The address and position that a query asks about. -/
def query? (params : Json) : Option (Uri × Position) := do
  if params.isObject then
    let uri ← identifier? (← params.field? "textDocument")
    let position ← Position.ofJson? (← params.field? "position")
    some (uri, position)
  else none

/-- The parameters of `initialize`: what the client can do, its process and its root. -/
def handshake? (params : Json) : Option Call := do
  if params.isObject ∧ (← params.field? "capabilities").isObject then
    let _ ← Json.optional? Json.unsigned32? (params.field? "processId")
    let _ ← Json.optional? Uri.ofJson? (params.field? "rootUri")
    some .handshake
  else none

/-- The parameters of `initialized`: a record without fields. -/
def initialized? (params : Json) : Option Call := do
  let [] ← params.record? [] | none
  some .initialized

def didOpen? (params : Json) : Option Call := do
  let [item] ← params.record? ["textDocument"] | none
  let [uri, languageId, version, text] ←
    (← item).record? ["uri", "languageId", "version", "text"] | none
  some
    (.didOpen (← Uri.ofJson? (← uri)) (← (← languageId).text?) (← (← version).signed32?)
      (← (← text).text?))

def didChange? (params : Json) : Option Call := do
  let [document, changes] ← params.record? ["textDocument", "contentChanges"] | none
  let [uri, version] ← (← document).record? ["uri", "version"] | none
  let uri ← Uri.ofJson? (← uri)
  let version ← (← version).signed32?
  some (.didChange uri version (← (← (← changes).elements?).mapM change?))

def didClose? (params : Json) : Option Call := do
  let [document] ← params.record? ["textDocument"] | none
  some (.didClose (← identifier? (← document)))

def hover? (params : Json) : Option Call :=
  (query? params).map fun (uri, position) => .hover uri position

def completion? (params : Json) : Option Call :=
  (query? params).map fun (uri, position) => .completion uri position

def required {α : Type} (read : Json → Option α) : Option Json → Except Problem α
  | none => .error .missing
  | some params =>
      match read params with
      | some found => .ok found
      | none => .error .malformed

/-- Accepts a message without parameters. -/
def absent {α : Type} (found : α) : Option Json → Except Problem α
  | none => .ok found
  | some params => .error (.unexpected params)

end Params

end HintServer
