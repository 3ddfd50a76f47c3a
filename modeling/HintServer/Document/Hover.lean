import HintServer.Catalog.Builtin
import HintServer.Document.Basic

/-! Hovering shows the documentation of the utility whose name is the word at a position. -/

namespace HintServer

/-- Plain text to show for a range. -/
structure Hover where
  documentation : String
  range : Range
deriving DecidableEq, Repr

/-- A hover is written as its plain text and its range. -/
def Hover.toJson (hover : Hover) : Json :=
  .obj
    [
      ("contents",
        .obj [("kind", .str "plaintext"), ("value", .str hover.documentation)]),
      ("range", hover.range.toJson)
    ]

/-- The hover at a position: there must be a word there, and the catalog must know it. -/
def Document.hover? (document : Document) (position : Position) : Option Hover :=
  match document.wordAt? position with
  | none => none
  | some word =>
      (Catalog.builtin.lookup word.text).map fun entry =>
        { documentation := entry.documentation, range := word.range }

end HintServer
