import HintServer.Catalog.Builtin
import HintServer.Document.Basic

/-! Completion offers every utility of the catalog at every position.
Narrowing the list to what was typed is left to the client.
-/

namespace HintServer

/-- A utility offered for completion. -/
structure CompletionItem where
  label : String
  detail : String
  documentation : String
deriving DecidableEq, Repr

namespace CompletionItem

/-- The item of a utility; its detail names the category. -/
def ofUtility (entry : Utility) : CompletionItem :=
  {
    label := entry.name,
    detail := entry.category.label ++ " utility",
    documentation := entry.documentation
  }

/-- The number by which the protocol marks an item as a function. -/
def functionKind : Nat := 3

/-- An item is written as a function with its label, detail and documentation. -/
def toJson (item : CompletionItem) : Json :=
  .obj
    [
      ("detail", .str item.detail),
      ("documentation", .str item.documentation),
      ("kind", .ofNat functionKind),
      ("label", .str item.label)
    ]

def all : List CompletionItem :=
  Catalog.builtin.entries.map ofUtility

end CompletionItem

/-- The items offered at a position. -/
def Document.completions (_document : Document) (_position : Position) : List CompletionItem :=
  CompletionItem.all

end HintServer
