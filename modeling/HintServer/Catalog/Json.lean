import HintServer.Catalog.Basic
import HintServer.Json.Basic

/-! Utilities and catalogs as JSON values. -/

namespace HintServer

def Category.toJson (category : Category) : Json :=
  .str category.label

/-- A utility is written as an object of its name, category and documentation. -/
def Utility.toJson (entry : Utility) : Json :=
  .obj
    [
      ("name", .str entry.name),
      ("category", entry.category.toJson),
      ("documentation", .str entry.documentation)
    ]

def Catalog.toJson (catalog : Catalog) : Json :=
  .arr (catalog.entries.map Utility.toJson)

end HintServer
