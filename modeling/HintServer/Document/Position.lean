import HintServer.Json.Basic

/-! Places in a document: a line and a column in UTF-16 code units, both counted from zero. -/

namespace HintServer

/-- A place between two characters of a line. -/
structure Position where
  line : UInt32
  character : UInt32
deriving DecidableEq, Repr

/-- The text from one position up to another. -/
structure Range where
  start : Position
  stop : Position
deriving DecidableEq, Repr

/-- A position as log lines print it. -/
def Position.describe (position : Position) : String :=
  "Position \x7b line: " ++ toString position.line.toNat ++ ", character: "
    ++ toString position.character.toNat ++ " \x7d"

def Position.toJson (position : Position) : Json :=
  .obj
    [
      ("character", .ofNat position.character.toNat),
      ("line", .ofNat position.line.toNat)
    ]

def Range.toJson (range : Range) : Json :=
  .obj [("end", range.stop.toJson), ("start", range.start.toJson)]

end HintServer
