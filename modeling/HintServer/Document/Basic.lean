import HintServer.Document.Position
import HintServer.Text.Lines
import HintServer.Text.Units
import HintServer.Text.Word

/-! An open document and the word at a position of it.
The lines are kept beside the text, since every query reads them and an edit replaces both.
-/

namespace HintServer

/-- A document as its client last sent it. -/
structure Document where
  text : String
  lines : List (List Char)
  languageId : String
  version : Int32
deriving DecidableEq, Repr

/-- A word with the range it stands in. -/
structure Word where
  range : Range
  text : String
deriving DecidableEq, Repr

namespace Document

def ofText (text languageId : String) (version : Int32) : Document :=
  { text, lines := Text.lines text.toList, languageId, version }

/-- Replaces the whole text. -/
def update (document : Document) (text : String) (version : Int32) : Document :=
  { document with text, lines := Text.lines text.toList, version }

/-- The size of the text in UTF-8 bytes. -/
def byteCount (document : Document) : Nat :=
  document.text.utf8ByteSize

/-- The word that touches a position: the cursor stands on one of its characters or directly
after the last.
-/
def wordAt? (document : Document) (position : Position) : Option Word :=
  match document.lines[position.line.toNat]? with
  | none => none
  | some line =>
      match Text.columnIndex? line position.character with
      | none => none
      | some cursor =>
          let start := Text.runStart line cursor
          let stop := Text.runStop line cursor
          if start = stop then none
          else
            some
              {
                range :=
                  {
                    start := ⟨position.line, Text.columnAfter (line.take start)⟩,
                    stop := ⟨position.line, Text.columnAfter (line.take stop)⟩
                  },
                text := String.ofList (Text.slice line start stop)
              }

end Document

end HintServer
