/-! Columns of a line in UTF-16 code units.
A character beyond the basic plane takes two units; a column inside such a pair means the
character after it. Columns are 32-bit words, so their sums are too.
-/

namespace HintServer.Text

/-- The number of UTF-16 code units of a character. -/
def width (char : Char) : UInt32 :=
  if char.val < 0x10000 then 1 else 2

/-- The number of UTF-16 code units of a text. -/
def unitCount : List Char → Nat
  | [] => 0
  | char :: rest => (width char).toNat + unitCount rest

/-- The column after a text: its UTF-16 code units summed in 32 bits. -/
def columnAfter (chars : List Char) : UInt32 :=
  chars.foldl (fun units char => units + width char) 0

/-- Searches for the first character at or past a column, from a character at `index` that
`units` code units precede.
-/
def indexFrom? (column : UInt32) (index : Nat) (units : UInt32) : List Char → Option Nat
  | [] => if column ≤ units then some index else none
  | char :: rest =>
      if column ≤ units then some index
      else indexFrom? column (index + 1) (units + width char) rest

/-- The index of the first character at or past a column; the end of the text is an index
too, and a column beyond it has none.
-/
def columnIndex? (chars : List Char) (column : UInt32) : Option Nat :=
  indexFrom? column 0 0 chars

end HintServer.Text
