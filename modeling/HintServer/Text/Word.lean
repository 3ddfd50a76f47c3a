import HintServer.Text.Alphanumeric

/-! Words are maximal runs of identifier characters.
The run around an index reaches back over the characters before it and on over those from it.
-/

namespace HintServer.Text

/-- The characters of identifiers: letters and digits of any script, `_` and `$`. -/
def isWordChar (char : Char) : Bool :=
  isAlphanumeric char || char == '_' || char == '$'

/-- The start of the run of word characters that ends at an index. -/
def runStart (chars : List Char) (index : Nat) : Nat :=
  index - ((chars.take index).reverse.takeWhile isWordChar).length

/-- The end of the run of word characters that starts at an index. -/
def runStop (chars : List Char) (index : Nat) : Nat :=
  index + ((chars.drop index).takeWhile isWordChar).length

/-- The characters between two indices. -/
def slice (chars : List Char) (start stop : Nat) : List Char :=
  (chars.take stop).drop start

end HintServer.Text
