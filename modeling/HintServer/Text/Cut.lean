/-! Cutting a text at separators. -/

namespace HintServer.Text

/-- The text before the first character of a kind, and the text after it when there is one. -/
def cutFirst (isMark : Char → Bool) (chars : List Char) : List Char × Option (List Char) :=
  (chars.takeWhile (fun char => !isMark char),
    (chars.dropWhile (fun char => !isMark char)).tail?)

/-- The text before the last character of a kind when there is one, and the text after it. -/
def cutLast (isMark : Char → Bool) (chars : List Char) : Option (List Char) × List Char :=
  let (after, before) := cutFirst isMark chars.reverse
  (before.map List.reverse, after.reverse)

/-- The texts between all characters of a kind; there is always one more than of those. -/
def pieces (isMark : Char → Bool) (chars : List Char) : List (List Char) :=
  chars.foldr
    (fun char pieces =>
      if isMark char then [] :: pieces
      else
        match pieces with
        | [] => [[char]]
        | piece :: rest => (char :: piece) :: rest)
    [[]]

end HintServer.Text
