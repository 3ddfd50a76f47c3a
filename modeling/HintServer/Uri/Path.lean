import HintServer.Text.Cut
import HintServer.Uri.Percent

/-! Paths as lists of segments.
A segment `.` stays where it is and `..` leaves the segment before it, also when the dots are
escaped; a drive letter is never left.
-/

namespace HintServer.Uri.Path

/-- A segment that stands for the place it is at. -/
def isSingleDot (segment : List Char) : Bool :=
  [".", "%2e"].contains (String.ofList (segment.map Char.toLower))

/-- A segment that stands for the place above. -/
def isDoubleDot (segment : List Char) : Bool :=
  ["..", ".%2e", "%2e.", "%2e%2e"].contains (String.ofList (segment.map Char.toLower))

/-- A drive letter is a letter followed by a colon or a bar. -/
def isDrive : List Char → Bool
  | [letter, mark] => letter.isAlpha && (mark == ':' || mark == '|')
  | _ => false

/-- Leaves the last of the segments, which stand in reverse. -/
def leave : List (List Char) → List (List Char)
  | [] => []
  | segment :: rest => if isDrive segment then segment :: rest else rest

/-- Adds a segment in normal form; a drive letter at the start of a file's path takes the
colon.
-/
def enter (file : Bool) (reversed : List (List Char)) (segment : List Char)
    : List (List Char) :=
  if file ∧ reversed.isEmpty ∧ isDrive segment then [segment.take 1 ++ [':']]
  else Percent.encode Percent.inPath segment :: reversed

/-- Resolves segments after those already resolved, which stand in reverse; a path that ends
in dots ends in a slash.
-/
def resolve (file : Bool) (reversed : List (List Char)) : List (List Char) → List (List Char)
  | [] => reversed.reverse
  | segment :: rest =>
      if isDoubleDot segment then
        -- dots at the end leave an empty segment, which is written as a final slash
        if rest.isEmpty then ([] :: leave reversed).reverse
        else resolve file (leave reversed) rest
      else if isSingleDot segment then
        if rest.isEmpty then ([] :: reversed).reverse
        else resolve file reversed rest
      else resolve file (enter file reversed segment) rest

/-- The resolved segments of a path without its leading slash. -/
def segments (special file : Bool) (chars : List Char) : List (List Char) :=
  resolve file [] (Text.pieces (fun char => char == '/' || (special && char == '\\')) chars)

def render (segments : List (List Char)) : List Char :=
  segments.flatMap ('/' :: ·)

/-- A path that is never empty. -/
def renderRooted (segments : List (List Char)) : List Char :=
  if segments.isEmpty then ['/'] else render segments

end HintServer.Uri.Path
