/-! The lines of a text.
A line ends at a line feed, which takes one carriage return directly before it along; a last
line without a line feed counts when it is not empty, and keeps its carriage returns.
-/

namespace HintServer.Text

/-- A stretch of text up to a line feed or the end of the text. -/
structure Segment where
  content : List Char
  terminated : Bool
deriving DecidableEq, Repr

/-- Puts a character in front of the segments of the text after it. -/
def Segment.prepend (char : Char) (segments : List Segment) : List Segment :=
  if char = '\n' then { content := [], terminated := true } :: segments
  else
    match segments with
    -- only the text after the last line feed has no segment to join
    | [] => [{ content := [char], terminated := false }]
    | segment :: rest => { segment with content := char :: segment.content } :: rest

/-- Cuts a text after each of its line feeds. -/
def segments (chars : List Char) : List Segment :=
  chars.foldr Segment.prepend []

/-- A text without the carriage return that it may end with. -/
def dropReturn (chars : List Char) : List Char :=
  if chars.getLast? = some '\r' then chars.dropLast else chars

/-- The line that a segment holds. -/
def Segment.line (segment : Segment) : List Char :=
  if segment.terminated then dropReturn segment.content else segment.content

def lines (chars : List Char) : List (List Char) :=
  (segments chars).map Segment.line

end HintServer.Text
