import HintServer.Proofs.Text.Lines
import Mathlib.Data.List.Forall2

/-! Carriage returns before line feeds.
Cut at its line feeds alone, a text gives the contents of its lines, each of which may keep one
return that its line leaves off; further returns put before the line feeds only lengthen these.
-/

namespace HintServer.Text

/-- A text gains carriage returns, each directly before one of its line feeds. -/
inductive GainsReturns : List Char → List Char → Prop
  | nil : GainsReturns [] []
  | keep (char : Char) {rest rest' : List Char} (more : GainsReturns rest rest')
    : GainsReturns (char :: rest) (char :: rest')
  | gain {rest rest' : List Char} (more : GainsReturns rest rest')
    : GainsReturns ('\n' :: rest) ('\r' :: '\n' :: rest')

/-- A stretch of a line is another one or that with a return after it. -/
def EqUpToReturn (content content' : List Char) : Prop :=
  content' = content ∨ content' = content ++ ['\r']

theorem EqUpToReturn.cons {content content' : List Char} (char : Char)
    (same : EqUpToReturn content content')
    : EqUpToReturn (char :: content) (char :: content') := by
  rcases same with rfl | rfl
  · exact Or.inl rfl
  · exact Or.inr rfl

theorem EqUpToReturn.forall₂_modifyHead (char : Char) {contents contents' : List (List Char)}
    (same : List.Forall₂ EqUpToReturn contents contents')
    : List.Forall₂ EqUpToReturn (contents.modifyHead (List.cons char))
        (contents'.modifyHead (List.cons char)) := by
  cases same with
  | nil => exact .nil
  | cons first others => exact .cons (first.cons char) others

-----------------------------------------------------------------------------------------
-- Contents of lines
-----------------------------------------------------------------------------------------

theorem splitOn_feed_cons (rest : List Char)
    : ('\n' :: rest).splitOn '\n' = [] :: rest.splitOn '\n' := by
  simp [List.splitOn_cons_eq_if_modifyHead]

theorem splitOn_cons_of_ne {char : Char} (noFeed : char ≠ '\n') (rest : List Char)
    : (char :: rest).splitOn '\n' = (rest.splitOn '\n').modifyHead (List.cons char) := by
  simp [List.splitOn_cons_eq_if_modifyHead, noFeed]

/-- Cut at its line feeds, a text gives the contents of its segments, and nothing more after them
but an empty stretch, by induction on the text as the segments are built.
-/
theorem splitOn_eq_map_content (chars : List Char)
    : chars.splitOn '\n' = (segments chars).map Segment.content
      ∨ chars.splitOn '\n' = (segments chars).map Segment.content ++ [[]] := by
  induction chars with
  | nil => exact Or.inr rfl
  | cons char rest ih =>
      by_cases feed : char = '\n'
      · subst feed
        simpa [splitOn_feed_cons, segments_cons, Segment.prepend] using ih
      · cases cut : segments rest with
        | nil =>
            have empty : rest.splitOn '\n' = [[]] := by
              simpa [cut, List.splitOn_ne_nil] using ih
            simp [splitOn_cons_of_ne feed, segments_cons, Segment.prepend, feed, cut, empty]
        | cons segment more =>
            rw [cut] at ih
            rcases ih with same | same <;>
              simp [splitOn_cons_of_ne feed, segments_cons, Segment.prepend, feed, cut, same]

theorem eqUpToReturn_dropReturn (content : List Char)
    : EqUpToReturn (dropReturn content) content := by
  unfold dropReturn
  split
  case isTrue returned =>
    exact Or.inr (List.dropLast_append_getLast? _ returned).symm
  case isFalse => exact Or.inl rfl

/-- The content of a line is the line, or the line and the return that it leaves off. -/
theorem Segment.eqUpToReturn_line (segment : Segment)
    : EqUpToReturn segment.line segment.content := by
  unfold Segment.line
  split
  case isTrue => exact eqUpToReturn_dropReturn segment.content
  case isFalse => exact Or.inl rfl

/-- Beside each line of a text stands its content. -/
theorem exists_content_of_line {chars line : List Char} {number : Nat}
    (onLine : (lines chars)[number]? = some line)
    : ∃ content, (chars.splitOn '\n')[number]? = some content ∧ EqUpToReturn line content := by
  simp only [lines, List.getElem?_map, Option.map_eq_some_iff] at onLine
  obtain ⟨segment, found, rfl⟩ := onLine
  refine ⟨segment.content, ?_, segment.eqUpToReturn_line⟩
  have inside := (List.getElem?_eq_some_iff.mp found).1
  rcases splitOn_eq_map_content chars with same | same
  · simp [same, found]
  · rw [same, List.getElem?_append_left (by simpa using inside), List.getElem?_map, found]
    rfl

/-- Beside a line that a text does not have stands no content but an empty one. -/
theorem content_of_no_line {chars content : List Char} {number : Nat}
    (missing : (lines chars)[number]? = none)
    (found : (chars.splitOn '\n')[number]? = some content)
    : content = [] := by
  have past : (segments chars).length ≤ number := by
    simpa [lines] using missing
  rcases splitOn_eq_map_content chars with same | same
  · simp [same, past] at found
  · rw [same, List.getElem?_append_right (by simpa using past), List.getElem?_singleton] at found
    split at found
    case isTrue => exact (Option.some.inj found).symm
    case isFalse => contradiction

-----------------------------------------------------------------------------------------
-- Gained returns
-----------------------------------------------------------------------------------------

/-- The contents of the lines gain at most a return at their ends, by induction on the text. -/
theorem GainsReturns.forall₂_splitOn {chars chars' : List Char} (gains : GainsReturns chars chars')
    : List.Forall₂ EqUpToReturn (chars.splitOn '\n') (chars'.splitOn '\n') := by
  induction gains with
  | nil => exact .cons (Or.inl rfl) .nil
  | @keep char rest rest' _ ih =>
      by_cases feed : char = '\n'
      · subst feed
        simpa only [splitOn_feed_cons] using .cons (Or.inl rfl) ih
      · rw [splitOn_cons_of_ne feed, splitOn_cons_of_ne feed]
        exact EqUpToReturn.forall₂_modifyHead char ih
  | gain _ ih =>
      rw [splitOn_feed_cons, splitOn_cons_of_ne (by decide), splitOn_feed_cons]
      exact .cons (Or.inr rfl) ih

end HintServer.Text
