import HintServer.Proofs.Text.Lines

/-! Lines give back their text.
Joined by line feeds, the lines of a text are the text again, but for one return directly before
each line feed; and they are the only lines of their number that are.
-/

namespace HintServer.Text

/-- A text with a line feed in place of every return and line feed in a row. -/
def plainFeeds : List Char → List Char
  | '\r' :: '\n' :: rest => '\n' :: plainFeeds rest
  | char :: rest => char :: plainFeeds rest
  | [] => []

/-- The line feed that a text ends with, if it does. -/
def finalFeed (chars : List Char) : List Char :=
  if chars.getLast? = some '\n' then ['\n'] else []

/-- Lines represent a text: none of them has a line feed in it, there is one for each line feed of
the text and one for what stands after the last, and joined they are the text with plain line feeds.
-/
structure Represents (lines : List (List Char)) (chars : List Char) : Prop where
  noFeed : ∀ line ∈ lines, '\n' ∉ line
  length
    : lines.length
      = chars.count '\n' + if chars ≠ [] ∧ chars.getLast? ≠ some '\n' then 1 else 0
  joined : ['\n'].intercalate lines ++ finalFeed chars = plainFeeds chars

-----------------------------------------------------------------------------------------
-- Returns before line feeds
-----------------------------------------------------------------------------------------

theorem plainFeeds_cons_of_head {char : Char} {rest : List Char}
    (next : rest.head? ≠ some '\n')
    : plainFeeds (char :: rest) = char :: plainFeeds rest := by
  rw [plainFeeds]
  rintro more - rfl
  exact next rfl

theorem plainFeeds_feed_cons (rest : List Char)
    : plainFeeds ('\n' :: rest) = '\n' :: plainFeeds rest := by
  rw [plainFeeds]
  intro more ret
  contradiction

theorem dropReturn_cons_cons (char next : Char) (rest : List Char)
    : dropReturn (char :: next :: rest) = char :: dropReturn (next :: rest) := by
  unfold dropReturn
  rw [List.getLast?_cons_cons, List.dropLast_cons_cons]
  split <;> rfl

theorem plainFeeds_of_not_mem {content : List Char} (noFeed : '\n' ∉ content)
    : plainFeeds content = content := by
  induction content with
  | nil => rfl
  | cons char rest ih =>
      rw [List.mem_cons, not_or] at noFeed
      have next : rest.head? ≠ some '\n' := fun head => noFeed.2 (List.mem_of_head? head)
      rw [plainFeeds_cons_of_head next, ih noFeed.2]

/-- The first line of a text loses the return that it ends with, and only this, by induction on
the line.
-/
theorem plainFeeds_append_feed {content : List Char} (rest : List Char) (noFeed : '\n' ∉ content)
    : plainFeeds (content ++ '\n' :: rest) = dropReturn content ++ '\n' :: plainFeeds rest := by
  induction content with
  | nil => exact plainFeeds_feed_cons rest
  | cons char more ih =>
      rw [List.mem_cons, not_or] at noFeed
      cases more with
      | nil =>
          by_cases isReturn : char = '\r'
          · subst isReturn
            rfl
          · rw [List.singleton_append, plainFeeds, plainFeeds_feed_cons]
            · simp [dropReturn, isReturn]
            · simp [isReturn]
      | cons next more =>
          have head : (next :: more ++ '\n' :: rest).head? ≠ some '\n' := by
            intro head
            exact noFeed.2 (by simp [Option.some.inj head])
          rw [List.cons_append, plainFeeds_cons_of_head head, ih noFeed.2, dropReturn_cons_cons]
          rfl

-----------------------------------------------------------------------------------------
-- The lines of a text
-----------------------------------------------------------------------------------------

theorem not_mem_dropReturn {content : List Char} (noFeed : '\n' ∉ content)
    : '\n' ∉ dropReturn content := by
  unfold dropReturn
  split
  case isTrue => exact fun member => noFeed (List.dropLast_subset _ member)
  case isFalse => exact noFeed

/-- Lines end before their line feeds, line by line. -/
theorem feed_not_mem_lines (chars : List Char) : ∀ line ∈ lines chars, '\n' ∉ line := by
  induction chars using induction_on_lines with
  | empty => simp [lines, segments]
  | last content nonempty noFeed => simp [lines_of_not_mem nonempty noFeed, noFeed]
  | feed content rest noFeed ih =>
      rw [lines_append_feed rest noFeed, List.forall_mem_cons]
      exact ⟨not_mem_dropReturn noFeed, ih⟩

/-- Joined by line feeds, lines are their text up to returns, line by line: the line feed after a
line joins it to the next one, or is the final one when there is no next line.
-/
theorem intercalate_lines (chars : List Char)
    : ['\n'].intercalate (lines chars) ++ finalFeed chars = plainFeeds chars := by
  induction chars using induction_on_lines with
  | empty => rfl
  | last content nonempty noFeed =>
      rw [lines_of_not_mem nonempty noFeed, List.intercalate_singleton, finalFeed,
        if_neg (getLast?_ne_feed_of_not_mem noFeed), List.append_nil,
        plainFeeds_of_not_mem noFeed]
  | feed content rest noFeed ih =>
      rw [lines_append_feed rest noFeed, plainFeeds_append_feed rest noFeed]
      by_cases nothing : rest = []
      · subst nothing
        simp [lines, segments, finalFeed, plainFeeds]
      · have sameEnd : finalFeed (content ++ '\n' :: rest) = finalFeed rest := by
          rw [finalFeed, getLast?_append_feed content nothing, finalFeed]
        rw [List.intercalate_cons_of_ne_nil (lines_ne_nil nothing), List.append_assoc, sameEnd, ih,
          List.append_assoc, List.singleton_append]

theorem represents_lines (chars : List Char) : Represents (lines chars) chars where
  noFeed := feed_not_mem_lines chars
  length := length_lines chars
  joined := intercalate_lines chars

/-- The lines of a text are the only ones that represent it: two such lists are equally long and
joined alike, and cutting the joined text at its line feeds gives back either of them.
-/
theorem represents_iff {others : List (List Char)} {chars : List Char}
    : Represents others chars ↔ others = lines chars := by
  constructor
  · intro other
    have own := represents_lines chars
    have joined : ['\n'].intercalate others = ['\n'].intercalate (lines chars) :=
      List.append_cancel_right (other.joined.trans own.joined.symm)
    have length : others.length = (lines chars).length := other.length.trans own.length.symm
    -- joined, no lines are the same as one empty line; only their number tells them apart
    by_cases nothing : lines chars = []
    · rw [nothing] at length ⊢
      exact List.eq_nil_of_length_eq_zero length
    · have nonempty : others ≠ [] := by
        rintro rfl
        exact nothing (List.eq_nil_of_length_eq_zero length.symm)
      calc
        others = (['\n'].intercalate others).splitOn '\n' :=
          (List.splitOn_intercalate '\n' other.noFeed nonempty).symm
        _ = (['\n'].intercalate (lines chars)).splitOn '\n' := by rw [joined]
        _ = lines chars := List.splitOn_intercalate '\n' own.noFeed nothing
  · rintro rfl
    exact represents_lines chars

-- of two returns before a line feed one is kept, and so is a return at the end
example : lines "a\r\r\n\nb\r".toList = ["a\r".toList, [], "b\r".toList] := by decide

end HintServer.Text
