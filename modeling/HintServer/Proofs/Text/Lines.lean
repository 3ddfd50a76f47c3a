import HintServer.Text.Lines
import Mathlib.Data.List.DropRight

/-! Lines of joined texts.
A text that ends with a line feed has its own lines wherever it stands, so that a line depends on
the text around it only up to the line feeds next to it.
-/

namespace HintServer.Text

/-- A text of whole lines is empty or ends with a line feed. -/
def EndsLine (chars : List Char) : Prop :=
  ∀ char, chars.getLast? = some char → char = '\n'

/-- The part of a text after its last line feed. -/
def lastLine (chars : List Char) : List Char :=
  chars.rtakeWhile (· != '\n')

theorem segments_cons (char : Char) (rest : List Char)
    : segments (char :: rest) = Segment.prepend char (segments rest) :=
  rfl

/-- A text begins with its segment up to the first line feed, by induction on the text. -/
theorem segments_eq_cons {chars : List Char} (nonempty : chars ≠ [])
    : segments chars
      = { content := chars.takeWhile (· != '\n'), terminated := chars.contains '\n' }
        :: segments (chars.dropWhile (· != '\n')).tail := by
  induction chars with
  | nil => contradiction
  | cons char rest ih =>
      rw [segments_cons]
      by_cases feed : char = '\n'
      · subst feed
        simp [Segment.prepend]
      · cases rest with
        | nil => simp [segments, Segment.prepend, feed, Ne.symm feed]
        | cons next rest =>
            rw [ih (by simp)]
            simp [Segment.prepend, feed, Ne.symm feed]

theorem ne_feed_of_not_mem {content : List Char} (noFeed : '\n' ∉ content)
    : ∀ char ∈ content, (char != '\n') = true := by
  intro char member
  simpa using fun feed : char = '\n' => noFeed (feed ▸ member)

-----------------------------------------------------------------------------------------
-- Line by line
-----------------------------------------------------------------------------------------

/-- A text is empty, or a last line without a line feed, or a line, its line feed and the text
after it; by induction on the text, with the start of its first line collected.
-/
@[elab_as_elim]
theorem induction_on_lines {motive : List Char → Prop} (chars : List Char)
    (empty : motive [])
    (last : ∀ content, content ≠ [] → '\n' ∉ content → motive content)
    (feed
      : ∀ content rest, '\n' ∉ content → motive rest → motive (content ++ '\n' :: rest))
    : motive chars := by
  -- the induction passes the characters of a line on to its line feed or the end of the text
  suffices collected : ∀ content, '\n' ∉ content → motive (content ++ chars) by
    exact collected [] List.not_mem_nil
  induction chars with
  | nil =>
      intro content noFeed
      rw [List.append_nil]
      by_cases nothing : content = []
      · exact nothing ▸ empty
      · exact last content nothing noFeed
  | cons char rest ih =>
      intro content noFeed
      by_cases isFeed : char = '\n'
      · subst isFeed
        exact feed content rest noFeed (ih [] List.not_mem_nil)
      · rw [List.append_cons]
        exact ih _ (by simp [noFeed, Ne.symm isFeed])

theorem lines_of_not_mem {content : List Char} (nonempty : content ≠ [])
    (noFeed : '\n' ∉ content)
    : lines content = [content] := by
  have passed := ne_feed_of_not_mem noFeed
  rw [lines, segments_eq_cons nonempty, List.takeWhile_eq_self_iff.mpr passed,
    List.dropWhile_eq_nil_iff.mpr passed]
  simp [segments, Segment.line, noFeed]

theorem lines_append_feed {content : List Char} (rest : List Char) (noFeed : '\n' ∉ content)
    : lines (content ++ '\n' :: rest) = dropReturn content :: lines rest := by
  have passed := ne_feed_of_not_mem noFeed
  rw [lines, segments_eq_cons (by simp), List.takeWhile_append_of_pos passed,
    List.dropWhile_append_of_pos passed]
  simp [lines, Segment.line]

theorem getLast?_ne_feed_of_not_mem {content : List Char} (noFeed : '\n' ∉ content)
    : content.getLast? ≠ some '\n' :=
  fun last => noFeed (List.mem_of_getLast? last)

theorem lines_ne_nil {chars : List Char} (nonempty : chars ≠ []) : lines chars ≠ [] := by
  rw [lines, segments_eq_cons nonempty, List.map_cons]
  exact List.cons_ne_nil _ _

theorem getLast?_append_feed (content : List Char) {rest : List Char} (nonempty : rest ≠ [])
    : (content ++ '\n' :: rest).getLast? = rest.getLast? := by
  rw [List.append_cons, List.getLast?_append_of_ne_nil _ nonempty]

/-- A text has a line for each of its line feeds and one for what stands after the last of them,
line by line.
-/
theorem length_lines (chars : List Char)
    : (lines chars).length
      = chars.count '\n' + if chars ≠ [] ∧ chars.getLast? ≠ some '\n' then 1 else 0 := by
  induction chars using induction_on_lines with
  | empty => rfl
  | last content nonempty noFeed =>
      rw [lines_of_not_mem nonempty noFeed, List.count_eq_zero_of_not_mem noFeed,
        if_pos ⟨nonempty, getLast?_ne_feed_of_not_mem noFeed⟩]
      rfl
  | feed content rest noFeed ih =>
      have more : content ++ '\n' :: rest ≠ [] := by simp
      rw [lines_append_feed rest noFeed, List.length_cons, ih, List.count_append,
        List.count_cons_self, List.count_eq_zero_of_not_mem noFeed]
      by_cases nothing : rest = []
      · subst nothing
        simp
      · simp only [getLast?_append_feed content nothing, ne_eq, nothing, more, not_false_eq_true,
          true_and]
        omega

-----------------------------------------------------------------------------------------
-- Joined texts
-----------------------------------------------------------------------------------------

theorem EndsLine.of_cons {char : Char} {rest : List Char} (h : EndsLine (char :: rest))
    : EndsLine rest := by
  intro last isLast
  exact h last (by rw [List.getLast?_cons, isLast]; rfl)

/-- Whole lines in front of a text are cut off on their own, by induction on them: the last
character before the text is a line feed, which begins a segment of its own.
-/
theorem segments_append {first second : List Char} (whole : EndsLine first)
    : segments (first ++ second) = segments first ++ segments second := by
  induction first with
  | nil => rfl
  | cons char rest ih =>
      rw [List.cons_append, segments_cons, segments_cons, ih whole.of_cons]
      by_cases feed : char = '\n'
      · simp [Segment.prepend, feed]
      · have nonempty : rest ≠ [] := by
          rintro rfl
          exact feed (whole char rfl)
        rw [segments_eq_cons nonempty]
        simp [Segment.prepend, feed]

theorem lines_append {first second : List Char} (whole : EndsLine first)
    : lines (first ++ second) = lines first ++ lines second := by
  rw [lines, segments_append whole, List.map_append, ← lines, ← lines]

/-- Whole lines are as many as their line feeds, as nothing stands after the last of these. -/
theorem length_lines_of_endsLine {chars : List Char} (whole : EndsLine chars)
    : (lines chars).length = chars.count '\n' := by
  rw [length_lines, if_neg, Nat.add_zero]
  rintro ⟨nonempty, unended⟩
  have last := List.getLast?_eq_some_getLast nonempty
  exact unended (whole _ last ▸ last)

/-- A line that loses a return at its end keeps a first part that does not end with one. -/
theorem dropReturn_append {first : List Char} (second : List Char)
    (kept : first.getLast? ≠ some '\r')
    : ∃ rest, rest <+: second ∧ dropReturn (first ++ second) = first ++ rest := by
  unfold dropReturn
  split
  case isTrue returned =>
    cases second with
    | nil =>
        rw [List.append_nil] at returned
        exact absurd returned kept
    | cons char rest =>
        exact ⟨(char :: rest).dropLast, List.dropLast_prefix _,
          List.dropLast_append_of_ne_nil (by simp)⟩
  case isFalse => exact ⟨second, List.prefix_rfl, rfl⟩

theorem endsLine_rdropWhile (chars : List Char)
    : EndsLine (chars.rdropWhile (· != '\n')) := by
  intro char last
  have nonempty : chars.rdropWhile (· != '\n') ≠ [] := by
    intro empty
    simp [empty] at last
  have stopped := List.rdropWhile_last_not _ _ nonempty
  rw [List.getLast?_eq_some_getLast nonempty, Option.some.injEq] at last
  simpa [last] using stopped

theorem lastLine_append (chars : List Char)
    : chars.rdropWhile (· != '\n') ++ lastLine chars = chars :=
  List.rdropWhile_append_rtakeWhile ..

theorem not_mem_lastLine (chars : List Char) : '\n' ∉ lastLine chars := by
  intro member
  simpa using List.mem_rtakeWhile_imp member

/-- The first line of a text that begins without a line feed is that beginning and more of the
text, unless the beginning ends with a return, which the end of the line could take away.
-/
theorem lines_head_of_prefix {first : List Char} (second : List Char) (nonempty : first ≠ [])
    (noFeed : '\n' ∉ first) (kept : first.getLast? ≠ some '\r')
    : ∃ rest, rest <+: second ∧ (lines (first ++ second))[0]? = some (first ++ rest) := by
  rw [lines, segments_eq_cons (by simp [nonempty]), List.map_cons, List.getElem?_cons_zero,
    List.takeWhile_append_of_pos (ne_feed_of_not_mem noFeed)]
  have upTo : second.takeWhile (· != '\n') <+: second := List.takeWhile_prefix _
  unfold Segment.line
  split
  case isTrue =>
    obtain ⟨rest, start, same⟩ := dropReturn_append (second.takeWhile (· != '\n')) kept
    exact ⟨rest, start.trans upTo, congrArg some same⟩
  case isFalse => exact ⟨_, upTo, rfl⟩

/-- The line of a word in a text is what stands before the word on its line, the word and the
start of what follows: the lines before it are whole, and the line feed or the return that ends
the line comes after the word.
-/
theorem lines_getElem?_of_word (before after : List Char) {word : List Char}
    (nonempty : word ≠ []) (noFeed : '\n' ∉ word) (noReturn : '\r' ∉ word)
    : ∃ rest,
        rest <+: after
        ∧ (lines (before ++ word ++ after))[before.count '\n']?
          = some (lastLine before ++ word ++ rest) := by
  have whole := endsLine_rdropWhile before
  have number : (lines (before.rdropWhile (· != '\n'))).length = before.count '\n' := by
    rw [length_lines_of_endsLine whole]
    nth_rewrite 2 [← lastLine_append before]
    rw [List.count_append, List.count_eq_zero_of_not_mem (not_mem_lastLine before), Nat.add_zero]
  have kept : (lastLine before ++ word).getLast? ≠ some '\r' := by
    rw [List.getLast?_append_of_ne_nil _ nonempty]
    intro last
    exact noReturn (List.mem_of_getLast? last)
  obtain ⟨rest, start, line⟩ := lines_head_of_prefix after (by simp [nonempty])
    (by simp [not_mem_lastLine before, noFeed]) kept
  refine ⟨rest, start, ?_⟩
  nth_rewrite 1 [← lastLine_append before]
  rw [List.append_assoc, List.append_assoc, ← List.append_assoc _ word, lines_append whole,
    List.getElem?_append_right (Nat.le_of_eq number), number, Nat.sub_self, line]

end HintServer.Text
