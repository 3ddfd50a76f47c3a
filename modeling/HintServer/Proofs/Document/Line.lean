import HintServer.Document.Hover
import HintServer.Proofs.Document.Word
import HintServer.Proofs.Text.Returns

/-! Each line of a document answers for itself.
The word and the hover at a position depend on the characters between the line feeds next to it
and on the number of the line, so that whole lines before a line only move its answers down.
-/

namespace HintServer

-----------------------------------------------------------------------------------------
-- Answers from the content of a line
-----------------------------------------------------------------------------------------

/-- The word of a run does not depend on what follows the line. -/
theorem Word.ofStretch_append {line : List Char} {start stop : Nat}
    (run : Text.IsRun line start stop) (number : UInt32) (rest : List Char)
    : Word.ofStretch number (line ++ rest) start stop
      = Word.ofStretch number line start stop := by
  have inside := run.inside
  have ordered := Nat.le_of_lt run.nonempty
  simp only [Word.ofStretch, Text.slice, List.take_append_of_le_length inside,
    List.take_append_of_le_length (Nat.le_trans ordered inside)]

/-- A return at the end of a line changes no word: the runs are the same with it, and a column past
it touches none of them.
-/
theorem Word.onLine?_append_return (number column : UInt32) (line : List Char)
    : Word.onLine? number column (line ++ ['\r']) = Word.onLine? number column line := by
  have outside : Text.isWordChar '\r' = false := by decide
  apply Option.ext
  intro word
  simp only [Word.onLine?_eq_some_iff, Text.isRun_append_singleton_iff outside]
  constructor
  · rintro ⟨cursor, search, start, stop, ⟨run, startLe, leStop⟩, rfl⟩
    have inside : cursor ≤ line.length := Nat.le_trans leStop run.inside
    exact ⟨cursor, (Text.columnIndex?_append_eq_some_iff _ inside).mp search, start, stop,
      ⟨run, startLe, leStop⟩, Word.ofStretch_append run number _⟩
  · rintro ⟨cursor, search, start, stop, ⟨run, startLe, leStop⟩, rfl⟩
    have inside : cursor ≤ line.length := Nat.le_trans leStop run.inside
    exact ⟨cursor, (Text.columnIndex?_append_eq_some_iff _ inside).mpr search, start, stop,
      ⟨run, startLe, leStop⟩, (Word.ofStretch_append run number _).symm⟩

theorem Word.onLine?_of_eqUpToReturn {content content' : List Char}
    (same : Text.EqUpToReturn content content') (number column : UInt32)
    : Word.onLine? number column content' = Word.onLine? number column content := by
  rcases same with rfl | rfl
  · rfl
  · exact Word.onLine?_append_return number column content

theorem Word.onLine?_nil (number column : UInt32) : Word.onLine? number column [] = none := by
  refine Option.eq_none_iff_forall_ne_some.mpr fun word isWord => ?_
  obtain ⟨_, _, _, _, ⟨run, -, -⟩, -⟩ := Word.onLine?_eq_some_iff.mp isWord
  have nonempty := run.nonempty
  have inside : _ ≤ 0 := run.inside
  omega

namespace Document

/-- The word at a position of a text is the one in the characters between the line feeds next to
it: a return that the line leaves off is in no word, and neither is the end of the text.
-/
theorem wordAt?_ofText (text languageId : String) (version : Int32) (position : Position)
    : (ofText text languageId version).wordAt? position
      = (text.toList.splitOn '\n')[position.line.toNat]?.bind
          (Word.onLine? position.line position.character) := by
  rw [wordAt?_eq_bind, ofText]
  cases onLine : (Text.lines text.toList)[position.line.toNat]? with
  | some line =>
      obtain ⟨content, found, same⟩ := Text.exists_content_of_line onLine
      rw [found, Option.bind_some, Option.bind_some, Word.onLine?_of_eqUpToReturn same]
  | none =>
      cases found : (text.toList.splitOn '\n')[position.line.toNat]? with
      | none => rfl
      | some content =>
          obtain rfl := Text.content_of_no_line onLine found
          exact (Word.onLine?_nil _ _).symm

end Document

/-- The hover that a word has. -/
def Word.hover? (word : Word) : Option Hover :=
  (Catalog.builtin.lookup word.text).map fun entry =>
    { documentation := entry.documentation, range := word.range }

namespace Document

theorem hover?_eq_bind (document : Document) (position : Position)
    : document.hover? position = (document.wordAt? position).bind Word.hover? := by
  unfold hover?
  cases document.wordAt? position <;> rfl

/-- Documents that find the same word at a position show the same hover there. -/
theorem hover?_congr {first second : Document} {position : Position}
    (same : first.wordAt? position = second.wordAt? position)
    : first.hover? position = second.hover? position := by
  simp only [hover?_eq_bind, same]

end Document

-----------------------------------------------------------------------------------------
-- Answers further down
-----------------------------------------------------------------------------------------

/-- The position so many lines further down. -/
def Position.down (count : Nat) (position : Position) : Position :=
  ⟨UInt32.ofNat (count + position.line.toNat), position.character⟩

/-- The range with both its ends so many lines further down. -/
def Range.down (count : Nat) (range : Range) : Range :=
  ⟨range.start.down count, range.stop.down count⟩

/-- The word so many lines further down. -/
def Word.down (count : Nat) (word : Word) : Word :=
  { word with range := word.range.down count }

/-- The hover so many lines further down. -/
def Hover.down (count : Nat) (hover : Hover) : Hover :=
  { hover with range := hover.range.down count }

theorem Position.line_down {count : Nat} {position : Position}
    (fits : count + position.line.toNat < 2 ^ 32)
    : (position.down count).line.toNat = count + position.line.toNat :=
  UInt32.toNat_ofNat_of_lt' fits

/-- A line finds the same words under any number, on the line of that number. -/
theorem Word.onLine?_down (count : Nat) (position : Position) (line : List Char)
    : Word.onLine? (position.down count).line (position.down count).character line
      = (Word.onLine? position.line position.character line).map (Word.down count) := by
  simp only [Word.onLine?, Position.down]
  cases Text.columnIndex? line position.character with
  | none => rfl
  | some cursor =>
      simp only [Option.bind_some]
      split <;> rfl

theorem Word.hover?_down (count : Nat) (word : Word)
    : (word.down count).hover? = word.hover?.map (Hover.down count) := by
  simp only [Word.hover?, Option.map_map]
  rfl

theorem Document.hover?_down {first second : Document} {count : Nat} {position : Position}
    (moved
      : first.wordAt? (position.down count) = (second.wordAt? position).map (Word.down count))
    : first.hover? (position.down count) = (second.hover? position).map (Hover.down count) := by
  rw [hover?_eq_bind, hover?_eq_bind, moved]
  cases second.wordAt? position with
  | none => rfl
  | some word => exact word.hover?_down count

-----------------------------------------------------------------------------------------
-- Joined texts
-----------------------------------------------------------------------------------------

namespace Document

/-- On whole lines a text that follows them changes no word. -/
theorem wordAt?_append_of_lt {first : String} (whole : Text.EndsLine first.toList)
    (second languageId : String) (version : Int32) {position : Position}
    (above : position.line.toNat < first.toList.count '\n')
    : (ofText (first ++ second) languageId version).wordAt? position
      = (ofText first languageId version).wordAt? position := by
  rw [← Text.length_lines_of_endsLine whole] at above
  simp only [wordAt?_eq_bind, ofText, String.toList_append, Text.lines_append whole,
    List.getElem?_append_left above]

/-- Below whole lines a text has its words that many lines further down. -/
theorem wordAt?_append_down {first : String} (whole : Text.EndsLine first.toList)
    (second languageId : String) (version : Int32) {position : Position}
    (fits : first.toList.count '\n' + position.line.toNat < 2 ^ 32)
    : (ofText (first ++ second) languageId version).wordAt?
          (position.down (first.toList.count '\n'))
      = ((ofText second languageId version).wordAt? position).map
          (Word.down (first.toList.count '\n')) := by
  have length := Text.length_lines_of_endsLine whole
  have below
      : (Text.lines first.toList).length
        ≤ first.toList.count '\n' + position.line.toNat := by
    omega
  simp only [wordAt?_eq_bind, ofText, String.toList_append, Position.line_down fits,
    Text.lines_append whole, List.getElem?_append_right below, length,
    Nat.add_sub_cancel_left, Option.map_bind]
  congr
  funext line
  exact Word.onLine?_down _ position line

/-- An updated document is a new one with the language of the old one. -/
theorem update_eq_ofText (document : Document) (text : String) (version : Int32)
    : document.update text version = ofText text document.languageId version :=
  rfl

end Document

/-- The lines of a document answer for themselves. A document that consists of whole lines and
another text answers on these lines as they would alone, and below them as the other text would
alone, with the answers moved down by as many lines. So an edit that leaves the characters between
the line feeds next to a line, and the number of the line, leaves every answer on it.
-/
theorem lines_answer_for_themselves (first second languageId : String) (version : Int32)
    (whole : Text.EndsLine first.toList)
    : let document (text : String) := Document.ofText text languageId version
      let count := first.toList.count '\n'
      (∀ position : Position,
        position.line.toNat < count
        → (document (first ++ second)).wordAt? position = (document first).wordAt? position
          ∧ (document (first ++ second)).hover? position = (document first).hover? position)
      ∧ (∀ position : Position,
          count + position.line.toNat < 2 ^ 32
          → (position.down count).line.toNat = count + position.line.toNat
            ∧ (document (first ++ second)).wordAt? (position.down count)
              = ((document second).wordAt? position).map (Word.down count)
            ∧ (document (first ++ second)).hover? (position.down count)
              = ((document second).hover? position).map (Hover.down count))
      ∧ ∀ (text edited : String) (version' : Int32) (position : Position),
          (edited.toList.splitOn '\n')[position.line.toNat]?
            = (text.toList.splitOn '\n')[position.line.toNat]?
          → ((document text).update edited version').wordAt? position
              = (document text).wordAt? position
            ∧ ((document text).update edited version').hover? position
              = (document text).hover? position := by
  intro document count
  refine ⟨?_, ?_, ?_⟩
  · intro position above
    have same := Document.wordAt?_append_of_lt whole second languageId version above
    exact ⟨same, Document.hover?_congr same⟩
  · intro position fits
    have moved := Document.wordAt?_append_down whole second languageId version fits
    exact ⟨Position.line_down fits, moved, Document.hover?_down moved⟩
  · intro text edited version' position sameContent
    have same
        : ((document text).update edited version').wordAt? position
          = (document text).wordAt? position := by
      simp only [document, Document.update_eq_ofText, Document.wordAt?_ofText, sameContent]
    exact ⟨same, Document.hover?_congr same⟩

/-- A text put below two lines keeps its words two lines further down, also when these lines are
exchanged for others; the lines above it keep theirs.
-/
theorem chunk_answers_two_lines_down
    : let document (text : String) := Document.ofText text "javascript" 1
      let first := "a\r\n😀;\n"
      let second := "chunk(xs)\r"
      Text.EndsLine first.toList
      ∧ first.toList.count '\n' = 2
      ∧ (document (first ++ second)).wordAt? ⟨0, 1⟩ = some ⟨⟨⟨0, 0⟩, ⟨0, 1⟩⟩, "a"⟩
      ∧ (document (first ++ second)).wordAt? ⟨2, 3⟩ = some ⟨⟨⟨2, 0⟩, ⟨2, 5⟩⟩, "chunk"⟩
      ∧ (document (first ++ second)).hover? ⟨2, 3⟩
        = ((document second).hover? ⟨0, 3⟩).map (Hover.down 2)
      ∧ ("\n\nchunk(xs)\r\n".toList.splitOn '\n')[2]?
        = ((first ++ second).toList.splitOn '\n')[2]?
      ∧ ((document (first ++ second)).update "\n\nchunk(xs)\r\n" 2).wordAt? ⟨2, 3⟩
        = some ⟨⟨⟨2, 0⟩, ⟨2, 5⟩⟩, "chunk"⟩ := by
  intro document first second
  have whole : Text.EndsLine first.toList := by
    have last : first.toList.getLast? = some '\n' := by decide
    exact fun char isLast => Option.some.inj (isLast.symm.trans last)
  have count : first.toList.count '\n' = 2 := by decide
  have sameContent
      : ("\n\nchunk(xs)\r\n".toList.splitOn '\n')[2]?
        = ((first ++ second).toList.splitOn '\n')[2]? := by
    decide
  have word : (document second).wordAt? ⟨0, 3⟩ = some ⟨⟨⟨0, 0⟩, ⟨0, 5⟩⟩, "chunk"⟩ := by
    decide
  obtain ⟨above, below, edits⟩ := lines_answer_for_themselves first second "javascript" 1 whole
  rw [count] at above below
  obtain ⟨-, words, hovers⟩ := below ⟨0, 3⟩ (by decide)
  have moved
      : (document (first ++ second)).wordAt? ⟨2, 3⟩
        = some ⟨⟨⟨2, 0⟩, ⟨2, 5⟩⟩, "chunk"⟩ :=
    words.trans (congrArg (Option.map (Word.down 2)) word)
  have edited := (edits (first ++ second) "\n\nchunk(xs)\r\n" 2 ⟨2, 3⟩ sameContent).1
  refine ⟨whole, count, ?_, moved, hovers, sameContent, edited.trans moved⟩
  exact (above ⟨0, 1⟩ (by decide)).1.trans (by decide)

end HintServer
