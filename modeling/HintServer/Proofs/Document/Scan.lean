import HintServer.Proofs.Document.Word
import HintServer.Proofs.Text.Pieces
import Mathlib.Data.List.Sort

/-! The words found at the columns of a line.
Asking for the word at every column of a line finds its pieces between characters that are in no
word, once each and in order. A piece is found at the columns between its ends, and no column
belongs to two pieces.
-/

namespace HintServer

/-- The word of a piece of a numbered line. -/
def Word.ofPiece (number : UInt32) (piece : Text.Piece) : Word :=
  {
    range :=
      {
        start := ⟨number, Text.columnAfter piece.before⟩,
        stop := ⟨number, Text.columnAfter (piece.before ++ piece.content)⟩
      },
    text := String.ofList piece.content
  }

/-- A column of a line belongs to a word: it lies between the ends of the word, or it falls inside
the pair after which the word starts.
-/
def Word.HasColumn (word : Word) (line : List Char) (column : UInt32) : Prop :=
  (word.range.start.character ≤ column ∧ column ≤ word.range.stop.character)
  ∨ Text.InsidePair line column.toNat
    ∧ column.toNat + 1 = word.range.start.character.toNat

/-- A word starts at an earlier column than another one. -/
def Word.StartsBefore (first second : Word) : Prop :=
  first.range.start.character < second.range.start.character

instance : Std.Irrefl Word.StartsBefore := ⟨fun _ => UInt32.lt_irrefl _⟩

instance : Std.Antisymm Word.StartsBefore := ⟨fun _ _ h h' => absurd h' (UInt32.lt_asymm h)⟩

/-- The words found at the columns of a numbered line, from its first column to its end. -/
def Document.scan (document : Document) (number : UInt32) (line : List Char) : List Word :=
  (List.range (Text.unitCount line + 1)).filterMap fun column =>
    document.wordAt? ⟨number, UInt32.ofNat column⟩

-----------------------------------------------------------------------------------------
-- Words and pieces
-----------------------------------------------------------------------------------------

theorem Word.ofPiece_eq_ofStretch {number : UInt32} {piece : Text.Piece} {line : List Char}
    (stands : piece.StandsIn line)
    : Word.ofPiece number piece
      = Word.ofStretch number line piece.before.length
          (piece.before.length + piece.content.length) := by
  rcases stands.whole with ⟨after, rfl, -⟩
  rw [Word.ofStretch, Text.slice_append, ← List.length_append, List.take_left, List.append_assoc,
    List.take_left]
  rfl

/-- In a line whose code units fit, the word of a piece starts and ends at the columns of the
piece.
-/
theorem Word.columns_ofPiece (number : UInt32) {piece : Text.Piece} {line : List Char}
    (fits : Text.unitCount line < 2 ^ 32) (stands : piece.StandsIn line)
    : (Word.ofPiece number piece).range.start.character.toNat = piece.start
      ∧ (Word.ofPiece number piece).range.stop.character.toNat = piece.stop := by
  have ends := stands.stop_le
  have ordered := piece.start_le_stop
  constructor
  · apply Text.columnAfter_toNat
    exact Nat.lt_of_le_of_lt (Nat.le_trans ordered ends) fits
  · apply Text.columnAfter_toNat
    exact Nat.lt_of_le_of_lt ends fits

theorem Word.hasColumn_ofPiece_iff {number column : UInt32} {piece : Text.Piece}
    {line : List Char} (fits : Text.unitCount line < 2 ^ 32) (stands : piece.StandsIn line)
    : (Word.ofPiece number piece).HasColumn line column ↔ piece.Spans line column.toNat := by
  rcases Word.columns_ofPiece number fits stands with ⟨starts, ends⟩
  rw [stands.spans_iff, HasColumn, UInt32.le_iff_toNat_le, UInt32.le_iff_toNat_le, starts, ends]

/-- The words of two pieces are apart as the pieces are. -/
theorem Word.apart_ofPiece (number : UInt32) {first second : Text.Piece} {line : List Char}
    (fits : Text.unitCount line < 2 ^ 32) (isFirst : first ∈ Text.wordPieces line)
    (isSecond : second ∈ Text.wordPieces line) (apart : first.stop < second.start)
    : (Word.ofPiece number first).range.stop.character
      < (Word.ofPiece number second).range.start.character := by
  have firstStands := Text.standsIn_of_mem_wordPieces isFirst
  have secondStands := Text.standsIn_of_mem_wordPieces isSecond
  rw [UInt32.lt_iff_toNat_lt, (Word.columns_ofPiece number fits firstStands).2,
    (Word.columns_ofPiece number fits secondStands).1]
  exact apart

/-- Of two words that are apart the first one starts earlier, as it does not end before its own
start.
-/
theorem Word.startsBefore_ofPiece {number : UInt32} {first second : Text.Piece}
    {line : List Char} (fits : Text.unitCount line < 2 ^ 32)
    (isFirst : first ∈ Text.wordPieces line) (isSecond : second ∈ Text.wordPieces line)
    (apart : first.stop < second.start)
    : (Word.ofPiece number first).StartsBefore (Word.ofPiece number second) := by
  have firstStands := Text.standsIn_of_mem_wordPieces isFirst
  rcases Word.columns_ofPiece number fits firstStands with ⟨starts, ends⟩
  have ordered := first.start_le_stop
  have further := Word.apart_ofPiece number fits isFirst isSecond apart
  rw [UInt32.lt_iff_toNat_lt] at further
  rw [Word.StartsBefore, UInt32.lt_iff_toNat_lt]
  omega

/-- The word at a column is that of the piece that spans the column: the piece is the run that
touches the cursor, and its ends are on either side of the column that is meant.
-/
theorem Document.wordAt?_eq_some_iff_piece {document : Document} {number column : UInt32}
    {line : List Char} {word : Word} (onLine : document.lines[number.toNat]? = some line)
    (fits : Text.unitCount line < 2 ^ 32)
    : document.wordAt? ⟨number, column⟩ = some word
      ↔ ∃ piece ∈ Text.wordPieces line,
          piece.Spans line column.toNat ∧ word = Word.ofPiece number piece := by
  by_cases past : Text.unitCount line < column.toNat
  · rw [Document.wordAt?_of_past_line onLine past]
    simp only [reduceCtorEq, false_iff, not_exists, not_and]
    rintro piece member ⟨-, ends⟩
    have := (Text.standsIn_of_mem_wordPieces member).stop_le
    have := Text.le_settled line column.toNat
    omega
  · rcases Text.exists_isCursor (Nat.not_lt.mp past) with ⟨cursor, isCursor⟩
    have search := (Text.columnIndex?_eq_some_iff fits).mpr isCursor
    rw [Document.wordAt?_eq_some_iff onLine search]
    constructor
    · rintro ⟨start, stop, ⟨run, startLe, leStop⟩, rfl⟩
      rcases Text.exists_piece_of_isRun run with ⟨piece, member, rfl, rfl⟩
      have stands := Text.standsIn_of_mem_wordPieces member
      refine ⟨piece, member, ?_, (Word.ofPiece_eq_ofStretch stands).symm⟩
      rw [Text.Piece.Spans, stands.start_eq, stands.stop_eq, ← isCursor.unitCount_take]
      exact ⟨Text.unitCount_take_le line startLe, Text.unitCount_take_le line leStop⟩
    · rintro ⟨piece, member, ⟨starts, ends⟩, rfl⟩
      have run := Text.isRun_of_mem_wordPieces member
      have stands := Text.standsIn_of_mem_wordPieces member
      rw [stands.start_eq] at starts
      rw [stands.stop_eq] at ends
      exact ⟨_, _, ⟨run, isCursor.touches run starts ends⟩, Word.ofPiece_eq_ofStretch stands⟩

-----------------------------------------------------------------------------------------
-- Scans
-----------------------------------------------------------------------------------------

/-- Items of a list that are equal or in order are in order once repeated ones are left out, by
induction on the length of the list: the first item comes before all others that differ from it.
-/
theorem pairwise_eraseDups {α : Type} [BEq α] [LawfulBEq α] {before : α → α → Prop}
    {items : List α}
    (ordered : items.Pairwise (fun first second => first = second ∨ before first second))
    : items.eraseDups.Pairwise before := by
  match items with
  | [] => simp
  | item :: rest =>
      rcases List.pairwise_cons.mp ordered with ⟨first, ordered⟩
      rw [List.eraseDups_cons]
      apply List.Pairwise.cons
      · intro other member
        rcases List.mem_filter.mp (List.mem_eraseDups.mp member) with ⟨member, differs⟩
        rcases first other member with rfl | less
        · simp at differs
        · exact less
      · exact pairwise_eraseDups (ordered.filter _)
termination_by items.length
decreasing_by exact Nat.lt_succ_of_le (List.length_filter_le _ _)

/-- A column of a line is a 32-bit word, if the code units of the line fit. -/
theorem toNat_column {line : List Char} {column : Nat} (fits : Text.unitCount line < 2 ^ 32)
    (inLine : column < Text.unitCount line + 1)
    : (UInt32.ofNat column).toNat = column :=
  UInt32.toNat_ofNat_of_lt' (Nat.lt_of_le_of_lt (Nat.le_of_lt_succ inLine) fits)

/-- A later column finds the same word or one that starts later, since the piece that it means is
not before the one that an earlier column means.
-/
theorem pairwise_scan {document : Document} {number : UInt32} {line : List Char}
    (onLine : document.lines[number.toNat]? = some line) (fits : Text.unitCount line < 2 ^ 32)
    : (document.scan number line).Pairwise
        (fun first second => first = second ∨ first.StartsBefore second) := by
  apply List.pairwise_filterMap.mpr
  apply List.Pairwise.imp_of_mem _ List.pairwise_lt_range
  intro column column' inLine inLine' less word found word' found'
  rw [List.mem_range] at inLine inLine'
  rw [Document.wordAt?_eq_some_iff_piece onLine fits, toNat_column fits inLine] at found
  rw [Document.wordAt?_eq_some_iff_piece onLine fits, toNat_column fits inLine'] at found'
  rcases found with ⟨piece, member, ⟨starts, -⟩, rfl⟩
  rcases found' with ⟨piece', member', ⟨-, ends⟩, rfl⟩
  by_cases same : piece = piece'
  · exact Or.inl (congrArg _ same)
  · have forward := Text.settled_mono line (Nat.le_of_lt less)
    rcases Text.apart_of_mem_wordPieces member member' same with before | after
    · exact Or.inr (Word.startsBefore_ofPiece fits member member' before)
    · omega

/-- Every piece is found at the column where it starts, and only pieces are found. -/
theorem mem_scan_iff {document : Document} {number : UInt32} {line : List Char} {word : Word}
    (onLine : document.lines[number.toNat]? = some line) (fits : Text.unitCount line < 2 ^ 32)
    : word ∈ document.scan number line
      ↔ word ∈ (Text.wordPieces line).map (Word.ofPiece number) := by
  simp only [Document.scan, List.mem_filterMap, List.mem_range,
    Document.wordAt?_eq_some_iff_piece onLine fits, List.mem_map]
  constructor
  · rintro ⟨column, -, piece, member, -, rfl⟩
    exact ⟨piece, member, rfl⟩
  · rintro ⟨piece, member, rfl⟩
    have stands := Text.standsIn_of_mem_wordPieces member
    have ordered := piece.start_le_stop
    have inside := stands.stop_le
    have inLine : piece.start < Text.unitCount line + 1 := by omega
    refine ⟨piece.start, inLine, piece, member, ?_, rfl⟩
    rw [toNat_column fits inLine, stands.spans_iff]
    exact Or.inl ⟨Nat.le_refl _, ordered⟩

/-- Scanning a line finds its words. The distinct words found at its columns are, in order, the
pieces that the line splits into at characters that are in no word, with the columns of their ends.
A word is found at exactly the columns that belong to it, which are those between its ends and one
inside a pair before it, and so again at every column of its range; each word ends before the next
one starts.
-/
theorem scan_finds_pieces (document : Document) (number : UInt32) (line : List Char)
    (onLine : document.lines[number.toNat]? = some line) (fits : Text.unitCount line < 2 ^ 32)
    : let pieces := Text.wordPieces line
      let words := pieces.map (Word.ofPiece number)
      (document.scan number line).eraseDups = words
      ∧ pieces.map (·.content)
        = (line.splitOnP (!Text.isWordChar ·)).filter (fun content => content ≠ [])
      ∧ (∀ piece ∈ pieces,
          (∃ after, line = piece.before ++ piece.content ++ after)
          ∧ (Word.ofPiece number piece).range.start.character.toNat
            = Text.unitCount piece.before
          ∧ (Word.ofPiece number piece).range.stop.character.toNat
            = Text.unitCount (piece.before ++ piece.content))
      ∧ words.Pairwise
          (fun first second => first.range.stop.character < second.range.start.character)
      ∧ (∀ column word,
          document.wordAt? ⟨number, column⟩ = some word
          ↔ word ∈ words ∧ word.HasColumn line column)
      ∧ (∀ column,
          document.wordAt? ⟨number, column⟩ = none
          ↔ ∀ word ∈ words, ¬ word.HasColumn line column)
      ∧ ∀ column word,
          document.wordAt? ⟨number, column⟩ = some word
          → ∀ other,
              word.range.start.character ≤ other
              → other ≤ word.range.stop.character
              → document.wordAt? ⟨number, other⟩ = some word := by
  intro pieces words
  have found (column : UInt32) (word : Word)
      : document.wordAt? ⟨number, column⟩ = some word
        ↔ word ∈ words ∧ word.HasColumn line column := by
    rw [Document.wordAt?_eq_some_iff_piece onLine fits, List.mem_map]
    constructor
    · rintro ⟨piece, member, spans, rfl⟩
      have stands := Text.standsIn_of_mem_wordPieces member
      exact ⟨⟨piece, member, rfl⟩, (Word.hasColumn_ofPiece_iff fits stands).mpr spans⟩
    · rintro ⟨⟨piece, member, rfl⟩, belongs⟩
      have stands := Text.standsIn_of_mem_wordPieces member
      exact ⟨piece, member, (Word.hasColumn_ofPiece_iff fits stands).mp belongs, rfl⟩
  have inOrder := Text.pairwise_wordPieces line
  refine ⟨?_, Text.wordPieces_map_content line, ?_, ?_, found, ?_, ?_⟩
  · apply List.Pairwise.eq_of_mem_iff (pairwise_eraseDups (pairwise_scan onLine fits))
    · apply List.pairwise_map.mpr
      apply inOrder.imp_of_mem
      exact fun isFirst isSecond => Word.startsBefore_ofPiece fits isFirst isSecond
    · intro word
      rw [List.mem_eraseDups, mem_scan_iff onLine fits]
  · intro piece member
    have stands := Text.standsIn_of_mem_wordPieces member
    rcases stands.whole with ⟨after, split, -⟩
    exact ⟨⟨after, split⟩, Word.columns_ofPiece number fits stands⟩
  · apply List.pairwise_map.mpr
    apply inOrder.imp_of_mem
    exact fun isFirst isSecond => Word.apart_ofPiece number fits isFirst isSecond
  · intro column
    simp only [Option.eq_none_iff_forall_ne_some, Ne, found, not_and]
  · intro column word isWord other starts ends
    exact (found other word).mpr ⟨((found column word).mp isWord).1, Or.inl ⟨starts, ends⟩⟩

/-- A word after a pair is found inside the pair, too, and a word after a single space is not. -/
theorem scan_after_pair
    : let document := Document.ofText "x\n😀unique b" "javascript" 1
      let line := "😀unique b".toList
      let unique : Word := ⟨⟨⟨1, 2⟩, ⟨1, 8⟩⟩, "unique"⟩
      document.lines[(1 : UInt32).toNat]? = some line
      ∧ Text.unitCount line < 2 ^ 32
      ∧ (document.scan 1 line).eraseDups = [unique, ⟨⟨⟨1, 9⟩, ⟨1, 10⟩⟩, "b"⟩]
      ∧ Text.Piece.mk "😀".toList "unique".toList ∈ Text.wordPieces line
      ∧ (Word.ofPiece 1 ⟨"😀".toList, "unique".toList⟩).range.stop.character.toNat
        = Text.unitCount "😀unique".toList
      ∧ document.wordAt? ⟨1, 1⟩ = some unique
      ∧ document.wordAt? ⟨1, 5⟩ = some unique := by
  intro document line unique
  have onLine : document.lines[(1 : UInt32).toNat]? = some line := by decide
  have fits : Text.unitCount line < 2 ^ 32 := by decide
  have member : Text.Piece.mk "😀".toList "unique".toList ∈ Text.wordPieces line := by
    decide +kernel
  have isWord : document.wordAt? ⟨1, 1⟩ = some unique := by decide +kernel
  obtain ⟨scanned, -, columns, -, -, -, again⟩ := scan_finds_pieces document 1 line onLine fits
  refine ⟨onLine, fits, ?_, member, (columns _ member).2.2, isWord, ?_⟩
  · rw [scanned]
    decide +kernel
  · exact again 1 unique isWord 5 (by decide) (by decide)

end HintServer
