import HintServer.Proofs.Text.Word
import Mathlib.Data.List.Pairwise

/-! The words of a line, taken in one pass over it.
A line is cut at its characters that are in no word. The pieces that are not empty are its maximal
runs of word characters, each once and in order.
-/

namespace HintServer.Text

/-- A piece of a line with the part of the line before it. -/
structure Piece where
  before : List Char
  content : List Char
deriving DecidableEq, Repr

namespace Piece

/-- The column at which a piece starts. -/
def start (piece : Piece) : Nat :=
  unitCount piece.before

/-- The column at which a piece ends. -/
def stop (piece : Piece) : Nat :=
  unitCount (piece.before ++ piece.content)

/-- A piece stands in a line: it is made of word characters, and none is next to it. -/
structure StandsIn (piece : Piece) (line : List Char) : Prop where
  characters : ∀ char ∈ piece.content, isWordChar char = true
  whole
    : ∃ after,
        line = piece.before ++ piece.content ++ after
        ∧ IsWhole piece.before piece.content after

end Piece

/-- Of two pieces one ends before the other starts. -/
def Piece.Apart (first second : Piece) : Prop :=
  first.stop < second.start ∨ second.stop < first.start

instance : Std.Symm Piece.Apart := ⟨fun _ _ => Or.symm⟩

/-- Cuts the rest of a line at its characters that are in no word, where the piece that is being
read has begun after a part of the line.
-/
def piecesAfter (before content : List Char) : List Char → List Piece
  | [] => [{ before, content }]
  | char :: rest =>
      if isWordChar char then piecesAfter before (content ++ [char]) rest
      else { before, content } :: piecesAfter (before ++ content ++ [char]) [] rest

/-- The pieces of a line between its characters that are in no word, without the empty ones. -/
def wordPieces (line : List Char) : List Piece :=
  (piecesAfter [] [] line).filter (fun piece => piece.content ≠ [])

-----------------------------------------------------------------------------------------
-- One pass over a line
-----------------------------------------------------------------------------------------

theorem modifyHead_nil_append (contents : List (List Char))
    : contents.modifyHead ([] ++ ·) = contents :=
  congrFun List.modifyHead_id contents

/-- The pieces are what the line splits into, by induction on the rest of the line. -/
theorem piecesAfter_map_content (before content rest : List Char)
    : (piecesAfter before content rest).map (·.content)
      = (rest.splitOnP (!isWordChar ·)).modifyHead (content ++ ·) := by
  induction rest generalizing before content with
  | nil => simp [piecesAfter]
  | cons char rest ih =>
      rw [List.splitOnP_cons_eq_if_modifyHead]
      by_cases inWord : isWordChar char = true
      · simp [piecesAfter, inWord, ih, List.modifyHead_modifyHead, Function.comp_def]
      · have split := ih (before ++ content ++ [char]) []
        rw [modifyHead_nil_append] at split
        simpa [piecesAfter, inWord] using split

/-- Every piece stands in the line, by induction on the rest of it: a piece ends before a character
that is in no word, and the next one begins after that.
-/
theorem standsIn_of_mem_piecesAfter {before content rest : List Char} {piece : Piece}
    (opened : ∀ char, before.getLast? = some char → isWordChar char = false)
    (characters : ∀ char ∈ content, isWordChar char = true)
    (member : piece ∈ piecesAfter before content rest)
    : piece.StandsIn (before ++ content ++ rest) := by
  induction rest generalizing before content with
  | nil =>
      obtain rfl := List.mem_singleton.mp member
      exact ⟨characters, [], by simp, opened, by simp⟩
  | cons char rest ih =>
      rw [List.append_cons]
      by_cases inWord : isWordChar char = true
      · simp only [piecesAfter, inWord, if_true] at member
        have stands := ih opened (by simpa [or_imp, forall_and, inWord] using characters) member
        simpa using stands
      · simp only [piecesAfter, inWord] at member
        rcases List.mem_cons.mp member with rfl | member
        · exact ⟨characters, char :: rest, by simp, opened, by simpa using inWord⟩
        · have stands := ih (by simpa using inWord) (by simp) member
          simpa using stands

/-- Every word character of the rest of a line is in a piece, by induction on the rest. -/
theorem exists_piece_of_isWordAt {before content rest : List Char} {index : Nat}
    (notBefore : before.length ≤ index)
    (isWord : isWordAt (before ++ content ++ rest) index = true)
    : ∃ piece ∈ piecesAfter before content rest,
        piece.before.length ≤ index
        ∧ index < piece.before.length + piece.content.length := by
  induction rest generalizing before content with
  | nil =>
      have inside := lt_length_of_isWordAt isWord
      exact ⟨_, List.mem_singleton.mpr rfl, notBefore, by simpa using inside⟩
  | cons char rest ih =>
      by_cases inWord : isWordChar char = true
      · simp only [piecesAfter, inWord, if_true]
        apply ih notBefore
        simpa using isWord
      · simp only [piecesAfter, inWord]
        rcases Nat.lt_trichotomy index (before ++ content).length with less | here | more
        · exact ⟨_, List.mem_cons_self, notBefore, by simpa using less⟩
        · subst here
          simp [isWordAt, inWord] at isWord
        · have later : (before ++ content ++ [char]).length ≤ index := by
            simp only [List.length_append, List.length_singleton] at more ⊢
            omega
          have isWord : isWordAt (before ++ content ++ [char] ++ [] ++ rest) index = true := by
            simpa using isWord
          rcases ih later isWord with ⟨piece, member, bounds⟩
          exact ⟨piece, List.mem_cons_of_mem _ member, bounds⟩

/-- No piece of the rest of a line begins before the part that is read, by induction on the rest. -/
theorem unitCount_le_start {before content rest : List Char} {piece : Piece}
    (member : piece ∈ piecesAfter before content rest)
    : unitCount before ≤ piece.start := by
  induction rest generalizing before content with
  | nil =>
      obtain rfl := List.mem_singleton.mp member
      exact Nat.le_refl _
  | cons char rest ih =>
      by_cases inWord : isWordChar char = true
      · simp only [piecesAfter, inWord, if_true] at member
        exact ih member
      · simp only [piecesAfter, inWord] at member
        rcases List.mem_cons.mp member with rfl | member
        · exact Nat.le_refl _
        · have further := ih member
          simp only [unitCount_append] at further
          omega

/-- Each piece ends before the next one begins, by induction on the rest of the line: the character
between them takes a column.
-/
theorem pairwise_piecesAfter (before content rest : List Char)
    : (piecesAfter before content rest).Pairwise
        (fun first second => first.stop < second.start) := by
  induction rest generalizing before content with
  | nil => simp [piecesAfter]
  | cons char rest ih =>
      by_cases inWord : isWordChar char = true
      · simp [piecesAfter, inWord, ih]
      · simp only [piecesAfter, inWord]
        apply List.Pairwise.cons
        · intro piece member
          have further := unitCount_le_start member
          have wide := width_toNat char
          simp only [unitCount_append, unitCount, Piece.stop] at further ⊢
          omega
        · exact ih _ _

-----------------------------------------------------------------------------------------
-- The pieces of a whole line
-----------------------------------------------------------------------------------------

theorem wordPieces_map_content (line : List Char)
    : (wordPieces line).map (·.content)
      = (line.splitOnP (!isWordChar ·)).filter (fun content => content ≠ []) := by
  rw [← modifyHead_nil_append (line.splitOnP _), ← piecesAfter_map_content [] [] line,
    List.filter_map]
  rfl

theorem pairwise_wordPieces (line : List Char)
    : (wordPieces line).Pairwise (fun first second => first.stop < second.start) :=
  (pairwise_piecesAfter [] [] line).filter _

theorem apart_of_mem_wordPieces {line : List Char} {first second : Piece}
    (isFirst : first ∈ wordPieces line) (isSecond : second ∈ wordPieces line)
    (differ : first ≠ second)
    : first.Apart second := by
  have apart : (wordPieces line).Pairwise Piece.Apart := (pairwise_wordPieces line).imp Or.inl
  exact apart.forall isFirst isSecond differ

theorem standsIn_of_mem_wordPieces {line : List Char} {piece : Piece}
    (member : piece ∈ wordPieces line)
    : piece.StandsIn line := by
  have stands := standsIn_of_mem_piecesAfter (by simp) (by simp) (List.mem_filter.mp member).1
  simpa using stands

theorem content_ne_nil_of_mem_wordPieces {line : List Char} {piece : Piece}
    (member : piece ∈ wordPieces line)
    : piece.content ≠ [] := by
  simpa using (List.mem_filter.mp member).2

/-- A piece of a line is a run of it. -/
theorem isRun_of_mem_wordPieces {line : List Char} {piece : Piece}
    (member : piece ∈ wordPieces line)
    : IsRun line piece.before.length (piece.before.length + piece.content.length) := by
  have stands := standsIn_of_mem_wordPieces member
  rcases stands.whole with ⟨after, rfl, whole⟩
  exact isRun_of_isWhole whole (content_ne_nil_of_mem_wordPieces member) stands.characters

/-- A run of a line is one of its pieces: the piece that its first character is in is a run, too,
and there is only one run there.
-/
theorem exists_piece_of_isRun {line : List Char} {start stop : Nat} (run : IsRun line start stop)
    : ∃ piece ∈ wordPieces line,
        start = piece.before.length
        ∧ stop = piece.before.length + piece.content.length := by
  have nonempty := run.nonempty
  have isWord : isWordAt ([] ++ [] ++ line) start = true :=
    run.characters start (Nat.le_refl _) nonempty
  rcases exists_piece_of_isWordAt (Nat.zero_le _) isWord with
    ⟨piece, member, notBefore, notAfter⟩
  have kept : piece ∈ wordPieces line := by
    apply List.mem_filter.mpr
    refine ⟨member, ?_⟩
    have : 0 < piece.content.length := by omega
    simpa using List.ne_nil_of_length_pos this
  have same := run.unique (isRun_of_mem_wordPieces kept) (Nat.le_refl _)
    (Nat.le_of_lt nonempty) notBefore (Nat.le_of_lt notAfter)
  exact ⟨piece, kept, same⟩

-----------------------------------------------------------------------------------------
-- The columns of a piece
-----------------------------------------------------------------------------------------

theorem settled_mono (chars : List Char) {first second : Nat} (h : first ≤ second)
    : settled chars first ≤ settled chars second := by
  rcases Nat.eq_or_lt_of_le h with rfl | less
  · exact Nat.le_refl _
  · have := le_settled chars second
    unfold settled at this ⊢
    split <;> omega

namespace Piece

/-- A column is spanned by a piece when the column that is meant lies between the ends of the
piece.
-/
def Spans (piece : Piece) (line : List Char) (column : Nat) : Prop :=
  piece.start ≤ settled line column ∧ settled line column ≤ piece.stop

theorem start_le_stop (piece : Piece) : piece.start ≤ piece.stop := by
  simp [start, stop]

theorem StandsIn.start_eq {piece : Piece} {line : List Char} (stands : piece.StandsIn line)
    : piece.start = unitCount (line.take piece.before.length) := by
  rcases stands.whole with ⟨after, rfl, -⟩
  simp [start]

theorem StandsIn.stop_eq {piece : Piece} {line : List Char} (stands : piece.StandsIn line)
    : piece.stop = unitCount (line.take (piece.before.length + piece.content.length)) := by
  rcases stands.whole with ⟨after, rfl, -⟩
  rw [stop, ← List.length_append, List.take_left]

theorem StandsIn.stop_le {piece : Piece} {line : List Char} (stands : piece.StandsIn line)
    : piece.stop ≤ unitCount line := by
  rcases stands.whole with ⟨after, rfl, -⟩
  simp [stop]

/-- A piece spans the columns between its ends, and the one inside a pair that ends where the piece
starts: the end of a piece is no column inside a pair.
-/
theorem StandsIn.spans_iff {piece : Piece} {line : List Char} {column : Nat}
    (stands : piece.StandsIn line)
    : piece.Spans line column
      ↔ (piece.start ≤ column ∧ column ≤ piece.stop)
        ∨ InsidePair line column ∧ column + 1 = piece.start := by
  have ordered := piece.start_le_stop
  have inside (notAfter : column ≤ piece.stop) : settled line column ≤ piece.stop := by
    rw [stands.stop_eq] at notAfter ⊢
    exact settled_le notAfter
  unfold Spans
  by_cases inPair : InsidePair line column
  · have meant : settled line column = column + 1 := if_pos inPair
    constructor
    · intro spans
      by_cases here : column + 1 = piece.start
      · exact Or.inr ⟨inPair, here⟩
      · exact Or.inl (by omega)
    · rintro (⟨starts, ends⟩ | ⟨-, here⟩)
      · have := inside ends
        omega
      · omega
  · have meant : settled line column = column := if_neg inPair
    simp [meant, inPair]

end Piece

end HintServer.Text
