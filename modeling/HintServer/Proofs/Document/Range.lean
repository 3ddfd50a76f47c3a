import HintServer.Proofs.Document.Word
import HintServer.Proofs.Text.Encoding

/-! The range of a word in its client's coordinates.
A client holds a text as UTF-16 code units and cuts it at line feeds only; in its units, too, the
range of the word at a position covers that word and nothing else, and the position touches it.
-/

namespace HintServer

/-- A word for a position is cut from a line of code units: its range is a non-empty stretch of
that line whose units encode the word, neither end splits a surrogate pair, and the position lies
in the stretch or at one of its ends. Only a position that splits a pair may also lie before the
stretch, which then begins where the pair ends.
-/
structure Word.CutFrom (word : Word) (position : Position) (units : List UInt16) : Prop where
  startLine : word.range.start.line = position.line
  stopLine : word.range.stop.line = position.line
  encoded
    : (units.take word.range.stop.character.toNat).drop word.range.start.character.toNat
      = Text.encode word.text.toList
  inside : word.range.stop.character.toNat ≤ units.length
  nonempty : word.text ≠ ""
  noReturn : '\r' ∉ word.text.toList
  noFeed : '\n' ∉ word.text.toList
  increases : word.range.start.character < word.range.stop.character
  startWhole : ¬ Text.SplitsPair units word.range.start.character.toNat
  stopWhole : ¬ Text.SplitsPair units word.range.stop.character.toNat
  notAfter : position.character ≤ word.range.stop.character
  notBefore
    : word.range.start.character ≤ position.character
      ∨ Text.SplitsPair units position.character.toNat
        ∧ word.range.start.character.toNat = position.character.toNat + 1

/-- A run of a line is cut from the units of the line, whatever follows them, if it touches the
cursor of the position's column: columns of characters are counts of units, and the column that
is meant is the position's own one unless that falls inside a pair.
-/
theorem Word.cutFrom_of_isRun {position : Position} {line : List Char} {cursor start stop : Nat}
    (fits : Text.unitCount line < 2 ^ 32)
    (isCursor : Text.IsCursor line position.character.toNat cursor)
    (run : Text.IsRun line start stop) (startLe : start ≤ cursor) (leStop : cursor ≤ stop)
    (rest : List Char)
    : (Word.ofStretch position.line line start stop).CutFrom position
        (Text.encode (line ++ rest)) := by
  have stands : (Word.ofStretch position.line line start stop).Stands position.line line start
      stop :=
    Word.stands_ofStretch (Text.unitCount_take_lt fits start) (Text.unitCount_take_lt fits stop)
  have inside := run.inside
  have ordered := Nat.le_of_lt run.nonempty
  have ⟨noFeed, noReturn⟩ := Text.not_mem_of_words fun _ => run.isWordChar_of_mem
  have startTake : (line ++ rest).take start = line.take start :=
    List.take_append_of_le_length (Nat.le_trans ordered inside)
  have stopTake : (line ++ rest).take stop = line.take stop :=
    List.take_append_of_le_length inside
  exact {
    startLine := rfl
    stopLine := rfl
    encoded := by
      rw [stands.text, stands.startColumn, stands.stopColumn, ← startTake, ← stopTake,
        Text.slice_encode _ ordered, Text.slice, stopTake, Text.slice]
    inside := by
      rw [stands.stopColumn, Text.length_encode, ← stopTake]
      exact Text.unitCount_take_le_unitCount _ stop
    nonempty := by
      intro empty
      apply run.slice_ne_nil
      rw [← stands.text, empty, String.toList_empty]
    noReturn := stands.text ▸ noReturn
    noFeed := stands.text ▸ noFeed
    increases := by
      rw [UInt32.lt_iff_toNat_lt, stands.startColumn, stands.stopColumn]
      refine Nat.lt_of_not_le fun fewer => ?_
      have := (Text.unitCount_take_le_iff inside).mp fewer
      have := run.nonempty
      omega
    startWhole := by
      rw [stands.startColumn, ← startTake]
      exact Text.not_splitsPair_unitCount_take _ _
    stopWhole := by
      rw [stands.stopColumn, ← stopTake]
      exact Text.not_splitsPair_unitCount_take _ _
    notAfter := by
      rw [UInt32.le_iff_toNat_le, stands.stopColumn]
      exact Nat.le_trans isCursor.reached (Text.unitCount_take_le line leStop)
    notBefore := by
      rw [UInt32.le_iff_toNat_le, stands.startColumn]
      have upToCursor := Text.unitCount_take_le line startLe
      rw [isCursor.unitCount_take, Text.settled] at upToCursor
      split at upToCursor
      case isFalse => exact Or.inl upToCursor
      case isTrue inPair =>
        rcases Nat.lt_or_ge position.character.toNat (Text.unitCount (line.take start)) with
          less | more
        · refine Or.inr ⟨?_, by omega⟩
          exact Text.splitsPair_of_insidePair (inPair.append rest)
        · exact Or.inl more
  }

/-- The word found at a position of a text is cut from the client's line: the units of the text
between its line feeds at the position's line number, at most as far as the line of characters
goes.
-/
theorem wordAt?_cut_from_client_line (text languageId : String) (version : Int32)
    (position : Position)
    (bounded
      : ∀ line,
          (Text.lines text.toList)[position.line.toNat]? = some line
          → Text.unitCount line < 2 ^ 32)
    {word : Word} (found : (Document.ofText text languageId version).wordAt? position = some word)
    : ∃ line units,
        (Text.lines text.toList)[position.line.toNat]? = some line
        ∧ ((Text.encode text.toList).splitOn Text.feedUnit)[position.line.toNat]? = some units
        ∧ word.CutFrom position units
        ∧ word.range.stop.character.toNat ≤ Text.unitCount line := by
  obtain ⟨line, cursor, start, stop, onLine, -, isCursor, ⟨run, startLe, leStop⟩, rfl⟩ :=
    Document.exists_run_of_wordAt? bounded found
  obtain ⟨rest, onUnits⟩ := Text.exists_units_of_line onLine
  have fits := bounded line onLine
  refine ⟨line, _, onLine, onUnits, ?_, ?_⟩
  · exact Word.cutFrom_of_isRun fits isCursor run startLe leStop rest
  · rw [(Word.stands_ofStretch (Text.unitCount_take_lt fits start)
      (Text.unitCount_take_lt fits stop)).stopColumn]
    exact Text.unitCount_take_le_unitCount line stop

/-- A column inside a pair belongs to the word after the pair; its line keeps a return in the
client's units.
-/
theorem wordAt?_inside_pair_cut
    : (∀ line,
        (Text.lines "a\r\n😀unique\r\n".toList)[(1 : UInt32).toNat]? = some line
        → Text.unitCount line < 2 ^ 32)
      ∧ (Document.ofText "a\r\n😀unique\r\n" "javascript" 1).wordAt? ⟨1, 1⟩
        = some ⟨⟨⟨1, 2⟩, ⟨1, 8⟩⟩, "unique"⟩
      ∧ ∃ units,
          ((Text.encode "a\r\n😀unique\r\n".toList).splitOn Text.feedUnit)[(1 : UInt32).toNat]?
            = some units
          ∧ (Word.mk ⟨⟨1, 2⟩, ⟨1, 8⟩⟩ "unique").CutFrom ⟨1, 1⟩ units := by
  have onLine : (Text.lines "a\r\n😀unique\r\n".toList)[(1 : UInt32).toNat]?
      = some "😀unique".toList := by
    decide
  have bounded : ∀ line,
      (Text.lines "a\r\n😀unique\r\n".toList)[(1 : UInt32).toNat]? = some line
      → Text.unitCount line < 2 ^ 32 := by
    intro line same
    obtain rfl := Option.some.inj (onLine.symm.trans same)
    decide
  have isWord : (Document.ofText "a\r\n😀unique\r\n" "javascript" 1).wordAt? ⟨1, 1⟩
      = some ⟨⟨⟨1, 2⟩, ⟨1, 8⟩⟩, "unique"⟩ := by
    decide +kernel
  obtain ⟨_, units, -, onUnits, cut, -⟩ :=
    wordAt?_cut_from_client_line "a\r\n😀unique\r\n" "javascript" 1 ⟨1, 1⟩ bounded isWord
  exact ⟨bounded, isWord, units, onUnits, cut⟩

end HintServer
