import HintServer.Document.Basic
import HintServer.Proofs.Text.Word

/-! The word at a position is the run of word characters that touches its cursor.
Main statement: there is a word exactly when a word character stands on either side of the
cursor, and its range and text are those of the one run that touches the cursor.
-/

namespace HintServer

/-- A word stands on a numbered line from one index up to another: its text is the characters
there, and its range is on the line between the columns of the two.
-/
structure Word.Stands (word : Word) (number : UInt32) (line : List Char) (start stop : Nat)
    : Prop where
  text : word.text.toList = Text.slice line start stop
  startLine : word.range.start.line = number
  stopLine : word.range.stop.line = number
  startColumn : word.range.start.character.toNat = Text.unitCount (line.take start)
  stopColumn : word.range.stop.character.toNat = Text.unitCount (line.take stop)

/-- The word of a stretch of a numbered line. -/
def Word.ofStretch (number : UInt32) (line : List Char) (start stop : Nat) : Word :=
  {
    range :=
      {
        start := ⟨number, Text.columnAfter (line.take start)⟩,
        stop := ⟨number, Text.columnAfter (line.take stop)⟩
      },
    text := String.ofList (Text.slice line start stop)
  }

theorem Word.stands_ofStretch {number : UInt32} {line : List Char} {start stop : Nat}
    (startFits : Text.unitCount (line.take start) < 2 ^ 32)
    (stopFits : Text.unitCount (line.take stop) < 2 ^ 32)
    : (Word.ofStretch number line start stop).Stands number line start stop where
  text := String.toList_ofList
  startLine := rfl
  stopLine := rfl
  startColumn := Text.columnAfter_toNat startFits
  stopColumn := Text.columnAfter_toNat stopFits

/-- The word that touches a column of a numbered line. -/
def Word.onLine? (number column : UInt32) (line : List Char) : Option Word :=
  (Text.columnIndex? line column).bind fun cursor =>
    if Text.runStart line cursor = Text.runStop line cursor then none
    else
      some (Word.ofStretch number line (Text.runStart line cursor) (Text.runStop line cursor))

/-- The words at a column of a line are those of the runs that touch its cursor, as the run around
that is the only one.
-/
theorem Word.onLine?_eq_some_iff {number column : UInt32} {line : List Char} {word : Word}
    : Word.onLine? number column line = some word
      ↔ ∃ cursor,
          Text.columnIndex? line column = some cursor
          ∧ ∃ start stop,
              (Text.IsRun line start stop ∧ start ≤ cursor ∧ cursor ≤ stop)
              ∧ word = Word.ofStretch number line start stop := by
  simp only [onLine?, Option.bind_eq_some_iff]
  constructor
  · rintro ⟨cursor, search, isWord⟩
    split at isWord
    case isTrue => contradiction
    case isFalse nonempty =>
      have touching :=
        (Text.isRun_touching_iff (Text.columnIndex?_le search)).mpr ⟨rfl, rfl, nonempty⟩
      exact ⟨cursor, search, _, _, touching, (Option.some.inj isWord).symm⟩
  · rintro ⟨cursor, search, start, stop, touching, rfl⟩
    obtain ⟨rfl, rfl, nonempty⟩ :=
      (Text.isRun_touching_iff (Text.columnIndex?_le search)).mp touching
    exact ⟨cursor, search, if_neg nonempty⟩

/-- The word at a position is the one on its line. -/
theorem Document.wordAt?_eq_bind (document : Document) (position : Position)
    : document.wordAt? position
      = document.lines[position.line.toNat]?.bind
          (Word.onLine? position.line position.character) := by
  unfold wordAt? Word.onLine?
  cases document.lines[position.line.toNat]? with
  | none => rfl
  | some line =>
      simp only [Option.bind_some]
      cases Text.columnIndex? line position.character <;> rfl

theorem Document.wordAt?_of_no_line {document : Document} {position : Position}
    (missing : document.lines[position.line.toNat]? = none)
    : document.wordAt? position = none := by
  simp [wordAt?, missing]

theorem Document.wordAt?_of_past_line {document : Document} {position : Position}
    {line : List Char} (found : document.lines[position.line.toNat]? = some line)
    (past : Text.unitCount line < position.character.toNat)
    : document.wordAt? position = none := by
  simp [wordAt?, found, Text.columnIndex?_of_lt past]

/-- On a line with a cursor for the column, the words are those of the runs that touch it. -/
theorem Document.wordAt?_eq_some_iff {document : Document} {position : Position}
    {line : List Char} {cursor : Nat} {word : Word}
    (found : document.lines[position.line.toNat]? = some line)
    (search : Text.columnIndex? line position.character = some cursor)
    : document.wordAt? position = some word
      ↔ ∃ start stop,
          (Text.IsRun line start stop ∧ start ≤ cursor ∧ cursor ≤ stop)
          ∧ word = Word.ofStretch position.line line start stop := by
  simp [wordAt?_eq_bind, found, Word.onLine?_eq_some_iff, search]

/-- There is a word at a cursor when a word character stands before or at it. -/
theorem Document.isSome_wordAt?_iff {document : Document} {position : Position}
    {line : List Char} {cursor : Nat}
    (found : document.lines[position.line.toNat]? = some line)
    (search : Text.columnIndex? line position.character = some cursor)
    : (document.wordAt? position).isSome = true
      ↔ 0 < cursor ∧ Text.isWordAt line (cursor - 1) = true
        ∨ Text.isWordAt line cursor = true := by
  rw [← Text.runStart_ne_runStop_iff (Text.columnIndex?_le search)]
  simp [wordAt?, found, search]

/-- A word that is found stands at a run of a line that exists, around the cursor of a column that
the line has.
-/
theorem Document.exists_run_of_wordAt? {text languageId : String} {version : Int32}
    {position : Position} {word : Word}
    (bounded
      : ∀ line,
          (Text.lines text.toList)[position.line.toNat]? = some line
          → Text.unitCount line < 2 ^ 32)
    (isWord : (Document.ofText text languageId version).wordAt? position = some word)
    : ∃ line cursor start stop,
        (Text.lines text.toList)[position.line.toNat]? = some line
        ∧ position.character.toNat ≤ Text.unitCount line
        ∧ Text.IsCursor line position.character.toNat cursor
        ∧ (Text.IsRun line start stop ∧ start ≤ cursor ∧ cursor ≤ stop)
        ∧ word = Word.ofStretch position.line line start stop := by
  cases onLine : (Text.lines text.toList)[position.line.toNat]? with
  | none =>
      rw [Document.wordAt?_of_no_line onLine] at isWord
      contradiction
  | some line =>
      by_cases past : Text.unitCount line < position.character.toNat
      · rw [Document.wordAt?_of_past_line onLine past] at isWord
        contradiction
      have inLine := Nat.not_lt.mp past
      obtain ⟨cursor, isCursor⟩ := Text.exists_isCursor inLine
      have search := (Text.columnIndex?_eq_some_iff (bounded line onLine)).mpr isCursor
      obtain ⟨start, stop, touching, stretch⟩ :=
        (Document.wordAt?_eq_some_iff onLine search).mp isWord
      exact ⟨line, cursor, start, stop, rfl, inLine, isCursor, touching, stretch⟩

/-- The word at a position of a text. A line that does not exist and a column past the end of
its line have none. Otherwise the column has a cursor, there is a word exactly when a word
character stands on either side of the cursor, and the word stands where the one maximal run
that touches the cursor does.
-/
theorem wordAt?_stands_at_run (text languageId : String) (version : Int32)
    (position : Position)
    (bounded
      : ∀ line,
          (Text.lines text.toList)[position.line.toNat]? = some line
          → Text.unitCount line < 2 ^ 32)
    : let found := (Document.ofText text languageId version).wordAt? position
      ((Text.lines text.toList)[position.line.toNat]? = none → found = none)
      ∧ ∀ line,
          (Text.lines text.toList)[position.line.toNat]? = some line
          → (Text.unitCount line < position.character.toNat → found = none)
            ∧ (position.character.toNat ≤ Text.unitCount line
              → ∃ cursor,
                  Text.IsCursor line position.character.toNat cursor
                  ∧ (found.isSome = true
                    ↔ 0 < cursor ∧ Text.isWordAt line (cursor - 1) = true
                      ∨ Text.isWordAt line cursor = true)
                  ∧ ∀ word,
                      found = some word
                      → ∃ start stop,
                          Text.IsRun line start stop
                          ∧ start ≤ cursor
                          ∧ cursor ≤ stop
                          ∧ word.Stands position.line line start stop
                          ∧ ∀ start' stop',
                              Text.IsRun line start' stop'
                              → start' ≤ cursor
                              → cursor ≤ stop'
                              → start' = start ∧ stop' = stop) := by
  intro found
  refine ⟨fun missing => Document.wordAt?_of_no_line missing, ?_⟩
  intro line onLine
  refine ⟨fun past => Document.wordAt?_of_past_line onLine past, ?_⟩
  intro inLine
  have fits := bounded line onLine
  obtain ⟨cursor, isCursor⟩ := Text.exists_isCursor inLine
  have search := (Text.columnIndex?_eq_some_iff fits).mpr isCursor
  refine ⟨cursor, isCursor, Document.isSome_wordAt?_iff onLine search, ?_⟩
  intro word isWord
  obtain ⟨start, stop, ⟨run, startLe, leStop⟩, rfl⟩ :=
    (Document.wordAt?_eq_some_iff onLine search).mp isWord
  refine ⟨start, stop, run, startLe, leStop, ?_, ?_⟩
  · exact Word.stands_ofStretch (Text.unitCount_take_lt fits start)
      (Text.unitCount_take_lt fits stop)
  · intro start' stop' run' startLe' leStop'
    exact run'.unique run startLe' leStop' startLe leStop

/-- After a character of two code units the word found at a column stands at a run. -/
theorem wordAt?_after_pair_stands
    : (Text.lines "'😀' + unique(xs)".toList)[(0 : UInt32).toNat]?
        = some "'😀' + unique(xs)".toList
      ∧ (∀ line,
          (Text.lines "'😀' + unique(xs)".toList)[(0 : UInt32).toNat]? = some line
          → Text.unitCount line < 2 ^ 32)
      ∧ (8 : UInt32).toNat ≤ Text.unitCount "'😀' + unique(xs)".toList
      ∧ (Document.ofText "'😀' + unique(xs)" "javascript" 1).wordAt? ⟨0, 8⟩
        = some ⟨⟨⟨0, 7⟩, ⟨0, 13⟩⟩, "unique"⟩
      ∧ ∃ start stop,
          Text.IsRun "'😀' + unique(xs)".toList start stop
          ∧ (Word.mk ⟨⟨0, 7⟩, ⟨0, 13⟩⟩ "unique").Stands 0 "'😀' + unique(xs)".toList start
              stop := by
  have onLine : (Text.lines "'😀' + unique(xs)".toList)[(0 : UInt32).toNat]?
      = some "'😀' + unique(xs)".toList := by
    decide
  have bounded : ∀ line,
      (Text.lines "'😀' + unique(xs)".toList)[(0 : UInt32).toNat]? = some line
      → Text.unitCount line < 2 ^ 32 := by
    intro line same
    obtain rfl := Option.some.inj (onLine.symm.trans same)
    decide
  have inLine : (8 : UInt32).toNat ≤ Text.unitCount "'😀' + unique(xs)".toList := by decide
  have isWord : (Document.ofText "'😀' + unique(xs)" "javascript" 1).wordAt? ⟨0, 8⟩
      = some ⟨⟨⟨0, 7⟩, ⟨0, 13⟩⟩, "unique"⟩ := by
    decide
  have ⟨_, _, _, words⟩ :=
    ((wordAt?_stands_at_run "'😀' + unique(xs)" "javascript" 1 ⟨0, 8⟩ bounded).2
      "'😀' + unique(xs)".toList onLine).2 inLine
  obtain ⟨start, stop, run, -, -, stands, -⟩ := words _ isWord
  exact ⟨onLine, bounded, inLine, isWord, start, stop, run, stands⟩

end HintServer
