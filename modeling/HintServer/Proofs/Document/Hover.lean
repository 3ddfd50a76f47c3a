import HintServer.Document.Hover
import HintServer.Proofs.Catalog.Lookup
import HintServer.Proofs.Document.Word

/-! Hovering finds the names of the catalog where they stand as whole words.
Main statement: a position has a hover exactly when the name of a builtin utility stands there as
a whole word, and the hover shows that utility's documentation for the place of the name.
-/

namespace HintServer

/-- The name of a builtin utility stands at a position of a text: the line of the position is the
name between two parts that leave it a whole word, the column is on that line, and the column
that is meant is not before the name and not past its end.
-/
structure NameAt (text : String) (position : Position) (entry : Utility)
    (before after : List Char)
    : Prop where
  listed : entry ∈ Catalog.builtin.entries
  line
    : (Text.lines text.toList)[position.line.toNat]?
      = some (before ++ entry.name.toList ++ after)
  whole : Text.IsWhole before entry.name.toList after
  inLine
    : position.character.toNat ≤ Text.unitCount (before ++ entry.name.toList ++ after)
  starts
    : Text.unitCount before
      ≤ Text.settled (before ++ entry.name.toList ++ after) position.character.toNat
  ends
    : Text.settled (before ++ entry.name.toList ++ after) position.character.toNat
      ≤ Text.unitCount (before ++ entry.name.toList)

/-- What a hover shows for a name that stands at a position after a part of its line. -/
def Hover.ofName (position : Position) (entry : Utility) (before : List Char) : Hover :=
  {
    documentation := entry.documentation,
    range :=
      {
        start := ⟨position.line, Text.columnAfter before⟩,
        stop := ⟨position.line, Text.columnAfter (before ++ entry.name.toList)⟩
      }
  }

theorem Document.hover?_eq_some_iff {document : Document} {position : Position} {hover : Hover}
    : document.hover? position = some hover
      ↔ ∃ word,
          document.wordAt? position = some word
          ∧ ∃ entry,
              Catalog.builtin.lookup word.text = some entry
              ∧ { documentation := entry.documentation, range := word.range } = hover := by
  cases found : document.wordAt? position with
  | none => simp [hover?, found]
  | some word => simp [hover?, found]

theorem NameAt.isRun {text : String} {position : Position} {entry : Utility}
    {before after : List Char} (stands : NameAt text position entry before after)
    : Text.IsRun (before ++ entry.name.toList ++ after) before.length
        (before.length + entry.name.toList.length) :=
  have ⟨nonempty, characters⟩ := Catalog.builtin_name_is_word stands.listed
  Text.isRun_of_isWhole stands.whole nonempty characters

/-- A name that stands at a position touches the cursor of its column: the cursor's prefix ends
at the column that is meant, which lies between the ends of the name.
-/
theorem NameAt.touches {text : String} {position : Position} {entry : Utility}
    {before after : List Char} {cursor : Nat}
    (stands : NameAt text position entry before after)
    (isCursor
      : Text.IsCursor (before ++ entry.name.toList ++ after) position.character.toNat cursor)
    : before.length ≤ cursor ∧ cursor ≤ before.length + entry.name.toList.length := by
  refine isCursor.touches stands.isRun ?_ ?_
  · rw [List.append_assoc, List.take_left, ← List.append_assoc]
    exact stands.starts
  · rw [← List.length_append, List.take_left]
    exact stands.ends

/-- A name that stands at a position is shown there, if the columns up to its end fit. -/
theorem NameAt.hover? {text : String} {position : Position} {entry : Utility}
    {before after : List Char} (stands : NameAt text position entry before after)
    (fits : Text.unitCount (before ++ entry.name.toList) < 2 ^ 32)
    (languageId : String) (version : Int32)
    : (Document.ofText text languageId version).hover? position
      = some (Hover.ofName position entry before) := by
  obtain ⟨cursor, isCursor⟩ := Text.exists_isCursor stands.inLine
  have ⟨startLe, leStop⟩ := stands.touches isCursor
  have search := Text.columnIndex?_of_isCursor isCursor
    (Nat.lt_of_le_of_lt (isCursor.unitCount_take ▸ stands.ends) fits)
  refine Document.hover?_eq_some_iff.mpr
    ⟨Word.ofStretch position.line (before ++ entry.name.toList ++ after) before.length
      (before.length + entry.name.toList.length), ?_, entry, ?_, ?_⟩
  · exact (Document.wordAt?_eq_some_iff stands.line search).mpr
      ⟨_, _, ⟨stands.isRun, startLe, leStop⟩, rfl⟩
  · rw [Word.ofStretch, Text.slice_append, String.ofList_toList]
    exact Catalog.builtin_lookup_eq_some_iff.mpr ⟨stands.listed, rfl⟩
  · rw [Word.ofStretch, ← List.length_append, List.take_left, List.append_assoc,
      List.take_left]
    rfl

/-- A hover comes from a name that stands at its position: the word there is a run whose
characters are the name of the utility found for it.
-/
theorem exists_nameAt_of_hover? {text languageId : String} {version : Int32}
    {position : Position} {hover : Hover}
    (bounded
      : ∀ line,
          (Text.lines text.toList)[position.line.toNat]? = some line
          → Text.unitCount line < 2 ^ 32)
    (found : (Document.ofText text languageId version).hover? position = some hover)
    : ∃ entry before after,
        NameAt text position entry before after ∧ hover = Hover.ofName position entry before := by
  obtain ⟨word, isWord, entry, known, rfl⟩ := Document.hover?_eq_some_iff.mp found
  obtain ⟨listed, sameName⟩ := Catalog.builtin_lookup_eq_some_iff.mp known
  obtain ⟨line, cursor, start, stop, onLine, inLine, isCursor, ⟨run, startLe, leStop⟩, rfl⟩ :=
    Document.exists_run_of_wordAt? bounded isWord
  have characters : entry.name.toList = Text.slice line start stop := by
    rw [sameName, Word.ofStretch, String.toList_ofList]
  have upToStop : line.take start ++ entry.name.toList = line.take stop := by
    rw [characters, Text.take_append_slice (Nat.le_of_lt run.nonempty)]
  have split : line.take start ++ entry.name.toList ++ line.drop stop = line := by
    rw [upToStop, List.take_append_drop]
  refine ⟨entry, line.take start, line.drop stop, ?_, ?_⟩
  · exact {
      listed
      line := split.symm ▸ onLine
      whole := characters ▸ run.isWhole
      inLine := split.symm ▸ inLine
      starts := by
        rw [split, ← isCursor.unitCount_take]
        exact Text.unitCount_take_le line startLe
      ends := by
        rw [split, upToStop, ← isCursor.unitCount_take]
        exact Text.unitCount_take_le line leStop
    }
  · rw [Hover.ofName, upToStop]
    rfl

/-- One name stands at a position, in one place: both would be runs that touch its cursor, and
no two utilities share a name.
-/
theorem NameAt.unique {text : String} {position : Position} {entry entry' : Utility}
    {before before' after after' : List Char}
    (first : NameAt text position entry before after)
    (second : NameAt text position entry' before' after')
    : entry' = entry ∧ before' = before ∧ after' = after := by
  have sameLine := Option.some.inj (first.line.symm.trans second.line)
  obtain ⟨cursor, isCursor⟩ := Text.exists_isCursor first.inLine
  have ⟨startLe, leStop⟩ := first.touches isCursor
  have ⟨startLe', leStop'⟩ := second.touches (sameLine ▸ isCursor)
  obtain ⟨sameStart, sameStop⟩ := (sameLine ▸ first.isRun).unique second.isRun startLe leStop
    startLe' leStop'
  have nameLength : entry.name.toList.length = entry'.name.toList.length := by omega
  obtain ⟨sameUpTo, rfl⟩ := List.append_inj' sameLine (by
    have := congrArg List.length sameLine
    simp only [List.length_append] at this
    omega)
  obtain ⟨rfl, sameName⟩ := List.append_inj sameUpTo sameStart
  have found :=
    Catalog.builtin_lookup_eq_some_iff.mpr ⟨first.listed, String.toList_inj.mp sameName⟩
  have found' := Catalog.builtin_lookup_eq_some_iff.mpr ⟨second.listed, rfl⟩
  exact ⟨Option.some.inj (found'.symm.trans found), rfl, rfl⟩

/-- A position has a hover exactly when a builtin name stands there as a whole word. Then the
hover shows the documentation of that utility as plain text for the columns of the name, and no
other name stands there nor the name in another place. A run of word characters that is not
itself a builtin name, such as one that only contains a name or spells it in other letter case,
has no hover.
-/
theorem hover?_iff_nameAt (text languageId : String) (version : Int32) (position : Position)
    (bounded
      : ∀ line,
          (Text.lines text.toList)[position.line.toNat]? = some line
          → Text.unitCount line < 2 ^ 32)
    : let found := (Document.ofText text languageId version).hover? position
      (found.isSome = true ↔ ∃ entry before after, NameAt text position entry before after)
      ∧ (∀ entry before after,
          NameAt text position entry before after
          → ∃ hover,
              found = some hover
              ∧ hover.toJson
                = .obj
                    [
                      ("contents",
                        .obj
                          [("kind", .str "plaintext"), ("value", .str entry.documentation)]),
                      ("range", hover.range.toJson)
                    ]
              ∧ hover.range.start.line = position.line
              ∧ hover.range.stop.line = position.line
              ∧ hover.range.start.character.toNat = Text.unitCount before
              ∧ hover.range.stop.character.toNat
                = Text.unitCount before + Text.unitCount entry.name.toList
              ∧ ∀ entry' before' after',
                  NameAt text position entry' before' after'
                  → entry' = entry ∧ before' = before ∧ after' = after)
      ∧ (∀ line start stop,
          (Text.lines text.toList)[position.line.toNat]? = some line
          → Text.IsRun line start stop
          → Text.unitCount (line.take start)
              ≤ Text.settled line position.character.toNat
          → Text.settled line position.character.toNat
              ≤ Text.unitCount (line.take stop)
          → (∀ entry ∈ Catalog.builtin.entries,
              entry.name.toList ≠ Text.slice line start stop)
          → found = none) := by
  intro found
  have upToName {entry before after} (stands : NameAt text position entry before after)
      : Text.unitCount (before ++ entry.name.toList) < 2 ^ 32 := by
    have fits := bounded _ stands.line
    rw [Text.unitCount_append] at fits
    omega
  refine ⟨⟨?_, ?_⟩, ?_, ?_⟩
  · intro some
    obtain ⟨hover, isHover⟩ := Option.isSome_iff_exists.mp some
    obtain ⟨entry, before, after, stands, -⟩ := exists_nameAt_of_hover? bounded isHover
    exact ⟨entry, before, after, stands⟩
  · rintro ⟨entry, before, after, stands⟩
    exact Option.isSome_of_eq_some (stands.hover? (upToName stands) languageId version)
  · intro entry before after stands
    have fits := upToName stands
    refine ⟨_, stands.hover? fits languageId version, rfl, rfl, rfl, ?_, ?_, ?_⟩
    · rw [Text.unitCount_append] at fits
      exact Text.columnAfter_toNat (by omega)
    · rw [← Text.unitCount_append]
      exact Text.columnAfter_toNat fits
    · intro entry' before' after' other
      exact stands.unique other
  · intro line start stop onLine run starts ends unnamed
    refine Option.eq_none_iff_forall_ne_some.mpr fun hover isHover => ?_
    obtain ⟨entry, before, after, stands, -⟩ := exists_nameAt_of_hover? bounded isHover
    obtain rfl := Option.some.inj (stands.line.symm.trans onLine)
    obtain ⟨cursor, isCursor⟩ := Text.exists_isCursor stands.inLine
    have ⟨startLe, leStop⟩ := isCursor.touches run starts ends
    have ⟨startLe', leStop'⟩ := stands.touches isCursor
    obtain ⟨rfl, rfl⟩ := run.unique stands.isRun startLe leStop startLe' leStop'
    exact unnamed entry stands.listed (Text.slice_append _ _ _).symm

/-- After a character of two code units a builtin name is shown at its own columns. -/
theorem hover?_after_pair
    : (∀ line,
        (Text.lines "'😀' + unique(xs)".toList)[(0 : UInt32).toNat]? = some line
        → Text.unitCount line < 2 ^ 32)
      ∧ NameAt "'😀' + unique(xs)" ⟨0, 8⟩
          ⟨"unique", .array, "Removes duplicate elements from an array."⟩ "'😀' + ".toList
          "(xs)".toList
      ∧ ∃ hover,
          (Document.ofText "'😀' + unique(xs)" "javascript" 1).hover? ⟨0, 8⟩ = some hover
          ∧ hover.range.start.character.toNat = 7
          ∧ hover.range.stop.character.toNat = 13 := by
  have onLine : (Text.lines "'😀' + unique(xs)".toList)[(0 : UInt32).toNat]?
      = some "'😀' + unique(xs)".toList := by
    decide
  have bounded : ∀ line,
      (Text.lines "'😀' + unique(xs)".toList)[(0 : UInt32).toNat]? = some line
      → Text.unitCount line < 2 ^ 32 := by
    intro line same
    obtain rfl := Option.some.inj (onLine.symm.trans same)
    decide
  have stands : NameAt "'😀' + unique(xs)" ⟨0, 8⟩
      ⟨"unique", .array, "Removes duplicate elements from an array."⟩ "'😀' + ".toList
      "(xs)".toList := {
    listed := Catalog.mem_group.mpr (by decide)
    line := by decide
    whole := by decide
    inLine := by decide
    starts := by decide
    ends := by decide
  }
  have ⟨hover, shown, _, _, _, start, stop, _⟩ :=
    (hover?_iff_nameAt "'😀' + unique(xs)" "javascript" 1 ⟨0, 8⟩ bounded).2.1 _ _ _ stands
  exact ⟨bounded, stands, hover, shown, start, stop⟩

end HintServer
