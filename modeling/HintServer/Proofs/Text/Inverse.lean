import HintServer.Proofs.Text.Units

/-! The index of a column inverts the column of an index.
Of the indices of a line, the one found for a column is the least whose own column reaches it; so
an index is found for its own column, a later column has no earlier index, and what follows the
line changes nothing.
-/

namespace HintServer.Text

/-- An index is the cursor of its own column, since earlier indices have smaller columns. -/
theorem isCursor_unitCount_take {chars : List Char} {index : Nat} (inside : index ≤ chars.length)
    : IsCursor chars (unitCount (chars.take index)) index where
  inside := inside
  reached := Nat.le_refl _
  least := by
    intro fewer less
    refine Nat.lt_of_not_le fun longer => ?_
    have := (unitCount_take_le_iff inside).mp longer
    omega

/-- In a line whose code units fit, a column is compared with that of an index by counting. -/
theorem le_columnAfter_take_iff {chars : List Char} (fits : unitCount chars < 2 ^ 32)
    (column : UInt32) (index : Nat)
    : column ≤ columnAfter (chars.take index)
      ↔ column.toNat ≤ unitCount (chars.take index) := by
  rw [UInt32.le_iff_toNat_le, columnAfter_toNat (unitCount_take_lt fits index)]

/-- A column up to the end of a line whose code units fit is found, as it has a cursor. -/
theorem exists_columnIndex? {chars : List Char} (fits : unitCount chars < 2 ^ 32)
    {column : UInt32} (inLine : column ≤ columnAfter chars)
    : ∃ index, columnIndex? chars column = some index := by
  rw [UInt32.le_iff_toNat_le, columnAfter_toNat fits] at inLine
  obtain ⟨cursor, isCursor⟩ := exists_isCursor inLine
  exact ⟨cursor, (columnIndex?_eq_some_iff fits).mpr isCursor⟩

/-- Finding the index of a column is the upper inverse of taking the column of an index. A column
is found when it is not past the end, and its index is the least one whose column reaches it, which
is the column itself unless that falls inside a surrogate pair. So every index is found for its own
column, later columns have no earlier indices, and the text after a line does not count.
-/
theorem columnIndex?_inverts_columnAfter {chars : List Char} (fits : unitCount chars < 2 ^ 32)
    : (∀ column, (columnIndex? chars column).isSome = true ↔ column ≤ columnAfter chars)
      ∧ (∀ column index,
          columnIndex? chars column = some index
          → index ≤ chars.length
            ∧ column ≤ columnAfter (chars.take index)
            ∧ (∀ other, column ≤ columnAfter (chars.take other) → index ≤ other)
            ∧ (columnAfter (chars.take index)).toNat
              = if InsidePair chars column.toNat then column.toNat + 1 else column.toNat)
      ∧ (∀ index,
          index ≤ chars.length
          → columnIndex? chars (columnAfter (chars.take index)) = some index)
      ∧ (∀ first second before after,
          first ≤ second
          → columnIndex? chars first = some before
          → columnIndex? chars second = some after
          → before ≤ after)
      ∧ (∀ column rest,
          column ≤ columnAfter chars
          → columnIndex? (chars ++ rest) column = columnIndex? chars column) := by
  refine ⟨?_, ?_, ?_, ?_, ?_⟩
  · intro column
    constructor
    · intro found
      rw [UInt32.le_iff_toNat_le, columnAfter_toNat fits]
      refine Nat.le_of_not_lt fun past => ?_
      rw [columnIndex?_of_lt past] at found
      contradiction
    · intro inLine
      exact Option.isSome_iff_exists.mpr (exists_columnIndex? fits inLine)
  · intro column index found
    have isCursor := (columnIndex?_eq_some_iff fits).mp found
    refine ⟨isCursor.inside, ?_, ?_, ?_⟩
    · exact (le_columnAfter_take_iff fits column index).mpr isCursor.reached
    · intro other reached
      exact isCursor.le_of_reached ((le_columnAfter_take_iff fits column other).mp reached)
    · rw [columnAfter_toNat (unitCount_take_lt fits index), isCursor.unitCount_take, settled]
  · intro index inside
    rw [columnIndex?_eq_some_iff fits, columnAfter_toNat (unitCount_take_lt fits index)]
    exact isCursor_unitCount_take inside
  · intro first second before after ordered foundFirst foundSecond
    rw [columnIndex?_eq_some_iff fits] at foundFirst foundSecond
    exact IsCursor.mono (UInt32.le_iff_toNat_le.mp ordered) foundFirst foundSecond
  · intro column rest inLine
    obtain ⟨index, found⟩ := exists_columnIndex? fits inLine
    rw [found, columnIndex?_append_eq_some_iff rest (columnIndex?_le found)]
    exact found

/-- In a line that ends with a surrogate pair, the column inside the pair means the end of the line,
and a column past the end means nothing.
-/
theorem columnIndex?_inside_last_pair
    : unitCount ['a', '😀'] < 2 ^ 32
      ∧ columnIndex? ['a', '😀'] 2 = some 2
      ∧ (columnAfter (['a', '😀'].take 2)).toNat = 3
      ∧ (∀ other, 2 ≤ columnAfter (['a', '😀'].take other) → 2 ≤ other)
      ∧ columnIndex? ['a', '😀'] 4 = none := by
  have fits : unitCount ['a', '😀'] < 2 ^ 32 := by decide
  have found : columnIndex? ['a', '😀'] 2 = some 2 := by decide
  obtain ⟨exists_iff, least, -⟩ := columnIndex?_inverts_columnAfter fits
  obtain ⟨-, -, noEarlier, ends⟩ := least 2 2 found
  have inPair : InsidePair ['a', '😀'] (2 : UInt32).toNat := by decide
  rw [if_pos inPair] at ends
  refine ⟨fits, found, ends, noEarlier, ?_⟩
  rw [← Option.not_isSome_iff_eq_none, exists_iff]
  decide

end HintServer.Text
