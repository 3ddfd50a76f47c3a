import HintServer.Text.Units
import Mathlib.Algebra.Ring.Nat
import Mathlib.Data.Nat.Find

/-! Columns are counts of code units before a character.
The search for a column finds the first index whose prefix reaches it, and the 32-bit sums are
the counts themselves as far as those fit.
-/

namespace HintServer.Text

theorem width_toNat (char : Char) : (width char).toNat = 1 ∨ (width char).toNat = 2 := by
  unfold width
  split
  · exact Or.inl rfl
  · exact Or.inr rfl

/-- The code units of joined texts add up, by induction on the first. -/
@[simp] theorem unitCount_append (first second : List Char)
    : unitCount (first ++ second) = unitCount first + unitCount second := by
  induction first with
  | nil => simp [unitCount]
  | cons char rest ih =>
      simp only [List.cons_append, unitCount, ih]
      omega

theorem unitCount_take_succ {chars : List Char} {index : Nat} (h : index < chars.length)
    : unitCount (chars.take (index + 1))
      = unitCount (chars.take index) + (width chars[index]).toNat := by
  rw [List.take_succ_eq_append_getElem h, unitCount_append]
  simp [unitCount]

/-- A longer prefix has at least as many code units, as it extends the shorter one. -/
theorem unitCount_take_le (chars : List Char) {first second : Nat} (h : first ≤ second)
    : unitCount (chars.take first) ≤ unitCount (chars.take second) := by
  obtain ⟨more, same⟩ := List.take_prefix_take_left (l := chars) h
  rw [← same, unitCount_append]
  exact Nat.le_add_right _ _

/-- Of two prefixes of a line the one with more code units is the longer one, since each character
adds some.
-/
theorem unitCount_take_le_iff {chars : List Char} {first second : Nat}
    (inside : first ≤ chars.length)
    : unitCount (chars.take first) ≤ unitCount (chars.take second) ↔ first ≤ second := by
  refine ⟨fun fewer => Nat.le_of_not_lt fun less => ?_, unitCount_take_le chars⟩
  have inLine : second < chars.length := by omega
  have next := unitCount_take_succ inLine
  have longer := unitCount_take_le chars (show second + 1 ≤ first from less)
  rcases width_toNat chars[second] with one | two <;> omega

theorem unitCount_take_le_unitCount (chars : List Char) (index : Nat)
    : unitCount (chars.take index) ≤ unitCount chars := by
  have split := congrArg unitCount (List.take_append_drop index chars)
  rw [unitCount_append] at split
  omega

theorem unitCount_take_lt {chars : List Char} {bound : Nat} (fits : unitCount chars < bound)
    (index : Nat)
    : unitCount (chars.take index) < bound :=
  Nat.lt_of_le_of_lt (unitCount_take_le_unitCount chars index) fits

theorem toNat_add_width {units : UInt32} {char : Char}
    (h : units.toNat + (width char).toNat < 2 ^ 32)
    : (units + width char).toNat = units.toNat + (width char).toNat := by
  rw [UInt32.toNat_add, Nat.mod_eq_of_lt h]

/-- The column after a text is its count of code units where that fits, by induction on the
text for every start of the sum.
-/
theorem columnAfter_toNat {chars : List Char} (h : unitCount chars < 2 ^ 32)
    : (columnAfter chars).toNat = unitCount chars := by
  suffices general : ∀ (units : UInt32),
      units.toNat + unitCount chars < 2 ^ 32
      → (chars.foldl (fun units char => units + width char) units).toNat
        = units.toNat + unitCount chars by
    simpa [columnAfter] using general 0 (by simpa using h)
  clear h
  induction chars with
  | nil => simp [unitCount]
  | cons char rest ih =>
      intro units fits
      rw [unitCount] at fits ⊢
      have step : (units + width char).toNat = units.toNat + (width char).toNat :=
        toNat_add_width (by omega)
      rw [List.foldl_cons, ih _ (by omega), step]
      omega

-----------------------------------------------------------------------------------------
-- The search for a column
-----------------------------------------------------------------------------------------

/-- The cursor of a column is the first index of a line whose prefix reaches the column. -/
structure IsCursor (chars : List Char) (column cursor : Nat) : Prop where
  inside : cursor ≤ chars.length
  reached : column ≤ unitCount (chars.take cursor)
  least : ∀ index < cursor, unitCount (chars.take index) < column

/-- An index whose prefix reaches a column is not before the cursor, which is the first to do so. -/
theorem IsCursor.le_of_reached {chars : List Char} {column cursor index : Nat}
    (isCursor : IsCursor chars column cursor) (reached : column ≤ unitCount (chars.take index))
    : cursor ≤ index := by
  refine Nat.le_of_not_lt fun less => ?_
  have short := isCursor.least index less
  omega

/-- A later column has no earlier cursor, as its cursor reaches the earlier column too. -/
theorem IsCursor.mono {chars : List Char} {first second before after : Nat}
    (ordered : first ≤ second) (isBefore : IsCursor chars first before)
    (isAfter : IsCursor chars second after)
    : before ≤ after :=
  isBefore.le_of_reached (Nat.le_trans ordered isAfter.reached)

/-- Every column up to the end of a line has a cursor: the end reaches it, so that some index is
the first to do so.
-/
theorem exists_isCursor {chars : List Char} {column : Nat} (h : column ≤ unitCount chars)
    : ∃ cursor, IsCursor chars column cursor := by
  have reached : ∃ index, column ≤ unitCount (chars.take index) :=
    ⟨chars.length, by simpa using h⟩
  refine ⟨Nat.find reached, ?_, Nat.find_spec reached, ?_⟩
  · exact Nat.find_min' reached (by simpa using h)
  · intro index less
    have := Nat.find_min reached less
    omega

/-- The search gives the index it starts from plus the number of characters it passes, by
induction on the text: it stops before the first sum that reaches the column, and up to there
the sums fit.
-/
theorem indexFrom?_of_reached {chars : List Char} {column units : UInt32} {index passed : Nat}
    (inside : passed ≤ chars.length)
    (reached : column.toNat ≤ units.toNat + unitCount (chars.take passed))
    (least : ∀ fewer < passed, units.toNat + unitCount (chars.take fewer) < column.toNat)
    (fits : units.toNat + unitCount (chars.take passed) < 2 ^ 32)
    : indexFrom? column index units chars = some (index + passed) := by
  induction chars generalizing index units passed with
  | nil =>
      obtain rfl : passed = 0 := by simpa using inside
      have stop : column ≤ units := by
        simpa [unitCount, UInt32.le_iff_toNat_le] using reached
      simp [indexFrom?, stop]
  | cons char rest ih =>
      cases passed with
      | zero =>
          have stop : column ≤ units := by
            simpa [unitCount, UInt32.le_iff_toNat_le] using reached
          simp [indexFrom?, stop]
      | succ passed =>
          have go : ¬ column ≤ units := by
            have := least 0 (Nat.succ_pos _)
            rw [UInt32.le_iff_toNat_le]
            simp only [List.take_zero, unitCount] at this
            omega
          rw [List.take_succ_cons, unitCount] at reached fits
          have step : (units + width char).toNat = units.toNat + (width char).toNat :=
            toNat_add_width (by omega)
          rw [indexFrom?, if_neg go, ih (by simpa using inside) (by omega) ?_ (by omega)]
          · simp only [Option.some.injEq]
            omega
          · intro fewer less
            have := least (fewer + 1) (by omega)
            rw [List.take_succ_cons, unitCount] at this
            omega

/-- The search finds nothing for a column past the end, by induction on the text: no sum on the
way reaches the column.
-/
theorem indexFrom?_of_lt {chars : List Char} {column units : UInt32} {index : Nat}
    (h : units.toNat + unitCount chars < column.toNat)
    : indexFrom? column index units chars = none := by
  have go : ¬ column ≤ units := by
    rw [UInt32.le_iff_toNat_le]
    omega
  induction chars generalizing index units with
  | nil => simp [indexFrom?, go]
  | cons char rest ih =>
      rw [unitCount] at h
      have bound := column.toNat_lt
      have step : (units + width char).toNat = units.toNat + (width char).toNat :=
        toNat_add_width (by omega)
      rw [indexFrom?, if_neg go]
      refine ih (by omega) ?_
      rw [UInt32.le_iff_toNat_le]
      omega

/-- A search never ends past the text, by induction on the text. -/
theorem indexFrom?_le {chars : List Char} {column units : UInt32} {index cursor : Nat}
    (h : indexFrom? column index units chars = some cursor)
    : cursor ≤ index + chars.length := by
  induction chars generalizing index units with
  | nil => simp_all [indexFrom?]
  | cons char rest ih =>
      rw [indexFrom?] at h
      split at h
      · simp_all
      · have := ih h
        simp only [List.length_cons]
        omega

/-- A search ends at the index it starts from or after it, by induction on the text. -/
theorem le_indexFrom? {chars : List Char} {column units : UInt32} {index cursor : Nat}
    (h : indexFrom? column index units chars = some cursor)
    : index ≤ cursor := by
  induction chars generalizing index units with
  | nil => simp_all [indexFrom?]
  | cons char rest ih =>
      rw [indexFrom?] at h
      split at h
      · simp_all
      · have := ih h
        omega

/-- Up to the end of a text a search does not depend on what follows it, by induction on the text:
the search has ended by then, or goes on past the end.
-/
theorem indexFrom?_append_eq_some_iff {first : List Char} (second : List Char)
    {column units : UInt32} {index cursor : Nat} (inside : cursor ≤ index + first.length)
    : indexFrom? column index units (first ++ second) = some cursor
      ↔ indexFrom? column index units first = some cursor := by
  induction first generalizing index units with
  | nil =>
      cases second with
      | nil => rfl
      | cons char rest =>
          rw [List.nil_append, indexFrom?, indexFrom?]
          split
          case isTrue => rfl
          case isFalse =>
            simp only [reduceCtorEq, iff_false]
            intro found
            have := le_indexFrom? found
            simp only [List.length_nil] at inside
            omega
  | cons char rest ih =>
      rw [List.cons_append, indexFrom?, indexFrom?]
      split
      case isTrue => rfl
      case isFalse =>
        rw [List.length_cons] at inside
        exact ih (by omega)

/-- The index found for a column lies in the text or at its end. -/
theorem columnIndex?_le {chars : List Char} {column : UInt32} {cursor : Nat}
    (h : columnIndex? chars column = some cursor)
    : cursor ≤ chars.length := by
  simpa using indexFrom?_le h

/-- An index up to the end of a line is found for the same columns whatever follows the line. -/
theorem columnIndex?_append_eq_some_iff {first : List Char} (second : List Char) {column : UInt32}
    {cursor : Nat} (inside : cursor ≤ first.length)
    : columnIndex? (first ++ second) column = some cursor
      ↔ columnIndex? first column = some cursor :=
  indexFrom?_append_eq_some_iff second (by simpa using inside)

/-- The cursor of a column is found if the code units before it fit; the text after it does not
count.
-/
theorem columnIndex?_of_isCursor {chars : List Char} {column : UInt32} {cursor : Nat}
    (found : IsCursor chars column.toNat cursor)
    (fits : unitCount (chars.take cursor) < 2 ^ 32)
    : columnIndex? chars column = some cursor := by
  have search : indexFrom? column 0 0 chars = some (0 + cursor) :=
    indexFrom?_of_reached found.inside (by simpa using found.reached)
      (by simpa using found.least) (by simpa using fits)
  simpa [columnIndex?] using search

/-- A column past the end of a line is not found. -/
theorem columnIndex?_of_lt {chars : List Char} {column : UInt32}
    (h : unitCount chars < column.toNat)
    : columnIndex? chars column = none :=
  indexFrom?_of_lt (by simpa using h)

/-- In a line whose code units fit, the index found for a column is its cursor. -/
theorem columnIndex?_eq_some_iff {chars : List Char} {column : UInt32} {cursor : Nat}
    (fits : unitCount chars < 2 ^ 32)
    : columnIndex? chars column = some cursor ↔ IsCursor chars column.toNat cursor := by
  constructor
  · intro found
    by_cases past : unitCount chars < column.toNat
    · rw [columnIndex?_of_lt past] at found
      contradiction
    · obtain ⟨other, isCursor⟩ := exists_isCursor (Nat.not_lt.mp past)
      rw [columnIndex?_of_isCursor isCursor (unitCount_take_lt fits other)] at found
      exact Option.some.inj found ▸ isCursor
  · intro found
    exact columnIndex?_of_isCursor found (unitCount_take_lt fits cursor)

-----------------------------------------------------------------------------------------
-- Columns inside surrogate pairs
-----------------------------------------------------------------------------------------

/-- A column falls inside a surrogate pair when it is one unit past the start of a character
that takes two.
-/
def InsidePair (chars : List Char) (column : Nat) : Prop :=
  ∃ index < chars.length,
    chars[index]?.map width = some 2 ∧ column = unitCount (chars.take index) + 1

instance (chars : List Char) (column : Nat) : Decidable (InsidePair chars column) :=
  inferInstanceAs
    (Decidable
      (∃ index < chars.length,
        chars[index]?.map width = some 2 ∧ column = unitCount (chars.take index) + 1))

/-- The column that is meant by one that may fall inside a surrogate pair. -/
def settled (chars : List Char) (column : Nat) : Nat :=
  if InsidePair chars column then column + 1 else column

/-- The prefix up to a cursor ends at the column that is meant: the character before the cursor
is where the column is reached, and it goes past the column only from inside its pair.
-/
theorem IsCursor.unitCount_take {chars : List Char} {column cursor : Nat}
    (h : IsCursor chars column cursor)
    : unitCount (chars.take cursor) = settled chars column := by
  have outside (boundary : unitCount (chars.take cursor) = column)
      : ¬ InsidePair chars column := by
    rintro ⟨index, inLine, two, inside⟩
    rw [List.getElem?_eq_getElem inLine, Option.map_some, Option.some.injEq] at two
    have next := unitCount_take_succ inLine
    rw [two] at next
    simp only [UInt32.reduceToNat] at next
    rcases Nat.lt_or_ge index cursor with less | more
    · have := unitCount_take_le chars (show index + 1 ≤ cursor from less)
      omega
    · have := unitCount_take_le chars more
      omega
  unfold settled
  cases cursor with
  | zero =>
      have reached := h.reached
      rw [List.take_zero, unitCount] at reached ⊢
      rw [if_neg (outside (by rw [List.take_zero, unitCount]; omega))]
      omega
  | succ index =>
      have inLine : index < chars.length := h.inside
      have least := h.least index (Nat.lt_succ_self index)
      have reached := h.reached
      have next := unitCount_take_succ inLine
      rcases width_toNat chars[index] with one | two
      · rw [if_neg (outside (by omega))]
        omega
      · by_cases boundary : unitCount (chars.take (index + 1)) = column
        · rw [if_neg (outside boundary), boundary]
        · have pair : InsidePair chars column := by
            refine ⟨index, inLine, ?_, by omega⟩
            rw [List.getElem?_eq_getElem inLine, Option.map_some]
            exact congrArg some (UInt32.toNat_inj.mp two)
          rw [if_pos pair]
          omega

/-- What follows a line does not change where its pairs are. -/
theorem InsidePair.append {chars : List Char} {column : Nat} (inside : InsidePair chars column)
    (rest : List Char)
    : InsidePair (chars ++ rest) column := by
  obtain ⟨index, inLine, two, rfl⟩ := inside
  refine ⟨index, by rw [List.length_append]; omega, ?_, ?_⟩
  · rw [List.getElem?_append_left inLine, two]
  · rw [List.take_append_of_le_length (Nat.le_of_lt inLine)]

theorem le_settled (chars : List Char) (column : Nat) : column ≤ settled chars column := by
  unfold settled
  split <;> omega

/-- The column that is meant does not go past the end of a prefix that reaches the column. -/
theorem settled_le {chars : List Char} {column index : Nat}
    (h : column ≤ unitCount (chars.take index))
    : settled chars column ≤ unitCount (chars.take index) := by
  obtain ⟨cursor, isCursor⟩ :=
    exists_isCursor (Nat.le_trans h (unitCount_take_le_unitCount chars index))
  rw [← isCursor.unitCount_take]
  exact unitCount_take_le chars (isCursor.le_of_reached h)

end HintServer.Text
