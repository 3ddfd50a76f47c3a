import HintServer.Proofs.Text.Units
import HintServer.Text.Word

/-! Maximal runs of word characters in a line.
The run around an index is the only one that touches it, and there is one when a word character
stands on either side of the index.
-/

namespace HintServer.Text

/-- Tells whether a line has a word character at an index. -/
def isWordAt (chars : List Char) (index : Nat) : Bool :=
  chars[index]?.any isWordChar

/-- A maximal run of word characters: the characters from `start` up to `stop`, with none just
before them and none just after.
-/
structure IsRun (chars : List Char) (start stop : Nat) : Prop where
  nonempty : start < stop
  characters : ∀ index, start ≤ index → index < stop → isWordAt chars index = true
  before : ∀ index, index + 1 = start → isWordAt chars index = false
  after : isWordAt chars stop = false

theorem lt_length_of_isWordAt {chars : List Char} {index : Nat}
    (h : isWordAt chars index = true)
    : index < chars.length := by
  refine Nat.lt_of_not_le fun past => ?_
  simp [isWordAt, List.getElem?_eq_none past] at h

theorem IsRun.inside {chars : List Char} {start stop : Nat} (run : IsRun chars start stop)
    : stop ≤ chars.length := by
  have := run.nonempty
  have := lt_length_of_isWordAt (run.characters (stop - 1) (by omega) (by omega))
  omega

/-- A run that touches an index does not begin after another one that does: the character before
it would be in the other one.
-/
theorem IsRun.start_le {chars : List Char} {cursor start stop start' stop' : Nat}
    (first : IsRun chars start stop) (second : IsRun chars start' stop')
    (startLe : start ≤ cursor) (leStop' : cursor ≤ stop')
    : start ≤ start' := by
  refine Nat.le_of_not_lt fun later => ?_
  have outside := first.before (start - 1) (by omega)
  have inside := second.characters (start - 1) (by omega) (by omega)
  exact Bool.false_ne_true (outside.symm.trans inside)

/-- A run does not end before another one that begins with it: the character after it would be
in the other one.
-/
theorem IsRun.stop_le {chars : List Char} {start stop stop' : Nat}
    (first : IsRun chars start stop) (second : IsRun chars start stop')
    : stop' ≤ stop := by
  refine Nat.le_of_not_lt fun earlier => ?_
  have outside := first.after
  have inside := second.characters stop (Nat.le_of_lt first.nonempty) earlier
  exact Bool.false_ne_true (outside.symm.trans inside)

theorem IsRun.unique {chars : List Char} {cursor start stop start' stop' : Nat}
    (first : IsRun chars start stop) (second : IsRun chars start' stop')
    (startLe : start ≤ cursor) (leStop : cursor ≤ stop)
    (startLe' : start' ≤ cursor) (leStop' : cursor ≤ stop')
    : start = start' ∧ stop = stop' := by
  obtain rfl : start = start' :=
    Nat.le_antisymm (first.start_le second startLe leStop')
      (second.start_le first startLe' leStop)
  exact ⟨rfl, Nat.le_antisymm (second.stop_le first) (first.stop_le second)⟩

theorem IsRun.of_isWordAt_eq {first second : List Char} {start stop : Nat}
    (same : ∀ index, isWordAt second index = isWordAt first index)
    (run : IsRun first start stop)
    : IsRun second start stop where
  nonempty := run.nonempty
  characters := fun index inside inside' => same index ▸ run.characters index inside inside'
  before := fun index last => same index ▸ run.before index last
  after := same stop ▸ run.after

/-- A character that is in no word adds no word character to the line that it ends. -/
theorem isWordAt_append_singleton {char : Char} (outside : isWordChar char = false)
    (line : List Char) (index : Nat)
    : isWordAt (line ++ [char]) index = isWordAt line index := by
  rcases Nat.lt_trichotomy index line.length with inside | rfl | past
  · rw [isWordAt, List.getElem?_append_left inside, isWordAt]
  · simp [isWordAt, outside]
  · have past' : (line ++ [char]).length ≤ index := by
      rw [List.length_append]
      exact past
    rw [isWordAt, isWordAt, List.getElem?_eq_none past', List.getElem?_eq_none (Nat.le_of_lt past)]

theorem isRun_append_singleton_iff {char : Char} (outside : isWordChar char = false)
    {line : List Char} {start stop : Nat}
    : IsRun (line ++ [char]) start stop ↔ IsRun line start stop :=
  have same := isWordAt_append_singleton outside line
  ⟨.of_isWordAt_eq fun index => (same index).symm, .of_isWordAt_eq same⟩

-----------------------------------------------------------------------------------------
-- The run around an index
-----------------------------------------------------------------------------------------

theorem any_of_lt_takeWhile {property : Char → Bool} {chars : List Char} {index : Nat}
    (h : index < (chars.takeWhile property).length)
    : chars[index]?.any property = true := by
  induction chars generalizing index with
  | nil => simp at h
  | cons char rest ih =>
      by_cases holds : property char = true
      · rw [List.takeWhile_cons_of_pos holds, List.length_cons] at h
        cases index with
        | zero => simpa using holds
        | succ index =>
            rw [List.getElem?_cons_succ]
            exact ih (Nat.lt_of_succ_lt_succ h)
      · simp [List.takeWhile_cons_of_neg holds] at h

/-- The character after those taken while a property holds does not have it, by induction on the
text.
-/
theorem not_any_takeWhile_length (property : Char → Bool) (chars : List Char)
    : chars[(chars.takeWhile property).length]?.any property = false := by
  induction chars with
  | nil => rfl
  | cons char rest ih =>
      by_cases holds : property char = true
      · rw [List.takeWhile_cons_of_pos holds, List.length_cons, List.getElem?_cons_succ]
        exact ih
      · simpa [List.takeWhile_cons_of_neg holds] using holds

/-- An index of the reversed start of a line is one of the line, counted back from the end of
the start.
-/
theorem any_reverse_take {chars : List Char} {cursor : Nat} (inside : cursor ≤ chars.length)
    (index : Nat) (h : index < cursor)
    : ((chars.take cursor).reverse[index]?).any isWordChar
      = isWordAt chars (cursor - 1 - index) := by
  have length : (chars.take cursor).length = cursor := List.length_take_of_le inside
  rw [isWordAt, List.getElem?_reverse (by omega), length,
    List.getElem?_take_of_lt (by omega)]

theorem runStart_le (chars : List Char) (cursor : Nat) : runStart chars cursor ≤ cursor :=
  Nat.sub_le _ _

theorem le_runStop (chars : List Char) (cursor : Nat) : cursor ≤ runStop chars cursor :=
  Nat.le_add_right _ _

/-- Reaching back passes the character before an index if it is a word character. -/
theorem runStart_succ {chars : List Char} {index : Nat} (inside : index < chars.length)
    : runStart chars (index + 1)
      = if isWordChar chars[index] then runStart chars index else index + 1 := by
  rw [runStart, List.take_succ_eq_append_getElem inside, List.reverse_append,
    List.reverse_singleton, List.singleton_append, List.takeWhile_cons]
  split
  case isTrue => rw [List.length_cons, Nat.add_sub_add_right, runStart]
  case isFalse => rfl

/-- Reaching on passes the character at an index if it is a word character. -/
theorem runStop_of_lt {chars : List Char} {index : Nat} (inside : index < chars.length)
    : runStop chars index
      = if isWordChar chars[index] then runStop chars (index + 1) else index := by
  rw [runStop, List.drop_eq_getElem_cons inside, List.takeWhile_cons]
  split
  case isTrue =>
    rw [List.length_cons, runStop]
    omega
  case isFalse => rfl

theorem runStop_of_le {chars : List Char} {index : Nat} (past : chars.length ≤ index)
    : runStop chars index = index := by
  rw [runStop, List.drop_eq_nil_of_le past]
  rfl

theorem isWordAt_of_runStart_le {chars : List Char} {cursor index : Nat}
    (inside : cursor ≤ chars.length) (h : runStart chars cursor ≤ index)
    (less : index < cursor)
    : isWordAt chars index = true := by
  rw [runStart] at h
  have back := any_reverse_take inside (cursor - 1 - index) (by omega)
  rw [any_of_lt_takeWhile (by omega)] at back
  rw [back]
  congr 1
  omega

/-- Reaching back from an index stops at the line's start or after another character. -/
theorem isWordAt_before_runStart {chars : List Char} {cursor index : Nat}
    (inside : cursor ≤ chars.length) (h : index + 1 = runStart chars cursor)
    : isWordAt chars index = false := by
  rw [runStart] at h
  have back := any_reverse_take inside (cursor - 1 - index) (by omega)
  rw [show cursor - 1 - (cursor - 1 - index) = index by omega,
    show cursor - 1 - index
      = ((chars.take cursor).reverse.takeWhile isWordChar).length by omega,
    not_any_takeWhile_length] at back
  exact back.symm

theorem isWordAt_of_lt_runStop {chars : List Char} {cursor index : Nat} (h : cursor ≤ index)
    (less : index < runStop chars cursor)
    : isWordAt chars index = true := by
  rw [runStop] at less
  have on : ((chars.drop cursor)[index - cursor]?).any isWordChar = true :=
    any_of_lt_takeWhile (by omega)
  rwa [List.getElem?_drop, show cursor + (index - cursor) = index by omega] at on

/-- Reaching on from an index stops at the line's end or before another character. -/
theorem isWordAt_runStop (chars : List Char) (cursor : Nat)
    : isWordAt chars (runStop chars cursor) = false := by
  have on := not_any_takeWhile_length isWordChar (chars.drop cursor)
  rwa [List.getElem?_drop] at on

/-- The run around an index is a run unless it is empty. -/
theorem isRun_runStart_runStop {chars : List Char} {cursor : Nat}
    (inside : cursor ≤ chars.length)
    (h : runStart chars cursor ≠ runStop chars cursor)
    : IsRun chars (runStart chars cursor) (runStop chars cursor) := by
  have := runStart_le chars cursor
  have := le_runStop chars cursor
  refine ⟨by omega, ?_, fun index => isWordAt_before_runStart inside,
    isWordAt_runStop chars cursor⟩
  intro index start stop
  rcases Nat.lt_or_ge index cursor with less | more
  · exact isWordAt_of_runStart_le inside start less
  · exact isWordAt_of_lt_runStop more stop

/-- The runs that touch an index are the one around it, if that is not empty. -/
theorem isRun_touching_iff {chars : List Char} {cursor start stop : Nat}
    (inside : cursor ≤ chars.length)
    : IsRun chars start stop ∧ start ≤ cursor ∧ cursor ≤ stop
      ↔ start = runStart chars cursor
        ∧ stop = runStop chars cursor
        ∧ runStart chars cursor ≠ runStop chars cursor := by
  constructor
  · rintro ⟨run, startLe, leStop⟩
    have nonempty : runStart chars cursor ≠ runStop chars cursor := by
      intro empty
      have := runStart_le chars cursor
      have := le_runStop chars cursor
      have := run.nonempty
      -- the run has a character next to the index, on one side or on the other
      rcases Nat.lt_or_ge start cursor with less | more
      · have before : isWordAt chars (cursor - 1) = false :=
          isWordAt_before_runStart inside (by omega)
        rw [run.characters (cursor - 1) (by omega) (by omega)] at before
        contradiction
      · have after := isWordAt_runStop chars cursor
        rw [run.characters (runStop chars cursor) (by omega) (by omega)] at after
        contradiction
    obtain ⟨rfl, rfl⟩ := run.unique (isRun_runStart_runStop inside nonempty) startLe leStop
      (runStart_le chars cursor) (le_runStop chars cursor)
    exact ⟨rfl, rfl, nonempty⟩
  · rintro ⟨rfl, rfl, nonempty⟩
    exact ⟨isRun_runStart_runStop inside nonempty, runStart_le chars cursor,
      le_runStop chars cursor⟩

/-- The run around an index is not empty when a word character stands before or at it. -/
theorem runStart_ne_runStop_iff {chars : List Char} {cursor : Nat}
    (inside : cursor ≤ chars.length)
    : runStart chars cursor ≠ runStop chars cursor
      ↔ 0 < cursor ∧ isWordAt chars (cursor - 1) = true ∨ isWordAt chars cursor = true := by
  have startLe := runStart_le chars cursor
  have leStop := le_runStop chars cursor
  constructor
  · intro nonempty
    rcases Nat.lt_or_ge (runStart chars cursor) cursor with less | more
    · exact Or.inl ⟨by omega, isWordAt_of_runStart_le inside (by omega) (by omega)⟩
    · exact Or.inr (isWordAt_of_lt_runStop (Nat.le_refl _) (by omega))
  · intro touched empty
    rcases touched with ⟨positive, before⟩ | after
    · have outside : isWordAt chars (cursor - 1) = false :=
        isWordAt_before_runStart inside (by omega)
      exact Bool.false_ne_true (outside.symm.trans before)
    · have outside := isWordAt_runStop chars cursor
      rw [show runStop chars cursor = cursor by omega] at outside
      exact Bool.false_ne_true (outside.symm.trans after)

-----------------------------------------------------------------------------------------
-- Runs as parts of a line
-----------------------------------------------------------------------------------------

/-- A text stands in a line as a whole word: no word character is next to it on either side. -/
structure IsWhole (before word after : List Char) : Prop where
  left : ∀ char, before.getLast? = some char → isWordChar char = false
  right : ∀ char, after.head? = some char → isWordChar char = false

instance (before word after : List Char) : Decidable (IsWhole before word after) :=
  decidable_of_iff
    (before.getLast?.any isWordChar = false ∧ after.head?.any isWordChar = false)
    (by
      rw [Option.any_eq_false, Option.any_eq_false]
      exact ⟨fun ⟨left, right⟩ => ⟨left, right⟩, fun whole => ⟨whole.left, whole.right⟩⟩)

theorem slice_zero (chars : List Char) (stop : Nat) : slice chars 0 stop = chars.take stop :=
  rfl

theorem slice_append (before word after : List Char)
    : slice (before ++ word ++ after) before.length (before.length + word.length) = word := by
  have length : (before ++ word).length = before.length + word.length := List.length_append
  rw [slice, ← length, List.take_left, List.drop_left]

/-- A stretch of a line after what stands before it is the line up to the end of the stretch. -/
theorem take_append_slice {chars : List Char} {start stop : Nat} (h : start ≤ stop)
    : chars.take start ++ slice chars start stop = chars.take stop := by
  have shorter : (chars.take stop).take start = chars.take start := by
    rw [List.take_take, Nat.min_eq_left h]
  rw [slice, ← shorter, List.take_append_drop]

/-- Word characters that stand as a whole word are a run: their indices are those of the part
that they make up.
-/
theorem isRun_of_isWhole {before word after : List Char} (whole : IsWhole before word after)
    (nonempty : word ≠ []) (characters : ∀ char ∈ word, isWordChar char = true)
    : IsRun (before ++ word ++ after) before.length (before.length + word.length) where
  nonempty := by
    have := List.length_pos_iff.mpr nonempty
    omega
  characters := by
    intro index start stop
    have inWord : index - before.length < word.length := by omega
    rw [isWordAt, List.append_assoc, List.getElem?_append_right start,
      List.getElem?_append_left inWord, List.getElem?_eq_getElem inWord, Option.any_some]
    exact characters _ (List.getElem_mem inWord)
  before := by
    intro index last
    have inBefore : index < before.length := by omega
    rw [isWordAt, List.append_assoc, List.getElem?_append_left inBefore,
      show index = before.length - 1 by omega, ← List.getLast?_eq_getElem?]
    cases final : before.getLast? with
    | none => rfl
    | some char => exact whole.left char final
  after := by
    rw [isWordAt, List.getElem?_append_right (by simp), List.length_append, Nat.sub_self,
      ← List.head?_eq_getElem?]
    cases first : after.head? with
    | none => rfl
    | some char => exact whole.right char first

/-- A run between whose ends the column that is meant lies touches the cursor of the column,
whose prefix ends at the column that is meant.
-/
theorem IsCursor.touches {chars : List Char} {column cursor start stop : Nat}
    (isCursor : IsCursor chars column cursor) (run : IsRun chars start stop)
    (starts : unitCount (chars.take start) ≤ settled chars column)
    (ends : settled chars column ≤ unitCount (chars.take stop))
    : start ≤ cursor ∧ cursor ≤ stop := by
  rw [← isCursor.unitCount_take] at starts ends
  have := run.nonempty
  have := run.inside
  exact ⟨(unitCount_take_le_iff (by omega)).mp starts,
    (unitCount_take_le_iff isCursor.inside).mp ends⟩

theorem IsRun.isWhole {chars : List Char} {start stop : Nat} (run : IsRun chars start stop)
    : IsWhole (chars.take start) (slice chars start stop) (chars.drop stop) where
  left := by
    intro char last
    have := run.nonempty
    have := run.inside
    have length : (chars.take start).length = start := List.length_take_of_le (by omega)
    rw [List.getLast?_eq_getElem?, length] at last
    have positive : 0 < start := by
      refine Nat.pos_of_ne_zero fun none => ?_
      simp [none] at last
    rw [List.getElem?_take_of_lt (by omega)] at last
    simpa [isWordAt, last] using run.before (start - 1) (by omega)
  right := by
    intro char first
    rw [List.head?_drop] at first
    simpa [isWordAt, first] using run.after

/-- Word characters end no line. -/
theorem not_mem_of_words {word : List Char}
    (characters : ∀ char ∈ word, isWordChar char = true)
    : '\n' ∉ word ∧ '\r' ∉ word := by
  constructor
  · intro feed
    exact absurd (characters '\n' feed) (by decide)
  · intro returned
    exact absurd (characters '\r' returned) (by decide)

theorem IsRun.isWordChar_of_mem {chars : List Char} {start stop : Nat}
    (run : IsRun chars start stop) {char : Char} (member : char ∈ slice chars start stop)
    : isWordChar char = true := by
  obtain ⟨offset, found⟩ := List.mem_iff_getElem?.mp member
  rw [slice, List.getElem?_drop, List.getElem?_take] at found
  split at found
  case isTrue less =>
    simpa [isWordAt, found] using run.characters (start + offset) (Nat.le_add_right _ _) less
  case isFalse => contradiction

theorem IsRun.slice_ne_nil {chars : List Char} {start stop : Nat}
    (run : IsRun chars start stop)
    : slice chars start stop ≠ [] := by
  have := run.nonempty
  have length : (chars.take stop).length = stop := List.length_take_of_le run.inside
  refine List.ne_nil_of_length_pos ?_
  rw [slice, List.length_drop, length]
  omega

end HintServer.Text
