import HintServer.Proofs.Document.Word

/-! The search for a word, step by step, with everything that could go wrong in it.
Its loops move an index by one and read the character there, and its columns are sums of 32-bit
words. Run with each access, each step back and each sum guarded, it meets no fault and finds the
word at the position, whatever way the columns are summed.
-/

namespace HintServer.Guarded

/-- What can go wrong in a search: an index that reaches out of the text, an index below zero, a
sum beyond 32 bits, and a loop that does not end.
-/
inductive Fault where
  | outOfBounds
  | belowZero
  | overflow
  | unfinished
deriving DecidableEq, Repr

/-- How columns are summed: without bound, modulo 32 bits, or with sums beyond 32 bits refused. -/
inductive Arithmetic where
  | unbounded
  | wrapping
  | checked
deriving DecidableEq, Repr

def Arithmetic.add : Arithmetic → Nat → Nat → Except Fault Nat
  | .unbounded, first, second => .ok (first + second)
  | .wrapping, first, second => .ok ((first + second) % 2 ^ 32)
  | .checked, first, second =>
      if first + second < 2 ^ 32 then .ok (first + second) else .error .overflow

/-- The character at an index of a text. -/
def charAt (chars : List Char) (index : Nat) : Except Fault Char :=
  match chars[index]? with
  | some char => .ok char
  | none => .error .outOfBounds

/-- The index before another one. -/
def previous : Nat → Except Fault Nat
  | 0 => .error .belowZero
  | index + 1 => .ok index

/-- The characters between two indices of a text. -/
def stretch (chars : List Char) (start stop : Nat) : Except Fault (List Char) :=
  if start ≤ stop ∧ stop ≤ chars.length then .ok (Text.slice chars start stop)
  else .error .outOfBounds

/-- Repeats a turn until it gives no further index, for at most a number of turns. -/
def repeatTurns (turn : Nat → Except Fault (Option Nat)) : Nat → Nat → Except Fault Nat
  | 0, _ => .error .unfinished
  | turns + 1, index => do
      match ← turn index with
      | none => return index
      | some next => repeatTurns turn turns next

/-- A turn of the loop back to the start of a run. -/
def turnBack (chars : List Char) (start : Nat) : Except Fault (Option Nat) :=
  if 0 < start then do
    let before ← previous start
    let char ← charAt chars before
    return if Text.isWordChar char then some before else none
  else return none

/-- A turn of the loop on to the end of a run. -/
def turnOn (chars : List Char) (stop : Nat) : Except Fault (Option Nat) :=
  if stop < chars.length then do
    let char ← charAt chars stop
    return if Text.isWordChar char then some (stop + 1) else none
  else return none

def columnAfter (arithmetic : Arithmetic) (chars : List Char) : Except Fault Nat :=
  chars.foldlM (fun units char => arithmetic.add units (Text.width char).toNat) 0

/-- Searches for the first character at or past a column, from a character at `index` that
`units` code units precede.
-/
def indexFrom (arithmetic : Arithmetic) (column index units : Nat)
    : List Char → Except Fault (Option Nat)
  | [] => return if column ≤ units then some index else none
  | char :: rest =>
      if column ≤ units then return some index
      else do
        let more ← arithmetic.add units (Text.width char).toNat
        indexFrom arithmetic column (index + 1) more rest

def columnIndex (arithmetic : Arithmetic) (chars : List Char) (column : Nat)
    : Except Fault (Option Nat) :=
  indexFrom arithmetic column 0 0 chars

/-- A word as a search finds it: the columns of its ends, which need not fit 32 bits, and its
characters.
-/
structure Found where
  start : Nat
  stop : Nat
  text : List Char
deriving DecidableEq, Repr

def Found.ofWord (word : Word) : Found :=
  {
    start := word.range.start.character.toNat,
    stop := word.range.stop.character.toNat,
    text := word.text.toList
  }

/-- The word that touches a column of a line. -/
def wordOn (arithmetic : Arithmetic) (turns : Nat) (line : List Char) (column : Nat)
    : Except Fault (Option Found) := do
  match ← columnIndex arithmetic line column with
  | none => return none
  | some cursor =>
      let start ← repeatTurns (turnBack line) turns cursor
      let stop ← repeatTurns (turnOn line) turns cursor
      if start = stop then return none
      else
        let startColumn ← columnAfter arithmetic (← stretch line 0 start)
        let stopColumn ← columnAfter arithmetic (← stretch line 0 stop)
        return some { start := startColumn, stop := stopColumn, text := ← stretch line start stop }

/-- The word that touches a position of a document. -/
def wordAt (arithmetic : Arithmetic) (turns : Nat) (document : Document) (position : Position)
    : Except Fault (Option Found) :=
  match document.lines[position.line.toNat]? with
  | none => return none
  | some line => wordOn arithmetic turns line position.character.toNat

-----------------------------------------------------------------------------------------
-- Guarded steps
-----------------------------------------------------------------------------------------

theorem ok_bind {α β : Type} (value : α) (next : α → Except Fault β)
    : (Except.ok value >>= next) = next value :=
  rfl

theorem Arithmetic.add_eq_ok (arithmetic : Arithmetic) {first second : Nat}
    (fits : first + second < 2 ^ 32)
    : arithmetic.add first second = .ok (first + second) := by
  cases arithmetic with
  | unbounded => rfl
  | wrapping => rw [add, Nat.mod_eq_of_lt fits]
  | checked => exact if_pos fits

theorem charAt_of_lt {chars : List Char} {index : Nat} (inside : index < chars.length)
    : charAt chars index = .ok chars[index] := by
  rw [charAt, List.getElem?_eq_getElem inside]

theorem stretch_of_le {chars : List Char} {start stop : Nat} (ordered : start ≤ stop)
    (inside : stop ≤ chars.length)
    : stretch chars start stop = .ok (Text.slice chars start stop) :=
  if_pos ⟨ordered, inside⟩

-----------------------------------------------------------------------------------------
-- Sums
-----------------------------------------------------------------------------------------

/-- The column after a text whose code units fit is their count, by induction on the text for every
start of the sum.
-/
theorem columnAfter_eq_ok (arithmetic : Arithmetic) {chars : List Char}
    (fits : Text.unitCount chars < 2 ^ 32)
    : columnAfter arithmetic chars = .ok (Text.columnAfter chars).toNat := by
  suffices general : ∀ units,
      units + Text.unitCount chars < 2 ^ 32
      → chars.foldlM (fun units char => arithmetic.add units (Text.width char).toNat) units
        = .ok (units + Text.unitCount chars) by
    rw [columnAfter, general 0 (by omega), Text.columnAfter_toNat fits, Nat.zero_add]
  clear fits
  induction chars with
  | nil =>
      intro units _
      rfl
  | cons char rest ih =>
      intro units fits
      rw [Text.unitCount] at fits ⊢
      rw [List.foldlM_cons, arithmetic.add_eq_ok (by omega), ok_bind, ih _ (by omega),
        Nat.add_assoc]

/-- The search for a column meets no sum beyond 32 bits if the column leaves room for one more
character or the code units fit, by induction on the text: it only goes on from a sum below the
column.
-/
theorem indexFrom_eq_ok (arithmetic : Arithmetic) {chars : List Char} {column units : UInt32}
    {index : Nat}
    (fits : column.toNat + 1 < 2 ^ 32 ∨ units.toNat + Text.unitCount chars < 2 ^ 32)
    : indexFrom arithmetic column.toNat index units.toNat chars
      = .ok (Text.indexFrom? column index units chars) := by
  induction chars generalizing index units with
  | nil =>
      simp only [indexFrom, Text.indexFrom?, UInt32.le_iff_toNat_le]
      rfl
  | cons char rest ih =>
      rw [indexFrom, Text.indexFrom?]
      simp only [UInt32.le_iff_toNat_le]
      split
      case isTrue => rfl
      case isFalse below =>
        rw [Text.unitCount] at fits
        have wide := Text.width_toNat char
        have room : units.toNat + (Text.width char).toNat < 2 ^ 32 := by
          rcases fits with fits | fits <;> omega
        have sum := Text.toNat_add_width room
        rw [arithmetic.add_eq_ok room, ok_bind, ← sum]
        exact ih (fits.imp_right fun fits => by omega)

theorem columnIndex_eq_ok (arithmetic : Arithmetic) {chars : List Char} {column : UInt32}
    (fits : column.toNat + 1 < 2 ^ 32 ∨ Text.unitCount chars < 2 ^ 32)
    : columnIndex arithmetic chars column.toNat = .ok (Text.columnIndex? chars column) := by
  rw [columnIndex, Text.columnIndex?, ← UInt32.toNat_zero]
  exact indexFrom_eq_ok arithmetic (fits.imp_right fun fits => by simpa using fits)

-----------------------------------------------------------------------------------------
-- Loops
-----------------------------------------------------------------------------------------

/-- The loop back ends at the start of the run, by induction on the turns: each turn reads the
character before an index of the text.
-/
theorem repeatTurns_turnBack {chars : List Char} {turns start : Nat}
    (inside : start ≤ chars.length) (enough : start < turns)
    : repeatTurns (turnBack chars) turns start = .ok (Text.runStart chars start) := by
  induction turns generalizing start with
  | zero => omega
  | succ turns ih =>
      cases start with
      | zero => rfl
      | succ index =>
          have turn : turnBack chars (index + 1)
              = .ok (if Text.isWordChar chars[index] then some index else none) := by
            rw [turnBack, if_pos (Nat.succ_pos _), previous, ok_bind, charAt_of_lt inside, ok_bind]
            rfl
          rw [repeatTurns, turn, ok_bind, Text.runStart_succ inside]
          by_cases isWord : Text.isWordChar chars[index] = true
          · rw [if_pos isWord, if_pos isWord]
            exact ih (Nat.le_of_lt inside) (by omega)
          · rw [if_neg isWord, if_neg isWord]
            rfl

/-- The loop on ends at the end of the run, by induction on the turns: a turn reads the character
at an index before the end of the text.
-/
theorem repeatTurns_turnOn {chars : List Char} {turns stop : Nat}
    (enough : chars.length - stop < turns)
    : repeatTurns (turnOn chars) turns stop = .ok (Text.runStop chars stop) := by
  induction turns generalizing stop with
  | zero => omega
  | succ turns ih =>
      by_cases inside : stop < chars.length
      · have turn : turnOn chars stop
            = .ok (if Text.isWordChar chars[stop] then some (stop + 1) else none) := by
          rw [turnOn, if_pos inside, charAt_of_lt inside, ok_bind]
          rfl
        rw [repeatTurns, turn, ok_bind, Text.runStop_of_lt inside]
        by_cases isWord : Text.isWordChar chars[stop] = true
        · rw [if_pos isWord, if_pos isWord]
          exact ih (by omega)
        · rw [if_neg isWord, if_neg isWord]
          rfl
      · have turn : turnOn chars stop = .ok none := if_neg inside
        rw [repeatTurns, turn, ok_bind, Text.runStop_of_le (Nat.not_lt.mp inside)]
        rfl

-----------------------------------------------------------------------------------------
-- The whole search
-----------------------------------------------------------------------------------------

/-- The word found on a line whose code units fit, with more turns for each loop than the line has
characters: the loops end at the ends of the run around the cursor, which lie in the line.
-/
theorem wordOn_eq_ok (arithmetic : Arithmetic) {turns : Nat} {line : List Char}
    (fits : Text.unitCount line < 2 ^ 32) (enough : line.length < turns)
    (number column : UInt32)
    : wordOn arithmetic turns line column.toNat
      = .ok ((Word.onLine? number column line).map Found.ofWord) := by
  rw [wordOn, columnIndex_eq_ok arithmetic (Or.inr fits), ok_bind, Word.onLine?]
  cases search : Text.columnIndex? line column with
  | none => rfl
  | some cursor =>
      have inside := Text.columnIndex?_le search
      simp only [Option.bind_some]
      rw [repeatTurns_turnBack inside (by omega), ok_bind, repeatTurns_turnOn (by omega), ok_bind]
      by_cases empty : Text.runStart line cursor = Text.runStop line cursor
      · rw [if_pos empty, if_pos empty]
        rfl
      · have stopInside := (Text.isRun_runStart_runStop inside empty).inside
        have startLe := Text.runStart_le line cursor
        have leStop := Text.le_runStop line cursor
        rw [if_neg empty, if_neg empty, stretch_of_le (Nat.zero_le _) (by omega), ok_bind,
          Text.slice_zero, columnAfter_eq_ok arithmetic (Text.unitCount_take_lt fits _), ok_bind,
          stretch_of_le (Nat.zero_le _) stopInside, ok_bind,
          Text.slice_zero, columnAfter_eq_ok arithmetic (Text.unitCount_take_lt fits _), ok_bind,
          stretch_of_le (by omega) stopInside, ok_bind, Option.map_some, Found.ofWord,
          Word.ofStretch, String.toList_ofList]
        rfl

/-- The search for a word meets no fault: on a line whose code units fit 32 bits no index leaves the
line or falls below zero, no sum of columns leaves 32 bits, and each loop ends within one turn more
than the line has characters; so the word is the same whatever way columns are summed. The search
for a column alone meets no fault on lines of any length, unless the column is the last of 32 bits.
-/
theorem word_search_meets_no_fault (arithmetic : Arithmetic)
    : (∀ document position turns,
        (∀ line,
          document.lines[position.line.toNat]? = some line
          → Text.unitCount line < 2 ^ 32 ∧ line.length < turns)
        → wordAt arithmetic turns document position
          = .ok ((document.wordAt? position).map Found.ofWord))
      ∧ (∀ chars column,
          column.toNat < 2 ^ 32 - 1
          → columnIndex arithmetic chars column.toNat = .ok (Text.columnIndex? chars column)) := by
  constructor
  · intro document position turns bounded
    rw [wordAt, Document.wordAt?_eq_bind]
    cases onLine : document.lines[position.line.toNat]? with
    | none => rfl
    | some line =>
        obtain ⟨fits, enough⟩ := bounded line onLine
        exact wordOn_eq_ok arithmetic fits enough _ _
  · intro chars column room
    exact columnIndex_eq_ok arithmetic (Or.inl (by omega))

/-- From a column inside the pair before it a word is found, and the last column but one of 32 bits
is searched without a fault.
-/
theorem guarded_search_after_pair
    : (∀ line,
        (Document.ofText "a 😀unique" "javascript" 1).lines[(0 : UInt32).toNat]? = some line
        → Text.unitCount line < 2 ^ 32 ∧ line.length < 10)
      ∧ wordAt .checked 10 (Document.ofText "a 😀unique" "javascript" 1) ⟨0, 3⟩
        = .ok (some { start := 4, stop := 10, text := "unique".toList })
      ∧ (4294967294 : UInt32).toNat < 2 ^ 32 - 1
      ∧ columnIndex .checked "a 😀unique".toList (4294967294 : UInt32).toNat = .ok none := by
  have onLine : (Document.ofText "a 😀unique" "javascript" 1).lines[(0 : UInt32).toNat]?
      = some "a 😀unique".toList := by
    decide
  have bounded : ∀ line,
      (Document.ofText "a 😀unique" "javascript" 1).lines[(0 : UInt32).toNat]? = some line
      → Text.unitCount line < 2 ^ 32 ∧ line.length < 10 := by
    intro line same
    obtain rfl := Option.some.inj (onLine.symm.trans same)
    decide
  have isWord : ((Document.ofText "a 😀unique" "javascript" 1).wordAt? ⟨0, 3⟩).map Found.ofWord
      = some { start := 4, stop := 10, text := "unique".toList } := by
    decide +kernel
  have room : (4294967294 : UInt32).toNat < 2 ^ 32 - 1 := by decide
  have past : Text.columnIndex? "a 😀unique".toList 4294967294 = none := by decide
  obtain ⟨words, columns⟩ := word_search_meets_no_fault .checked
  exact ⟨bounded, isWord ▸ words _ ⟨0, 3⟩ 10 bounded, room, past ▸ columns _ _ room⟩

end HintServer.Guarded
