import HintServer.Proofs.Text.Returns
import HintServer.Proofs.Text.Word

/-! Texts as their clients count them: in UTF-16 code units.
A character encodes to as many units as it is wide, and a line feed is one unit that no other
character has, so that cutting the units at line feeds gives the encoded lines, each with the
return that a line of characters leaves off.
-/

namespace HintServer.Text

/-- The UTF-16 code units of a character: one that does not fit a unit takes a surrogate pair,
with ten bits in each.
-/
def codeUnits (char : Char) : List UInt16 :=
  if char.toNat < 0x10000 then [.ofNat char.toNat]
  else
    [.ofNat (0xD800 + (char.toNat - 0x10000) / 0x400),
      .ofNat (0xDC00 + (char.toNat - 0x10000) % 0x400)]

/-- The UTF-16 encoding of a text. -/
def encode (chars : List Char) : List UInt16 :=
  chars.flatMap codeUnits

/-- The unit of a line feed. -/
def feedUnit : UInt16 := 0x0A

/-- The first unit of a surrogate pair. -/
def IsHighSurrogate (unit : UInt16) : Prop :=
  0xD800 ≤ unit.toNat ∧ unit.toNat < 0xDC00

/-- The second unit of a surrogate pair. -/
def IsLowSurrogate (unit : UInt16) : Prop :=
  0xDC00 ≤ unit.toNat ∧ unit.toNat < 0xE000

/-- A column of encoded text that falls between the two units of a surrogate pair. -/
def SplitsPair (units : List UInt16) (column : Nat) : Prop :=
  ∃ before high low after,
    units = before ++ high :: low :: after
    ∧ IsHighSurrogate high
    ∧ IsLowSurrogate low
    ∧ column = before.length + 1

-----------------------------------------------------------------------------------------
-- One character
-----------------------------------------------------------------------------------------

theorem char_toNat_lt (char : Char) : char.toNat < 0x110000 := by
  have valid := char.valid
  unfold UInt32.isValidChar Nat.isValidChar at valid
  change char.val.toNat < _
  omega

theorem not_surrogate_toNat (char : Char) : char.toNat < 0xD800 ∨ 0xE000 ≤ char.toNat := by
  have valid := char.valid
  unfold UInt32.isValidChar Nat.isValidChar at valid
  change char.val.toNat < _ ∨ _ ≤ char.val.toNat
  omega

/-- A character is a single unit outside the surrogates or a surrogate pair, by its size. -/
theorem codeUnits_cases (char : Char)
    : (∃ unit,
        codeUnits char = [unit]
        ∧ unit.toNat = char.toNat
        ∧ ¬ IsLowSurrogate unit
        ∧ width char = 1)
      ∨ ∃ high low,
          codeUnits char = [high, low]
          ∧ IsHighSurrogate high
          ∧ IsLowSurrogate low
          ∧ width char = 2 := by
  have bound := char_toNat_lt char
  have valid := not_surrogate_toNat char
  have narrow : char.val < 0x10000 ↔ char.toNat < 0x10000 := UInt32.lt_iff_toNat_lt
  unfold codeUnits width
  by_cases single : char.toNat < 0x10000
  · refine Or.inl ⟨.ofNat char.toNat, if_pos single, ?_, ?_, if_pos (narrow.mpr single)⟩
    · exact UInt16.toNat_ofNat_of_lt' single
    · rw [IsLowSurrogate, UInt16.toNat_ofNat_of_lt' single]
      omega
  · refine Or.inr ⟨_, _, if_neg single, ?_, ?_, if_neg (mt narrow.mp single)⟩
    · rw [IsHighSurrogate, UInt16.toNat_ofNat_of_lt' (show _ < 65536 by omega)]
      omega
    · rw [IsLowSurrogate, UInt16.toNat_ofNat_of_lt' (show _ < 65536 by omega)]
      omega

theorem codeUnits_feed : codeUnits '\n' = [feedUnit] :=
  rfl

/-- Only a line feed has the unit of a line feed; surrogates are larger. -/
theorem feedUnit_not_mem_codeUnits {char : Char} (other : char ≠ '\n')
    : feedUnit ∉ codeUnits char := by
  rcases codeUnits_cases char with
    ⟨unit, units, value, -, -⟩ | ⟨high, low, units, isHigh, isLow, -⟩
  · rw [units, List.mem_singleton]
    rintro rfl
    exact other (Char.toNat_inj.mp value.symm)
  · rw [units]
    intro member
    rcases List.mem_pair.mp member with rfl | rfl
    · exact absurd isHigh.1 (by decide)
    · exact absurd isLow.1 (by decide)

-----------------------------------------------------------------------------------------
-- Whole texts
-----------------------------------------------------------------------------------------

theorem encode_cons (char : Char) (rest : List Char)
    : encode (char :: rest) = codeUnits char ++ encode rest :=
  List.flatMap_cons

@[simp] theorem encode_append (first second : List Char)
    : encode (first ++ second) = encode first ++ encode second :=
  List.flatMap_append

/-- A text encodes to as many units as its characters are wide, by induction on the text. -/
theorem length_encode (chars : List Char) : (encode chars).length = unitCount chars := by
  induction chars with
  | nil => rfl
  | cons char rest ih =>
      rw [encode_cons, List.length_append, ih, unitCount]
      rcases codeUnits_cases char with ⟨_, units, -, -, wide⟩ | ⟨_, _, units, -, -, wide⟩ <;>
        rw [units, wide] <;> rfl

/-- The units before the column of a character are those of the characters before it. -/
theorem take_encode (chars : List Char) (index : Nat)
    : (encode chars).take (unitCount (chars.take index)) = encode (chars.take index) := by
  have whole := congrArg encode (List.take_append_drop index chars)
  rw [encode_append] at whole
  rw [← whole, ← length_encode, List.take_left]

/-- The units from the column of a character on are those of the characters from there on. -/
theorem drop_encode (chars : List Char) (index : Nat)
    : (encode chars).drop (unitCount (chars.take index)) = encode (chars.drop index) := by
  have whole := congrArg encode (List.take_append_drop index chars)
  rw [encode_append] at whole
  rw [← whole, ← length_encode, List.drop_left]

/-- The units of a stretch of a text are those between its columns. -/
theorem slice_encode (chars : List Char) {start stop : Nat} (h : start ≤ stop)
    : ((encode chars).take (unitCount (chars.take stop))).drop (unitCount (chars.take start))
      = encode (slice chars start stop) := by
  rw [take_encode, ← take_append_slice h, encode_append, ← length_encode, List.drop_left]

/-- The units of a text do not begin with the second half of a pair. -/
theorem not_isLowSurrogate_of_head? {chars : List Char} {unit : UInt16}
    (first : (encode chars).head? = some unit)
    : ¬ IsLowSurrogate unit := by
  cases chars with
  | nil => contradiction
  | cons char rest =>
      rw [encode_cons] at first
      rcases codeUnits_cases char with
        ⟨single, units, -, outside, -⟩ | ⟨high, low, units, isHigh, -⟩
      · rw [units] at first
        exact Option.some.inj first ▸ outside
      · rw [units] at first
        obtain rfl := Option.some.inj first
        intro isLow
        exact absurd isHigh.2 (Nat.not_lt.mpr isLow.1)

/-- The columns of characters split no pair, since the units from there on encode characters. -/
theorem not_splitsPair_unitCount_take (chars : List Char) (index : Nat)
    : ¬ SplitsPair (encode chars) (unitCount (chars.take index)) := by
  rintro ⟨before, high, low, after, split, -, isLow, column⟩
  have next : (encode (chars.drop index)).head? = some low := by
    rw [← drop_encode, column, split, ← List.drop_drop, List.drop_left]
    rfl
  exact not_isLowSurrogate_of_head? next isLow

/-- A column inside the pair of a character splits the pair's units. -/
theorem splitsPair_of_insidePair {chars : List Char} {column : Nat}
    (inside : InsidePair chars column)
    : SplitsPair (encode chars) column := by
  obtain ⟨index, inLine, two, rfl⟩ := inside
  rw [List.getElem?_eq_getElem inLine, Option.map_some, Option.some.injEq] at two
  rcases codeUnits_cases chars[index] with
    ⟨_, -, -, -, one⟩ | ⟨high, low, units, isHigh, isLow, -⟩
  · rw [two] at one
    contradiction
  · refine ⟨encode (chars.take index), high, low, encode (chars.drop (index + 1)), ?_, isHigh,
      isLow, by rw [length_encode]⟩
    nth_rewrite 1 [← List.take_append_drop index chars]
    rw [List.drop_eq_getElem_cons inLine, encode_append, encode_cons, units]
    rfl

-----------------------------------------------------------------------------------------
-- Lines
-----------------------------------------------------------------------------------------

/-- Units without a line feed belong to the first line of what they stand before, by induction on
them.
-/
theorem splitOn_append_of_not_mem {first : List UInt16} (second : List UInt16)
    (noFeed : feedUnit ∉ first)
    : (first ++ second).splitOn feedUnit
      = (second.splitOn feedUnit).modifyHead (first ++ ·) := by
  induction first with
  | nil =>
      change second.splitOn feedUnit = (second.splitOn feedUnit).modifyHead id
      rw [List.modifyHead_id, id]
  | cons unit rest ih =>
      rw [List.mem_cons, not_or] at noFeed
      have other : ¬ (unit == feedUnit) = true := by
        simpa using Ne.symm noFeed.1
      rw [List.cons_append, List.splitOn_cons_eq_if_modifyHead, if_neg other, ih noFeed.2,
        List.modifyHead_modifyHead]
      rfl

/-- Cutting the units of a text at line feeds gives the units of the contents of its lines, by
induction on the text.
-/
theorem splitOn_encode (chars : List Char)
    : (encode chars).splitOn feedUnit = (chars.splitOn '\n').map encode := by
  induction chars with
  | nil => rfl
  | cons char rest ih =>
      rw [encode_cons]
      by_cases feed : char = '\n'
      · subst feed
        rw [splitOn_feed_cons, List.map_cons, ← ih, codeUnits_feed, List.singleton_append,
          List.splitOn_cons_eq_if_modifyHead, if_pos (beq_self_eq_true _)]
        rfl
      · rw [splitOn_append_of_not_mem _ (feedUnit_not_mem_codeUnits feed), splitOn_cons_of_ne feed,
          ih]
        cases rest.splitOn '\n' with
        | nil => rfl
        | cons content contents => simp [encode_cons]

/-- Cut at line feeds, the units of a text at the number of a line encode that line and the return
that the line leaves off, if there is one.
-/
theorem exists_units_of_line {chars line : List Char} {number : Nat}
    (onLine : (lines chars)[number]? = some line)
    : ∃ rest, ((encode chars).splitOn feedUnit)[number]? = some (encode (line ++ rest)) := by
  obtain ⟨content, found, same⟩ := exists_content_of_line onLine
  rw [splitOn_encode, List.getElem?_map, found, Option.map_some]
  rcases same with rfl | rfl
  · exact ⟨[], by rw [List.append_nil]⟩
  · exact ⟨['\r'], rfl⟩

end HintServer.Text
