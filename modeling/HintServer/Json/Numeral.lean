import HintServer.Json.Basic

/-! The bare words of JSON: the three named constants and numerals.
A numeral without fraction and exponent is an integer, except for minus zero; a numeral whose
magnitude lies beyond the largest double is refused.
-/

namespace HintServer.Json

/-- The parts of a numeral; its value is the digits scaled by a power of ten. -/
structure Numeral where
  negative : Bool
  whole : List Char
  fraction : List Char
  exponent : Int
  plain : Bool

namespace Numeral

def digitsValue (digits : List Char) : Nat :=
  digits.foldl (fun value digit => 10 * value + (digit.toNat - '0'.toNat)) 0

/-- A nonempty run of digits at the front, with what follows it. -/
def digits? (chars : List Char) : Option (List Char × List Char) :=
  match chars.takeWhile Char.isDigit with
  | [] => none
  | digits => some (digits, chars.dropWhile Char.isDigit)

/-- The fraction after the whole part: empty unless a point and digits follow. -/
def fraction? : List Char → Option (List Char × List Char)
  | '.' :: rest => digits? rest
  | chars => some ([], chars)

/-- A signed exponent that reaches the end of the word. -/
def exponent? (chars : List Char) : Option Int := do
  let (negative, rest) :=
    match chars with
    | '-' :: rest => (true, rest)
    | '+' :: rest => (false, rest)
    | rest => (false, rest)
  let (digits, []) ← digits? rest | none
  let size := Int.ofNat (digitsValue digits)
  some (if negative then -size else size)

/-- The numeral that a whole word spells: no digit may follow a leading zero. -/
def ofWord? (word : List Char) : Option Numeral := do
  let (negative, chars) :=
    match word with
    | '-' :: rest => (true, rest)
    | rest => (false, rest)
  let (whole, afterWhole) ← digits? chars
  if whole.head? = some '0' ∧ whole.length ≠ 1 then none
  else
    let (fraction, afterFraction) ← fraction? afterWhole
    match afterFraction with
    | [] => some { negative, whole, fraction, exponent := 0, plain := fraction.isEmpty }
    | mark :: rest =>
        if mark = 'e' ∨ mark = 'E' then
          let exponent ← exponent? rest
          some { negative, whole, fraction, exponent, plain := false }
        else none

/-- The least magnitude that rounds past the largest double. -/
def overflowBound : Nat := Nat.pow 2 1024 - Nat.pow 2 970

/-- Tells whether the magnitude lies beyond the doubles; the digit count decides all but the
numerals of 309 digits, so that no huge power is ever computed.
-/
def overflows (numeral : Numeral) : Bool :=
  let digits := (numeral.whole ++ numeral.fraction).dropWhile (· = '0')
  let scale := numeral.exponent - numeral.fraction.length
  let size := scale + digits.length
  if digits.isEmpty then false
  else if size ≠ 309 then decide (309 < size)
  else
    let value := digitsValue digits
    decide (overflowBound * Nat.pow 10 (-scale).toNat ≤ value * Nat.pow 10 scale.toNat)

end Numeral

/-- The value of a bare word: a named constant or a numeral. -/
def ofWord? (word : List Char) : Option Json :=
  if word = ['n', 'u', 'l', 'l'] then some .null
  else if word = ['t', 'r', 'u', 'e'] then some (.bool true)
  else if word = ['f', 'a', 'l', 's', 'e'] then some (.bool false)
  else
    match Numeral.ofWord? word with
    | none => none
    | some numeral =>
        if numeral.overflows then none
        else if numeral.plain ∧ ¬(numeral.negative ∧ numeral.whole = ['0']) then
          let size := Int.ofNat (Numeral.digitsValue numeral.whole)
          some (.int (if numeral.negative then -size else size))
        else some (.decimal (String.ofList word))

end HintServer.Json
