import HintServer.Text.Cut
import HintServer.Uri.Percent

/-! Hosts: names, numeric addresses and addresses in brackets.
A name is ASCII and is compared in lower case; a name whose last label is a number is read as
a four-byte address and written with four decimal numbers.
-/

namespace HintServer.Uri.Host

def isForbidden (char : Char) : Bool :=
  ['\x00', '\t', '\n', '\r', ' ', '#', '/', ':', '<', '>', '?', '@', '[', '\\', ']', '^',
    '|'].contains char

def isForbiddenInName (char : Char) : Bool :=
  isForbidden char || Percent.inControls char || char == '%' || 0x80 ≤ char.toNat

/-- The number that digits of a base denote, when all of them are digits of it. -/
def number? (base : Nat) (digits : List Char) : Option Nat :=
  digits.foldlM
    (fun value digit =>
      match Text.Hex.value? digit with
      | some unit => if unit < base then some (base * value + unit) else none
      | none => none)
    0

/-- A part of a numeric address: hexadecimal after `0x`, octal after another leading zero. -/
def part? : List Char → Option Nat
  | [] => none
  | ['0'] => some 0
  | '0' :: 'x' :: digits => number? 16 digits
  | '0' :: 'X' :: digits => number? 16 digits
  | '0' :: digits => number? 8 digits
  | digits => number? 10 digits

/-- The labels of a name without the empty one after a final dot. -/
def labels (name : List Char) : List (List Char) :=
  let labels := Text.pieces (· == '.') name
  if labels.getLast? = some [] ∧ labels.length ≠ 1 then labels.dropLast else labels

/-- Tells whether the last label of a name is a number. -/
def endsInNumber (name : List Char) : Bool :=
  match (labels name).getLast? with
  | some label => (!label.isEmpty && label.all Char.isDigit) || (part? label).isSome
  | none => false

/-- The value of the parts of a numeric address: the last part fills the bytes that the
others leave.
-/
def address? (parts : List Nat) : Option Nat :=
  match parts.getLast? with
  | none => none
  | some last =>
      let leading := parts.dropLast
      let room := Nat.pow 256 (4 - leading.length)
      if 3 < leading.length ∨ leading.any (255 < ·) ∨ room ≤ last then none
      else some (leading.foldl (fun value part => 256 * value + part) 0 * room + last)

def renderAddress (address : Nat) : List Char :=
  let byte (place : Nat) : List Char := (toString (address / place % 256)).toList
  byte 0x1000000 ++ ['.'] ++ byte 0x10000 ++ ['.'] ++ byte 0x100 ++ ['.'] ++ byte 1

/-- An address in brackets, in lower case. -/
def bracketed? (host : List Char) : Option (List Char) :=
  let inner := host.drop 1 |>.dropLast
  if host.getLast? = some ']' ∧ inner.contains ':'
      ∧ inner.all (fun char => (Text.Hex.value? char).isSome || char == ':' || char == '.') then
    some (host.map Char.toLower)
  else none

/-- The normal form of a host of a special scheme. -/
def special? (host : List Char) : Option (List Char) :=
  if host.head? = some '[' then bracketed? host
  else
    match Percent.decodeAscii? host with
    | none => none
    | some decoded =>
        let name := decoded.map Char.toLower
        if name.isEmpty ∨ name.any isForbiddenInName then none
        else if endsInNumber name then
          (((labels name).mapM part?).bind address?).map renderAddress
        else some name

/-- The normal form of a host of another scheme, which keeps its letter case. -/
def plain? (host : List Char) : Option (List Char) :=
  if host.head? = some '[' then bracketed? host
  else if host.any isForbidden then none
  else some (Percent.encode Percent.inControls host)

end HintServer.Uri.Host
