import HintServer.Text.Cut

/-! Frames carry one message each over a stream of bytes.
A few header lines give the length of the body; an empty line separates the two.
-/

namespace HintServer.Wire

/-- The characters with the codes of bytes. -/
def latinChars (bytes : List UInt8) : List Char :=
  bytes.map fun byte => Char.ofNat byte.toNat

/-- The header lines of a frame and what follows the empty line after them, once that line has
arrived. The line being read and the lines before it stand in reverse.
-/
def headerLines? (line : List UInt8) (lines : List (List Char))
    : List UInt8 → Option (List (List Char) × List UInt8)
  | [] => none
  | byte :: rest =>
      if byte = 10 then
        let line := if line.head? = some 13 then line.tail else line
        if line.isEmpty then some (lines.reverse, rest)
        else headerLines? [] (latinChars line.reverse :: lines) rest
      else headerLines? (byte :: line) lines rest

def trimBlanks (chars : List Char) : List Char :=
  let isBlank (char : Char) : Bool := char == ' ' || char == '\t'
  ((chars.dropWhile isBlank).reverse.dropWhile isBlank).reverse

/-- The name and value of a header line. -/
def headerField? (line : List Char) : Option (String × List Char) :=
  match Text.cutFirst (· == ':') line with
  | (name, some value) => some (String.ofList name, trimBlanks value)
  | (_, none) => none

def length? (value : List Char) : Option Nat :=
  let digits := if value.head? = some '+' then value.tail else value
  if digits.isEmpty ∨ !digits.all Char.isDigit then none
  else some (digits.foldl (fun length digit => 10 * length + (digit.toNat - '0'.toNat)) 0)

/-- Tells whether a content type names UTF-8 as its character set. -/
def namesUtf8 (value : List Char) : Bool :=
  let params := ((Text.pieces (· == ';') value).drop 1).map (String.ofList ∘ trimBlanks)
  match params.find? (·.startsWith "charset=") with
  | some param => param == "charset=utf-8" || param == "charset=utf8"
  | none => false

/-- The length of the body that header fields announce; fields other than length and type do
not count.
-/
def announced? (fields : List (String × List Char)) : Option Nat :=
  if 2 < fields.length then none
  else
    fields.foldlM
        (fun (length : Option Nat) (name, value) =>
          if name = "Content-Length" then (length? value).map some
          else if name = "Content-Type" then if namesUtf8 value then some length else none
          else some length)
        none
      |>.join

/-- What the bytes received so far begin with: a frame, the start of one with the part of it
that is still open, or no frame at all.
-/
inductive Arrival where
  | frame (body rest : List UInt8)
  | unfinished (received : List UInt8)
  | broken
deriving DecidableEq, Repr

/-- Takes a frame from the front of the bytes received so far. -/
def arrival (bytes : List UInt8) : Arrival :=
  match headerLines? [] [] bytes with
  | none => .unfinished bytes
  | some (lines, rest) =>
      match (lines.mapM headerField?).bind announced? with
      | none => .broken
      | some length =>
          if length ≤ rest.length then .frame (rest.take length) (rest.drop length)
          else .unfinished rest

def frame (text : String) : String :=
  "Content-Length: " ++ toString text.utf8ByteSize ++ "\r\n\r\n" ++ text

end HintServer.Wire
