import HintServer.Json.Numeral
import HintServer.Text.Hex

/-! The tokens of a JSON text: punctuation and leaves.
The text is read character by character; between tokens stands blank space only, a string
runs to its closing quote, and a bare word is a maximal run of other characters.
-/

namespace HintServer.Json

/-- A piece of JSON text; strings, numerals and named constants are leaves. -/
inductive Token where
  | openBrace
  | closeBrace
  | openBracket
  | closeBracket
  | colon
  | comma
  | leaf (value : Json)

namespace Token

def punctuation? : Char → Option Token
  | '\x7b' => some .openBrace
  | '\x7d' => some .closeBrace
  | '[' => some .openBracket
  | ']' => some .closeBracket
  | ':' => some .colon
  | ',' => some .comma
  | _ => none

def isBlank (char : Char) : Bool :=
  char = ' ' || char = '\t' || char = '\n' || char = '\r'

/-- The character that a letter after a backslash stands for. -/
def escaped? : Char → Option Char
  | '"' => some '"'
  | '\\' => some '\\'
  | '/' => some '/'
  | 'b' => some '\x08'
  | 'f' => some '\x0c'
  | 'n' => some '\n'
  | 'r' => some '\r'
  | 't' => some '\t'
  | _ => none

/-- Where a reader stands inside a string. A high surrogate waits for the escape of its low
partner, which must follow at once.
-/
inductive StringMode where
  | plain
  | escape
  | hex (high : Option Nat) (missing value : Nat)
  | partner (high : Nat)
  | partnerEscape (high : Nat)

/-- Where a reader stands in a text, with the characters of the open token in reverse. -/
inductive Mode where
  | between
  | word (reversed : List Char)
  | string (mode : StringMode) (reversed : List Char)

/-- Completes a four-digit escape: a scalar value is a character, and a surrogate is half of
one.
-/
def unitRead (high : Option Nat) (unit : Nat) (reversed : List Char) : Option Mode :=
  match high with
  | some high =>
      if 0xDC00 ≤ unit ∧ unit < 0xE000 then
        let char := Char.ofNat (0x10000 + (high - 0xD800) * 0x400 + (unit - 0xDC00))
        some (.string .plain (char :: reversed))
      else none
  | none =>
      if 0xD800 ≤ unit ∧ unit < 0xDC00 then some (.string (.partner unit) reversed)
      else if 0xDC00 ≤ unit ∧ unit < 0xE000 then none
      else some (.string .plain (Char.ofNat unit :: reversed))

/-- Reads a character of a string; the closing quote is not read here. -/
def stringStep (mode : StringMode) (reversed : List Char) (char : Char) : Option Mode :=
  match mode with
  | .plain =>
      if char = '\\' then some (.string .escape reversed)
      else if char < ' ' then none
      else some (.string .plain (char :: reversed))
  | .escape =>
      if char = 'u' then some (.string (.hex none 4 0) reversed)
      else (escaped? char).map fun meant => .string .plain (meant :: reversed)
  | .hex high missing value =>
      match Text.Hex.value? char with
      | none => none
      | some digit =>
          let value := 16 * value + digit
          if missing = 1 then unitRead high value reversed
          else some (.string (.hex high (missing - 1) value) reversed)
  | .partner high =>
      if char = '\\' then some (.string (.partnerEscape high) reversed) else none
  | .partnerEscape high =>
      if char = 'u' then some (.string (.hex (some high) 4 0) reversed) else none

/-- Reads a character that starts no part of a word: blank space, punctuation or a quote. -/
def delimiter? (tokens : List Token) (char : Char) : Option (Mode × List Token) :=
  if isBlank char then some (.between, tokens)
  else if char = '"' then some (.string .plain [], tokens)
  else (punctuation? char).map fun token => (.between, token :: tokens)

/-- Reads the tokens of a text; those already read stand in reverse. -/
def readFrom (mode : Mode) (tokens : List Token) : List Char → Option (List Token)
  | [] =>
      match mode with
      | .between => some tokens.reverse
      | .word reversed =>
          (ofWord? reversed.reverse).map fun value => (.leaf value :: tokens).reverse
      | .string .. => none
  | char :: rest =>
      match mode with
      | .between =>
          match delimiter? tokens char with
          | some (mode, tokens) => readFrom mode tokens rest
          | none => readFrom (.word [char]) tokens rest
      | .word reversed =>
          match delimiter? tokens char with
          | none => readFrom (.word (char :: reversed)) tokens rest
          | some _ =>
              -- the word is complete, and the delimiter counts after it
              match ofWord? reversed.reverse with
              | none => none
              | some value =>
                  match delimiter? (.leaf value :: tokens) char with
                  | some (mode, tokens) => readFrom mode tokens rest
                  | none => none
      | .string .plain reversed =>
          if char = '"' then
            readFrom .between (.leaf (.str (String.ofList reversed.reverse)) :: tokens) rest
          else
            match stringStep .plain reversed char with
            | some mode => readFrom mode tokens rest
            | none => none
      | .string mode reversed =>
          match stringStep mode reversed char with
          | some mode => readFrom mode tokens rest
          | none => none

def ofText? (text : String) : Option (List Token) :=
  readFrom .between [] text.toList

end Token

end HintServer.Json
