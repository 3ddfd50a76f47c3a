import HintServer.Json.Basic
import HintServer.Text.Hex

/-! JSON values as text, on one line or indented by two spaces a level.
Strings escape the quote, the backslash and the control characters and keep all else.
-/

namespace HintServer.Json

def escapeChar (char : Char) : List Char :=
  match char with
  | '"' => ['\\', '"']
  | '\\' => ['\\', '\\']
  | '\x08' => ['\\', 'b']
  | '\x0c' => ['\\', 'f']
  | '\n' => ['\\', 'n']
  | '\r' => ['\\', 'r']
  | '\t' => ['\\', 't']
  | char =>
      if char < ' ' then
        ['\\', 'u', '0', '0', Text.Hex.lower (char.toNat / 16), Text.Hex.lower (char.toNat % 16)]
      else [char]

def quote (text : String) : String :=
  String.ofList ('"' :: (text.toList.flatMap escapeChar ++ ['"']))

mutual
/-- A value on one line without blank space. -/
def compact : Json → String
  | .null => "null"
  | .bool true => "true"
  | .bool false => "false"
  | .int value => toString value
  | .decimal text => text
  | .str text => quote text
  | .arr elements => "[" ++ String.intercalate "," (compactElements elements) ++ "]"
  | .obj members => "\x7b" ++ String.intercalate "," (compactMembers members) ++ "\x7d"

def compactElements : List Json → List String
  | [] => []
  | value :: rest => compact value :: compactElements rest

def compactMembers : List (String × Json) → List String
  | [] => []
  | (key, value) :: rest => (quote key ++ ":" ++ compact value) :: compactMembers rest
end

/-- The line break before a part at a depth. -/
def newLine (depth : Nat) : String :=
  "\n" ++ String.ofList (List.replicate (2 * depth) ' ')

/-- Encloses parts that stand on lines of their own; without parts the brackets touch. -/
def enclose (opening closing : String) (depth : Nat) (parts : List String) : String :=
  if parts.isEmpty then opening ++ closing
  else
    opening ++ newLine (depth + 1) ++ String.intercalate ("," ++ newLine (depth + 1)) parts
      ++ newLine depth ++ closing

mutual
/-- A value over several lines, as it stands at a depth. -/
def prettyAt (depth : Nat) : Json → String
  | .arr elements => enclose "[" "]" depth (prettyElements (depth + 1) elements)
  | .obj members => enclose "\x7b" "\x7d" depth (prettyMembers (depth + 1) members)
  | value => compact value

def prettyElements (depth : Nat) : List Json → List String
  | [] => []
  | value :: rest => prettyAt depth value :: prettyElements depth rest

def prettyMembers (depth : Nat) : List (String × Json) → List String
  | [] => []
  | (key, value) :: rest =>
      (quote key ++ ": " ++ prettyAt depth value) :: prettyMembers depth rest
end

/-- A value over several lines, two spaces a level. -/
def pretty (value : Json) : String :=
  prettyAt 0 value

end HintServer.Json
