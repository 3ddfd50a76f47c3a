import HintServer.Text.Hex

/-! Percent-encoding writes a character as its UTF-8 bytes in hexadecimal.
Each part of an address has its own set of characters to encode; characters beyond ASCII are
encoded in every part, and an escape that is already there stays.
-/

namespace HintServer.Uri.Percent

/-- Control characters are encoded in every part. -/
def inControls (char : Char) : Bool :=
  char.toNat < 0x20 || char.toNat = 0x7F

def inFragment (char : Char) : Bool :=
  inControls char || [' ', '"', '<', '>', '\x60'].contains char

/-- The characters to encode in a query; a special scheme adds the apostrophe. -/
def inQuery (special : Bool) (char : Char) : Bool :=
  inControls char || [' ', '"', '#', '<', '>'].contains char || (special && char == '\'')

def inPath (char : Char) : Bool :=
  inFragment char || ['#', '?', '\x7b', '\x7d'].contains char

def inUserinfo (char : Char) : Bool :=
  inPath char || ['/', ':', ';', '=', '@', '[', '\\', ']', '^', '|'].contains char

/-- A byte as a percent sign with two capital hexadecimal digits. -/
def escape (byte : UInt8) : List Char :=
  ['%', Text.Hex.upper (byte.toNat / 16), Text.Hex.upper (byte.toNat % 16)]

/-- Encodes the characters of a set and all characters beyond ASCII. -/
def encode (reserved : Char → Bool) (chars : List Char) : List Char :=
  chars.flatMap fun char =>
    if 0x80 ≤ char.toNat || reserved char then (String.utf8EncodeChar char).flatMap escape
    else [char]

/-- Replaces each escape of an ASCII character by that character; escapes of other bytes are
refused.
-/
def decodeAscii? : List Char → Option (List Char)
  | [] => some []
  | '%' :: high :: low :: rest =>
      match Text.Hex.value? high, Text.Hex.value? low with
      | some high, some low =>
          if 8 ≤ high then none
          else (decodeAscii? rest).map (Char.ofNat (16 * high + low) :: ·)
      | _, _ => (decodeAscii? (high :: low :: rest)).map ('%' :: ·)
  | char :: rest => (decodeAscii? rest).map (char :: ·)

end HintServer.Uri.Percent
