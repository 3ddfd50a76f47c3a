/-! JSON values as messages carry them, and the typed views that readers take of a value.
Integers are kept apart from other numerals: only an integer is read as a line, a column or
a version.
-/

namespace HintServer

/-- A JSON value; a numeral that is not a plain integer keeps its text. -/
inductive Json where
  | null
  | bool (value : Bool)
  | int (value : Int)
  | decimal (text : String)
  | str (text : String)
  | arr (elements : List Json)
  | obj (members : List (String × Json))

namespace Json

/-- The value of an object's member; of members with one name the last counts. -/
def field? (value : Json) (name : String) : Option Json :=
  match value with
  | .obj members => (members.findRev? (fun entry => entry.1 = name)).map (·.2)
  | _ => none

def text? : Json → Option String
  | .str text => some text
  | _ => none

def int? : Json → Option Int
  | .int value => some value
  | _ => none

def bool? : Json → Option Bool
  | .bool value => some value
  | _ => none

def elements? : Json → Option (List Json)
  | .arr elements => some elements
  | _ => none

/-- An integer that fits an unsigned 32-bit word. -/
def unsigned32? : Json → Option UInt32
  | .int value =>
      if 0 ≤ value ∧ value.toNat < UInt32.size then some (UInt32.ofNat value.toNat) else none
  | _ => none

/-- An integer that fits a signed 32-bit word. -/
def signed32? : Json → Option Int32
  | .int value =>
      if Int32.minValue.toInt ≤ value ∧ value ≤ Int32.maxValue.toInt then
        some (Int32.ofInt value)
      else none
  | _ => none

def ofNat (value : Nat) : Json :=
  .int (Int.ofNat value)

def ofTexts (texts : List String) : Json :=
  .arr (texts.map .str)

def ofOption : Option Json → Json
  | some value => value
  | none => .null

end Json

end HintServer
