import HintServer.Json.Token

/-! A JSON text is read by feeding its tokens to a stack of open arrays and objects.
Containers nest at most 127 deep, so that a reader's stack is bounded.
-/

namespace HintServer.Json

/-- An open array or object with its parts so far in reverse. -/
inductive Container where
  | array (reversed : List Json)
  | object (reversed : List (String × Json))

/-- A container around the one being read: an array, or an object at one of its keys. -/
inductive Frame where
  | element (reversed : List Json)
  | member (reversed : List (String × Json)) (key : String)

/-- What may come next. -/
inductive Expectation where
  | anyValue (stack : List Frame)
  | firstElement (stack : List Frame)
  | firstKey (stack : List Frame)
  | nextKey (reversed : List (String × Json)) (stack : List Frame)
  | colonAfter (reversed : List (String × Json)) (key : String) (stack : List Frame)
  | separator (container : Container) (stack : List Frame)
  | finished (value : Json)

namespace Expectation

def depthLimit : Nat := 127

def finish (value : Json) : List Frame → Expectation
  | [] => .finished value
  | .element reversed :: stack => .separator (.array (value :: reversed)) stack
  | .member reversed key :: stack => .separator (.object ((key, value) :: reversed)) stack

/-- Starts a value inside the open containers. -/
def beginValue (stack : List Frame) : Token → Option Expectation
  | .leaf value => some (finish value stack)
  | .openBracket => if stack.length < depthLimit then some (.firstElement stack) else none
  | .openBrace => if stack.length < depthLimit then some (.firstKey stack) else none
  | _ => none

def beginMember (reversed : List (String × Json)) (stack : List Frame)
    : Token → Option Expectation
  | .leaf (.str key) => some (.colonAfter reversed key stack)
  | _ => none

def step (expectation : Expectation) (token : Token) : Option Expectation :=
  match expectation, token with
  | .anyValue stack, token => beginValue stack token
  | .firstElement stack, .closeBracket => some (finish (.arr []) stack)
  | .firstElement stack, token => beginValue (.element [] :: stack) token
  | .firstKey stack, .closeBrace => some (finish (.obj []) stack)
  | .firstKey stack, token => beginMember [] stack token
  | .nextKey reversed stack, token => beginMember reversed stack token
  | .colonAfter reversed key stack, .colon => some (.anyValue (.member reversed key :: stack))
  | .separator (.array reversed) stack, .comma => some (.anyValue (.element reversed :: stack))
  | .separator (.array reversed) stack, .closeBracket =>
      some (finish (.arr reversed.reverse) stack)
  | .separator (.object reversed) stack, .comma => some (.nextKey reversed stack)
  | .separator (.object reversed) stack, .closeBrace =>
      some (finish (.obj reversed.reverse) stack)
  | _, _ => none

end Expectation

/-- The value that a list of tokens spells. -/
def ofTokens? (tokens : List Token) : Option Json :=
  match tokens.foldlM Expectation.step (.anyValue []) with
  | some (.finished value) => some value
  | _ => none

def parse? (text : String) : Option Json :=
  (Token.ofText? text).bind ofTokens?

end HintServer.Json
