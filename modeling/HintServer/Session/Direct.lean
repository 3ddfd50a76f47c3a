import HintServer.Server.Handler
import HintServer.Session.Method

/-! A session without a life cycle: each message calls the server at once.
A message whose method or parameters are refused leaves no trace.
-/

namespace HintServer.Direct

/-- Why a message makes no call. -/
inductive Refusal where
  | unknownMethod
  | invalidParams
deriving DecidableEq, Repr

def Refusal.label : Refusal → String
  | .unknownMethod => "UnknownMethod"
  | .invalidParams => "InvalidParams"

def method? (message : Json) : Option Method :=
  ((message.field? "method").bind Json.text?).bind Method.ofName?

/-- The call that a message makes; the parameters of `shutdown` do not count. -/
def call (message : Json) : Except Refusal Call :=
  match method? message with
  | none | some .exit | some .definition => .error .unknownMethod
  | some .shutdown => .ok .shutdown
  | some method =>
      match method.action (message.field? "params") with
      | .ok (.call call) => .ok call
      | _ => .error .invalidParams

def step (config : Config) (store : Store) (message : Json)
    : Store × Except Refusal Outcome :=
  match call message with
  | .error refusal => (store, .error refusal)
  | .ok call =>
      let (store, outcome) := Server.handle config store call
      (store, .ok outcome)

def run (config : Config) (store : Store) (messages : List Json)
    : Store × List (Except Refusal Outcome) :=
  replay (step config) store messages

end HintServer.Direct
