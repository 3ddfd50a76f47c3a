import HintServer.Session.Params

/-! The methods that messages name, and the calls that they make.
A method is either asked, which wants an answer, or told, which wants none.
-/

namespace HintServer

/-- A method of the protocol. -/
inductive Method where
  | handshake
  | initialized
  | shutdown
  | exit
  | didOpen
  | didChange
  | didClose
  | hover
  | completion
  | definition
deriving DecidableEq, Repr

namespace Method

def name : Method → String
  | .handshake => "initialize"
  | .initialized => "initialized"
  | .shutdown => "shutdown"
  | .exit => "exit"
  | .didOpen => "textDocument/didOpen"
  | .didChange => "textDocument/didChange"
  | .didClose => "textDocument/didClose"
  | .hover => "textDocument/hover"
  | .completion => "textDocument/completion"
  | .definition => "textDocument/definition"

def all : List Method :=
  [.handshake, .initialized, .shutdown, .exit, .didOpen, .didChange, .didClose, .hover,
    .completion, .definition]

def ofName? (name : String) : Option Method :=
  all.find? (fun method => method.name = name)

/-- Tells whether a method only tells something. -/
def isNotification : Method → Bool
  | .initialized | .exit | .didOpen | .didChange | .didClose => true
  | .handshake | .shutdown | .hover | .completion | .definition => false

/-- What a method with its parameters does: a call of the server, or nothing for a method
that the server does not offer.
-/
inductive Action where
  | call (call : Call)
  | exit
  | notOffered

/-- Reads the action of a method; `shutdown` and `exit` have no parameters. -/
def action (method : Method) (params : Option Json) : Except Params.Problem Action :=
  let served (read : Json → Option Call) : Except Params.Problem Action :=
    (Params.required read params).map .call
  match method with
  | .handshake => served Params.handshake?
  | .initialized => served Params.initialized?
  | .shutdown => (Params.absent Call.shutdown params).map .call
  | .exit => .ok .exit
  | .didOpen => served Params.didOpen?
  | .didChange => served Params.didChange?
  | .didClose => served Params.didClose?
  | .hover => served Params.hover?
  | .completion => served Params.completion?
  | .definition => (Params.required Params.query? params).map fun _ => .notOffered

end Method

end HintServer
