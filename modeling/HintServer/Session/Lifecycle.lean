import HintServer.Session.Message

/-! The life cycle of a session decides which messages reach the server.
A session begins with `initialize`, ends with `shutdown`, and is over after `exit`; what a
message does to the life cycle does not depend on any document.
-/

namespace HintServer

/-- How far a session has come. -/
inductive Phase where
  | uninitialized
  | initialized
  | shutDown
  | exited
deriving DecidableEq, Repr

/-- What becomes of a message: it calls the server or is answered at once. -/
inductive Verdict where
  | run (id : Option RequestId) (call : Call)
  | answer (response : Response)

namespace Phase

/-- The fault of a method that has no place in a phase. -/
def barrier? (phase : Phase) (method : Method) : Option Fault :=
  match phase with
  | .uninitialized => if method = .handshake then none else some .notInitialized
  | .initialized => if method = .handshake then some .invalidRequest else none
  | .shutDown | .exited => some .invalidRequest

/-- Routes a message whose method is admitted. A message that has an identifier must be a
request and one without a notification; then its parameters are read.
-/
def routeAdmitted (phase : Phase) (method : Method) (message : Message) : Phase × Verdict :=
  if method.isNotification = message.id.isSome then
    (phase, .answer (message.refuse .invalidRequest))
  else
    match method.action message.params with
    | .error problem => (phase, .answer (message.refuse (.invalidParams problem)))
    | .ok .notOffered => (phase, .answer (message.refuse .notOffered))
    | .ok .exit => (.exited, .answer .silence)
    | .ok (.call call) =>
        -- every `initialize` that runs succeeds, so that it may count before it is run
        (if method = .handshake then .initialized else phase, .run message.id call)

/-- Routes a message of a known method. An admitted `shutdown` shuts the session down even if
it is refused after that; `initialize` counts only when it runs.
-/
def routeKnown (phase : Phase) (method : Method) (message : Message) : Phase × Verdict :=
  if method = .exit then (.exited, .answer .silence)
  else
    match phase.barrier? method with
    | some fault => (phase, .answer (message.refuse fault))
    | none => routeAdmitted (if method = .shutdown then .shutDown else phase) method message

def route (phase : Phase) (value : Json) : Phase × Verdict :=
  match Message.ofJson? value with
  | none => (phase, .answer .notARequest)
  | some message =>
      if phase = .exited then (phase, .answer .exited)
      else
        match Method.ofName? message.method with
        | none => (phase, .answer (message.refuse (.unknownMethod message.method)))
        | some method => routeKnown phase method message

end Phase

end HintServer
