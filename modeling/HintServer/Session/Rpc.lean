import HintServer.Server.Handler
import HintServer.Session.Lifecycle

/-! A session with a life cycle: messages are routed first, and those that reach the server
are run on the open documents.
-/

namespace HintServer.Rpc

/-- A session between two messages. -/
structure State where
  phase : Phase
  store : Store

def State.fresh : State := { phase := .uninitialized, store := ∅ }

/-- The answer to a message with the log messages sent before it. -/
structure Answer where
  response : Response
  log : List LogMessage

def step (config : Config) (state : State) (value : Json) : State × Answer :=
  match state.phase.route value with
  | (phase, .answer response) => ({ state with phase }, { response, log := [] })
  | (phase, .run id call) =>
      let (store, outcome) := Server.handle config state.store call
      ({ phase, store },
        { response := Response.ofReply id outcome.reply, log := outcome.log })

def run (config : Config) (state : State) (messages : List Json) : State × List Answer :=
  replay (step config) state messages

end HintServer.Rpc
