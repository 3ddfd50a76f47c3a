import HintServer.Json.Parser
import HintServer.Session.Rpc
import HintServer.Wire.Frame

/-! A session over a stream of bytes.
Each frame is read as a message and answered by frames; a frame that holds no message ends the
session with a report.
-/

namespace HintServer.Wire

def protocolVersion : String := "2.0"

def envelope (id : RequestId) (name : String) (value : Json) : Json :=
  .obj [("jsonrpc", .str protocolVersion), (name, value), ("id", id.toJson)]

def unreadable : Json :=
  envelope .null "error" (.obj [("code", .int (-32700)), ("message", .str "Parse error")])

/-- The answer that goes out for a response. -/
def responseJson? : Response → Option Json
  | .silence | .exited => none
  | .result id reply => some (envelope id "result" (.ofOption reply.result?))
  | .fault id fault => some (envelope id "error" fault.toJson)
  | .notARequest => some (envelope .null "error" Fault.invalidRequest.toJson)

def logJson (message : LogMessage) : Json :=
  .obj
    [
      ("jsonrpc", .str protocolVersion),
      ("method", .str LogMessage.method),
      ("params", message.toJson)
    ]

/-- Tells whether a value is an answer of the client, which nobody waits for. -/
def isResponse (value : Json) : Bool :=
  ((value.field? "id").bind RequestId.ofJson?).isSome
    && ((value.field? "result").isSome || (value.field? "error").isSome)

/-- Tells whether a value names the version of the protocol. -/
def namesVersion (value : Json) : Bool :=
  (value.field? "jsonrpc").bind Json.text? == some protocolVersion

/-- A session over a stream: its state, the bytes of the frame that is still open and whether
it still listens.
-/
structure Connection where
  session : Rpc.State
  pending : List UInt8
  listening : Bool

def Connection.fresh : Connection :=
  { session := .fresh, pending := [], listening := true }

/-- Answers the body of a frame. Without a message in it the session ends with a report; an
empty body is skipped.
-/
def Connection.answer (config : Config) (connection : Connection) (body : List UInt8)
    : Connection × List Json :=
  if body.isEmpty then (connection, [])
  else
    let refuse (report : Json) : Connection × List Json :=
      ({ connection with listening := false }, [report])
    match (String.fromUTF8? body.toByteArray).bind Json.parse? with
    | none => refuse unreadable
    | some value =>
        if !namesVersion value then refuse (envelope .null "error" Fault.invalidRequest.toJson)
        else if isResponse value then (connection, [])
        else
          let (session, answer) := Rpc.step config connection.session value
          let listening :=
            match answer.response with
            | .exited | .notARequest => false
            | _ => true
          ({ connection with session, listening },
            (responseJson? answer.response).toList ++ answer.log.map logJson)

/-- Answers all frames that have arrived; a frame takes at least one byte, so that as many
rounds as there are bytes suffice.
-/
def Connection.drain (config : Config) : Nat → Connection → Connection × List Json
  | 0, connection => (connection, [])
  | rounds + 1, connection =>
      if !connection.listening then (connection, [])
      else
        match arrival connection.pending with
        | .unfinished _ => (connection, [])
        | .broken => ({ connection with listening := false }, [unreadable])
        | .frame body rest =>
            let (connection, answers) :=
              Connection.answer config { connection with pending := rest } body
            let (connection, more) := Connection.drain config rounds connection
            (connection, answers ++ more)

/-- Takes bytes from the stream. -/
def Connection.receive (config : Config) (connection : Connection) (bytes : List UInt8)
    : Connection × List Json :=
  let pending := connection.pending ++ bytes
  Connection.drain config pending.length { connection with pending }

/-- What is reported at the end of the stream: a frame that was cut short. -/
def Connection.finish (connection : Connection) : List Json :=
  if !connection.listening then []
  else
    match arrival connection.pending with
    | .unfinished [] => []
    | _ => [unreadable]

def frames (messages : List Json) : String :=
  String.join (messages.map fun message => frame message.compact)

/-- All that a session writes on a stream that holds these bytes. -/
def transcript (config : Config) (bytes : List UInt8) : String :=
  let (connection, answers) := Connection.receive config .fresh bytes
  frames (answers ++ connection.finish)

end HintServer.Wire
