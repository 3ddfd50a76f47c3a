import HintServer.Json.Printer
import HintServer.Session.Method

/-! Messages between client and server: what a client may send and what it is answered.
A message with an identifier is a request and is answered under it; one without is not.
-/

namespace HintServer

/-- The name a client gives a request; null is a name too. -/
inductive RequestId where
  | null
  | number (value : Int)
  | text (value : String)
deriving DecidableEq, Repr

namespace RequestId

/-- Reads an identifier: a 64-bit integer, a string or null. -/
def ofJson? : Json → Option RequestId
  | .null => some .null
  | .int value =>
      if Int64.minValue.toInt ≤ value ∧ value ≤ Int64.maxValue.toInt then some (.number value)
      else none
  | .str label => some (.text label)
  | _ => none

def toJson : RequestId → Json
  | .null => .null
  | .number value => .int value
  | .text value => .str value

end RequestId

/-- A request or notification. -/
structure Message where
  method : String
  params : Option Json
  id : Option RequestId

/-- Reads a message; one without a method has the empty method, and parameters that are null
are still given.
-/
def Message.ofJson? : Json → Option Message
  | .obj members => do
      let value := Json.obj members
      let method ←
        match value.field? "method" with
        | none => some ""
        | some method => method.text?
      let id ←
        match value.field? "id" with
        | none => some none
        | some id => (RequestId.ofJson? id).map some
      some { method, params := value.field? "params", id }
  | _ => none

/-- Why a request gets no result. -/
inductive Fault where
  | unknownMethod (method : String)
  | notOffered
  | notInitialized
  | invalidRequest
  | invalidParams (problem : Params.Problem)

namespace Fault

def code : Fault → Int
  | .unknownMethod _ | .notOffered => -32601
  | .notInitialized => -32002
  | .invalidRequest => -32600
  | .invalidParams _ => -32602

def message : Fault → String
  | .unknownMethod _ | .notOffered => "Method not found"
  | .notInitialized => "Server not initialized"
  | .invalidRequest => "Invalid request"
  | .invalidParams .missing => "Missing params field"
  | .invalidParams (.unexpected params) => "Unexpected params: " ++ params.compact
  | .invalidParams .malformed => "Invalid params"

/-- What a fault adds to its report: an unknown method is named. -/
def data? : Fault → Option Json
  | .unknownMethod method => some (.str method)
  | _ => none

def toJson (fault : Fault) : Json :=
  .obj
    ([("code", .int fault.code), ("message", .str fault.message)]
      ++ (fault.data?.map fun data => ("data", data)).toList)

end Fault

/-- What a message is answered. -/
inductive Response where
  | silence
  | result (id : RequestId) (reply : Reply)
  | fault (id : RequestId) (fault : Fault)
  | notARequest
  | exited

/-- The answer to a message that meets a fault: one without an identifier gets none. -/
def Message.refuse (message : Message) (fault : Fault) : Response :=
  match message.id with
  | some id => .fault id fault
  | none => .silence

/-- The answer to a message that was run. -/
def Response.ofReply (id : Option RequestId) (reply : Reply) : Response :=
  match id with
  | some id => .result id reply
  | none => .silence

end HintServer
