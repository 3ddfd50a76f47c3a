import HintServer.Json.Basic

/-! Messages that the server sends to be shown in the client's log. -/

namespace HintServer

/-- The weight of a log message. -/
inductive Severity where
  | error
  | info
deriving DecidableEq, Repr

def Severity.code : Severity → Nat
  | .error => 1
  | .info => 3

/-- A line for the client's log. -/
structure LogMessage where
  severity : Severity
  text : String
deriving DecidableEq, Repr

namespace LogMessage

/-- The mark of lines that are sent for debugging only. -/
def debugMark : String := "[DEBUG] "

def trace (text : String) : LogMessage :=
  { severity := .info, text := debugMark ++ text }

def method : String := "window/logMessage"

def toJson (message : LogMessage) : Json :=
  .obj [("message", .str message.text), ("type", .ofNat message.severity.code)]

end LogMessage

end HintServer
