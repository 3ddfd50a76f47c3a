import HintServer.Document.Completion
import HintServer.Document.Hover
import HintServer.Server.Capabilities
import HintServer.Server.Log
import HintServer.Uri.Basic

/-! The calls that a server takes and what it gives back. -/

namespace HintServer

/-- What a client asks of the server or tells it. -/
inductive Call where
  | handshake
  | initialized
  | shutdown
  | didOpen (uri : Uri) (languageId : String) (version : Int32) (text : String)
  | didChange (uri : Uri) (version : Int32) (texts : List String)
  | didClose (uri : Uri)
  | hover (uri : Uri) (position : Position)
  | completion (uri : Uri) (position : Position)
deriving DecidableEq, Repr

/-- The result of a call; a call that only tells something has a silent one. -/
inductive Reply where
  | silent
  | greeting (capabilities : Capabilities) (info : ServerInfo)
  | farewell
  | hover (found : Option Hover)
  | completion (items : Option (List CompletionItem))
deriving DecidableEq, Repr

def Reply.result? : Reply → Option Json
  | .silent => none
  | .greeting capabilities info =>
      some (.obj [("capabilities", capabilities.toJson), ("serverInfo", info.toJson)])
  | .farewell => some .null
  | .hover found => some (.ofOption (found.map Hover.toJson))
  | .completion items =>
      some (.ofOption (items.map fun items => .arr (items.map CompletionItem.toJson)))

/-- The result of a call together with the log messages sent while it ran. -/
structure Outcome where
  reply : Reply
  log : List LogMessage
deriving DecidableEq, Repr

end HintServer
