import HintServer.Json.Basic

/-! What the server tells a client about itself when a session begins. -/

namespace HintServer

/-- How a client sends changes of a document. -/
inductive TextSync where
  | full
  | incremental
deriving DecidableEq, Repr

def TextSync.code : TextSync → Nat
  | .full => 1
  | .incremental => 2

/-- What a server can do. -/
structure Capabilities where
  completionTriggers : List String
  hover : Bool
  textSync : TextSync
deriving DecidableEq, Repr

namespace Capabilities

/-- Completion is also asked for after a dot, and changes carry the whole text. -/
def server : Capabilities :=
  { completionTriggers := ["."], hover := true, textSync := .full }

def toJson (capabilities : Capabilities) : Json :=
  .obj
    [
      ("completionProvider",
        .obj [("triggerCharacters", .ofTexts capabilities.completionTriggers)]),
      ("hoverProvider", .bool capabilities.hover),
      ("textDocumentSync", .ofNat capabilities.textSync.code)
    ]

end Capabilities

/-- The name and the version that a server gives itself. -/
structure ServerInfo where
  name : String
  version : String
deriving DecidableEq, Repr

namespace ServerInfo

def current : ServerInfo := { name := "utilhint-lsp", version := "0.1.0" }

def toJson (info : ServerInfo) : Json :=
  .obj [("name", .str info.name), ("version", .str info.version)]

end ServerInfo

end HintServer
