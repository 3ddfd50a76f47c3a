import HintServer.Server.Call
import HintServer.Server.Config
import HintServer.Server.Replay
import Std.Data.ExtHashMap

/-! The server answers calls from the documents that are open.
Opening, changing and closing edit the store of documents; hover and completion read it and
serve only the languages of the settings.
-/

namespace HintServer

/-- The open documents by address. -/
abbrev Store := Std.ExtHashMap Uri Document

namespace Server

/-- The trace of a piece of work, which is sent in debug mode only. -/
def trace (config : Config) (text : String) : List LogMessage :=
  if config.debug then [.trace text] else []

def catalogComplaint : List LogMessage :=
  match Catalog.builtin.validate with
  | .ok () => []
  | .error clash => [{ severity := .error, text := "Utility catalog: " ++ clash.message }]

/-- The line that greets the client once a session is set up. -/
def welcome (config : Config) : LogMessage :=
  {
    severity := .info,
    text :=
      "utilhint LSP server initialized (" ++ toString Catalog.builtin.size
        ++ " utilities for " ++ String.intercalate ", " config.languages ++ ")"
  }

/-- The open document at an address, if its language is served. -/
def served? (config : Config) (store : Store) (uri : Uri) : Option Document :=
  store[uri]?.filter fun document => config.supports document.languageId

/-- A document after changes of one version, each of which carries a whole text. -/
def change (document : Document) (version : Int32) (texts : List String) : Document :=
  texts.foldl (fun document text => document.update text version) document

/-- Answers a call and edits the store. -/
def handle (config : Config) (store : Store) : Call → Store × Outcome
  | .handshake =>
      (store,
        {
          reply := .greeting .server .current,
          log := trace config "Initializing utilhint LSP server" ++ catalogComplaint
        })
  | .initialized =>
      (store,
        {
          reply := .silent,
          log := trace config "Server initialized successfully" ++ [welcome config]
        })
  | .shutdown => (∅, { reply := .farewell, log := trace config "Shutting down server" })
  | .didOpen uri languageId version text =>
      let document := Document.ofText text languageId version
      (store.insert uri document,
        {
          reply := .silent,
          log :=
            trace config
              ("Document opened: " ++ uri.text ++ " (" ++ languageId ++ ", "
                ++ toString document.byteCount ++ " bytes)")
        })
  | .didChange uri version texts =>
      match store[uri]? with
      | none => (store, { reply := .silent, log := [] })
      | some document =>
          let document := change document version texts
          (store.insert uri document,
            {
              reply := .silent,
              log :=
                trace config
                  ("Document changed: " ++ uri.text ++ " (v" ++ toString document.version.toInt
                    ++ ", " ++ toString document.byteCount ++ " bytes)")
            })
  | .didClose uri =>
      (store.erase uri,
        { reply := .silent, log := trace config ("Document closed: " ++ uri.text) })
  | .hover uri position =>
      (store,
        {
          reply := .hover ((served? config store uri).bind (·.hover? position)),
          log := trace config ("Hover request at " ++ position.describe)
        })
  | .completion uri position =>
      (store,
        {
          reply := .completion ((served? config store uri).map (·.completions position)),
          log := trace config ("Completion request at " ++ position.describe)
        })

def run (config : Config) (store : Store) (calls : List Call) : Store × List Outcome :=
  replay (handle config) store calls

end Server

end HintServer
