/-! The settings of a server: whether it traces its work and which languages it serves. -/

namespace HintServer

/-- The settings of a server. -/
structure Config where
  debug : Bool
  languages : List String
deriving DecidableEq, Repr

namespace Config

def defaultLanguages : List String := ["javascript", "typescript"]

/-- Settings that name languages; naming none selects the default ones. -/
def ofLanguages (debug : Bool) (languages : List String) : Config :=
  { debug, languages := if languages.isEmpty then defaultLanguages else languages }

def standard : Config := ofLanguages false []

def supports (config : Config) (languageId : String) : Bool :=
  config.languages.contains languageId

end Config

end HintServer
