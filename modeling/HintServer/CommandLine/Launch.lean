import HintServer.Catalog.Builtin
import HintServer.Catalog.Json
import HintServer.CommandLine.Options
import HintServer.Json.Printer
import HintServer.Server.Config

/-! What the program does for a command line: print something, fail, or serve.
Printing the catalog comes before everything else that the options ask for.
-/

namespace HintServer.CommandLine

/-- What the program does when it starts. -/
inductive Launch where
  | print (text : String)
  | fail (status : Nat) (report : String)
  | serve (config : Config)
deriving DecidableEq, Repr

/-- The exit status that the program ends with; serving ends when the input does. -/
def Launch.status : Launch → Nat
  | .print _ => 0
  | .fail status _ => status
  | .serve _ => 0

def usage : String := "Usage: utilhint-lsp [OPTIONS]"

def helpText : String :=
  "Language Server for JavaScript/TypeScript utility helpers\n"
    ++ "\n"
    ++ usage ++ "\n"
    ++ "\n"
    ++ "Options:\n"
    ++ "      --stdio          Use stdio for communication (required)\n"
    ++ "      --debug          Enable debug mode\n"
    ++ "      --language <ID>  Language id to serve; repeat for several "
    ++ "(default: javascript, typescript)\n"
    ++ "      --dump-catalog   Print the utility catalog as JSON and exit\n"
    ++ "  -h, --help           Print help\n"

/-- The report of a mistake with a hint how the program is called. -/
def mistakeReport (mistake : Mistake) : String :=
  "error: " ++ mistake.message ++ "\n\n" ++ usage
    ++ "\n\nFor more information, try '--help'.\n"

def catalogText : String :=
  Catalog.builtin.toJson.pretty ++ "\n"

def launchWith (options : Options) : Launch :=
  if options.dumpCatalog then .print catalogText
  else if options.stdio then .serve (.ofLanguages options.debug options.languages)
  else .fail 1 "Error: --stdio flag is required\n"

def launch (arguments : List String) : Launch :=
  match read arguments with
  | .error mistake => .fail 2 (mistakeReport mistake)
  | .ok .help => .print helpText
  | .ok (.options options) => launchWith options

end HintServer.CommandLine
