import HintServer.CommandLine.Launch
import HintServer.Wire.Transport

/-! The program: it prints, fails or serves as its command line asks. -/

namespace HintServer.Program

def chunkSize : USize := 65536

/-- Serves a session on the standard streams until the input ends. -/
def serve (config : Config) : IO Unit := do
  let stdin ← IO.getStdin
  let stdout ← IO.getStdout
  let mut connection := Wire.Connection.fresh
  repeat
    let bytes ← stdin.read chunkSize
    if bytes.isEmpty then break
    let (next, answers) := connection.receive config bytes.toList
    connection := next
    stdout.putStr (Wire.frames answers)
    stdout.flush
  stdout.putStr (Wire.frames connection.finish)
  stdout.flush

/-- Does what the command line asks for and gives the exit status. -/
def run (arguments : List String) : IO UInt32 := do
  let launch := CommandLine.launch arguments
  match launch with
  | .print text => IO.print text
  | .fail _ report => IO.eprint report
  | .serve config => serve config
  return UInt32.ofNat launch.status

end HintServer.Program

def main (arguments : List String) : IO UInt32 :=
  HintServer.Program.run arguments
