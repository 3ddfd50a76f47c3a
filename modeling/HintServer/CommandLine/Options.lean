import HintServer.Text.Cut

/-! The options of the command line.
Arguments are read from left to right, and the first mistake or request for help decides.
-/

namespace HintServer.CommandLine

/-- An option that is present or absent. -/
inductive Flag where
  | stdio
  | debug
  | dumpCatalog
deriving DecidableEq, Repr

namespace Flag

def name : Flag → String
  | .stdio => "stdio"
  | .debug => "debug"
  | .dumpCatalog => "dump-catalog"

/-- The flags that a name can mean. -/
def all : List Flag := [.stdio, .debug, .dumpCatalog]

def ofName? (name : String) : Option Flag :=
  all.find? (fun flag => flag.name = name)

end Flag

/-- The options that were given. -/
structure Options where
  stdio : Bool
  debug : Bool
  dumpCatalog : Bool
  languages : List String
deriving DecidableEq, Repr

namespace Options

def none : Options :=
  { stdio := false, debug := false, dumpCatalog := false, languages := [] }

def has (options : Options) : Flag → Bool
  | .stdio => options.stdio
  | .debug => options.debug
  | .dumpCatalog => options.dumpCatalog

def set (options : Options) : Flag → Options
  | .stdio => { options with stdio := true }
  | .debug => { options with debug := true }
  | .dumpCatalog => { options with dumpCatalog := true }

/-- Adds a language after those given before. -/
def addLanguage (options : Options) (language : String) : Options :=
  { options with languages := options.languages ++ [language] }

end Options

/-- A mistake on the command line. -/
inductive Mistake where
  | unexpectedArgument (argument : String)
  | unexpectedValue (option value : String)
  | missingLanguage
  | repeated (flag : Flag)
deriving DecidableEq, Repr

def Mistake.message : Mistake → String
  | .unexpectedArgument argument => "unexpected argument '" ++ argument ++ "' found"
  | .unexpectedValue option value =>
      "unexpected value '" ++ value ++ "' for '--" ++ option
        ++ "' found; no more were expected"
  | .missingLanguage => "a value is required for '--language <ID>' but none was supplied"
  | .repeated flag => "the argument '--" ++ flag.name ++ "' cannot be used multiple times"

/-- What an argument looks like: two dashes alone, a long option with a value after an equals
sign, a short option by its first letter, or a plain word.
-/
inductive Argument where
  | terminator
  | long (name : String) (value : Option String)
  | short (letter : Char)
  | plain (text : String)
deriving DecidableEq, Repr

/-- The look of an argument; a lone dash is a plain word. -/
def Argument.ofString (text : String) : Argument :=
  match text.toList with
  | ['-', '-'] => .terminator
  | '-' :: '-' :: rest =>
      let (name, value) := Text.cutFirst (· == '=') rest
      .long (String.ofList name) (value.map String.ofList)
  | '-' :: letter :: _ => .short letter
  | _ => .plain text

/-- What a command line asks for. -/
inductive Request where
  | help
  | options (options : Options)
deriving DecidableEq, Repr

def languageName : String := "language"

def helpName : String := "help"

def helpLetter : Char := 'h'

def unknownShort (letter : Char) : Mistake :=
  .unexpectedArgument (String.ofList ['-', letter])

/-- The mistake of a long option that is not known; its value is not reported. -/
def unknownLong (name : String) : Mistake :=
  .unexpectedArgument ("--" ++ name)

/-- The mistake when an option stands where the value of `--language` should be, given that
option and the arguments after it: a mistake in the option itself is reported first.
-/
def missingValue (next : Argument) (rest : List String) : Mistake :=
  match next with
  | .terminator =>
      match rest with
      | [] => .missingLanguage
      | argument :: _ => .unexpectedArgument argument
  | .short letter => if letter = helpLetter then .missingLanguage else unknownShort letter
  | .long name value =>
      if name = languageName then .missingLanguage
      else if name = helpName ∨ (Flag.ofName? name).isSome then
        match value with
        | some value => .unexpectedValue name value
        | none => .missingLanguage
      else unknownLong name
  | .plain text => .unexpectedArgument text

/-- Reads a long option other than `--language`. -/
def readLong (options : Options) (name : String) (value : Option String)
    : Except Mistake Request :=
  match Flag.ofName? name, value with
  | some _, some value => .error (.unexpectedValue name value)
  | some flag, none =>
      if options.has flag then .error (.repeated flag) else .ok (.options (options.set flag))
  | none, some value =>
      .error (if name = helpName then .unexpectedValue name value else unknownLong name)
  | none, none => if name = helpName then .ok .help else .error (unknownLong name)

/-- Reads arguments after options that were already read. -/
def readFrom (options : Options) : List String → Except Mistake Request
  | [] => .ok (.options options)
  | argument :: rest =>
      match Argument.ofString argument with
      | .plain text => .error (.unexpectedArgument text)
      | .short letter =>
          if letter = helpLetter then .ok .help else .error (unknownShort letter)
      | .terminator =>
          match rest with
          | [] => .ok (.options options)
          | next :: _ => .error (.unexpectedArgument next)
      | .long name value =>
          if name = languageName then
            match value, rest with
            | some value, rest => readFrom (options.addLanguage value) rest
            | none, [] => .error .missingLanguage
            -- the next argument is the value unless it looks like an option
            | none, next :: rest =>
                match Argument.ofString next with
                | .plain text => readFrom (options.addLanguage text) rest
                | next => .error (missingValue next rest)
          else
            match readLong options name value with
            | .ok (.options options) => readFrom options rest
            | decided => decided

def read (arguments : List String) : Except Mistake Request :=
  readFrom .none arguments

end HintServer.CommandLine
