/-!
# The command line

The program takes the path of a settings file, or is asked for help. Arguments are read from left to
right, and what decides first stands: a call for help answers whatever may follow it, and an
argument that cannot be used ends the reading before a later call for help.
-/

namespace Redirector

/-- What the command line asks for. -/
inductive CommandLine where
  /-- To run, with the settings in a file or, without one, with the defaults. -/
  | run (settings : Option String)
  | help
  deriving DecidableEq, Repr

namespace CommandLine

/-- Why a command line cannot be used. -/
inductive Fault where
  | unexpected (argument : String)
  | noValue
  | repeated
  deriving DecidableEq, Repr

def Fault.message : Fault → String
  | unexpected argument => "error: unexpected argument '" ++ argument ++ "' found"
  | noValue => "error: a value is required for '--config <CONFIG>' but none was supplied"
  | repeated => "error: the argument '--config <CONFIG>' cannot be used multiple times"

/-- The status with which the program ends if its command line cannot be used. -/
def Fault.exitStatus : UInt8 := 2

def usage : String := "Usage: forward-rules [OPTIONS]"

def helpText : String :=
  "Compiles forwarding profiles into declarative network rules\n\n" ++ usage ++ "\n\n" ++
  "Options:\n" ++
  "  -c, --config <CONFIG>  Settings file (TOML). Defaults apply when omitted\n" ++
  "  -h, --help             Print help\n"

/-- An argument by itself. -/
inductive Argument where
  /-- The settings file, whose path may be in the same argument. -/
  | config (path : Option (List Char))
  | help
  /-- The mark behind which no options are expected. -/
  | endOfOptions
  /-- No option: it can only be a value. -/
  | value
  | unknown
  deriving DecidableEq, Repr

/-- What stands in one argument behind the letter of an option; an equals sign may come first. -/
def attached : List Char → Option (List Char)
  | [] => none
  | '=' :: cs => some cs
  | cs => some cs

/-- The argument that some characters are. -/
def Argument.ofChars : List Char → Argument
  | ['-', '-'] => endOfOptions
  | '-' :: '-' :: cs =>
    match cs.span (· ≠ '=') with
    | (name, []) =>
      if name = "config".toList then config none
      else if name = "help".toList then help
      else unknown
    | (name, _ :: path) => if name = "config".toList then config (some path) else unknown
  | ['-'] => value
  | '-' :: 'c' :: cs => config (attached cs)
  | '-' :: 'h' :: _ => help
  | '-' :: _ => unknown
  | _ => value

/-- The path of the settings file, unless it is empty or one was given before. -/
def accept (before : Option String) (path : List Char) : Except Fault (Option String) :=
  if path = [] then .error .noValue
  else if before.isSome then .error .repeated
  else .ok (some (String.ofList path))

/-- Reads arguments behind those that gave some path, or none. -/
def parseFrom : (path : Option String) → List String → Except Fault CommandLine
  | path, [] => .ok (.run path)
  | path, argument :: rest =>
    match Argument.ofChars argument.toList, rest with
    | .help, _ => .ok .help
    | .value, _ | .unknown, _ => .error (.unexpected argument)
    | .endOfOptions, [] => .ok (.run path)
    | .endOfOptions, next :: _ => .error (.unexpected next)
    | .config (some value), rest => do parseFrom (← accept path value) rest
    | .config none, [] => .error .noValue
    | .config none, value :: rest =>
      if Argument.ofChars value.toList = .value then do
        parseFrom (← accept path value.toList) rest
      else .error .noValue

def parse (arguments : List String) : Except Fault CommandLine := parseFrom none arguments

end CommandLine

end Redirector
