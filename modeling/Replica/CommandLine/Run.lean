import Replica.CommandLine.Request
import Replica.Inspection
import Replica.Replay.Printer
import Replica.Subscriber.Reader
import Replica.Text.Utf8
/-! What the command line program does: the texts it writes and the code it ends with, as a function
of the words it is given and the files there are. -/
namespace Replica.CommandLine

/-- Why a file cannot be read. -/
inductive FileError where
  | notFound
  | isDirectory
  | notDirectory
  | notText
  deriving DecidableEq, Repr

/-- The words for an error of the system. -/
def FileError.systemText (code : Nat) (kind message : String) : String :=
  "Os \x7b code: " ++ toString code ++ ", kind: " ++ kind ++ ", message: " ++ Text.quoted message ++
    " \x7d"

/-- The words for a file that cannot be read. -/
def FileError.text : FileError → String
  | notFound => systemText 2 "NotFound" "No such file or directory"
  | isDirectory => systemText 21 "IsADirectory" "Is a directory"
  | notDirectory => systemText 20 "NotADirectory" "Not a directory"
  | notText =>
    "Error \x7b kind: InvalidData, message: " ++ Text.quoted "stream did not contain valid UTF-8" ++
      " \x7d"

/-- The files there are. -/
abbrev Files := String → Except FileError (List UInt8)

/-- The parts of a path that count. -/
def pathParts (path : String) : List String :=
  (path.splitOn "/").filter fun part => part != "" && part != "."

/-- The files of a directory that holds these and nothing else. -/
def Files.ofList (files : List (String × List UInt8)) : Files := fun path =>
  let parts := pathParts path
  let inside := !path.startsWith "/"
  match files.find? fun file => inside && pathParts file.1 == parts with
  | some file => if path.endsWith "/" || path.endsWith "/." then .error .notDirectory else .ok file.2
  | none =>
    if parts.isEmpty then .error .isDirectory
    else if files.any fun file => inside && (pathParts file.1).isPrefixOf parts then
      .error .notDirectory
    else if files.any fun file => inside && parts.isPrefixOf (pathParts file.1) then
      .error .isDirectory
    else .error .notFound

/-- The text of a file. -/
def readText (files : Files) (path : String) : Except FileError String := do
  match Text.ofUtf8? (← files path) with
  | some text => return text
  | none => throw .notText

/-- What the program leaves: its code and what it wrote. -/
structure Effect where
  /-- The code; zero is success. -/
  code : Nat
  /-- What it wrote as its result. -/
  out : String
  /-- What it wrote about a failure. -/
  err : String
  deriving DecidableEq

/-- Why the program fails. -/
inductive Failure where
  /-- The description of the subscriber cannot be read. -/
  | config (path : String) (error : FileError)
  /-- The description of the subscriber is refused. -/
  | badConfig (error : Subscriber.ConfigError)
  /-- The messages cannot be read. -/
  | messages (error : FileError)
  /-- Some messages are not as they should be. -/
  | invalid (count total : Nat)
  /-- The messages could not be applied. -/
  | unfinished
  deriving DecidableEq

/-- The words for a failure. -/
def Failure.text : Failure → String
  | config path error =>
    "Io \x7b path: " ++ Text.quoted path ++ ", source: " ++ error.text ++ " \x7d"
  | badConfig (.parse fault) => "Parse(Error(" ++ Text.quoted fault.message ++ "))"
  | badConfig error => "Invalid(" ++ Text.quoted error.detail ++ ")"
  | messages error => error.text
  | invalid count total =>
    Text.quoted (toString count ++ " of " ++ toString total ++ " messages invalid")
  | unfinished => Text.quoted "replay did not finish"

/-- Lines of text, each with a line break. -/
def unlines (lines : List String) : String := String.join (lines.map (· ++ "\n"))

/-- The effect of a failure after some output. -/
def Effect.ofFailure (out : String) (failure : Failure) : Effect :=
  { code := 1, out, err := unlines ["Error: " ++ failure.text] }

/-- The effect of success. -/
def Effect.ofOutput (out : String) : Effect := { code := 0, out, err := "" }

/-- Reads the description of a subscriber. -/
def loadConfig (files : Files) (path : String) : Except Failure Subscriber.Config := do
  let text ← (readText files path).mapError (.config path)
  (Subscriber.Config.ofJson text).mapError .badConfig

/-- Reads a file of messages. -/
def loadMessages (files : Files) (path : String) : Except Failure (List MessageLine) := do
  let text ← (readText files path).mapError .messages
  return MessageFile.parse text

/-- Checks a file of messages. -/
def inspect (files : Files) (input : String) (config : Option String) : Except Failure Inspection := do
  let registry ← config.mapM fun path => return (← loadConfig files path).registry
  let lines ← loadMessages files input
  return Inspection.ofLines input registry lines

/-- Applies a file of messages. -/
def replay (fuel : Nat) (files : Files) (input config : String) (options : ReplayOptions) :
    Except Failure ReplayReport := do
  let config ← loadConfig files config
  let lines ← loadMessages files input
  match Replay.run fuel config options lines with
  | some report => return report
  | none => throw .unfinished

/-- A result in a format. -/
def render (format : Format) (json : Json) (text : List String) : String :=
  match format with
  | .json => json.pretty ++ "\n"
  | .text => unlines text

/-- How the program is used. -/
def usage : String :=
  unlines [
    "Usage: mirrorsync [OPTIONS] <COMMAND>",
    "",
    "Commands:",
    "  replay   Apply a JSON-lines message file to an in-memory mirror",
    "  inspect  Decode and validate a JSON-lines message file",
    "  version  Show version information",
    "  help     Print this message" ]

/-- The version of the program. -/
def versionNumber : String := "0.4.0"

/-- Does what is asked for. -/
def perform (fuel : Nat) (files : Files) : Request → Effect
  | .version => .ofOutput ("MirrorSync CLI v" ++ versionNumber ++ "\n")
  | .shortVersion => .ofOutput ("mirrorsync " ++ versionNumber ++ "\n")
  | .help => .ofOutput usage
  | .inspect input config format =>
    match inspect files input config with
    | .error failure => .ofFailure "" failure
    | .ok found =>
      let out := render format found.json found.text
      if found.invalid = 0 then .ofOutput out
      else .ofFailure out (.invalid found.invalid found.messages)
  | .replay input config options format =>
    match replay fuel files input config options with
    | .error failure => .ofFailure "" failure
    | .ok report => .ofOutput (render format report.json report.text)

/-- Runs the program. Words that make no request end it with code two. -/
def run (fuel : Nat) (files : Files) (words : List String) : Effect :=
  match Request.ofWords? words with
  | none => { code := 2, out := "", err := usage }
  | some request => perform fuel files request

end Replica.CommandLine
