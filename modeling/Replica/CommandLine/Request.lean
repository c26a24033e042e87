import Replica.Replay.Basic
/-! What a user asks for on the command line. Options are given by a long name, with their value after
an equals sign or in the next word, or by a letter; letters of switches can stand together. Each may
be given once, and only where it belongs. -/
namespace Replica.CommandLine

/-- How results are written. -/
inductive Format where
  | text
  | json
  deriving DecidableEq, Repr

/-- The format of a name; an unknown name stands for text. -/
def Format.ofName (name : String) : Format := if name == "json" then .json else .text

/-- What is to be done. -/
inductive Request where
  /-- Apply a file of messages. -/
  | replay (input config : String) (options : ReplayOptions) (format : Format)
  /-- Check a file of messages. -/
  | inspect (input : String) (config : Option String) (format : Format)
  /-- Tell the version. -/
  | version
  /-- Tell the version in short. -/
  | shortVersion
  /-- Tell how the program is used. -/
  | help
  deriving DecidableEq

/-- An option: its long name, its letter if it has one, and whether it takes a value. -/
structure OptionSpec where
  /-- The long name. -/
  name : String
  /-- The letter. -/
  letter : Option Char
  /-- The option takes a value; otherwise it is a switch. -/
  takesValue : Bool
  deriving DecidableEq

/-- The switch that belongs everywhere. -/
def verbose : OptionSpec := ⟨"verbose", some 'v', false⟩

/-- The switch that asks for help, everywhere. -/
def help : OptionSpec := ⟨"help", some 'h', false⟩

/-- The switch that asks for the version, before any command. -/
def version : OptionSpec := ⟨"version", some 'V', false⟩

/-- The options before any command. -/
def topOptions : List OptionSpec := [verbose, help, version]

/-- The options of checking. -/
def inspectOptions : List OptionSpec :=
  [⟨"input", some 'i', true⟩, ⟨"config", some 'c', true⟩, ⟨"format", some 'f', true⟩, verbose, help]

/-- The options of applying. -/
def replayOptions : List OptionSpec :=
  [⟨"input", some 'i', true⟩, ⟨"config", some 'c', true⟩, ⟨"include-deleted", none, false⟩,
    ⟨"sequential", none, false⟩, ⟨"organic-wait-ms", none, true⟩, ⟨"force-wait-ms", none, true⟩,
    ⟨"format", some 'f', true⟩, verbose, help]

/-- Options given, each with its value; a switch has none. -/
abbrev Given := List (String × Option String)

/-- Something in a word. -/
inductive Piece where
  /-- A switch, or an option with its value. -/
  | given (name : String) (value : Option String)
  /-- An option whose value is the next word. -/
  | open_ (name : String)

/-- The switches and the option that letters stand for; the rest after an option's letter is its
value. -/
def pieces? (specs : List OptionSpec) : List Char → Option (List Piece)
  | [] => some []
  | c :: cs => do
    let spec ← specs.find? (·.letter == some c)
    if spec.takesValue then
      match cs with
      | [] => return [.open_ spec.name]
      | '=' :: value => return [.given spec.name (some (String.ofList value))]
      | value => return [.given spec.name (some (String.ofList value))]
    else
      let rest ← pieces? specs cs
      return .given spec.name none :: rest

/-- What a word that starts with two strokes stands for. -/
def longPiece? (specs : List OptionSpec) (word : List Char) : Option Piece := do
  let (name, rest) := word.span (· != '=')
  let spec ← specs.find? (·.name == String.ofList name)
  match spec.takesValue, rest with
  | true, [] => return .open_ spec.name
  | true, _ :: value => return .given spec.name (some (String.ofList value))
  | false, [] => return .given spec.name none
  | false, _ => none

/-- Whether a word can be the value of an option: it does not look like an option. -/
def canBeValue (word : String) : Bool :=
  match word.toList with
  | '-' :: _ :: _ => false
  | _ => true

/-- What came of reading words. -/
inductive Scan where
  /-- The options given, and the words left from the first that is none. -/
  | words (given : Given) (rest : List String)
  /-- Help or the version was asked for. -/
  | asked (request : Request)
  /-- The words make no sense. -/
  | refused

/-- Takes pieces of a word: the options given so far, and the option that waits for a value. -/
def takePieces (given : Given) : List Piece → Sum Scan (Given × Option String)
  | [] => .inr (given, none)
  | .open_ name :: _ =>
    if given.any (·.1 == name) then .inl .refused else .inr (given, some name)
  | .given name value :: pieces =>
    if name == help.name then .inl (.asked .help)
    else if name == version.name then .inl (.asked .shortVersion)
    else if given.any (·.1 == name) then .inl .refused
    else takePieces (given ++ [(name, value)]) pieces

/-- Reads options up to the first word that is none. After two strokes alone no option follows. -/
def scan (specs : List OptionSpec) (given : Given) : List String → Scan
  | [] => .words given []
  | word :: rest =>
    let pieces? : Option (List Piece) :=
      match word.toList with
      | '-' :: '-' :: [] => none
      | '-' :: '-' :: name => (longPiece? specs name).map ([·])
      | '-' :: c :: cs => pieces? specs (c :: cs)
      | _ => none
    if word == "--" then if rest.isEmpty then .words given [] else .refused
    else if canBeValue word then .words given (word :: rest)
    else
      match pieces?.map (takePieces given) with
      | none => .refused
      | some (.inl result) => result
      | some (.inr (given, none)) => scan specs given rest
      | some (.inr (given, some name)) =>
        match rest with
        | value :: rest =>
          if canBeValue value then scan specs (given ++ [(name, some value)]) rest else .refused
        | [] => .refused

/-- The value of an option. -/
def valueOf? (given : Given) (name : String) : Option String :=
  (given.find? (·.1 == name)).bind (·.2)

/-- Whether a switch was given. -/
def isOn (given : Given) (name : String) : Bool := given.any (·.1 == name)

/-- A number of 64 bits in digits, with a plus sign or without. -/
def number? (text : String) : Option Nat :=
  let digits :=
    match text.toList with
    | '+' :: cs => cs
    | cs => cs
  if digits.isEmpty || !digits.all Char.isDigit then none
  else
    let n := digits.foldl (fun n c => 10 * n + (c.toNat - '0'.toNat)) 0
    if n < 18446744073709551616 then some n else none

/-- A length of time that was given in milliseconds, if it was; none if the value is no number. -/
def millis? (given : Given) (name : String) : Option (Option Duration) :=
  match valueOf? given name with
  | none => some none
  | some text => (number? text).map fun n => some (Duration.millis n)

/-- A path; the empty text is none. -/
def path? (given : Given) (name : String) : Option String :=
  (valueOf? given name).filter fun path => !path.isEmpty

/-- The format asked for. -/
def formatOf (given : Given) : Format := Format.ofName ((valueOf? given "format").getD "text")

/-- The request to apply a file. -/
def replay? (given : Given) : Option Request := do
  let input ← path? given "input"
  let config ← path? given "config"
  let organicWait ← millis? given "organic-wait-ms"
  let forceSyncWait ← millis? given "force-wait-ms"
  return .replay input config
    { includeDeleted := isOn given "include-deleted"
      sequential := isOn given "sequential"
      organicWait, forceSyncWait }
    (formatOf given)

/-- The request to check a file. -/
def inspect? (given : Given) : Option Request := do
  let input ← path? given "input"
  let config ←
    match valueOf? given "config" with
    | none => some none
    | some _ => (path? given "config").map some
  return .inspect input config (formatOf given)

/-- The names of the commands. -/
def commandNames : List String := ["replay", "inspect", "version", "help"]

/-- The request of a command and the words after it. -/
def command? (name : String) (words : List String) : Option Request :=
  let withOptions (specs : List OptionSpec) (request? : Given → Option Request) : Option Request :=
    match scan specs [] words with
    | .words given [] => request? given
    | .words _ _ => none
    | .asked request => some request
    | .refused => none
  match name with
  | "replay" => withOptions replayOptions replay?
  | "inspect" => withOptions inspectOptions inspect?
  | "version" => withOptions [verbose, help] fun _ => some .version
  | "help" =>
    match words with
    | [] => some .help
    | [name] => if commandNames.contains name then some .help else none
    | _ => none
  | _ => none

/-- The request of the words of a command line, if they make one. -/
def Request.ofWords? (words : List String) : Option Request :=
  match scan topOptions [] words with
  | .words _ (name :: rest) => command? name rest
  | .words _ [] => none
  | .asked request => some request
  | .refused => none

end Replica.CommandLine
