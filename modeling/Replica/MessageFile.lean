import Replica.Message.Json
/-! Files of messages, one in a line. Lines of white space and comments, which start with a number
sign, hold none; white space around a message does not matter. -/
namespace Replica

/-- A line that holds a message. -/
structure MessageLine where
  /-- The number of the line, counted from one. -/
  number : Nat
  /-- The message, or why the line cannot be read. -/
  message : Except ProtocolError Message

namespace MessageFile

/-- The lines of a text, without the line breaks between them. -/
def splitLines : List Char → List (List Char)
  | [] => [[]]
  | '\n' :: cs => [] :: splitLines cs
  | c :: cs =>
    match splitLines cs with
    | [] => [[c]]
    | line :: lines => (c :: line) :: lines

/-- Whether a line without white space at its ends holds a message. -/
def isMessage : List Char → Bool
  | [] => false
  | c :: _ => c != '#'

/-- The message of a line, if the line holds one. -/
def readLine (number : Nat) (line : List Char) : Option MessageLine :=
  let content := Text.trimChars line
  if isMessage content then some ⟨number, Message.ofJson (String.ofList content)⟩ else none

/-- The messages of lines of which the first has the given number. -/
def readLines (number : Nat) : List (List Char) → List MessageLine
  | [] => []
  | line :: lines => (readLine number line).toList ++ readLines (number + 1) lines

/-- The messages of a text. -/
def parse (text : String) : List MessageLine := readLines 1 (splitLines text.toList)

/-- The messages that could be read, in order. -/
def messages (lines : List MessageLine) : List Message := lines.filterMap (·.message.toOption)

end MessageFile

end Replica
