import Replica.Json.Basic
import Replica.Text.Hex
/-! JSON texts of trees: compact, and laid out over lines. Only the quotation mark, the backslash and
the control characters below U+0020 are escaped. -/
namespace Replica.Json

/-- One character inside a string. -/
def escapeChar (c : Char) : List Char :=
  if c = '"' then ['\\', '"']
  else if c = '\\' then ['\\', '\\']
  else if c = '\x08' then ['\\', 'b']
  else if c = '\x0c' then ['\\', 'f']
  else if c = '\n' then ['\\', 'n']
  else if c = '\r' then ['\\', 'r']
  else if c = '\t' then ['\\', 't']
  else if c.toNat < 0x20 then
    ['\\', 'u', '0', '0', Text.hexDigit (c.toNat / 16), Text.hexDigit (c.toNat % 16)]
  else [c]

/-- A string in quotation marks. -/
def quote (s : String) : List Char := '"' :: (s.toList.flatMap escapeChar ++ ['"'])

mutual

/-- The compact text: no blanks, members in the order of the tree. -/
def chars : Json → List Char
  | null => ['n', 'u', 'l', 'l']
  | bool true => ['t', 'r', 'u', 'e']
  | bool false => ['f', 'a', 'l', 's', 'e']
  | num n => n.text.toList
  | str s => quote s
  | arr [] => ['[', ']']
  | arr (item :: rest) => '[' :: (chars item ++ itemsTail rest)
  | obj [] => ['{', '}']
  | obj ((name, item) :: rest) => '{' :: (quote name ++ ':' :: (chars item ++ membersTail rest))

/-- What follows an item of an array. -/
def itemsTail : List Json → List Char
  | [] => [']']
  | item :: rest => ',' :: (chars item ++ itemsTail rest)

/-- What follows a member of an object. -/
def membersTail : List (String × Json) → List Char
  | [] => ['}']
  | (name, item) :: rest => ',' :: (quote name ++ ':' :: (chars item ++ membersTail rest))

end

/-- The compact text. -/
def compact (json : Json) : String := String.ofList json.chars

/-- A line break and the blanks of a level, two for each. -/
def newline (level : Nat) : List Char := '\n' :: List.replicate (2 * level) ' '

mutual

/-- The text over lines, each level indented by two blanks. -/
def lines (level : Nat) : Json → List Char
  | arr (item :: rest) =>
    '[' :: (newline (level + 1) ++ lines (level + 1) item ++ linesItems level rest)
  | obj ((name, item) :: rest) =>
    '{' :: (newline (level + 1) ++ quote name ++ ':' :: ' ' :: (lines (level + 1) item ++
      linesMembers level rest))
  | json => json.chars

/-- The lines after an item of an array. -/
def linesItems (level : Nat) : List Json → List Char
  | [] => newline level ++ [']']
  | item :: rest =>
    ',' :: (newline (level + 1) ++ lines (level + 1) item ++ linesItems level rest)

/-- The lines after a member of an object. -/
def linesMembers (level : Nat) : List (String × Json) → List Char
  | [] => newline level ++ ['}']
  | (name, item) :: rest =>
    ',' :: (newline (level + 1) ++ quote name ++ ':' :: ' ' :: (lines (level + 1) item ++
      linesMembers level rest))

end

/-- The text over lines. -/
def pretty (json : Json) : String := String.ofList (json.lines 0)

end Replica.Json
