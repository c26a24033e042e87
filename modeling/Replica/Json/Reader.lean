import Replica.Json.Fault
import Replica.Text.Hex
/-! Reading JSON from the front of a list of characters. A reader gives what it read and the
characters left, or the first fault met from left to right. Depth counts the containers that may
still be opened. -/
namespace Replica.Json

/-- Reads something from the front of a text. -/
abbrev Reader (α : Type) := List Char → Except Fault (α × List Char)

/-- The four characters that may stand between tokens. -/
def isSpace (c : Char) : Bool := c = ' ' || c = '\n' || c = '\t' || c = '\r'

/-- Skips what may stand between tokens. -/
def skipSpace (cs : List Char) : List Char := cs.dropWhile isSpace

/-- A decimal digit. -/
def isDigit (c : Char) : Bool := '0' ≤ c && c ≤ '9'

/-- The number a decimal digit stands for. -/
def digitValue (c : Char) : Nat := c.toNat - '0'.toNat

/-- Expects the rest of a word. -/
def word : List Char → List Char → Except Fault (List Char)
  | [], cs => .ok cs
  | _ :: _, [] => .error .endInValue
  | w :: ws, c :: cs => if c = w then word ws cs else .error .wordExpected

/-! ### Numbers -/

/-- Takes digits into a whole number as long as it stays below 2^64: the number, how many digits
were taken, and the rest. -/
def significand (n : Nat) : List Char → Nat × Nat × List Char
  | [] => (n, 0, [])
  | c :: cs =>
    if isDigit c ∧ n * 10 + digitValue c < 18446744073709551616 then
      let (m, count, rest) := significand (n * 10 + digitValue c) cs
      (m, count + 1, rest)
    else (n, 0, c :: cs)

/-- The first character, if it is a digit. -/
def startsWithDigit : List Char → Bool
  | c :: _ => isDigit c
  | [] => false

/-- Scales a number by a power of ten, one rounded step after another: by at most 10^308 at once. -/
def scaleByTen (x : Binary64) (exponent : Int) : Option Binary64 :=
  if _h : exponent.natAbs ≤ 308 then
    if 0 ≤ exponent then
      match x * Binary64.ofNat (Nat.pow 10 exponent.natAbs) with
      | .infinite _ => none
      | y => some y
    else some (x / Binary64.ofNat (Nat.pow 10 exponent.natAbs))
  else if x = .finite Finite64.zero then some x
  else if 0 ≤ exponent then none
  else scaleByTen (x / Binary64.ofNat (Nat.pow 10 308)) (exponent + 308)
termination_by exponent.natAbs
decreasing_by omega

/-- The number `n * 10 ^ exponent` with a sign. -/
def floatOf (negative : Bool) (n : Nat) (exponent : Int) : Except Fault Number :=
  match scaleByTen (Binary64.ofNat n) exponent with
  | some (.finite x) => .ok (.float (if negative then x.neg else x))
  | _ => .error .numberOutOfRange

/-- Zero with a sign. -/
def zeroOf (negative : Bool) : Number :=
  .float (if negative then Finite64.zero.neg else Finite64.zero)

/-- Takes the digits of an exponent as long as it stays below 2^31; the flag says that more digits
follow. -/
def exponentDigits (n : Nat) : List Char → Nat × Bool × List Char
  | [] => (n, false, [])
  | c :: cs =>
    if isDigit c then
      if n * 10 + digitValue c < 2147483648 then exponentDigits (n * 10 + digitValue c) cs
      else (n, true, c :: cs)
    else (n, false, c :: cs)

/-- Reads an exponent after its letter and gives the number. -/
def exponentPart (negative : Bool) (n : Nat) (start : Int) (cs : List Char) :
    Except Fault (Number × List Char) :=
  let (down, cs) :=
    match cs with
    | '+' :: cs => (false, cs)
    | '-' :: cs => (true, cs)
    | cs => (false, cs)
  match cs with
  | [] => .error .endInValue
  | c :: cs =>
    if isDigit c then
      match exponentDigits (digitValue c) cs with
      | (_, true, cs) =>
        if n ≠ 0 ∧ !down then .error .numberOutOfRange
        else .ok (zeroOf negative, cs.dropWhile isDigit)
      | (e, false, cs) => do
        let x ← floatOf negative n (if down then start - e else start + e)
        return (x, cs)
    else .error .badNumber

/-- Reads what may follow the digits of a number that is not whole or does not fit. -/
def floatTail (negative : Bool) (n : Nat) (exponent : Int) (cs : List Char) :
    Except Fault (Number × List Char) :=
  match cs with
  | 'e' :: cs => exponentPart negative n exponent cs
  | 'E' :: cs => exponentPart negative n exponent cs
  | cs => do
    let x ← floatOf negative n exponent
    return (x, cs)

/-- Reads the digits after a point. Digits that no longer fit are dropped. -/
def fractionPart (negative : Bool) (n : Nat) (exponent : Int) (cs : List Char) :
    Except Fault (Number × List Char) :=
  let (n, count, rest) := significand n cs
  if startsWithDigit rest then
    floatTail negative n (exponent - count) (rest.dropWhile isDigit)
  else if count = 0 then
    match rest with
    | [] => .error .endInValue
    | _ => .error .badNumber
  else floatTail negative n (exponent - count) rest

/-- A whole number as read: beyond the 64-bit range, and for minus zero, it is a float. -/
def wholeNumber (negative : Bool) (n : Nat) : Except Fault Number :=
  if negative then
    if h : 0 < n ∧ n ≤ 9223372036854775808 then .ok (.int (-n) (by omega))
    else floatOf true n 0
  else if h : n < 18446744073709551616 then .ok (.int n (by omega))
  else floatOf false n 0

/-- Reads what follows the integer digits of a number. -/
def numberTail (negative : Bool) (n : Nat) (cs : List Char) : Except Fault (Number × List Char) :=
  match cs with
  | '.' :: cs => fractionPart negative n 0 cs
  | 'e' :: cs => exponentPart negative n 0 cs
  | 'E' :: cs => exponentPart negative n 0 cs
  | cs => do
    let x ← wholeNumber negative n
    return (x, cs)

/-- Reads a number whose integer digits do not fit: each digit left over counts as a power of
ten. -/
def longNumber (negative : Bool) (n : Nat) (cs : List Char) : Except Fault (Number × List Char) :=
  let exponent := (cs.takeWhile isDigit).length
  match cs.dropWhile isDigit with
  | '.' :: rest => fractionPart negative n exponent rest
  | rest => floatTail negative n exponent rest

/-- Reads a number after its sign. -/
def unsignedNumber (negative : Bool) (cs : List Char) : Except Fault (Number × List Char) :=
  match cs with
  | [] => .error .endInValue
  | '0' :: cs => if startsWithDigit cs then .error .badNumber else numberTail negative 0 cs
  | c :: cs =>
    if isDigit c then
      let (n, _, rest) := significand (digitValue c) cs
      if startsWithDigit rest then longNumber negative n rest else numberTail negative n rest
    else .error .badNumber

/-- Reads a number. -/
def number : Reader Number
  | '-' :: cs => unsignedNumber true cs
  | cs => unsignedNumber false cs

/-! ### Strings -/

/-- Four hexadecimal digits. -/
def hex4? (a b c d : Char) : Option Nat := do
  return (((← Text.hexValue? a) * 16 + (← Text.hexValue? b)) * 16 + (← Text.hexValue? c)) * 16 +
    (← Text.hexValue? d)

/-- A surrogate that comes first in its pair. -/
def isLeading (n : Nat) : Bool := 0xd800 ≤ n && n ≤ 0xdbff

/-- A surrogate that comes second in its pair. -/
def isTrailing (n : Nat) : Bool := 0xdc00 ≤ n && n ≤ 0xdfff

/-- The character of a surrogate pair. -/
def pairChar (lead trail : Nat) : Char :=
  Char.ofNat ((lead - 0xd800) * 0x400 + (trail - 0xdc00) + 0x10000)

/-- The character that a backslash and one letter stand for. -/
def simpleEscape? (c : Char) : Option Char :=
  if c = '"' then some '"'
  else if c = '\\' then some '\\'
  else if c = '/' then some '/'
  else if c = 'b' then some '\x08'
  else if c = 'f' then some '\x0c'
  else if c = 'n' then some '\n'
  else if c = 'r' then some '\r'
  else if c = 't' then some '\t'
  else none

/-- The fault of a hexadecimal escape with fewer than four characters left: the text ends only if
it is less than four bytes long. -/
def shortHexFault (cs : List Char) : Fault :=
  if (String.ofList cs).utf8ByteSize < 4 then .endInString else .badEscape

/-- Reads the second half of a surrogate pair: its code and the rest. -/
def trailingHalf (cs : List Char) : Except Fault Nat :=
  match cs with
  | [] => .error .endInString
  | '\\' :: [] => .error .endInString
  | '\\' :: 'u' :: a :: b :: c :: d :: _ =>
    match hex4? a b c d with
    | none => .error .badEscape
    | some n => if isTrailing n then .ok n else .error .loneSurrogate
  | '\\' :: 'u' :: cs => .error (shortHexFault cs)
  | _ => .error .hexEscapeCut

/-- Reads a string after its opening mark. -/
def stringTail : List Char → Except Fault (List Char × List Char)
  | [] => .error .endInString
  | '"' :: cs => .ok ([], cs)
  | '\\' :: 'u' :: a :: b :: c :: d :: cs =>
    match hex4? a b c d with
    | none => .error .badEscape
    | some n =>
      if isTrailing n then .error .loneSurrogate
      else if isLeading n then
        match trailingHalf cs with
        | .error fault => .error fault
        | .ok m =>
          match cs with
          | _ :: _ :: _ :: _ :: _ :: _ :: cs => do
            let (text, rest) ← stringTail cs
            return (pairChar n m :: text, rest)
          | _ => .error .endInString
      else do
        let (text, rest) ← stringTail cs
        return (Char.ofNat n :: text, rest)
  | '\\' :: 'u' :: cs => .error (shortHexFault cs)
  | '\\' :: [] => .error .endInString
  | '\\' :: c :: cs =>
    match simpleEscape? c with
    | none => .error .badEscape
    | some e => do
      let (text, rest) ← stringTail cs
      return (e :: text, rest)
  | c :: cs =>
    if c.toNat < 0x20 then .error .controlCharacter
    else do
      let (text, rest) ← stringTail cs
      return (c :: text, rest)

/-! ### Values -/

/-- Reads the items of a list after its bracket, and the closing bracket. Each item takes at least
one character, so `fuel` beyond the length of the text is never used up. -/
def items {α : Type} (read : Reader α) : (fuel : Nat) → (first : Bool) → Reader (List α)
  | 0, _, _ => .error .endInList
  | fuel + 1, first, cs =>
    let more (cs : List Char) := do
      let (item, cs) ← read cs
      let (rest, cs) ← items read fuel false cs
      return (item :: rest, cs)
    match skipSpace cs with
    | [] => .error .endInList
    | ']' :: cs => .ok ([], cs)
    | ',' :: cs =>
      if first then more (',' :: cs)
      else
        match skipSpace cs with
        | [] => .error .endInValue
        | ']' :: _ => .error .trailingComma
        | cs => more cs
    | cs => if first then more cs else .error .listEndExpected

/-- Expects a colon. -/
def colon (cs : List Char) : Except Fault (List Char) :=
  match skipSpace cs with
  | [] => .error .endInObject
  | ':' :: cs => .ok cs
  | _ => .error .colonExpected

/-- Finds the next name of an object: `none` at the closing brace, which is taken. -/
def nextName (first : Bool) (cs : List Char) : Except Fault (Option String × List Char) :=
  let name (cs : List Char) := do
    let (name, cs) ← stringTail cs
    return (some (String.ofList name), cs)
  match skipSpace cs with
  | [] => .error .endInObject
  | '\x7d' :: cs => .ok (none, cs)
  | ',' :: cs =>
    if first then .error .keyNotString
    else
      match skipSpace cs with
      | [] => .error .endInValue
      | '"' :: cs => name cs
      | '\x7d' :: _ => .error .trailingComma
      | _ => .error .keyNotString
  | '"' :: cs => if first then name cs else .error .objectEndExpected
  | _ => if first then .error .keyNotString else .error .objectEndExpected

/-- Reads the members of an object after its brace, and the closing brace. -/
def members {α : Type} (read : Reader α) :
    (fuel : Nat) → (first : Bool) → Reader (List (String × α))
  | 0, _, _ => .error .endInObject
  | fuel + 1, first, cs => do
    match ← nextName first cs with
    | (none, cs) => return ([], cs)
    | (some name, cs) =>
      let cs ← colon cs
      let (item, cs) ← read cs
      let (rest, cs) ← members read fuel false cs
      return ((name, item) :: rest, cs)

/-- Reads a tree, with a reader for what stands inside its containers if they may be opened. -/
def treeWith (inner : Option (Reader Json)) (cs : List Char) : Except Fault (Json × List Char) :=
  match skipSpace cs with
  | [] => .error .endInValue
  | 'n' :: cs => return (.null, ← word ['u', 'l', 'l'] cs)
  | 't' :: cs => return (.bool true, ← word ['r', 'u', 'e'] cs)
  | 'f' :: cs => return (.bool false, ← word ['a', 'l', 's', 'e'] cs)
  | '"' :: cs => do
    let (text, cs) ← stringTail cs
    return (.str (String.ofList text), cs)
  | '[' :: cs =>
    match inner with
    | none => .error .tooDeep
    | some read => do
      let (list, cs) ← items read (cs.length + 1) true cs
      return (.arr list, cs)
  | '\x7b' :: cs =>
    match inner with
    | none => .error .tooDeep
    | some read => do
      let (list, cs) ← members read (cs.length + 1) true cs
      return (.obj list, cs)
  | c :: cs =>
    if c = '-' ∨ isDigit c then do
      let (n, cs) ← number (c :: cs)
      return (.num n, cs)
    else .error .valueExpected

/-- Reads a tree whose containers nest at most `depth` deep. -/
def tree : (depth : Nat) → Reader Json
  | 0 => treeWith none
  | depth + 1 => treeWith (some (tree depth))

/-! ### Skipping -/

/-- Skips a number after its sign. -/
def skipNumber (cs : List Char) : Except Fault (List Char) :=
  let exponent (cs : List Char) : Except Fault (List Char) :=
    let cs :=
      match cs with
      | '+' :: cs => cs
      | '-' :: cs => cs
      | cs => cs
    if startsWithDigit cs then .ok (cs.dropWhile isDigit) else .error .badNumber
  let tail (cs : List Char) : Except Fault (List Char) :=
    match cs with
    | 'e' :: cs => exponent cs
    | 'E' :: cs => exponent cs
    | '.' :: cs =>
      if startsWithDigit cs then
        match cs.dropWhile isDigit with
        | 'e' :: cs => exponent cs
        | 'E' :: cs => exponent cs
        | cs => .ok cs
      else .error .badNumber
    | cs => .ok cs
  match cs with
  | '0' :: cs => if startsWithDigit cs then .error .badNumber else tail cs
  | cs => if startsWithDigit cs then tail (cs.dropWhile isDigit) else .error .badNumber

/-- Skips a string after its opening mark. Escapes have to be well formed, but surrogates need not
come in pairs. -/
def skipString : List Char → Except Fault (List Char)
  | [] => .error .endInString
  | '"' :: cs => .ok cs
  | '\\' :: 'u' :: a :: b :: c :: d :: cs =>
    if (hex4? a b c d).isSome then skipString cs else .error .badEscape
  | '\\' :: 'u' :: cs => .error (shortHexFault cs)
  | '\\' :: [] => .error .endInString
  | '\\' :: c :: cs => if (simpleEscape? c).isSome then skipString cs else .error .badEscape
  | c :: cs => if c.toNat < 0x20 then .error .controlCharacter else skipString cs

/-- Skips the items of a list, and its closing bracket. -/
def skipItems (skip : List Char → Except Fault (List Char)) :
    (fuel : Nat) → (first : Bool) → List Char → Except Fault (List Char)
  | 0, _, _ => .error .endInList
  | fuel + 1, first, cs =>
    match skipSpace cs with
    | [] => .error .endInList
    | ']' :: cs => .ok cs
    | ',' :: cs =>
      if first then skip (',' :: cs) >>= skipItems skip fuel false
      else skip cs >>= skipItems skip fuel false
    | cs => if first then skip cs >>= skipItems skip fuel false else .error .listEndExpected

/-- Skips a name, its colon and its value. -/
def skipMember (skip : List Char → Except Fault (List Char)) (cs : List Char) :
    Except Fault (List Char) :=
  match skipSpace cs with
  | [] => .error .endInObject
  | '"' :: cs => do
    let cs ← skipString cs
    let cs ← colon cs
    skip cs
  | _ => .error .keyNotString

/-- Skips the members of an object, and its closing brace. -/
def skipMembers (skip : List Char → Except Fault (List Char)) :
    (fuel : Nat) → (first : Bool) → List Char → Except Fault (List Char)
  | 0, _, _ => .error .endInObject
  | fuel + 1, first, cs =>
    match skipSpace cs with
    | [] => .error .endInObject
    | '\x7d' :: cs => .ok cs
    | ',' :: cs =>
      if first then .error .keyNotString
      else skipMember skip cs >>= skipMembers skip fuel false
    | cs =>
      if first then skipMember skip cs >>= skipMembers skip fuel false
      else .error .objectEndExpected

/-- Skips a tree of at most this many nested containers; only its syntax is looked at. -/
def skipTree : (depth : Nat) → List Char → Except Fault (List Char)
  | depth, cs =>
    match skipSpace cs with
    | [] => .error .endInValue
    | 'n' :: cs => word ['u', 'l', 'l'] cs
    | 't' :: cs => word ['r', 'u', 'e'] cs
    | 'f' :: cs => word ['a', 'l', 's', 'e'] cs
    | '"' :: cs => skipString cs
    | '-' :: cs => skipNumber cs
    | '[' :: cs =>
      match depth with
      | 0 => .error .tooDeep
      | depth + 1 => skipItems (skipTree depth) (cs.length + 1) true cs
    | '\x7b' :: cs =>
      match depth with
      | 0 => .error .tooDeep
      | depth + 1 => skipMembers (skipTree depth) (cs.length + 1) true cs
    | cs => if startsWithDigit cs then skipNumber cs else .error .valueExpected

/-- Skips a value, however deep: a text cannot nest deeper than it is long. -/
def skipValue (cs : List Char) : Except Fault (List Char) := skipTree cs.length cs

/-! ### Whole texts -/

/-- Expects nothing but blanks up to the end. -/
def finish {α : Type} (read : Reader α) (cs : List Char) : Except Fault α := do
  let (result, cs) ← read cs
  match skipSpace cs with
  | [] => return result
  | _ => throw .trailingCharacters

/-- Reads a whole text as one tree. -/
def parse (depth : Nat) (text : String) : Except Fault Json := finish (tree depth) text.toList

end Replica.Json
