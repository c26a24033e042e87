import Replica.Cbor.Header
import Replica.Json.Fault
import Replica.Text.Utf8
/-! Reading CBOR as JSON trees and as values of a known kind. Depth counts the containers and tags
that may still be opened. -/
namespace Replica.Cbor

/-- The words for an item that was found. The least negative numbers wrap around in them. -/
def Header.words : Header → String
  | .positive n => "integer `" ++ toString n ++ "`"
  | .negative n =>
    let shown : Int := if n < 9223372036854775808 then -1 - n else 18446744073709551615 - n
    "integer `" ++ toString shown ++ "`"
  | .bytes _ => "bytes"
  | .text _ => "string"
  | .array _ => "sequence"
  | .map _ => "map"
  | .tag _ => "tag"
  | .simple 20 => "boolean `false`"
  | .simple 21 => "boolean `true`"
  | .simple 22 => "null"
  | .simple 23 => "undefined"
  | .simple _ => "simple"
  | .float x => "floating point `" ++ x.plainText ++ "`"
  | .stop => "break"

/-- The message. -/
def Fault.message (fault : Fault) : String :=
  let semantic (text : String) : String := "Semantic: " ++ text
  let wrong (found expected : String) : String :=
    semantic ("invalid type: " ++ found ++ ", expected " ++ expected)
  match fault with
  | ended => "Io"
  | malformed => "Syntax"
  | tooDeep => "RecursionLimitExceeded"
  | wrongType found expected => wrong found.words expected
  | bytesFound expected => wrong "byte array" expected
  | taggedFound expected => wrong "enum" expected
  | boolExpected => semantic "expected bool"
  | integerTooLarge => semantic "integer too large"
  | bigNumberTooLarge => semantic "bigint too large"
  | numberOutOfRange => semantic "JSON number out of range"
  | unknownVariant name known => semantic (Json.unknownVariantText name known)
  | missingField name => semantic (Json.missingFieldText name)
  | duplicateField name => semantic (Json.duplicateFieldText name)

/-! ### Texts and bytes -/

/-- Names are at most this many bytes long. -/
def nameLimit : Nat := 4096

/-- Reads a text of a known length. -/
def definiteText (length : Nat) : Reader String := fun bs => do
  let (text, bs) ← take length bs
  match Text.ofUtf8? text with
  | some text => return (text, bs)
  | none => throw .malformed

/-- Reads pieces until a stop, also in rows of pieces within; `depth` rows are open. Every piece takes
at least one byte, so `fuel` beyond the length of the input is never used up. -/
def pieces {α : Type} (length? : Header → Option (Option Nat)) (read : Nat → Reader α) :
    (fuel : Nat) → (depth : Nat) → Reader (List α)
  | 0, _, _ => .error .ended
  | fuel + 1, depth, bs => do
    match ← header bs with
    | (.stop, bs) => if depth ≤ 1 then return ([], bs) else pieces length? read fuel (depth - 1) bs
    | (head, bs) =>
      match length? head with
      | none => throw .malformed
      | some none => pieces length? read fuel (depth + 1) bs
      | some (some length) =>
        let (piece, bs) ← read length bs
        let (rest, bs) ← pieces length? read fuel depth bs
        return (piece :: rest, bs)

/-- Reads a text after its head. -/
def textBody (length : Option Nat) : Reader String := fun bs =>
  match length with
  | some length => definiteText length bs
  | none => do
    let (parts, bs) ← pieces
      (fun | .text length => some length | _ => none) definiteText (bs.length + 1) 1 bs
    return (String.join parts, bs)

/-- Reads bytes after their head. -/
def bytesBody (length : Option Nat) : Reader (List UInt8) := fun bs =>
  match length with
  | some length => take length bs
  | none => do
    let (parts, bs) ← pieces
      (fun | .bytes length => some length | _ => none) take (bs.length + 1) 1 bs
    return (parts.flatten, bs)

/-! ### Rows -/

/-- Reads a number of things in a row. -/
def times {α : Type} (read : Reader α) : Nat → Reader (List α)
  | 0, bs => .ok ([], bs)
  | n + 1, bs => do
    let (item, bs) ← read bs
    let (rest, bs) ← times read n bs
    return (item :: rest, bs)

/-- Reads things in a row until a stop. -/
def untilStop {α : Type} (read : Reader α) : (fuel : Nat) → Reader (List α)
  | 0, _ => .error .ended
  | fuel + 1, bs => do
    match ← header bs with
    | (.stop, bs) => return ([], bs)
    | _ =>
      let (item, bs) ← read bs
      let (rest, bs) ← untilStop read fuel bs
      return (item :: rest, bs)

/-- Reads a row after its head. -/
def row {α : Type} (length : Option Nat) (read : Reader α) : Reader (List α) := fun bs =>
  match length with
  | some n => times read n bs
  | none => untilStop read (bs.length + 1) bs

/-! ### Trees -/

/-- What a value may be. -/
def anyValue : String := "any valid JSON value"

/-- Reads a head after any tags. Every tag takes at least one byte, so `fuel` beyond the length of
the input is never used up. -/
def untagged : (fuel : Nat) → Reader Header
  | 0, _ => .error .ended
  | fuel + 1, bs => do
    match ← header bs with
    | (.tag _, bs) => untagged fuel bs
    | (head, bs) => return (head, bs)

/-- Reads the head of a value of a known kind: tags before it say nothing. -/
def typedHeader : Reader Header := fun bs => untagged (bs.length + 1) bs

/-- Reads a text. -/
def typedText (expected : String) : Reader String := fun bs => do
  match ← typedHeader bs with
  | (.text length, bs) => textBody length bs
  | (head, _) => throw (.wrongType head expected)

/-- Reads a short text of known length. -/
def shortText (expected : String) : Reader String := fun bs => do
  match ← typedHeader bs with
  | (.text (some length), bs) =>
    if length ≤ nameLimit then definiteText length bs
    else throw (.wrongType (.text (some length)) expected)
  | (head, _) => throw (.wrongType head expected)

/-- The names of an object's members within a tree: only the first has to be short. -/
def memberName (first : Bool) : Reader String :=
  if first then shortText "str" else typedText "string"

/-- Reads members in a row, as many as were announced, or until a stop. -/
def members {α : Type} (name : (first : Bool) → Reader String) (read : Reader α)
    (length : Option Nat) : Reader (List (String × α)) := fun bs =>
  let member (first : Bool) : Reader (String × α) := fun bs => do
    let (name, bs) ← name first bs
    let (item, bs) ← read bs
    return ((name, item), bs)
  match length with
  | some 0 => .ok ([], bs)
  | some (n + 1) => do
    let (head, bs) ← member true bs
    let (rest, bs) ← times (member false) n bs
    return (head :: rest, bs)
  | none => do
    match ← header bs with
    | (.stop, bs) => return ([], bs)
    | _ =>
      let (head, bs) ← member true bs
      let (rest, bs) ← untilStop (member false) (bs.length + 1) bs
      return (head :: rest, bs)

/-- A whole number as a tree. -/
def intTree (n : Int) : Except Fault Json :=
  match Json.ofInt? n with
  | some json => .ok json
  | none => .error .numberOutOfRange

/-- The head of a big number's bytes, if they are few. -/
def fewBytes? : Header → Option Nat
  | .bytes (some length) => if length ≤ 16 then some length else none
  | _ => none

/-- Reads a tree, with a reader for what stands inside its containers if they may be opened. -/
def treeWith (inner : Option (Reader Json)) : Reader Json := fun bs => do
  let (head, bs) ← header bs
  match head with
  | .positive n => return (← intTree n, bs)
  | .negative n => return (← intTree (-1 - n), bs)
  | .float (.finite x) => return (.num (.float x), bs)
  | .float _ => return (.null, bs)
  | .text length =>
    let (text, bs) ← textBody length bs
    return (.str text, bs)
  | .bytes length =>
    let _ ← bytesBody length bs
    throw (.bytesFound anyValue)
  | .array length =>
    match inner with
    | none => throw .tooDeep
    | some read =>
      let (list, bs) ← row length read bs
      return (.arr list, bs)
  | .map length =>
    match inner with
    | none => throw .tooDeep
    | some read =>
      let (list, bs) ← members memberName read length bs
      return (.obj list, bs)
  | .tag n =>
    let tagged : Except Fault (Json × List UInt8) :=
      throw (if inner.isSome then .taggedFound anyValue else .tooDeep)
    if n = 2 ∨ n = 3 then
      let (head, bs) ← header bs
      match fewBytes? head with
      | none => tagged
      | some length =>
        let (digits, bs) ← take length bs
        let magnitude : Int := bigEndian digits
        return (← intTree (if n = 2 then magnitude else -1 - magnitude), bs)
    else tagged
  | .simple 20 => return (.bool false, bs)
  | .simple 21 => return (.bool true, bs)
  | .simple 22 => return (.null, bs)
  | .simple 23 => return (.null, bs)
  | .simple n => throw (.wrongType (.simple n) "known simple value")
  | .stop => throw (.wrongType .stop "non-break")

/-- Reads a tree whose containers nest at most `depth` deep. -/
def tree : (depth : Nat) → Reader Json
  | 0 => treeWith none
  | depth + 1 => treeWith (some (tree depth))

/-! ### Skipping -/

/-- Skips any item, with a reader for what stands inside containers and after tags if they may be
opened. -/
def skipWith (inner : Option (Reader Unit)) : Reader Unit := fun bs => do
  let (head, bs) ← header bs
  match head with
  | .positive _ => return ((), bs)
  | .negative _ => return ((), bs)
  | .float _ => return ((), bs)
  | .text length =>
    let (_, bs) ← textBody length bs
    return ((), bs)
  | .bytes length =>
    let (_, bs) ← bytesBody length bs
    return ((), bs)
  | .array length =>
    match inner with
    | none => throw .tooDeep
    | some read =>
      let (_, bs) ← row length read bs
      return ((), bs)
  | .map length =>
    match inner with
    | none => throw .tooDeep
    | some read =>
      let pair : Reader Unit := fun bs => do
        let (_, bs) ← read bs
        read bs
      let (_, bs) ← row length pair bs
      return ((), bs)
  | .tag n =>
    let tagged (bs : List UInt8) : Except Fault (Unit × List UInt8) :=
      match inner with
      | none => throw .tooDeep
      | some read => read bs
    if n = 2 ∨ n = 3 then
      let (head, rest) ← header bs
      match fewBytes? head with
      | none => tagged bs
      | some length =>
        let (_, rest) ← take length rest
        return ((), rest)
    else tagged bs
  | .simple n =>
    if 20 ≤ n ∧ n ≤ 23 then return ((), bs)
    else throw (.wrongType (.simple n) "known simple value")
  | .stop => throw (.wrongType .stop "non-break")

/-- Skips an item whose containers and tags nest at most `depth` deep. -/
def skip : (depth : Nat) → Reader Unit
  | 0 => skipWith none
  | depth + 1 => skipWith (some (skip depth))

/-! ### Values of a known kind -/

/-- Reads a truth value. -/
def truth : Reader Bool := fun bs => do
  match ← typedHeader bs with
  | (.simple 20, bs) => return (false, bs)
  | (.simple 21, bs) => return (true, bs)
  | _ => throw .boolExpected

/-- Takes the pieces of a big number, sixteen bytes at a time, leading zeros aside; it has at most
sixteen digits to base 256. -/
def bigDigits : (fuel : Nat) → (length : Nat) → (digits : List UInt8) → Reader (List UInt8)
  | 0, _, digits, bs => .ok (digits, bs)
  | fuel + 1, length, digits, bs =>
    if length = 0 then .ok (digits, bs)
    else do
      let (piece, bs) ← take (min 16 length) bs
      let digits := (digits ++ piece).dropWhile (· = 0)
      if digits.length > 16 then throw .bigNumberTooLarge
      else bigDigits fuel (length - 16) digits bs

/-- Takes the pieces of a big number until a stop, also in rows of pieces within; `depth` rows are
open. -/
def bigPieces : (fuel : Nat) → (depth : Nat) → (digits : List UInt8) → Reader (List UInt8)
  | 0, _, _, _ => .error .ended
  | fuel + 1, depth, digits, bs => do
    match ← header bs with
    | (.stop, bs) => if depth ≤ 1 then return (digits, bs) else bigPieces fuel (depth - 1) digits bs
    | (.bytes none, bs) => bigPieces fuel (depth + 1) digits bs
    | (.bytes (some length), bs) =>
      let (digits, bs) ← bigDigits (bs.length + 1) length digits bs
      bigPieces fuel depth digits bs
    | _ => throw .malformed

/-- Reads the magnitude of a big number. -/
def bigNumber : Reader Nat := fun bs => do
  match ← header bs with
  | (.bytes (some length), bs) =>
    let (digits, bs) ← bigDigits (bs.length + 1) length [] bs
    return (bigEndian digits, bs)
  | (.bytes none, bs) =>
    let (digits, bs) ← bigPieces (bs.length + 1) 1 [] bs
    return (bigEndian digits, bs)
  | (head, _) => throw (.wrongType head "bytes")

/-- Reads a whole number of any size up to 128 bits: from a head, or from a tagged big number. -/
def anyInteger : (fuel : Nat) → Reader Int
  | 0, _ => .error .ended
  | fuel + 1, bs => do
    match ← header bs with
    | (.positive n, bs) => return ((n : Int), bs)
    | (.negative n, bs) => return (-1 - (n : Int), bs)
    | (.tag 2, bs) =>
      let (n, bs) ← bigNumber bs
      return ((n : Int), bs)
    | (.tag 3, bs) =>
      let (n, bs) ← bigNumber bs
      return (-1 - (n : Int), bs)
    | (.tag _, bs) => anyInteger fuel bs
    | (head, _) => throw (.wrongType head "integer")

/-- A name that is a short text or short bytes. -/
inductive Name where
  | text (s : String)
  | bytes (bs : List UInt8)
  deriving DecidableEq

/-- Whether the name is that of a text. -/
def Name.is (name : Name) (s : String) : Bool :=
  match name with
  | text t => t == s
  | bytes bs => bs == Text.utf8 s

/-- The name as a text. -/
def Name.lossy : Name → String
  | text s => s
  | bytes bs => Text.lossy bs

/-- Reads a name. -/
def name : Reader Name := fun bs => do
  match ← typedHeader bs with
  | (.text (some length), bs) =>
    if length ≤ nameLimit then
      let (text, bs) ← definiteText length bs
      return (.text text, bs)
    else throw (.wrongType (.text (some length)) "str or bytes")
  | (.bytes (some length), bs) =>
    if length ≤ nameLimit then
      let (bytes, bs) ← take length bs
      return (.bytes bytes, bs)
    else throw (.wrongType (.bytes (some length)) "str or bytes")
  | (head, _) => throw (.wrongType head "str or bytes")

/-- Reads one of a few names, or a map of one entry whose name it is; then the entry's value is left
to be read by whoever comes next. -/
def choice {α : Type} (depth : Nat) (options : List (String × α)) : Reader α := fun bs => do
  let pick (name : Name) (bs : List UInt8) : Except Fault (α × List UInt8) :=
    match options.find? fun option => name.is option.1 with
    | some option => .ok (option.2, bs)
    | none => .error (.unknownVariant name.lossy (options.map (·.1)))
  match ← typedHeader bs with
  | (.map (some 1), bs) =>
    if depth = 0 then throw .tooDeep
    else
      let (name, bs) ← name bs
      pick name bs
  | (.text length, bs) =>
    if depth = 0 then throw .tooDeep
    else
      match length with
      | none => throw (.wrongType (.text none) "str or bytes")
      | some length =>
        if length ≤ nameLimit then
          let (text, bs) ← definiteText length bs
          pick (.text text) bs
        else throw (.wrongType (.text (some length)) "str or bytes")
  | (head, _) => throw (.wrongType head "enum")

end Replica.Cbor
