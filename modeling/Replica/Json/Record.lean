import Replica.Json.Reader
/-! Reading JSON into values of a known kind: texts, truth values, whole numbers of a range, lists,
choices, and records. A record is read from an object with its fields in any order, or from an
array with its fields in the declared order. -/
namespace Replica.Json

/-- The fault of a value of the wrong kind at the front of a text. The value itself has to be well
formed as far as its kind shows: words, numbers and strings are read, containers are only opened. -/
def mismatch (expected : String) (cs : List Char) : Fault :=
  let found (read : Except Fault Found) : Fault :=
    match read with
    | .ok found => .wrongType found expected
    | .error fault => fault
  match cs with
  | 'n' :: cs => found (do let _ ← word ['u', 'l', 'l'] cs; return .null)
  | 't' :: cs => found (do let _ ← word ['r', 'u', 'e'] cs; return .bool true)
  | 'f' :: cs => found (do let _ ← word ['a', 'l', 's', 'e'] cs; return .bool false)
  | '"' :: cs => found (do let (text, _) ← stringTail cs; return .str (String.ofList text))
  | '[' :: _ => .wrongType .sequence expected
  | '\x7b' :: _ => .wrongType .map expected
  | c :: cs =>
    if c = '-' ∨ isDigit c then found (do let (n, _) ← number (c :: cs); return .num n)
    else .valueExpected
  | [] => .endInValue

/-- Reads a text. -/
def text (expected : String) : Reader String := fun cs =>
  match skipSpace cs with
  | '"' :: cs => do
    let (text, cs) ← stringTail cs
    return (String.ofList text, cs)
  | cs => .error (mismatch expected cs)

/-- Reads a truth value. -/
def truth : Reader Bool := fun cs =>
  match skipSpace cs with
  | 't' :: cs => return (true, ← word ['r', 'u', 'e'] cs)
  | 'f' :: cs => return (false, ← word ['a', 'l', 's', 'e'] cs)
  | cs => .error (mismatch "a boolean" cs)

/-- A kind of whole number: its name and its range. -/
structure IntKind where
  /-- The name in messages. -/
  name : String
  /-- The least value. -/
  least : Int
  /-- The greatest value. -/
  greatest : Int

/-- Signed numbers of 64 bits. -/
def IntKind.signed64 : IntKind := ⟨"i64", -9223372036854775808, 9223372036854775807⟩

/-- Unsigned numbers of 64 bits. -/
def IntKind.unsigned64 : IntKind := ⟨"u64", 0, 18446744073709551615⟩

/-- Numbers of things in memory. -/
def IntKind.size64 : IntKind := ⟨"usize", 0, 18446744073709551615⟩

/-- Reads a whole number of a kind. -/
def whole (kind : IntKind) : Reader Int := fun cs =>
  match skipSpace cs with
  | c :: cs =>
    if c = '-' ∨ isDigit c then do
      match ← number (c :: cs) with
      | (.int n _, cs) =>
        if kind.least ≤ n ∧ n ≤ kind.greatest then return (n, cs)
        else throw (.integerOutOfRange n kind.name)
      | (.float x, _) => throw (.wrongType (.num (.float x)) kind.name)
    else .error (mismatch kind.name (c :: cs))
  | [] => .error .endInValue

/-- Reads null as `none`, and anything else with the given reader. -/
def nullable {α : Type} (read : Reader α) : Reader (Option α) := fun cs =>
  match skipSpace cs with
  | 'n' :: cs => return (none, ← word ['u', 'l', 'l'] cs)
  | cs => do
    let (value, cs) ← read cs
    return (some value, cs)

/-- Reads a list. -/
def list {α : Type} (depth : Nat) (read : (depth : Nat) → Reader α) : Reader (List α) := fun cs =>
  match skipSpace cs with
  | '[' :: cs =>
    match depth with
    | 0 => .error .tooDeep
    | depth + 1 => items (read depth) (cs.length + 1) true cs
  | cs => .error (mismatch "a sequence" cs)

/-- Reads an object as its members in the order of the text. -/
def object {α : Type} (depth : Nat) (read : (depth : Nat) → Reader α) :
    Reader (List (String × α)) := fun cs =>
  match skipSpace cs with
  | '\x7b' :: cs =>
    match depth with
    | 0 => .error .tooDeep
    | depth + 1 => members (read depth) (cs.length + 1) true cs
  | cs => .error (mismatch "a map" cs)

/-- Reads one of a few names: a text, or an object whose one member has the name and a null. -/
def choice {α : Type} (depth : Nat) (options : List (String × α)) : Reader α := fun cs =>
  let pick (expected : String) (cs : List Char) : Except Fault (α × List Char) := do
    let (name, cs) ← text expected cs
    match options.find? (·.1 == name) with
    | some option => return (option.2, cs)
    | none => throw (.unknownVariant name (options.map (·.1)))
  match skipSpace cs with
  | [] => .error .endInValue
  | '"' :: cs => pick "variant identifier" ('"' :: cs)
  | '\x7b' :: cs =>
    match depth with
    | 0 => .error .tooDeep
    | _ + 1 => do
      let (result, cs) ← pick "variant identifier" cs
      let cs ← colon cs
      match skipSpace cs with
      | 'n' :: cs =>
        let cs ← word ['u', 'l', 'l'] cs
        match skipSpace cs with
        | [] => throw .endInObject
        | '\x7d' :: cs => return (result, cs)
        | _ => throw .valueExpected
      | cs => throw (mismatch "unit" cs)
  | _ => .error .valueExpected

/-! ### Records -/

/-- A field of a record that is read into a draft. -/
structure RecordField (δ : Type) where
  /-- The name. -/
  name : String
  /-- Whether the draft has it already. -/
  isSet : δ → Bool
  /-- Reads the value into the draft. -/
  read : (depth : Nat) → δ → Reader δ
  /-- An object may leave the field out. -/
  mayOmit : Bool
  /-- An array may end before the field. -/
  mayEndBefore : Bool

/-- How a record is read: its name, its fields in declared order, and the empty draft. -/
structure RecordShape (δ : Type) where
  /-- The name in messages. -/
  name : String
  /-- The fields. -/
  fields : List (RecordField δ)
  /-- What is known before anything is read. -/
  blank : δ

namespace RecordShape

variable {δ : Type}

/-- The words for what was expected where another kind of value stands. -/
def expected (shape : RecordShape δ) : String := "struct " ++ shape.name

/-- The words for what was expected where an array is too short. -/
def expectedElements (shape : RecordShape δ) : String :=
  shape.expected ++ " with " ++ toString shape.fields.length ++ " elements"

/-- The first field in declared order that an object had to give and did not. -/
def missing? (shape : RecordShape δ) (draft : δ) : Option (RecordField δ) :=
  shape.fields.find? fun field => !field.mayOmit && !field.isSet draft

/-- Reads the members of an object into a draft. A known name given again is refused before its
value is looked at; the value of an unknown name is skipped. -/
def readMembers (shape : RecordShape δ) (depth : Nat) :
    (fuel : Nat) → (first : Bool) → δ → Reader δ
  | 0, _, _, _ => .error .endInObject
  | fuel + 1, first, draft, cs => do
    match ← nextName first cs with
    | (none, cs) =>
      match shape.missing? draft with
      | some field => throw (.missingField field.name)
      | none => return (draft, cs)
    | (some name, cs) =>
      match shape.fields.find? (·.name == name) with
      | some field =>
        if field.isSet draft then throw (.duplicateField name)
        else
          let cs ← colon cs
          let (draft, cs) ← field.read depth draft cs
          readMembers shape depth fuel false draft cs
      | none =>
        let cs ← colon cs
        let cs ← skipValue cs
        readMembers shape depth fuel false draft cs

/-- Reads the items of an array into a draft, one for each field; `index` fields are done. -/
def readItems (shape : RecordShape δ) (depth : Nat) (index : Nat) :
    List (RecordField δ) → δ → Reader δ
  | [], draft, cs =>
    match skipSpace cs with
    | [] => .error .endInList
    | ']' :: cs => .ok (draft, cs)
    | ',' :: cs =>
      match skipSpace cs with
      | ']' :: _ => .error .trailingComma
      | _ => .error .trailingCharacters
    | _ => .error .trailingCharacters
  | field :: fields, draft, cs =>
    let more (cs : List Char) := do
      let (draft, cs) ← field.read depth draft cs
      readItems shape depth (index + 1) fields draft cs
    match skipSpace cs with
    | [] => .error .endInList
    | ']' :: cs =>
      if field.mayEndBefore then readItems shape depth (index + 1) fields draft (']' :: cs)
      else .error (.wrongLength index shape.expectedElements)
    | ',' :: cs =>
      if index = 0 then more (',' :: cs)
      else
        match skipSpace cs with
        | [] => .error .endInValue
        | ']' :: _ => .error .trailingComma
        | cs => more cs
    | cs => if index = 0 then more cs else .error .listEndExpected

/-- Reads a record. -/
def read (shape : RecordShape δ) (depth : Nat) : Reader δ := fun cs =>
  match skipSpace cs with
  | '\x7b' :: cs =>
    match depth with
    | 0 => .error .tooDeep
    | depth + 1 => shape.readMembers depth (cs.length + 1) true shape.blank cs
  | '[' :: cs =>
    match depth with
    | 0 => .error .tooDeep
    | depth + 1 => shape.readItems depth 0 shape.fields shape.blank cs
  | cs => .error (mismatch shape.expected cs)

end RecordShape

end Replica.Json
