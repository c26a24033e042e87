import Replica.Number.Binary64
/-! CBOR item heads: the kind of an item with the number that belongs to it. Reading gives the head
and the bytes left, or the first fault met. -/
namespace Replica.Cbor

/-- What an item starts with. Lengths are absent where a stop ends the item. -/
inductive Header where
  | positive (n : Nat)
  /-- Stands for `-1 - n`. -/
  | negative (n : Nat)
  | bytes (length : Option Nat)
  | text (length : Option Nat)
  | array (length : Option Nat)
  | map (length : Option Nat)
  | tag (n : Nat)
  | simple (n : Nat)
  | float (x : Binary64)
  | stop
  deriving DecidableEq

/-- Why bytes are refused. -/
inductive Fault where
  /-- The bytes end within an item. -/
  | ended
  /-- A reserved head, a stop out of place, or a text that is not UTF-8. -/
  | malformed
  /-- Containers nest too deep. -/
  | tooDeep
  /-- An item of the wrong kind. -/
  | wrongType (found : Header) (expected : String)
  /-- Bytes where a value is wanted. -/
  | bytesFound (expected : String)
  /-- A tagged item where a value is wanted. -/
  | taggedFound (expected : String)
  | boolExpected
  | integerTooLarge
  | bigNumberTooLarge
  | numberOutOfRange
  | unknownVariant (name : String) (known : List String)
  | missingField (name : String)
  | duplicateField (name : String)
  deriving DecidableEq

/-- Reads something from the front of some bytes. -/
abbrev Reader (α : Type) := List UInt8 → Except Fault (α × List UInt8)

/-- Takes a number of bytes. -/
def take (n : Nat) : Reader (List UInt8) := fun bs =>
  if bs.length < n then .error .ended else .ok (bs.take n, bs.drop n)

/-- The number that bytes spell, the most significant first. -/
def bigEndian (bs : List UInt8) : Nat := bs.foldl (fun n b => n * 256 + b.toNat) 0

/-- Reads the number of bytes that an item's additional information announces. -/
def argumentWidth (info : Nat) : Option Nat :=
  if info < 24 then some 0
  else if info = 24 then some 1
  else if info = 25 then some 2
  else if info = 26 then some 4
  else if info = 27 then some 8
  else if info = 31 then some 0
  else none

/-- The head of major type, additional information and the number after it. -/
def headerOf (major info argument : Nat) : Except Fault Header :=
  let n := if info < 24 then info else argument
  let length : Option Nat := if info = 31 then none else some n
  let plain (header : Header) : Except Fault Header :=
    if info = 31 then .error .malformed else .ok header
  match major with
  | 0 => plain (.positive n)
  | 1 => plain (.negative n)
  | 2 => .ok (.bytes length)
  | 3 => .ok (.text length)
  | 4 => .ok (.array length)
  | 5 => .ok (.map length)
  | 6 => plain (.tag n)
  | _ =>
    if info = 31 then .ok .stop
    else if info ≤ 24 then .ok (.simple n)
    else if info = 25 then .ok (.float (.ofBits .half n))
    else if info = 26 then .ok (.float (.ofBits .single n))
    else .ok (.float (.ofBits .double n))

/-- Reads a head. -/
def header : Reader Header
  | [] => .error .ended
  | b :: bs =>
    match argumentWidth (b.toNat % 32) with
    | none => .error .malformed
    | some width => do
      let (argument, bs) ← take width bs
      let header ← headerOf (b.toNat / 32) (b.toNat % 32) (bigEndian argument)
      return (header, bs)

/-- The bytes of a number, the most significant first. -/
def bigEndianBytes : (width : Nat) → Nat → List UInt8
  | 0, _ => []
  | width + 1, n => bigEndianBytes width (n / 256) ++ [UInt8.ofNat n]

/-- The shortest head of a major type with a number below 2^64. -/
def head (major n : Nat) : List UInt8 :=
  if n < 24 then [UInt8.ofNat (major * 32 + n)]
  else if n < 256 then UInt8.ofNat (major * 32 + 24) :: bigEndianBytes 1 n
  else if n < 65536 then UInt8.ofNat (major * 32 + 25) :: bigEndianBytes 2 n
  else if n < 4294967296 then UInt8.ofNat (major * 32 + 26) :: bigEndianBytes 4 n
  else UInt8.ofNat (major * 32 + 27) :: bigEndianBytes 8 n

end Replica.Cbor
