import Replica.Cbor.Header
import Replica.Json.Basic
import Replica.Text.Utf8
/-! JSON trees as CBOR: definite lengths, shortest heads, and floats in the narrowest format that
holds them exactly. -/
namespace Replica.Cbor

/-- A text. -/
def ofText (s : String) : List UInt8 := head 3 (Text.utf8 s).length ++ Text.utf8 s

/-- A whole number from -2^64 to 2^64 - 1. -/
def ofInt (n : Int) : List UInt8 :=
  if 0 ≤ n then head 0 n.toNat else head 1 (-1 - n).toNat

/-- A float. -/
def ofFloat (x : Finite64) : List UInt8 :=
  match x.narrow? .half with
  | some bits => 0xf9 :: bigEndianBytes 2 bits
  | none =>
    match x.narrow? .single with
    | some bits => 0xfa :: bigEndianBytes 4 bits
    | none => 0xfb :: bigEndianBytes 8 x.toBits

/-- A truth value. -/
def ofBool (b : Bool) : List UInt8 := [if b then 0xf5 else 0xf4]

mutual

/-- The bytes of a tree. -/
def ofTree : Json → List UInt8
  | .null => [0xf6]
  | .bool b => ofBool b
  | .num (.int n _) => ofInt n
  | .num (.float x) => ofFloat x
  | .str s => ofText s
  | .arr items => head 4 items.length ++ ofTrees items
  | .obj members => head 5 members.length ++ ofMembers members

/-- The bytes of trees in a row. -/
def ofTrees : List Json → List UInt8
  | [] => []
  | item :: rest => ofTree item ++ ofTrees rest

/-- The bytes of members in a row. -/
def ofMembers : List (String × Json) → List UInt8
  | [] => []
  | (name, item) :: rest => ofText name ++ ofTree item ++ ofMembers rest

end

end Replica.Cbor
