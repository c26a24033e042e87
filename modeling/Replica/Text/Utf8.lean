/-! Texts as bytes in UTF-8. -/
namespace Replica.Text

/-- The bytes of a text. -/
def utf8 (s : String) : List UInt8 := s.toUTF8.toList

/-- The text that bytes spell, if they are well formed. -/
def ofUtf8? (bytes : List UInt8) : Option String := String.fromUTF8? ⟨bytes.toArray⟩

/-- How many of the bytes belong to one ill-formed sequence: a lead byte with the continuation bytes
that may follow it, as far as they go. -/
def illFormedLength (lead : UInt8) (rest : List UInt8) : Nat :=
  let within (low high : UInt8) (b : UInt8) : Bool := low ≤ b && b ≤ high
  let (count, second) : Nat × (UInt8 → Bool) :=
    if within 0xc2 0xdf lead then (1, within 0x80 0xbf)
    else if lead = 0xe0 then (2, within 0xa0 0xbf)
    else if lead = 0xed then (2, within 0x80 0x9f)
    else if within 0xe1 0xef lead then (2, within 0x80 0xbf)
    else if lead = 0xf0 then (3, within 0x90 0xbf)
    else if lead = 0xf4 then (3, within 0x80 0x8f)
    else if within 0xf1 0xf3 lead then (3, within 0x80 0xbf)
    else (0, fun _ => false)
  match rest.take count with
  | [] => 1
  | b :: more => if second b then 2 + (more.takeWhile (within 0x80 0xbf)).length else 1

/-- The text with a replacement character for every ill-formed sequence; `fuel` is at least the
number of bytes. -/
def lossyChars : (fuel : Nat) → List UInt8 → List Char
  | 0, _ => []
  | _, [] => []
  | fuel + 1, b :: rest =>
    match (List.range 4).findSome? fun n =>
        (ofUtf8? ((b :: rest).take (n + 1))).map fun s => (s.toList, n + 1) with
    | some (cs, n) => cs ++ lossyChars fuel ((b :: rest).drop n)
    | none => '\ufffd' :: lossyChars fuel ((b :: rest).drop (illFormedLength b rest))

/-- The text of any bytes. -/
def lossy (bytes : List UInt8) : String := String.ofList (lossyChars bytes.length bytes)

end Replica.Text
