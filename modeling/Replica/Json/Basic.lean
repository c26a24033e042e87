import Replica.SortedMap
import Replica.Number.Decimal
/-! JSON trees and JSON values. A tree is what a document spells out: members in any order, names
possibly repeated. A value is a tree in canonical form, every object's members ascending by name,
so that two values are equal exactly when they mean the same. Numbers are whole numbers of 64 bits,
signed or not, or finite binary64 numbers, and `1` is not `1.0`. -/
namespace Replica

/-- A JSON number. -/
inductive Json.Number where
  /-- A whole number from -2^63 to 2^64 - 1. -/
  | int (n : Int) (inRange : -9223372036854775808 ≤ n ∧ n < 18446744073709551616)
  /-- A finite binary64 number. -/
  | float (x : Finite64)
  deriving DecidableEq

/-- A JSON tree. -/
inductive Json where
  | null
  | bool (b : Bool)
  | num (n : Json.Number)
  | str (s : String)
  | arr (items : List Json)
  | obj (members : List (String × Json))

namespace Json

instance : Inhabited Json := ⟨null⟩

/-- The whole number, if it fits. -/
def ofInt? (n : Int) : Option Json :=
  if h : -9223372036854775808 ≤ n ∧ n < 18446744073709551616 then some (num (.int n h)) else none

/-- A count of things. Counts have 64 bits; what has more is written as the greatest. -/
def ofNat (n : Nat) : Json := num (.int (min n 18446744073709551615 : Nat) (by omega))

/-- The text of a number: also what stands for it where a text is wanted. -/
def Number.text : Number → String
  | int n _ => toString n
  | float x => x.text

/-- A number rounded to binary64. -/
def Number.toFloat : Number → Binary64
  | int n _ => if n < 0 then -(Binary64.ofNat n.natAbs) else Binary64.ofNat n.natAbs
  | float x => .finite x

/-- The member of an object under a name, the last of several; null if there is none. -/
def member (json : Json) (name : String) : Json :=
  match json with
  | obj members => ((members.reverse.find? (·.1 == name)).map (·.2)).getD null
  | _ => null

mutual

/-- Whether two trees are the same tree. -/
def beq : Json → Json → Bool
  | null, null => true
  | bool a, bool b => a == b
  | num a, num b => decide (a = b)
  | str a, str b => a == b
  | arr a, arr b => beqItems a b
  | obj a, obj b => beqMembers a b
  | _, _ => false

/-- Whether two lists of trees are the same. -/
def beqItems : List Json → List Json → Bool
  | [], [] => true
  | a :: as, b :: bs => beq a b && beqItems as bs
  | _, _ => false

/-- Whether two lists of members are the same. -/
def beqMembers : List (String × Json) → List (String × Json) → Bool
  | [], [] => true
  | (m, a) :: as, (n, b) :: bs => m == n && beq a b && beqMembers as bs
  | _, _ => false

end

mutual

theorem beq_iff_eq (a b : Json) : beq a b = true ↔ a = b := by
  cases a <;> cases b <;> simp [beq, beqItems_iff_eq, beqMembers_iff_eq]

theorem beqItems_iff_eq (as bs : List Json) : beqItems as bs = true ↔ as = bs := by
  cases as <;> cases bs <;> simp [beqItems, beq_iff_eq, beqItems_iff_eq]

theorem beqMembers_iff_eq (as bs : List (String × Json)) : beqMembers as bs = true ↔ as = bs := by
  match as, bs with
  | [], [] => simp [beqMembers]
  | [], _ :: _ => simp [beqMembers]
  | _ :: _, [] => simp [beqMembers]
  | (m, a) :: as, (n, b) :: bs =>
    simp [beqMembers, beq_iff_eq a b, beqMembers_iff_eq as bs, and_assoc]

end

instance : DecidableEq Json := fun a b => decidable_of_iff _ (beq_iff_eq a b)

mutual

/-- Whether every object has its members strictly ascending by name. -/
def canonical : Json → Bool
  | arr items => canonicalItems items
  | obj members => decide (Ascending members) && canonicalMembers members
  | _ => true

/-- Whether every tree of a list is canonical. -/
def canonicalItems : List Json → Bool
  | [] => true
  | item :: rest => canonical item && canonicalItems rest

/-- Whether every member's tree is canonical. -/
def canonicalMembers : List (String × Json) → Bool
  | [] => true
  | (_, item) :: rest => canonical item && canonicalMembers rest

end

mutual

/-- The canonical form: members sorted by name, the last of several with one name kept. -/
def normalize : Json → Json
  | arr items => arr (normalizeItems items)
  | obj members => obj (Entries.arrange (normalizeMembers members))
  | item => item

/-- The canonical forms of a list of trees. -/
def normalizeItems : List Json → List Json
  | [] => []
  | item :: rest => normalize item :: normalizeItems rest

/-- The members with their trees in canonical form. -/
def normalizeMembers : List (String × Json) → List (String × Json)
  | [] => []
  | (name, item) :: rest => (name, normalize item) :: normalizeMembers rest

end

theorem canonicalMembers_iff {members : List (String × Json)} :
    canonicalMembers members = true ↔ ∀ member ∈ members, member.2.canonical = true := by
  induction members with
  | nil => simp [canonicalMembers]
  | cons head rest ih => simp [canonicalMembers, ih]

/-- Inserting a canonical tree keeps all trees canonical. -/
theorem canonicalMembers_insert {name : String} {item : Json} {members : List (String × Json)}
    (item_canonical : item.canonical = true) (h : canonicalMembers members = true) :
    canonicalMembers (Entries.insert name item members) = true := by
  rw [canonicalMembers_iff] at *
  intro member inserted
  rcases Entries.fst_of_mem_insert inserted with rfl | old
  · exact item_canonical
  · exact h _ old

theorem canonicalMembers_arrange {members : List (String × Json)}
    (h : canonicalMembers members = true) :
    canonicalMembers (Entries.arrange members) = true := by
  suffices ∀ done : List (String × Json), canonicalMembers done = true →
      canonicalMembers
        (members.foldl (fun entries pair => Entries.insert pair.1 pair.2 entries) done) = true from
    this [] rfl
  induction members with
  | nil => exact fun _ h => h
  | cons head rest ih =>
    simp only [canonicalMembers, Bool.and_eq_true] at h
    exact fun done hd => ih h.2 _ (canonicalMembers_insert h.1 hd)

mutual

theorem canonical_normalize (item : Json) : item.normalize.canonical = true := by
  match item with
  | null => rfl
  | bool _ => rfl
  | num _ => rfl
  | str _ => rfl
  | arr items => simpa [normalize, canonical] using canonicalItems_normalizeItems items
  | obj members =>
    simp only [normalize, canonical, Bool.and_eq_true, decide_eq_true_eq]
    exact ⟨Entries.ascending_arrange _,
      canonicalMembers_arrange (canonicalMembers_normalizeMembers members)⟩

theorem canonicalItems_normalizeItems (items : List Json) :
    canonicalItems (normalizeItems items) = true := by
  match items with
  | [] => rfl
  | item :: rest =>
    simp [normalizeItems, canonicalItems, canonical_normalize item,
      canonicalItems_normalizeItems rest]

theorem canonicalMembers_normalizeMembers (members : List (String × Json)) :
    canonicalMembers (normalizeMembers members) = true := by
  match members with
  | [] => rfl
  | (_, item) :: rest =>
    simp [normalizeMembers, canonicalMembers, canonical_normalize item,
      canonicalMembers_normalizeMembers rest]

end

end Json

/-- A JSON value: a tree in canonical form. -/
structure Value where
  /-- The tree. -/
  json : Json
  /-- Every object's members ascend by name. -/
  canonical : json.canonical = true

namespace Value

@[ext]
theorem ext_json {a b : Value} (h : a.json = b.json) : a = b := by
  cases a; cases b; simpa using h

instance : DecidableEq Value := fun a b =>
  decidable_of_iff (a.json = b.json) ⟨ext_json, fun h => h ▸ rfl⟩

/-- The value that a tree means. -/
def ofJson (json : Json) : Value := ⟨json.normalize, json.canonical_normalize⟩

/-- The null value. -/
def null : Value := ⟨.null, rfl⟩

/-- A text. -/
def str (s : String) : Value := ⟨.str s, rfl⟩

instance : Inhabited Value := ⟨null⟩

/-- Whether the value is null. -/
def isNull (v : Value) : Bool := v.json matches .null

/-- The truth value, if it is one. -/
def bool? (v : Value) : Option Bool :=
  match v.json with
  | .bool b => some b
  | _ => none

/-- The text, if it is one. -/
def str? (v : Value) : Option String :=
  match v.json with
  | .str s => some s
  | _ => none

end Value

end Replica
