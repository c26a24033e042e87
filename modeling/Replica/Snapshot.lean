import Replica.Json.Printer
/-! Snapshots: the fields of an entity at one moment, as a finite map from names to values. -/
namespace Replica

/-- The fields of an entity at one moment. -/
abbrev Snapshot := SortedMap String Value

namespace Snapshot

/-- The text of a field, if the field holds a text. -/
def str? (s : Snapshot) (name : String) : Option String := (s.get? name).bind Value.str?

/-- Whether a field is there and not null. -/
def has (s : Snapshot) (name : String) : Bool :=
  match s.get? name with
  | some value => !value.isNull
  | none => false

/-- The fields with the given names. -/
def project (s : Snapshot) (names : List String) : Snapshot :=
  ⟨s.entries.filter fun entry => names.contains entry.1, s.ascending.filter _⟩

/-- The fields of both snapshots, the second winning where both have one. -/
def overlay (s : Snapshot) (newer : Snapshot) : Snapshot :=
  newer.entries.foldl (fun fields entry => SortedMap.insert fields entry.1 entry.2) s

/-- The snapshot of the members of an object, the last of several with one name winning. -/
def ofMembers (members : List (String × Json)) : Snapshot :=
  SortedMap.ofPairs (members.map fun member => (member.1, Value.ofJson member.2))

/-- The snapshot as an object. -/
def json (s : Snapshot) : Json := .obj (s.entries.map fun entry => (entry.1, entry.2.json))

end Snapshot

end Replica
