import Replica.Message
/-! What a subscriber keeps of the entities of one kind, and which other entities they refer to. -/
namespace Replica

/-- A field that is kept. -/
structure FieldSpec where
  /-- The name in snapshots. -/
  name : String
  /-- The field has to be there unless the entity is deleted. -/
  required : Bool
  deriving DecidableEq, Repr

/-- The shape of the records of one kind. -/
structure Schema where
  /-- The kind. -/
  kind : String
  /-- The fields that are kept. -/
  fields : List FieldSpec
  /-- The field that marks an entity as deleted although the action does not say so. -/
  softDelete : Option String
  deriving DecidableEq, Repr

namespace Schema

/-- A field that has to be there: the check of one entry. -/
def checkField (s : Snapshot) (spec : FieldSpec) : Validation :=
  Validation.check (Snapshot.has s spec.name) ("missing required field `" ++ spec.name ++ "`")

/-- Whether the deletion mark is of the right kind, where there is one. -/
def checkMark (schema : Schema) (s : Snapshot) : Validation :=
  match schema.softDelete with
  | none => .valid
  | some name =>
    let fine :=
      match s.get? name with
      | none => true
      | some value => value.isNull || value.bool?.isSome
    Validation.check fine ("`" ++ name ++ "` must be a boolean")

/-- Checks a snapshot: the required fields, if they are asked for, and the deletion mark. -/
def check (schema : Schema) (s : Snapshot) (requireFields : Bool) : Validation :=
  let specs := schema.fields.filter fun spec => requireFields && spec.required
  (Validation.all (specs.map (checkField s))).both (schema.checkMark s)

/-- The names of the fields that are kept. -/
def names (schema : Schema) : List String := schema.fields.map (·.name)

/-- The part of a snapshot that is kept. -/
def project (schema : Schema) (s : Snapshot) : Snapshot := Snapshot.project s schema.names

/-- Whether the deletion mark of a snapshot is set. -/
def isSoftDeleted (schema : Schema) (s : Snapshot) : Bool :=
  match schema.softDelete with
  | none => false
  | some name => ((s.get? name).bind Value.bool?).getD false

end Schema

/-- A field that refers to another entity. -/
structure Requirement where
  /-- The field that holds the id. -/
  field : String
  /-- The kind of the entity referred to. -/
  kind : String
  /-- The reference may be absent. -/
  isOptional : Bool
  deriving DecidableEq, Repr

namespace Requirement

/-- The entity that a snapshot refers to, none if the reference may be and is absent. Texts that are
not empty and numbers are ids. -/
def reference (r : Requirement) (s : Snapshot) : Except String (Option EntityKey) :=
  let absent : Except String (Option EntityKey) :=
    if r.isOptional then .ok none else .error ("missing reference field `" ++ r.field ++ "`")
  match s.get? r.field with
  | none => absent
  | some value =>
    match value.json with
    | .null => absent
    | .str id =>
      if id.isEmpty then .error ("`" ++ r.field ++ "` is not an entity id")
      else .ok (some ⟨r.kind, id⟩)
    | .num n => .ok (some ⟨r.kind, n.text⟩)
    | _ => .error ("`" ++ r.field ++ "` is not an entity id")

/-- The entities that a snapshot refers to, in the order of the requirements, or every problem. -/
def references (rs : List Requirement) (s : Snapshot) : Except (List String) (List EntityKey) :=
  let results := rs.map (·.reference s)
  let problems := results.filterMap fun
    | .error reason => some reason
    | .ok _ => none
  if problems.isEmpty then
    .ok (results.filterMap fun
      | .ok key => key
      | .error _ => none)
  else .error problems

end Requirement

end Replica
