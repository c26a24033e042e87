import Replica.Schema
/-! What it takes for a snapshot to pass the check of a schema. The check collects the reasons of all
entries; here is when it finds none. -/
namespace Replica

namespace Validation

@[simp]
theorem check_eq_valid_iff (condition : Bool) (reason : String) :
    check condition reason = valid ↔ condition = true := by
  cases condition <;> simp [check]

@[simp]
theorem both_eq_valid_iff (first second : Validation) :
    first.both second = valid ↔ first = valid ∧ second = valid := by
  cases first <;> cases second <;> simp [both]

/-- The checks of a list are folded from the left, so what was found before them counts too. -/
theorem foldl_both_eq_valid_iff (checks : List Validation) (found : Validation) :
    checks.foldl both found = valid ↔ found = valid ∧ ∀ check ∈ checks, check = valid := by
  induction checks generalizing found with
  | nil => simp
  | cons check rest ih => simp [ih, and_assoc]

@[simp]
theorem all_eq_valid_iff (checks : List Validation) :
    all checks = valid ↔ ∀ check ∈ checks, check = valid := by
  simp [all, foldl_both_eq_valid_iff]

/-- The reasons of a combined check are those of the first, then those of the second. -/
@[simp]
theorem reasons_both (first second : Validation) :
    (first.both second).reasons = first.reasons ++ second.reasons := by
  cases first <;> cases second <;> simp [both, reasons]

@[simp]
theorem reasons_all (checks : List Validation) : (all checks).reasons = checks.flatMap reasons := by
  suffices ∀ found : Validation,
      (checks.foldl both found).reasons = found.reasons ++ checks.flatMap reasons from this .valid
  induction checks with
  | nil => simp
  | cons check rest ih => simp [ih, reasons_both]

theorem reasons_check_eq_nil_iff (condition : Bool) (reason : String) :
    (check condition reason).reasons = [] ↔ check condition reason = .valid := by
  cases condition <;> simp [check, reasons]

end Validation

namespace Schema

/-- The deletion mark of a snapshot is absent, null or a truth value. -/
def MarkFits (schema : Schema) (s : Snapshot) : Prop :=
  ∀ name, schema.softDelete = some name → ∀ value, s.get? name = some value →
    value.isNull = true ∨ value.bool?.isSome = true

/-- Every field that has to be there is there and not null. -/
def HasRequired (schema : Schema) (s : Snapshot) : Prop :=
  ∀ spec ∈ schema.fields, spec.required = true → Snapshot.has s spec.name = true

theorem checkMark_eq_valid_iff {schema : Schema} {s : Snapshot} :
    schema.checkMark s = .valid ↔ schema.MarkFits s := by
  unfold checkMark MarkFits
  cases schema.softDelete with
  | none => simp
  | some name =>
    cases found : s.get? name with
    | none => simp +contextual [found]
    | some value => simp [found, eq_comm (a := name)]

/-- A snapshot passes the check exactly if its deletion mark is of the right kind and, where the
required fields are asked for, none of them is missing. -/
theorem check_eq_valid_iff {schema : Schema} {s : Snapshot} {requireFields : Bool} :
    schema.check s requireFields = .valid ↔
      (requireFields = true → schema.HasRequired s) ∧ schema.MarkFits s := by
  have required :
      (∀ check ∈ (schema.fields.filter fun spec => requireFields && spec.required).map
          (checkField s), check = Validation.valid) ↔
        (requireFields = true → schema.HasRequired s) := by
    rw [List.forall_mem_map]
    cases requireFields <;> simp [HasRequired, checkField]
  rw [check, Validation.both_eq_valid_iff, Validation.all_eq_valid_iff, checkMark_eq_valid_iff,
    required]

/-- A snapshot that does not pass the check of a schema does not for some reason. -/
theorem reasons_check_eq_nil_iff {schema : Schema} {s : Snapshot} {requireFields : Bool} :
    (schema.check s requireFields).reasons = [] ↔ schema.check s requireFields = .valid := by
  have mark : (schema.checkMark s).reasons = [] ↔ schema.checkMark s = .valid := by
    unfold checkMark
    split
    · simp [Validation.reasons]
    · exact Validation.reasons_check_eq_nil_iff ..
  have fields (specs : List FieldSpec) :
      (Validation.all (specs.map (checkField s))).reasons = [] ↔
        Validation.all (specs.map (checkField s)) = .valid := by
    rw [Validation.reasons_all, Validation.all_eq_valid_iff, List.flatMap_eq_nil_iff]
    simp only [List.forall_mem_map, checkField, Validation.reasons_check_eq_nil_iff]
  rw [check, Validation.reasons_both, List.append_eq_nil_iff, Validation.both_eq_valid_iff, fields, mark]

end Schema

end Replica
