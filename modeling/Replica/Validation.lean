/-! Outcomes of structural checks. Combining two failed checks keeps the reasons of both, so that
every problem is seen at once. -/
namespace Replica

/-- The outcome of a check. -/
inductive Validation where
  /-- Nothing is wrong. -/
  | valid
  /-- Something is wrong, for these reasons. -/
  | invalid (reasons : List String)
  deriving DecidableEq, Repr

namespace Validation

/-- A check that fails for one reason unless a condition holds. -/
def check (condition : Bool) (reason : String) : Validation :=
  if condition then valid else invalid [reason]

/-- Whether nothing is wrong. -/
def isValid : Validation → Bool
  | valid => true
  | invalid _ => false

/-- The reasons, none when nothing is wrong. -/
def reasons : Validation → List String
  | valid => []
  | invalid reasons => reasons

/-- Both checks, with the reasons of both. -/
def both : Validation → Validation → Validation
  | valid, second => second
  | first, valid => first
  | invalid first, invalid second => invalid (first ++ second)

/-- The second check, made only if nothing is wrong so far. -/
def andThen : Validation → (Unit → Validation) → Validation
  | valid, next => next ()
  | invalid reasons, _ => invalid reasons

/-- All checks of a list, with the reasons of all. -/
def all (checks : List Validation) : Validation := checks.foldl both valid

/-- The reasons as a failure. -/
def toExcept : Validation → Except (List String) Unit
  | valid => .ok ()
  | invalid reasons => .error reasons

end Validation

end Replica
