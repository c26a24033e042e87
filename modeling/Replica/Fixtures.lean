import Replica.Message
/-! Sample messages about companies and their employees. -/
namespace Replica.Fixtures

/-- A company was created. -/
def companyCreated (id name : String) (emittedAt : Stamp) : Message :=
  { entityId := id, entityKind := "company", action := .created
    snapshot := SortedMap.ofPairs [("name", .str name)], emittedAt, isForceSync := false }

/-- An employee of a company was created. -/
def employeeCreated (id name company : String) (emittedAt : Stamp) : Message :=
  { entityId := id, entityKind := "employee", action := .created
    snapshot := SortedMap.ofPairs [("name", .str name), ("companyId", .str company)]
    emittedAt, isForceSync := false }

end Replica.Fixtures
