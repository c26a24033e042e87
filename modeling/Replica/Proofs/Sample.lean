import Replica.Fixtures
import Replica.Proofs.Crew
/-! A small service to show the theorems at work: it mirrors companies, which have a name and may be
marked as deleted, and employees, who have to wait for their company. -/
namespace Replica.Fixtures

/-- Companies need a name and wait for nothing. -/
def companies : Handler :=
  { schema := { kind := "company", fields := [⟨"name", true⟩, ⟨"city", false⟩]
                softDelete := some "isDeleted" }
    requirements := [], accepts := fun _ => true }

/-- Employees need a name and wait for their company. -/
def employees : Handler :=
  { schema := { kind := "employee", fields := [⟨"name", true⟩, ⟨"companyId", true⟩]
                softDelete := none }
    requirements := [⟨"companyId", "company", false⟩], accepts := fun _ => true }

/-- The service, on a store of its own. -/
def service : Consumer Store :=
  { registry := Registry.ofList [companies, employees], backend := Store.backend }

theorem service_onStore : service.OnStore id := Consumer.onStore_of_backend rfl

/-- A stamp for each of the first numbers. -/
def stamp (n : Nat) : Stamp := (Stamp.ofInt? n).getD .greatest

/-- The company all samples are about. -/
def acme : EntityKey := ⟨"company", "c-1"⟩

/-- The company was changed: these are its fields now. -/
def acmeUpdated (snapshot : Snapshot) (emittedAt : Stamp) : Message :=
  { entityId := "c-1", entityKind := "company", action := .updated, snapshot, emittedAt
    isForceSync := false }

/-- The company was deleted, and these fields are told of it. -/
def acmeDeleted (snapshot : Snapshot) (emittedAt : Stamp) : Message :=
  { acmeUpdated snapshot emittedAt with action := .deleted }

/-- An employee of the company was created. -/
def hire : Message := employeeCreated "e-1" "Ada" "c-1" (stamp 1)

/-- A dispatch makes several steps in a row. -/
def steps (id count : Nat) : List (Crew.Move Store) := List.replicate count (.step id)

end Replica.Fixtures
