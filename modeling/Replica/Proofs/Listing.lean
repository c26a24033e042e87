import Replica.Proofs.Bytes
import Replica.Proofs.Foresight
import Replica.Proofs.Integrity
import Replica.Replay.Basic
/-! The records in a report. They are listed kind by kind, for each kind with a handler, while the mirror
itself can be told as a whole, sorted by key. Every record stands under its own key and has a handler for
its kind, so both give the same list, however the mirror was filled and in whatever order it keeps what it
has. -/
namespace Replica

/-- What is sorted strictly is the only way to sort its members. -/
theorem mergeSort_eq_of_perm {α : Type} (order : α → α → Ordering) [Std.TransCmp order] {kept sorted : List α}
    (perm : kept.Perm sorted) (rising : sorted.Pairwise fun a b => order a b = .lt) :
    kept.mergeSort (fun a b => (order a b).isLE) = sorted := by
  have perm := (List.mergeSort_perm kept fun a b => (order a b).isLE).trans perm
  have ordered : (kept.mergeSort fun a b => (order a b).isLE).Pairwise fun a b => (order a b).isLE = true := by
    apply List.pairwise_mergeSort
    · exact fun _ _ _ => Std.TransCmp.isLE_trans
    · intro a b
      have swap : order b a = (order a b).swap := Std.OrientedCmp.eq_swap
      rw [swap]
      cases order a b <;> rfl
  -- no two members are equal in the order, and that does not depend on where they stand
  have distinct : (kept.mergeSort fun a b => (order a b).isLE).Pairwise fun a b => order a b ≠ .eq := by
    apply (perm.pairwise_iff fun different same => different (Std.OrientedCmp.eq_symm same)).2
    apply rising.imp
    intro a b less
    simp [less]
  have strict : (kept.mergeSort fun a b => (order a b).isLE).Pairwise fun a b => order a b = .lt := by
    apply (ordered.and distinct).imp
    rintro a b ⟨isLE, different⟩
    cases same : order a b <;> simp_all
  refine List.Perm.eq_of_pairwise ?_ strict rising perm
  intro a b _ _ less greater
  simp [Std.OrientedCmp.gt_of_lt less] at greater

namespace Records

/-- All records by key, from whatever order they are kept in. -/
def byKey (kept : List Record) : List Record :=
  kept.mergeSort fun a b => (compare a.key b.key).isLE

/-- The records of a kind by id, deleted ones only if asked for, from whatever order all are kept in. -/
def byId (kind : String) (includeDeleted : Bool) (kept : List Record) : List Record :=
  (kept.filter fun r => r.key.kind == kind && (includeDeleted || r.isLive)).mergeSort fun a b =>
    (compare a.key.id b.key.id).isLE

variable {registry : Registry} {records : Records}

/-- Where records stand under their own keys, they rise by key. -/
theorem WellFormed.rising (fine : WellFormed registry records) :
    (SortedMap.values records).Pairwise fun a b => compare a.key b.key = .lt := by
  rw [SortedMap.values, List.pairwise_map]
  apply records.ascending.imp_of_mem
  intro a b first later less
  rw [(fine _ _ (SortedMap.get?_eq_some_iff.2 first)).1, (fine _ _ (SortedMap.get?_eq_some_iff.2 later)).1]
  exact less

theorem WellFormed.rising_ofKind (fine : WellFormed registry records) (kind : String) (includeDeleted : Bool) :
    (records.ofKind kind includeDeleted).Pairwise fun a b => compare a.key b.key = .lt :=
  fine.rising.filter _

/-- The records of a kind are listed by id. -/
theorem WellFormed.ofKind_eq_byId (fine : WellFormed registry records) {kept : List Record}
    (perm : kept.Perm (SortedMap.values records)) (kind : String) (includeDeleted : Bool) :
    byId kind includeDeleted kept = records.ofKind kind includeDeleted := by
  apply mergeSort_eq_of_perm (compareOn fun r : Record => r.key.id) (perm.filter _)
  apply (fine.rising_ofKind kind includeDeleted).imp_of_mem
  intro a b first later less
  have same : a.key.kind = b.key.kind := by
    simp only [ofKind, List.mem_filter, Bool.and_eq_true, beq_iff_eq] at first later
    rw [first.2.1, later.2.1]
  rcases EntityKey.compare_eq_lt_iff.1 less with kinds | ⟨-, ids⟩
  · exact absurd kinds (same ▸ List.lt_irrefl _)
  · exact Text.compare_eq_lt_iff.2 ids

theorem WellFormed.eq_byKey (fine : WellFormed registry records) {kept : List Record}
    (perm : kept.Perm (SortedMap.values records)) : byKey kept = SortedMap.values records :=
  mergeSort_eq_of_perm (compareOn Record.key) perm fine.rising

end Records

namespace Replay

variable {registry : Registry} {records : Records}

/-- Kind by kind, all records come in the order of their keys. -/
theorem collect_eq_filter (fine : Records.WellFormed registry records) (includeDeleted : Bool) :
    collect registry records includeDeleted =
      (SortedMap.values records).filter fun r => includeDeleted || r.isLive := by
  have listed : (collect registry records includeDeleted).Pairwise fun a b => compare a.key b.key = .lt := by
    rw [collect, List.pairwise_flatMap]
    constructor
    · exact fun kind _ => fine.rising_ofKind kind includeDeleted
    · rw [SortedMap.keys, List.pairwise_map]
      apply registry.ascending.imp
      intro a b kinds first ofFirst later ofLater
      simp only [Records.ofKind, List.mem_filter, Bool.and_eq_true, beq_iff_eq] at ofFirst ofLater
      apply EntityKey.compare_eq_lt_iff.2
      rw [ofFirst.2.1, ofLater.2.1]
      exact .inl (Text.compare_eq_lt_iff.1 kinds)
  have rising := fine.rising.filter fun r => includeDeleted || r.isLive
  apply Entries.eq_of_mem_iff Record.key listed rising
  intro record
  simp only [collect, Records.ofKind, List.mem_flatMap, List.mem_filter, Bool.and_eq_true, beq_iff_eq]
  constructor
  · rintro ⟨kind, -, among, -, shown⟩
    exact ⟨among, shown⟩
  · rintro ⟨among, shown⟩
    -- the kind of every record has a handler
    obtain ⟨key, found⟩ := SortedMap.mem_values_iff.1 among
    obtain ⟨-, handler, registered, -⟩ := fine key record found
    refine ⟨record.key.kind, ?_, among, rfl, shown⟩
    exact List.mem_map_of_mem (SortedMap.get?_eq_some_iff.1 registered)

end Replay

namespace Crew

variable {σ : Type} {c : Consumer σ} {store : σ → Store} {moves : List (Move σ)}

/-- The report shows the whole mirror once. Take a consumer with the handlers of a subscriber's description, and
any run of it on a store that was empty at first and that nobody else writes to. In whatever order the records are
kept in the end, the list that is collected for the report is all of them sorted by key, or those of them that are
not deleted; its parts are the lists by id of each kind. Its keys rise strictly by the bytes of their kinds, and
within a kind by those of their ids. -/
theorem collect_eq_byKey (on : c.OnStore store) {config : Subscriber.Config} (registered : c.registry = config.registry)
    (keeps : ∀ move ∈ moves, KeepsRecords store move) {s : σ} (fresh : (store s).records = ∅) :
    let records := (run c moves (opened s)).records store
    (∀ kept : List Record, kept.Perm (SortedMap.values records) →
      Replay.collect config.registry records true = Records.byKey kept ∧
      Replay.collect config.registry records false = (Records.byKey kept).filter Record.isLive ∧
      ∀ kind includeDeleted, records.ofKind kind includeDeleted = Records.byId kind includeDeleted kept) ∧
    (Replay.collect config.registry records true).Pairwise fun a b =>
      Text.utf8 a.key.kind < Text.utf8 b.key.kind ∨
        a.key.kind = b.key.kind ∧ Text.utf8 a.key.id < Text.utf8 b.key.id := by
  intro records
  have fine : Records.WellFormed config.registry records := by
    rw [← registered]
    apply wellFormed_run on keeps
    intro key record there
    rw [fresh] at there
    cases there
  have all : Replay.collect config.registry records true = SortedMap.values records := by
    rw [Replay.collect_eq_filter fine]
    simp
  constructor
  · intro kept perm
    rw [fine.eq_byKey perm]
    refine ⟨all, ?_, fun kind includeDeleted => (fine.ofKind_eq_byId perm kind includeDeleted).symm⟩
    rw [Replay.collect_eq_filter fine]
    simp
  · rw [all]
    exact fine.rising.imp EntityKey.compare_eq_lt_iff.1

section Samples

open Fixtures

/-- A company with a letter beyond ASCII in its id comes and goes, then another one is created, and then an employee
of the latter. -/
def outOfOrder : List (Move Store) :=
  [.receive 0 (companyCreated "é-1" "Élan" (stamp 1))] ++ steps 0 4 ++
    [.receive 1 { acmeDeleted ∅ (stamp 2) with entityId := "é-1" }] ++ steps 1 4 ++
    [.receive 2 (companyCreated "z-1" "Zenith" (stamp 1))] ++ steps 2 4 ++
    [.receive 3 (employeeCreated "e-1" "Ada" "z-1" (stamp 1))] ++ steps 3 5

theorem collect_eq_byKey_outOfOrder :
    (staffMirror.OnStore id ∧ staffMirror.registry = staff.registry ∧
      (∀ move ∈ outOfOrder, KeepsRecords id move) ∧ (id ({} : Store)).records = ∅) ∧
    let records := (run staffMirror outOfOrder (opened {})).records id
    (Records.byKey (SortedMap.values records).reverse).map (·.key.text) =
        ["company/z-1", "company/é-1", "employee/e-1"] ∧
      ((Records.byKey (SortedMap.values records).reverse).filter Record.isLive).map (·.key.text) =
        ["company/z-1", "employee/e-1"] := by
  have on : staffMirror.OnStore id := Consumer.onStore_of_backend rfl
  have keeps : ∀ move ∈ outOfOrder, KeepsRecords id move := by
    simp [outOfOrder, steps, Move.Within]
  refine ⟨⟨on, rfl, keeps, rfl⟩, ?_⟩
  intro records
  obtain ⟨all, live, -⟩ := (collect_eq_byKey on rfl keeps rfl).1 _ (List.reverse_perm (SortedMap.values records))
  rw [← live, ← all]
  exact ⟨rfl, rfl⟩

end Samples

end Crew

end Replica
