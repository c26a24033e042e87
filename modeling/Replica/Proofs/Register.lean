import Replica.Proofs.Records
import Replica.Proofs.Sample
/-! A store under any requests. Whatever is asked of a store and in whatever order, it holds for each entity the
record with the greatest stamp among all that were written and did not fail, the earliest of them where stamps
are equal; the answers to writes say so, and failures come exactly when they were told to. So a store is a
register of maxima, which the order of the writes does not matter to where stamps tell records apart. -/
namespace Replica

/-- Among these records, in the order in which they came, the record is the first with the greatest stamp. -/
def Record.Prevails (record : Record) (among : List Record) : Prop :=
  ∃ earlier later, among = earlier ++ record :: later ∧
    (∀ other ∈ earlier, other.lastSyncedAt < record.lastSyncedAt) ∧
    ∀ other ∈ later, other.lastSyncedAt ≤ record.lastSyncedAt

/-- The outcome of writing the record is the one that belongs to the records written before for its entity. -/
structure Upsert.Follows (outcome : Upsert) (earlier : List Record) (record : Record) : Prop where
  /-- The first is inserted. -/
  inserted_iff : outcome = .inserted ↔ earlier = []
  /-- One that is newer than all earlier ones replaces. -/
  replaced_iff : outcome = .replaced ↔
    earlier ≠ [] ∧ ∀ old ∈ earlier, old.lastSyncedAt < record.lastSyncedAt
  /-- Any other is stale, and the stamp is that of the record there. -/
  stale_iff : ∀ stamp, outcome = .stale stamp ↔
    ∃ old : Record, old.Prevails earlier ∧ record.lastSyncedAt ≤ old.lastSyncedAt ∧
      stamp = old.lastSyncedAt

namespace Records

/-- The record there after one more was written. -/
def newer (current : Option Record) (record : Record) : Record :=
  match current with
  | none => record
  | some old => if record.lastSyncedAt ≤ old.lastSyncedAt then old else record

/-- The record there after all of these were written. -/
def newest (among : List Record) : Option Record :=
  among.foldl (fun current record => some (newer current record)) none

@[simp]
theorem newest_append (among : List Record) (record : Record) :
    newest (among ++ [record]) = some (newer (newest among) record) :=
  List.foldl_append

/-- Writing keeps the newer record of the entity and leaves all others alone. -/
theorem get?_upsert (records : Records) (record : Record) (key : EntityKey) :
    SortedMap.get? (records.upsert record).2 key =
      if key = record.key then some (newer (SortedMap.get? records key) record)
      else SortedMap.get? records key := by
  split
  · rename_i own
    subst key
    cases found : SortedMap.get? records record.key with
    | none => simp [upsert, found, newer, SortedMap.get?_insert_self]
    | some old =>
      by_cases late : record.lastSyncedAt ≤ old.lastSyncedAt
      · simp [upsert, found, newer, late]
      · simp [upsert, found, newer, late, SortedMap.get?_insert_self]
  · exact get?_upsert_of_ne records record ‹_›

/-- The three ways in which a write can end. -/
theorem upsert_answers (records : Records) (record : Record) :
    ((records.upsert record).1 = .inserted ↔ SortedMap.get? records record.key = none) ∧
    ((records.upsert record).1 = .replaced ↔
      ∃ old, SortedMap.get? records record.key = some old ∧
        old.lastSyncedAt < record.lastSyncedAt) ∧
    ∀ stamp, (records.upsert record).1 = .stale stamp ↔
      ∃ old, SortedMap.get? records record.key = some old ∧
        record.lastSyncedAt ≤ old.lastSyncedAt ∧ stamp = old.lastSyncedAt := by
  cases found : SortedMap.get? records record.key with
  | none => simp [upsert, found]
  | some old =>
    by_cases late : record.lastSyncedAt ≤ old.lastSyncedAt
    · simp [upsert, found, late, ← Stamp.not_le, eq_comm]
    · simp [upsert, found, late, ← Stamp.not_le]

end Records

namespace Record.Prevails

variable {record : Record} {among : List Record}

theorem mem (prevails : record.Prevails among) : record ∈ among := by
  obtain ⟨earlier, later, rfl, -, -⟩ := prevails
  simp

theorem le (prevails : record.Prevails among) {other : Record} (there : other ∈ among) :
    other.lastSyncedAt ≤ record.lastSyncedAt := by
  obtain ⟨earlier, later, rfl, before, after⟩ := prevails
  rcases List.mem_append.1 there with first | rest
  · exact Stamp.le_of_lt (before other first)
  · rcases List.mem_cons.1 rest with rfl | last
    · exact Stamp.le_refl _
    · exact after other last

/-- A record is newer than all if it is newer than the one that prevails. -/
theorem lt_iff (prevails : record.Prevails among) {stamp : Stamp} :
    record.lastSyncedAt < stamp ↔ ∀ other ∈ among, other.lastSyncedAt < stamp :=
  ⟨fun newer _ there => Int.lt_of_le_of_lt (prevails.le there) newer,
    fun newer => newer record prevails.mem⟩

theorem last (newer : ∀ other ∈ among, other.lastSyncedAt < record.lastSyncedAt) :
    record.Prevails (among ++ [record]) :=
  ⟨among, [], rfl, newer, by simp⟩

theorem append (prevails : record.Prevails among) {other : Record}
    (late : other.lastSyncedAt ≤ record.lastSyncedAt) : record.Prevails (among ++ [other]) := by
  obtain ⟨earlier, later, rfl, before, after⟩ := prevails
  refine ⟨earlier, later ++ [other], by simp, before, ?_⟩
  simpa [or_imp, forall_and] using ⟨after, late⟩

end Record.Prevails

namespace Records

variable {record : Record} {among : List Record}

theorem newest_eq_none_iff : newest among = none ↔ among = [] := by
  cases among using List.reverseRecOn <;> simp [newest]

theorem prevails_of_newest (found : newest among = some record) : record.Prevails among := by
  induction among using List.reverseRec generalizing record with
  | nil => cases found
  | append_singleton among last ih =>
    rw [newest_append, Option.some.injEq] at found
    cases current : newest among with
    | none =>
      obtain rfl : last = record := by simpa [newer, current] using found
      exact .last (by simp [newest_eq_none_iff.1 current])
    | some old =>
      have before := ih current
      by_cases late : last.lastSyncedAt ≤ old.lastSyncedAt
      · obtain rfl : old = record := by simpa [newer, current, late] using found
        exact before.append late
      · obtain rfl : last = record := by simpa [newer, current, late] using found
        exact .last (before.lt_iff.1 (Stamp.not_le.1 late))

/-- The fold over the records written arrives at the one that prevails. -/
theorem newest_eq_some_iff : newest among = some record ↔ record.Prevails among := by
  refine ⟨prevails_of_newest, ?_⟩
  rintro ⟨earlier, later, rfl, before, after⟩
  induction later using List.reverseRec with
  | nil =>
    rw [newest_append, Option.some.injEq]
    cases current : newest earlier with
    | none => rfl
    | some old =>
      have older := before old (prevails_of_newest current).mem
      simp [newer, ← Stamp.not_le] at older ⊢
      simp [older]
  | append_singleton later last ih =>
    have late : last.lastSyncedAt ≤ record.lastSyncedAt := after last (by simp)
    have kept := ih fun other there => after other (List.mem_append_left _ there)
    rw [← List.cons_append, ← List.append_assoc, newest_append, kept]
    simp [newer, late]

/-- Where stamps tell records apart, their order does not matter. -/
theorem newest_eq_of_perm {others : List Record} (same : others.Perm among)
    (tell : ∀ a ∈ among, ∀ b ∈ among, a.lastSyncedAt = b.lastSyncedAt → a = b) :
    newest others = newest among := by
  cases found : newest among with
  | none =>
    rw [newest_eq_none_iff] at found ⊢
    subst found
    exact same.eq_nil
  | some record =>
    have prevails := newest_eq_some_iff.1 found
    cases other : newest others with
    | none =>
      rw [newest_eq_none_iff.1 other] at same
      simp [same.symm.eq_nil, newest] at found
    | some record' =>
      have too := newest_eq_some_iff.1 other
      have stamps := Stamp.le_antisymm (prevails.le (same.subset too.mem))
        (too.le (same.symm.subset prevails.mem))
      rw [tell record' (same.subset too.mem) record prevails.mem stamps]

end Records

namespace Store

/-- What a store can be asked. -/
inductive Request where
  /-- To write a record unless the one there is as new or newer. -/
  | upsert (record : Record)
  /-- For the record of an entity. -/
  | load (key : EntityKey)
  /-- For the records of a kind. -/
  | list (kind : String) (includeDeleted : Bool)
  /-- For all records. -/
  | snapshot
  /-- To make the next writes fail. -/
  | failNext (count : Nat)

/-- What a store answers. -/
inductive Answer where
  /-- What became of a write. -/
  | upserted (result : Except SyncError Upsert)
  /-- The record of an entity. -/
  | loaded (record : Option Record)
  /-- Several records. -/
  | listed (records : List Record)
  /-- Writes will fail. -/
  | told

/-- Whether a write is asked for. -/
def Request.isUpsert : Request → Bool
  | upsert _ => true
  | _ => false

/-- Does what is asked. -/
def serve (store : Store) : Request → Answer × Store
  | .upsert record =>
    let (result, store) := store.upsertIfNewer record
    (.upserted result, store)
  | .load key => (.loaded (store.load key), store)
  | .list kind includeDeleted => (.listed (store.records.ofKind kind includeDeleted), store)
  | .snapshot => (.listed (SortedMap.values store.records), store)
  | .failNext count => (.told, store.failNextWrites count)

/-- A store, and all that it was asked and has answered. -/
structure Session where
  /-- The store. -/
  store : Store := {}
  /-- The requests with their answers, in order. -/
  log : List (Request × Answer) := []

/-- Does what is asked and notes the answer. -/
def Session.serve (session : Session) (request : Request) : Session :=
  let (answer, store) := session.store.serve request
  { store, log := session.log ++ [(request, answer)] }

/-- Does all that is asked of a new store. -/
def serveAll (requests : List Request) : Session := requests.foldl Session.serve {}

/-- The records whose writes did not fail, in order. -/
def upserts (log : List (Request × Answer)) : List Record :=
  log.filterMap fun
    | (.upsert record, .upserted (.ok _)) => some record
    | _ => none

/-- The records of an entity whose writes did not fail, in order. -/
def upsertsOf (key : EntityKey) (log : List (Request × Answer)) : List Record :=
  (upserts log).filter (·.key = key)

/-- After these requests the next write fails: since writes were last told to fail there were fewer of them
than were told to. -/
def FailsNext (requests : List Request) : Prop :=
  ∃ earlier count between, requests = earlier ++ .failNext count :: between ∧
    (∀ n, .failNext n ∉ between) ∧ between.countP (·.isUpsert) < count

/-! ### What a request changes -/

@[simp]
theorem serveAll_append (requests : List Request) (request : Request) :
    serveAll (requests ++ [request]) = (serveAll requests).serve request := by
  simp [serveAll]

/-- What a write that was told to fail leaves, and what one that was not does to the records. -/
theorem upsertIfNewer_of_failing (store : Store) (record : Record) :
    (0 < store.failingWrites →
      store.upsertIfNewer record =
        (.error injectedFailure, { store with failingWrites := store.failingWrites - 1 })) ∧
    (store.failingWrites = 0 →
      store.upsertIfNewer record =
        (.ok (store.records.upsert record).1, { store with records := (store.records.upsert record).2 })) := by
  cases failing : store.failingWrites with
  | zero => simp [upsertIfNewer, failing]
  | succ left => simp [upsertIfNewer, failing]

theorem failingWrites_serve (session : Session) (request : Request) :
    (session.serve request).store.failingWrites =
      match request with
      | .failNext count => count
      | request => session.store.failingWrites - (request.isUpsert).toNat := by
  cases request with
  | upsert record =>
    obtain ⟨failing, fine⟩ := session.store.upsertIfNewer_of_failing record
    rcases Nat.eq_zero_or_pos session.store.failingWrites with none | some
    · simp [Session.serve, serve, fine none, none]
    · simp [Session.serve, serve, failing some, Request.isUpsert]
  | failNext count => rfl
  | _ => simp [Session.serve, serve, Request.isUpsert]

/-- While writes are not told to fail anew, each write takes one off those that fail. -/
theorem failingWrites_foldl_serve {requests : List Request} (quiet : ∀ n, .failNext n ∉ requests)
    (session : Session) :
    (requests.foldl Session.serve session).store.failingWrites =
      session.store.failingWrites - requests.countP (·.isUpsert) := by
  induction requests generalizing session with
  | nil => rfl
  | cons request requests ih =>
    simp only [List.mem_cons, not_or, forall_and] at quiet
    rw [List.foldl_cons, ih quiet.2, failingWrites_serve, List.countP_cons]
    cases request with
    | failNext n => simp at quiet
    | upsert record => simp only [Request.isUpsert, Bool.toNat_true, if_pos]; omega
    | _ => simp [Request.isUpsert]

theorem failingWrites_between (earlier : List Request) (count : Nat) {between : List Request}
    (quiet : ∀ n, .failNext n ∉ between) :
    (serveAll (earlier ++ .failNext count :: between)).store.failingWrites =
      count - between.countP (·.isUpsert) := by
  rw [serveAll, List.foldl_append, List.foldl_cons, failingWrites_foldl_serve quiet, failingWrites_serve]

theorem failingWrites_of_quiet {requests : List Request} (quiet : ∀ n, .failNext n ∉ requests) :
    (serveAll requests).store.failingWrites = 0 := by
  rw [serveAll, failingWrites_foldl_serve quiet]
  exact Nat.zero_sub _

/-- Writes were never told to fail, or there is a last time that they were. -/
theorem quiet_or_exists_last (requests : List Request) :
    (∀ n, .failNext n ∉ requests) ∨ ∃ earlier count between,
      requests = earlier ++ .failNext count :: between ∧ ∀ n, .failNext n ∉ between := by
  induction requests using List.reverseRec with
  | nil => exact .inl (by simp)
  | append_singleton requests request ih =>
    by_cases told : ∃ count, request = .failNext count
    · obtain ⟨count, rfl⟩ := told
      exact .inr ⟨requests, count, [], rfl, by simp⟩
    · have other (n : Nat) : .failNext n ≠ request := fun same => told ⟨n, same.symm⟩
      rcases ih with quiet | ⟨earlier, count, between, rfl, quiet⟩
      · exact .inl (by simpa [other] using quiet)
      · exact .inr ⟨earlier, count, between ++ [request], by simp, by simpa [other] using quiet⟩

theorem failsNext_iff {requests : List Request} :
    FailsNext requests ↔ 0 < (serveAll requests).store.failingWrites := by
  constructor
  · rintro ⟨earlier, count, between, rfl, quiet, fewer⟩
    rw [failingWrites_between earlier count quiet]
    omega
  · intro failing
    rcases quiet_or_exists_last requests with quiet | ⟨earlier, count, between, rfl, quiet⟩
    · simp [failingWrites_of_quiet quiet] at failing
    · rw [failingWrites_between earlier count quiet] at failing
      exact ⟨earlier, count, between, rfl, quiet, by omega⟩

theorem upsertsOf_append (key : EntityKey) (log : List (Request × Answer)) (record : Record)
    (outcome : Upsert) :
    upsertsOf key (log ++ [(.upsert record, .upserted (.ok outcome))]) =
      if record.key = key then upsertsOf key log ++ [record] else upsertsOf key log := by
  by_cases own : record.key = key <;> simp [upsertsOf, upserts, own]

/-- For each entity the store holds the newest of the records written. -/
def Session.Registers (session : Session) : Prop :=
  ∀ key, session.store.load key = Records.newest (upsertsOf key session.log)

theorem Session.Registers.serve {session : Session} (registers : session.Registers)
    (request : Request) : (session.serve request).Registers := by
  intro key
  have before := registers key
  cases request with
  | upsert record =>
    obtain ⟨failing, fine⟩ := session.store.upsertIfNewer_of_failing record
    rcases Nat.eq_zero_or_pos session.store.failingWrites with none | some
    · simp only [Session.serve, Store.serve, fine none, load, upsertsOf_append, Records.get?_upsert]
      by_cases own : key = record.key
      · subst key
        rw [if_pos rfl, if_pos rfl, Records.newest_append, ← before]
        rfl
      · rw [if_neg own, if_neg (Ne.symm own)]
        exact before
    · simpa [Session.serve, Store.serve, failing some, load, upsertsOf, upserts] using before
  | _ => simpa [Session.serve, Store.serve, load, upsertsOf, upserts, failNextWrites] using before

theorem registers_serveAll (requests : List Request) : (serveAll requests).Registers := by
  induction requests using List.reverseRec with
  | nil => exact fun _ => rfl
  | append_singleton requests request ih =>
    rw [serveAll_append]
    exact ih.serve request

section Histories

variable {requests : List Request} {store : Store} {log : List (Request × Answer)}

/-- What is found for an entity is the record that prevails among those written for it. -/
theorem load_eq_some_iff (served : serveAll requests = ⟨store, log⟩) {key : EntityKey} {record : Record} :
    store.load key = some record ↔ record.Prevails (upsertsOf key log) := by
  have registers := registers_serveAll requests key
  rw [served] at registers
  rw [registers, Records.newest_eq_some_iff]

theorem load_eq_none_iff (served : serveAll requests = ⟨store, log⟩) {key : EntityKey} :
    store.load key = none ↔ upsertsOf key log = [] := by
  have registers := registers_serveAll requests key
  rw [served] at registers
  rw [registers, Records.newest_eq_none_iff]

/-- All records there are those that prevail for their own entity. -/
theorem mem_values_iff (served : serveAll requests = ⟨store, log⟩) {record : Record} :
    record ∈ SortedMap.values store.records ↔ record.Prevails (upsertsOf record.key log) := by
  rw [SortedMap.mem_values_iff]
  constructor
  · rintro ⟨key, found⟩
    have prevails := (load_eq_some_iff served).1 found
    have own : record.key = key := by simpa using (List.mem_filter.1 prevails.mem).2
    rwa [own]
  · intro prevails
    exact ⟨record.key, (load_eq_some_iff served).2 prevails⟩

theorem upsertIfNewer_of_failsNext (served : serveAll requests = ⟨store, log⟩)
    (fails : FailsNext requests) (record : Record) :
    (store.upsertIfNewer record).1 = .error injectedFailure ∧
      (store.upsertIfNewer record).2.records = store.records := by
  rw [failsNext_iff, served] at fails
  simp [(store.upsertIfNewer_of_failing record).1 fails]

theorem upsertIfNewer_of_not_failsNext (served : serveAll requests = ⟨store, log⟩)
    (fine : ¬ FailsNext requests) (record : Record) :
    ∃ outcome, (store.upsertIfNewer record).1 = .ok outcome ∧
      outcome.Follows (upsertsOf record.key log) record := by
  rw [failsNext_iff, served, Nat.not_lt, Nat.le_zero] at fine
  rw [(store.upsertIfNewer_of_failing record).2 fine]
  obtain ⟨inserted, replaced, stale⟩ := Records.upsert_answers store.records record
  have found (old : Record) :
      SortedMap.get? store.records record.key = some old ↔ old.Prevails (upsertsOf record.key log) :=
    load_eq_some_iff served
  refine ⟨_, rfl, inserted.trans (load_eq_none_iff served), ?_, by simpa [found] using stale⟩
  rw [replaced]
  constructor
  · rintro ⟨old, there, newer⟩
    have prevails := (found old).1 there
    exact ⟨List.ne_nil_of_mem prevails.mem, prevails.lt_iff.1 newer⟩
  · rintro ⟨some, newer⟩
    have there : store.load record.key ≠ none := mt (load_eq_none_iff served).1 some
    obtain ⟨old, there⟩ := Option.ne_none_iff_exists'.1 there
    exact ⟨old, there, newer old ((load_eq_some_iff served).1 there).mem⟩

/-- Two stores for which the same writes did not fail, in whatever order, have the same records, if no two
different ones of an entity have one stamp. -/
theorem records_eq_of_perm (served : serveAll requests = ⟨store, log⟩) {others : List Request}
    {other : Session} (too : serveAll others = other) (same : (upserts other.log).Perm (upserts log))
    (tell : ∀ a ∈ upserts log, ∀ b ∈ upserts log,
      a.key = b.key → a.lastSyncedAt = b.lastSyncedAt → a = b) :
    other.store.records = store.records := by
  apply SortedMap.ext_get?
  intro key
  have first := registers_serveAll requests key
  have second := registers_serveAll others key
  rw [served] at first
  rw [too] at second
  refine second.trans (Eq.trans ?_ first.symm)
  refine Records.newest_eq_of_perm (same.filter _) fun a there b too stamps => ?_
  obtain ⟨amongA, ownA⟩ := List.mem_filter.1 there
  obtain ⟨amongB, ownB⟩ := List.mem_filter.1 too
  exact tell a amongA b amongB (by simp_all) stamps

/-- Ask a new store anything, in any order. Then it has for each entity the record with the greatest stamp of
all that were written and did not fail, the earliest of them where stamps are equal, and shows it to all who
look, list or ask for all; for an entity without such a write it has none. The next write, whatever it is, fails
exactly if fewer were asked for since writes were last told to fail than were told to, and then changes no
record. Otherwise it inserts exactly if it is the first of its entity that did not fail, replaces exactly if it
is newer than all before, and else is stale with the stamp of the record there. Any other requests of which the
same writes did not fail, in another order, lead to the same records, if no two different ones of an entity
have one stamp. -/
theorem greatest_upserts_kept (served : serveAll requests = ⟨store, log⟩) :
    (∀ key, (store.load key = none ↔ upsertsOf key log = []) ∧
      ∀ record, store.load key = some record ↔ record.Prevails (upsertsOf key log)) ∧
    (∀ record, record ∈ SortedMap.values store.records ↔
      record.Prevails (upsertsOf record.key log)) ∧
    (∀ kind includeDeleted record, record ∈ store.records.ofKind kind includeDeleted ↔
      record.key.kind = kind ∧ (includeDeleted = false → record.isLive = true) ∧
        record.Prevails (upsertsOf record.key log)) ∧
    (∀ record,
      (FailsNext requests →
        (store.upsertIfNewer record).1 = .error injectedFailure ∧
          (store.upsertIfNewer record).2.records = store.records) ∧
      (¬ FailsNext requests → ∃ outcome, (store.upsertIfNewer record).1 = .ok outcome ∧
        outcome.Follows (upsertsOf record.key log) record)) ∧
    (∀ others, (upserts (serveAll others).log).Perm (upserts log) →
      (∀ a ∈ upserts log, ∀ b ∈ upserts log,
        a.key = b.key → a.lastSyncedAt = b.lastSyncedAt → a = b) →
      (serveAll others).store.records = store.records) := by
  refine ⟨fun key => ⟨load_eq_none_iff served, fun record => load_eq_some_iff served⟩,
    fun record => mem_values_iff served, fun kind includeDeleted record => ?_,
    fun record => ⟨fun fails => upsertIfNewer_of_failsNext served fails record,
      fun fine => upsertIfNewer_of_not_failsNext served fine record⟩,
    fun others same tell => records_eq_of_perm served rfl same tell⟩
  rw [Records.ofKind, List.mem_filter, mem_values_iff served]
  cases includeDeleted <;> simp <;> tauto

end Histories

section Samples

open Fixtures

/-- A record of the company. -/
def acmeCalled (name : String) (syncedAt : Stamp) : Record :=
  { key := acme, fields := SortedMap.ofPairs [("name", .str name)], lastSyncedAt := syncedAt
    isDeleted := false }

/-- Of five writes told to fail one does, then one is told to; what is written after it comes in no order and
partly twice, and then two are told to fail. -/
def unruly : List Request :=
  [ .failNext 5, .upsert (acmeCalled "Lost" (stamp 8)), .failNext 1, .snapshot,
    .upsert (acmeCalled "Lost" (stamp 9)), .upsert (acmeCalled "Acme" (stamp 2)),
    .upsert (acmeCalled "Acme Ltd" (stamp 3)), .load acme, .upsert (acmeCalled "Acme" (stamp 2)),
    .failNext 2, .upsert (acmeCalled "Lost" (stamp 7)), .list "company" true ]

/-- The writes that did not fail, in another order. -/
def orderly : List Request :=
  [ .upsert (acmeCalled "Acme" (stamp 2)), .upsert (acmeCalled "Acme" (stamp 2)),
    .upsert (acmeCalled "Acme Ltd" (stamp 3)) ]

theorem greatest_upserts_kept_unruly :
    (serveAll unruly = ⟨(serveAll unruly).store, (serveAll unruly).log⟩ ∧
      (upserts (serveAll orderly).log).Perm (upserts (serveAll unruly).log) ∧
      ∀ a ∈ upserts (serveAll unruly).log, ∀ b ∈ upserts (serveAll unruly).log,
        a.key = b.key → a.lastSyncedAt = b.lastSyncedAt → a = b) ∧
    (serveAll unruly).store.load acme = some (acmeCalled "Acme Ltd" (stamp 3)) ∧
    FailsNext unruly ∧
    ((serveAll unruly).store.upsertIfNewer (acmeCalled "Lost" (stamp 9))).1 = .error injectedFailure ∧
    ((serveAll orderly).store.upsertIfNewer (acmeCalled "Late" (stamp 3))).1 = .ok (.stale (stamp 3)) ∧
    (serveAll orderly).store.records = (serveAll unruly).store.records := by
  have written : upserts (serveAll unruly).log =
      [acmeCalled "Acme" (stamp 2), acmeCalled "Acme Ltd" (stamp 3), acmeCalled "Acme" (stamp 2)] := rfl
  have same : (upserts (serveAll orderly).log).Perm (upserts (serveAll unruly).log) :=
    .cons _ (.swap _ _ _)
  have tell : ∀ a ∈ upserts (serveAll unruly).log, ∀ b ∈ upserts (serveAll unruly).log,
      a.key = b.key → a.lastSyncedAt = b.lastSyncedAt → a = b := by
    rw [written]
    decide
  have fails : FailsNext unruly := failsNext_iff.2 (by decide)
  have served (requests : List Request) :
      serveAll requests = ⟨(serveAll requests).store, (serveAll requests).log⟩ := rfl
  obtain ⟨found, -, -, next, order⟩ := greatest_upserts_kept (served unruly)
  obtain ⟨-, -, -, nextOrderly, -⟩ := greatest_upserts_kept (served orderly)
  refine ⟨⟨served unruly, same, tell⟩, ?_, fails, ((next _).1 fails).1, ?_, order orderly same tell⟩
  · rw [(found acme).2]
    exact ⟨[acmeCalled "Acme" (stamp 2)], [acmeCalled "Acme" (stamp 2)], rfl, by decide, by decide⟩
  · obtain ⟨outcome, made, follows⟩ := (nextOrderly (acmeCalled "Late" (stamp 3))).2
      (mt failsNext_iff.1 (by decide))
    rw [made, (follows.stale_iff (stamp 3)).2]
    have prevails : (acmeCalled "Acme Ltd" (stamp 3)).Prevails (upsertsOf acme (serveAll orderly).log) :=
      ⟨[acmeCalled "Acme" (stamp 2), acmeCalled "Acme" (stamp 2)], [], rfl, by decide, by decide⟩
    exact ⟨_, prevails, by decide, rfl⟩

end Samples

end Store

end Replica
