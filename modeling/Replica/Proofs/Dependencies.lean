import Replica.Proofs.Retention
import Replica.Proofs.Sample
/-! What a message depends on when it is merged. The entities that it refers to are looked for one after
another, and each look finds a live record; but while the dispatch waits for the next one, or between
its last look and its write, another may be deleted. So at the write each entity either still has a live
record, or a deletion of it was written after the look. -/
namespace Replica

namespace Dispatch

/-- A message that the entity outlives waits for all its references. -/
theorem references_of_dependencies {handler : Handler} {m : Message} {waits : Option (List EntityKey)}
    (lives : m.action.isDeletion = false)
    (unmarked : handler.schema.isSoftDeleted m.snapshot = false)
    (needed : dependencies handler m = .ok waits) :
    Requirement.references handler.requirements m.snapshot = .ok (waits.getD []) := by
  cases requirements : handler.requirements with
  | nil =>
    rw [dependencies, lives, unmarked, requirements] at needed
    obtain rfl := Except.ok.inj needed
    rfl
  | cons first rest =>
    rw [dependencies, lives, unmarked, requirements] at needed
    cases fits : handler.schema.check m.snapshot true with
    | invalid reasons => simp [fits] at needed
    | valid =>
      cases referred : Requirement.references (first :: rest) m.snapshot with
      | error reasons => simp [fits, referred] at needed
      | ok keys =>
        simp only [fits, referred, List.isEmpty_cons, Bool.or_false, Bool.false_eq_true, if_false,
          Except.ok.injEq] at needed
        subst needed
        rfl

/-- The message waits for these entities, or for none, and of those that it does not still wait for, each
was seen. -/
def Awaited (registry : Registry) (seen : EntityKey → Prop) (m : Message) (left : List EntityKey) :
    Prop :=
  ∃ handler waits found, registry.handlerFor? m = some handler ∧
    dependencies handler m = .ok waits ∧ waits.getD [] = found ++ left ∧ ∀ key ∈ found, seen key

/-- What the dispatch has seen of the entities that its message waits for: as it looks for one, those
before it, and as it loads and writes, all. -/
def Informed (registry : Registry) (seen : EntityKey → Prop) (d : Dispatch) : Prop :=
  match d.phase with
  | .probing w => Awaited registry seen d.message (w.key :: w.later)
  | .pausing _ w => Awaited registry seen d.message (w.key :: w.later)
  | .loading _ => Awaited registry seen d.message []
  | .writing .. => Awaited registry seen d.message []
  | _ => True

variable {registry : Registry} {seen : EntityKey → Prop}

theorem Awaited.mono {m : Message} {left : List EntityKey} {later : EntityKey → Prop}
    (awaited : Awaited registry seen m left) (more : ∀ key, seen key → later key) :
    Awaited registry later m left := by
  obtain ⟨handler, waits, found, handled, needed, split, all⟩ := awaited
  exact ⟨handler, waits, found, handled, needed, split, fun key among => more key (all key among)⟩

/-- What was looked for and seen is not waited for any longer. -/
theorem Awaited.next {m : Message} {key : EntityKey} {left : List EntityKey}
    (awaited : Awaited registry seen m (key :: left)) (there : seen key) :
    Awaited registry seen m left := by
  obtain ⟨handler, waits, found, handled, needed, split, all⟩ := awaited
  refine ⟨handler, waits, found ++ [key], handled, needed, by simp [split], ?_⟩
  intro other among
  rcases List.mem_append.1 among with early | last
  · exact all other early
  · rw [List.mem_singleton.1 last]
    exact there

theorem Informed.mono {d : Dispatch} {later : EntityKey → Prop} (informed : d.Informed registry seen)
    (more : ∀ key, seen key → later key) : d.Informed registry later := by
  unfold Informed at informed ⊢
  cases phase : d.phase <;> simp only [phase] at informed ⊢
  all_goals exact informed.mono more

theorem informed_of_await {d : Dispatch} {schema : Schema} {since deadline now : Instant}
    {left : List EntityKey} (phase : d.phase = await schema since deadline now left)
    (awaited : Awaited registry seen d.message left) : d.Informed registry seen := by
  unfold Informed
  cases left with
  | nil =>
    rw [phase]
    exact awaited
  | cons key later =>
    rw [phase]
    exact awaited

theorem informed_of_receive {d : Dispatch} {budget : WaitBudget} {now : Instant}
    (phase : d.phase = receive registry budget now d.message) : d.Informed registry seen := by
  cases handled : registry.handlerFor? d.message with
  | none => simp [Informed, phase, receive, handled]
  | some handler =>
    cases needed : dependencies handler d.message with
    | error error => simp [Informed, phase, receive, handled, needed]
    | ok waits =>
      have fresh : Awaited registry seen d.message (waits.getD []) :=
        ⟨handler, waits, [], handled, needed, rfl, by simp⟩
      cases waits with
      | none =>
        have loads : d.phase = .loading handler.schema := by
          simp [phase, receive, handled, needed]
        simpa [Informed, loads] using fresh
      | some keys =>
        cases due : Instant.after? now (budget.budgetFor d.message.isForceSync) with
        | none => simp [Informed, phase, receive, handled, needed, due]
        | some deadline =>
          have waiting : d.phase = await handler.schema now deadline now keys := by
            simp [phase, receive, handled, needed, due]
          exact informed_of_await waiting fresh

/-- A step keeps what was seen, and a look that finds a live record adds to it. -/
theorem informed_step {c : Consumer Store} (backend : c.backend = Store.backend) (now : Instant)
    (desk : Desk Store) {d : Dispatch} (informed : d.Informed c.registry seen)
    (looked : ∀ w, d.phase = .probing w → desk.store.isLive w.key = true → seen w.key) :
    (d.step c now desk).2.Informed c.registry seen := by
  have made := d.phase_step (Consumer.onStore_of_backend backend) now desk
  have same := d.message_step (c := c) now desk
  generalize (d.step c now desk).2 = after at made same
  unfold Informed at informed
  cases phase : d.phase with
  | arrived =>
    simp only [phase] at made
    rw [← same] at made
    exact informed_of_receive made
  | probing w =>
    simp only [phase] at made informed
    have answered : (c.backend.probe w.key desk.store).1 = .ok (desk.store.isLive w.key) := by
      rw [backend]
      rfl
    rw [answered] at made
    rw [← same] at informed
    cases live : desk.store.isLive w.key with
    | true =>
      rw [live] at made
      exact informed_of_await made (informed.next (looked w phase live))
    | false =>
      rw [live, onProbe] at made
      cases pause : w.wait.pause? c.budget.backoff now with
      | none => simp [Informed, made, pause]
      | some next =>
        simp only [pause] at made
        simpa [Informed, made] using informed
  | pausing until_ w =>
    simp only [phase] at made informed
    rw [← same] at informed
    simpa [Informed, made] using informed
  | loading schema =>
    simp only [phase] at made informed
    rw [← same] at informed
    rcases onLoad_cases schema d.message ((id desk.store).load d.message.key) with
      ⟨record, outcome, goes, -⟩ | ⟨ends, -⟩ | ⟨reasons, ends, -⟩
    · simpa [Informed, made.trans goes] using informed
    · simp [Informed, made.trans ends]
    · simp [Informed, made.trans ends]
  | writing record outcome =>
    simp only [phase] at made
    rcases onWrite_cases outcome ((id desk.store).upsertIfNewer record).1 with ⟨error, -, ends⟩ |
      ⟨upsert, -, -, ends⟩ | ⟨upsert, -, -, ends⟩ <;> simp [Informed, made.trans ends]
  | closing ending =>
    simp only [phase] at made
    cases letter : ending.letter? d.message <;> simp [Informed, made, letter]
  | _ => simp [Informed, made, phase]

end Dispatch

namespace Crew

variable {c : Consumer Store} {moves : List (Move Store)} {s : Store}

/-- In the course of the moves, after its message was received, the dispatch looked for the entity: one of
the moves is its step, made when it was to look for the entity and the store held a live record of it. -/
def Saw (c : Consumer Store) (s : Store) (moves : List (Move Store)) (id : Nat) (m : Message)
    (key : EntityKey) : Prop :=
  ∃ before rest w, moves = before ++ .step id :: rest ∧
    (run c before (opened s)).dispatches.get? id = some ⟨m, .probing w⟩ ∧ w.key = key ∧
    (run c before (opened s)).desk.store.isLive key = true

theorem Saw.append {id : Nat} {m : Message} {key : EntityKey} (saw : Saw c s moves id m key)
    (move : Move Store) : Saw c s (moves ++ [move]) id m key := by
  obtain ⟨before, rest, w, rfl, there, own, live⟩ := saw
  exact ⟨before, rest ++ [move], w, by simp, there, own, live⟩

/-- Throughout a run, each dispatch saw the entities that it does not wait for any longer. -/
theorem informed_run (backend : c.backend = Store.backend) {id : Nat} {d : Dispatch}
    (found : (run c moves (opened s)).dispatches.get? id = some d) :
    d.Informed c.registry (Saw c s moves id d.message) := by
  induction moves using List.reverseRec generalizing d with
  | nil => cases found
  | append_singleton moves move ih =>
    rw [run_append, run_cons, run_nil] at found
    rcases get?_next_cases found with still | ⟨m, rfl, -, rfl⟩ | ⟨before, rfl, there, -, rfl⟩
    · exact (ih still).mono fun key saw => saw.append move
    · trivial
    · have informed : before.Informed c.registry (Saw c s (moves ++ [.step id]) id before.message) :=
        (ih there).mono fun key saw => saw.append (.step id)
      rw [Dispatch.message_step]
      refine Dispatch.informed_step backend _ _ informed fun w phase live => ?_
      refine ⟨moves, [], w, rfl, ?_, rfl, live⟩
      rw [there, ← phase]

/-- A look leaves every record as it is. -/
theorem isLive_of_probing (backend : c.backend = Store.backend) {n : Nat} {m : Message} {w : DependencyWait}
    (there : (run c moves (opened s)).dispatches.get? n = some ⟨m, .probing w⟩) (key : EntityKey) :
    (run c (moves ++ [.step n]) (opened s)).desk.store.isLive key =
      (run c moves (opened s)).desk.store.isLive key := by
  rw [run_append, run_cons, run_nil]
  by_cases same : SortedMap.get? ((next c (run c moves (opened s)) (.step n)).records id) key =
      SortedMap.get? ((run c moves (opened s)).records id) key
  · exact congrArg (Option.any Record.isLive) same
  · -- only a write changes a record, and the dispatch is not about to write
    have keeps : KeepsRecords id (.step n : Move Store) := trivial
    obtain ⟨k, d, record, outcome, step, found, -, phase, -⟩ :=
      merge_of_changed (Consumer.onStore_of_backend backend) s keeps same
    obtain rfl := Move.step.inj step
    obtain rfl := Option.some.inj (there.symm.trans found)
    cases phase

/-- In the course of these moves, after those before, the entity was deleted: a dispatch of a message that
deletes it, by its action or by its mark, wrote a record marked as deleted. -/
def DeletedMeanwhile (c : Consumer Store) (s : Store) (before rest : List (Move Store))
    (key : EntityKey) : Prop :=
  ∃ middle last id d schema record, rest = middle ++ .step id :: last ∧
    (run c (before ++ middle) (opened s)).dispatches.get? id = some d ∧ d.message.key = key ∧
    c.registry.schemaFor? d.message = some schema ∧
    Resolution.deletedAfter d.message schema = true ∧
    (run c (before ++ middle ++ [.step id]) (opened s)).desk.store.load key = some record ∧
    record.isDeleted = true

/-- A live record stays live unless a dispatch deletes it. The moves are taken from the last one back, so
that what is known of the others is the state in which it is made. -/
theorem live_or_deletedMeanwhile (backend : c.backend = Store.backend) {before rest : List (Move Store)}
    (keeps : ∀ move ∈ rest, KeepsRecords id move) {key : EntityKey}
    (live : (run c before (opened s)).desk.store.isLive key = true) :
    (run c (before ++ rest) (opened s)).desk.store.isLive key = true ∨
      DeletedMeanwhile c s before rest key := by
  have on := Consumer.onStore_of_backend backend
  induction rest using List.reverseRec with
  | nil => exact .inl (by simpa using live)
  | append_singleton rest move ih =>
    obtain ⟨early, last⟩ := List.forall_mem_append.1 keeps
    have keepsLast := last move (List.mem_singleton_self move)
    rcases ih early with still | ⟨middle, later, id, d, schema, record, rfl, done⟩
    · by_cases same :
          SortedMap.get? ((next c (run c (before ++ rest) (opened s)) move).records id) key =
            SortedMap.get? ((run c (before ++ rest) (opened s)).records id) key
      · left
        rw [← List.append_assoc, run_append c (before ++ rest), run_cons, run_nil]
        exact (congrArg (Option.any Record.isLive) same).trans still
      · obtain ⟨id, d, record, outcome, rfl, there, own, phase, -, after, -⟩ :=
          merge_of_changed on s keepsLast same
        have written : (run c (before ++ rest ++ [.step id]) (opened s)).desk.store.load key =
            some record := by
          rw [run_append c (before ++ rest), run_cons, run_nil]
          exact after
        cases deleted : record.isDeleted with
        | false =>
          left
          rw [← List.append_assoc, Store.isLive, written]
          simp [Record.isLive, deleted]
        | true =>
          right
          have fits := fits_run there
          rw [phase] at fits
          obtain ⟨schema, current, known, merges⟩ := fits
          exact ⟨rest, [], id, d, schema, record, rfl, there, own, known,
            merges.isDeleted_eq.symm.trans deleted, written, deleted⟩
    · exact .inr ⟨middle, later ++ [move], id, d, schema, record, by simp, done⟩

/-- Every write of a run of a consumer that looks for entities in its own store, seen from outside. It is
the write of a dispatch of a message of the entity. If the message is not a deletion and not marked as
one, the store is reported to have changed, and for each entity that its handler's requirements refer to
there is a move after the message was received, and before this write, with which the dispatch looked for
the entity and found a live record of it. The entity still has one, unless it was deleted after that look. -/
theorem references_seen_live (backend : c.backend = Store.backend) (s : Store)
    (keeps : ∀ move ∈ moves, KeepsRecords id move) {move : Move Store}
    (keepsLast : KeepsRecords id move) {key : EntityKey}
    (changed : SortedMap.get? ((run c (moves ++ [move]) (opened s)).records id) key ≠
      SortedMap.get? ((run c moves (opened s)).records id) key) :
    ∃ n d handler, move = .step n ∧ (run c moves (opened s)).dispatches.get? n = some d ∧
      d.message.key = key ∧ c.registry.handlerFor? d.message = some handler ∧
      (d.message.action.isDeletion = false →
        handler.schema.isSoftDeleted d.message.snapshot = false →
        (∃ change, (run c (moves ++ [move]) (opened s)).dispatches.get? n =
          some ⟨d.message, .closing (.plain (.applied change))⟩) ∧
        ∃ keys, Requirement.references handler.requirements d.message.snapshot = .ok keys ∧
          ∀ ref ∈ keys, ∃ before rest w, moves = before ++ .step n :: rest ∧
            (run c before (opened s)).dispatches.get? n = some ⟨d.message, .probing w⟩ ∧
            w.key = ref ∧ (c.backend.probe ref (run c before (opened s)).desk.store).1 = .ok true ∧
            (run c before (opened s)).desk.store.isLive ref = true ∧
            ((run c moves (opened s)).desk.store.isLive ref = true ∨
              DeletedMeanwhile c s (before ++ [.step n]) rest ref)) := by
  rw [run_append, run_cons, run_nil] at changed ⊢
  obtain ⟨n, d, record, outcome, rfl, there, own, phase, -, -, reports⟩ :=
    merge_of_changed (Consumer.onStore_of_backend backend) s keepsLast changed
  have informed := informed_run backend there
  simp only [Dispatch.Informed, phase] at informed
  obtain ⟨handler, waits, found, handled, needed, split, all⟩ := informed
  refine ⟨n, d, handler, rfl, there, own, handled, fun lives unmarked => ⟨?_, ?_⟩⟩
  · have fits := fits_run there
    rw [phase] at fits
    obtain ⟨schema, current, -, merges⟩ := fits
    obtain ⟨change, rfl⟩ := merges.exists_change lives
    exact ⟨change, reports⟩
  · refine ⟨waits.getD [], Dispatch.references_of_dependencies lives unmarked needed, ?_⟩
    intro ref referred
    rw [split, List.append_nil] at referred
    obtain ⟨before, rest, w, rfl, waiting, looked, live⟩ := all ref referred
    have answered : (c.backend.probe ref (run c before (opened s)).desk.store).1 = .ok true := by
      rw [backend, ← live]
      rfl
    have afterwards := (isLive_of_probing backend waiting ref).trans live
    have keepsRest : ∀ move ∈ rest, KeepsRecords id move := fun move among => keeps move (by simp [among])
    have since := live_or_deletedMeanwhile backend keepsRest afterwards
    rw [List.append_assoc, List.singleton_append] at since
    exact ⟨before, rest, w, rfl, waiting, looked, answered, live, since⟩

section Samples

open Fixtures

/-- Deals wait for two companies, the buyer first. -/
def deals : Handler :=
  { schema := { kind := "deal", fields := [⟨"buyer", true⟩, ⟨"seller", true⟩], softDelete := none }
    requirements := [⟨"buyer", "company", false⟩, ⟨"seller", "company", false⟩]
    accepts := fun _ => true }

/-- A service that mirrors companies and deals, on a store of its own. -/
def market : Consumer Store :=
  { registry := Registry.ofList [companies, deals], backend := Store.backend }

def dealMade : Message :=
  { entityId := "d-1", entityKind := "deal", action := .created
    snapshot := SortedMap.ofPairs [("buyer", .str "c-1"), ("seller", .str "c-2")]
    emittedAt := stamp 2, isForceSync := false }

/-- The deal finds its buyer and waits for its seller. Meanwhile the buyer is deleted, and then the seller
comes. The deal is about to be written. -/
def boughtOut : List (Move Store) :=
  [.receive 0 (companyCreated "c-1" "Acme" (stamp 1))] ++ steps 0 4 ++ [.receive 1 dealMade] ++
    steps 1 3 ++ [.receive 2 (acmeDeleted ∅ (stamp 3))] ++ steps 2 4 ++
    [.receive 3 (companyCreated "c-2" "Other" (stamp 1))] ++ steps 3 4 ++
    [.pass (Duration.seconds 1)] ++ steps 1 3

theorem references_seen_live_boughtOut :
    (market.backend = Store.backend ∧ (∀ move ∈ boughtOut, KeepsRecords id move) ∧
      KeepsRecords id (.step 1) ∧
      SortedMap.get? ((run market (boughtOut ++ [.step 1]) (opened {})).records id) dealMade.key ≠
        SortedMap.get? ((run market boughtOut (opened {})).records id) dealMade.key) ∧
    ∃ before rest w, boughtOut = before ++ .step 1 :: rest ∧
      (run market before (opened {})).dispatches.get? 1 = some ⟨dealMade, .probing w⟩ ∧ w.key = acme ∧
      (run market before (opened {})).desk.store.isLive acme = true ∧
      ((run market boughtOut (opened {})).desk.store.isLive acme = true ∨
        DeletedMeanwhile market {} (before ++ [.step 1]) rest acme) := by
  have keeps : ∀ move ∈ boughtOut, KeepsRecords id move := by
    simp [boughtOut, steps, Move.Within, or_imp, forall_and]
  have changed :
      SortedMap.get? ((run market (boughtOut ++ [.step 1]) (opened {})).records id) dealMade.key ≠
        SortedMap.get? ((run market boughtOut (opened {})).records id) dealMade.key := by
    decide +kernel
  have keepsLast : KeepsRecords id (.step 1) := trivial
  obtain ⟨n, d, handler, same, there, -, handled, depends⟩ :=
    references_seen_live rfl {} keeps keepsLast changed
  obtain rfl := Move.step.inj same
  obtain ⟨message, phase⟩ := d
  obtain rfl : message = dealMade := by
    have received : .receive 1 message ∈ boughtOut := receive_mem_of_get? there
    simpa [boughtOut, steps] using received
  obtain rfl : deals = handler := by
    have found : market.registry.handlerFor? dealMade = some deals := rfl
    exact Option.some.inj (found.symm.trans handled)
  obtain ⟨-, keys, referred, seen⟩ := depends rfl rfl
  obtain rfl : [acme, ⟨"company", "c-2"⟩] = keys := Except.ok.inj referred
  obtain ⟨before, rest, w, split, waiting, looked, -, live, after⟩ := seen acme (by simp)
  exact ⟨⟨rfl, keeps, keepsLast, changed⟩, before, rest, w, split, waiting, looked, live, after⟩

/-- The deal is written when its buyer has no live record any more. -/
theorem not_references_live_boughtOut :
    Requirement.references deals.requirements dealMade.snapshot = .ok [acme, ⟨"company", "c-2"⟩] ∧
    (run market boughtOut (opened {})).desk.store.load dealMade.key = none ∧
    (run market boughtOut (opened {})).desk.store.isLive acme = false ∧
    (run market (boughtOut ++ [.step 1]) (opened {})).desk.store.isLive dealMade.key = true ∧
    (run market (boughtOut ++ [.step 1]) (opened {})).desk.store.isLive acme = false ∧
    ((run market (boughtOut ++ steps 1 2) (opened {})).dispatches.get? 1).bind (·.result?) =
      some (.ok (.applied .inserted)) := by
  refine ⟨rfl, ?_, ?_, ?_, ?_, ?_⟩ <;> decide +kernel

end Samples

end Crew

end Replica
