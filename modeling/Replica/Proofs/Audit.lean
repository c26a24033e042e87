import Replica.Proofs.Integrity
import Replica.Proofs.Transitions
import Mathlib.Data.List.DropRight
/-! The fields of a record can be told from the messages applied. A run decides the results of its
dispatches one after another; those of one entity that ended as a change, in this order, make its
history. While no record is changed between a dispatch's load of it and the write, the fields stored are
what the history says: those of the last message that was no deletion, and over them those that the
deletions after it told. Everything else that was dispatched left no trace in them. -/
namespace Replica

/-- The fields that a history of applied messages leaves: the last one that is no deletion says what they
are, and the deletions after it are laid over that in order. -/
def audit (schema : Schema) (history : List Message) : Snapshot :=
  let last := (history.rdropWhile (·.action.isDeletion)).getLast?
  let deletions := history.rtakeWhile (·.action.isDeletion)
  deletions.foldl (fun fields m => Snapshot.overlay fields (schema.project m.snapshot))
    (last.elim ∅ fun m => schema.project m.snapshot)

@[simp]
theorem audit_nil (schema : Schema) : audit schema [] = ∅ := rfl

/-- One more message applied leaves of the fields what it leaves of a record's. -/
theorem audit_append (schema : Schema) (history : List Message) (m : Message) :
    audit schema (history ++ [m]) = Resolution.fieldsOver m schema (audit schema history) := by
  let gone (m : Message) : Bool := m.action.isDeletion
  have unfolded (history : List Message) : audit schema history =
      (history.rtakeWhile gone).foldl (fun fields m => Snapshot.overlay fields (schema.project m.snapshot))
        ((history.rdropWhile gone).getLast?.elim ∅ fun m => schema.project m.snapshot) := rfl
  rw [unfolded, unfolded, Resolution.fieldsOver]
  cases deletion : m.action.isDeletion with
  | true =>
    rw [List.rdropWhile_concat_pos gone _ _ deletion, List.rtakeWhile_concat_pos gone _ _ deletion,
      List.foldl_append]
    rfl
  | false =>
    have lives : ¬ gone m = true := by simp [gone, deletion]
    rw [List.rdropWhile_concat_neg gone _ _ lives, List.rtakeWhile_concat_neg gone _ _ lives,
      List.getLast?_append]
    rfl

/-- Of some decided messages those applied to the record of an entity, in order. -/
def applied (key : EntityKey) (decided : List (Message × DispatchResult)) : List Message :=
  decided.filterMap fun
    | (m, .ok (.applied _)) => if m.key = key then some m else none
    | _ => none

theorem applied_append (key : EntityKey) (first second : List (Message × DispatchResult)) :
    applied key (first ++ second) = applied key first ++ applied key second :=
  List.filterMap_append

/-- The dispatch stands between the load of its record and the write. -/
def Dispatch.Phase.isWriting : Dispatch.Phase → Bool
  | .writing .. => true
  | _ => false

namespace Crew

variable {σ : Type} {c : Consumer σ} {store : σ → Store}

/-! ### What a run decides -/

/-- The message whose result is decided by the move, if any, with the result. -/
def decision? (c : Consumer σ) (crew : Crew σ) : Move σ → Option (Message × DispatchResult)
  | .step id =>
    match crew.dispatches.get? id with
    | none => none
    | some d =>
      if d.verdict?.isSome then none
      else (((next c crew (.step id)).dispatches.get? id).bind (·.verdict?)).map (d.message, ·)
  | _ => none

/-- The messages whose results the moves decide, in order. -/
def decisions (c : Consumer σ) : List (Move σ) → Crew σ → List (Message × DispatchResult)
  | [], _ => []
  | move :: rest, crew => (decision? c crew move).toList ++ decisions c rest (next c crew move)

/-- The messages of a crew whose results are decided. -/
def verdicts (crew : Crew σ) : List (Message × DispatchResult) :=
  (SortedMap.values crew.dispatches).filterMap fun d => d.verdict?.map (d.message, ·)

/-- No record is changed while a dispatch of a message of its entity stands between the load and the
write, except by the dispatch itself. -/
def Unraced (c : Consumer σ) (store : σ → Store) : List (Move σ) → Crew σ → Prop
  | [], _ => True
  | move :: rest, crew =>
    (∀ entry ∈ crew.dispatches.entries, entry.2.phase.isWriting = true → move.isStep entry.1 = false →
      SortedMap.get? ((next c crew move).records store) entry.2.message.key =
        SortedMap.get? (crew.records store) entry.2.message.key) ∧
      Unraced c store rest (next c crew move)

instance (c : Consumer σ) (store : σ → Store) :
    (moves : List (Move σ)) → (crew : Crew σ) → Decidable (Unraced c store moves crew)
  | [], _ => inferInstanceAs (Decidable True)
  | move :: rest, crew =>
    have : Decidable (Unraced c store rest (next c crew move)) := instDecidableUnraced c store rest _
    inferInstanceAs (Decidable (_ ∧ _))

/-- The result of a dispatch is decided by a step of its own. -/
theorem decision?_step {crew : Crew σ} {id : Nat} {d : Dispatch}
    (found : crew.dispatches.get? id = some d) (ready : d.ready crew.now = true) :
    decision? c crew (.step id) =
      if d.verdict?.isSome then none
      else (d.step c crew.now crew.desk).2.verdict?.map (d.message, ·) := by
  simp only [decision?, found, next_step_of_ready c found ready, SortedMap.get?_insert_self,
    Option.bind_some]

/-- A move that changes nothing decides nothing. -/
theorem decision?_of_same {crew : Crew σ} {move : Move σ} (same : next c crew move = crew) :
    decision? c crew move = none := by
  unfold decision?
  split
  · split
    · rfl
    · rename_i id d found
      rw [same, found]
      cases decided : d.verdict? <;> simp [decided]
  · rfl

/-- The results decided after a move are those decided before and the one that it decides. -/
theorem verdicts_next (c : Consumer σ) (crew : Crew σ) (move : Move σ) :
    (next c crew move).verdicts.Perm ((decision? c crew move).toList ++ crew.verdicts) := by
  let told (d : Dispatch) : Option (Message × DispatchResult) := d.verdict?.map (d.message, ·)
  have listed (crew : Crew σ) : crew.verdicts = crew.dispatches.entries.filterMap (told ·.2) :=
    List.filterMap_map
  rcases next_cases c crew move with same | ⟨n, m, rfl, free, made⟩ | ⟨n, d, rfl, found, ready, made⟩ |
    ⟨time, rfl, made⟩ | ⟨f, rfl, made⟩
  · rw [decision?_of_same same, same]
    rfl
  · rw [made, listed, listed]
    exact (SortedMap.entries_insert_perm_of_none free _).filterMap _
  · obtain ⟨others, before, after⟩ := SortedMap.exists_entries_insert_perm found
    have perm := (after (d.step c crew.now crew.desk).2).filterMap (told ·.2)
    rw [made, listed, listed, decision?_step found ready]
    refine perm.trans (List.Perm.trans ?_ ((before.filterMap _).symm.append_left _))
    cases decided : d.verdict? with
    | none => cases given : (d.step c crew.now crew.desk).2.verdict? <;> simp [told, decided, given]
    | some result =>
      have still := (Dispatch.step_of_verdict? decided c crew.now crew.desk).1
      simp [told, decided, still]
  · rw [made]
    rfl
  · rw [made]
    rfl

theorem verdicts_run (c : Consumer σ) (moves : List (Move σ)) (crew : Crew σ) :
    (run c moves crew).verdicts.Perm (crew.verdicts ++ decisions c moves crew) := by
  induction moves generalizing crew with
  | nil => simp [decisions]
  | cons move rest ih =>
    rw [run_cons, decisions, ← List.append_assoc]
    exact (ih _).trans (((verdicts_next c crew move).trans List.perm_append_comm).append_right _)

/-! ### Merges that no other write comes between -/

/-- Every dispatch works with the schema of its handler, and what it is about to write is the merge of
its message into the record that is there now. -/
def Planned (c : Consumer σ) (store : σ → Store) (crew : Crew σ) : Prop :=
  ∀ id d, crew.dispatches.get? id = some d → d.phase.Fits c.registry d.message ∧
    ∀ record outcome, d.phase = .writing record outcome → ∃ schema,
      c.registry.schemaFor? d.message = some schema ∧
        Resolution.Merges d.message (SortedMap.get? (crew.records store) d.message.key) schema record
          outcome

/-- A dispatch that is still undecided has had no effect on the records so far. -/
theorem Planned.inEffect {crew : Crew σ} (planned : Planned c store crew) {id : Nat} {d : Dispatch}
    (found : crew.dispatches.get? id = some d) (open_ : d.verdict? = none) :
    d.InEffect c.registry (crew.records store) (crew.records store) where
  decided result decided := by simp [open_] at decided
  undecided _ := rfl
  writing := (planned id d found).2

/-- A move that decides a result has just the effect of the dispatch, and any other changes no record. -/
theorem Planned.effect (on : c.OnStore store) {crew : Crew σ} (planned : Planned c store crew)
    {move : Move σ} (keeps : KeepsRecords store move) :
    (decision? c crew move = none → (next c crew move).records store = crew.records store) ∧
      ∀ m result, decision? c crew move = some (m, result) →
        Dispatch.Effect c.registry m (crew.records store) ((next c crew move).records store) result := by
  rcases next_cases c crew move with same | ⟨n, m, rfl, -, made⟩ | ⟨n, d, rfl, found, ready, made⟩ |
    ⟨time, rfl, made⟩ | ⟨f, rfl, made⟩
  · rw [decision?_of_same same, same]
    exact ⟨fun _ => rfl, by simp⟩
  · rw [made]
    exact ⟨fun _ => rfl, by simp [decision?]⟩
  · rw [decision?_step found ready, made]
    cases decided : d.verdict? with
    | some result =>
      -- the effect was had before
      have alone := (Dispatch.step_of_verdict? decided c crew.now crew.desk).2
      exact ⟨fun _ => congrArg (fun s => (store s).records) alone, by simp⟩
    | none =>
      have effect := Dispatch.inEffect_step on crew.now (planned n d found).1
        (planned.inEffect found decided)
      refine ⟨fun open_ => effect.undecided (by simpa using open_), fun m result given => ?_⟩
      obtain ⟨_, reached, rfl, rfl⟩ : ∃ r, (d.step c crew.now crew.desk).2.verdict? = some r ∧
          d.message = m ∧ r = result := by simpa using given
      exact d.message_step (c := c) crew.now crew.desk ▸ effect.decided _ reached
  · rw [made]
    exact ⟨fun _ => rfl, by simp [decision?]⟩
  · rw [made]
    exact ⟨fun _ => keeps crew.desk.store, by simp [decision?]⟩

/-- While merges are not raced, what is about to be written stays the merge into the record there. -/
theorem Planned.next (on : c.OnStore store) {crew : Crew σ} (planned : Planned c store crew)
    {move : Move σ}
    (unraced : ∀ entry ∈ crew.dispatches.entries, entry.2.phase.isWriting = true →
      move.isStep entry.1 = false →
      SortedMap.get? ((Crew.next c crew move).records store) entry.2.message.key =
        SortedMap.get? (crew.records store) entry.2.message.key) :
    Planned c store (Crew.next c crew move) := by
  intro id d found
  cases own : move.isStep id with
  | false =>
    rcases get?_next_cases found with still | ⟨m, rfl, -, rfl⟩ | ⟨before, rfl, -, -, rfl⟩
    · refine ⟨(planned id d still).1, fun record outcome writes => ?_⟩
      rw [unraced (id, d) (SortedMap.get?_eq_some_iff.1 still) (by simp [writes, Dispatch.Phase.isWriting])
        own]
      exact (planned id d still).2 record outcome writes
    · exact ⟨trivial, fun _ _ writes => by cases writes⟩
    · simp [Move.isStep] at own
  | true =>
    obtain ⟨n, rfl⟩ : ∃ n, move = .step n := by
      cases move <;> simp [Move.isStep] at own ⊢
    obtain rfl : n = id := by simpa [Move.isStep] using own
    rcases next_cases c crew (.step n) with same | ⟨_, _, other, -⟩ | ⟨_, e, same, there, ready, made⟩ |
      ⟨_, other, -⟩ | ⟨_, other, -⟩
    · rw [same] at found ⊢
      exact planned n d found
    · cases other
    · obtain rfl := Move.step.inj same
      rw [made] at found ⊢
      obtain rfl : (e.step c crew.now crew.desk).2 = d := by simpa using found
      refine ⟨(Dispatch.kept_fits c).own crew.now crew.desk e trivial (planned n e there).1, ?_⟩
      intro record outcome writes
      obtain ⟨schema, loads, merges⟩ := Dispatch.merges_of_writing_step on writes
      have fits := (planned n e there).1
      rw [loads] at fits
      have kept := e.store_step on crew.now crew.desk
      simp only [loads] at kept
      rw [Dispatch.message_step]
      refine ⟨schema, fits, ?_⟩
      rw [records, kept]
      exact merges
    · cases other
    · cases other

end Crew

/-! ### The audit of the records -/

/-- The fields of every record are what the messages applied to it say, and where there is no record,
none was applied. -/
structure Records.Audited (registry : Registry) (records : Records)
    (decided : List (Message × DispatchResult)) : Prop where
  absent : ∀ key, SortedMap.get? records key = none → applied key decided = []
  present : ∀ key record, SortedMap.get? records key = some record → ∃ handler,
    SortedMap.get? registry key.kind = some handler ∧
      record.fields = audit handler.schema (applied key decided)

/-- A message whose result is no change is not among those applied. -/
theorem applied_of_no_change {m : Message} {result : DispatchResult}
    (unchanged : ∀ change, result ≠ .ok (.applied change)) (key : EntityKey)
    (decided : List (Message × DispatchResult)) :
    applied key (decided ++ [(m, result)]) = applied key decided := by
  have none_ : applied key [(m, result)] = [] := by
    cases result with
    | error error => rfl
    | ok outcome =>
      cases outcome with
      | applied change => exact absurd rfl (unchanged change)
      | _ => rfl
  rw [applied_append, none_, List.append_nil]

theorem applied_of_ne {m : Message} (result : DispatchResult) {key : EntityKey} (other : key ≠ m.key)
    (decided : List (Message × DispatchResult)) :
    applied key (decided ++ [(m, result)]) = applied key decided := by
  have none_ : applied key [(m, result)] = [] := by
    unfold applied
    rw [List.filterMap_cons]
    split <;> grind
  rw [applied_append, none_, List.append_nil]

theorem applied_self (m : Message) (change : Change) (decided : List (Message × DispatchResult)) :
    applied m.key (decided ++ [(m, .ok (.applied change))]) = applied m.key decided ++ [m] := by
  simp [applied]

namespace Records.Audited

variable {registry : Registry} {base : Records} {decided : List (Message × DispatchResult)} {m : Message}

/-- A merge leaves the fields that the history says with the message in it. -/
theorem fields_eq (audited : base.Audited registry decided) {record : Record} {outcome : Outcome}
    {handler : Handler} (registered : SortedMap.get? registry m.key.kind = some handler)
    (merges : Resolution.Merges m (SortedMap.get? base m.key) handler.schema record outcome) :
    record.fields = audit handler.schema (applied m.key (decided ++ [(m, .ok outcome)])) := by
  cases current : SortedMap.get? base m.key with
  | none =>
    rw [current] at merges
    have nothing := audited.absent m.key current
    obtain ⟨-, rfl, rfl⟩ | ⟨lives, -, rfl, rfl⟩ := Resolution.merges_none_iff.1 merges
    · -- the mark of a deletion has no fields and is no change
      rw [applied_of_no_change (by simp), nothing]
      rfl
    · rw [applied_self, audit_append, nothing]
      simp [Resolution.fieldsOver, lives, Resolution.recordOf]
  | some old =>
    rw [current] at merges
    obtain ⟨-, -, rfl, rfl⟩ := Resolution.merges_some_iff.1 merges
    obtain ⟨same, found, fields⟩ := audited.present m.key old current
    obtain rfl : handler = same := Option.some.inj (registered.symm.trans found)
    rw [applied_self, audit_append, ← fields]
    rfl

/-- The effect of a dispatch keeps the audit, once its result is part of the history. -/
theorem effect (audited : base.Audited registry decided) {records : Records} {result : DispatchResult}
    (effect : Dispatch.Effect registry m base records result) :
    records.Audited registry (decided ++ [(m, result)]) := by
  rcases effect with ⟨rfl, quiet⟩ | ⟨outcome, schema, record, rfl, known, merges, -, rfl⟩
  · have unchanged (change : Change) : result ≠ .ok (.applied change) := by
      rintro rfl
      cases quiet _ rfl
    constructor
    · intro key absent
      rw [applied_of_no_change unchanged, audited.absent key absent]
    · intro key record there
      rw [applied_of_no_change unchanged]
      exact audited.present key record there
  · obtain ⟨handler, registered, rfl⟩ := Registry.get?_of_schemaFor? known
    have fields := audited.fields_eq registered merges
    rw [merges.key_eq]
    constructor
    · intro key absent
      rw [SortedMap.get?_insert] at absent
      split at absent
      · cases absent
      · rw [applied_of_ne _ ‹_›, audited.absent key absent]
    · intro key other there
      rw [SortedMap.get?_insert] at there
      split at there
      · obtain rfl := Option.some.inj there
        subst key
        exact ⟨handler, registered, fields⟩
      · rw [applied_of_ne _ ‹_›]
        exact audited.present key other there

end Records.Audited

namespace Crew

variable {σ : Type} {c : Consumer σ} {store : σ → Store} {moves : List (Move σ)}

theorem audited_run (on : c.OnStore store) (keeps : ∀ move ∈ moves, KeepsRecords store move)
    {crew : Crew σ} (unraced : Unraced c store moves crew) (planned : Planned c store crew)
    {decided : List (Message × DispatchResult)}
    (audited : (crew.records store).Audited c.registry decided) :
    ((run c moves crew).records store).Audited c.registry (decided ++ decisions c moves crew) := by
  induction moves generalizing crew decided with
  | nil => simpa [decisions] using audited
  | cons move rest ih =>
    obtain ⟨first, later⟩ := List.forall_mem_cons.1 keeps
    obtain ⟨alone, unracedLater⟩ := unraced
    obtain ⟨none_, some_⟩ := planned.effect on first
    rw [run_cons, decisions, ← List.append_assoc]
    refine ih later unracedLater (planned.next on alone) ?_
    cases made : decision? c crew move with
    | none =>
      rw [none_ made]
      simpa using audited
    | some decision => exact audited.effect (some_ decision.1 decision.2 made)

/-- A run of a consumer on a store that was empty at first and that nobody else writes to, in which no
record is changed while a dispatch stands between its load and its write. The results that the run
decides, in order, are those of its dispatches; and for every entity the fields stored are what the
messages applied to it say: the projection of the last one that is no deletion, or nothing, and laid
over it the projections of the deletions after it. No record is there only if none was applied. -/
theorem fields_eq_audit (on : c.OnStore store) (keeps : ∀ move ∈ moves, KeepsRecords store move)
    {s : σ} (fresh : (store s).records = ∅) (unraced : Unraced c store moves (opened s)) :
    (run c moves (opened s)).verdicts.Perm (decisions c moves (opened s)) ∧
      ∀ key,
        (SortedMap.get? ((run c moves (opened s)).records store) key = none →
          applied key (decisions c moves (opened s)) = []) ∧
        ∀ record, SortedMap.get? ((run c moves (opened s)).records store) key = some record →
          ∃ handler, SortedMap.get? c.registry key.kind = some handler ∧
            record.fields = audit handler.schema (applied key (decisions c moves (opened s))) := by
  have planned : Planned c store (opened s) := fun id d found => by cases found
  have nothing : ((opened s).records store).Audited c.registry [] := by
    rw [records, opened, fresh]
    exact ⟨fun _ _ => rfl, fun _ _ there => by cases there⟩
  have audited := audited_run on keeps unraced planned nothing
  refine ⟨?_, fun key => ⟨audited.absent key, audited.present key⟩⟩
  exact verdicts_run c moves (opened s)

section Samples

open Fixtures

/-- A change of the company with a field too many. -/
def renamedAcme : Message :=
  acmeUpdated (SortedMap.ofPairs [("name", .str "Acme Ltd"), ("size", .str "3")]) (stamp 3)

/-- A deletion that tells the city. -/
def closedDown : Message := acmeDeleted (SortedMap.ofPairs [("city", .str "Ulm")]) (stamp 4)

/-- The company is deleted before it is created, renamed, deleted and, after the deletion was received,
created once more with the oldest stamp. Another company is created between load and write of the
rename. -/
def checkered : List (Move Store) :=
  [.receive 0 (acmeDeleted (SortedMap.ofPairs [("city", .str "Bonn")]) (stamp 2)), .receive 1 renamedAcme] ++
    steps 0 4 ++ steps 1 2 ++ [.receive 2 (companyCreated "c-2" "Other" (stamp 1))] ++ steps 2 4 ++
    steps 1 2 ++ [.receive 3 closedDown, .receive 4 (companyCreated "c-1" "Acme" (stamp 1))] ++
    steps 4 1 ++ steps 3 4 ++ steps 4 3

theorem fields_eq_audit_checkered :
    (service.OnStore id ∧ (∀ move ∈ checkered, KeepsRecords id move) ∧
      ({} : Store).records = ∅ ∧ Unraced service id checkered (opened {})) ∧
    applied acme (decisions service checkered (opened {})) = [renamedAcme, closedDown] ∧
    ∃ (record : Record) (handler : Handler),
      SortedMap.get? ((run service checkered (opened {})).records id) acme = some record ∧
      record.fields.keys = ["city", "name"] ∧
      record.fields = audit handler.schema (applied acme (decisions service checkered (opened {}))) := by
  have keeps : ∀ move ∈ checkered, KeepsRecords id move := by simp [checkered, steps, Move.Within]
  have unraced : Unraced service id checkered (opened {}) := by decide +kernel
  have found : SortedMap.get? ((run service checkered (opened {})).records id) acme = some _ := rfl
  obtain ⟨-, fields⟩ := fields_eq_audit service_onStore keeps rfl unraced
  obtain ⟨handler, -, told⟩ := (fields acme).2 _ found
  exact ⟨⟨service_onStore, keeps, rfl, unraced⟩, by decide +kernel, _, handler, found, rfl, told⟩

end Samples

end Crew

end Replica
