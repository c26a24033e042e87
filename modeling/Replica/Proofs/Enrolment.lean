import Replica.Proofs.Foresight
import Replica.Subscriber.Reader
/-! The handlers of a subscriber's description. Registering a handler puts it in place of any other for its
kind, so nothing but the check of the description keeps one entry from taking the place of another: it lets
through exactly the descriptions whose entries have kinds of their own, and each of these entries has its
handler. -/
namespace Replica

namespace Registry

variable {handlers : List Handler}

/-- A handler and the kind it is registered for. -/
def entryOf (handler : Handler) : String × Handler := (handler.schema.kind, handler)

/-- Handlers for kinds of their own are all kept, besides those that are there. -/
theorem entries_foldl_register_perm {registry : Registry}
    (different : handlers.Pairwise fun a b => a.schema.kind ≠ b.schema.kind)
    (free : ∀ handler ∈ handlers, SortedMap.get? registry handler.schema.kind = none) :
    (handlers.foldl register registry).entries.Perm (handlers.map entryOf ++ registry.entries) := by
  induction handlers generalizing registry with
  | nil => exact List.Perm.refl _
  | cons first rest ih =>
    obtain ⟨other, different⟩ := List.pairwise_cons.1 different
    obtain ⟨own, free⟩ := List.forall_mem_cons.1 free
    have still : ∀ handler ∈ rest, SortedMap.get? (registry.register first) handler.schema.kind = none := by
      intro handler among
      rw [register, SortedMap.get?_insert_of_ne _ _ (other handler among).symm]
      exact free handler among
    have added : (registry.register first).entries.Perm (entryOf first :: registry.entries) :=
      SortedMap.entries_insert_perm_of_none own first
    apply (ih different still).trans
    apply (added.append_left (rest.map entryOf)).trans
    exact List.perm_middle

variable (different : handlers.Pairwise fun a b => a.schema.kind ≠ b.schema.kind)
include different

theorem entries_ofList_perm : (ofList handlers).entries.Perm (handlers.map entryOf) := by
  have kept : (ofList handlers).entries.Perm (handlers.map entryOf ++ (∅ : Registry).entries) :=
    entries_foldl_register_perm different fun _ _ => rfl
  have none : (∅ : Registry).entries = [] := rfl
  rwa [none, List.append_nil] at kept

theorem size_ofList : SortedMap.size (ofList handlers) = handlers.length := by
  rw [SortedMap.size, (entries_ofList_perm different).length_eq, List.length_map]

theorem get?_ofList_eq_some_iff {kind : String} {handler : Handler} :
    SortedMap.get? (ofList handlers) kind = some handler ↔ handler ∈ handlers ∧ handler.schema.kind = kind := by
  rw [SortedMap.get?_eq_some_iff, (entries_ofList_perm different).mem_iff, List.mem_map]
  constructor
  · rintro ⟨handler, among, ⟨⟩⟩
    exact ⟨among, rfl⟩
  · rintro ⟨among, rfl⟩
    exact ⟨handler, among, rfl⟩

end Registry

namespace Subscriber

/-- What a handler keeps and waits for is what an entry says: the fields that have to be there, then the others, the
field that marks deletions, and the references, all in the order of the entry. -/
structure HandlerEntry.Describes (entry : HandlerEntry) (handler : Handler) : Prop where
  kind : handler.schema.kind = entry.kind
  fields : handler.schema.fields =
    entry.fields.map (fun name => ⟨name, true⟩) ++ entry.optionalFields.map fun name => ⟨name, false⟩
  softDelete : handler.schema.softDelete = entry.softDelete
  requirements : handler.requirements = entry.dependencies.map fun d => ⟨d.field, d.kind, d.isOptional⟩
  accepts : ∀ m, handler.accepts m = true

theorem HandlerEntry.describes_handler (entry : HandlerEntry) : entry.Describes entry.handler :=
  ⟨rfl, rfl, rfl, rfl, fun _ => rfl⟩

/-- Every entry has a kind with a name, and no other entry has it. -/
structure OwnKinds (entries : List HandlerEntry) : Prop where
  named : ∀ entry ∈ entries, entry.kind ≠ ""
  different : entries.Pairwise fun a b => a.kind ≠ b.kind

theorem ownKinds_cons_iff {entry : HandlerEntry} {later : List HandlerEntry} :
    OwnKinds (entry :: later) ↔
      entry.kind ≠ "" ∧ (∀ other ∈ later, entry.kind ≠ other.kind) ∧ OwnKinds later := by
  constructor
  · intro kinds
    obtain ⟨named, others⟩ := List.forall_mem_cons.1 kinds.named
    obtain ⟨other, different⟩ := List.pairwise_cons.1 kinds.different
    exact ⟨named, other, others, different⟩
  · rintro ⟨named, other, kinds⟩
    exact ⟨List.forall_mem_cons.2 ⟨named, kinds.named⟩, List.pairwise_cons.2 ⟨other, kinds.different⟩⟩

/-- What is wrong with an entry after entries of these kinds. -/
inductive Offends (kinds : List String) (entry : HandlerEntry) : ConfigError → Prop
  | nameless (none : entry.kind = "") : Offends kinds entry .emptyKind
  | again (named : entry.kind ≠ "") (seen : entry.kind ∈ kinds) : Offends kinds entry (.repeatedKind entry.kind)

variable {kinds : List String} {entry : HandlerEntry} {error : ConfigError}

/-- Only which kinds there were matters, not their order. -/
theorem Offends.of_subset {others : List String} (offends : Offends kinds entry error) (subset : kinds ⊆ others) :
    Offends others entry error := by
  cases offends with
  | nameless none => exact .nameless none
  | again named seen => exact .again named (subset seen)

namespace Config

variable {seen : List String} {entries earlier : List HandlerEntry}

/-- A bad entry is reported, whatever comes after it. -/
theorem checkEntries_of_offends (offends : Offends seen entry error) (later : List HandlerEntry) :
    checkEntries seen (entry :: later) = .error error := by
  cases offends with
  | nameless none => rw [checkEntries, if_pos (String.isEmpty_iff.2 none)]
  | again named among =>
    rw [checkEntries, if_neg (mt String.isEmpty_iff.1 named), if_pos (List.contains_iff_mem.2 among)]

/-- Behind any other entry the check goes on with one more kind. -/
theorem checkEntries_of_own (named : entry.kind ≠ "") (own : entry.kind ∉ seen) (later : List HandlerEntry) :
    checkEntries seen (entry :: later) = checkEntries (entry.kind :: seen) later := by
  rw [checkEntries, if_neg (mt String.isEmpty_iff.1 named), if_neg (mt List.contains_iff_mem.1 own)]

theorem offends_or_own (seen : List String) (entry : HandlerEntry) :
    (∃ error, Offends seen entry error) ∨ entry.kind ≠ "" ∧ entry.kind ∉ seen := by
  by_cases none : entry.kind = ""
  · exact .inl ⟨_, .nameless none⟩
  by_cases again : entry.kind ∈ seen
  · exact .inl ⟨_, .again none again⟩
  · exact .inr ⟨none, again⟩

/-- Nothing is reported exactly if all entries have kinds of their own, which are not among those before them. -/
theorem checkEntries_eq_ok_iff :
    checkEntries seen entries = .ok () ↔ OwnKinds entries ∧ ∀ entry ∈ entries, entry.kind ∉ seen := by
  induction entries generalizing seen with
  | nil => exact ⟨fun _ => ⟨⟨by simp, .nil⟩, by simp⟩, fun _ => rfl⟩
  | cons first rest ih =>
    rcases offends_or_own seen first with ⟨error, offends⟩ | ⟨named, own⟩
    · rw [checkEntries_of_offends offends]
      constructor
      · intro accepted
        cases accepted
      · rintro ⟨kinds, apart⟩
        cases offends with
        | nameless none => exact absurd none (kinds.named first List.mem_cons_self)
        | again _ among => exact absurd among (apart first List.mem_cons_self)
    · have apart : (∀ entry ∈ rest, entry.kind ∉ first.kind :: seen) ↔
          (∀ other ∈ rest, first.kind ≠ other.kind) ∧ ∀ entry ∈ rest, entry.kind ∉ seen := by
        simp only [List.mem_cons, not_or, forall_and, ne_comm]
      rw [checkEntries_of_own named own, ih, apart, ownKinds_cons_iff, List.forall_mem_cons]
      constructor
      · rintro ⟨kinds, other, later⟩
        exact ⟨⟨named, other, kinds⟩, own, later⟩
      · rintro ⟨⟨-, other, kinds⟩, -, later⟩
        exact ⟨kinds, other, later⟩

/-- Behind entries that are fine the check goes on with their kinds. -/
theorem checkEntries_append (fine : checkEntries seen earlier = .ok ()) (later : List HandlerEntry) :
    checkEntries seen (earlier ++ later) = checkEntries ((earlier.map (·.kind)).reverse ++ seen) later := by
  induction earlier generalizing seen with
  | nil => rfl
  | cons first earlier ih =>
    rcases offends_or_own seen first with ⟨error, offends⟩ | ⟨named, own⟩
    · rw [checkEntries_of_offends offends] at fine
      cases fine
    · rw [checkEntries_of_own named own] at fine
      rw [List.cons_append, checkEntries_of_own named own, ih fine, List.map_cons, List.reverse_cons,
        List.append_assoc, List.singleton_append]

/-- An error is that of the first bad entry. -/
theorem exists_offends (refused : checkEntries seen entries = .error error) :
    ∃ earlier entry later, entries = earlier ++ entry :: later ∧ checkEntries seen earlier = .ok () ∧
      Offends ((earlier.map (·.kind)).reverse ++ seen) entry error := by
  induction entries generalizing seen with
  | nil => cases refused
  | cons first rest ih =>
    rcases offends_or_own seen first with ⟨other, offends⟩ | ⟨named, own⟩
    · rw [checkEntries_of_offends offends] at refused
      obtain rfl := Except.error.inj refused
      exact ⟨[], first, rest, rfl, rfl, offends⟩
    · rw [checkEntries_of_own named own] at refused
      obtain ⟨earlier, entry, later, rfl, fine, offends⟩ := ih refused
      refine ⟨first :: earlier, entry, later, rfl, ?_, ?_⟩
      · rw [checkEntries_of_own named own, fine]
      · simpa using offends

theorem checkEntries_nil_eq_ok_iff : checkEntries [] entries = .ok () ↔ OwnKinds entries := by
  rw [checkEntries_eq_ok_iff]
  simp

theorem check_eq_ok_iff {config : Config} : config.check = .ok () ↔ OwnKinds config.handlers :=
  checkEntries_nil_eq_ok_iff

theorem check_eq_error_iff {config : Config} :
    config.check = .error error ↔ ∃ earlier entry later, config.handlers = earlier ++ entry :: later ∧
      OwnKinds earlier ∧ Offends (earlier.map (·.kind)) entry error := by
  constructor
  · intro refused
    obtain ⟨earlier, entry, later, split, fine, offends⟩ := exists_offends refused
    refine ⟨earlier, entry, later, split, checkEntries_nil_eq_ok_iff.1 fine, offends.of_subset ?_⟩
    simp
  · rintro ⟨earlier, entry, later, split, fine, offends⟩
    rw [check, split, checkEntries_append (checkEntries_nil_eq_ok_iff.2 fine)]
    apply checkEntries_of_offends
    apply offends.of_subset
    simp

theorem different_handlers {config : Config} (kinds : OwnKinds config.handlers) :
    (config.handlers.map HandlerEntry.handler).Pairwise fun a b => a.schema.kind ≠ b.schema.kind :=
  List.pairwise_map.2 kinds.different

/-- No handler is lost, and none stands in for another. A description is accepted exactly if every entry has a kind
with a name that no other entry has; else the first entry that is bad after those before it is reported. With a
description that is accepted there are as many handlers as entries, each entry has its own under its kind, and there
is none for any other kind. -/
theorem registers_each (config : Config) :
    (config.check = .ok () ↔ OwnKinds config.handlers) ∧
    (∀ error, config.check = .error error ↔
      ∃ earlier entry later, config.handlers = earlier ++ entry :: later ∧ OwnKinds earlier ∧
        Offends (earlier.map (·.kind)) entry error) ∧
    (∀ text, ofJson text = .ok config → config.check = .ok ()) ∧
    (config.check = .ok () →
      SortedMap.size config.registry = config.handlers.length ∧
      (∀ entry ∈ config.handlers, ∃ handler,
        SortedMap.get? config.registry entry.kind = some handler ∧ entry.Describes handler) ∧
      ∀ kind, (∀ entry ∈ config.handlers, entry.kind ≠ kind) → SortedMap.get? config.registry kind = none) := by
  refine ⟨check_eq_ok_iff, fun error => check_eq_error_iff, ?_, ?_⟩
  · intro text read
    unfold ofJson at read
    split at read
    · cases read
    · rename_i given _
      cases checked : given.check with
      | error error => simp [checked, Except.map] at read
      | ok _ =>
        simp only [checked, Except.map, Except.ok.injEq] at read
        exact read ▸ checked
  · intro accepted
    have different := different_handlers (check_eq_ok_iff.1 accepted)
    refine ⟨?_, ?_, ?_⟩
    · rw [registry, Registry.size_ofList different, List.length_map]
    · intro entry among
      exact ⟨entry.handler, (Registry.get?_ofList_eq_some_iff different).2 ⟨List.mem_map_of_mem among, rfl⟩,
        entry.describes_handler⟩
    · intro kind absent
      apply Option.eq_none_iff_forall_ne_some.2
      intro handler found
      obtain ⟨handled, same⟩ := (Registry.get?_ofList_eq_some_iff different).1 found
      obtain ⟨entry, among, rfl⟩ := List.mem_map.1 handled
      exact absent entry among same

section Samples

/-- The staff, described once more after itself. -/
def staffTwice : Config := { Crew.staff with handlers := Crew.staff.handlers ++ Crew.staff.handlers }

theorem registers_each_staff :
    SortedMap.size Crew.staff.registry = 2 ∧ SortedMap.get? Crew.staff.registry "deal" = none ∧
      staffTwice.check = .error (.repeatedKind "company") := by
  obtain ⟨accepted, -, -, kept⟩ := registers_each Crew.staff
  obtain ⟨size, -, others⟩ := kept rfl
  refine ⟨size, others "deal" (by decide), ?_⟩
  have repeated : Offends (Crew.staff.handlers.map (·.kind)) (Crew.staff.handlers.head (by decide))
      (.repeatedKind "company") := .again (by decide) (by decide)
  exact ((registers_each staffTwice).2.1 _).2 ⟨_, _, _, rfl, accepted.1 rfl, repeated⟩

end Samples

end Config

end Subscriber

end Replica
