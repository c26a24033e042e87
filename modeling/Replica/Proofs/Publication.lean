import Replica.Proofs.Clock
import Replica.Proofs.Convergence
import Replica.Publisher.Basic
import Mathlib.Data.List.Pairwise
/-! From publisher to mirror. The publisher stamps its messages in the order of the events, however the wall
clock goes, so the newest message about an entity is the one about its last event that was told. Dispatches
in whatever order leave the record of the newest message; so the mirror shows the last event told. -/
namespace Replica

/-- The entity that the event is about. -/
def Event.key (event : Event) : EntityKey := ⟨event.kind, event.id⟩

/-- The message, if it was handed over. -/
def PublishOutcome.message? : PublishOutcome → Option Message
  | published m => some m
  | _ => none

namespace Publisher

variable {τ : Type}

/-- Tells others about events one after another, each at its own reading of the wall clock. -/
def publishAll (sink : Sink τ) : List (Stamp × Event) → Publisher → τ →
    List (Event × PublishOutcome) × Publisher × τ
  | [], p, t => ([], p, t)
  | (wall, event) :: events, p, t =>
    let (outcome, p, t) := p.publish sink wall event t
    let (outcomes, p, t) := publishAll sink events p t
    ((event, outcome) :: outcomes, p, t)

/-- The messages that were handed over, in order, each with the event that it tells. -/
def told (sink : Sink τ) (events : List (Stamp × Event)) (p : Publisher) (t : τ) :
    List (Event × Message) :=
  (publishAll sink events p t).1.filterMap fun e => e.2.message?.map (e.1, ·)

variable {sink : Sink τ} {wall : Stamp} {event : Event} {events : List (Stamp × Event)}
  {p : Publisher} {t : τ}

theorem build_of_error {p : Publisher} {event : Event} {why : Skip} (ruled : p.ruleFor event = .error why)
    (wall : Stamp) : p.build wall event = (.error why, p) := by
  simp [build, ruled]

theorem build_of_ok {p : Publisher} {event : Event} {rule : PublishRule} (ruled : p.ruleFor event = .ok rule)
    (wall : Stamp) :
    p.build wall event =
      (.ok (messageOf rule event (StampClock.due wall p.clock.last)),
        { p with clock := ⟨StampClock.due wall p.clock.last⟩ }) := by
  simp [build, ruled, StampClock.issue]

/-- What telling of an event leaves of the publisher, and what it tells. -/
theorem publish_cases (sink : Sink τ) (wall : Stamp) (event : Event) (p : Publisher) (t : τ) :
    (p.publish sink wall event t).2.1.rules = p.rules ∧
    p.clock.last ≤ (p.publish sink wall event t).2.1.clock.last ∧
    ∀ m, (p.publish sink wall event t).1.message? = some m →
      (∃ rule, p.rules.get? event.kind = some rule ∧ m = messageOf rule event m.emittedAt) ∧
      m.emittedAt = StampClock.due wall p.clock.last ∧
      (p.publish sink wall event t).2.1.clock.last = m.emittedAt := by
  cases ruled : p.ruleFor event with
  | error why =>
    have made : p.publish sink wall event t = (.skipped why, p.skip why, t) := by
      simp [publish, publishWith, build_of_error ruled]
    rw [made]
    exact ⟨rfl, Stamp.le_refl _, fun _ none => nomatch none⟩
  | ok rule =>
    have found : p.rules.get? event.kind = some rule := by
      unfold ruleFor at ruled
      grind
    have later := StampClock.last_le_due wall p.clock.last
    simp only [publish, publishWith, build_of_ok ruled, send, id_eq, true_and]
    refine ⟨later, ?_⟩
    intro m handed
    split at handed
    · obtain rfl := Option.some.inj handed
      exact ⟨⟨rule, found, rfl⟩, rfl, rfl⟩
    · cases handed

theorem told_cons (sink : Sink τ) (wall : Stamp) (event : Event) (events : List (Stamp × Event))
    (p : Publisher) (t : τ) :
    told sink ((wall, event) :: events) p t =
      ((p.publish sink wall event t).1.message?.map (event, ·)).toList ++
        told sink events (p.publish sink wall event t).2.1 (p.publish sink wall event t).2.2 := by
  simp only [told, publishAll, List.filterMap_cons]
  cases (p.publish sink wall event t).1.message? <;> rfl

theorem clock_publishAll (sink : Sink τ) (events : List (Stamp × Event)) (p : Publisher) (t : τ) :
    p.clock.last ≤ (publishAll sink events p t).2.1.clock.last := by
  induction events generalizing p t with
  | nil => exact Stamp.le_refl _
  | cons head events ih =>
    obtain ⟨-, first, -⟩ := publish_cases sink head.1 head.2 p t
    exact Stamp.le_trans first (ih _ _)

/-- Every message tells its event by the rule for its kind. -/
theorem messageOf_of_told {e : Event × Message} (among : e ∈ told sink events p t) :
    ∃ rule, p.rules.get? e.1.kind = some rule ∧ e.2 = messageOf rule e.1 e.2.emittedAt := by
  induction events generalizing p t with
  | nil => cases among
  | cons head events ih =>
    obtain ⟨wall, event⟩ := head
    obtain ⟨rules, -, first⟩ := publish_cases sink wall event p t
    rw [told_cons, List.mem_append] at among
    rcases among with now | later
    · obtain ⟨m, handed, rfl⟩ := Option.map_eq_some_iff.1 (Option.mem_toList.1 now)
      exact (first m handed).1
    · rw [← rules]
      exact ih later

/-- While the greatest stamp is not reached, stamps rise in the order of the events. -/
theorem stamps_increase (below : (publishAll sink events p t).2.1.clock.last < .greatest) :
    (told sink events p t).Pairwise (fun a b => a.2.emittedAt < b.2.emittedAt) ∧
      ∀ e ∈ told sink events p t, p.clock.last < e.2.emittedAt := by
  induction events generalizing p t with
  | nil => exact ⟨List.Pairwise.nil, fun _ none => nomatch none⟩
  | cons head events ih =>
    obtain ⟨wall, event⟩ := head
    obtain ⟨-, ahead, first⟩ := publish_cases sink wall event p t
    have rest := ih (p := (p.publish sink wall event t).2.1) (t := (p.publish sink wall event t).2.2) below
    obtain ⟨rising, above⟩ := rest
    have room : p.clock.last < .greatest :=
      Int.lt_of_le_of_lt (clock_publishAll sink ((wall, event) :: events) p t) below
    rw [told_cons]
    cases handed : (p.publish sink wall event t).1.message? with
    | none =>
      refine ⟨rising, ?_⟩
      intro e among
      exact Int.lt_of_le_of_lt ahead (above e among)
    | some m =>
      obtain ⟨-, stamp, last⟩ := first m handed
      rw [last] at above
      have later : p.clock.last < m.emittedAt := stamp ▸ StampClock.last_lt_due wall room
      refine ⟨List.pairwise_cons.2 ⟨above, rising⟩, ?_⟩
      intro e among
      rcases List.mem_cons.1 among with rfl | after
      · exact later
      · exact Stamp.lt_trans later (above e after)

theorem key_of_told {e : Event × Message} (among : e ∈ told sink events p t) : e.2.key = e.1.key := by
  obtain ⟨rule, -, made⟩ := messageOf_of_told among
  rw [made]
  rfl

/-- The messages handed over that tell events of an entity, in order, each with its event. -/
def toldOf (sink : Sink τ) (events : List (Stamp × Event)) (p : Publisher) (t : τ) (key : EntityKey) :
    List (Event × Message) :=
  (told sink events p t).filter (·.1.key == key)

variable {σ : Type} {c : Consumer σ} {store : σ → Store} {moves : List (Crew.Move σ)} {crew : Crew σ}

/-- No two messages have one stamp, and the last one about an entity is the newest. -/
theorem isNewest_of_last (below : (publishAll sink events p t).2.1.clock.last < .greatest)
    (same : ∀ m, m ∈ crew.messages ↔ ∃ event, (event, m) ∈ told sink events p t) :
    crew.StampsTell ∧ ∀ key last, (toldOf sink events p t key).getLast? = some last →
      crew.IsNewest last.2 := by
  obtain ⟨rising, -⟩ := stamps_increase below
  constructor
  · intro a received b again _ stamps
    obtain ⟨first, among⟩ := (same a).1 received
    obtain ⟨second, too⟩ := (same b).1 again
    by_contra different
    have apart : (first, a) ≠ (second, b) := fun equal => different (congrArg Prod.snd equal)
    have symmetric : Std.Symm fun a b : Event × Message => a.2.emittedAt ≠ b.2.emittedAt :=
      ⟨fun _ _ unequal => unequal.symm⟩
    have unequal := rising.imp (S := fun a b => a.2.emittedAt ≠ b.2.emittedAt) fun less equal =>
      Int.lt_irrefl _ (equal ▸ less)
    exact unequal.forall among too apart stamps
  · intro key last ends
    obtain ⟨earlier, split⟩ := List.getLast?_eq_some_iff.1 ends
    have mine : last ∈ toldOf sink events p t key := by simp [split]
    obtain ⟨there, own⟩ := List.mem_filter.1 mine
    have climbs := rising.filter (·.1.key == key)
    change (toldOf sink events p t key).Pairwise _ at climbs
    rw [split, List.pairwise_append] at climbs
    refine ⟨(same _).2 ⟨last.1, there⟩, ?_⟩
    intro other received entity
    obtain ⟨event, among⟩ := (same other).1 received
    have too : (event, other) ∈ toldOf sink events p t key := by
      refine List.mem_filter.2 ⟨among, ?_⟩
      rw [key_of_told there, key_of_told among] at entity
      rwa [← entity] at own
    rw [split] at too
    rcases List.mem_append.1 too with before | now
    · exact Stamp.le_of_lt (climbs.2.2 _ before _ List.mem_cons_self)
    · rw [← List.mem_singleton.1 now]
      exact Stamp.le_refl _

/-- Take any events told one after another by any rules, whatever the wall clock says and the transport
refuses, while the greatest stamp is not reached; and let dispatches on an empty store that nobody else
touches, in whatever order and interleaving, have ended that received each message told at least once, and
no others. Where all are taken freely, each entity has a record of the last event told about it: with its
stamp, its deletion mark and, unless it is a deletion, the fields that its rule tells and its schema keeps. -/
theorem last_told_mirrored (on : c.OnStore store) {s : σ} (fresh : store s = {})
    (quiet : ∀ move ∈ moves, Crew.Quiet store move) (reached : Crew.run c moves (Crew.opened s) = crew)
    (below : (publishAll sink events p t).2.1.clock.last < .greatest)
    (same : ∀ m, m ∈ crew.messages ↔ ∃ event, (event, m) ∈ told sink events p t)
    (taken : ∀ e ∈ told sink events p t, c.registry.TakesFreely e.2) (finished : crew.Finished)
    {key : EntityKey} {event : Event} {m : Message}
    (last : (toldOf sink events p t key).getLast? = some (event, m)) :
    ∃ rule handler record, p.rules.get? event.kind = some rule ∧
      c.registry.handlerFor? m = some handler ∧
      SortedMap.get? (crew.records store) key = some record ∧
      record.lastSyncedAt = m.emittedAt ∧
      record.isDeleted = (event.action.isDeletion ||
        handler.schema.isSoftDeleted (rule.outbound event.state)) ∧
      (event.action.isDeletion = false →
        record.fields = handler.schema.project (rule.outbound event.state)) := by
  obtain ⟨among, own⟩ := List.mem_filter.1 (List.mem_of_getLast? last)
  obtain rfl : event.key = key := by simpa using own
  have key : m.key = event.key := key_of_told among
  obtain ⟨rule, ruled, made⟩ := messageOf_of_told among
  dsimp only at ruled made
  obtain ⟨copies, newest⟩ := isNewest_of_last below same
  have isNewest : crew.IsNewest m := newest event.key (event, m) last
  have free (m : Message) (there : m ∈ crew.messages) : c.registry.TakesFreely m := by
    obtain ⟨event, among⟩ := (same m).1 there
    exact taken _ among
  have traced : Crew.Traced c.registry crew.messages (crew.records store) := by
    subst reached
    exact Crew.traced_run on (fun move member => Crew.keepsRecords_of_quiet (quiet move member)) s
      (by rw [fresh])
  have covers (m : Message) (there : m ∈ crew.messages) : (crew.records store).Covers m := by
    subst reached
    exact Crew.covers_of_finished on quiet (by rw [fresh]) finished there (free m there)
  obtain ⟨record, found, schema, current, outcome, known, merges⟩ :=
    Crew.merges_of_isNewest traced covers copies isNewest
  obtain ⟨handler, handled, rfl⟩ := Option.map_eq_some_iff.1 known
  obtain ⟨fields, rfl, whole⟩ := merges.eq_recordOf
  refine ⟨rule, handler, _, ruled, handled, key ▸ found, rfl, ?_, ?_⟩
  · rw [made]
    rfl
  · intro lives
    have projected := whole (by rw [made]; exact lives)
    rw [made] at projected ⊢
    exact projected

section Samples

open Fixtures

/-- Companies are told with their name and their deletion mark only. -/
def herald : Publisher :=
  Publisher.register {} { kind := "company", fields := some ["name", "isDeleted"] }

/-- The company was changed, and these are its fields now. -/
def acmeChanged (state : List (String × Value)) (isTestData : Bool) : Event :=
  { kind := "company", id := "c-1", action := .updated, state := SortedMap.ofPairs state, isTestData }

def marked : Value := ⟨.bool true, rfl⟩

/-- The company is told to be deleted, changed in a test, and there again, while the wall clock goes back. -/
def comeback : List (Stamp × Event) :=
  [ (stamp 5, acmeChanged [("isDeleted", marked), ("name", .str "Acme")] false),
    (stamp 4, acmeChanged [("name", .str "Test")] true),
    (stamp 3, acmeChanged [("name", .str "Acme Ltd"), ("owner", .str "Ada")] false) ]

def gone : Message := acmeUpdated (SortedMap.ofPairs [("isDeleted", marked), ("name", .str "Acme")]) (stamp 5)

def back : Message := acmeUpdated (SortedMap.ofPairs [("name", .str "Acme Ltd")]) (stamp 6)

/-- The older message overtakes the newer, which comes twice, between load and write. -/
def overtaking : List (Crew.Move Store) :=
  [.receive 0 back] ++ steps 0 2 ++ [.receive 1 gone] ++ steps 1 4 ++ [.receive 2 back] ++ steps 2 4 ++
    steps 0 2

theorem last_told_mirrored_comeback :
    ((publishAll Outbox.sink comeback herald {}).2.1.clock.last < .greatest ∧
      (∀ m, m ∈ (Crew.run service overtaking (Crew.opened {})).messages ↔
        ∃ event, (event, m) ∈ told Outbox.sink comeback herald {}) ∧
      (∀ e ∈ told Outbox.sink comeback herald {}, service.registry.TakesFreely e.2) ∧
      (Crew.run service overtaking (Crew.opened {})).Finished) ∧
    ∃ record, SortedMap.get? ((Crew.run service overtaking (Crew.opened {})).records id) acme = some record ∧
      record.lastSyncedAt = stamp 6 ∧ record.isDeleted = false ∧
      record.fields = SortedMap.ofPairs [("name", .str "Acme Ltd")] := by
  have quiet : ∀ move ∈ overtaking, Crew.Quiet id move := by
    simp [overtaking, steps, Crew.Move.Within, or_imp, forall_and]
  have below : (publishAll Outbox.sink comeback herald {}).2.1.clock.last < .greatest := by decide
  have messages : told Outbox.sink comeback herald {} =
      [ (acmeChanged [("isDeleted", marked), ("name", .str "Acme")] false, gone),
        (acmeChanged [("name", .str "Acme Ltd"), ("owner", .str "Ada")] false, back) ] := by rfl
  have received : (Crew.run service overtaking (Crew.opened {})).messages = [back, gone, back] := by rfl
  have same (m : Message) : m ∈ (Crew.run service overtaking (Crew.opened {})).messages ↔
      ∃ event, (event, m) ∈ told Outbox.sink comeback herald {} := by
    rw [received, messages]
    simp only [List.mem_cons, Prod.mk.injEq, List.not_mem_nil, or_false, exists_or, exists_and_right,
      exists_eq, true_and]
    constructor
    · rintro (now | now)
      · exact .inr now
      · exact now
    · exact .inr
  have taken : ∀ e ∈ told Outbox.sink comeback herald {}, service.registry.TakesFreely e.2 := by
    simp only [messages, List.forall_mem_cons]
    exact ⟨⟨companies, rfl, rfl, rfl⟩, ⟨companies, rfl, rfl, rfl⟩, by simp⟩
  have finished : (Crew.run service overtaking (Crew.opened {})).Finished := by decide
  have last : (toldOf Outbox.sink comeback herald {} acme).getLast? =
      some (acmeChanged [("name", .str "Acme Ltd"), ("owner", .str "Ada")] false, back) := by rfl
  obtain ⟨rule, handler, record, ruled, handled, found, stamped, deleted, fields⟩ :=
    last_told_mirrored service_onStore rfl quiet rfl below same taken finished last
  obtain rfl : rule = _ := (Option.some.inj ruled).symm
  obtain rfl : handler = _ := (Option.some.inj handled).symm
  exact ⟨⟨below, same, taken, finished⟩, record, found, stamped, deleted, fields rfl⟩

end Samples

end Publisher

end Replica
