import Replica.Fixtures
import Replica.Proofs.Delivery
import Replica.Proofs.Simulation
/-! What becomes of a message on the bus. -/
namespace Replica

namespace Post

open Exchange

def Event.queued? : Event → Option Delivery
  | queued d => some d
  | _ => none

def Event.taken? : Event → Option Delivery
  | taken d => some d
  | _ => none

def Event.shelved? : Event → Option DeadLetter
  | shelved _ letter => some letter
  | _ => none

/-- The deliveries that were put on the line, in order. -/
abbrev deliveries (log : List Event) : List Delivery := log.filterMap Event.queued?

/-- The deliveries that were taken from the line, in order. -/
abbrev received (log : List Event) : List Delivery := log.filterMap Event.taken?

/-- The messages that were set aside, in order. -/
abbrev letters (log : List Event) : List DeadLetter := log.filterMap Event.shelved?

/-- As many deliveries were made as there may be, and all of them were answered, none with success. -/
def Spent (retry : Retry) (log : List Event) : Prop :=
  (deliveries log).length = retry.maxAttempts ∧
    ∀ d ∈ deliveries log, (∃ verdict, .answered d verdict ∈ log) ∧ .answered d .ack ∉ log

/-- How many deliveries were made by a stage. -/
def Stage.made : Stage → Nat
  | .onLine n | .inHand n | .answered n _ => n + 1
  | .between n | .ended n _ | .gone n _ => n

/-- How many deliveries were answered by a stage. -/
def Stage.settled : Stage → Nat
  | .answered n _ => n + 1
  | .between n | .onLine n | .inHand n | .ended n _ | .gone n _ => n

/-- The last delivery was acknowledged. -/
def Stage.Acked : Stage → Prop
  | .answered _ verdict => verdict = .ack
  | .ended _ way | .gone _ way => way = .acked
  | .between _ | .onLine _ | .inHand _ => False

/-- How it ended, if it did. -/
def Stage.way? : Stage → Option End
  | .ended _ way | .gone _ way => some way
  | .between _ | .onLine _ | .inHand _ | .answered _ _ => none

theorem Stage.settled_le_made (stage : Stage) : stage.settled ≤ stage.made := by
  cases stage <;> simp [settled, made]

section Course

variable {retry : Retry} {id : Nat} {m : Message} {stage : Stage} {log : List Event}

theorem Course.deliveries_eq (course : Course retry id m stage log) :
    deliveries log = (List.range stage.made).map (⟨m, ·, some id⟩) := by
  induction course with
  | sent => rfl
  | _ => simp_all [Stage.made, Event.queued?, List.range_succ]

theorem Course.made_le (course : Course retry id m stage log) : stage.made ≤ retry.maxAttempts := by
  induction course with
  | sent => exact Nat.zero_le _
  | queued _ more => exact more
  | _ => assumption

theorem Course.sent_mem (course : Course retry id m stage log) : .sent id m ∈ log := by
  induction course <;> simp_all

theorem Course.eq_of_sent (course : Course retry id m stage log) {other : Message}
    (sent : .sent id other ∈ log) : other = m := by
  induction course <;> simp_all

theorem Course.left_mem_iff (course : Course retry id m stage log) :
    .left id ∈ log ↔ ∃ n way, stage = .gone n way := by
  induction course <;> simp_all

theorem Course.exists_answered_of_lt (course : Course retry id m stage log) {k : Nat}
    (early : k < stage.settled) : ∃ verdict, .answered ⟨m, k, some id⟩ verdict ∈ log := by
  induction course with
  | sent => cases early
  | @answered n verdict log _ ih =>
    rcases Nat.lt_succ_iff_lt_or_eq.1 early with earlier | rfl
    · obtain ⟨verdict, among⟩ := ih earlier
      exact ⟨verdict, List.mem_append_left _ among⟩
    · exact ⟨verdict, by simp⟩
  | @dropped n log _ ih =>
    rcases Nat.lt_succ_iff_lt_or_eq.1 early with earlier | rfl
    · obtain ⟨verdict, among⟩ := ih earlier
      exact ⟨verdict, List.mem_append_left _ among⟩
    · exact ⟨.lost, by simp⟩
  | _ => simp_all [Stage.settled]

/-- Only a delivery that was made is answered, and an acknowledgement is the last answer. -/
theorem Course.of_answered (course : Course retry id m stage log) {d : Delivery} {verdict : Verdict}
    (answered : .answered d verdict ∈ log) :
    ∃ k < stage.settled, d = ⟨m, k, some id⟩ ∧ (verdict = .ack → stage.Acked) := by
  induction course with
  | sent => simp at answered
  | @answered n last log _ ih =>
    rcases List.mem_append.1 answered with earlier | now
    · obtain ⟨k, less, same, acked⟩ := ih earlier
      exact ⟨k, Nat.lt_succ_of_lt less, same, fun good => (acked good).elim⟩
    · obtain ⟨rfl, rfl⟩ : d = ⟨m, n, some id⟩ ∧ verdict = last := by simpa using now
      exact ⟨n, Nat.lt_succ_self n, rfl, fun good => good⟩
  | @dropped n log _ ih =>
    rcases List.mem_append.1 answered with earlier | now
    · obtain ⟨k, less, same, acked⟩ := ih earlier
      exact ⟨k, Nat.lt_succ_of_lt less, same, fun good => (acked good).elim⟩
    · obtain ⟨rfl, rfl⟩ : d = ⟨m, n, some id⟩ ∧ verdict = .lost := by simpa using now
      exact ⟨n, Nat.lt_succ_self n, rfl, fun bad => nomatch bad⟩
  | _ => simp_all [Stage.settled, Stage.Acked]

theorem Course.exists_acked (course : Course retry id m stage log) (acked : stage.Acked) :
    ∃ d, .answered d .ack ∈ log := by
  induction course with
  | @answered n verdict log =>
    obtain rfl : verdict = .ack := acked
    exact ⟨⟨m, n, some id⟩, by simp⟩
  | _ => simp_all [Stage.Acked]

/-- While nothing was acknowledged, every delivery that came back failed. -/
theorem Course.exists_failed_of_lt (course : Course retry id m stage log) (open_ : ¬stage.Acked)
    {k : Nat} (early : k < stage.settled) :
    ∃ verdict ≠ .ack, .answered ⟨m, k, some id⟩ verdict ∈ log := by
  obtain ⟨verdict, among⟩ := course.exists_answered_of_lt early
  obtain ⟨-, -, -, acked⟩ := course.of_answered among
  exact ⟨verdict, fun good => open_ (acked good), among⟩

/-- What was taken is what was put on the line, from the first on; if the receiver is there, only what is
on the line is missing. -/
theorem Course.received_prefix (course : Course retry id m stage log) :
    deliveries log = received log ++ (stage.box id m).onLine ∨
      .closed ∈ log ∧ (stage.box id m).onLine = [] ∧ received log <+: deliveries log := by
  induction course with
  | sent => exact .inl rfl
  | dropped _ ih =>
    refine .inr ⟨by simp, rfl, ?_⟩
    rcases ih with all | ⟨-, none, -⟩
    · simp [all, List.filterMap_cons, Event.queued?, Event.taken?]
    · cases none
  | closed _ _ ih => simpa [List.filterMap_cons, Event.queued?, Event.taken?] using ih.imp_right And.right
  | _ => simp_all [Stage.box, List.filterMap_cons, Event.queued?, Event.taken?]

theorem Course.letters_eq (course : Course retry id m stage log) :
    letters log = if stage.way? = some .shelved then [exhausted m retry] else [] := by
  induction course with
  | sent => rfl
  | _ => simp_all [Stage.way?, Event.shelved?]

theorem Course.shelved_mem (course : Course retry id m stage log)
    (shelved : stage.way? = some .shelved) : .shelved id (exhausted m retry) ∈ log := by
  induction course <;> simp_all [Stage.way?]

theorem Course.made_of_shelved (course : Course retry id m stage log)
    (shelved : stage.way? = some .shelved) : stage.made = retry.maxAttempts := by
  have bound := course.made_le
  induction course with
  | shelved _ none => exact Nat.le_antisymm bound (Nat.not_lt.1 none)
  | _ => simp_all [Stage.way?, Stage.made]

theorem Course.of_refused (course : Course retry id m stage log)
    (refused : stage.way? = some .refused) :
    stage.made < retry.maxAttempts ∧
      ∃ before after, log = before ++ .refused ⟨m, stage.made, some id⟩ :: after ∧ .closed ∈ before := by
  induction course with
  | @refused n log _ more gone => exact ⟨more, log, [], rfl, gone⟩
  | left _ ih | closed _ _ ih =>
    obtain ⟨more, before, after, rfl, gone⟩ := ih refused
    exact ⟨more, before, _, List.append_assoc .., gone⟩
  | _ => cases refused

/-- The last event of a log is the one looked for, or one after it. -/
theorem concat_eq_split {log before after : List Event} {last e : Event}
    (split : log ++ [last] = before ++ e :: after) :
    (log = before ∧ last = e ∧ after = []) ∨
      ∃ rest, after = rest ++ [last] ∧ log = before ++ e :: rest := by
  rcases List.eq_nil_or_concat after with rfl | ⟨rest, other, rfl⟩
  · obtain ⟨rfl, same⟩ := List.append_inj' split rfl
    exact .inl ⟨rfl, by simpa using same, rfl⟩
  · rw [List.concat_eq_append, ← List.cons_append, ← List.append_assoc] at split
    obtain ⟨rfl, same⟩ := List.append_inj' split rfl
    obtain rfl : last = other := by simpa using same
    exact .inr ⟨rest, List.concat_eq_append, rfl⟩

/-- A delivery after the first is put on the line only when the one before has failed. -/
theorem Course.renewed (course : Course retry id m stage log) {n : Nat} {before after : List Event}
    (split : log = before ++ .queued ⟨m, n + 1, some id⟩ :: after) :
    ∃ verdict ≠ .ack, .answered ⟨m, n, some id⟩ verdict ∈ before := by
  induction course generalizing after with
  | sent => simp [List.cons_eq_append_iff] at split
  | queued earlier _ _ ih =>
    rcases concat_eq_split split with ⟨rfl, same, -⟩ | ⟨rest, -, split⟩
    · obtain rfl : _ = n + 1 := by simpa using same
      exact earlier.exists_failed_of_lt (fun acked => acked) (Nat.lt_succ_self n)
    · exact ih split
  | dropped _ ih =>
    rw [List.append_cons] at split
    rcases concat_eq_split split with ⟨-, same, -⟩ | ⟨rest, -, split⟩
    · cases same
    · rcases concat_eq_split split with ⟨-, same, -⟩ | ⟨rest, -, split⟩
      · cases same
      · exact ih split
  | failed _ _ ih | acked _ ih => exact ih split
  | taken _ ih | answered _ ih | closed _ _ ih | refused _ _ _ ih | shelved _ _ ih | left _ ih =>
    rcases concat_eq_split split with ⟨-, same, -⟩ | ⟨rest, -, split⟩
    · cases same
    · exact ih split

theorem Course.not_acked (course : Course retry id m stage log) (open_ : ¬stage.Acked) (d : Delivery) :
    .answered d .ack ∉ log := by
  intro among
  obtain ⟨-, -, -, acked⟩ := course.of_answered among
  exact open_ (acked rfl)

/-- After an acknowledgement nothing happens any more but that the courier finishes. -/
theorem Course.after_acked (course : Course retry id m stage log) :
    log.Pairwise fun e later => ∀ d, e = .answered d .ack → later = .closed ∨ later = .left id := by
  induction course with
  | sent => simp
  | failed _ _ ih | acked _ ih => exact ih
  | closed _ _ ih | left _ ih => simp [List.pairwise_append, ih]
  | queued earlier _ _ ih | taken earlier ih | answered earlier ih | dropped earlier ih
    | refused earlier _ _ ih | shelved earlier _ ih =>
    have none := earlier.not_acked not_false
    refine List.pairwise_append.2 ⟨ih, by simp, ?_⟩
    rintro e among _ _ d rfl
    exact absurd among (none d)

/-- How a message can end on the bus. -/
inductive Ended (retry : Retry) (id : Nat) (m : Message) (log : List Event) : Prop
  | acked {d : Delivery} (answered : .answered d .ack ∈ log)
  /-- All deliveries failed, and the message was set aside. -/
  | shelved (spent : Spent retry log) (once : letters log = [exhausted m retry])
  /-- The receiver had gone when the next delivery was to be put on the line. -/
  | refused {before after : List Event} (fewer : (deliveries log).length < retry.maxAttempts)
    (next : log = before ++ .refused ⟨m, (deliveries log).length, some id⟩ :: after)
    (gone : .closed ∈ before)

/-- What holds of the events about a message at every moment. -/
structure Accounted (retry : Retry) (id : Nat) (m : Message) (log : List Event) : Prop where
  /-- The deliveries are numbered from zero on. -/
  numbered : deliveries log = (List.range (deliveries log).length).map (⟨m, ·, some id⟩)
  limited : (deliveries log).length ≤ retry.maxAttempts
  /-- The receiver gets them in this order, and none before it got the ones before. -/
  received : received log <+: deliveries log
  /-- A delivery is made only when the one before it has failed. -/
  renewed : ∀ n before after, log = before ++ .queued ⟨m, n + 1, some id⟩ :: after →
    ∃ verdict ≠ .ack, .answered ⟨m, n, some id⟩ verdict ∈ before
  /-- After an acknowledgement the courier only finishes, and the message is never set aside. -/
  acked : ∀ d before after, log = before ++ .answered d .ack :: after →
    (∀ e ∈ after, e = .closed ∨ e = .left id) ∧ letters log = []
  once : letters log = [] ∨ letters log = [exhausted m retry]
  /-- It is set aside only when all deliveries were made and failed. -/
  spent : letters log ≠ [] → Spent retry log
  /-- By the time its courier has finished, it was set aside exactly if all deliveries were made and
  failed. -/
  shelved_iff : .left id ∈ log → (letters log = [exhausted m retry] ↔ Spent retry log)
  /-- The courier finishes in no other way. -/
  ended : .left id ∈ log → Ended retry id m log

theorem Course.spent_of_shelved (course : Course retry id m stage log)
    (shelved : stage.way? = some .shelved) : Spent retry log := by
  have open_ : ¬stage.Acked := by cases stage <;> simp_all [Stage.way?, Stage.Acked]
  have all : stage.settled = stage.made := by cases stage <;> simp_all [Stage.way?, Stage.settled, Stage.made]
  refine ⟨by simp [course.deliveries_eq, course.made_of_shelved shelved], fun d made => ?_⟩
  rw [course.deliveries_eq] at made
  obtain ⟨k, less, rfl⟩ := List.mem_map.1 made
  rw [List.mem_range, ← all] at less
  exact ⟨course.exists_answered_of_lt less, course.not_acked open_ _⟩

/-- Once all deliveries were made and failed, the message is set aside or about to be. -/
theorem Course.stage_of_spent (course : Course retry id m stage log) (spent : Spent retry log) :
    stage.way? = some .shelved ∨ stage = .between retry.maxAttempts ∨
      ∃ n verdict, stage = .answered n verdict ∧ verdict ≠ .ack ∧ n + 1 = retry.maxAttempts := by
  obtain ⟨count, all⟩ := spent
  have made : stage.made = retry.maxAttempts := by simpa [course.deliveries_eq] using count
  -- the delivery of any number below the limit was made, so it was answered, and not with success
  have answered {k : Nat} (less : k < stage.made) :
      k < stage.settled ∧ .answered ⟨m, k, some id⟩ .ack ∉ log := by
    have among : (⟨m, k, some id⟩ : Delivery) ∈ deliveries log := by
      rw [course.deliveries_eq]
      exact List.mem_map.2 ⟨k, List.mem_range.2 less, rfl⟩
    obtain ⟨⟨verdict, told⟩, open_⟩ := all _ among
    obtain ⟨j, early, same, -⟩ := course.of_answered told
    obtain rfl : k = j := congrArg Delivery.attempt same
    exact ⟨early, open_⟩
  have open_ : ¬stage.Acked := by
    intro acked
    obtain ⟨d, told⟩ := course.exists_acked acked
    obtain ⟨k, early, rfl, -⟩ := course.of_answered told
    exact (answered (Nat.lt_of_lt_of_le early stage.settled_le_made)).2 told
  cases stage with
  | between n => exact .inr (.inl (congrArg Stage.between made))
  | onLine n => exact absurd (answered (Nat.lt_succ_self n)).1 (Nat.lt_irrefl n)
  | inHand n => exact absurd (answered (Nat.lt_succ_self n)).1 (Nat.lt_irrefl n)
  | answered n verdict => exact .inr (.inr ⟨n, verdict, rfl, open_, made⟩)
  | ended n way | gone n way =>
    cases way with
    | acked => exact absurd rfl open_
    | shelved => exact .inl rfl
    | refused => exact absurd made (Nat.ne_of_lt (course.of_refused rfl).1)

theorem Course.accounted (course : Course retry id m stage log) : Accounted retry id m log where
  numbered := by simp [course.deliveries_eq]
  limited := by simpa [course.deliveries_eq] using course.made_le
  received := by
    rcases course.received_prefix with all | ⟨-, -, some⟩
    · exact ⟨_, all.symm⟩
    · exact some
  renewed _ _ _ split := course.renewed split
  acked d before after split := by
    have answered : .answered d .ack ∈ log := by simp [split]
    obtain ⟨-, -, -, acked⟩ := course.of_answered answered
    have later := course.after_acked
    rw [split, List.pairwise_append, List.pairwise_cons] at later
    obtain ⟨-, ⟨rest, -⟩, -⟩ := later
    refine ⟨fun e among => rest e among d rfl, ?_⟩
    have unshelved : stage.way? ≠ some .shelved := by
      cases stage <;> simp_all [Stage.way?, Stage.Acked]
    rw [course.letters_eq, if_neg unshelved]
  once := by
    rw [course.letters_eq]
    split
    · exact .inr rfl
    · exact .inl rfl
  spent shelved := by
    rw [course.letters_eq, ite_ne_right_iff] at shelved
    exact course.spent_of_shelved shelved.1
  shelved_iff left := by
    obtain ⟨n, way, rfl⟩ := course.left_mem_iff.1 left
    constructor
    · intro once
      rw [course.letters_eq, ite_eq_left_iff] at once
      exact course.spent_of_shelved (by_contra fun unshelved => by cases once unshelved)
    · intro spent
      rcases course.stage_of_spent spent with shelved | between | ⟨_, _, answered, -⟩
      · rw [course.letters_eq, if_pos shelved]
      · cases between
      · cases answered
  ended left := by
    obtain ⟨n, way, rfl⟩ := course.left_mem_iff.1 left
    cases way with
    | acked =>
      obtain ⟨d, answered⟩ := course.exists_acked rfl
      exact .acked answered
    | shelved => exact .shelved (course.spent_of_shelved rfl) (by simp [course.letters_eq, Stage.way?])
    | refused =>
      obtain ⟨fewer, before, after, split, gone⟩ := course.of_refused rfl
      have made : (deliveries log).length = (Stage.gone n .refused).made := by simp [course.deliveries_eq]
      rw [← made] at fewer split
      exact .refused fewer split gone

end Course

/-! ### Counting -/

def Event.sentId? : Event → Option Nat
  | sent id _ => some id
  | _ => none

abbrev sentIds (history : List Event) : List Nat := history.filterMap Event.sentId?

/-- The couriers that have not finished. -/
def pending (history : List Event) : List Nat :=
  (sentIds history).filter fun id => .left id ∉ history

theorem mem_sentIds_iff {history : List Event} {id : Nat} :
    id ∈ sentIds history ↔ ∃ m, .sent id m ∈ history := by
  rw [List.mem_filterMap]
  constructor
  · rintro ⟨e, among, sent⟩
    cases e with
    | sent n m =>
      obtain rfl := Option.some.inj sent
      exact ⟨m, among⟩
    | _ => cases sent
  · rintro ⟨m, among⟩
    exact ⟨_, among, rfl⟩

theorem mem_pending_iff {history : List Event} {id : Nat} :
    id ∈ pending history ↔ (∃ m, .sent id m ∈ history) ∧ .left id ∉ history := by
  rw [pending, List.mem_filter, mem_sentIds_iff, decide_eq_true_iff]

/-- An event that leaves the couriers on their way as they are. -/
def Event.Passes (e : Event) : Prop := e.sentId? = none ∧ ∀ id, e ≠ .left id

theorem sentIds_of_passes {es : List Event} (pass : ∀ e ∈ es, e.Passes) : sentIds es = [] :=
  List.filterMap_eq_nil_iff.2 fun e among => (pass e among).1

theorem pending_append_of_passes {es : List Event} (pass : ∀ e ∈ es, e.Passes) (history : List Event) :
    pending (history ++ es) = pending history := by
  have stays (id : Nat) : .left id ∉ es := fun among => (pass _ among).2 id rfl
  simp [pending, sentIds_of_passes pass, stays]

theorem pending_sent {history : List Event} {id : Nat} (m : Message) (there : .left id ∉ history) :
    pending (history ++ [.sent id m]) = pending history ++ [id] := by
  simp [pending, Event.sentId?, there]

theorem pending_left {history : List Event} (distinct : (sentIds history).Nodup) (id : Nat) :
    pending (history ++ [.left id]) = (pending history).erase id := by
  have nodup : (pending history).Nodup := distinct.filter _
  rw [nodup.erase_eq_filter]
  have same : sentIds (history ++ [.left id]) = sentIds history := by
    simp [List.filterMap_cons, Event.sentId?]
  rw [pending, same, pending, List.filter_filter]
  refine List.filter_congr fun n _ => ?_
  by_cases own : n = id <;> simp [own]

variable {σ : Type} {retry : Retry}

/-- The count of messages under way is right. -/
structure Counted (history : List Event) (post : Post σ) : Prop where
  distinct : (sentIds history).Nodup
  count : post.exchange.outstanding = (pending history).length

theorem Counted.pass {history es : List Event} {post after : Post σ} (counted : Counted history post)
    (pass : ∀ e ∈ es, e.Passes) (same : after.exchange.outstanding = post.exchange.outstanding) :
    Counted (history ++ es) after where
  distinct := by simpa [sentIds_of_passes pass] using counted.distinct
  count := by rw [same, counted.count, pending_append_of_passes pass]

theorem outstanding_reply (x : Exchange σ) (now : Instant) (recipient : Option Nat) (verdict : Verdict) :
    (x.reply now recipient verdict).outstanding = x.outstanding := by
  cases recipient <;> rfl

theorem outstanding_lose (x : Exchange σ) (now : Instant) (dropped : List Delivery) :
    (x.lose now dropped).outstanding = x.outstanding := by
  induction dropped generalizing x with
  | nil => rfl
  | cons d rest ih => exact (ih _).trans (outstanding_reply ..)

/-- A step of a courier leaves the count as it is, or the courier finishes. -/
theorem Steps.passes {x after : Exchange σ} {id : Nat} {m : Message} {phase : Courier.Phase}
    {next : Option Courier.Phase} {es : List Event} (steps : Steps retry x id m phase after next es) :
    ((∀ e ∈ es, e.Passes) ∧ after.outstanding = x.outstanding) ∨
      phase = .leaving ∧ es = [.left id] ∧ after.outstanding = x.outstanding - 1 := by
  cases steps <;> simp [Event.Passes, Event.sentId?]

theorem Counted.next {history es : List Event} {post after : Post σ} {move : Move σ}
    (counted : Counted history post) (traced : Traced retry history post)
    (makes : Makes retry post move after es) : Counted (history ++ es) after := by
  cases makes with
  | quiet _ _ _ outstanding => exact counted.pass (by simp) outstanding
  | @sent id m free receiving =>
    have fresh : ∀ e ∈ log id history, e = .closed := by
      cases traced.follows id with
      | unsent _ _ silent => exact silent
      | sent there => simp [free] at there
    have unsent : id ∉ sentIds history := by
      intro among
      obtain ⟨old, sent⟩ := mem_sentIds_iff.1 among
      have later := fresh _ (sent_mem_log.2 sent)
      cases later
    have there : .left id ∉ history := by
      intro left
      have later := fresh _ (left_mem_log.2 left)
      cases later
    refine ⟨?_, ?_⟩
    · rw [sentIds, List.filterMap_append]
      refine List.nodup_append.2 ⟨counted.distinct, List.pairwise_singleton .., ?_⟩
      intro other earlier last now
      obtain rfl := List.mem_singleton.1 now
      rintro rfl
      exact unsent earlier
    · simp [pending_sent m there, counted.count]
  | @stepped id m phase exchange next there ready made =>
    rcases (steps_courierStep ready made).passes with ⟨pass, same⟩ | ⟨rfl, left, fewer⟩
    · exact counted.pass pass same
    · rw [left]
      cases traced.follows id with
      | unsent free => simp [there] at free
      | sent found course stands =>
        obtain ⟨rfl, rfl⟩ : _ ∧ _ := by simpa using found.symm.trans there
        have among : id ∈ pending history := by
          refine mem_pending_iff.2 ⟨⟨_, sent_mem_log.1 course.sent_mem⟩, fun left => ?_⟩
          obtain ⟨n, way, rfl⟩ := course.left_mem_iff.1 (left_mem_log.2 left)
          cases stands
        refine ⟨by simpa [List.filterMap_cons, Event.sentId?] using counted.distinct, ?_⟩
        rw [pending_left counted.distinct, List.length_erase_of_mem among, ← counted.count]
        exact fewer
  | taken => exact counted.pass (by simp [Event.Passes, Event.sentId?]) rfl
  | answered => exact counted.pass (by simp [Event.Passes, Event.sentId?]) (outstanding_reply ..)
  | closed => exact counted.pass (by simp [Event.Passes, Event.sentId?]) (outstanding_lose ..)

theorem Counted.run {past : List Event} {post : Post σ} (counted : Counted past post)
    (traced : Traced retry past post) (moves : List (Move σ)) :
    Counted (past ++ history retry moves post) (Post.run retry moves post) := by
  induction moves generalizing past post with
  | nil => simpa [history] using counted
  | cons move rest ih =>
    have makes := makes_next retry post move
    simpa [history] using ih (counted.next traced makes) (traced.next makes)

variable {id : Nat} {m : Message}

/-- All deliveries of the message have failed. The number says how many steps of its courier are left until
it is set aside. -/
inductive Doomed (retry : Retry) (id : Nat) (m : Message) (post : Post σ) : Nat → Prop
  | failed {n : Nat} {verdict : Verdict}
    (there : post.couriers.get? id = some ⟨m, some (.awaiting n)⟩)
    (last : n + 1 = retry.maxAttempts) (bad : verdict ≠ .ack)
    (box : post.box id = { answers := [verdict] }) : Doomed retry id m post 3
  | spent (there : post.couriers.get? id = some ⟨m, some (.attempt retry.maxAttempts)⟩)
    (box : post.box id = {}) : Doomed retry id m post 2
  | shelving (there : post.couriers.get? id = some ⟨m, some .shelving⟩) (box : post.box id = {}) :
    Doomed retry id m post 1

/-- A courier with nothing on the line and nothing in the receiver's hands is left alone by others. -/
theorem Sees.idle {post after : Post σ} {move : Move σ} {es : List Event} {courier : Courier}
    (sees : Sees retry id post after move es) (other : move.isStep id = false)
    (there : post.couriers.get? id = some courier) {answers : List Verdict}
    (box : post.box id = { answers }) :
    after.couriers.get? id = some courier ∧ after.box id = { answers } := by
  cases sees with
  | nothing couriers boxed => exact ⟨couriers.trans there, boxed.trans box⟩
  | sent free => simp [there] at free
  | stepped => simp [Move.isStep] at other
  | taken _ first => simp [box] at first
  | answered _ held => simp [box] at held
  | closed couriers boxed => exact ⟨couriers.trans there, by simp [boxed, box]⟩

theorem Doomed.next_of_other {k : Nat} {post : Post σ} (doomed : Doomed retry id m post k)
    {move : Move σ} (other : move.isStep id = false) : Doomed retry id m (next retry post move) k := by
  have sees := (makes_next retry post move).sees id
  cases doomed with
  | failed there last bad box =>
    obtain ⟨there, box⟩ := sees.idle other there box
    exact .failed there last bad box
  | spent there box =>
    obtain ⟨there, box⟩ := sees.idle other there box
    exact .spent there box
  | shelving there box =>
    obtain ⟨there, box⟩ := sees.idle other there box
    exact .shelving there box

/-- A courier that can go on makes its step. -/
theorem steps_next (retry : Retry) {post : Post σ} {phase : Courier.Phase}
    (there : post.couriers.get? id = some ⟨m, some phase⟩)
    (ready : courierReady post.now post.exchange id phase = true) :
    ∃ exchange later es, Steps retry post.exchange id m phase exchange later es ∧
      events retry post (.step id) = es ∧
      next retry post (.step id) =
        { post with exchange, couriers := post.couriers.insert id ⟨m, later⟩ } := by
  cases made : courierStep retry post.now post.exchange id m phase with
  | mk exchange later =>
    refine ⟨exchange, later, _, steps_courierStep ready made, ?_, ?_⟩
    · simp [events, there, ready, made]
    · simp [next, there, ready, made]

theorem Doomed.next_of_step {k : Nat} {post : Post σ} (doomed : Doomed retry id m post (k + 1)) :
    .shelved id (exhausted m retry) ∈ events retry post (.step id) ∨
      Doomed retry id m (next retry post (.step id)) k := by
  cases doomed with
  | @failed n verdict there last bad box =>
    have ready : courierReady post.now post.exchange id (.awaiting n) = true := by
      have some : (post.box id).answers ≠ [] := by simp [box]
      obtain ⟨reply, among⟩ := List.exists_mem_of_ne_nil _ fun none => some (List.map_eq_nil_iff.2 none)
      obtain ⟨among, own⟩ := List.mem_filter.1 among
      exact List.any_eq_true.2 ⟨reply, among, own⟩
    have stands : Stands retry (.answered n verdict) (some (.awaiting n)) := .answered
    have boxed : post.box id = (Stage.answered n verdict).box id m := box
    obtain ⟨exchange, later, es, steps, -, made⟩ := steps_next retry there ready
    rw [made]
    cases steps with
    | acked found good =>
      obtain ⟨same, -⟩ := answers_of_find? stands boxed found
      obtain ⟨-, rfl⟩ := Stage.answered.inj same
      exact absurd good bad
    | failed found =>
      obtain ⟨-, empty⟩ := answers_of_find? stands boxed found
      exact .inr (.spent (last ▸ SortedMap.get?_insert_self ..) empty)
    | refused offers | put offers => simp at offers
  | spent there box =>
    obtain ⟨exchange, later, es, steps, -, made⟩ := steps_next retry there rfl
    rw [made]
    cases steps with
    | begun more => exact absurd more (Nat.lt_irrefl _)
    | spent => exact .inr (.shelving (SortedMap.get?_insert_self ..) box)
    | refused offers | put offers => simp at offers
  | shelving there box =>
    obtain ⟨exchange, later, es, steps, left, -⟩ := steps_next retry there rfl
    rw [left]
    cases steps with
    | shelved => exact .inl (List.mem_singleton_self _)
    | refused offers | put offers => simp at offers

theorem Doomed.shelved {k : Nat} {post : Post σ} (doomed : Doomed retry id m post k)
    (moves : List (Move σ)) (enough : k ≤ moves.countP (Move.isStep id)) :
    .shelved id (exhausted m retry) ∈ history retry moves post := by
  induction moves generalizing post k with
  | nil => cases doomed <;> cases enough
  | cons move rest ih =>
    rw [history, List.mem_append]
    cases own : move.isStep id with
    | false =>
      rw [List.countP_cons_of_neg (by simp [own])] at enough
      exact .inr (ih (doomed.next_of_other own) enough)
    | true =>
      obtain rfl : move = .step id := by cases move <;> simp_all [Move.isStep]
      rw [List.countP_cons_of_pos own] at enough
      cases k with
      | zero => cases doomed
      | succ k =>
        rcases doomed.next_of_step with now | doomed
        · exact .inl now
        · exact .inr (ih doomed (Nat.le_of_succ_le_succ enough))

/-! ### The account of the bus -/

/-- A message that is spent is set aside or will be after three steps of its courier at most. -/
theorem Follows.doomed {post : Post σ} {log : List Event} (follows : Follows retry id post log)
    (sent : .sent id m ∈ log) (spent : Spent retry log) :
    .shelved id (exhausted m retry) ∈ log ∨ ∃ k ≤ 3, Doomed retry id m post k := by
  cases follows with
  | unsent _ _ silent => cases silent _ sent
  | sent there course stands box =>
    obtain rfl := course.eq_of_sent sent
    rcases course.stage_of_spent spent with shelved | rfl | ⟨n, verdict, rfl, bad, last⟩
    · exact .inl (course.shelved_mem shelved)
    · right
      cases stands with
      | attempt => exact ⟨2, by omega, .spent there box⟩
      | shelving => exact ⟨1, by omega, .shelving there box⟩
      | resting more | offering more | queued more => exact absurd more (Nat.lt_irrefl _)
    · cases stands
      exact .inr ⟨3, by omega, .failed there last bad box⟩

theorem Follows.accounted {post : Post σ} {log : List Event} (follows : Follows retry id post log)
    (sent : .sent id m ∈ log) : Accounted retry id m log := by
  cases follows with
  | unsent _ _ silent => cases silent _ sent
  | sent there course =>
    obtain rfl := course.eq_of_sent sent
    exact course.accounted

/-- A wait until all is settled comes back only when no message is under way. -/
theorem outstanding_of_settled {setup : Setup σ} {fuel : Nat} {before after : ExchangeRun σ}
    (settled : ExchangeRun.settled setup fuel before = some after) : after.shared.outstanding = 0 := by
  have stopped := Schedule.stop_of_runUntil settled
  simpa using stopped

section Samples

open Fixtures

def twice : Retry := ⟨2, .fixed (Duration.seconds 1)⟩

/-- What is sent in the sample, again and again. -/
def parcel : Message := companyCreated "c-1" "Acme" .zero

/-- The delivery of this number by this courier. -/
def delivery (id n : Nat) : Delivery := ⟨parcel, n, some id⟩

/-- A consumer that handles nothing. -/
def nobody : Consumer Store := { registry := Registry.ofList [], backend := Store.backend }

end Samples

end Post

end Replica
