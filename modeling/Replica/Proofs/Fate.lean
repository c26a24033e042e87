import Replica.Proofs.Accounting
import Replica.Proofs.Course
import Replica.Proofs.Unfolding
/-! What becomes of a message between the bus and the store. Both its courier and its dispatches may set it
aside or have it tried again, and neither knows of the other more than a verdict. At every moment a message
is at one place only, and what happened to it so far is what leads there. -/
namespace Replica

/-- Why an acknowledged message is set aside, if it is. -/
def Outcome.reason? : Outcome → Option LetterReason
  | escalated _ => some .dependencyTimeout
  | deadLettered reason => some reason
  | _ => none

/-- The letters that a dispatch leaves behind: one if its outcome says so, and none otherwise. -/
def Leaves (m : Message) (letters : List DeadLetter) : DispatchResult → Prop
  | .error _ => letters = []
  | .ok outcome =>
    match outcome.reason? with
    | none => letters = []
    | some reason => ∃ letter, letters = [letter] ∧ letter.message = m ∧ letter.reason = reason

namespace Dispatch

/-- The letters left so far are those that the phase has behind it. -/
def Phase.Owes (m : Message) (letters : List DeadLetter) : Phase → Prop
  | .writing _ outcome => outcome.reason? = none ∧ letters = []
  | .closing (.plain outcome) => outcome.reason? = none ∧ letters = []
  | .shelving letter result => letters = [] ∧ Leaves m [letter] result
  | .done result => Leaves m letters result
  | _ => letters = []

theorem owes_receive (registry : Registry) (budget : WaitBudget) (now : Instant) (m : Message) :
    (receive registry budget now m).Owes m [] := by
  rcases receive_cases registry budget now m with ⟨made, -⟩ |
    ⟨schema, -, ⟨reasons, made⟩ | made | ⟨-, made | ⟨w, made, -⟩⟩⟩ <;> rw [made]
  · exact ⟨rfl, rfl⟩
  all_goals rfl

theorem owes_onProbe (m : Message) (backoff : Backoff) (now : Instant) (w : DependencyWait)
    (answer : Except SyncError Bool) : (onProbe backoff now w answer).Owes m [] := by
  rcases onProbe_cases backoff now w answer with ⟨error, made⟩ | made | ⟨next, made, -⟩ |
    ⟨missing, waited, made⟩ | ⟨until_, next, made, -⟩ <;> rw [made] <;> rfl

theorem owes_onLoad (schema : Schema) (m : Message) (answer : Except SyncError (Option Record)) :
    (onLoad schema m answer).Owes m [] := by
  cases answer with
  | error error => rfl
  | ok current =>
    cases resolved : Resolution.resolve m current schema with
    | error error => simp [onLoad, resolved, Phase.Owes]
    | ok resolution => cases resolution <;> simp [onLoad, resolved, Phase.Owes, Outcome.reason?]

theorem owes_onWrite (m : Message) {outcome : Outcome} (plain : outcome.reason? = none)
    (answer : Except SyncError Upsert) : (onWrite outcome answer).Owes m [] := by
  rcases onWrite_cases outcome answer with ⟨error, -, made⟩ | ⟨upsert, -, -, made⟩ |
    ⟨upsert, -, -, made⟩ <;> rw [made]
  · rfl
  · exact ⟨rfl, rfl⟩
  · exact ⟨plain, rfl⟩

/-- What an ending sets aside is what its result stands for. -/
theorem leaves_ending {m : Message} {ending : Ending} (owes : (Phase.closing ending).Owes m []) :
    Leaves m (ending.letter? m).toList (ending.result m) := by
  cases ending with
  | plain outcome => simp [Leaves, Ending.letter?, Ending.result, owes.1]
  | timedOut missing waited =>
    cases forced : m.isForceSync <;>
      simp [Leaves, Ending.letter?, Ending.result, forced, Outcome.reason?]
  | failed error =>
    cases again : error.isRetryable <;>
      simp [Leaves, Ending.letter?, Ending.result, again, Outcome.reason?]

/-- A step of a dispatch sets aside what it owes. -/
theorem owes_step {σ : Type} {c : Consumer σ} (keeps : c.keepsLetters = true) (now : Instant) (desk : Desk σ)
    {d : Dispatch} {letters : List DeadLetter} (owes : d.phase.Owes d.message letters) :
    ∃ new, (d.step c now desk).1.letters = desk.letters ++ new ∧
      (d.step c now desk).2.phase.Owes d.message (letters ++ new) := by
  unfold step
  cases phase : d.phase <;> rw [phase] at owes
  case arrived =>
    obtain rfl : letters = [] := owes
    exact ⟨[], by simp, owes_receive ..⟩
  case probing w =>
    obtain rfl : letters = [] := owes
    exact ⟨[], by simp, owes_onProbe ..⟩
  case pausing until_ w =>
    obtain rfl : letters = [] := owes
    exact ⟨[], by simp, rfl⟩
  case loading schema =>
    obtain rfl : letters = [] := owes
    exact ⟨[], by simp, owes_onLoad ..⟩
  case writing record outcome =>
    obtain ⟨plain, rfl⟩ := owes
    exact ⟨[], by simp, owes_onWrite _ plain _⟩
  case closing ending =>
    have none : letters = [] := by
      cases ending with
      | plain outcome => exact owes.2
      | _ => exact owes
    subst none
    have leaves := leaves_ending owes
    refine ⟨[], by simp, ?_⟩
    cases letter : ending.letter? d.message with
    | none => simpa [letter, Phase.Owes] using leaves
    | some letter => simpa [letter, Phase.Owes] using leaves
  case shelving letter result =>
    obtain ⟨rfl, leaves⟩ := owes
    exact ⟨[letter], by simp [keeps, Desk.shelve], leaves⟩
  case done result => exact ⟨[], by simp, by simpa [phase] using owes⟩
  case beyondClock => exact ⟨[], by simp, by simpa [phase] using owes⟩

end Dispatch

/-- What happened to the message of a courier, kind by kind and each in order. -/
@[ext]
structure Account where
  sent : List Message := []
  deliveries : List Delivery := []
  /-- The dispatches that ended, and what they gave. -/
  results : List (Message × DispatchResult) := []
  verdicts : List Verdict := []
  letters : List DeadLetter := []

namespace Account

instance : Append Account where
  append a b :=
    ⟨a.sent ++ b.sent, a.deliveries ++ b.deliveries, a.results ++ b.results, a.verdicts ++ b.verdicts,
      a.letters ++ b.letters⟩

theorem append_def (a b : Account) :
    a ++ b = ⟨a.sent ++ b.sent, a.deliveries ++ b.deliveries, a.results ++ b.results,
      a.verdicts ++ b.verdicts, a.letters ++ b.letters⟩ := rfl

@[simp]
theorem append_empty (a : Account) : a ++ {} = a := by
  simp [append_def]

def ofIncident (id : Nat) : Incident → Account
  | .sent n m => if n = id then { sent := [m] } else {}
  | .delivered d => if d.replyTo = some id then { deliveries := [d] } else {}
  | .dispatched owner m result => if owner = some id then { results := [(m, result)] } else {}
  | .answered n verdict => if n = id then { verdicts := [verdict] } else {}
  | .shelved owner letter => if owner = some id then { letters := [letter] } else {}

/-- The account of a courier in a log. -/
def of (id : Nat) : List Incident → Account
  | [] => {}
  | e :: log => ofIncident id e ++ of id log

@[simp]
theorem of_nil (id : Nat) : of id [] = {} := rfl

@[simp]
theorem of_append (id : Nat) (first second : List Incident) :
    of id (first ++ second) = of id first ++ of id second := by
  induction first with
  | nil => simp [append_def]
  | cons e rest ih => simp [of, ih, append_def]

theorem of_shelved (id : Nat) (letters : List DeadLetter) :
    of id (letters.map (.shelved (some id))) = { letters } := by
  induction letters with
  | nil => rfl
  | cons letter rest ih => simp [of, ih, append_def, ofIncident]

theorem of_shelved_of_ne {id : Nat} {owner : Option Nat} (other : owner ≠ some id)
    (letters : List DeadLetter) : of id (letters.map (.shelved owner)) = {} := by
  induction letters with
  | nil => rfl
  | cons letter rest ih => simp [of, ih, append_def, ofIncident, other]

/-- The account of a message of which this many deliveries were made, and whose dispatches ended so. -/
def story (id : Nat) (m : Message) (made : Nat) (results : List DispatchResult)
    (letters : List DeadLetter) : Account :=
  { sent := [m]
    deliveries := (List.range made).map (⟨m, ·, some id⟩)
    results := results.map (m, ·)
    verdicts := results.map .ofResult
    letters }

theorem story_letters (id : Nat) (m : Message) (made : Nat) (results : List DispatchResult)
    (letters new : List DeadLetter) :
    story id m made results letters ++ { letters := new } = story id m made results (letters ++ new) := by
  simp [story, append_def]

/-- What an account holds is what the log says, if it holds what each incident says. -/
theorem mem_of_iff {α : Type} (part : Account → List α) (append : ∀ a b, part (a ++ b) = part a ++ part b)
    (empty : part {} = []) {id : Nat} {x : α} {told : Incident}
    (one : ∀ e, x ∈ part (.ofIncident id e) ↔ e = told) {log : List Incident} :
    x ∈ part (.of id log) ↔ told ∈ log := by
  induction log with
  | nil => simp [empty]
  | cons e rest ih => simp [of, append, one, ih, eq_comm]

theorem mem_sent_iff {id : Nat} {m : Message} {log : List Incident} :
    m ∈ (of id log).sent ↔ .sent id m ∈ log := by
  refine mem_of_iff Account.sent (fun _ _ => rfl) rfl fun e => ?_
  cases e <;> simp only [ofIncident] <;> split <;> simp_all [eq_comm]

theorem mem_results_iff {id : Nat} {m : Message} {result : DispatchResult} {log : List Incident} :
    (m, result) ∈ (of id log).results ↔ .dispatched (some id) m result ∈ log := by
  refine mem_of_iff Account.results (fun _ _ => rfl) rfl fun e => ?_
  cases e <;> simp only [ofIncident] <;> split <;> simp_all [eq_comm]

theorem mem_letters_iff {id : Nat} {letter : DeadLetter} {log : List Incident} :
    letter ∈ (of id log).letters ↔ .shelved (some id) letter ∈ log := by
  refine mem_of_iff Account.letters (fun _ _ => rfl) rfl fun e => ?_
  cases e <;> simp only [ofIncident] <;> split <;> simp_all [eq_comm]

end Account

/-- How a message ends: its last dispatch is acknowledged after all others failed, or as many fail as
there may be. -/
inductive Fate (retry : Retry) (id : Nat) (m : Message) : Account → Prop
  | acknowledged {errors : List SyncError} {outcome : Outcome} {letters : List DeadLetter}
    (limited : errors.length < retry.maxAttempts) (leaves : Leaves m letters (.ok outcome)) :
    Fate retry id m
      (.story id m (errors.length + 1) (errors.map .error ++ [.ok outcome]) letters)
  | exhausted {errors : List SyncError} (all : errors.length = retry.maxAttempts) :
    Fate retry id m
      (.story id m errors.length (errors.map .error) [Exchange.exhausted m retry])

theorem Fate.sent_eq {retry : Retry} {id : Nat} {m : Message} {account : Account}
    (fate : Fate retry id m account) : account.sent = [m] := by
  cases fate <;> rfl

/-- The courier is between two deliveries, of which it has made this many. -/
def Courier.Phase.Between (retry : Retry) (n : Nat) : Courier.Phase → Prop
  | .attempt k => k = n
  | .resting _ k | .offering k | .queued k => k = n ∧ n < retry.maxAttempts
  | .shelving => ¬ n < retry.maxAttempts
  | _ => False

/-- A worker on its way to the verdict on a message has left these letters so far. -/
def Worker.Owes (m : Message) (letters : List DeadLetter) (w : Worker) : Prop :=
  w.label = none ∧ w.dispatch.message = m ∧
    match w.phase with
    | .dispatching => w.dispatch.phase.Owes m letters
    | .settling result => Leaves m letters result
    | .releasing => False

theorem Worker.Owes.dispatched {σ : Type} {c : Consumer σ} (keeps : c.keepsLetters = true) {m : Message}
    {letters : List DeadLetter} {w later : Worker} (owes : w.Owes m letters) (going : w.phase = .dispatching)
    (now : Instant) (desk : Desk σ) (label : later.label = w.label)
    (dispatch : later.dispatch = (w.dispatch.step c now desk).2)
    (phase : later.phase = .dispatching ∨
      ∃ result, later.dispatch.phase = .done result ∧ later.phase = .settling result) :
    ∃ new, (w.dispatch.step c now desk).1.letters = desk.letters ++ new ∧ later.Owes m (letters ++ new) := by
  obtain ⟨unlabelled, same, owes⟩ := owes
  rw [going] at owes
  subst same
  obtain ⟨new, left, owes⟩ := Dispatch.owes_step keeps now desk owes
  rw [← dispatch] at owes
  refine ⟨new, left, label.trans unlabelled, by simp [dispatch], ?_⟩
  rcases phase with still | ⟨result, done, settling⟩
  · rwa [still]
  · rw [settling]
    rwa [done] at owes

namespace Exchange

/-- Who has a delivery that was taken from the line. -/
inductive Holder where
  | receiver (d : Delivery)
  | worker (w : Worker)

def courier? (id : Nat) : Nat × Job → Option (Message × Courier.Phase)
  | (n, .courier m phase) => if n = id then some (m, phase) else none
  | _ => none

def holder? (id : Nat) : Nat × Job → Option Holder
  | (_, .receiver (.holding d)) => if d.replyTo = some id then some (.receiver d) else none
  | (_, .worker w) =>
    match w.phase with
    | .releasing => none
    | _ => if w.replyTo = some id then some (.worker w) else none
  | _ => none

/-- Where a courier, its deliveries and its verdicts are. -/
structure Places where
  couriers : List (Message × Courier.Phase) := []
  queue : List Delivery := []
  holders : List Holder := []
  replies : List Verdict := []

variable {σ : Type}

structure Standing (x : Exchange σ) (tasks : List (Nat × Job)) (id : Nat) (places : Places) : Prop where
  couriers : (tasks.filterMap (courier? id)).Perm places.couriers
  queue : x.line.queue.filter (·.replyTo == some id) = places.queue
  holders : (tasks.filterMap (holder? id)).Perm places.holders
  replies : (x.replies.filter (·.recipient == id)).map (·.verdict) = places.replies

/-- Where a message is, and what happened to it before. -/
inductive Journey (retry : Retry) (id : Nat) : Places → Account → Prop
  | unsent : Journey retry id {} {}
  | between {m : Message} {errors : List SyncError} {phase : Courier.Phase}
    (between : phase.Between retry errors.length) (limited : errors.length ≤ retry.maxAttempts) :
    Journey retry id { couriers := [(m, phase)] } (.story id m errors.length (errors.map .error) [])
  | onLine {m : Message} {errors : List SyncError} (limited : errors.length < retry.maxAttempts) :
    Journey retry id
      { couriers := [(m, .awaiting errors.length)], queue := [⟨m, errors.length, some id⟩] }
      (.story id m (errors.length + 1) (errors.map .error) [])
  | taken {m : Message} {errors : List SyncError} (limited : errors.length < retry.maxAttempts) :
    Journey retry id
      { couriers := [(m, .awaiting errors.length)], holders := [.receiver ⟨m, errors.length, some id⟩] }
      (.story id m (errors.length + 1) (errors.map .error) [])
  | dispatching {m : Message} {errors : List SyncError} {w : Worker} {letters : List DeadLetter}
    (limited : errors.length < retry.maxAttempts) (owes : w.Owes m letters) :
    Journey retry id { couriers := [(m, .awaiting errors.length)], holders := [.worker w] }
      (.story id m (errors.length + 1) (errors.map .error) letters)
  | answered {m : Message} {errors : List SyncError} {result : DispatchResult} {letters : List DeadLetter}
    (limited : errors.length < retry.maxAttempts) (leaves : Leaves m letters result) :
    Journey retry id { couriers := [(m, .awaiting errors.length)], replies := [.ofResult result] }
      (.story id m (errors.length + 1) (errors.map .error ++ [result]) letters)
  | leaving {m : Message} {account : Account} (fate : Fate retry id m account) :
    Journey retry id { couriers := [(m, .leaving)] } account
  | gone {m : Message} {account : Account} (fate : Fate retry id m account) : Journey retry id {} account

section Courier

variable {retry : Retry} {x after : Exchange σ} {id n : Nat} {m : Message} {phase : Courier.Phase}
  {next : Option Courier.Phase} {es : List Post.Event} {places : Places} {account : Account}

/-- A message has at most one courier. -/
theorem Journey.alone (journey : Journey retry id places account)
    {courier : Message × Courier.Phase} {rest : List (Message × Courier.Phase)}
    (couriers : (courier :: rest).Perm places.couriers) : places.couriers = [courier] ∧ rest = [] := by
  cases journey <;> simp_all

/-- Unless a courier waits for a verdict or is about to finish, it is between two deliveries. -/
theorem Journey.between_of_courier (journey : Journey retry id places account)
    (alone : places.couriers = [(m, phase)]) (home : ∀ k, phase ≠ .awaiting k) (stays : phase ≠ .leaving) :
    places = { couriers := [(m, phase)] } ∧ ∃ errors : List SyncError,
      phase.Between retry errors.length ∧ errors.length ≤ retry.maxAttempts ∧
      account = .story id m errors.length (errors.map .error) [] := by
  cases journey with
  | unsent => simp at alone
  | gone => simp at alone
  | @between m errors phase between limited =>
    obtain ⟨rfl, rfl⟩ : _ ∧ _ := by simpa using alone
    exact ⟨rfl, errors, between, limited, rfl⟩
  | leaving =>
    obtain ⟨-, rfl⟩ : _ ∧ _ := by simpa using alone
    exact absurd rfl stays
  | _ =>
    obtain ⟨-, rfl⟩ : _ ∧ _ := by simpa using alone
    exact absurd rfl (home _)

theorem filter_eraseP_of_find? {replies : List Reply} {reply : Reply} {verdict : Verdict}
    (found : replies.find? (·.recipient == id) = some reply)
    (only : (replies.filter (·.recipient == id)).map (·.verdict) = [verdict]) :
    reply.verdict = verdict ∧ (replies.eraseP (·.recipient == id)).filter (·.recipient == id) = [] := by
  have first : (replies.filter (·.recipient == id)).head? = some reply := by
    rw [List.head?_filter, found]
  have own : reply.recipient = id := by simpa using List.find?_some found
  have erased := List.eraseP_filter (p := (·.recipient == id)) (f := (·.recipient == id)) (l := replies)
  obtain ⟨single, filtered, same⟩ := List.map_eq_singleton_iff.1 only
  rw [filtered] at first erased
  obtain rfl := Option.some.inj first
  refine ⟨same, ?_⟩
  simpa [own] using erased.symm

/-- A courier with a verdict is waiting for it, and it is the only one. -/
theorem Journey.answered_of_find? (journey : Journey retry id places account) {k : Nat} {reply : Reply}
    (alone : places.couriers = [(m, .awaiting k)])
    (replies : (x.replies.filter (·.recipient == id)).map (·.verdict) = places.replies)
    (found : x.replies.find? (·.recipient == id) = some reply) :
    ∃ errors : List SyncError, ∃ result letters, k = errors.length ∧
      places = { couriers := [(m, .awaiting errors.length)], replies := [.ofResult result] } ∧
      errors.length < retry.maxAttempts ∧ Leaves m letters result ∧
      account = .story id m (errors.length + 1) (errors.map .error ++ [result]) letters ∧
      reply.verdict = .ofResult result ∧
      (x.replies.eraseP (·.recipient == id)).filter (·.recipient == id) = [] := by
  have told : places.replies ≠ [] := by
    rw [← replies]
    simpa using ⟨reply, List.mem_of_find?_eq_some found, by simpa using List.find?_some found⟩
  cases journey with
  | answered limited leaves =>
    obtain ⟨rfl, rfl⟩ : _ ∧ _ := by simpa using alone
    obtain ⟨same, empty⟩ := filter_eraseP_of_find? found replies
    exact ⟨_, _, _, rfl, rfl, limited, leaves, rfl, same, empty⟩
  | _ => exact absurd rfl told

theorem Journey.steps (journey : Journey retry id places account) (open_ : x.line.closed = false)
    (alone : places.couriers = [(m, phase)])
    (queue : x.line.queue.filter (·.replyTo == some id) = places.queue)
    (replies : (x.replies.filter (·.recipient == id)).map (·.verdict) = places.replies)
    (steps : Post.Steps retry x id m phase after next es) :
    ∃ later : Places, Journey retry id later (account ++ .of id (es.filterMap (incident? id))) ∧
      later.couriers = (next.map (m, ·)).toList ∧ later.holders = places.holders ∧
      after.line.queue.filter (·.replyTo == some id) = later.queue ∧
      (after.replies.filter (·.recipient == id)).map (·.verdict) = later.replies := by
  cases steps with
  | @begun k phase more goesOn =>
    obtain ⟨rfl, errors, rfl, limited, rfl⟩ :=
      journey.between_of_courier alone (by simp) (by simp)
    simp only [List.filterMap_nil, Account.of_nil, Account.append_empty]
    refine ⟨{ couriers := [(_, phase)] }, .between ?_ limited, rfl, rfl, queue, replies⟩
    rcases goesOn with rfl | ⟨until_, rfl⟩ <;> exact ⟨rfl, more⟩
  | @spent k none =>
    obtain ⟨rfl, errors, rfl, limited, rfl⟩ :=
      journey.between_of_courier alone (by simp) (by simp)
    simp only [List.filterMap_nil, Account.of_nil, Account.append_empty]
    exact ⟨{ couriers := [(_, .shelving)] }, .between none limited, rfl, rfl, queue, replies⟩
  | @rested until_ k =>
    obtain ⟨rfl, errors, ⟨rfl, more⟩, limited, rfl⟩ :=
      journey.between_of_courier alone (by simp) (by simp)
    simp only [List.filterMap_nil, Account.of_nil, Account.append_empty]
    exact ⟨{ couriers := [(_, .offering _)] }, .between ⟨rfl, more⟩ limited, rfl, rfl, queue, replies⟩
  | refused offers gone => simp [open_] at gone
  | @enlisted k =>
    obtain ⟨rfl, errors, ⟨rfl, more⟩, limited, rfl⟩ :=
      journey.between_of_courier alone (by simp) (by simp)
    simp only [List.filterMap_nil, Account.of_nil, Account.append_empty]
    exact ⟨{ couriers := [(_, .queued _)] }, .between ⟨rfl, more⟩ limited, rfl, rfl, queue, replies⟩
  | @put phase k line offers receiving still queued =>
    obtain ⟨rfl, errors, between, -, rfl⟩ := journey.between_of_courier alone
      (by rcases offers with rfl | rfl <;> simp) (by rcases offers with rfl | rfl <;> simp)
    obtain ⟨rfl, more⟩ : k = errors.length ∧ errors.length < retry.maxAttempts := by
      rcases offers with rfl | rfl <;> exact between
    refine ⟨{ couriers := [(m, .awaiting errors.length)], queue := [⟨m, errors.length, some id⟩] },
      ?_, rfl, rfl, ?_, replies⟩
    · have told : Account.story id m errors.length (errors.map .error) [] ++
          .of id ([Post.Event.queued ⟨m, errors.length, some id⟩].filterMap (incident? id)) =
          .story id m (errors.length + 1) (errors.map .error) [] := by
        simp [incident?, Account.of, Account.ofIncident, Account.story, Account.append_def, List.range_succ]
      rw [told]
      exact .onLine more
    · simp [queued, queue]
  | @acked k reply found good =>
    obtain ⟨errors, result, letters, rfl, rfl, limited, leaves, rfl, same, empty⟩ :=
      journey.answered_of_find? alone replies found
    cases result with
    | error error => simp [same, Verdict.ofResult] at good
    | ok outcome =>
      simp only [List.filterMap_nil, Account.of_nil, Account.append_empty]
      exact ⟨_, .leaving (.acknowledged limited leaves), rfl, rfl, queue, by simp [empty]⟩
  | @failed k reply found bad =>
    obtain ⟨errors, result, letters, rfl, rfl, limited, leaves, rfl, same, empty⟩ :=
      journey.answered_of_find? alone replies found
    cases result with
    | ok outcome => simp [same, Verdict.ofResult] at bad
    | error error =>
      obtain rfl : letters = [] := leaves
      simp only [List.filterMap_nil, Account.of_nil, Account.append_empty]
      have journey : Journey retry id { couriers := [(m, .attempt (errors.length + 1))] }
          (.story id m (errors ++ [error]).length ((errors ++ [error]).map .error) []) :=
        .between (by simp [Courier.Phase.Between]) (by simpa using Nat.succ_le_of_lt limited)
      rw [List.length_append, List.map_append] at journey
      exact ⟨_, journey, rfl, rfl, queue, by simp [empty]⟩
  | shelved =>
    obtain ⟨rfl, errors, none, limited, rfl⟩ := journey.between_of_courier alone (by simp) (by simp)
    have all : errors.length = retry.maxAttempts := Nat.le_antisymm limited (Nat.not_lt.1 none)
    have told : Account.story id m errors.length (errors.map .error) [] ++
        .of id ([Post.Event.shelved id (exhausted m retry)].filterMap (incident? id)) =
        .story id m errors.length (errors.map .error) [exhausted m retry] := by
      simp [incident?, Account.of, Account.ofIncident, Account.story, Account.append_def]
    rw [told]
    exact ⟨_, .leaving (.exhausted all), rfl, rfl, queue, replies⟩
  | left =>
    cases journey with
    | leaving fate =>
      simp only [incident?, List.filterMap_cons, List.filterMap_nil, Account.of_nil, Account.append_empty]
      exact ⟨_, .gone fate, rfl, rfl, queue, replies⟩
    | between between =>
      obtain ⟨-, rfl⟩ : _ ∧ _ := by simpa using alone
      cases between
    | _ => simp at alone

end Courier

/-- Every task works for a courier, or for none because it never does. -/
def Attached : Job → Prop
  | .receiver (.holding d) => d.replyTo ≠ none
  | .worker w => w.label = none ∧ w.replyTo ≠ none
  | _ => True

section Acts

variable {setup : Setup σ} {now : Instant} {x after : Exchange σ} {id n : Nat} {job : Job} {next : Option Job}
  {spawned : List Job} {es : List Incident} {places : Places} {account : Account}
  {before left : List (Nat × Job)}

theorem Standing.keep (standing : Standing x before id places)
    (couriers : (left.filterMap (courier? id)).Perm (before.filterMap (courier? id)))
    (holders : (left.filterMap (holder? id)).Perm (before.filterMap (holder? id)))
    (queue : after.line.queue.filter (·.replyTo == some id) = x.line.queue.filter (·.replyTo == some id))
    (replies : (after.replies.filter (·.recipient == id)).map (·.verdict) =
      (x.replies.filter (·.recipient == id)).map (·.verdict)) :
    Standing after left id places where
  couriers := couriers.trans standing.couriers
  queue := queue.trans standing.queue
  holders := holders.trans standing.holders
  replies := replies.trans standing.replies

/-- A message has at most one holder of a delivery. -/
theorem Journey.held_alone (journey : Journey setup.retry id places account) {holder : Holder}
    {rest : List Holder} (holders : (holder :: rest).Perm places.holders) :
    places.holders = [holder] ∧ rest = [] := by
  cases journey <;> simp_all

theorem Journey.onLine_of_queue (journey : Journey setup.retry id places account) {d : Delivery}
    {rest : List Delivery} (queue : d :: rest = places.queue) :
    rest = [] ∧ ∃ errors : List SyncError, errors.length < setup.retry.maxAttempts ∧
      d = ⟨d.message, errors.length, some id⟩ ∧
      places = { couriers := [(d.message, .awaiting errors.length)], queue := [d] } ∧
      account = .story id d.message (errors.length + 1) (errors.map .error) [] := by
  cases journey with
  | @onLine m errors limited =>
    obtain ⟨rfl, rfl⟩ := List.cons.inj queue
    exact ⟨rfl, errors, limited, rfl, rfl, rfl⟩
  | _ => cases queue

theorem Journey.taken_of_holders (journey : Journey setup.retry id places account) {d : Delivery}
    (holders : places.holders = [.receiver d]) :
    ∃ errors : List SyncError, errors.length < setup.retry.maxAttempts ∧
      places = { couriers := [(d.message, .awaiting errors.length)], holders := [.receiver d] } ∧
      account = .story id d.message (errors.length + 1) (errors.map .error) [] := by
  cases journey with
  | @taken m errors limited =>
    obtain rfl := Holder.receiver.inj (List.cons.inj holders).1
    exact ⟨errors, limited, rfl, rfl⟩
  | _ => simp at holders

theorem Journey.dispatching_of_holders (journey : Journey setup.retry id places account) {w : Worker}
    (holders : places.holders = [.worker w]) :
    ∃ errors : List SyncError, ∃ letters, errors.length < setup.retry.maxAttempts ∧
      w.Owes w.dispatch.message letters ∧
      places = { couriers := [(w.dispatch.message, .awaiting errors.length)], holders := [.worker w] } ∧
      account = .story id w.dispatch.message (errors.length + 1) (errors.map .error) letters := by
  cases journey with
  | @dispatching m errors _ letters limited owes =>
    obtain rfl := Holder.worker.inj (List.cons.inj holders).1
    obtain rfl := owes.2.1
    exact ⟨errors, letters, limited, owes, rfl, rfl⟩
  | _ => simp at holders

theorem holder?_worker {w : Worker} (own : w.replyTo = some id) (still : w.phase ≠ .releasing) :
    holder? id (n, .worker w) = some (.worker w) := by
  unfold holder?
  cases phase : w.phase <;> simp_all

theorem holder?_worker_of_ne {w : Worker} (other : w.replyTo ≠ some id) :
    holder? id (n, .worker w) = none := by
  unfold holder?
  cases phase : w.phase <;> simp_all

theorem of_incidents_of_ne {m : Message} {phase : Courier.Phase} {courier : Option Courier.Phase}
    {events : List Post.Event} (steps : Post.Steps setup.retry x n m phase after courier events)
    (other : id ≠ n) : Account.of id (events.filterMap (incident? n)) = {} := by
  cases steps <;> simp [incident?, List.filterMap_cons, Account.of, Account.ofIncident, Ne.symm other]

/-- The courier, its deliveries and its verdicts are somewhere, and fit what happened so far. -/
def Whereabouts (retry : Retry) (x : Exchange σ) (tasks : List (Nat × Job)) (id : Nat) (account : Account) : Prop :=
  ∃ places, Standing x tasks id places ∧ Journey retry id places account

theorem Whereabouts.perm {retry : Retry} {tasks tasks' : List (Nat × Job)}
    (there : Whereabouts retry x tasks id account) (same : tasks'.Perm tasks) :
    Whereabouts retry x tasks' id account := by
  obtain ⟨places, standing, journey⟩ := there
  exact ⟨places, standing.keep (same.filterMap _) (same.filterMap _) rfl rfl, journey⟩

/-- The task does not work for the message. -/
def Apart (id : Nat) (task : Nat × Job) : Prop := courier? id task = none ∧ holder? id task = none

theorem filterMap_of_apart {others : List (Nat × Job)} (apart : ∀ task ∈ others, Apart id task) :
    others.filterMap (courier? id) = [] ∧ others.filterMap (holder? id) = [] :=
  ⟨List.filterMap_eq_nil_iff.2 fun task there => (apart task there).1,
    List.filterMap_eq_nil_iff.2 fun task there => (apart task there).2⟩

variable {rest : List (Nat × Job)}

/-- What is not done for the message leaves it where it is. -/
theorem Standing.elsewhere (standing : Standing x ((n, job) :: rest) id places) {others : List (Nat × Job)}
    (apart : Apart id (n, job)) (others_apart : ∀ task ∈ others, Apart id task)
    (queue : after.line.queue.filter (·.replyTo == some id) = x.line.queue.filter (·.replyTo == some id))
    (replies : (after.replies.filter (·.recipient == id)).map (·.verdict) =
      (x.replies.filter (·.recipient == id)).map (·.verdict)) :
    Standing after (others ++ rest) id places := by
  obtain ⟨nobody, nothing⟩ := filterMap_of_apart others_apart
  refine standing.keep ?_ ?_ queue replies
  · rw [List.filterMap_append, nobody, List.filterMap_cons_none apart.1, List.nil_append]
  · rw [List.filterMap_append, nothing, List.filterMap_cons_none apart.2, List.nil_append]

section Task

variable (journey : Journey setup.retry id places account)

include journey

theorem Journey.acts_courier {m : Message} {phase : Courier.Phase} {courier : Option Courier.Phase}
    {events : List Post.Event} (open_ : x.line.closed = false)
    (standing : Standing x ((n, .courier m phase) :: rest) id places)
    (steps : Post.Steps setup.retry x n m phase after courier events) :
    Whereabouts setup.retry after ((courier.map (.courier m)).toList.map (n, ·) ++ rest) id
      (account ++ .of id (events.filterMap (incident? n))) := by
  by_cases own : id = n
  · subst own
    have couriers := standing.couriers
    simp only [List.filterMap_cons, courier?, if_true] at couriers
    obtain ⟨alone, nobody⟩ := journey.alone couriers
    obtain ⟨later, journey, still, holders, queue, replies⟩ :=
      journey.steps open_ alone standing.queue standing.replies steps
    refine ⟨later, ⟨?_, queue, ?_, replies⟩, journey⟩
    · rw [still]
      cases courier <;> simp [courier?, nobody]
    · rw [holders]
      have same := standing.holders
      cases courier <;> simpa [List.filterMap_cons, holder?] using same
  · obtain ⟨same, -⟩ := steps.other own []
    rw [of_incidents_of_ne steps own, Account.append_empty]
    refine ⟨places, standing.elsewhere ⟨if_neg (Ne.symm own), rfl⟩ ?_ ?_ ?_, journey⟩
    · cases courier <;> simp [Apart, courier?, holder?, Ne.symm own]
    · exact congrArg Post.Box.onLine same
    · exact congrArg Post.Box.answers same

theorem Journey.acts_took {d : Delivery} {line : Line} (popped : x.line.pop? = some (d, line))
    (standing : Standing x ((n, .receiver .receiving) :: rest) id places) :
    Whereabouts setup.retry { x with line } ((n, .receiver (.holding d)) :: rest) id account := by
  obtain ⟨queue, -⟩ := Post.queue_of_pop? popped
  by_cases own : d.replyTo = some id
  · have first := standing.queue
    simp only [queue, List.filter_cons, own, beq_self_eq_true, if_true] at first
    obtain ⟨empty, errors, limited, same, rfl, rfl⟩ := journey.onLine_of_queue first
    have later : Journey setup.retry id
        { couriers := [(d.message, .awaiting errors.length)]
          holders := [.receiver ⟨d.message, errors.length, some id⟩] }
        (.story id d.message (errors.length + 1) (errors.map .error) []) := .taken limited
    rw [← same] at later
    refine ⟨_, ?_, later⟩
    refine ⟨?_, empty, ?_, standing.replies⟩
    · simpa [courier?, List.filterMap_cons] using standing.couriers
    · simpa [holder?, List.filterMap_cons, own] using standing.holders
  · have apart : ∀ task ∈ [(n, Job.receiver (.holding d))], Apart id task := by
      simp [Apart, courier?, holder?, own]
    exact ⟨places, standing.elsewhere ⟨rfl, rfl⟩ apart (by simp [queue, own]) rfl, journey⟩

theorem Journey.acts_handed {d : Delivery} {first permits : Nat}
    (standing : Standing x ((n, .receiver (.holding d)) :: rest) id places) :
    Whereabouts setup.retry { x with permits }
      ([(n, .receiver .receiving), (first, .worker { dispatch := { message := d.message }, replyTo := d.replyTo })] ++
        rest) id account := by
  by_cases own : d.replyTo = some id
  · have holders := standing.holders
    simp only [List.filterMap_cons, holder?, own, if_true] at holders
    obtain ⟨alone, nobody⟩ := journey.held_alone holders
    obtain ⟨errors, limited, rfl, rfl⟩ := journey.taken_of_holders alone
    let w : Worker := { dispatch := { message := d.message }, replyTo := d.replyTo }
    have later : Journey setup.retry id
        { couriers := [(d.message, .awaiting errors.length)], holders := [.worker w] }
        (.story id d.message (errors.length + 1) (errors.map .error) []) := .dispatching limited ⟨rfl, rfl, rfl⟩
    refine ⟨_, ?_, later⟩
    refine ⟨?_, standing.queue, ?_, standing.replies⟩
    · simpa [courier?, List.filterMap_cons] using standing.couriers
    · simp [w, holder?, List.filterMap_cons, own, nobody]
  · refine ⟨places, standing.elsewhere ?_ ?_ rfl rfl, journey⟩
    · simp [Apart, courier?, holder?, own]
    · simp [Apart, courier?, holder?, own]

/-- The worker who has the delivery of the message, if it is one of these. -/
theorem Journey.dispatching_of_worker {w : Worker} (own : w.replyTo = some id) (still : w.phase ≠ .releasing)
    (standing : Standing x ((n, .worker w) :: rest) id places) :
    rest.filterMap (holder? id) = [] ∧ ∃ errors : List SyncError, ∃ letters,
      errors.length < setup.retry.maxAttempts ∧ w.Owes w.dispatch.message letters ∧
      places = { couriers := [(w.dispatch.message, .awaiting errors.length)], holders := [.worker w] } ∧
      account = .story id w.dispatch.message (errors.length + 1) (errors.map .error) letters := by
  have holders := standing.holders
  rw [List.filterMap_cons_some (holder?_worker own still)] at holders
  obtain ⟨alone, nobody⟩ := journey.held_alone holders
  exact ⟨nobody, journey.dispatching_of_holders alone⟩

theorem Journey.acts_dispatched (keeps : setup.consumer.keepsLetters = true) {w later : Worker}
    (going : w.phase = .dispatching) (label : later.label = w.label) (replyTo : later.replyTo = w.replyTo)
    (dispatch : later.dispatch = (w.dispatch.step setup.consumer now x.desk).2)
    (phase : later.phase = .dispatching ∨
      ∃ result, later.dispatch.phase = .done result ∧ later.phase = .settling result)
    (standing : Standing x ((n, .worker w) :: rest) id places) :
    Whereabouts setup.retry { x with desk := (w.dispatch.step setup.consumer now x.desk).1 }
      ((n, .worker later) :: rest) id
      (account ++ .of id (((w.dispatch.step setup.consumer now x.desk).1.letters.drop x.desk.letters.length).map
        (.shelved w.replyTo))) := by
  by_cases own : w.replyTo = some id
  · obtain ⟨nobody, errors, letters, limited, owes, rfl, rfl⟩ :=
      journey.dispatching_of_worker own (by simp [going]) standing
    obtain ⟨new, left, owes⟩ := owes.dispatched keeps going now x.desk label dispatch phase
    have still : later.phase ≠ .releasing := by
      rcases phase with phase | ⟨result, -, phase⟩ <;> simp [phase]
    rw [left, List.drop_left, own, Account.of_shelved, Account.story_letters]
    refine ⟨_, ?_, .dispatching limited owes⟩
    refine ⟨?_, standing.queue, ?_, standing.replies⟩
    · simpa [courier?, List.filterMap_cons] using standing.couriers
    · simp [holder?_worker (replyTo.trans own) still, nobody]
  · rw [Account.of_shelved_of_ne own, Account.append_empty]
    have apart : ∀ task ∈ [(n, Job.worker later)], Apart id task := by
      simp [Apart, courier?, holder?_worker_of_ne (replyTo ▸ own)]
    exact ⟨places, standing.elsewhere ⟨rfl, holder?_worker_of_ne own⟩ apart rfl rfl, journey⟩

theorem Journey.acts_found {w : Worker} {result : DispatchResult} (going : w.phase = .dispatching)
    (done : w.dispatch.phase = .done result) (standing : Standing x ((n, .worker w) :: rest) id places) :
    Whereabouts setup.retry x ((n, .worker { w with phase := .settling result }) :: rest) id account := by
  by_cases own : w.replyTo = some id
  · obtain ⟨nobody, errors, letters, limited, ⟨unlabelled, -, owes⟩, rfl, rfl⟩ :=
      journey.dispatching_of_worker own (by simp [going]) standing
    rw [going] at owes
    dsimp only at owes
    rw [done] at owes
    have later : Journey setup.retry id
        { couriers := [(w.dispatch.message, .awaiting errors.length)]
          holders := [.worker { w with phase := .settling result }] }
        (.story id w.dispatch.message (errors.length + 1) (errors.map .error) letters) :=
      .dispatching limited ⟨unlabelled, rfl, owes⟩
    refine ⟨_, ?_, later⟩
    refine ⟨?_, standing.queue, ?_, standing.replies⟩
    · simpa [courier?, List.filterMap_cons] using standing.couriers
    · simp [holder?, own, nobody]
  · have apart : ∀ task ∈ [(n, Job.worker { w with phase := .settling result })], Apart id task := by
      simp [Apart, courier?, holder?, own]
    exact ⟨places, standing.elsewhere ⟨rfl, holder?_worker_of_ne own⟩ apart rfl rfl, journey⟩

theorem Journey.acts_settled {w : Worker} {result : DispatchResult} (phase : w.phase = .settling result)
    (standing : Standing x ((n, .worker w) :: rest) id places) :
    Whereabouts setup.retry (x.reply now w.replyTo (.ofResult result))
      ((n, .worker { w with phase := .releasing }) :: rest) id
      (account ++ .of id (.dispatched w.replyTo w.dispatch.message result ::
        w.replyTo.toList.map (.answered · (.ofResult result)))) := by
  have answers := congrArg Post.Box.answers (Post.boxOf_reply x now w.replyTo (.ofResult result) [] id)
  have line := congrArg Line.queue (Post.line_reply x now w.replyTo (.ofResult result))
  by_cases own : w.replyTo = some id
  · obtain ⟨nobody, errors, letters, limited, ⟨-, -, leaves⟩, rfl, rfl⟩ :=
      journey.dispatching_of_worker own (by simp [phase]) standing
    rw [phase] at leaves
    have told : Account.story id w.dispatch.message (errors.length + 1) (errors.map .error) letters ++
        .of id (.dispatched w.replyTo w.dispatch.message result ::
          w.replyTo.toList.map (.answered · (.ofResult result))) =
        .story id w.dispatch.message (errors.length + 1) (errors.map .error ++ [result]) letters := by
      simp [own, Account.of, Account.ofIncident, Account.story, Account.append_def]
    rw [told]
    refine ⟨_, ?_, .answered limited leaves⟩
    refine ⟨?_, ?_, ?_, ?_⟩
    · simpa [courier?, List.filterMap_cons] using standing.couriers
    · rw [line]
      exact standing.queue
    · simp [List.filterMap_cons, holder?, nobody]
    · simpa [Post.boxOf, own, standing.replies] using answers
  · have silent : Account.of id (.dispatched w.replyTo w.dispatch.message result ::
        w.replyTo.toList.map (.answered · (.ofResult result))) = {} := by
      cases recipient : w.replyTo <;>
        simp_all [Account.of, Account.ofIncident]
    rw [silent, Account.append_empty]
    have apart : ∀ task ∈ [(n, Job.worker { w with phase := .releasing })], Apart id task := by
      simp [Apart, courier?, holder?]
    refine ⟨places, standing.elsewhere ⟨rfl, holder?_worker_of_ne own⟩ apart ?_ ?_, journey⟩
    · rw [line]
    · simpa [Post.boxOf, own] using answers

end Task

/-- Whatever a task does, the message is somewhere, and what happened to it fits. -/
theorem Journey.acts (keeps : setup.consumer.keepsLetters = true)
    (acts : Acts setup now x n job after next spawned es) (bound : after.beyondClock = false)
    (attached : Attached job) (open_ : x.line.closed = false)
    (standing : Standing x ((n, job) :: rest) id places)
    (journey : Journey setup.retry id places account) (first : Nat) :
    Whereabouts setup.retry after (next.toList.map (n, ·) ++ rest ++ spawned.mapIdx fun i job => (first + i, job)) id
      (account ++ .of id es) := by
  -- for a task that is about to end, or does nothing that matters to any message
  have idle {later : List (Nat × Job)} (apart : Apart id (n, job)) (later_apart : ∀ task ∈ later, Apart id task)
      (line : after.line = x.line) (replies : after.replies = x.replies) :
      Whereabouts setup.retry after (later ++ rest ++ []) id (account ++ .of id []) := by
    rw [Account.of_nil, Account.append_empty, List.append_nil]
    exact ⟨places, standing.elsewhere apart later_apart (by rw [line]) (by rw [replies]), journey⟩
  cases acts with
  | courier steps => exact (journey.acts_courier open_ standing steps).perm (.of_eq (List.append_nil _))
  | took popped =>
    rw [Account.of_nil, Account.append_empty]
    exact (journey.acts_took popped standing).perm (.of_eq (List.append_nil _))
  | drained => exact idle ⟨rfl, rfl⟩ (by simp [Apart, courier?, holder?]) rfl rfl
  | handed =>
    rw [Account.of_nil, Account.append_empty]
    exact (journey.acts_handed standing).perm (List.perm_append_singleton _ _ |>.trans (.swap ..))
  | ended => exact idle ⟨rfl, rfl⟩ (by simp) rfl rfl
  | dispatched going label replyTo dispatch phase =>
    exact (journey.acts_dispatched keeps going label replyTo dispatch phase standing).perm
      (.of_eq (List.append_nil _))
  | lost gone => simp [gone] at bound
  | found going done =>
    rw [Account.of_nil, Account.append_empty]
    exact (journey.acts_found going done standing).perm (.of_eq (List.append_nil _))
  | settled phase unlabelled => exact (journey.acts_settled phase standing).perm (.of_eq (List.append_nil _))
  | filed labelled _ => exact absurd attached.1 labelled
  | released phase => exact idle ⟨rfl, by simp [holder?, phase]⟩ (by simp) rfl rfl
  | elapsed => exact idle ⟨rfl, rfl⟩ (by simp) rfl rfl

end Acts

end Exchange

end Replica
