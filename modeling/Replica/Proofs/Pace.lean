import Mathlib.Data.Fintype.Card
import Mathlib.Data.Set.Finite.Basic
import Mathlib.Order.WellFounded
import Replica.Proofs.Solo
import Replica.Proofs.Stages
/-! How fast creations that refer to each other are applied. A message waits at most one delay longer than
what it refers to, so whenever nothing can be done but wait, something can be done before another delay has
passed for every message that is done with. -/
namespace Replica

namespace Registry

/-- The entities that a message refers to. -/
def refers (registry : Registry) (m : Message) : List EntityKey :=
  match registry.handlerFor? m with
  | none => []
  | some handler => (Requirement.references handler.requirements m.snapshot).toOption.getD []

/-- The message creates an entity of a kind that is handled, and has what the kind asks for. -/
structure Creates (registry : Registry) (m : Message) (handler : Handler) : Prop where
  created : m.action = .created
  handled : registry.handlerFor? m = some handler
  fits : handler.schema.check m.snapshot true = .valid
  lives : handler.schema.isSoftDeleted m.snapshot = false
  readable : ∃ keys, Requirement.references handler.requirements m.snapshot = .ok keys

/-- The first record of an entity. -/
def first? (registry : Registry) (m : Message) : Option Record :=
  (registry.schemaFor? m).map fun schema => Resolution.recordOf m schema (schema.project m.snapshot)

variable {registry : Registry} {m : Message} {handler : Handler}

theorem Creates.references (creates : registry.Creates m handler) :
    Requirement.references handler.requirements m.snapshot = .ok (registry.refers m) := by
  obtain ⟨keys, references⟩ := creates.readable
  simp [refers, creates.handled, references, Except.toOption]

theorem exists_creates_iff : (∃ handler, registry.Creates m handler) ↔
    m.action = .created ∧ ∃ handler ∈ registry.handlerFor? m, handler.schema.check m.snapshot true = .valid ∧
      handler.schema.isSoftDeleted m.snapshot = false ∧
      (Requirement.references handler.requirements m.snapshot).toBool = true := by
  constructor
  · rintro ⟨handler, created, handled, fits, lives, keys, readable⟩
    exact ⟨created, handler, handled, fits, lives, by rw [readable]; rfl⟩
  · rintro ⟨created, handler, handled, fits, lives, readable⟩
    refine ⟨handler, created, handled, fits, lives, ?_⟩
    cases references : Requirement.references handler.requirements m.snapshot with
    | ok keys => exact ⟨keys, rfl⟩
    | error reasons =>
      rw [references] at readable
      cases readable

instance (registry : Registry) (m : Message) : Decidable (∃ handler, registry.Creates m handler) :=
  decidable_of_iff _ exists_creates_iff.symm

theorem Creates.schemaFor? (creates : registry.Creates m handler) :
    registry.schemaFor? m = some handler.schema := by
  simp [Registry.schemaFor?, creates.handled]

theorem Creates.first? (creates : registry.Creates m handler) :
    registry.first? m = some (Resolution.recordOf m handler.schema (handler.schema.project m.snapshot)) := by
  simp [Registry.first?, creates.schemaFor?]

theorem Creates.isLive (creates : registry.Creates m handler) {record : Record}
    (first : registry.first? m = some record) : record.key = m.key ∧ record.isLive = true := by
  rw [creates.first?] at first
  obtain rfl := Option.some.inj first
  simp [Resolution.recordOf, Record.isLive, Resolution.deletedAfter, Action.isDeletion, creates.created, creates.lives]

theorem Creates.receive (creates : registry.Creates m handler) {budget : WaitBudget} {now : Instant}
    (fits : now + budget.budgetFor m.isForceSync < Instant.clockEnd) :
    Dispatch.receive registry budget now m = Dispatch.await handler.schema now
      (now + budget.budgetFor m.isForceSync) now (registry.refers m) := by
  have due : Instant.after? now (budget.budgetFor m.isForceSync) =
    some (now + budget.budgetFor m.isForceSync) := if_pos fits
  have refers := creates.references
  cases requirements : handler.requirements with
  | nil =>
    rw [requirements] at refers
    have nothing : registry.refers m = [] := (Except.ok.inj refers).symm
    simp [Dispatch.receive, Dispatch.dependencies, creates.handled, requirements, nothing, Dispatch.await]
  | cons first rest =>
    rw [requirements] at refers
    simp [Dispatch.receive, Dispatch.dependencies, creates.handled, requirements, creates.created, creates.lives,
      creates.fits, refers, due, Action.isDeletion]

theorem Creates.onLoad (creates : registry.Creates m handler) :
    Dispatch.onLoad handler.schema m (.ok none) = .writing
      (Resolution.recordOf m handler.schema (handler.schema.project m.snapshot)) (.applied .inserted) := by
  simp [Dispatch.onLoad, Resolution.resolve, Resolution.written, Resolution.recordOf, creates.created, creates.fits,
    Action.isDeletion]

end Registry

namespace Dispatch

/-- The message waits for an entity that it refers to, and has the time. -/
structure Patient (registry : Registry) (limit : Instant) (m : Message) (w : DependencyWait) : Prop where
  schema : registry.schemaFor? m = some w.schema
  refers : ∀ key ∈ w.key :: w.later, key ∈ registry.refers m
  limit : limit ≤ w.deadline
  deadline : w.deadline < Instant.clockEnd
  wait : w.wait.deadline = w.deadline

/-- The dispatch of a creation writes the first record of its entity, or is about to. A pause is at an end one
delay after the last record so far at the latest, and no delay later if what is waited for is there. -/
def Phase.OnTrack (registry : Registry) (limit : Instant) (delay : Duration) (records : Records) (done : Nat)
    (m : Message) : Phase → Prop
  | .arrived => True
  | .probing w => Patient registry limit m w
  | .pausing until_ w => Patient registry limit m w ∧ until_ ≤ Duration.millis ((done + 1) * delay) ∧
    ((SortedMap.get? records w.key).isSome → until_ ≤ Duration.millis (done * delay))
  | .loading schema => registry.schemaFor? m = some schema
  | .writing record outcome => registry.first? m = some record ∧ outcome = .applied .inserted
  | .closing ending => ending = .plain (.applied .inserted)
  | _ => False

/-- The dispatch looks for something, or is about to write. -/
def Phase.isOpen : Phase → Bool
  | .probing _ => true
  | .pausing .. => true
  | .loading _ => true
  | .writing .. => true
  | _ => false

/-- A bound on the steps left, if none is made at a time after the end: at each moment until then there may be a
look and a pause. -/
def Phase.stepsBefore (end_ now : Instant) (references : Nat) : Phase → Nat
  | .arrived => references + 2 * end_ + 8
  | .probing w => w.later.length + 2 * (end_ - now) + 8
  | .pausing until_ w => w.later.length + 2 * (end_ - until_) + 9
  | .loading _ => 7
  | .writing .. => 6
  | .closing _ => 5
  | _ => 4

variable {registry : Registry} {limit : Instant} {delay : Duration} {records : Records} {done : Nat} {m : Message}

/-- One record more gives everybody more time. -/
theorem Phase.OnTrack.mono {phase : Phase} (onTrack : phase.OnTrack registry limit delay records done m)
    (later : Records) : phase.OnTrack registry limit delay later (done + 1) m := by
  cases phase with
  | pausing until_ w =>
    obtain ⟨patient, most, -⟩ := onTrack
    refine ⟨patient, Nat.le_trans most ?_, fun _ => most⟩
    exact Nat.mul_le_mul_right _ (Nat.mul_le_mul_right _ (Nat.le_succ _))
  | _ => exact onTrack

section Await

variable {schema : Schema} {since deadline now : Instant} {keys : List EntityKey}

/-- Going on to the next entity, or to the record. -/
theorem onTrack_await (known : registry.schemaFor? m = some schema) (refers : ∀ key ∈ keys, key ∈ registry.refers m)
    (enough : limit ≤ deadline) (fits : deadline < Instant.clockEnd) (early : now ≤ deadline) :
    (await schema since deadline now keys).OnTrack registry limit delay records done m := by
  cases keys with
  | nil => exact known
  | cons key later => exact ⟨known, refers, enough, fits, Nat.add_sub_cancel' early⟩

theorem isOpen_await : (await schema since deadline now keys).isOpen = true := by
  cases keys <;> rfl

theorem stepsBefore_await_lt (end_ : Instant) (n : Nat) :
    (await schema since deadline now keys).stepsBefore end_ now n < keys.length + 2 * (end_ - now) + 8 := by
  cases keys with
  | nil => exact Nat.lt_of_lt_of_le (Nat.lt_succ_self 7) (Nat.le_add_left ..)
  | cons key later =>
    simp only [await, Phase.stepsBefore, List.length_cons]
    omega

end Await

end Dispatch

namespace Exchange

namespace Stage

/-- The dispatch has not begun to look at the message. -/
def isArriving : Stage → Bool
  | .dispatching _ .arrived => true
  | .dispatching .. => false
  | .settling _ => false
  | .returning .. => false
  | _ => true

/-- The record is written. -/
def isLanded : Stage → Bool
  | .dispatching _ (.closing _) => true
  | .settling _ => true
  | .returning .. => true
  | _ => false

/-- The record is counted. -/
def isCounted : Stage → Bool
  | .settling _ => true
  | .returning .. => true
  | _ => false

/-- A bound on the steps left, if no step of the dispatch is made at a time after the end. -/
def stepsBefore (end_ now : Instant) (references : Nat) : Stage → Nat
  | .setOut => references + 2 * end_ + 13
  | .offering => references + 2 * end_ + 12
  | .queued => references + 2 * end_ + 11
  | .onLine => references + 2 * end_ + 10
  | .held => references + 2 * end_ + 9
  | .dispatching _ phase => phase.stepsBefore end_ now references
  | .settling _ => 4
  | .returning .told w => w.toList.length + 2
  | .returning .leaving w => w.toList.length + 1
  | .returning .gone w => w.toList.length

theorem ofPhase_of_isOpen {n : Nat} {phase : Dispatch.Phase} (open_ : phase.isOpen = true) :
    ofPhase n phase = .dispatching n phase ∧ (dispatching n phase).isArriving = false ∧
      (dispatching n phase).isLanded = false := by
  unfold Dispatch.Phase.isOpen at open_
  split at open_ <;> first | exact ⟨rfl, rfl, rfl⟩ | cases open_

/-- The message waits for the clock, or is done with. -/
def Pauses (stage : Stage) : Prop :=
  stage = .returning .gone none ∨ ∃ k until_ w, stage = .dispatching k (.pausing until_ w)

/-- A dispatch is on track. -/
def OnTrack (registry : Registry) (limit : Instant) (delay : Duration) (records : Records) (done : Nat)
    (m : Message) : Stage → Prop
  | .dispatching _ phase => phase.OnTrack registry limit delay records done m
  | _ => True

theorem OnTrack.mono {registry : Registry} {limit : Instant} {delay : Duration} {records : Records} {done : Nat}
    {m : Message} {stage : Stage} (onTrack : stage.OnTrack registry limit delay records done m) (later : Records) :
    stage.OnTrack registry limit delay later (done + 1) m := by
  cases stage with
  | dispatching n phase => exact Dispatch.Phase.OnTrack.mono onTrack later
  | _ => trivial

end Stage

theorem ceilMillis_millis (n : Nat) : Instant.ceilMillis (Duration.millis n) = Duration.millis n := by
  unfold Instant.ceilMillis Duration.millis
  dsimp only [Instant, Duration]
  omega

/-- One message of a file refers to another. -/
def Refers (registry : Registry) (file : List Message) (m other : Message) : Prop :=
  m ∈ file ∧ other ∈ file ∧ other.key ∈ registry.refers m

theorem not_transGen_of_rank {registry : Registry} {file : List Message} (rank : Message → Nat)
    (less : ∀ m other, Refers registry file m other → rank other < rank m) (m : Message) :
    ¬Relation.TransGen (Refers registry file) m m := by
  have falls {a b : Message} (path : Relation.TransGen (Refers registry file) a b) : rank b < rank a := by
    induction path with
    | single refers => exact less _ _ refers
    | tail _ refers ih => exact Nat.lt_trans (less _ _ refers) ih
  exact fun circle => Nat.lt_irrefl _ (falls circle)

/-- A file of creations that refer only to each other, and not in a circle, and a consumer that can dispatch all
of them at once and waits long enough. -/
structure Orderable (registry : Registry) (budget : WaitBudget) (concurrency : Nat) (file : List Message)
    (delay : Nat) : Prop where
  creates : ∀ m ∈ file, ∃ handler, registry.Creates m handler
  distinct : (file.map Message.key).Nodup
  /-- All references point into the file. -/
  closed : ∀ m ∈ file, ∀ key ∈ registry.refers m, key ∈ file.map Message.key
  acyclic : ∀ m, ¬ Relation.TransGen (Refers registry file) m m
  /-- All messages are dispatched at once. -/
  room : file.length ≤ concurrency
  /-- The delays between two looks, none of which is longer than so many milliseconds. -/
  delays : ∀ n, 0 < budget.backoff.delayAfter n ∧ budget.backoff.delayAfter n ≤ Duration.millis delay
  /-- Everybody waits for as many delays as there are messages. -/
  patience : ∀ isForceSync, Duration.millis (file.length * delay) ≤ budget.budgetFor isForceSync
  fits : ∀ isForceSync, budget.budgetFor isForceSync < Instant.clockEnd

/-- Of any messages of the file, one refers to none of the others. -/
theorem Orderable.exists_first {registry : Registry} {budget : WaitBudget} {concurrency : Nat}
    {file : List Message} {delay : Nat} (orderable : Orderable registry budget concurrency file delay)
    {P : Message → Prop} (some : ∃ m ∈ file, P m) :
    ∃ m ∈ file, P m ∧ ∀ other, Refers registry file m other → ¬ P other := by
  let before (a b : {m // m ∈ file}) : Prop := Relation.TransGen (Refers registry file) b a
  have : IsTrans _ before := ⟨fun _ _ _ first second => second.trans first⟩
  have : Std.Irrefl before := ⟨fun m => orderable.acyclic m⟩
  have : Finite {m // m ∈ file} := List.finite_toSet file
  have founded : WellFounded before := Finite.wellFounded_of_trans_of_irrefl before
  obtain ⟨m, there, holds⟩ := some
  obtain ⟨⟨first, inside⟩, holds, least⟩ := founded.has_min {m | P m} ⟨⟨m, there⟩, holds⟩
  exact ⟨first, inside, holds, fun other refers bad => least ⟨other, refers.2.1⟩ bad (.single refers)⟩

/-- All messages are written before. -/
abbrev horizon (file : List Message) (delay : Nat) : Instant := Duration.millis (file.length * delay)

namespace Item

def isLanded (i : Item) : Bool := i.stage.isLanded

/-- A bound on the steps left for the message. -/
def stepsBefore (registry : Registry) (end_ now : Instant) (i : Item) : Nat :=
  i.stage.stepsBefore end_ now (registry.refers i.message).length

end Item

/-- How far the messages of a file are at a time, and what the desk has of them. -/
structure Timely (c : Consumer Store) (file : List Message) (delay : Nat) (now : Instant) (desk : Desk Store)
    (items : List Item) : Prop where
  messages : (items.map (·.message)).Perm file
  works : desk.store.failingWrites = 0
  written : ∀ item ∈ items, item.isLanded = true →
    SortedMap.get? desk.store.records item.message.key = c.registry.first? item.message
  absent : ∀ key, (∀ item ∈ items, item.isLanded = true → item.message.key ≠ key) →
    SortedMap.get? desk.store.records key = none
  onTrack : ∀ item ∈ items, item.stage.OnTrack c.registry (horizon file delay) delay
    desk.store.records (items.countP Item.isLanded) item.message
  /-- All messages arrive before the clock goes on. -/
  early : ∀ item ∈ items, item.stage.isArriving = true → now = 0
  pace : now ≤ Duration.millis (items.countP Item.isLanded * delay)
  letters : desk.letters = []
  stats : desk.stats =
    { received := items.countP (!·.stage.isArriving), applied := items.countP (·.stage.isCounted) }

namespace Timely

variable {c : Consumer Store} {file : List Message} {delay : Nat} {now : Instant} {desk after : Desk Store}
  {items others : List Item} {item : Item} {stage : Stage}

theorem perm (timely : Timely c file delay now desk items) {items' : List Item} (same : items.Perm items') :
    Timely c file delay now desk items' where
  messages := (same.map _).symm.trans timely.messages
  works := timely.works
  written item inside := timely.written item (same.mem_iff.2 inside)
  absent key none := timely.absent key fun item inside => none item (same.mem_iff.1 inside)
  onTrack item inside := same.countP_eq _ ▸ timely.onTrack item (same.mem_iff.2 inside)
  early item inside := timely.early item (same.mem_iff.2 inside)
  pace := same.countP_eq _ ▸ timely.pace
  letters := timely.letters
  stats := by
    rw [timely.stats, same.countP_eq, same.countP_eq]

/-- A message goes on, and no record is written. -/
theorem keep (timely : Timely c file delay now desk (item :: others)) (store : after.store = desk.store)
    (letters : after.letters = desk.letters) (landed : stage.isLanded = item.stage.isLanded)
    (early : stage.isArriving = true → item.stage.isArriving = true)
    (onTrack : stage.OnTrack c.registry (horizon file delay) delay desk.store.records
      ((item :: others).countP Item.isLanded) item.message)
    (stats : after.stats =
      { received := ({ item with stage } :: others).countP (!·.stage.isArriving)
        applied := ({ item with stage } :: others).countP (·.stage.isCounted) }) :
    Timely c file delay now after ({ item with stage } :: others) := by
  have count : ({ item with stage } :: others).countP Item.isLanded = (item :: others).countP Item.isLanded := by
    simp only [List.countP_cons, Item.isLanded, landed]
    rfl
  constructor
  · exact timely.messages
  · exact store ▸ timely.works
  · rw [store]
    refine List.forall_mem_cons.2 ⟨fun there => ?_, (List.forall_mem_cons.1 timely.written).2⟩
    exact timely.written item List.mem_cons_self (landed.symm.trans there)
  · rw [store]
    intro key none
    refine timely.absent key fun other inside there => ?_
    rcases List.mem_cons.1 inside with rfl | elsewhere
    · exact none { other with stage } List.mem_cons_self (landed.trans there)
    · exact none other (List.mem_cons_of_mem _ elsewhere) there
  · rw [store, count]
    exact List.forall_mem_cons.2 ⟨onTrack, (List.forall_mem_cons.1 timely.onTrack).2⟩
  · refine List.forall_mem_cons.2 ⟨fun there => ?_, (List.forall_mem_cons.1 timely.early).2⟩
    exact timely.early item List.mem_cons_self (early there)
  · rw [count]
    exact timely.pace
  · exact letters.trans timely.letters
  · exact stats

/-- Nothing happens at the desk. -/
theorem move (timely : Timely c file delay now desk (item :: others))
    (landed : stage.isLanded = item.stage.isLanded) (arriving : stage.isArriving = item.stage.isArriving)
    (counted : stage.isCounted = item.stage.isCounted)
    (onTrack : ∀ registry limit delay records done m, stage.OnTrack registry limit delay records done m) :
    Timely c file delay now desk ({ item with stage } :: others) := by
  refine timely.keep rfl rfl landed (fun there => arriving.symm.trans there) (onTrack ..) ?_
  rw [timely.stats]
  simp only [List.countP_cons, arriving, counted]

variable {id n : Nat} {m : Message} {phase : Dispatch.Phase}

theorem pauses (timely : Timely c file delay now desk items) (inside : item ∈ items)
    (idle : item.stage = .returning .gone none ∨
      ∃ k phase, item.stage = .dispatching k phase ∧ Dispatch.ready now ⟨item.message, phase⟩ = false) :
    item.stage.Pauses := by
  rcases idle with gone | ⟨k, phase, stage, blocked⟩
  · exact .inl gone
  · have onTrack := timely.onTrack item inside
    rw [stage] at onTrack
    cases phase with
    | pausing until_ w => exact .inr ⟨k, until_, w, stage⟩
    | done result => exact onTrack.elim
    | beyondClock => exact onTrack.elim
    | _ => cases blocked

/-! ### Steps of a dispatch -/

/-- A dispatch has made a step: it is still on track or done, and if it could make the step, fewer are left. -/
def Stepped (c : Consumer Store) (file : List Message) (delay : Nat) (now : Instant) (desk : Desk Store)
    (id n : Nat) (m : Message) (phase : Dispatch.Phase) (others : List Item) : Prop :=
  ∃ after next, Dispatch.step c now desk ⟨m, phase⟩ = (after, ⟨m, next⟩) ∧
    (∀ result, phase ≠ .done result) ∧ next ≠ .beyondClock ∧ (∀ result, next = .done result → result = landed) ∧
    Timely c file delay now after (⟨id, m, .ofPhase n next⟩ :: others) ∧
    (Dispatch.ready now ⟨m, phase⟩ = true →
      (Stage.ofPhase n next).stepsBefore (horizon file delay) now (c.registry.refers m).length <
        phase.stepsBefore (horizon file delay) now (c.registry.refers m).length)

/-- Looking for something leaves the desk alone. -/
theorem stepped_of_open (timely : Timely c file delay now desk (⟨id, m, .dispatching n phase⟩ :: others))
    {next : Dispatch.Phase} (made : Dispatch.step c now desk ⟨m, phase⟩ = (desk, ⟨m, next⟩))
    (before : phase.isOpen = true) (still : next.isOpen = true)
    (onTrack : next.OnTrack c.registry (horizon file delay) delay desk.store.records
      ((⟨id, m, .dispatching n phase⟩ :: others).countP Item.isLanded) m)
    (fewer : Dispatch.ready now ⟨m, phase⟩ = true →
      next.stepsBefore (horizon file delay) now (c.registry.refers m).length <
        phase.stepsBefore (horizon file delay) now (c.registry.refers m).length) :
    Stepped c file delay now desk id n m phase others := by
  obtain ⟨-, arrived, open_⟩ := Stage.ofPhase_of_isOpen (n := n) before
  obtain ⟨same, arrived', open_'⟩ := Stage.ofPhase_of_isOpen (n := n) still
  refine ⟨desk, next, made, ?_, ?_, ?_, ?_, fun ready => ?_⟩
  · rintro result rfl
    cases before
  · rintro rfl
    cases still
  · rintro result rfl
    cases still
  · rw [same]
    refine timely.keep rfl rfl (open_'.trans open_.symm) (fun there => ?_) onTrack ?_
    · cases arrived'.symm.trans there
    · rw [timely.stats]
      simp only [List.countP_cons, arrived, arrived', Stage.isCounted]
  · rw [same]
    exact fewer ready

theorem stepped_pausing {w : DependencyWait} {until_ : Instant}
    (timely : Timely c file delay now desk (⟨id, m, .dispatching n (.pausing until_ w)⟩ :: others)) :
    Stepped c file delay now desk id n m (.pausing until_ w) others := by
  obtain ⟨patient, -⟩ := timely.onTrack _ List.mem_cons_self
  refine timely.stepped_of_open rfl rfl rfl patient fun ready => ?_
  have reached : until_ ≤ now := of_decide_eq_true ready
  simp only [Dispatch.Phase.stepsBefore]
  dsimp only [Instant, Duration] at *
  omega

theorem stepped_closing {ending : Ending}
    (timely : Timely c file delay now desk (⟨id, m, .dispatching n (.closing ending)⟩ :: others)) :
    Stepped c file delay now desk id n m (.closing ending) others := by
  obtain rfl : ending = .plain (.applied .inserted) := timely.onTrack _ List.mem_cons_self
  refine ⟨{ desk with stats := { desk.stats with applied := desk.stats.applied + 1 } }, .done landed, rfl, nofun, nofun,
    ?_, ?_, fun _ => Nat.lt_succ_self _⟩
  · rintro result same
    cases same
    rfl
  · refine timely.keep rfl rfl rfl nofun trivial ?_
    rw [timely.stats]
    simp [Stage.ofPhase, Stage.isArriving, Stage.isCounted]

section Orderable

variable {concurrency : Nat} (orderable : Orderable c.registry c.budget concurrency file delay)

include orderable

/-- What has a record has a live one. -/
theorem isLive (timely : Timely c file delay now desk items) {key : EntityKey}
    (some : (SortedMap.get? desk.store.records key).isSome) : desk.store.isLive key = true := by
  obtain ⟨record, found⟩ := Option.isSome_iff_exists.1 some
  have writer : ∃ item ∈ items, item.isLanded = true ∧ item.message.key = key := by
    refine Classical.byContradiction fun nobody => ?_
    have none := timely.absent key fun item inside there same => nobody ⟨item, inside, there, same⟩
    rw [found] at none
    cases none
  obtain ⟨item, inside, there, rfl⟩ := writer
  have first := timely.written item inside there
  obtain ⟨handler, creates⟩ := orderable.creates item.message
    (timely.messages.mem_iff.1 (List.mem_map_of_mem inside))
  rw [found] at first
  simp [Store.isLive, Store.load, found, (creates.isLive first.symm).2]

/-- As long as a message has no record there is time. -/
theorem early_of_open (timely : Timely c file delay now desk (item :: others)) (open_ : item.isLanded = false) :
    now < horizon file delay ∧
      Duration.millis (((item :: others).countP Item.isLanded + 1) * delay) ≤
        horizon file delay := by
  have all := timely.messages.length_eq
  have fewer : (item :: others).countP Item.isLanded < file.length := by
    rw [List.countP_cons_of_neg (by simp [open_]), ← all, List.length_map]
    exact Nat.lt_succ_of_le List.countP_le_length
  have some : 0 < delay := by
    have least := Nat.lt_of_lt_of_le (orderable.delays 0).1 (orderable.delays 0).2
    exact Nat.pos_of_mul_pos_right least
  have pace := timely.pace
  have more := Nat.mul_le_mul_right delay fewer
  generalize (item :: others).countP Item.isLanded = done at pace more ⊢
  rw [Nat.succ_mul] at more
  simp only [horizon, Duration.millis, Nat.succ_mul] at pace ⊢
  dsimp only [Instant, Duration] at pace ⊢
  omega

theorem ne_key (timely : Timely c file delay now desk (item :: others)) {other : Item} (there : other ∈ others) :
    other.message.key ≠ item.message.key := by
  have distinct := ((timely.messages.map Message.key).nodup_iff).2 orderable.distinct
  rw [List.map_map, List.map_cons] at distinct
  exact fun same => (List.nodup_cons.1 distinct).1 (List.mem_map.2 ⟨other, there, same⟩)

/-- Before a message is written there is no record of its entity. -/
theorem absent_of_open (timely : Timely c file delay now desk (item :: others)) (open_ : item.isLanded = false) :
    SortedMap.get? desk.store.records item.message.key = none := by
  refine timely.absent _ fun other inside there => ?_
  rcases List.mem_cons.1 inside with rfl | elsewhere
  · cases open_.symm.trans there
  · exact timely.ne_key orderable elsewhere

/-- The first record of an entity is written. -/
theorem land (timely : Timely c file delay now desk (item :: others)) (open_ : item.isLanded = false) {record : Record}
    (first : c.registry.first? item.message = some record) (own : record.key = item.message.key)
    (store : after.store = { records := SortedMap.insert desk.store.records record.key record })
    (letters : after.letters = desk.letters) (landed : stage.isLanded = true) (arriving : stage.isArriving = false)
    (onTrack : ∀ records done, stage.OnTrack c.registry (horizon file delay) delay records done
      item.message)
    (stats : after.stats =
      { received := ({ item with stage } :: others).countP (!·.stage.isArriving)
        applied := ({ item with stage } :: others).countP (·.stage.isCounted) }) :
    Timely c file delay now after ({ item with stage } :: others) := by
  have count : ({ item with stage } :: others).countP Item.isLanded = (item :: others).countP Item.isLanded + 1 := by
    rw [List.countP_cons_of_pos (by exact landed), List.countP_cons_of_neg (by simp [open_])]
  constructor
  · exact timely.messages
  · rw [store]
  · rw [store]
    refine List.forall_mem_cons.2 ⟨fun _ => ?_, fun other inside there => ?_⟩
    · show SortedMap.get? _ item.message.key = c.registry.first? item.message
      rw [← own, SortedMap.get?_insert_self, first]
    · have apart : other.message.key ≠ record.key := own ▸ timely.ne_key orderable inside
      rw [SortedMap.get?_insert_of_ne _ _ apart]
      exact timely.written other (List.mem_cons_of_mem _ inside) there
  · rw [store]
    intro key none
    have apart : record.key ≠ key := own ▸ none { item with stage } List.mem_cons_self landed
    rw [SortedMap.get?_insert_of_ne _ _ apart.symm]
    apply timely.absent key
    intro other inside there
    rcases List.mem_cons.1 inside with rfl | elsewhere
    · cases open_.symm.trans there
    · exact none other (List.mem_cons_of_mem _ elsewhere) there
  · rw [count]
    refine List.forall_mem_cons.2 ⟨onTrack .., fun other inside => ?_⟩
    exact (timely.onTrack other (List.mem_cons_of_mem _ inside)).mono _
  · refine List.forall_mem_cons.2 ⟨fun there => ?_, (List.forall_mem_cons.1 timely.early).2⟩
    cases arriving.symm.trans there
  · rw [count]
    exact Nat.le_trans timely.pace (Nat.mul_le_mul_right _ (Nat.mul_le_mul_right _ (Nat.le_succ _)))
  · exact letters.trans timely.letters
  · exact stats

theorem stepped_arrived (timely : Timely c file delay now desk (⟨id, m, .dispatching n .arrived⟩ :: others)) :
    Stepped c file delay now desk id n m .arrived others := by
  obtain rfl : now = 0 := timely.early _ List.mem_cons_self rfl
  have among : m ∈ file := timely.messages.mem_iff.1 List.mem_cons_self
  obtain ⟨handler, creates⟩ := orderable.creates m among
  have due : (0 : Instant) + c.budget.budgetFor m.isForceSync = c.budget.budgetFor m.isForceSync := Nat.zero_add _
  have received := creates.receive (due.symm ▸ orderable.fits m.isForceSync)
  rw [due] at received
  generalize phase : Dispatch.await handler.schema 0 (c.budget.budgetFor m.isForceSync) 0 (c.registry.refers m) = next
    at received
  have open_ : next.isOpen = true := phase ▸ Dispatch.isOpen_await
  obtain ⟨same, arrived, notLanded⟩ := Stage.ofPhase_of_isOpen (n := n) open_
  refine ⟨{ desk with stats := { desk.stats with received := desk.stats.received + 1 } }, next, ?_, nofun, ?_, ?_,
    ?_, fun _ => ?_⟩
  · simp only [Dispatch.step, received]
  · rintro rfl
    cases open_
  · rintro result rfl
    cases open_
  · rw [same]
    refine timely.keep rfl rfl notLanded (fun there => ?_) ?_ ?_
    · cases arrived.symm.trans there
    · exact phase ▸ Dispatch.onTrack_await creates.schemaFor? (fun _ there => there)
        (orderable.patience m.isForceSync) (orderable.fits _) (Nat.zero_le _)
    · have before : Stage.isArriving (.dispatching n .arrived) = true := rfl
      rw [timely.stats]
      simp [arrived, before, Stage.isCounted]
  · rw [same]
    subst phase
    exact Dispatch.stepsBefore_await_lt _ _

section Backend

variable (backend : c.backend = Store.backend)

include backend

theorem stepped_probing {w : DependencyWait}
    (timely : Timely c file delay now desk (⟨id, m, .dispatching n (.probing w)⟩ :: others)) :
    Stepped c file delay now desk id n m (.probing w) others := by
  have patient : Dispatch.Patient c.registry (horizon file delay) m w :=
    timely.onTrack _ List.mem_cons_self
  obtain ⟨early, room⟩ := timely.early_of_open orderable rfl
  have before : now < w.deadline := Nat.lt_of_lt_of_le early patient.limit
  have made : Dispatch.step c now desk ⟨m, .probing w⟩ = _ := Dispatch.step_probing backend w
  cases live : desk.store.isLive w.key with
  | true =>
    rw [live] at made
    refine timely.stepped_of_open made rfl Dispatch.isOpen_await ?_ fun _ => Dispatch.stepsBefore_await_lt _ _
    exact Dispatch.onTrack_await patient.schema (fun key there => patient.refers key (List.mem_cons_of_mem _ there))
      patient.limit patient.deadline (Nat.le_of_lt before)
  | false =>
    obtain ⟨until_, paused, later, -, -, soon⟩ := Wait.exists_pause (fun k => (orderable.delays k).1)
      (patient.wait.symm ▸ before) (patient.wait.symm ▸ patient.deadline)
    have pausing : Dispatch.onProbe c.budget.backoff now w (.ok false) =
        .pausing until_ { w with wait := { w.wait with attempt := w.wait.attempt + 1 } } := by
      simp [Dispatch.onProbe, paused]
    rw [live, pausing] at made
    have most : until_ ≤ Duration.millis
        (((⟨id, m, .dispatching n (.probing w)⟩ :: others).countP Item.isLanded + 1) * delay) := by
      -- pauses end at whole milliseconds, and so does the longest one
      refine Nat.le_trans soon (Nat.le_trans (Instant.ceilMillis_mono ?_) (Nat.le_of_eq (ceilMillis_millis _)))
      rw [Nat.succ_mul, Duration.millis, Nat.add_mul]
      exact Nat.add_le_add timely.pace (orderable.delays _).2
    refine timely.stepped_of_open made rfl rfl ⟨⟨patient.schema, patient.refers, patient.limit, patient.deadline,
      patient.wait⟩, most, fun there => ?_⟩ fun _ => ?_
    · cases live.symm.trans (timely.isLive orderable there)
    · have inTime := Nat.le_trans most room
      simp only [Dispatch.Phase.stepsBefore]
      dsimp only [Instant, Duration] at *
      omega

theorem stepped_loading {schema : Schema}
    (timely : Timely c file delay now desk (⟨id, m, .dispatching n (.loading schema)⟩ :: others)) :
    Stepped c file delay now desk id n m (.loading schema) others := by
  have among : m ∈ file := timely.messages.mem_iff.1 List.mem_cons_self
  obtain ⟨handler, creates⟩ := orderable.creates m among
  have known : c.registry.schemaFor? m = some schema := timely.onTrack _ List.mem_cons_self
  obtain rfl := Option.some.inj (creates.schemaFor?.symm.trans known)
  have absent : desk.store.load m.key = none := timely.absent_of_open orderable rfl
  have made : Dispatch.step c now desk ⟨m, .loading handler.schema⟩ = _ := Dispatch.step_loading backend handler.schema
  rw [absent, creates.onLoad] at made
  exact timely.stepped_of_open made rfl rfl ⟨creates.first?, rfl⟩ fun _ => Nat.lt_succ_self _

theorem stepped_writing {record : Record} {outcome : Outcome}
    (timely : Timely c file delay now desk (⟨id, m, .dispatching n (.writing record outcome)⟩ :: others)) :
    Stepped c file delay now desk id n m (.writing record outcome) others := by
  have among : m ∈ file := timely.messages.mem_iff.1 List.mem_cons_self
  obtain ⟨handler, creates⟩ := orderable.creates m among
  obtain ⟨first, rfl⟩ : c.registry.first? m = some record ∧ outcome = .applied .inserted :=
    timely.onTrack _ List.mem_cons_self
  have own : record.key = m.key := (creates.isLive first).1
  have absent : SortedMap.get? desk.store.records record.key = none := own ▸ timely.absent_of_open orderable rfl
  have newer : Records.IsNewer desk.store.records record := by
    intro old found
    cases absent.symm.trans found
  refine ⟨_, _, Dispatch.step_writing backend timely.works newer, nofun, nofun, nofun, ?_, fun _ => Nat.lt_succ_self _⟩
  exact timely.land orderable rfl first own rfl rfl rfl rfl (fun _ _ => rfl) timely.stats

/-- Every dispatch goes on. -/
theorem stepped (timely : Timely c file delay now desk (⟨id, m, .dispatching n phase⟩ :: others)) :
    Stepped c file delay now desk id n m phase others := by
  have onTrack : phase.OnTrack .. := timely.onTrack _ List.mem_cons_self
  cases phase with
  | arrived => exact timely.stepped_arrived orderable
  | probing w => exact timely.stepped_probing orderable backend
  | pausing until_ w => exact timely.stepped_pausing
  | loading schema => exact timely.stepped_loading orderable backend
  | writing record outcome => exact timely.stepped_writing orderable backend
  | closing ending => exact timely.stepped_closing
  | shelving letter result => exact onTrack.elim
  | done result => exact onTrack.elim
  | beyondClock => exact onTrack.elim

theorem fine (timely : Timely c file delay now desk items) (inside : item ∈ items) :
    item.stage.Fine c now item.message desk := by
  obtain ⟨before, behind, rfl⟩ := List.append_of_mem inside
  obtain ⟨id, m, stage⟩ := item
  cases stage with
  | dispatching n phase =>
    obtain ⟨after, next, made, goes, inClock, lands, -⟩ :=
      (timely.perm List.perm_middle).stepped orderable backend
    rw [Stage.Fine, made]
    exact ⟨goes, inClock, lands⟩
  | _ => trivial

/-- Whatever a message does next, there is less left. -/
theorem next (timely : Timely c file delay now desk (item :: others))
    (next : item.stage.Next c now item.message desk stage after) :
    Timely c file delay now after ({ item with stage } :: others) ∧
      Item.stepsBefore c.registry (horizon file delay) now { item with stage } <
        item.stepsBefore c.registry (horizon file delay) now := by
  obtain ⟨id, m, before⟩ := item
  cases next with
  | dispatched ready made =>
    obtain ⟨_, _, same, -, -, -, timely, less⟩ := timely.stepped orderable backend
    obtain ⟨rfl, step⟩ := Prod.mk.inj (same.symm.trans made)
    obtain rfl := (Dispatch.mk.inj step).2
    exact ⟨timely, less ready⟩
  | puts =>
    refine ⟨timely.move rfl rfl rfl fun _ _ _ _ _ _ => trivial, ?_⟩
    exact Nat.lt_trans (Nat.lt_succ_self _) (Nat.lt_succ_self _)
  | @released courier n =>
    refine ⟨timely.move rfl rfl rfl fun _ _ _ _ _ _ => trivial, ?_⟩
    cases courier <;> exact Nat.lt_succ_self _
  | _ => exact ⟨timely.move rfl rfl rfl fun _ _ _ _ _ _ => trivial, Nat.lt_succ_self _⟩

end Backend

/-! ### When the clock goes on -/

/-- If everybody waits, what one of them waits for is there. -/
theorem exists_next (timely : Timely c file delay now desk items) (waits : ∀ item ∈ items, item.stage.Pauses)
    (some : ∃ item ∈ items, item.isLanded = false) :
    ∃ item ∈ items, ∃ k until_ w, item.stage = .dispatching k (.pausing until_ w) ∧
      until_ ≤ Duration.millis (items.countP Item.isLanded * delay) := by
  obtain ⟨first, inside, open_⟩ := some
  have among {item : Item} (inside : item ∈ items) : item.message ∈ file :=
    timely.messages.mem_iff.1 (List.mem_map_of_mem inside)
  -- a message that refers to none of those that are left: whatever it looks for is there
  obtain ⟨m, -, ⟨item, inside, rfl, open_⟩, last⟩ :=
    orderable.exists_first (P := fun m => ∃ item ∈ items, item.message = m ∧ item.isLanded = false)
      ⟨first.message, among inside, first, inside, rfl, open_⟩
  obtain ⟨k, until_, w, stage⟩ : ∃ k until_ w, item.stage = .dispatching k (.pausing until_ w) := by
    rcases waits item inside with gone | pausing
    · simp [Item.isLanded, gone, Stage.isLanded] at open_
    · exact pausing
  have onTrack := timely.onTrack item inside
  rw [stage] at onTrack
  obtain ⟨patient, -, soon⟩ := onTrack
  refine ⟨item, inside, k, until_, w, stage, soon ?_⟩
  have refers := patient.refers w.key List.mem_cons_self
  obtain ⟨other, there, same⟩ := List.mem_map.1 (orderable.closed _ (among inside) _ refers)
  obtain ⟨writer, wrote, rfl⟩ := List.mem_map.1 (timely.messages.mem_iff.2 there)
  have written : writer.isLanded = true := by
    refine Bool.of_not_eq_false fun missing => ?_
    exact last _ ⟨among inside, there, same ▸ refers⟩ ⟨writer, wrote, rfl, missing⟩
  obtain ⟨handler, creates⟩ := orderable.creates _ there
  rw [← same, timely.written writer wrote written, creates.first?]
  rfl

/-- The clock goes on to a moment at which somebody has waited long enough. -/
theorem pass (timely : Timely c file delay now desk items) (waits : ∀ item ∈ items, item.stage.Pauses)
    (some : ∃ item ∈ items, item.isLanded = false) {time : Instant}
    (due : ∀ item ∈ items, ∀ k until_ w, item.stage = .dispatching k (.pausing until_ w) → time ≤ until_) :
    Timely c file delay (max now time) desk items := by
  obtain ⟨next, first, k, until_, w, stage, soon⟩ := timely.exists_next orderable waits some
  have pace : max now time ≤ Duration.millis (items.countP Item.isLanded * delay) :=
    Nat.max_le.2 ⟨timely.pace, Nat.le_trans (due next first k until_ w stage) soon⟩
  refine { timely with pace, early := fun item inside arriving => ?_ }
  · rcases waits item inside with gone | ⟨k, until_, w, pausing⟩
    · rw [gone] at arriving
      cases arriving
    · rw [pausing] at arriving
      cases arriving

end Orderable

end Timely

end Exchange

end Replica
