import Replica.Proofs.Post
import Mathlib.Data.List.Basic
/-! How one message fares on the bus. Its courier makes one delivery after another, each only when the
one before came back without success. At every moment the stage that the message has reached says what
its courier does, where its delivery is and which events it has behind it. -/
namespace Replica

namespace Post

open Exchange

/-- How a message ends on the bus. -/
inductive End where
  | acked
  | shelved
  | refused
  deriving DecidableEq

/-- How far a message is. -/
inductive Stage where
  /-- This many deliveries were made, and all of them failed. -/
  | between (n : Nat)
  /-- The delivery of this number is on the line. -/
  | onLine (n : Nat)
  /-- The delivery of this number was taken. -/
  | inHand (n : Nat)
  /-- The delivery of this number was answered. -/
  | answered (n : Nat) (verdict : Verdict)
  /-- After this many deliveries it is all over, but the courier has not finished yet. -/
  | ended (n : Nat) (way : End)
  /-- After this many deliveries the courier has finished. -/
  | gone (n : Nat) (way : End)

/-- The events that a message has behind it at a stage. -/
inductive Course (retry : Retry) (id : Nat) (m : Message) : Stage → List Event → Prop
  | sent : Course retry id m (.between 0) [.sent id m]
  | queued {n : Nat} {log : List Event} (before : Course retry id m (.between n) log)
    (more : n < retry.maxAttempts) (receiving : .closed ∉ log) :
    Course retry id m (.onLine n) (log ++ [.queued ⟨m, n, some id⟩])
  | taken {n : Nat} {log : List Event} (before : Course retry id m (.onLine n) log) :
    Course retry id m (.inHand n) (log ++ [.taken ⟨m, n, some id⟩])
  | answered {n : Nat} {verdict : Verdict} {log : List Event}
    (before : Course retry id m (.inHand n) log) :
    Course retry id m (.answered n verdict) (log ++ [.answered ⟨m, n, some id⟩ verdict])
  /-- The receiver went away with the delivery on the line. -/
  | dropped {n : Nat} {log : List Event} (before : Course retry id m (.onLine n) log) :
    Course retry id m (.answered n .lost) (log ++ [.closed, .answered ⟨m, n, some id⟩ .lost])
  /-- The receiver went away otherwise. -/
  | closed {stage : Stage} {log : List Event} (before : Course retry id m stage log)
    (elsewhere : ∀ n, stage ≠ .onLine n) : Course retry id m stage (log ++ [.closed])
  | failed {n : Nat} {verdict : Verdict} {log : List Event}
    (before : Course retry id m (.answered n verdict) log) (bad : verdict ≠ .ack) :
    Course retry id m (.between (n + 1)) log
  | acked {n : Nat} {log : List Event} (before : Course retry id m (.answered n .ack) log) :
    Course retry id m (.ended (n + 1) .acked) log
  /-- The receiver was gone when a delivery was to be put on the line. -/
  | refused {n : Nat} {log : List Event} (before : Course retry id m (.between n) log)
    (more : n < retry.maxAttempts) (gone : .closed ∈ log) :
    Course retry id m (.ended n .refused) (log ++ [.refused ⟨m, n, some id⟩])
  | shelved {n : Nat} {log : List Event} (before : Course retry id m (.between n) log)
    (none : ¬n < retry.maxAttempts) :
    Course retry id m (.ended n .shelved) (log ++ [.shelved id (exhausted m retry)])
  | left {n : Nat} {way : End} {log : List Event} (before : Course retry id m (.ended n way) log) :
    Course retry id m (.gone n way) (log ++ [.left id])

/-- What the courier may be doing at a stage. -/
inductive Stands (retry : Retry) : Stage → Option Courier.Phase → Prop
  | attempt {n : Nat} : Stands retry (.between n) (some (.attempt n))
  | resting {until_ : Instant} {n : Nat} (more : n < retry.maxAttempts) :
    Stands retry (.between n) (some (.resting until_ n))
  | offering {n : Nat} (more : n < retry.maxAttempts) : Stands retry (.between n) (some (.offering n))
  | queued {n : Nat} (more : n < retry.maxAttempts) : Stands retry (.between n) (some (.queued n))
  | shelving {n : Nat} (none : ¬n < retry.maxAttempts) : Stands retry (.between n) (some .shelving)
  | onLine {n : Nat} : Stands retry (.onLine n) (some (.awaiting n))
  | inHand {n : Nat} : Stands retry (.inHand n) (some (.awaiting n))
  | answered {n : Nat} {verdict : Verdict} : Stands retry (.answered n verdict) (some (.awaiting n))
  | leaving {n : Nat} {way : End} : Stands retry (.ended n way) (some .leaving)
  | finished {n : Nat} {way : End} : Stands retry (.gone n way) none

/-- Where the deliveries and the verdicts of a courier are. -/
structure Box where
  onLine : List Delivery := []
  /-- Taken and not answered. -/
  inHand : List Delivery := []
  answers : List Verdict := []
  deriving DecidableEq

/-- Where the one delivery of a message is at a stage. -/
def Stage.box (id : Nat) (m : Message) : Stage → Box
  | .onLine n => { onLine := [⟨m, n, some id⟩] }
  | .inHand n => { inHand := [⟨m, n, some id⟩] }
  | .answered _ verdict => { answers := [verdict] }
  | .between _ | .ended _ _ | .gone _ _ => {}

variable {σ : Type}

/-- Where the deliveries and the verdicts of a courier are. -/
def boxOf (x : Exchange σ) (hands : List Delivery) (id : Nat) : Box :=
  { onLine := x.line.queue.filter (·.replyTo == some id)
    inHand := hands.filter (·.replyTo == some id)
    answers := (x.replies.filter (·.recipient == id)).map (·.verdict) }

/-- The event is about this courier, or about all. -/
def Event.concerns (id : Nat) : Event → Bool
  | sent n _ | shelved n _ | left n => n == id
  | queued d | refused d | taken d | answered d _ => d.replyTo == some id
  | closed => true

/-- The events about a courier. -/
def log (id : Nat) (history : List Event) : List Event := history.filter (·.concerns id)

@[simp]
theorem log_nil (id : Nat) : log id [] = [] := rfl

@[simp]
theorem log_append (id : Nat) (first second : List Event) :
    log id (first ++ second) = log id first ++ log id second :=
  List.filter_append ..

@[simp]
theorem closed_mem_log {id : Nat} {history : List Event} :
    .closed ∈ log id history ↔ .closed ∈ history := by
  simp [log, Event.concerns]

@[simp]
theorem sent_mem_log {id : Nat} {m : Message} {history : List Event} :
    .sent id m ∈ log id history ↔ .sent id m ∈ history := by
  simp [log, Event.concerns]

@[simp]
theorem left_mem_log {id : Nat} {history : List Event} : .left id ∈ log id history ↔ .left id ∈ history := by
  simp [log, Event.concerns]

theorem log_own {id : Nat} {e : Event} (own : e.concerns id = true) : log id [e] = [e] := by
  simp [log, own]

theorem log_others {id : Nat} {e : Event} (others : e.concerns id = false) : log id [e] = [] := by
  simp [log, others]

/-! ### What a courier's step does to the boxes -/

variable {retry : Retry} {id : Nat} {es : List Event}

section Steps

variable {x after : Exchange σ} {m : Message} {phase : Courier.Phase} {next : Option Courier.Phase}
  {hands : List Delivery}

/-- Taking somebody's verdict leaves those of others. -/
theorem filter_eraseP_of_ne {other : Nat} (different : other ≠ id) (replies : List Reply) :
    (replies.eraseP (·.recipient == id)).filter (·.recipient == other) =
      replies.filter (·.recipient == other) := by
  induction replies with
  | nil => rfl
  | cons reply rest ih =>
    by_cases own : reply.recipient = id
    · have notOther : reply.recipient ≠ other := own ▸ different.symm
      simp [own, different.symm]
    · simp [own, List.filter_cons, ih]

/-- A step of another courier. -/
theorem Steps.other {other : Nat} (steps : Steps retry x id m phase after next es)
    (different : other ≠ id) (hands : List Delivery) :
    boxOf after hands other = boxOf x hands other ∧ log other es = [] := by
  cases steps <;>
    simp [boxOf, log, Event.concerns, Line.enlist, different.symm, filter_eraseP_of_ne different, *]

/-- The events of a step are all about its courier. -/
theorem Steps.log_self (steps : Steps retry x id m phase after next es) : log id es = es := by
  cases steps <;> simp [log, Event.concerns]

/-- The only verdict under way is the one that is found, and then it is taken. -/
theorem answers_of_find? {reply : Reply} {stage : Stage} {n : Nat}
    (stands : Stands retry stage (some (.awaiting n))) (box : boxOf x hands id = stage.box id m)
    (found : x.replies.find? (·.recipient == id) = some reply) :
    stage = .answered n reply.verdict ∧
      boxOf { x with replies := x.replies.eraseP (·.recipient == id) } hands id = {} := by
  have first : (x.replies.filter (·.recipient == id)).head? = some reply := by
    rw [List.head?_filter, found]
  have own : reply.recipient = id := by simpa using List.find?_some found
  have answers := congrArg Box.answers box
  have erased := List.eraseP_filter (p := (·.recipient == id)) (f := (·.recipient == id)) (l := x.replies)
  cases stands with
  | onLine | inHand =>
    have none : x.replies.filter (·.recipient == id) = [] := List.map_eq_nil_iff.1 answers
    simp [none] at first
  | answered =>
    obtain ⟨only, filtered, rfl⟩ := List.map_eq_singleton_iff.1 answers
    rw [filtered] at first erased
    obtain rfl := Option.some.inj first
    obtain ⟨onLine, inHand, -⟩ := Box.mk.inj box
    simp_all [boxOf]

/-- Only between two deliveries, and with attempts left, does a courier offer one. -/
theorem Stands.offers {stage : Stage} {n : Nat} (stands : Stands retry stage (some phase))
    (offers : phase = .offering n ∨ phase = .queued n) :
    stage = .between n ∧ n < retry.maxAttempts := by
  rcases offers with rfl | rfl
  · cases stands with
    | offering more => exact ⟨rfl, more⟩
  · cases stands with
    | queued more => exact ⟨rfl, more⟩

/-- A step of the courier itself leads from one stage to another. -/
theorem Steps.own {stage : Stage} {log : List Event} (steps : Steps retry x id m phase after next es)
    (course : Course retry id m stage log) (stands : Stands retry stage (some phase))
    (told : .closed ∈ log ↔ x.line.closed = true) (box : boxOf x hands id = stage.box id m) :
    ∃ later, Course retry id m later (log ++ es) ∧ Stands retry later next ∧
      boxOf after hands id = later.box id m := by
  cases steps with
  | @begun n phase more goesOn =>
    cases stands
    rw [List.append_nil]
    rcases goesOn with rfl | ⟨until_, rfl⟩
    · exact ⟨.between n, course, .offering more, box⟩
    · exact ⟨.between n, course, .resting more, box⟩
  | @spent n none =>
    cases stands
    rw [List.append_nil]
    exact ⟨.between n, course, .shelving none, box⟩
  | @rested until_ n =>
    cases stands with
    | resting more =>
      rw [List.append_nil]
      exact ⟨.between n, course, .offering more, box⟩
  | @refused phase n offers gone =>
    obtain ⟨rfl, more⟩ := stands.offers offers
    exact ⟨.ended n .refused, .refused course more (told.2 gone), .leaving, box⟩
  | @enlisted n =>
    cases stands with
    | offering more =>
      rw [List.append_nil]
      exact ⟨.between n, course, .queued more, box⟩
  | @put phase n line offers receiving open_ queue =>
    obtain ⟨rfl, more⟩ := stands.offers offers
    have quiet : .closed ∉ log := by simp [told, receiving]
    refine ⟨.onLine n, .queued course more quiet, .onLine, ?_⟩
    simp_all [boxOf, Stage.box]
  | @acked n reply found good =>
    obtain ⟨rfl, empty⟩ := answers_of_find? stands box found
    rw [List.append_nil]
    rw [good] at course
    exact ⟨.ended (n + 1) .acked, .acked course, .leaving, empty⟩
  | @failed n reply found bad =>
    obtain ⟨rfl, empty⟩ := answers_of_find? stands box found
    rw [List.append_nil]
    exact ⟨.between (n + 1), .failed course bad, .attempt, empty⟩
  | shelved =>
    cases stands with
    | @shelving n none => exact ⟨.ended n .shelved, .shelved course none, .leaving, box⟩
  | left =>
    cases stands with
    | @leaving n way => exact ⟨.gone n way, .left course, .finished, box⟩

end Steps

/-! ### What a move does to the boxes -/

theorem boxOf_reply (x : Exchange σ) (now : Instant) (recipient : Option Nat) (verdict : Verdict)
    (hands : List Delivery) (id : Nat) :
    boxOf (x.reply now recipient verdict) hands id =
      { boxOf x hands id with
        answers := (boxOf x hands id).answers ++ if recipient = some id then [verdict] else [] } := by
  cases recipient with
  | none => simp [boxOf, reply]
  | some recipient =>
    by_cases own : recipient = id <;> simp [boxOf, reply, own]

theorem boxOf_lose (x : Exchange σ) (now : Instant) (dropped : List Delivery) (hands : List Delivery)
    (id : Nat) :
    boxOf (x.lose now dropped) hands id =
      { boxOf x hands id with
        answers := (boxOf x hands id).answers ++
          (dropped.filter (·.replyTo == some id)).map fun _ => .lost } := by
  induction dropped generalizing x with
  | nil => simp [lose]
  | cons d rest ih =>
    change boxOf ((x.reply now d.replyTo .lost).lose now rest) hands id = _
    rw [ih, boxOf_reply]
    by_cases own : d.replyTo = some id <;> simp [own]

/-- When the receiver goes away, what was on the line comes back lost. -/
theorem boxOf_close (x : Exchange σ) (now : Instant) (hands : List Delivery) (id : Nat) :
    boxOf (x.close now) hands id =
      { boxOf x hands id with
        onLine := []
        answers := (boxOf x hands id).answers ++ (boxOf x hands id).onLine.map fun _ => .lost } := by
  simp only [close, Line.close, boxOf_lose]
  simp [boxOf]

theorem line_reply (x : Exchange σ) (now : Instant) (recipient : Option Nat) (verdict : Verdict) :
    (x.reply now recipient verdict).line = x.line := by
  cases recipient <;> rfl

theorem line_lose (x : Exchange σ) (now : Instant) (dropped : List Delivery) :
    (x.lose now dropped).line = x.line := by
  induction dropped generalizing x with
  | nil => rfl
  | cons d rest ih => exact (ih _).trans (line_reply ..)

theorem closed_close (x : Exchange σ) (now : Instant) : (x.close now).line.closed = true := by
  simp [close, line_lose, Line.close]

/-- A delivery that is taken was the first on the line. -/
theorem queue_of_pop? {line rest : Line} {d : Delivery} (popped : line.pop? = some (d, rest)) :
    line.queue = d :: rest.queue ∧ rest.closed = line.closed := by
  unfold Line.pop? at popped
  split at popped
  · cases popped
  · split at popped <;> cases popped <;> exact ⟨‹_›, rfl⟩

theorem boxOf_erase (x : Exchange σ) (hands : List Delivery) (d : Delivery) (id : Nat) :
    boxOf x (hands.erase d) id =
      { boxOf x hands id with inHand := (boxOf x hands id).inHand.erase d } := by
  simp only [boxOf, List.erase_filter]

theorem log_closing (id : Nat) (queue : List Delivery) :
    log id (.closed :: queue.map (.answered · .lost)) =
      .closed :: (queue.filter (·.replyTo == some id)).map (.answered · .lost) := by
  simp [log, Event.concerns, List.filter_map, Function.comp_def]

/-- Where the deliveries and the verdicts of a courier are. -/
abbrev box (post : Post σ) (id : Nat) : Box := boxOf post.exchange post.hands id

/-- What a courier sees of a move: the events about it, what becomes of its deliveries and verdicts, and
what becomes of itself. -/
inductive Sees (retry : Retry) (id : Nat) (post after : Post σ) : Move σ → List Event → Prop
  | nothing {move : Move σ} (couriers : after.couriers.get? id = post.couriers.get? id)
    (box : after.box id = post.box id) : Sees retry id post after move []
  | sent {m : Message} (free : post.couriers.get? id = none)
    (receiving : post.exchange.line.closed = false)
    (couriers : after.couriers.get? id = some { message := m }) (box : after.box id = post.box id) :
    Sees retry id post after (.send id m) [.sent id m]
  | stepped {m : Message} {phase : Courier.Phase} {next : Option Courier.Phase} {es : List Event}
    (there : post.couriers.get? id = some ⟨m, some phase⟩)
    (steps : Steps retry post.exchange id m phase after.exchange next es)
    (hands : after.hands = post.hands) (couriers : after.couriers.get? id = some ⟨m, next⟩) :
    Sees retry id post after (.step id) es
  | taken {d : Delivery} {rest : List Delivery}
    (couriers : after.couriers.get? id = post.couriers.get? id)
    (first : (post.box id).onLine = d :: rest)
    (box : after.box id =
      { post.box id with onLine := rest, inHand := (post.box id).inHand ++ [d] }) :
    Sees retry id post after .take [.taken d]
  | answered {d : Delivery} {verdict : Verdict}
    (couriers : after.couriers.get? id = post.couriers.get? id)
    (held : d ∈ (post.box id).inHand)
    (box : after.box id =
      { post.box id with
        inHand := (post.box id).inHand.erase d, answers := (post.box id).answers ++ [verdict] }) :
    Sees retry id post after (.answer d verdict) [.answered d verdict]
  | closed (couriers : after.couriers.get? id = post.couriers.get? id)
    (box : after.box id =
      { post.box id with
        onLine := []
        answers := (post.box id).answers ++ (post.box id).onLine.map fun _ => .lost }) :
    Sees retry id post after .close (.closed :: (post.box id).onLine.map (.answered · .lost))

/-- Every courier sees its part of a move. -/
theorem Makes.sees {post after : Post σ} {move : Move σ} (makes : Makes retry post move after es)
    (id : Nat) : Sees retry id post after move (log id es) := by
  cases makes with
  | quiet now line replies => exact .nothing rfl (by simp [box, boxOf, line, replies])
  | @sent n m free receiving =>
    by_cases own : id = n
    · subst n
      rw [log_own (by simp [Event.concerns])]
      exact .sent free receiving (SortedMap.get?_insert_self ..) rfl
    · rw [log_others (by simp [Event.concerns, Ne.symm own])]
      exact .nothing (SortedMap.get?_insert_of_ne _ _ own) rfl
  | @stepped n m phase exchange next there ready made =>
    have steps := steps_courierStep ready made
    by_cases own : id = n
    · subst n
      rw [steps.log_self]
      exact .stepped there steps rfl (SortedMap.get?_insert_self ..)
    · obtain ⟨box, others⟩ := steps.other own post.hands
      rw [others]
      exact .nothing (SortedMap.get?_insert_of_ne _ _ own) box
  | @taken d line popped =>
    obtain ⟨queue, -⟩ := queue_of_pop? popped
    by_cases own : d.replyTo = some id
    · rw [log_own (by simp [Event.concerns, own])]
      have first : (post.box id).onLine = d :: line.queue.filter (·.replyTo == some id) := by
        simp [boxOf, queue, own]
      exact .taken rfl first (by simp [boxOf, own])
    · rw [log_others (by simp [Event.concerns, own])]
      exact .nothing rfl (by simp [boxOf, queue, own])
  | @answered d verdict held =>
    by_cases own : d.replyTo = some id
    · rw [log_own (by simp [Event.concerns, own])]
      refine .answered rfl ?_ ?_
      · simp [boxOf, held, own]
      · simp [box, boxOf_reply, boxOf_erase, own]
    · have absent : d ∉ (post.box id).inHand := by simp [boxOf, own]
      rw [log_others (by simp [Event.concerns, own])]
      refine .nothing rfl ?_
      simp [box, boxOf_reply, boxOf_erase, own, List.erase_of_not_mem absent]
  | closed =>
    rw [log_closing]
    exact .closed rfl (boxOf_close ..)

/-! ### What holds at every moment -/

/-- What the events about a courier say holds of the post: either there is none yet, or its message is
at some stage. -/
inductive Follows (retry : Retry) (id : Nat) (post : Post σ) (log : List Event) : Prop
  | unsent (free : post.couriers.get? id = none) (empty : post.box id = {})
    (silent : ∀ e ∈ log, e = .closed)
  | sent {m : Message} {phase : Option Courier.Phase} {stage : Stage}
    (there : post.couriers.get? id = some ⟨m, phase⟩) (course : Course retry id m stage log)
    (stands : Stands retry stage phase) (box : post.box id = stage.box id m)

theorem Follows.next {post after : Post σ} {move : Move σ} {before : List Event}
    (sees : Sees retry id post after move es)
    (told : .closed ∈ before ↔ post.exchange.line.closed = true)
    (follows : Follows retry id post before) : Follows retry id after (before ++ es) := by
  cases follows with
  | unsent free empty silent =>
    cases sees with
    | nothing couriers box =>
      rw [List.append_nil]
      exact .unsent (couriers.trans free) (box.trans empty) silent
    | @sent m _ receiving couriers box =>
      -- while the receiver is there, a courier that has not been sent has no event behind it
      have nothing : before = [] := by
        refine List.eq_nil_iff_forall_not_mem.2 fun e among => ?_
        rw [silent e among, told, receiving] at among
        cases among
      subst nothing
      exact .sent couriers .sent .attempt (box.trans empty)
    | stepped there => simp [free] at there
    | taken _ first => simp [empty] at first
    | answered _ held => simp [empty] at held
    | closed couriers box =>
      refine .unsent (couriers.trans free) (by simp [box, empty]) ?_
      simpa [empty, or_imp, forall_and] using silent
  | @sent m phase stage there course stands boxed =>
    cases sees with
    | nothing couriers box =>
      rw [List.append_nil]
      exact .sent (couriers.trans there) course stands (box.trans boxed)
    | sent free => simp [there] at free
    | stepped found steps hands couriers =>
      obtain ⟨rfl, rfl⟩ : _ ∧ _ := by simpa using there.symm.trans found
      obtain ⟨later, course, stands, box⟩ := steps.own course stands told boxed
      exact .sent couriers course stands (by rw [Post.box, hands, box])
    | @taken d rest couriers first box =>
      rw [boxed] at first box
      cases stage with
      | onLine n =>
        obtain ⟨rfl, rfl⟩ := List.cons.inj first
        cases stands
        exact .sent (couriers.trans there) (.taken course) .inHand box
      | _ => cases first
    | @answered d verdict couriers held box =>
      rw [boxed] at held box
      cases stage with
      | inHand n =>
        obtain rfl := List.mem_singleton.1 held
        cases stands
        refine .sent (couriers.trans there) (.answered course) .answered ?_
        simpa [Stage.box] using box
      | _ => cases held
    | closed couriers box =>
      rw [boxed] at box ⊢
      cases stage with
      | onLine n =>
        cases stands
        exact .sent (couriers.trans there) (.dropped course) .answered box
      | _ =>
        exact .sent (couriers.trans there) (.closed course fun _ => Stage.noConfusion) stands
          (box.trans (by simp [Stage.box]))

theorem Steps.closed_eq {x after : Exchange σ} {m : Message} {phase : Courier.Phase}
    {next : Option Courier.Phase} (steps : Steps retry x id m phase after next es) :
    after.line.closed = x.line.closed ∧ .closed ∉ es := by
  cases steps <;> simp [Line.enlist, *]

/-- The history says everything that matters about the post. -/
structure Traced (retry : Retry) (history : List Event) (post : Post σ) : Prop where
  told : .closed ∈ history ↔ post.exchange.line.closed = true
  follows : ∀ id, Follows retry id post (log id history)

theorem Traced.next {history : List Event} {post after : Post σ} {move : Move σ}
    (traced : Traced retry history post) (makes : Makes retry post move after es) :
    Traced retry (history ++ es) after := by
  refine ⟨?_, fun id => ?_⟩
  · rw [List.mem_append, traced.told]
    cases makes with
    | stepped there ready made =>
      obtain ⟨same, quiet⟩ := (steps_courierStep ready made).closed_eq
      simp [same, quiet]
    | quiet _ line => simp [line]
    | taken popped => simp [(queue_of_pop? popped).2]
    | answered => simp [line_reply]
    | closed => simp [closed_close]
    | _ => simp
  · rw [log_append]
    exact (traced.follows id).next (makes.sees id) (closed_mem_log.trans traced.told)

theorem Traced.run {past : List Event} {post : Post σ} (traced : Traced retry past post)
    (moves : List (Move σ)) :
    Traced retry (past ++ history retry moves post) (Post.run retry moves post) := by
  induction moves generalizing past post with
  | nil => simpa [history] using traced
  | cons move rest ih => simpa [history] using ih (traced.next (makes_next retry post move))

end Post

end Replica
