import Replica.Duration
/-! Tasks that take turns on shared state under one clock. A task goes on in atomic steps until it has
to wait. Tasks run in the order in which they became able to; the clock stands still while any can
run and then goes to the earliest moment that lets one. Everything is a function of the start. -/
namespace Replica

/-- What one step of a task leaves. -/
structure Turn (σ τ : Type) where
  /-- The shared state. -/
  shared : σ
  /-- What is left of the task. -/
  next : Option τ
  /-- New tasks. -/
  spawned : List τ := []

/-- How the tasks of one kind behave. -/
structure TaskSystem (σ τ : Type) where
  /-- Whether the task of this number can go on. -/
  ready : Instant → σ → Nat → τ → Bool
  /-- When the clock alone lets the task go on. -/
  wakeAt : τ → Option Instant
  /-- One atomic step of the task of this number. -/
  step : Instant → σ → Nat → τ → Turn σ τ

/-- A moment of a run: the clock, the shared state, and the tasks. -/
structure Schedule (σ τ : Type) where
  /-- The time. -/
  now : Instant := 0
  /-- The shared state. -/
  shared : σ
  /-- The number of the next new task. -/
  nextId : Nat := 0
  /-- The tasks that can run, in the order in which they will. -/
  running : List (Nat × τ) := []
  /-- The tasks that wait, in the order in which they began to. -/
  waiting : List (Nat × τ) := []

namespace Schedule

variable {σ τ : Type}

/-- Moves the tasks that no longer wait behind those that run. -/
def wake (sys : TaskSystem σ τ) (s : Schedule σ τ) : Schedule σ τ :=
  let (up, still) := s.waiting.partition fun task => sys.ready s.now s.shared task.1 task.2
  { s with running := s.running ++ up, waiting := still }

/-- Adds tasks, to run after all others. -/
def spawn (s : Schedule σ τ) (tasks : List τ) : Schedule σ τ :=
  { s with
    running := s.running ++ tasks.mapIdx fun i task => (s.nextId + i, task)
    nextId := s.nextId + tasks.length }

/-- Changes the shared state from outside. -/
def poke (sys : TaskSystem σ τ) (s : Schedule σ τ) (f : σ → σ) : Schedule σ τ :=
  wake sys { s with shared := f s.shared }

/-- Whether a task has not ended. -/
def has (s : Schedule σ τ) (id : Nat) : Bool :=
  s.running.any (·.1 == id) || s.waiting.any (·.1 == id)

/-- Ends tasks from outside. -/
def cancel (s : Schedule σ τ) (which : Nat → τ → Bool) : Schedule σ τ :=
  { s with
    running := s.running.filter fun task => !which task.1 task.2
    waiting := s.waiting.filter fun task => !which task.1 task.2 }

/-- Puts a task that has made a step where it belongs: it goes on at once if it can. -/
def resume (sys : TaskSystem σ τ) (s : Schedule σ τ) (id : Nat) (task : τ) : Schedule σ τ :=
  if sys.ready s.now s.shared id task then { s with running := (id, task) :: s.running }
  else { s with waiting := s.waiting ++ [(id, task)] }

/-- The earliest moment at which the clock lets a task go on. -/
def nextWake (sys : TaskSystem σ τ) (s : Schedule σ τ) : Option Instant :=
  (s.waiting.filterMap fun task => sys.wakeAt task.2).min?

/-- One step of the run: a step of the first task that can run, or of the clock; none if nothing can
ever happen. -/
def turn (sys : TaskSystem σ τ) (s : Schedule σ τ) : Option (Schedule σ τ) :=
  match s.running with
  | (id, task) :: rest =>
    if sys.ready s.now s.shared id task then
      let done := sys.step s.now s.shared id task
      let s := wake sys (spawn { s with shared := done.shared, running := rest } done.spawned)
      match done.next with
      | none => some s
      | some task => some (resume sys s id task)
    else some { s with running := rest, waiting := s.waiting ++ [(id, task)] }
  | [] =>
    match s.nextWake sys with
    | none => none
    | some time => some (wake sys { s with now := max s.now time })

/-- Runs until a condition holds; none if it does not within `fuel` steps or ever. -/
def runUntil (sys : TaskSystem σ τ) (stop : Schedule σ τ → Bool) :
    (fuel : Nat) → Schedule σ τ → Option (Schedule σ τ)
  | 0, s => if stop s then some s else none
  | fuel + 1, s =>
    if stop s then some s
    else
      match s.turn sys with
      | none => none
      | some s => runUntil sys stop fuel s

/-- Runs all tasks as far as they can go now. -/
def settle (sys : TaskSystem σ τ) (fuel : Nat) (s : Schedule σ τ) : Option (Schedule σ τ) :=
  runUntil sys (fun s => s.running.isEmpty) fuel s

end Schedule

end Replica
