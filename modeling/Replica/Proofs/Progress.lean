import Replica.Proofs.Turns
/-! Runs that come to an end. A turn moves a task aside, lets the clock go on or makes a step, and only
steps use up what there is to do. So a run ends if every step makes that less and, while it has not ended,
somebody can go on now or later. -/
namespace Replica

namespace Schedule

variable {σ τ : Type} {sys : TaskSystem σ τ} {s t : Schedule σ τ} {stop : Schedule σ τ → Bool}

theorem exists_turn (lives : s.running = [] → s.nextWake sys ≠ none) : ∃ t, s.turn sys = some t := by
  cases running : s.running with
  | cons task rest =>
    unfold turn
    simp only [running]
    split
    · split <;> exact ⟨_, rfl⟩
    · exact ⟨_, rfl⟩
  | nil =>
    obtain ⟨time, due⟩ := Option.ne_none_iff_exists'.1 (lives running)
    refine ⟨wake sys { s with now := max s.now time }, ?_⟩
    simp [turn, running, due]

/-- What makes a run come to its end: something that holds all the time, with a bound on the steps left. -/
structure Ends (sys : TaskSystem σ τ) (stop : Schedule σ τ → Bool) (holds : Nat → Schedule σ τ → Prop) :
    Prop where
  /-- A task goes on at the moment at which the clock lets it. -/
  wakes : ∀ now x id task time, sys.wakeAt task = some time → time ≤ now →
    sys.ready now x id task = true
  /-- Which tasks run and which wait does not matter. -/
  regroup : ∀ left s t, holds left s → t.now = s.now → t.shared = s.shared → t.nextId = s.nextId →
    t.tasks.Perm s.tasks → holds left t
  lives : ∀ left s, holds left s → stop s = false → s.running = [] → s.Parked sys → s.nextWake sys ≠ none
  later : ∀ left s time, holds left s → stop s = false → s.running = [] → s.Parked sys →
    s.nextWake sys = some time → holds left { s with now := max s.now time }
  step : ∀ left s t id task rest, holds left s → stop s = false → Steps sys s t id task rest →
    ∃ fewer < left, holds fewer t

/-- How many turns there can be before a step at most. -/
def delay (sys : TaskSystem σ τ) (s : Schedule σ τ) : Nat :=
  s.running.length +
    if s.running.any fun task => sys.ready s.now s.shared task.1 task.2 then 0 else s.tasks.length + 1

theorem delay_aside {task : Nat × τ} {rest : List (Nat × τ)} (running : s.running = task :: rest)
    (blocked : sys.ready s.now s.shared task.1 task.2 = false) :
    delay sys { s with running := rest, waiting := s.waiting ++ [task] } < delay sys s := by
  have same : (rest ++ (s.waiting ++ [task])).length = (task :: rest ++ s.waiting).length := by
    simp
    omega
  simp only [delay, tasks, running, List.any_cons, blocked, Bool.false_or, same, List.length_cons]
  omega

/-- When the clock goes on, it goes to a moment that lets somebody go on. -/
theorem delay_later {time : Instant} (wakes : ∀ now x id task time, sys.wakeAt task = some time →
    time ≤ now → sys.ready now x id task = true) (idle : s.running = [])
    (due : s.nextWake sys = some time) :
    delay sys (wake sys { s with now := max s.now time }) < delay sys s := by
  have first := List.min?_mem due
  obtain ⟨task, there, wakeAt⟩ := List.mem_filterMap.1 first
  have up : sys.ready (max s.now time) s.shared task.1 task.2 = true :=
    wakes _ _ _ _ time wakeAt (Nat.le_max_right ..)
  have running : (wake sys { s with now := max s.now time }).running =
      s.waiting.filter fun task => sys.ready (max s.now time) s.shared task.1 task.2 := by
    simp [wake, idle]
  have some : (s.waiting.filter fun task => sys.ready (max s.now time) s.shared task.1 task.2).any
      (fun task => sys.ready (max s.now time) s.shared task.1 task.2) = true :=
    List.any_eq_true.2 ⟨task, List.mem_filter.2 ⟨there, up⟩, up⟩
  have fewer := List.length_filter_le (fun task => sys.ready (max s.now time) s.shared task.1 task.2) s.waiting
  have before : delay sys s = s.waiting.length + 1 := by simp [delay, idle, tasks]
  have after : delay sys (wake sys { s with now := max s.now time }) =
      (s.waiting.filter fun task => sys.ready (max s.now time) s.shared task.1 task.2).length := by
    unfold delay
    rw [running]
    exact congrArg _ (if_pos some)
  omega

theorem parked_of_moves (parked : s.Parked sys) (moves : Moves sys s t) : t.Parked sys := by
  cases moves with
  | aside running blocked made =>
    subst made
    intro task there
    rcases List.mem_append.1 there with old | new
    · exact parked task old
    · obtain rfl := List.mem_singleton.1 new
      exact blocked
  | later idle due made =>
    rw [made]
    exact parked_wake sys _
  | step steps => exact steps.parked

/-- What holds and how many steps are left after a move that is not the last. Either there are fewer, or a step
is nearer. -/
theorem Ends.moves {holds : Nat → Schedule σ τ → Prop} (ends : Ends sys stop holds) {left : Nat}
    (before : holds left s) (parked : s.Parked sys) (goesOn : stop s = false) (moves : Moves sys s t) :
    ∃ fewer, holds fewer t ∧ (fewer < left ∨ fewer = left ∧ delay sys t < delay sys s) := by
  cases moves with
  | aside running blocked made =>
    subst made
    refine ⟨left, ends.regroup left s _ before rfl rfl rfl ?_, .inr ⟨rfl, delay_aside running blocked⟩⟩
    rw [tasks, tasks, running, ← List.append_assoc]
    exact List.perm_append_singleton ..
  | @later time idle due made =>
    subst made
    have holds := ends.later left s time before goesOn idle parked due
    exact ⟨left, ends.regroup _ _ _ holds rfl rfl rfl (tasks_wake ..), .inr ⟨rfl, delay_later ends.wakes idle due⟩⟩
  | step steps =>
    obtain ⟨fewer, less, holds⟩ := ends.step left s t _ _ _ before goesOn steps
    exact ⟨fewer, holds, .inl less⟩

/-- A run that can only go on for so many steps, and can go on until it ends, ends, however much more fuel
there is. -/
theorem Ends.exists_runUntil {holds : Nat → Schedule σ τ → Prop} (ends : Ends sys stop holds) {left : Nat}
    (start : holds left s) (parked : s.Parked sys) :
    ∃ fuel t left, holds left t ∧ stop t = true ∧ ∀ more, runUntil sys stop (more + fuel) s = some t := by
  induction left using Nat.strongRecOn generalizing s with
  | ind left fewer =>
    generalize wait : delay sys s = d
    induction d using Nat.strongRecOn generalizing s with
    | ind d sooner =>
      cases done : stop s with
      | true =>
        refine ⟨0, s, left, start, done, fun more => ?_⟩
        cases more <;> simp [runUntil, done]
      | false =>
        obtain ⟨t, turned⟩ := exists_turn fun idle => ends.lives left s start done idle parked
        have moves := moves_of_turn turned
        have still := parked_of_moves parked moves
        obtain ⟨after, then_, nearer⟩ := ends.moves start parked done moves
        obtain ⟨fuel, u, last, final, stopped, ran⟩ : ∃ fuel u last, holds last u ∧ stop u = true ∧
            ∀ more, runUntil sys stop (more + fuel) t = some u := by
          rcases nearer with less | ⟨rfl, less⟩
          · exact fewer after less then_ still
          · exact sooner _ (wait ▸ less) then_ still rfl
        refine ⟨fuel + 1, u, last, final, stopped, fun more => ?_⟩
        rw [← Nat.add_assoc, runUntil]
        simp [done, turned, ran]

/-! ### Runs whose turns are known -/

/-- The run goes on from one moment to another, and does not end before. -/
def Leads (sys : TaskSystem σ τ) (stop : Schedule σ τ → Bool) (s t : Schedule σ τ) : Prop :=
  ∃ turns, ∀ fuel, runUntil sys stop (fuel + turns) s = runUntil sys stop fuel t

theorem Leads.refl (s : Schedule σ τ) : Leads sys stop s s := ⟨0, fun _ => rfl⟩

theorem Leads.trans {u : Schedule σ τ} (first : Leads sys stop s t) (second : Leads sys stop t u) :
    Leads sys stop s u := by
  obtain ⟨m, first⟩ := first
  obtain ⟨n, second⟩ := second
  refine ⟨n + m, fun fuel => ?_⟩
  rw [← Nat.add_assoc, first, second]

theorem Leads.of_turn (goesOn : stop s = false) (turned : s.turn sys = some t) : Leads sys stop s t := by
  refine ⟨1, fun fuel => ?_⟩
  rw [runUntil]
  simp [goesOn, turned]

theorem wake_of_parked (parked : s.Parked sys) : wake sys s = s := by
  have none : s.waiting.filter (fun task => sys.ready s.now s.shared task.1 task.2) = [] :=
    List.filter_eq_nil_iff.2 fun task there => by simp [parked task there]
  have all : s.waiting.filter (fun task => !sys.ready s.now s.shared task.1 task.2) = s.waiting :=
    List.filter_eq_self.2 fun task there => by simp [parked task there]
  simp only [wake, List.partition_eq_filter_filter]
  change { s with running := _ ++ List.filter _ _, waiting := List.filter (fun task => !_) _ } = s
  rw [none, all, List.append_nil]

/-- A task that runs by itself, and lets nobody else go on, goes on by itself. -/
theorem turn_of_alone {id : Nat} {task later : τ} {shared : σ} (running : s.running = [(id, task)])
    (ready : sys.ready s.now s.shared id task = true)
    (made : sys.step s.now s.shared id task = { shared, next := some later })
    (parked : ∀ other ∈ s.waiting, sys.ready s.now shared other.1 other.2 = false) :
    s.turn sys = some (resume sys { s with shared, running := [] } id later) := by
  have still : ({ s with shared, running := [] } : Schedule σ τ).Parked sys := parked
  simp [turn, running, ready, made, spawn, wake_of_parked still]

theorem Leads.exists_runUntil (leads : Leads sys stop s t) (stopped : stop t = true) :
    ∃ fuel, ∀ more, runUntil sys stop (more + fuel) s = some t := by
  obtain ⟨turns, leads⟩ := leads
  refine ⟨turns, fun more => ?_⟩
  rw [leads]
  cases more <;> simp [runUntil, stopped]

end Schedule

end Replica
