import Replica.Schedule
import Mathlib.Data.List.Perm.Basic
/-! Runs of tasks without their order. A schedule makes its tasks take turns in one order, but whatever it
does is a step of the clock or of some task that can go on; what all such steps keep holds whatever the
order is. -/
namespace Replica

namespace Schedule

variable {σ τ : Type}

/-- The tasks that have not ended, those that can run first. -/
def tasks (s : Schedule σ τ) : List (Nat × τ) := s.running ++ s.waiting

/-- One step in whatever order: time passes, or a task that can go on makes a step. -/
inductive Goes (sys : TaskSystem σ τ) (s t : Schedule σ τ) : Prop
  | passed (later : s.now ≤ t.now) (shared : t.shared = s.shared) (nextId : t.nextId = s.nextId)
    (tasks : t.tasks.Perm s.tasks)
  | stepped {id : Nat} {task : τ} {rest : List (Nat × τ)} (among : s.tasks.Perm ((id, task) :: rest))
    (ready : sys.ready s.now s.shared id task = true) (now : t.now = s.now)
    (shared : t.shared = (sys.step s.now s.shared id task).shared)
    (nextId : t.nextId = s.nextId + (sys.step s.now s.shared id task).spawned.length)
    (tasks : t.tasks.Perm ((sys.step s.now s.shared id task).next.toList.map (id, ·) ++ rest ++
      (sys.step s.now s.shared id task).spawned.mapIdx fun i task => (s.nextId + i, task)))

theorem tasks_wake (sys : TaskSystem σ τ) (s : Schedule σ τ) : (wake sys s).tasks.Perm s.tasks := by
  simp only [wake, tasks, List.partition_eq_filter_filter, List.append_assoc]
  exact (List.filter_append_perm _ _).append_left _

theorem tasks_resume (sys : TaskSystem σ τ) (s : Schedule σ τ) (id : Nat) (task : τ) :
    (resume sys s id task).tasks.Perm ((id, task) :: s.tasks) := by
  unfold resume
  split
  · exact .refl _
  · rw [tasks, ← List.append_assoc]
    exact List.perm_append_singleton ..

theorem tasks_spawn (s : Schedule σ τ) (new : List τ) :
    (spawn s new).tasks.Perm (s.tasks ++ new.mapIdx fun i task => (s.nextId + i, task)) := by
  simp only [spawn, tasks, List.append_assoc]
  exact List.perm_append_comm.append_left _

theorem now_resume (sys : TaskSystem σ τ) (s : Schedule σ τ) (id : Nat) (task : τ) :
    (resume sys s id task).now = s.now := by
  unfold resume
  split <;> rfl

theorem shared_resume (sys : TaskSystem σ τ) (s : Schedule σ τ) (id : Nat) (task : τ) :
    (resume sys s id task).shared = s.shared := by
  unfold resume
  split <;> rfl

theorem nextId_resume (sys : TaskSystem σ τ) (s : Schedule σ τ) (id : Nat) (task : τ) :
    (resume sys s id task).nextId = s.nextId := by
  unfold resume
  split <;> rfl

section Moves

variable {sys : TaskSystem σ τ} {s t : Schedule σ τ}

/-- Nobody who waits could go on. -/
def Parked (sys : TaskSystem σ τ) (s : Schedule σ τ) : Prop :=
  ∀ task ∈ s.waiting, sys.ready s.now s.shared task.1 task.2 = false

theorem parked_wake (sys : TaskSystem σ τ) (s : Schedule σ τ) : (wake sys s).Parked sys := by
  intro task there
  simp only [wake, List.partition_eq_filter_filter, List.mem_filter] at there
  simpa [wake] using there.2

theorem parked_resume {id : Nat} {task : τ} (parked : s.Parked sys) : (resume sys s id task).Parked sys := by
  intro other there
  rw [now_resume, shared_resume]
  unfold resume at there
  split at there
  · exact parked other there
  · rename_i blocked
    rcases List.mem_append.1 there with old | new
    · exact parked other old
    · obtain rfl := List.mem_singleton.1 new
      simpa using blocked

/-- The first task makes a step. -/
structure Steps (sys : TaskSystem σ τ) (s t : Schedule σ τ) (id : Nat) (task : τ)
    (rest : List (Nat × τ)) : Prop where
  running : s.running = (id, task) :: rest
  ready : sys.ready s.now s.shared id task = true
  now : t.now = s.now
  shared : t.shared = (sys.step s.now s.shared id task).shared
  nextId : t.nextId = s.nextId + (sys.step s.now s.shared id task).spawned.length
  tasks : t.tasks.Perm ((sys.step s.now s.shared id task).next.toList.map (id, ·) ++ (rest ++ s.waiting) ++
    (sys.step s.now s.shared id task).spawned.mapIdx fun i task => (s.nextId + i, task))
  parked : t.Parked sys

/-- What a turn is. -/
inductive Moves (sys : TaskSystem σ τ) (s t : Schedule σ τ) : Prop
  /-- The first task cannot go on any more. -/
  | aside {task : Nat × τ} {rest : List (Nat × τ)} (running : s.running = task :: rest)
    (blocked : sys.ready s.now s.shared task.1 task.2 = false)
    (made : t = { s with running := rest, waiting := s.waiting ++ [task] })
  /-- Nobody can go on before this time. -/
  | later {time : Instant} (idle : s.running = []) (due : s.nextWake sys = some time)
    (made : t = wake sys { s with now := max s.now time })
  | step {id : Nat} {task : τ} {rest : List (Nat × τ)} (steps : Steps sys s t id task rest)

theorem moves_of_turn (turned : s.turn sys = some t) : Moves sys s t := by
  unfold turn at turned
  split at turned
  · rename_i id task rest running
    split at turned
    · rename_i ready
      have left := tasks_spawn
        { s with shared := (sys.step s.now s.shared id task).shared, running := rest }
        (sys.step s.now s.shared id task).spawned
      cases next : (sys.step s.now s.shared id task).next with
      | none =>
        simp only [next, Option.some.injEq] at turned
        subst turned
        refine .step ⟨running, ready, rfl, rfl, rfl, ?_, parked_wake _ _⟩
        rw [next]
        exact (tasks_wake ..).trans left
      | some later =>
        simp only [next, Option.some.injEq] at turned
        subst turned
        refine .step ⟨running, ready, now_resume .., shared_resume .., nextId_resume .., ?_,
          parked_resume (parked_wake _ _)⟩
        rw [next]
        exact (tasks_resume ..).trans (((tasks_wake ..).trans left).cons _)
    · rename_i blocked
      obtain rfl := Option.some.inj turned
      exact .aside running (by simpa using blocked) rfl
  · rename_i idle
    split at turned
    · cases turned
    · rename_i due
      obtain rfl := Option.some.inj turned
      exact .later idle due rfl

theorem Steps.among {id : Nat} {task : τ} {rest : List (Nat × τ)} (steps : Steps sys s t id task rest) :
    s.tasks.Perm ((id, task) :: (rest ++ s.waiting)) := by
  rw [Schedule.tasks, steps.running, List.cons_append]

theorem Steps.mem_tasks {id : Nat} {task : τ} {rest : List (Nat × τ)} (steps : Steps sys s t id task rest) :
    (id, task) ∈ s.tasks :=
  steps.among.mem_iff.2 List.mem_cons_self

end Moves

/-- Every turn is a step in some order. -/
theorem goes_of_turn {sys : TaskSystem σ τ} {s t : Schedule σ τ} (turned : s.turn sys = some t) :
    Goes sys s t := by
  cases moves_of_turn turned with
  | @aside task rest running blocked made =>
    subst made
    refine .passed (Nat.le_refl _) rfl rfl ?_
    rw [tasks, tasks, running, ← List.append_assoc]
    exact List.perm_append_singleton ..
  | later idle due made =>
    subst made
    exact .passed (Nat.le_max_left ..) rfl rfl (tasks_wake ..)
  | step steps => exact .stepped steps.among steps.ready steps.now steps.shared steps.nextId steps.tasks

/-- What every step keeps, in whatever order, a run until a condition holds keeps. -/
theorem of_runUntil {sys : TaskSystem σ τ} {stop : Schedule σ τ → Bool} {fuel : Nat} {s t : Schedule σ τ}
    (holds : Schedule σ τ → Prop) (keeps : ∀ s t, Goes sys s t → holds s → holds t) (before : holds s)
    (ran : runUntil sys stop fuel s = some t) : holds t := by
  induction fuel generalizing s with
  | zero =>
    unfold runUntil at ran
    split at ran
    · obtain rfl := Option.some.inj ran
      exact before
    · cases ran
  | succ fuel ih =>
    unfold runUntil at ran
    split at ran
    · obtain rfl := Option.some.inj ran
      exact before
    · split at ran
      · cases ran
      · rename_i turned
        exact ih (keeps _ _ (goes_of_turn turned) before) ran

/-- A run until a condition holds comes back only when it does. -/
theorem stop_of_runUntil {sys : TaskSystem σ τ} {stop : Schedule σ τ → Bool}
    {fuel : Nat} {s t : Schedule σ τ} (ran : runUntil sys stop fuel s = some t) : stop t = true := by
  induction fuel generalizing s with
  | zero =>
    unfold runUntil at ran
    split at ran
    · obtain rfl := Option.some.inj ran
      assumption
    · cases ran
  | succ fuel ih =>
    unfold runUntil at ran
    split at ran
    · obtain rfl := Option.some.inj ran
      assumption
    · split at ran
      · cases ran
      · exact ih ran

/-- No two tasks have the same number, and new tasks get new numbers. -/
structure Numbered (s : Schedule σ τ) : Prop where
  distinct : (s.tasks.map (·.1)).Nodup
  below : ∀ id ∈ s.tasks.map (·.1), id < s.nextId

theorem ids_spawned (first : Nat) (new : List τ) :
    (new.mapIdx fun i task => (first + i, task)).map (·.1) = List.range' first new.length := by
  apply List.ext_getElem
  · simp
  · intro i _ _
    simp

theorem Numbered.spawned {ids : List Nat} {first : Nat} (distinct : ids.Nodup)
    (below : ∀ id ∈ ids, id < first) (count : Nat) :
    (ids ++ List.range' first count).Nodup ∧
      ∀ id ∈ ids ++ List.range' first count, id < first + count := by
  refine ⟨List.nodup_append.2 ⟨distinct, List.nodup_range', ?_⟩, ?_⟩
  · intro id early new late
    have less := below id early
    have more := List.mem_range'_1.1 late
    omega
  · intro id among
    rcases List.mem_append.1 among with early | late
    · have less := below id early
      omega
    · exact (List.mem_range'_1.1 late).2

theorem Numbered.of_perm {s t : Schedule σ τ} (numbered : s.Numbered) (tasks : t.tasks.Perm s.tasks)
    (nextId : t.nextId = s.nextId) : t.Numbered := by
  have ids := tasks.map (·.1)
  refine ⟨ids.nodup_iff.2 numbered.distinct, fun id there => ?_⟩
  rw [nextId]
  exact numbered.below id (ids.mem_iff.1 there)

theorem Numbered.spawn {s : Schedule σ τ} (numbered : s.Numbered) (new : List τ) :
    (s.spawn new).Numbered := by
  have ids := (tasks_spawn s new).map (·.1)
  rw [List.map_append, ids_spawned] at ids
  obtain ⟨distinct, below⟩ := Numbered.spawned numbered.distinct numbered.below new.length
  exact ⟨ids.nodup_iff.2 distinct, fun id there => below id (ids.mem_iff.1 there)⟩

theorem Numbered.goes {sys : TaskSystem σ τ} {s t : Schedule σ τ} (numbered : s.Numbered)
    (goes : Goes sys s t) : t.Numbered := by
  cases goes with
  | passed _ _ nextId tasks => exact numbered.of_perm tasks nextId
  | @stepped id task rest among _ _ _ nextId tasks =>
    generalize sys.step s.now s.shared id task = done at nextId tasks
    have before := among.map (·.1)
    have ids := tasks.map (·.1)
    rw [List.map_append, ids_spawned] at ids
    -- the task that made the step keeps its number or is gone
    have fewer : ((done.next.toList.map (id, ·) ++ rest).map (·.1)).Sublist
        (((id, task) :: rest).map (·.1)) := by
      cases done.next <;> simp
    have distinct := (before.nodup_iff.1 numbered.distinct).sublist fewer
    have below := fun n there => numbered.below n (before.mem_iff.2 (fewer.subset there))
    obtain ⟨distinct, below⟩ := Numbered.spawned distinct below done.spawned.length
    refine ⟨ids.nodup_iff.2 distinct, fun n there => ?_⟩
    rw [nextId]
    exact below n (ids.mem_iff.1 there)

end Schedule

end Replica
