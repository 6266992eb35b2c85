/-
  `PrioritizedTaskPool` of `server/task_pool.py`: tasks wait in two queues, first in
  `submitted_tasks` and then, moved there by `run`, in the priority queue `_ordered_tasks`.

  The runtime chooses between the pools by `priority`, which is to be that of the most important
  task.  It is a value in shared memory: `submit_task` lowers it, `load_batch_to_runtime` overwrites
  it with the first task that remains in `_ordered_tasks`.  The load does not look at the tasks that
  are still submitted, and when no task remains it leaves the value as it is.

  So the value is right exactly in the runs that avoid three steps (`run_priority_iff`): a task
  submitted to a drained pool that is less urgent than what the value was left at, a load that
  leaves an urgent task unmoved, and a load that empties `_ordered_tasks` while less urgent tasks
  wait unmoved.  The first of them is every second use of a pool (`stale_priority`).
-/
import Drift.Lib.Run
import Drift.Python
import Mathlib.Algebra.Order.Monoid.Unbundled.WithTop
import Mathlib.Data.Prod.Lex

namespace Drift

/-- `Task`.  Of the arguments it is the shapes that count; `R` are the floats, with infinity. -/
structure Task (R : Type) where
  priority : R
  timeSubmitted : R
  uid : Nat
  argShapes : List (List Nat)
deriving DecidableEq

/-- `PrioritizedTaskPool`, and how many batches its pipe counts. -/
structure PrioritizedTaskPool (R : Type) where
  maxBatchSize : Nat
  submittedTasks : List (Task R)
  orderedTasks : List (Task R)
  priority : R ×ₗ R
  batches : Nat

namespace PrioritizedTaskPool

variable {R : Type} [LinearOrder R]

/-- `(task.priority, task.time_submitted)`, by which tasks are compared. -/
def key (task : Task R) : R ×ₗ R := toLex (task.priority, task.timeSubmitted)

/-- `get_task_size`. -/
def getTaskSize (task : Task R) : Nat :=
  match task.argShapes.head? with
  | some (batchSize :: length :: _) => batchSize * length
  | _ => 1

/-- `__init__`. -/
def new [OrderTop R] (maxBatchSize : Nat) : PrioritizedTaskPool R :=
  ⟨maxBatchSize, [], [], toLex (⊤, ⊤), 0⟩

/-- `submit_task`.  A task that is too large only gets an exception. -/
def submitTask (pool : PrioritizedTaskPool R) (task : Task R) : PrioritizedTaskPool R :=
  if getTaskSize task > pool.maxBatchSize then pool
  else
    { pool with
      submittedTasks := pool.submittedTasks ++ [task]
      batches := pool.batches + 1
      priority := if key task < pool.priority then key task else pool.priority }

/-- A turn of the loop of `run`. -/
def moveTask (pool : PrioritizedTaskPool R) : Option (PrioritizedTaskPool R) :=
  match pool.submittedTasks with
  | [] => none
  | task :: tasks =>
    some { pool with submittedTasks := tasks, orderedTasks := task :: pool.orderedTasks }

/-- The priority queue hands out a task that none is less than; which one of equal tasks, is the
    choice of its heap.  The pipe has to have an entry for it. -/
def Loadable (pool : PrioritizedTaskPool R) (task : Task R) : Prop :=
  task ∈ pool.orderedTasks ∧ (∀ other ∈ pool.orderedTasks, key task ≤ key other) ∧ 0 < pool.batches

instance (pool : PrioritizedTaskPool R) (task : Task R) : Decidable (pool.Loadable task) :=
  inferInstanceAs (Decidable (task ∈ pool.orderedTasks ∧
    (∀ other ∈ pool.orderedTasks, key task ≤ key other) ∧ 0 < pool.batches))

/-- `load_batch_to_runtime`. -/
def loadBatchToRuntime (pool : PrioritizedTaskPool R) (task : Task R) :
    Option (PrioritizedTaskPool R) :=
  if pool.Loadable task then
    let orderedTasks := pool.orderedTasks.erase task
    some
      { pool with
        orderedTasks := orderedTasks
        batches := pool.batches - 1
        priority := (orderedTasks.map key).min?.getD pool.priority }
  else none

/-- `empty`. -/
def empty (pool : PrioritizedTaskPool R) : Bool := pool.batches == 0

inductive Action (R : Type) where
  | submit (task : Task R)
  | move
  | load (task : Task R)

def step (pool : PrioritizedTaskPool R) : Action R → Option (PrioritizedTaskPool R)
  | .submit task => some (pool.submitTask task)
  | .move => pool.moveTask
  | .load task => pool.loadBatchToRuntime task

/-- The tasks that are submitted and not loaded. -/
def waiting (pool : PrioritizedTaskPool R) : List (Task R) :=
  pool.submittedTasks ++ pool.orderedTasks

/-- `priority` is that of the most important task in the pool, if there is one. -/
def PriorityRight (pool : PrioritizedTaskPool R) : Prop :=
  ∀ first ∈ (pool.waiting.map key).min?, pool.priority = first

/-- The steps that keep the value right, from where it is. -/
def KeepsPriority (pool : PrioritizedTaskPool R) : Action R → Prop
  | .submit task =>
    getTaskSize task ≤ pool.maxBatchSize → pool.waiting = [] → key task ≤ pool.priority
  | .move => True
  | .load task => pool.Loadable task →
    (pool.orderedTasks.erase task ≠ [] → ∀ submitted ∈ pool.submittedTasks,
      ∃ ordered ∈ pool.orderedTasks.erase task, key ordered ≤ key submitted) ∧
    (pool.orderedTasks.erase task = [] → pool.submittedTasks ≠ [] →
      ∃ submitted ∈ pool.submittedTasks, key submitted ≤ key task)

instance (pool : PrioritizedTaskPool R) : Decidable pool.PriorityRight :=
  inferInstanceAs (Decidable (∀ first ∈ (pool.waiting.map key).min?, pool.priority = first))

instance (pool : PrioritizedTaskPool R) (action : Action R) :
    Decidable (pool.KeepsPriority action) :=
  match action with
  | .submit task => inferInstanceAs (Decidable
      (getTaskSize task ≤ pool.maxBatchSize → pool.waiting = [] → key task ≤ pool.priority))
  | .move => inferInstanceAs (Decidable True)
  | .load task => inferInstanceAs (Decidable (pool.Loadable task →
      (pool.orderedTasks.erase task ≠ [] → ∀ submitted ∈ pool.submittedTasks,
        ∃ ordered ∈ pool.orderedTasks.erase task, key ordered ≤ key submitted) ∧
      (pool.orderedTasks.erase task = [] → pool.submittedTasks ≠ [] →
        ∃ submitted ∈ pool.submittedTasks, key submitted ≤ key task)))

/-! ## The most important task -/

/-- `first` is the key of the most important of these tasks. -/
def IsFirst (first : R ×ₗ R) (tasks : List (Task R)) : Prop :=
  (∃ task ∈ tasks, key task = first) ∧ ∀ task ∈ tasks, first ≤ key task

theorem min?_eq_some_iff {first : R ×ₗ R} {tasks : List (Task R)} :
    (tasks.map key).min? = some first ↔ IsFirst first tasks := by
  rw [List.min?_eq_some_iff, List.mem_map, List.forall_mem_map]
  exact Iff.rfl

theorem exists_isFirst {tasks : List (Task R)} (h : tasks ≠ []) : ∃ first, IsFirst first tasks := by
  cases hmin : (tasks.map key).min? with
  | none => exact absurd (List.map_eq_nil_iff.mp (List.min?_eq_none_iff.mp hmin)) h
  | some first => exact ⟨first, min?_eq_some_iff.mp hmin⟩

theorem IsFirst.unique {first first' : R ×ₗ R} {tasks : List (Task R)} (h : IsFirst first tasks)
    (h' : IsFirst first' tasks) : first = first' := by
  obtain ⟨task, hmem, rfl⟩ := h.1
  obtain ⟨task', hmem', rfl⟩ := h'.1
  exact le_antisymm (h.2 task' hmem') (h'.2 task hmem)

theorem priorityRight_iff {pool : PrioritizedTaskPool R} :
    pool.PriorityRight ↔ (pool.waiting ≠ [] → IsFirst pool.priority pool.waiting) := by
  constructor
  · intro h hne
    obtain ⟨first, hfirst⟩ := exists_isFirst hne
    rw [h first (min?_eq_some_iff.mpr hfirst)]
    exact hfirst
  · intro h first hmin
    have hfirst := min?_eq_some_iff.mp hmin
    obtain ⟨task, hmem, -⟩ := hfirst.1
    exact (h (List.ne_nil_of_mem hmem)).unique hfirst

/-! ## One step -/

section Step

variable {pool pool' : PrioritizedTaskPool R} {task : Task R}

theorem submitTask_priority_iff (h : pool.PriorityRight) :
    (pool.submitTask task).PriorityRight ↔ pool.KeepsPriority (.submit task) := by
  rw [priorityRight_iff] at h ⊢
  by_cases hsize : getTaskSize task > pool.maxBatchSize
  · rw [submitTask, if_pos hsize]
    exact iff_of_true h fun hle => absurd hle (Nat.not_le.mpr hsize)
  · rw [submitTask, if_neg hsize]
    have hwaiting : ∀ other, other ∈ pool.submittedTasks ++ [task] ++ pool.orderedTasks ↔
        other = task ∨ other ∈ pool.waiting := by
      intro other
      rw [waiting]
      simp only [List.mem_append, List.mem_singleton]
      tauto
    show (pool.submittedTasks ++ [task] ++ pool.orderedTasks ≠ [] →
      IsFirst (if key task < pool.priority then key task else pool.priority)
        (pool.submittedTasks ++ [task] ++ pool.orderedTasks)) ↔
      (getTaskSize task ≤ pool.maxBatchSize → pool.waiting = [] → key task ≤ pool.priority)
    simp only [IsFirst, hwaiting]
    constructor
    · intro hfirst _ hnil
      obtain ⟨⟨other, hother, heq⟩, -⟩ := hfirst (by simp)
      -- the only task is the new one
      rcases hother with rfl | hother
      · split at heq
        · exact le_of_lt ‹_›
        · exact le_of_eq heq
      · rw [hnil] at hother
        nomatch hother
    · intro hkeeps _
      by_cases hlt : key task < pool.priority
      · rw [if_pos hlt]
        refine ⟨⟨task, Or.inl rfl, rfl⟩, ?_⟩
        rintro other (rfl | hother)
        · exact le_rfl
        · exact hlt.le.trans ((h (List.ne_nil_of_mem hother)).2 other hother)
      · rw [if_neg hlt]
        have hge := not_lt.mp hlt
        by_cases hnil : pool.waiting = []
        · have heq := le_antisymm (hkeeps (Nat.not_lt.mp hsize) hnil) hge
          refine ⟨⟨task, Or.inl rfl, heq⟩, ?_⟩
          rintro other (rfl | hother)
          · exact hge
          · rw [hnil] at hother
            nomatch hother
        · obtain ⟨⟨first, hmem, heq⟩, hle⟩ := h hnil
          refine ⟨⟨first, Or.inr hmem, heq⟩, ?_⟩
          rintro other (rfl | hother)
          · exact hge
          · exact hle other hother

/-- To move a task changes neither the tasks that wait nor the value. -/
theorem moveTask_priority (h : pool.PriorityRight) (hmove : pool.moveTask = some pool') :
    pool'.PriorityRight := by
  rw [moveTask] at hmove
  split at hmove
  · nomatch hmove
  · rename_i task tasks hsubmitted
    obtain rfl := Option.some.inj hmove
    have hperm : (tasks ++ task :: pool.orderedTasks).Perm pool.waiting := by
      rw [waiting, hsubmitted]
      exact List.perm_middle
    rw [priorityRight_iff] at h ⊢
    intro _
    have hmoved : task ∈ pool.waiting := hperm.mem_iff.mp (List.mem_append_right _ List.mem_cons_self)
    obtain ⟨⟨first, hmem, heq⟩, hle⟩ := h (List.ne_nil_of_mem hmoved)
    refine ⟨⟨first, hperm.mem_iff.mpr hmem, heq⟩, fun other hother => ?_⟩
    exact hle other (hperm.mem_iff.mp hother)

theorem loadBatch_priority_iff (h : pool.PriorityRight)
    (hload : pool.loadBatchToRuntime task = some pool') :
    pool'.PriorityRight ↔ pool.KeepsPriority (.load task) := by
  rw [loadBatchToRuntime] at hload
  split at hload
  · rename_i hguard
    have hmem := hguard.1
    obtain rfl := Option.some.inj hload
    have hwait : task ∈ pool.waiting := List.mem_append_right _ hmem
    obtain ⟨hexists, hle⟩ := priorityRight_iff.mp h (List.ne_nil_of_mem hwait)
    rw [priorityRight_iff]
    show (pool.submittedTasks ++ pool.orderedTasks.erase task ≠ [] →
      IsFirst (((pool.orderedTasks.erase task).map key).min?.getD pool.priority)
        (pool.submittedTasks ++ pool.orderedTasks.erase task)) ↔ (pool.Loadable task → _)
    rw [imp_iff_right hguard]
    by_cases hnil : pool.orderedTasks.erase task = []
    · -- the value stays what it was
      rw [hnil, List.append_nil]
      show (_ → IsFirst pool.priority pool.submittedTasks) ↔ _
      constructor
      · intro hfirst
        refine ⟨fun hne => absurd rfl hne, fun _ hne => ?_⟩
        obtain ⟨submitted, hsubmitted, heq⟩ := (hfirst hne).1
        exact ⟨submitted, hsubmitted, heq.trans_le (hle task hwait)⟩
      · rintro ⟨-, hbehind⟩ hne
        obtain ⟨submitted, hsubmitted, hkey⟩ := hbehind rfl hne
        have hall : ∀ other ∈ pool.submittedTasks, pool.priority ≤ key other :=
          fun other hother => hle other (List.mem_append_left _ hother)
        refine ⟨?_, hall⟩
        obtain ⟨first, hfirst, heq⟩ := hexists
        rcases List.mem_append.mp hfirst with hfirst | hfirst
        · exact ⟨first, hfirst, heq⟩
        · -- the loaded task was the first
          have hloaded : first = task := by
            by_contra hne
            have hrest := (List.mem_erase_of_ne hne).mpr hfirst
            rw [hnil] at hrest
            nomatch hrest
          rw [hloaded] at heq
          exact ⟨submitted, hsubmitted,
            le_antisymm (hkey.trans_eq heq) (hall submitted hsubmitted)⟩
    · obtain ⟨first, hfirst⟩ := exists_isFirst hnil
      rw [min?_eq_some_iff.mpr hfirst, Option.getD_some]
      constructor
      · intro h'
        have hall := (h' (by simp [hnil])).2
        refine ⟨fun _ submitted hsubmitted => ?_, fun hnil' => absurd hnil' hnil⟩
        obtain ⟨ordered, hordered, heq⟩ := hfirst.1
        exact ⟨ordered, hordered, heq.trans_le (hall submitted (List.mem_append_left _ hsubmitted))⟩
      · rintro ⟨hmoved, -⟩ _
        obtain ⟨ordered, hordered, heq⟩ := hfirst.1
        refine ⟨⟨ordered, List.mem_append_right _ hordered, heq⟩, fun other hother => ?_⟩
        rcases List.mem_append.mp hother with hother | hother
        · obtain ⟨ordered', hordered', hkey⟩ := hmoved hnil other hother
          exact (hfirst.2 ordered' hordered').trans hkey
        · exact hfirst.2 other hother
  · nomatch hload

/-- **One step** from a right value. -/
theorem step_priority_iff {action : Action R} (h : pool.PriorityRight)
    (hstep : step pool action = some pool') :
    pool'.PriorityRight ↔ pool.KeepsPriority action := by
  cases action with
  | submit task =>
    obtain rfl := Option.some.inj hstep
    exact submitTask_priority_iff h
  | move => exact iff_of_true (moveTask_priority h hstep) trivial
  | load task => exact loadBatch_priority_iff h hstep

end Step

/-- The pipe counts the tasks that wait. -/
theorem step_batches {pool pool' : PrioritizedTaskPool R} {action : Action R}
    (h : pool.batches = pool.waiting.length) (hstep : step pool action = some pool') :
    pool'.batches = pool'.waiting.length := by
  rw [waiting, List.length_append] at h ⊢
  cases action with
  | submit task =>
    obtain rfl := Option.some.inj hstep
    simp only [submitTask]
    split
    · exact h
    · simp only [List.length_append, List.length_singleton]
      omega
  | move =>
    simp only [step, moveTask] at hstep
    split at hstep
    · nomatch hstep
    · rename_i task tasks hsubmitted
      obtain rfl := Option.some.inj hstep
      simp only [hsubmitted, List.length_cons] at h ⊢
      omega
  | load task =>
    simp only [step, loadBatchToRuntime] at hstep
    split at hstep
    · rename_i hguard
      obtain rfl := Option.some.inj hstep
      have hlength := List.length_erase_of_mem hguard.1
      have hpos := List.length_pos_of_mem hguard.1
      simp only [hlength]
      omega
    · nomatch hstep

/-! ## Runs -/

/-- `empty` holds exactly when no task waits. -/
theorem run_empty_iff [OrderTop R] (maxBatchSize : Nat) (actions : List (Action R)) :
    AllStates step (fun pool => pool.empty = true ↔ pool.waiting = []) (new maxBatchSize)
      actions := by
  have hbatches : AllStates step (fun pool : PrioritizedTaskPool R =>
      pool.batches = pool.waiting.length) (new maxBatchSize) actions :=
    allStates_of_step (fun pool action pool' h hstep => step_batches h hstep) rfl
  refine hbatches.imp fun pool h => ?_
  rw [empty, h, beq_iff_eq, List.length_eq_zero_iff]

/-- **The value is right in a whole run** exactly if every step of the run keeps it right. -/
theorem run_priority_iff [OrderTop R] (maxBatchSize : Nat) (actions : List (Action R)) :
    AllStates step PriorityRight (new maxBatchSize) actions ↔
      AllSteps step KeepsPriority (new maxBatchSize) actions := by
  have hnew : (new maxBatchSize : PrioritizedTaskPool R).PriorityRight := by
    intro first hfirst
    nomatch hfirst
  refine allStates_iff_allSteps (D := fun _ _ => True)
    (fun pool action pool' h _ hstep => step_priority_iff h hstep) ?_ hnew
    (allSteps_of_forall (fun _ _ => trivial) actions _)
  intro pool action hstep
  cases action with
  | submit task => nomatch hstep
  | move => trivial
  | load task =>
    intro hloadable
    rw [step, loadBatchToRuntime, if_pos hloadable] at hstep
    nomatch hstep

/-- **A value left over**: a task is submitted, moved and loaded, and with it the pool is drained.
    The next one is less urgent, and the pool advertises the first still. -/
theorem stale_priority : ¬ AllStates step PriorityRight (new (R := WithTop Nat) 8)
    [.submit ⟨0, 1, 0, [[1, 1]]⟩, .move, .load ⟨0, 1, 0, [[1, 1]]⟩, .submit ⟨1, 2, 1, [[1, 1]]⟩] := by
  decide

end PrioritizedTaskPool

end Drift
