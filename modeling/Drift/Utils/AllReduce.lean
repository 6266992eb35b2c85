/-
  `AllReduce` of `communications.py`: the ranks of a tensor-parallel block sum up their outputs.

  Every rank is a thread.  It cuts its tensor and appends a part to the list of every rank, the rank
  itself included; the one that finds a list full sets the event of that list, and the owner of the
  list reduces it and clears the list and the event for the next call.  Then the reduced parts are
  gathered through three objects that the last rank to come replaces.  There is no barrier, and the
  same object serves one call after another: a rank may be in its next call while another is still
  in this one.

  A step is one access to what the threads share, and the scheduler says whose turn it is.  The
  numbers of `Lib/Rounds` say what a rank has done so far: `count` for the stages, `appends` for the
  parts.
-/
import Drift.Lib.Rounds
import Drift.Lib.Run
import Mathlib.Logic.Function.Basic

namespace Drift

/-- The operations that the collective is made of, for tensors `T` that are cut into parts `X`. -/
structure AllReduce (T X Y : Type) where
  worldSize : Nat
  /-- `x.flatten().tensor_split(world_size)` -/
  split : T → Nat → X
  reduceOp : List X → X
  /-- `gather_op(parts, x.device).view_as(x)` -/
  gatherOp : List (Option X) → T → Y

namespace AllReduce

/-- Where a rank is in `__call__`; `checkFull` and `checkUpdated` are the comparisons of a
    length. -/
inductive Pc where
  | append (i : Nat)
  | checkFull (i : Nat)
  | setReady (i : Nat)
  | waitReady
  | reduce
  | clearParts
  | clearReady
  | copyParts
  | copyUpdated
  | copyReady
  | putPart
  | appendRank
  | checkUpdated
  | setGather
  | waitGather
  | gather
  | checkLast
  | newParts
  | newUpdated
  | newReady
  | ret
deriving DecidableEq, Repr

/-- A rank: its place, its local variables and what its calls have returned. -/
structure Rank (X Y : Type) where
  round : Nat := 0
  pc : Pc := .append 0
  reducedPart : Option X := none
  parts : Nat := 0
  ranksUpdated : Nat := 0
  partsReady : Nat := 0
  gathered : Option Y := none
  returned : List Y := []

/-- What the ranks share.  The lists and events that `AllGather` makes are numbered in the order in
    which they are made; its properties are the numbers of those that are in use. -/
structure State (X Y : Type) where
  tensorParts : Nat → List X := fun _ => []
  scatterReady : Nat → Bool := fun _ => false
  parts : Nat := 0
  ranksUpdated : Nat := 0
  partsReady : Nat := 0
  partsAt : Nat → Nat → Option X := fun _ _ => none
  ranksUpdatedAt : Nat → List Nat := fun _ => []
  partsReadyAt : Nat → Bool := fun _ => false
  ranks : Nat → Rank X Y := fun _ => {}

variable {T X Y : Type}

def State.put (rank : Nat) (r : Rank X Y) (s : State X Y) : State X Y :=
  { s with ranks := Function.update s.ranks rank r }

/-- On with the loop over the parts. -/
def nextPart (op : AllReduce T X Y) (i : Nat) : Pc :=
  if i + 1 < op.worldSize then .append (i + 1) else .waitReady

/-- One step of a rank, if it is not waiting; `xs rank returned` is what the rank calls with after
    its calls so far have returned `returned`. -/
def step (op : AllReduce T X Y) (xs : Nat → List Y → T) (s : State X Y) (rank : Nat) :
    Option (State X Y) :=
  let r := s.ranks rank
  let x := xs rank r.returned
  if rank < op.worldSize then
    match r.pc with
    | .append i =>
      some (State.put rank { r with pc := .checkFull i } { s with
        tensorParts := Function.update s.tensorParts i (s.tensorParts i ++ [op.split x i]) })
    | .checkFull i =>
      if (s.tensorParts i).length = op.worldSize then
        some (s.put rank { r with pc := .setReady i })
      else
        some (s.put rank { r with pc := op.nextPart i })
    | .setReady i =>
      some (State.put rank { r with pc := op.nextPart i } { s with
        scatterReady := Function.update s.scatterReady i true })
    | .waitReady =>
      if s.scatterReady rank then some (s.put rank { r with pc := .reduce }) else none
    | .reduce =>
      some (s.put rank { r with
        reducedPart := some (op.reduceOp (s.tensorParts rank)), pc := .clearParts })
    | .clearParts =>
      some (State.put rank { r with pc := .clearReady } { s with
        tensorParts := Function.update s.tensorParts rank [] })
    | .clearReady =>
      some (State.put rank { r with pc := .copyParts } { s with
        scatterReady := Function.update s.scatterReady rank false })
    | .copyParts => some (s.put rank { r with parts := s.parts, pc := .copyUpdated })
    | .copyUpdated => some (s.put rank { r with ranksUpdated := s.ranksUpdated, pc := .copyReady })
    | .copyReady => some (s.put rank { r with partsReady := s.partsReady, pc := .putPart })
    | .putPart =>
      some (State.put rank { r with pc := .appendRank } { s with
        partsAt := Function.update s.partsAt r.parts
          (Function.update (s.partsAt r.parts) rank r.reducedPart) })
    | .appendRank =>
      some (State.put rank { r with pc := .checkUpdated } { s with
        ranksUpdatedAt := Function.update s.ranksUpdatedAt r.ranksUpdated
          (s.ranksUpdatedAt r.ranksUpdated ++ [rank]) })
    | .checkUpdated =>
      if (s.ranksUpdatedAt r.ranksUpdated).length = op.worldSize then
        some (s.put rank { r with pc := .setGather })
      else
        some (s.put rank { r with pc := .waitGather })
    | .setGather =>
      some (State.put rank { r with pc := .waitGather } { s with
        partsReadyAt := Function.update s.partsReadyAt r.partsReady true })
    | .waitGather =>
      if s.partsReadyAt r.partsReady then some (s.put rank { r with pc := .gather }) else none
    | .gather =>
      some (s.put rank { r with
        gathered := some (op.gatherOp ((List.range op.worldSize).map (s.partsAt r.parts)) x),
        pc := .checkLast })
    | .checkLast =>
      if (s.ranksUpdatedAt r.ranksUpdated).getLast? = some rank then
        some (s.put rank { r with pc := .newParts })
      else
        some (s.put rank { r with pc := .ret })
    | .newParts =>
      some (State.put rank { r with pc := .newUpdated } { s with parts := s.parts + 1 })
    | .newUpdated =>
      some (State.put rank { r with pc := .newReady } { s with ranksUpdated := s.ranksUpdated + 1 })
    | .newReady =>
      some (State.put rank { r with pc := .ret } { s with partsReady := s.partsReady + 1 })
    | .ret =>
      some (s.put rank { r with
        round := r.round + 1, pc := .append 0, returned := r.returned ++ r.gathered.toList })
  else
    none

/-! ## What a rank has done -/

/-- The stages of a call, in order; the loop over the parts is the first. -/
def Pc.stage : Pc → Nat
  | .append _ | .checkFull _ | .setReady _ | .waitReady => 0
  | .reduce => 1
  | .clearParts => 2
  | .clearReady => 3
  | .copyParts => 4
  | .copyUpdated => 5
  | .copyReady => 6
  | .putPart => 7
  | .appendRank => 8
  | .checkUpdated => 9
  | .setGather => 10
  | .waitGather => 11
  | .gather => 12
  | .checkLast => 13
  | .newParts => 14
  | .newUpdated => 15
  | .newReady => 16
  | .ret => 17

/-- In this call the `i`-th part has been appended. -/
def Pc.hasAppended (i : Nat) : Pc → Bool
  | .append j => i < j
  | .checkFull j | .setReady j => i ≤ j
  | _ => true

/-- How often rank `t` has been through a stage. -/
def State.count (s : State X Y) (t : Nat) (pc : Pc) : Nat :=
  passes (s.ranks t).round (s.ranks t).pc.stage pc.stage

/-- How often rank `t` has appended an `i`-th part. -/
def State.appends (s : State X Y) (t i : Nat) : Nat :=
  (s.ranks t).round + if (s.ranks t).pc.hasAppended i then 1 else 0

/-- A rank that is about to set an event that its owner has cleared since. -/
def lateSet (s : State X Y) (rank : Nat) : Bool :=
  match (s.ranks rank).pc with
  | .setReady i => (s.ranks rank).round < s.count i .clearReady
  | _ => false

/-! ## What a step does -/

@[simp] theorem State.put_ranks_self (s : State X Y) (rank : Nat) (r : Rank X Y) :
    (s.put rank r).ranks rank = r := Function.update_self ..

theorem State.put_ranks_ne (s : State X Y) {rank t : Nat} (r : Rank X Y) (h : t ≠ rank) :
    (s.put rank r).ranks t = s.ranks t := Function.update_of_ne h ..

variable {op : AllReduce T X Y} {xs : Nat → List Y → T} {s s' : State X Y} {rank t i : Nat}

theorem lt_of_step (h : op.step xs s rank = some s') : rank < op.worldSize := by
  unfold step at h
  split at h
  · assumption
  · cases h

/-- A step moves one rank. -/
theorem step_ranks_ne (h : op.step xs s rank = some s') (ht : t ≠ rank) :
    s'.ranks t = s.ranks t := by
  have hlt := lt_of_step h
  cases hpc : (s.ranks rank).pc <;> simp only [step, hpc, if_pos hlt] at h
  all_goals first | split at h | skip
  all_goals cases h <;> exact State.put_ranks_ne _ _ ht

/-- The stages that no call leaves out. -/
def Pc.counted : Pc → Bool
  | .waitReady | .reduce | .clearParts | .clearReady | .copyParts | .copyUpdated | .copyReady
  | .putPart | .appendRank | .checkUpdated | .waitGather | .gather | .checkLast | .ret => true
  | _ => false

theorem nextPart_stage (i : Nat) : (op.nextPart i).stage = 0 := by
  unfold nextPart
  split <;> rfl

/-- Once a rank is past the append to part `i`, it has appended to every part up to `i`. -/
theorem nextPart_hasAppended {i j : Nat} (hj : j < op.worldSize) :
    (op.nextPart i).hasAppended j = decide (j ≤ i) := by
  unfold nextPart
  split
  · show decide (j < i + 1) = decide (j ≤ i)
    rw [decide_eq_decide]
    omega
  · show true = decide (j ≤ i)
    rw [eq_comm, decide_eq_true_eq]
    omega

theorem step_count_self {pc : Pc} (h : op.step xs s rank = some s') (hp : pc.counted = true) :
    s'.count rank pc = s.count rank pc + if (s.ranks rank).pc = pc then 1 else 0 := by
  have hlt := lt_of_step h
  unfold State.count
  cases hpc : (s.ranks rank).pc <;> simp only [step, hpc, if_pos hlt] at h
  all_goals first | split at h | skip
  all_goals cases h
  all_goals simp only [State.put_ranks_self, nextPart_stage]
  all_goals cases pc <;> first | exact absurd hp Bool.false_ne_true | rfl

/-- A step counts for the stage that it is. -/
theorem step_count {pc : Pc} (h : op.step xs s rank = some s') (hp : pc.counted = true) (t : Nat) :
    s'.count t pc = s.count t pc + if t = rank ∧ (s.ranks rank).pc = pc then 1 else 0 := by
  by_cases ht : t = rank
  · subst ht
    simpa using step_count_self h hp
  · rw [if_neg fun hand => ht hand.1]
    unfold State.count
    rw [step_ranks_ne h ht]
    rfl

/-- A counter only moves when its own statement is run. -/
theorem step_count_of_ne {pc : Pc} (h : op.step xs s rank = some s') (hp : pc.counted = true)
    (hpc : (s.ranks rank).pc ≠ pc) (t : Nat) : s'.count t pc = s.count t pc := by
  rw [step_count h hp, if_neg fun hand => hpc hand.2]
  rfl

theorem step_round_self (h : op.step xs s rank = some s') :
    (s'.ranks rank).round = (s.ranks rank).round + if (s.ranks rank).pc = .ret then 1 else 0 := by
  have hlt := lt_of_step h
  cases hpc : (s.ranks rank).pc <;> simp only [step, hpc, if_pos hlt] at h
  all_goals first | split at h | skip
  all_goals cases h
  all_goals simp only [State.put_ranks_self]
  all_goals rfl

/-- An append counts once, for the part it went to. -/
theorem step_appends_self (h : op.step xs s rank = some s') (hi : i < op.worldSize) :
    s'.appends rank i = s.appends rank i + if (s.ranks rank).pc = .append i then 1 else 0 := by
  have hlt := lt_of_step h
  unfold State.appends
  cases hpc : (s.ranks rank).pc <;> simp only [step, hpc, if_pos hlt] at h
  case append j =>
    cases h
    simp only [State.put_ranks_self, Pc.hasAppended, decide_eq_true_eq, Pc.append.injEq]
    split <;> split <;> split <;> omega
  case checkFull j =>
    split at h <;> cases h <;> simp only [State.put_ranks_self, nextPart_hasAppended hi] <;> rfl
  case setReady j =>
    cases h
    simp only [State.put_ranks_self, nextPart_hasAppended hi]
    rfl
  all_goals first | split at h | skip
  all_goals cases h
  all_goals simp only [State.put_ranks_self]
  all_goals rfl

/-- A part counts when it is appended. -/
theorem step_appends (h : op.step xs s rank = some s') (hi : i < op.worldSize) (t : Nat) :
    s'.appends t i = s.appends t i + if t = rank ∧ (s.ranks rank).pc = .append i then 1 else 0 := by
  by_cases ht : t = rank
  · subst ht
    simpa using step_appends_self h hi
  · rw [if_neg fun hand => ht hand.1]
    unfold State.appends
    rw [step_ranks_ne h ht]
    rfl

theorem step_appends_of_ne (h : op.step xs s rank = some s') (hi : i < op.worldSize)
    (hpc : (s.ranks rank).pc ≠ .append i) (t : Nat) : s'.appends t i = s.appends t i := by
  rw [step_appends h hi, if_neg fun hand => hpc hand.2]
  rfl

/-! ## What a step leaves alone -/

/-- Only an append to it or its owner's clearing changes a list of parts. -/
theorem step_tensorParts (h : op.step xs s rank = some s')
    (happend : (s.ranks rank).pc ≠ .append i)
    (hclear : ¬ (i = rank ∧ (s.ranks rank).pc = .clearParts)) :
    s'.tensorParts i = s.tensorParts i := by
  have hlt := lt_of_step h
  cases hpc : (s.ranks rank).pc <;> simp only [step, hpc, if_pos hlt] at h
  case append j =>
    cases h
    exact Function.update_of_ne (fun hij : i = j => happend (hij ▸ hpc)) ..
  case clearParts =>
    cases h
    exact Function.update_of_ne (fun hi => hclear ⟨hi, hpc⟩) ..
  all_goals first | split at h | skip
  all_goals cases h
  all_goals rfl

/-- Only a `set()` or its owner's `clear()` changes an event of the scatter half. -/
theorem step_scatterReady (h : op.step xs s rank = some s')
    (hset : (s.ranks rank).pc ≠ .setReady i)
    (hclear : ¬ (i = rank ∧ (s.ranks rank).pc = .clearReady)) :
    s'.scatterReady i = s.scatterReady i := by
  have hlt := lt_of_step h
  cases hpc : (s.ranks rank).pc <;> simp only [step, hpc, if_pos hlt] at h
  case setReady j =>
    cases h
    exact Function.update_of_ne (fun hij : i = j => hset (hij ▸ hpc)) ..
  case clearReady =>
    cases h
    exact Function.update_of_ne (fun hi => hclear ⟨hi, hpc⟩) ..
  all_goals first | split at h | skip
  all_goals cases h
  all_goals rfl

/-- The objects of `AllGather` change at three steps, its properties at three others. -/
theorem step_gather (h : op.step xs s rank = some s') :
    ((s.ranks rank).pc ≠ .putPart → s'.partsAt = s.partsAt) ∧
    ((s.ranks rank).pc ≠ .appendRank → s'.ranksUpdatedAt = s.ranksUpdatedAt) ∧
    ((s.ranks rank).pc ≠ .setGather → s'.partsReadyAt = s.partsReadyAt) := by
  have hlt := lt_of_step h
  cases hpc : (s.ranks rank).pc <;> simp only [step, hpc, if_pos hlt] at h
  all_goals first | split at h | skip
  all_goals cases h
  all_goals refine ⟨fun hne => ?_, fun hne => ?_, fun hne => ?_⟩
  all_goals first | rfl | exact absurd rfl hne

/-- What a step does to the shared references: each is renewed by its own statement. -/
theorem step_properties (h : op.step xs s rank = some s') :
    s'.parts = s.parts + (if (s.ranks rank).pc = .newParts then 1 else 0) ∧
    s'.ranksUpdated = s.ranksUpdated + (if (s.ranks rank).pc = .newUpdated then 1 else 0) ∧
    s'.partsReady = s.partsReady + (if (s.ranks rank).pc = .newReady then 1 else 0) := by
  have hlt := lt_of_step h
  cases hpc : (s.ranks rank).pc <;> simp only [step, hpc, if_pos hlt] at h
  all_goals first | split at h | skip
  all_goals cases h
  all_goals exact ⟨rfl, rfl, rfl⟩

/-- What a step does to a rank's local variables: each is assigned by its own statement. -/
theorem step_locals (h : op.step xs s rank = some s') :
    (s'.ranks rank).parts
      = (if (s.ranks rank).pc = .copyParts then s.parts else (s.ranks rank).parts) ∧
    (s'.ranks rank).ranksUpdated
      = (if (s.ranks rank).pc = .copyUpdated then s.ranksUpdated else (s.ranks rank).ranksUpdated) ∧
    (s'.ranks rank).partsReady
      = (if (s.ranks rank).pc = .copyReady then s.partsReady else (s.ranks rank).partsReady) ∧
    (s'.ranks rank).reducedPart
      = (if (s.ranks rank).pc = .reduce then some (op.reduceOp (s.tensorParts rank))
          else (s.ranks rank).reducedPart) ∧
    (s'.ranks rank).gathered
      = (if (s.ranks rank).pc = .gather then
          some (op.gatherOp ((List.range op.worldSize).map (s.partsAt (s.ranks rank).parts))
            (xs rank (s.ranks rank).returned))
          else (s.ranks rank).gathered) ∧
    (s'.ranks rank).returned
      = (if (s.ranks rank).pc = .ret then
          (s.ranks rank).returned ++ (s.ranks rank).gathered.toList
          else (s.ranks rank).returned) := by
  have hlt := lt_of_step h
  cases hpc : (s.ranks rank).pc <;> simp only [step, hpc, if_pos hlt] at h
  all_goals first | split at h | skip
  all_goals cases h
  all_goals simp only [State.put_ranks_self]
  all_goals exact ⟨rfl, rfl, rfl, rfl, rfl, rfl⟩

end AllReduce

end Drift
