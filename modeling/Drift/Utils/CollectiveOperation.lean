/-
  `CollectiveOperation` of `communications.py`: one rank computes for all.

  The head-parallel configurations gather the caches of a block with it.  Every rank puts its input
  into its slot; behind a barrier the authoritative rank applies the function to all inputs and
  fills the slots of the outputs, with the exception in every slot if there is one; behind the same
  barrier every rank takes its output and clears its slots.

  The barrier is enough, for any number of calls: what a call returns or raises is made of the
  inputs of that call, in every order of the steps, and the ranks never wait for one another for
  ever (`collective_exact`).
-/
import Drift.Lib.Barrier
import Drift.Lib.Run
import Drift.Python
import Mathlib.Logic.Function.Basic

namespace Drift

structure CollectiveOperation (X Y : Type) where
  worldSize : Nat
  /-- `func(*inputs)`; an input that nobody has put is `None`. -/
  func : List (Option X) → Except PyExc (List Y)
  authoritativeRank : Nat := 0

namespace CollectiveOperation

/-- Where a rank is in `__call__`; `write` and `fail` are the two loops over the outputs. -/
inductive Pc (Y : Type) where
  | putInput
  | enterFirst
  | leaveFirst
  | compute
  | write (result : List Y) (i : Nat)
  | fail (exc : PyExc) (i : Nat)
  | enterSecond
  | leaveSecond
  | takeOutput
  | clearInput
  | clearOutput
  | ret

structure Rank (Y : Type) where
  round : Nat := 0
  pc : Pc Y := .putInput
  output : Except PyExc Y := .error .typeError
  returned : List (Except PyExc Y) := []

structure State (X Y : Type) where
  rankInputs : Nat → Option X := fun _ => none
  rankOutputs : Nat → Option (Except PyExc Y) := fun _ => none
  barrier : Barrier := {}
  ranks : Nat → Rank Y := fun _ => {}

variable {X Y : Type}

def State.put (rank : Nat) (r : Rank Y) (s : State X Y) : State X Y :=
  { s with ranks := Function.update s.ranks rank r }

/-- One step of a rank, if it is not held up; `xs round rank` is what the rank calls with. -/
def step (op : CollectiveOperation X Y) (xs : Nat → Nat → X) (s : State X Y) (rank : Nat) :
    Option (State X Y) :=
  let r := s.ranks rank
  if rank < op.worldSize then
    match r.pc with
    | .putInput =>
      some (State.put rank { r with pc := .enterFirst } { s with
        rankInputs := Function.update s.rankInputs rank (some (xs r.round rank)) })
    | .enterFirst =>
      match s.barrier.enter op.worldSize with
      | some (barrier, true) =>
        some (State.put rank { r with pc := .compute } { s with barrier := barrier })
      | some (barrier, false) =>
        some (State.put rank { r with pc := .leaveFirst } { s with barrier := barrier })
      | none => none
    | .leaveFirst =>
      match s.barrier.leave with
      | some barrier =>
        some (State.put rank { r with pc := .compute } { s with barrier := barrier })
      | none => none
    | .compute =>
      if rank = op.authoritativeRank then
        match op.func ((List.range op.worldSize).map s.rankInputs) with
        | .ok result => some (s.put rank { r with pc := .write result 0 })
        | .error exc => some (s.put rank { r with pc := .fail exc 0 })
      else some (s.put rank { r with pc := .enterSecond })
    | .write result i =>
      if i < op.worldSize then
        match result[i]? with
        | some y =>
          some (State.put rank { r with pc := .write result (i + 1) } { s with
            rankOutputs := Function.update s.rankOutputs i (some (.ok y)) })
        | none => some (s.put rank { r with pc := .fail .indexError 0 })
      else some (s.put rank { r with pc := .enterSecond })
    | .fail exc i =>
      if i < op.worldSize then
        some (State.put rank { r with pc := .fail exc (i + 1) } { s with
          rankOutputs := Function.update s.rankOutputs i (some (.error exc)) })
      else some (s.put rank { r with pc := .enterSecond })
    | .enterSecond =>
      match s.barrier.enter op.worldSize with
      | some (barrier, true) =>
        some (State.put rank { r with pc := .takeOutput } { s with barrier := barrier })
      | some (barrier, false) =>
        some (State.put rank { r with pc := .leaveSecond } { s with barrier := barrier })
      | none => none
    | .leaveSecond =>
      match s.barrier.leave with
      | some barrier =>
        some (State.put rank { r with pc := .takeOutput } { s with barrier := barrier })
      | none => none
    | .takeOutput =>
      -- unpacking `None` is a `TypeError`
      some (s.put rank { r with
        output := (s.rankOutputs rank).getD (.error .typeError), pc := .clearInput })
    | .clearInput =>
      some (State.put rank { r with pc := .clearOutput } { s with
        rankInputs := Function.update s.rankInputs rank none })
    | .clearOutput =>
      some (State.put rank { r with pc := .ret } { s with
        rankOutputs := Function.update s.rankOutputs rank none })
    | .ret =>
      some (s.put rank { r with
        round := r.round + 1, pc := .putInput, returned := r.returned ++ [r.output] })
  else none

/-! ## What a rank has done -/

/-- The stages of a call, in order. -/
def Pc.stage : Pc Y → Nat
  | .putInput => 0
  | .enterFirst => 1
  | .leaveFirst => 2
  | .compute | .write _ _ | .fail _ _ => 3
  | .enterSecond => 4
  | .leaveSecond => 5
  | .takeOutput => 6
  | .clearInput => 7
  | .clearOutput => 8
  | .ret => 9

/-- How often rank `t` has been through a stage. -/
def State.count (s : State X Y) (t : Nat) (pc : Pc Y) : Nat :=
  passes (s.ranks t).round (s.ranks t).pc.stage pc.stage

/-- How often rank `t` has entered and left the barrier. -/
def State.entered (s : State X Y) (t : Nat) : Nat := s.count t .enterFirst + s.count t .enterSecond

def State.left (s : State X Y) (t : Nat) : Nat := s.count t .leaveFirst + s.count t .leaveSecond

@[simp] theorem State.put_ranks_self (s : State X Y) (rank : Nat) (r : Rank Y) :
    (s.put rank r).ranks rank = r := Function.update_self ..

theorem State.put_ranks_ne (s : State X Y) {rank t : Nat} (r : Rank Y) (h : t ≠ rank) :
    (s.put rank r).ranks t = s.ranks t := Function.update_of_ne h ..

variable {op : CollectiveOperation X Y} {xs : Nat → Nat → X} {s s' : State X Y} {rank t r : Nat}

theorem lt_of_step (h : op.step xs s rank = some s') : rank < op.worldSize := by
  unfold step at h
  split at h
  · assumption
  · cases h

/-- A step moves one rank. -/
theorem step_ranks_ne (h : op.step xs s rank = some s') (ht : t ≠ rank) :
    s'.ranks t = s.ranks t := by
  have hlt := lt_of_step h
  cases hpc : (s.ranks rank).pc <;> simp only [step, hpc, if_pos hlt] at h
  all_goals repeat' split at h
  all_goals cases h <;> exact State.put_ranks_ne _ _ ht

/-- The stages that count with one step, and not with two. -/
def Pc.counted : Pc Y → Bool
  | .putInput | .enterFirst | .enterSecond | .takeOutput | .clearInput | .clearOutput | .ret => true
  | _ => false

/-- A step counts for the program point it leaves. -/
theorem step_count_self {pc : Pc Y} (h : op.step xs s rank = some s') (hp : pc.counted = true) :
    s'.count rank pc
      = s.count rank pc + if (s.ranks rank).pc.stage = pc.stage then 1 else 0 := by
  have hlt := lt_of_step h
  unfold State.count
  cases hpc : (s.ranks rank).pc <;> simp only [step, hpc, if_pos hlt] at h
  all_goals repeat' split at h
  all_goals cases h
  all_goals simp only [State.put_ranks_self]
  all_goals cases pc <;> first | exact absurd hp Bool.false_ne_true | rfl

/-- A round is over for a rank when it returns. -/
theorem step_round_self (h : op.step xs s rank = some s') :
    (s'.ranks rank).round
      = (s.ranks rank).round + if (s.ranks rank).pc.stage = (Pc.ret : Pc Y).stage then 1 else 0 := by
  have hlt := lt_of_step h
  cases hpc : (s.ranks rank).pc <;> simp only [step, hpc, if_pos hlt] at h
  all_goals repeat' split at h
  all_goals cases h
  all_goals simp only [State.put_ranks_self]
  all_goals rfl

theorem step_count_ne (h : op.step xs s rank = some s') (ht : t ≠ rank) (pc : Pc Y) :
    s'.count t pc = s.count t pc := by
  unfold State.count
  rw [step_ranks_ne h ht]

/-- A step counts for the stage that it is. -/
theorem step_count {pc : Pc Y} (h : op.step xs s rank = some s') (hp : pc.counted = true)
    (t : Nat) : s'.count t pc
      = s.count t pc + if t = rank ∧ (s.ranks rank).pc.stage = pc.stage then 1 else 0 := by
  by_cases ht : t = rank
  · subst ht
    simpa using step_count_self h hp
  · rw [if_neg fun hand => ht hand.1, step_count_ne h ht]
    rfl

/-- **What a step does to the barrier**: nothing, or the rank enters, or it leaves. -/
theorem step_barrier (h : op.step xs s rank = some s') :
    (s'.barrier = s.barrier ∧ s'.entered rank = s.entered rank ∧ s'.left rank = s.left rank) ∨
    (s.entered rank = s.left rank ∧ ∃ last,
      s.barrier.enter op.worldSize = some (s'.barrier, last) ∧
      s'.entered rank = s.entered rank + 1 ∧
      s'.left rank = s.left rank + if last = true then 1 else 0) ∨
    (s.entered rank = s.left rank + 1 ∧ s.barrier.leave = some s'.barrier ∧
      s'.entered rank = s.entered rank ∧ s'.left rank = s.left rank + 1) := by
  have hlt := lt_of_step h
  unfold State.entered State.left State.count
  cases hpc : (s.ranks rank).pc <;> simp only [step, hpc, if_pos hlt] at h
  case enterFirst | enterSecond =>
    right
    left
    split at h
    · rename_i henter
      cases h
      refine ⟨rfl, true, henter, ?_, ?_⟩
      all_goals simp [Pc.stage, passes]
      all_goals omega
    · rename_i henter
      cases h
      refine ⟨rfl, false, henter, ?_, ?_⟩
      all_goals simp [Pc.stage, passes]
      all_goals omega
    · cases h
  case leaveFirst | leaveSecond =>
    right
    right
    split at h
    · rename_i hleave
      cases h
      refine ⟨?_, hleave, ?_, ?_⟩
      all_goals simp [Pc.stage, passes]
      all_goals omega
    · cases h
  all_goals repeat' split at h
  all_goals cases h
  all_goals left
  all_goals simp only [State.put_ranks_self]
  all_goals exact ⟨rfl, rfl, rfl⟩

/-! ## Between the ranks -/

theorem State.le_count (pc : Pc Y) : (s.ranks t).round ≤ s.count t pc := le_passes

theorem State.count_le (pc : Pc Y) : s.count t pc ≤ (s.ranks t).round + 1 := passes_le

theorem State.count_anti {pc pc' : Pc Y} (h : pc.stage ≤ pc'.stage) :
    s.count t pc' ≤ s.count t pc := passes_anti h

/-- Behind a program point the rank has passed it once more than it has finished rounds. -/
theorem State.count_passed {pc : Pc Y} (h : pc.stage < (s.ranks t).pc.stage) :
    s.count t pc = (s.ranks t).round + 1 := passes_of_lt h

/-- Ahead of a program point the rank has passed it once for each finished round. -/
theorem State.count_ahead {pc : Pc Y} (h : (s.ranks t).pc.stage ≤ pc.stage) :
    s.count t pc = (s.ranks t).round := passes_of_le h

/-- The ranks keep to the barrier. -/
def InOrder (op : CollectiveOperation X Y) (s : State X Y) : Prop :=
  Barrier.Keeps op.worldSize s.barrier s.entered s.left

/-- One step keeps every rank to the barrier. -/
theorem InOrder.step (hord : InOrder op s) (h : op.step xs s rank = some s') : InOrder op s' := by
  have hrank := lt_of_step h
  have hother : ∀ t, t ≠ rank → s'.entered t = s.entered t ∧ s'.left t = s.left t := by
    intro t ht
    unfold State.entered State.left
    rw [step_count_ne h ht, step_count_ne h ht, step_count_ne h ht, step_count_ne h ht]
    exact ⟨rfl, rfl⟩
  have hsame : ∀ f f' : Nat → Nat, ∀ n, f' rank = f rank + n → (∀ t, t ≠ rank → f' t = f t) →
      ∀ t < op.worldSize, f' t = f t + if t = rank then n else 0 := by
    intro f f' n hself hne t _
    by_cases ht : t = rank
    · rw [ht, if_pos rfl, hself]
    · rw [if_neg ht, hne t ht]
      rfl
  unfold InOrder at hord ⊢
  rcases step_barrier h with ⟨hb, he, hl⟩ | ⟨hout, last, henter, he, hl⟩ | ⟨hin, hleave, he, hl⟩
  · have hentered : s'.entered = s.entered := by
      funext t
      by_cases ht : t = rank
      · rw [ht, he]
      · exact (hother t ht).1
    have hleft : s'.left = s.left := by
      funext t
      by_cases ht : t = rank
      · rw [ht, hl]
      · exact (hother t ht).2
    rw [hb, hentered, hleft]
    exact hord
  · refine hord.enter hrank hout henter (hsame _ _ 1 he fun t ht => (hother t ht).1) ?_
    intro t ht
    rw [hsame _ _ _ hl (fun t ht => (hother t ht).2) t ht]
    by_cases htr : t = rank <;> simp [htr]
  · refine hord.leave hrank hin hleave ?_ (hsame _ _ 1 hl fun t ht => (hother t ht).2)
    intro t ht
    rw [hsame _ _ 0 he (fun t ht => (hother t ht).1) t ht]
    simp

/-- **Nobody is past either wait before all have come to it.** -/
theorem InOrder.le (hord : InOrder op s) (ht : t < op.worldSize) (hr : r < op.worldSize) :
    s.count t .leaveFirst ≤ s.count r .enterFirst ∧
      s.count t .leaveSecond ≤ s.count r .enterSecond := by
  have hle : s.left t ≤ s.entered r := Barrier.Keeps.le hord ht hr
  unfold State.left State.entered at hle
  have hfirst := s.le_count (t := t) .leaveFirst
  have hsecond := s.le_count (t := t) .leaveSecond
  have hfirst' := s.count_le (t := t) .leaveFirst
  have hsecond' := s.count_le (t := t) .leaveSecond
  have hanti : s.count t .leaveSecond ≤ s.count t .leaveFirst := State.count_anti (by simp [Pc.stage])
  have hin := s.le_count (t := r) .enterFirst
  have hin' := s.le_count (t := r) .enterSecond
  have hup := s.count_le (t := r) .enterFirst
  have hanti' : s.count r .enterSecond ≤ s.count r .enterFirst := State.count_anti (by simp [Pc.stage])
  omega

/-- Between the waits of one rank all others are in the same round, and between the same steps. -/
theorem InOrder.together (hord : InOrder op s) (ht : t < op.worldSize) (hr : r < op.worldSize)
    (hlow : 2 < (s.ranks t).pc.stage) (hhigh : (s.ranks t).pc.stage ≤ 4) :
    (s.ranks r).round = (s.ranks t).round ∧ s.count r .putInput = (s.ranks t).round + 1 ∧
      s.count r .leaveSecond = (s.ranks t).round := by
  obtain ⟨hfirst, -⟩ := hord.le ht hr
  obtain ⟨-, hsecond⟩ := hord.le hr ht
  have hpassed : s.count t .leaveFirst = (s.ranks t).round + 1 := State.count_passed hlow
  have hahead : s.count t .enterSecond = (s.ranks t).round := State.count_ahead hhigh
  have hround := s.le_count (t := r) .leaveSecond
  have hup := s.count_le (t := r) .enterFirst
  have hput : s.count r .enterFirst ≤ s.count r .putInput := State.count_anti (by simp [Pc.stage])
  have hput' := s.count_le (t := r) .putInput
  omega

/-! ## Values -/

/-- What rank `r` is to get in a round: its item of the result, or the exception that all get. -/
def outcome (op : CollectiveOperation X Y) (xs : Nat → Nat → X) (round r : Nat) : Except PyExc Y := do
  let result ← op.func ((List.range op.worldSize).map fun t => some (xs round t))
  if op.worldSize ≤ result.length then orRaise .indexError result[r]? else .error .indexError

/-- The slots, and what the ranks have in hand. -/
structure SlotsInv (op : CollectiveOperation X Y) (xs : Nat → Nat → X) (s : State X Y) : Prop where
  inputs : ∀ t < op.worldSize, s.count t .clearInput < s.count t .putInput →
    s.rankInputs t = some (xs (s.ranks t).round t)
  /-- The two loops over the outputs: what has been written, and that the rest can be. -/
  writes : ∀ t < op.worldSize, ∀ result i, (s.ranks t).pc = .write result i →
    t = op.authoritativeRank ∧
    op.func ((List.range op.worldSize).map fun r => some (xs (s.ranks t).round r)) = .ok result ∧
    i ≤ result.length ∧ i ≤ op.worldSize ∧
    ∀ j < i, s.rankOutputs j = result[j]?.map .ok
  fails : ∀ t < op.worldSize, ∀ exc i, (s.ranks t).pc = .fail exc i →
    t = op.authoritativeRank ∧ i ≤ op.worldSize ∧
    (∀ r < op.worldSize, op.outcome xs (s.ranks t).round r = .error exc) ∧
    ∀ j < i, s.rankOutputs j = some (.error exc)
  outputs : ∀ t < op.worldSize, s.count t .clearOutput < s.count op.authoritativeRank .compute →
    s.rankOutputs t = some (op.outcome xs (s.count t .clearOutput) t)
  output : ∀ t < op.worldSize, (s.ranks t).round < s.count t .takeOutput →
    (s.ranks t).output = op.outcome xs (s.ranks t).round t
  returned : ∀ t < op.worldSize,
    (s.ranks t).returned = (List.range (s.ranks t).round).map (op.outcome xs · t)

/-- The slots of the inputs are written by their owners. -/
theorem step_rankInputs (h : op.step xs s rank = some s') :
    s'.rankInputs t = if t = rank ∧ (s.ranks rank).pc.stage = 0 then
        some (xs (s.ranks rank).round rank)
      else if t = rank ∧ (s.ranks rank).pc.stage = 7 then none else s.rankInputs t := by
  have hlt := lt_of_step h
  cases hpc : (s.ranks rank).pc <;> simp only [step, hpc, if_pos hlt] at h
  all_goals repeat' split at h
  all_goals cases h
  all_goals simp [State.put, Pc.stage, Function.update_apply]

/-- A rank's input slot holds the input of its round from its write to its clearing. -/
theorem SlotsInv.inputs_step (hinv : SlotsInv op xs s) (h : op.step xs s rank = some s') :
    ∀ t < op.worldSize, s'.count t .clearInput < s'.count t .putInput →
      s'.rankInputs t = some (xs (s'.ranks t).round t) := by
  intro t ht hlt
  have hold := hinv.inputs t ht
  rw [step_rankInputs h]
  by_cases htr : t = rank
  · subst htr
    have hround : (s'.ranks t).round = (s.ranks t).round + if (s.ranks t).pc.stage = 9 then 1 else 0 :=
      step_round_self h
    have hputs : s'.count t .putInput
        = s.count t .putInput + if (s.ranks t).pc.stage = 0 then 1 else 0 := step_count_self h rfl
    have hclears : s'.count t .clearInput
        = s.count t .clearInput + if (s.ranks t).pc.stage = 7 then 1 else 0 := step_count_self h rfl
    have hput := s.count_le (t := t) .putInput
    have hclear := s.le_count (t := t) .clearInput
    by_cases hzero : (s.ranks t).pc.stage = 0
    · rw [if_neg (by omega)] at hround
      rw [if_pos ⟨rfl, hzero⟩, hround]
      rfl
    rw [if_neg hzero] at hputs
    by_cases hseven : (s.ranks t).pc.stage = 7
    · -- its own slot is empty again
      rw [if_pos hseven] at hclears
      omega
    rw [if_neg hseven] at hclears
    rw [if_neg fun hand => hzero hand.2, if_neg fun hand => hseven hand.2]
    by_cases hnine : (s.ranks t).pc.stage = 9
    · have hpassed : s.count t .clearInput = (s.ranks t).round + 1 := State.count_passed (by
        rw [hnine]
        simp [Pc.stage])
      omega
    · rw [if_neg hnine] at hround
      rw [hround]
      exact hold (by omega)
  · rw [step_count_ne h htr, step_count_ne h htr] at hlt
    rw [if_neg fun hand => htr hand.1, if_neg fun hand => htr hand.1, step_ranks_ne h htr]
    exact hold hlt

/-- The slots of the outputs are written by the authoritative rank and cleared by their owners. -/
theorem step_rankOutputs (h : op.step xs s rank = some s')
    (hwrite : ∀ result, (s.ranks rank).pc ≠ .write result t)
    (hfail : ∀ exc, (s.ranks rank).pc ≠ .fail exc t)
    (hclear : ¬ (t = rank ∧ (s.ranks rank).pc.stage = 8)) : s'.rankOutputs t = s.rankOutputs t := by
  have hlt := lt_of_step h
  cases hpc : (s.ranks rank).pc <;> simp only [step, hpc, if_pos hlt] at h
  case write result i =>
    repeat' split at h
    · cases h
      exact Function.update_of_ne (fun hti : t = i => hwrite result (hti ▸ hpc)) ..
    all_goals cases h
    all_goals rfl
  case fail exc i =>
    split at h
    · cases h
      exact Function.update_of_ne (fun hti : t = i => hfail exc (hti ▸ hpc)) ..
    · cases h
      rfl
  case clearOutput =>
    cases h
    exact Function.update_of_ne (fun ht : t = rank => hclear ⟨ht, by rw [hpc]; rfl⟩) ..
  all_goals repeat' split at h
  all_goals cases h
  all_goals rfl

/-- Where a loop over the outputs comes from. -/
theorem step_to_write (h : op.step xs s rank = some s') {result : List Y} {i : Nat}
    (hpc : (s'.ranks rank).pc = .write result i) :
    ((s.ranks rank).pc = .compute ∧ i = 0 ∧ rank = op.authoritativeRank ∧
      op.func ((List.range op.worldSize).map s.rankInputs) = .ok result) ∨
    ∃ j, i = j + 1 ∧ (s.ranks rank).pc = .write result j ∧ j < op.worldSize ∧ ∃ y,
      result[j]? = some y ∧ s'.rankOutputs = Function.update s.rankOutputs j (some (.ok y)) := by
  have hlt := lt_of_step h
  cases hold : (s.ranks rank).pc <;> simp only [step, hold, if_pos hlt] at h
  all_goals repeat' split at h
  all_goals cases h
  all_goals rw [State.put_ranks_self] at hpc
  all_goals cases hpc
  · rename_i hauth _ hfunc
    exact Or.inl ⟨rfl, rfl, hauth, hfunc⟩
  · rename_i j hj _ y hy
    exact Or.inr ⟨j, rfl, rfl, hj, y, hy, rfl⟩

/-- How a rank comes to write an exception: the operation raised, it gave too few results, or the
    loop over the slots goes on. -/
theorem step_to_fail (h : op.step xs s rank = some s') {exc : PyExc} {i : Nat}
    (hpc : (s'.ranks rank).pc = .fail exc i) :
    ((s.ranks rank).pc = .compute ∧ i = 0 ∧ rank = op.authoritativeRank ∧
      op.func ((List.range op.worldSize).map s.rankInputs) = .error exc) ∨
    (i = 0 ∧ exc = .indexError ∧ ∃ result j, (s.ranks rank).pc = .write result j ∧
      j < op.worldSize ∧ result[j]? = none) ∨
    ∃ j, i = j + 1 ∧ (s.ranks rank).pc = .fail exc j ∧ j < op.worldSize ∧
      s'.rankOutputs = Function.update s.rankOutputs j (some (.error exc)) := by
  have hlt := lt_of_step h
  cases hold : (s.ranks rank).pc <;> simp only [step, hold, if_pos hlt] at h
  all_goals repeat' split at h
  all_goals cases h
  all_goals rw [State.put_ranks_self] at hpc
  all_goals cases hpc
  · rename_i hauth _ hfunc
    exact Or.inl ⟨rfl, rfl, hauth, hfunc⟩
  · rename_i result j hj _ hnone
    exact Or.inr (Or.inl ⟨rfl, rfl, result, j, rfl, hj, hnone⟩)
  · rename_i j hj
    exact Or.inr (Or.inr ⟨j, rfl, rfl, hj, rfl⟩)

/-- What the authoritative rank computes from. -/
theorem SlotsInv.inputs_eq (hinv : SlotsInv op xs s) (hord : InOrder op s) (ht : t < op.worldSize)
    (hpc : (s.ranks t).pc = .compute) : (List.range op.worldSize).map s.rankInputs
      = (List.range op.worldSize).map fun r => some (xs (s.ranks t).round r) := by
  apply List.map_congr_left
  intro r hr
  have hr := List.mem_range.mp hr
  have hstage : (s.ranks t).pc.stage = 3 := by rw [hpc]; rfl
  obtain ⟨hround, hput, hleft⟩ := hord.together ht hr (by omega) (by omega)
  have hclear : s.count r .clearInput ≤ s.count r .leaveSecond :=
    State.count_anti (by simp [Pc.stage])
  rw [hinv.inputs r hr (by omega), hround]

/-- While the authoritative rank is at the outputs nobody else touches them. -/
theorem SlotsInv.outputs_frame (hinv : SlotsInv op xs s) (hord : InOrder op s)
    (h : op.step xs s rank = some s') (ht : t < op.worldSize) (htr : t ≠ rank)
    (hauth : t = op.authoritativeRank) (hstage : (s.ranks t).pc.stage = 3) (j : Nat) :
    s'.rankOutputs j = s.rankOutputs j := by
  have hrank := lt_of_step h
  apply step_rankOutputs h
  · intro result hpc
    exact htr (hauth.trans (hinv.writes rank hrank result j hpc).1.symm)
  · intro exc hpc
    exact htr (hauth.trans (hinv.fails rank hrank exc j hpc).1.symm)
  · rintro ⟨-, height⟩
    obtain ⟨hround, -, hleft⟩ := hord.together ht hrank (by omega) (by omega)
    have hpassed : s.count rank .leaveSecond = (s.ranks rank).round + 1 := State.count_passed (by
      rw [height]
      simp [Pc.stage])
    omega

theorem step_round_of_ne (h : op.step xs s rank = some s') (hpc : (s.ranks rank).pc.stage ≠ 9) :
    (s'.ranks rank).round = (s.ranks rank).round := by
  have hround : (s'.ranks rank).round
      = (s.ranks rank).round + if (s.ranks rank).pc.stage = 9 then 1 else 0 := step_round_self h
  rwa [if_neg hpc] at hround

/-- A rank that writes results is the authoritative one, and the slots behind it hold the
    operation's results. -/
theorem SlotsInv.writes_step (hinv : SlotsInv op xs s) (hord : InOrder op s)
    (h : op.step xs s rank = some s') : ∀ t < op.worldSize, ∀ result i,
      (s'.ranks t).pc = .write result i → t = op.authoritativeRank ∧
      op.func ((List.range op.worldSize).map fun r => some (xs (s'.ranks t).round r)) = .ok result ∧
      i ≤ result.length ∧ i ≤ op.worldSize ∧ ∀ j < i, s'.rankOutputs j = result[j]?.map .ok := by
  intro t ht result i hpc
  by_cases htr : t = rank
  · subst htr
    rcases step_to_write h hpc with ⟨hcompute, rfl, hauth, hfunc⟩ | ⟨j, rfl, hwrite, hj, y, hy, hs'⟩
    · rw [hinv.inputs_eq hord ht hcompute] at hfunc
      rw [step_round_of_ne h (by rw [hcompute]; exact Nat.ne_of_beq_eq_false rfl)]
      exact ⟨hauth, hfunc, Nat.zero_le _, Nat.zero_le _, fun j hj => absurd hj (Nat.not_lt_zero j)⟩
    · obtain ⟨hauth, hfunc, -, -, hdone⟩ := hinv.writes t ht result j hwrite
      rw [step_round_of_ne h (by rw [hwrite]; exact Nat.ne_of_beq_eq_false rfl)]
      refine ⟨hauth, hfunc, (List.getElem?_eq_some_iff.mp hy).1, hj, fun k hk => ?_⟩
      rw [hs', Function.update_apply]
      split
      · rename_i hkj
        rw [hkj, hy]
        rfl
      · exact hdone k (by omega)
  · rw [step_ranks_ne h htr] at hpc ⊢
    obtain ⟨hauth, hfunc, hlength, hi, hdone⟩ := hinv.writes t ht result i hpc
    refine ⟨hauth, hfunc, hlength, hi, fun j hj => ?_⟩
    rw [hinv.outputs_frame hord h ht htr hauth (by rw [hpc]; rfl)]
    exact hdone j hj

/-- A rank that writes an exception is the authoritative one, and the exception is every rank's
    outcome of the round. -/
theorem SlotsInv.fails_step (hinv : SlotsInv op xs s) (hord : InOrder op s)
    (h : op.step xs s rank = some s') : ∀ t < op.worldSize, ∀ exc i,
      (s'.ranks t).pc = .fail exc i → t = op.authoritativeRank ∧ i ≤ op.worldSize ∧
      (∀ r < op.worldSize, op.outcome xs (s'.ranks t).round r = .error exc) ∧
      ∀ j < i, s'.rankOutputs j = some (.error exc) := by
  intro t ht exc i hpc
  by_cases htr : t = rank
  · subst htr
    rcases step_to_fail h hpc with ⟨hcompute, rfl, hauth, hfunc⟩ |
      ⟨rfl, rfl, result, j, hwrite, hj, hnone⟩ | ⟨j, rfl, hfail, hj, hs'⟩
    · rw [hinv.inputs_eq hord ht hcompute] at hfunc
      rw [step_round_of_ne h (by rw [hcompute]; exact Nat.ne_of_beq_eq_false rfl)]
      refine ⟨hauth, Nat.zero_le _, fun r _ => ?_, fun j hj => absurd hj (Nat.not_lt_zero j)⟩
      rw [outcome, hfunc]
      rfl
    · -- the result is too short
      obtain ⟨hauth, hfunc, -⟩ := hinv.writes t ht result j hwrite
      rw [step_round_of_ne h (by rw [hwrite]; exact Nat.ne_of_beq_eq_false rfl)]
      refine ⟨hauth, Nat.zero_le _, fun r _ => ?_, fun j hj => absurd hj (Nat.not_lt_zero j)⟩
      have hshort := List.getElem?_eq_none_iff.mp hnone
      rw [outcome, hfunc]
      exact if_neg (by omega)
    · obtain ⟨hauth, -, hall, hdone⟩ := hinv.fails t ht exc j hfail
      rw [step_round_of_ne h (by rw [hfail]; exact Nat.ne_of_beq_eq_false rfl)]
      refine ⟨hauth, hj, hall, fun k hk => ?_⟩
      rw [hs', Function.update_apply]
      split
      · rfl
      · exact hdone k (by omega)
  · rw [step_ranks_ne h htr] at hpc ⊢
    obtain ⟨hauth, hi, hall, hdone⟩ := hinv.fails t ht exc i hpc
    refine ⟨hauth, hi, hall, fun j hj => ?_⟩
    rw [hinv.outputs_frame hord h ht htr hauth (by rw [hpc]; rfl)]
    exact hdone j hj

/-- The authoritative rank is through with a call when it has filled all slots. -/
theorem step_computes (h : op.step xs s rank = some s') (hauth : rank = op.authoritativeRank) :
    s'.count rank .compute = s.count rank .compute ∨
      (∃ result i, (s.ranks rank).pc = .write result i ∧ op.worldSize ≤ i) ∨
      ∃ exc i, (s.ranks rank).pc = .fail exc i ∧ op.worldSize ≤ i := by
  have hlt := lt_of_step h
  unfold State.count
  cases hpc : (s.ranks rank).pc <;> simp only [step, hpc, if_pos hlt, if_pos hauth] at h
  case write result i =>
    repeat' split at h
    all_goals first
      | (rename_i hi; exact Or.inr (Or.inl ⟨result, i, rfl, Nat.le_of_not_lt hi⟩))
      | (cases h; left; simp only [State.put_ranks_self]; rfl)
  case fail exc i =>
    split at h
    · cases h
      left
      simp only [State.put_ranks_self]
      rfl
    · rename_i hi
      exact Or.inr (Or.inr ⟨exc, i, rfl, Nat.le_of_not_lt hi⟩)
  all_goals repeat' split at h
  all_goals cases h
  all_goals left
  all_goals simp only [State.put_ranks_self]
  all_goals rfl

/-- A rank's output slot holds its outcome of the round, from the computation to its own clearing.
    -/
theorem SlotsInv.outputs_step (hinv : SlotsInv op xs s) (hord : InOrder op s)
    (hauth : op.authoritativeRank < op.worldSize) (h : op.step xs s rank = some s') :
    ∀ t < op.worldSize, s'.count t .clearOutput < s'.count op.authoritativeRank .compute →
      s'.rankOutputs t = some (op.outcome xs (s'.count t .clearOutput) t) := by
  intro t ht hlt
  have hrank := lt_of_step h
  have hclears : s'.count t .clearOutput
      = s.count t .clearOutput + if t = rank ∧ (s.ranks rank).pc.stage = 8 then 1 else 0 :=
    step_count h rfl t
  have hclearRound : (s.ranks t).round ≤ s.count t .clearOutput := s.le_count _
  have hclearLeft : s.count t .clearOutput ≤ s.count t .leaveSecond :=
    State.count_anti (by simp [Pc.stage])
  -- in the loops nothing of the round has been cleared
  have hloop : rank = op.authoritativeRank → (s.ranks rank).pc.stage = 3 →
      s'.count t .clearOutput = (s.ranks rank).round ∧
        s.count op.authoritativeRank .compute = (s.ranks rank).round := by
    intro heq hstage
    obtain ⟨hround, -, hleft⟩ := hord.together hrank ht (by omega) (by omega)
    rw [if_neg fun hand => by omega] at hclears
    refine ⟨by omega, ?_⟩
    rw [← heq]
    exact State.count_ahead (Nat.le_of_eq hstage)
  by_cases hdone : s'.count op.authoritativeRank .compute = s.count op.authoritativeRank .compute
  · have hclear : ¬ (t = rank ∧ (s.ranks rank).pc.stage = 8) := by
      rintro ⟨rfl, height⟩
      rw [if_pos ⟨rfl, height⟩] at hclears
      have hfirst := (hord.le hauth ht).1
      have hanti : s.count op.authoritativeRank .compute
          ≤ s.count op.authoritativeRank .leaveFirst := State.count_anti (by simp [Pc.stage])
      have hup := s.count_le (t := t) .enterFirst
      omega
    have hnot : ∀ n, (s.ranks rank).pc.stage = 3 → rank = op.authoritativeRank → n = t → False := by
      intro n hstage heq _
      obtain ⟨hnew, hold⟩ := hloop heq hstage
      omega
    rw [step_rankOutputs h ?_ ?_ hclear]
    · rw [if_neg hclear, Nat.add_zero] at hclears
      rw [hclears]
      exact hinv.outputs t ht (by omega)
    · intro result hpc
      exact hnot t (by rw [hpc]; rfl) (hinv.writes rank hrank result t hpc).1 rfl
    · intro exc hpc
      exact hnot t (by rw [hpc]; rfl) (hinv.fails rank hrank exc t hpc).1 rfl
  · have heq : rank = op.authoritativeRank := by
      by_contra hne
      exact hdone (step_count_ne h (Ne.symm hne) _)
    rcases step_computes h heq with hsame | ⟨result, i, hpc, hi⟩ | ⟨exc, i, hpc, hi⟩
    · exact absurd (heq ▸ hsame) hdone
    · -- the results of the round are all there
      have hstage : (s.ranks rank).pc.stage = 3 := by rw [hpc]; rfl
      obtain ⟨-, hfunc, hlength, -, hall⟩ := hinv.writes rank hrank result i hpc
      rw [step_rankOutputs h (fun result' hpc' => by rw [hpc] at hpc'; cases hpc'; omega)
        (fun exc' hpc' => by rw [hpc] at hpc'; cases hpc') (fun hand => by omega),
        hall t (by omega), (hloop heq hstage).1, outcome, hfunc]
      have hlt : t < result.length := by omega
      have hget : result[t]? = some result[t] := List.getElem?_eq_getElem hlt
      show result[t]?.map Except.ok = some (if op.worldSize ≤ result.length then
        orRaise .indexError result[t]? else .error .indexError)
      rw [if_pos (by omega), hget]
      rfl
    · have hstage : (s.ranks rank).pc.stage = 3 := by rw [hpc]; rfl
      obtain ⟨-, -, hfail, hall⟩ := hinv.fails rank hrank exc i hpc
      rw [step_rankOutputs h (fun result' hpc' => by rw [hpc] at hpc'; cases hpc')
        (fun exc' hpc' => by rw [hpc] at hpc'; cases hpc'; omega) (fun hand => by omega),
        hall t (by omega), (hloop heq hstage).1, hfail t ht]

theorem step_locals (h : op.step xs s rank = some s') :
    (s'.ranks rank).output = (if (s.ranks rank).pc.stage = 6 then
        (s.rankOutputs rank).getD (.error .typeError) else (s.ranks rank).output) ∧
    (s'.ranks rank).returned = (if (s.ranks rank).pc.stage = 9 then
        (s.ranks rank).returned ++ [(s.ranks rank).output] else (s.ranks rank).returned) := by
  have hlt := lt_of_step h
  cases hpc : (s.ranks rank).pc <;> simp only [step, hpc, if_pos hlt] at h
  all_goals repeat' split at h
  all_goals cases h
  all_goals simp only [State.put_ranks_self]
  all_goals exact ⟨rfl, rfl⟩

/-- What a rank takes is the outcome of its round. -/
theorem SlotsInv.taken_eq (hinv : SlotsInv op xs s) (hord : InOrder op s)
    (hauth : op.authoritativeRank < op.worldSize) (ht : t < op.worldSize)
    (hstage : (s.ranks t).pc.stage = 6) :
    (s.rankOutputs t).getD (.error .typeError) = op.outcome xs (s.ranks t).round t := by
  have hahead : s.count t .clearOutput = (s.ranks t).round := State.count_ahead (by
    rw [hstage]
    simp [Pc.stage])
  have hpassed : s.count t .leaveSecond = (s.ranks t).round + 1 := State.count_passed (by
    rw [hstage]
    simp [Pc.stage])
  have hsecond := (hord.le ht hauth).2
  have hanti : s.count op.authoritativeRank .enterSecond ≤ s.count op.authoritativeRank .compute :=
    State.count_anti (by simp [Pc.stage])
  rw [hinv.outputs t ht (by omega), hahead]
  rfl

/-- One step keeps what the slots hold. -/
theorem SlotsInv.step (hinv : SlotsInv op xs s) (hord : InOrder op s)
    (hauth : op.authoritativeRank < op.worldSize) (h : op.step xs s rank = some s') :
    SlotsInv op xs s' := by
  have hrank := lt_of_step h
  obtain ⟨houtput, hreturned⟩ := step_locals h
  refine ⟨hinv.inputs_step h, hinv.writes_step hord h, hinv.fails_step hord h,
    hinv.outputs_step hord hauth h, ?_, ?_⟩
  · intro t ht hlt
    by_cases htr : t = rank
    · subst htr
      have htakes : s'.count t .takeOutput
          = s.count t .takeOutput + if (s.ranks t).pc.stage = 6 then 1 else 0 :=
        step_count_self h rfl
      have hround : (s'.ranks t).round
          = (s.ranks t).round + if (s.ranks t).pc.stage = 9 then 1 else 0 := step_round_self h
      have hle := s.count_le (t := t) .takeOutput
      by_cases hsix : (s.ranks t).pc.stage = 6
      · rw [houtput, if_pos hsix, step_round_of_ne h (by omega)]
        exact hinv.taken_eq hord hauth ht hsix
      · rw [if_neg hsix] at htakes
        have hsame : (s'.ranks t).round = (s.ranks t).round := by
          split at hround <;> omega
        rw [houtput, if_neg hsix, hsame]
        exact hinv.output t ht (by omega)
    · rw [step_count_ne h htr, step_ranks_ne h htr] at hlt
      rw [step_ranks_ne h htr]
      exact hinv.output t ht hlt
  · intro t ht
    by_cases htr : t = rank
    · subst htr
      by_cases hnine : (s.ranks t).pc.stage = 9
      · have hround : (s'.ranks t).round
            = (s.ranks t).round + if (s.ranks t).pc.stage = 9 then 1 else 0 := step_round_self h
        have hpassed : s.count t .takeOutput = (s.ranks t).round + 1 := State.count_passed (by
          rw [hnine]
          simp [Pc.stage])
        rw [if_pos hnine] at hround hreturned
        rw [hreturned, hround, List.range_succ, List.map_append, hinv.returned t ht,
          hinv.output t ht (by omega)]
        rfl
      · rw [if_neg hnine] at hreturned
        rw [hreturned, step_round_of_ne h hnine]
        exact hinv.returned t ht
    · rw [step_ranks_ne h htr]
      exact hinv.returned t ht

/-! ## Runs -/

theorem count_new (pc : Pc Y) : ({} : State X Y).count t pc = 0 := passes_of_le (Nat.zero_le _)

theorem inOrder_new (hpos : 0 < op.worldSize) : InOrder op {} := Barrier.keeps_new hpos

theorem slotsInv_new : SlotsInv op xs {} := by
  refine ⟨fun t _ hlt => ?_, fun t _ result i hpc => ?_, fun t _ exc i hpc => ?_, fun t _ hlt => ?_,
    fun t _ hlt => ?_, fun t _ => rfl⟩
  · rw [count_new, count_new] at hlt
    cases hlt
  · cases hpc
  · cases hpc
  · rw [count_new, count_new] at hlt
    cases hlt
  · rw [count_new] at hlt
    cases hlt

/-- **Somebody can go on.** -/
theorem not_stuck (hord : InOrder op s) :
    ∃ rank < op.worldSize, (op.step xs s rank).isSome = true := by
  rcases Barrier.Keeps.not_stuck hord with ⟨t, ht, hout, henter⟩ | ⟨t, ht, hin, hleave⟩
  · refine ⟨t, ht, ?_⟩
    obtain ⟨⟨barrier, last⟩, hsome⟩ := Option.isSome_iff_exists.mp henter
    unfold State.entered State.left State.count at hout
    cases hpc : (s.ranks t).pc <;> simp only [step, hpc, if_pos ht, hsome]
    case leaveFirst | leaveSecond =>
      simp [hpc, Pc.stage, passes] at hout
    all_goals first | (cases last <;> rfl) | skip
    all_goals repeat' split
    all_goals rfl
  · refine ⟨t, ht, ?_⟩
    obtain ⟨barrier, hsome⟩ := Option.isSome_iff_exists.mp hleave
    unfold State.entered State.left State.count at hin
    cases hpc : (s.ranks t).pc <;> simp only [step, hpc, if_pos ht, hsome]
    case enterFirst | enterSecond =>
      simp [hpc, Pc.stage, passes] at hin
    all_goals repeat' split
    all_goals rfl

end CollectiveOperation

open CollectiveOperation in
/-- **Any number of calls.**  Whatever the order of the steps, every call that has returned or
    raised has done so with its item of what the function makes of the inputs of that call, or with
    the exception that all of that call raise, and somebody can go on. -/
theorem collective_exact {X Y : Type} (op : CollectiveOperation X Y) (xs : Nat → Nat → X)
    (hauth : op.authoritativeRank < op.worldSize) (schedule : List Nat) (s : State X Y)
    (hexec : exec (op.step xs) {} schedule = some s) :
    (∀ rank < op.worldSize,
      (s.ranks rank).returned
        = (List.range (s.ranks rank).round).map (op.outcome xs · rank)) ∧
    ∃ rank < op.worldSize, (op.step xs s rank).isSome = true := by
  have hinv : InOrder op s ∧ SlotsInv op xs s :=
    exec_invariant' (P := fun s => InOrder op s ∧ SlotsInv op xs s) (fun _ _ _ hs hstep =>
      ⟨hs.1.step hstep, hs.2.step hs.1 hauth hstep⟩)
      ⟨inOrder_new (Nat.zero_lt_of_lt hauth), slotsInv_new⟩ hexec
  exact ⟨hinv.2.returned, not_stuck hinv.1⟩

/-! ## The cache of a block -/

section GatherKv

variable {τ : Type}

/-- What `gather_kv` of `configs.py` makes of the pairs of the ranks: `PerDeviceTensors`, the same
    for all; a rank without a pair has one `None` there. -/
def gatherKv (τ : Type) (worldSize : Nat) :
    CollectiveOperation (Option (τ × τ)) (List (Option τ)) where
  worldSize := worldSize
  func kvs := .ok (List.replicate worldSize (kvs.flatMap fun x =>
    match x.join with
    | some (key, value) => [some key, some value]
    | none => [none]))

/-- `select_kv`: the two items of a rank; `none` for an `IndexError`. -/
def selectKv (kvs : List (Option τ)) (rank : Nat) : Option (Option τ × Option τ) := do
  let key ← kvs[2 * rank]?
  let value ← kvs[2 * rank + 1]?
  pure (key, value)

theorem getElem?_flatMap_pair {α β : Type} (f g : α → β) : ∀ (l : List α) (i : Nat),
    (l.flatMap fun a => [f a, g a])[2 * i]? = l[i]?.map f ∧
      (l.flatMap fun a => [f a, g a])[2 * i + 1]? = l[i]?.map g
  | [], _ => ⟨rfl, rfl⟩
  | _ :: _, 0 => ⟨rfl, rfl⟩
  | _ :: l, i + 1 => getElem?_flatMap_pair f g l i

/-- Each rank picks its own pair out of the list that all ranks' pairs were gathered to. -/
theorem selectKv_gathered (pairs : Nat → τ × τ) {worldSize rank : Nat} (hrank : rank < worldSize) :
    selectKv ((List.range worldSize).flatMap fun r => [some (pairs r).1, some (pairs r).2]) rank
      = some (some (pairs rank).1, some (pairs rank).2) := by
  obtain ⟨hkey, hvalue⟩ := getElem?_flatMap_pair (fun r => some (pairs r).1)
    (fun r => some (pairs r).2) (List.range worldSize) rank
  have hget : (List.range worldSize)[rank]? = some rank := List.getElem?_range hrank
  rw [hget] at hkey hvalue
  unfold selectKv
  rw [hkey, hvalue]
  rfl

/-- **The ranks get their caches back.**  Every call of `gather_kv`, in whatever order the ranks
    take their steps, gives all ranks the same tensors, and `select_kv` picks for a rank the pair
    that it has called with; and somebody can go on. -/
theorem gather_kv_round_trip (worldSize : Nat) (pairs : Nat → Nat → τ × τ) (hw : 0 < worldSize)
    (schedule : List Nat) (s : CollectiveOperation.State (Option (τ × τ)) (List (Option τ)))
    (hexec : exec ((gatherKv τ worldSize).step fun round rank => some (pairs round rank)) {}
      schedule = some s) :
    (∀ rank < worldSize, ∀ round < (s.ranks rank).round, ∃ kvs,
      (s.ranks rank).returned[round]? = some (.ok kvs) ∧
      ∀ r < worldSize, selectKv kvs r = some (some (pairs round r).1, some (pairs round r).2)) ∧
    ∃ rank < worldSize, ((gatherKv τ worldSize).step
      (fun round rank => some (pairs round rank)) s rank).isSome = true := by
  obtain ⟨hreturned, hgoes⟩ := collective_exact (gatherKv τ worldSize)
    (fun round rank => some (pairs round rank)) hw schedule s hexec
  refine ⟨fun rank hrank round hround => ?_, hgoes⟩
  refine ⟨(List.range worldSize).flatMap fun r => [some (pairs round r).1, some (pairs round r).2],
    ?_, fun r hr => selectKv_gathered (pairs round) hr⟩
  rw [hreturned rank hrank, List.getElem?_map, List.getElem?_range hround]
  refine congrArg some ?_
  show (if worldSize ≤ (List.replicate worldSize _).length then
    orRaise .indexError (List.replicate worldSize _)[rank]? else _) = _
  rw [List.length_replicate, if_pos (Nat.le_refl _), List.getElem?_replicate, if_pos hrank]
  refine congrArg Except.ok ?_
  rw [List.flatMap_map]
  rfl

/-- Two ranks, one call: rank 1 is first at both barriers. -/
def oneGather : List Nat :=
  List.replicate 2 1 ++ List.replicate 6 0 ++ List.replicate 3 1 ++ List.replicate 5 0 ++
    List.replicate 5 1

theorem gather_kv_round_trip_two :
    ∃ s : CollectiveOperation.State (Option (Int × Int)) (List (Option Int)),
      exec ((gatherKv Int 2).step fun round rank => some (((round + rank : Nat) : Int), (rank : Int)))
        {} oneGather = some s ∧
      (∀ rank < 2, ∀ round < (s.ranks rank).round, ∃ kvs,
        (s.ranks rank).returned[round]? = some (.ok kvs) ∧
        ∀ r < 2, selectKv kvs r = some (some ((round + r : Nat) : Int), some (r : Int))) ∧
      ∃ rank < 2, ((gatherKv Int 2).step
        (fun round rank => some (((round + rank : Nat) : Int), (rank : Int))) s
          rank).isSome = true := by
  obtain ⟨s, hs⟩ := Option.isSome_iff_exists.mp (show (exec ((gatherKv Int 2).step
    fun round rank => some (((round + rank : Nat) : Int), (rank : Int))) {} oneGather).isSome = true by
      decide +kernel)
  exact ⟨s, hs, gather_kv_round_trip 2 (fun round rank => (((round + rank : Nat) : Int), (rank : Int)))
    Nat.two_pos oneGather s hs⟩

end GatherKv

end Drift
