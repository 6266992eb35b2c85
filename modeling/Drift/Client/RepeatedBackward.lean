/-
  What `_RemoteSequentialAutogradFunction.backward` of `client/sequential_autograd.py` leaves of the
  context that it is called with.

  `sequential_backward` makes a new list of the intermediate inputs before it takes from it, but it
  takes the spans out of the list of its caller, which is that of the context.  Whatever fails on
  the way, the spans are used up when it returns, and the inputs are still there.  So a second
  backward pass meets lists of different lengths and raises, unless there was no block to go through
  (`autogradBackward_repeats_iff`).
-/
import Drift.Client.MicroBatching

namespace Drift

variable {α : Type} [Zero α] [Add α]

/-! ## The source -/

/-- What `sequential_backward` leaves in the list `forward_sequences`, if it comes to an end. -/
def forwardSequencesLeft (swarm : Swarm α) (gradOutputs : Tensor α)
    (intermediateInputs : List (Tensor α)) (prompts : List (Tensor α))
    (forwardSequences : List RemoteSpanInfo) (attempts : List BackwardAttempt) :
    Option (List RemoteSpanInfo) :=
  if intermediateInputs.length ≠ forwardSequences.length then some forwardSequences
  else
    (retryLoop (fun s => s.current.isNone) (backwardAttempt swarm prompts) swarm.maxRetries
      attempts 0
      (BackwardState.next ⟨none, intermediateInputs, forwardSequences, gradOutputs, []⟩)).map
        fun ended => ended.1.forwardSequences

/-- `ctx` when `backward` has returned. -/
def autogradContextLeft (swarm : Swarm α) (maxTokensInBatch : Nat) (ctx : AutogradContext α)
    (gradOutputs : Tensor α) (attempts : Nat → List BackwardAttempt) :
    Option (AutogradContext α) :=
  match microBatchSize maxTokensInBatch gradOutputs with
  | .error _ => some ctx
  | .ok batchSize =>
    let gradOutputBatches := gradOutputs.split 0 batchSize
    if ctx.intermediateInputBatches.length = gradOutputBatches.length ∧
        gradOutputBatches.length = ctx.sequencesForBatches.length then
      let left := ((gradOutputBatches.zip (ctx.intermediateInputBatches.zip
        (ctx.promptBatches.zip ctx.sequencesForBatches))).mapIdx
          fun i (gradOutput, inputBatch, promptBatch, spans) =>
            forwardSequencesLeft swarm gradOutput inputBatch promptBatch spans (attempts i))
      (left.mapM id).map fun sequences =>
        { ctx with
          sequencesForBatches := sequences ++ ctx.sequencesForBatches.drop sequences.length }
    else some ctx

/-! ## What is promised -/

/-- The vector-Jacobian product of the blocks and their prompts, as `backward` returns it. -/
def vectorJacobian (swarm : Swarm α) (prompts : List (Tensor α)) (x g : Tensor α) :
    Tensor α × Option (List (Tensor α)) :=
  let grads := Layer.chainPull (swarm.layers prompts) x g
  (grads.1, if grads.2 = [] then none else some grads.2)

/-- **Backward can be repeated**: the context is what it was, and another pass over it that gets
    through returns the product for its own gradient. -/
structure BackwardRepeats (swarm : Swarm α) (maxTokensInBatch : Nat) (prompts : List (Tensor α))
    (x : Tensor α) (ctx left : AutogradContext α) : Prop where
  unchanged : left = ctx
  repeats : ∀ (g : Tensor α), g.shape = x.shape → ∀ attempts : Nat → List BackwardAttempt,
    (∀ (i : Nat) (batchPrompt : List (Tensor α)), ctx.promptBatches[i]? = some batchPrompt →
      BackwardRecovers swarm batchPrompt swarm.blocks.length (attempts i)) →
    autogradBackward swarm maxTokensInBatch left g attempts
      = some (.ok (vectorJacobian swarm prompts x g))

/-! ## The stacks -/

section Stacks

variable {swarm : Swarm α} {prompts : List (Tensor α)}

/-- The stacks are equally high, and they are empty when nothing is left to do. -/
structure EvenStacks (s : BackwardState α) : Prop where
  lengths : s.intermediateInputs.length = s.forwardSequences.length
  done : s.current = none → s.forwardSequences = []

omit [Zero α] [Add α] in
theorem evenStacks_next {s : BackwardState α}
    (h : s.intermediateInputs.length = s.forwardSequences.length) : EvenStacks s.next := by
  rw [BackwardState.next]
  cases hinputs : s.intermediateInputs.getLast? with
  | none =>
    have hnil := List.getLast?_eq_none_iff.mp hinputs
    rw [hnil] at h
    exact ⟨by rw [hnil]; exact h, fun _ => List.length_eq_zero_iff.mp h.symm⟩
  | some inputs =>
    cases hspans : s.forwardSequences.getLast? with
    | none =>
      rw [List.getLast?_eq_none_iff.mp hspans, List.length_nil] at h
      rw [List.length_eq_zero_iff.mp h] at hinputs
      cases hinputs
    | some span =>
      refine ⟨?_, fun hnone => by cases hnone⟩
      show s.intermediateInputs.dropLast.length = s.forwardSequences.dropLast.length
      rw [List.length_dropLast, List.length_dropLast, h]

theorem evenStacks_backwardRequest {failure : Option PyExc} {inputs : Tensor α}
    {span : RemoteSpanInfo} {s : BackwardState α} (h : EvenStacks s) :
    EvenStacks (backwardRequest swarm prompts failure inputs span s).1 := by
  rw [backwardRequest]
  split
  · exact h
  · exact evenStacks_next h.lengths

/-- **An attempt** leaves the stacks equally high, also when it fails. -/
theorem evenStacks_backwardAttempt {attemptNo : Nat} {attempt : BackwardAttempt}
    {s s' : BackwardState α} {result : Option PyExc} (h : EvenStacks s)
    (hattempt : backwardAttempt swarm prompts attemptNo attempt s = some (s', result)) :
    EvenStacks s' := by
  rw [backwardAttempt] at hattempt
  split at hattempt
  · cases hattempt
  · rename_i inputs span _
    split at hattempt
    · obtain rfl : _ = s' := congrArg Prod.fst (Option.some.inj hattempt)
      exact evenStacks_backwardRequest h
    · split at hattempt
      · cases hattempt
      · obtain rfl := congrArg Prod.fst (Option.some.inj hattempt)
        exact h
      · rename_i backed hbackup
        -- what the forward pass has recorded has been pushed, and one of it popped
        have hbacked : EvenStacks backed := by
          rw [backupSpan] at hbackup
          split at hbackup
          · cases hbackup
          · cases Option.some.inj hbackup
          · rename_i record _
            split at hbackup
            · cases Option.some.inj hbackup
            · rename_i hlengths
              split at hbackup
              · split at hbackup
                · obtain rfl := Except.ok.inj (Option.some.inj hbackup)
                  refine evenStacks_next ?_
                  simp only [List.length_append, h.lengths, not_not.mp hlengths]
                · cases Option.some.inj hbackup
              · cases Option.some.inj hbackup
        split at hattempt
        · obtain rfl := congrArg Prod.fst (Option.some.inj hattempt)
          exact hbacked
        · obtain rfl : _ = s' := congrArg Prod.fst (Option.some.inj hattempt)
          exact evenStacks_backwardRequest hbacked

/-- Where the loop of a backward pass ends that returns. -/
theorem sequentialBackward_loop {g : Tensor α} {inputs : List (Tensor α)}
    {spans : List RemoteSpanInfo} {attempts : List BackwardAttempt}
    {result : Tensor α × Option (List (Tensor α))}
    (h : sequentialBackward swarm g inputs prompts spans attempts = some (.ok result)) :
    inputs.length = spans.length ∧ ∃ s, retryLoop (fun s : BackwardState α => s.current.isNone)
      (backwardAttempt swarm prompts) swarm.maxRetries attempts 0
      (BackwardState.next ⟨none, inputs, spans, g, []⟩) = some (s, none) := by
  rw [sequentialBackward] at h
  split at h
  · cases Option.some.inj h
  · rename_i hlengths
    refine ⟨not_not.mp hlengths, ?_⟩
    split at h
    · cases h
    · cases Option.some.inj h
    · rename_i s hloop
      exact ⟨s, hloop⟩

/-- **The spans are used up** when `sequential_backward` returns. -/
theorem forwardSequencesLeft_of_returns {g : Tensor α} {inputs : List (Tensor α)}
    {spans : List RemoteSpanInfo} {attempts : List BackwardAttempt}
    {result : Tensor α × Option (List (Tensor α))}
    (h : sequentialBackward swarm g inputs prompts spans attempts = some (.ok result)) :
    forwardSequencesLeft swarm g inputs prompts spans attempts = some [] := by
  obtain ⟨hlengths, s, hloop⟩ := sequentialBackward_loop h
  obtain ⟨heven, hdone⟩ := retryLoop_invariant _ _ EvenStacks (Q := fun _ => True)
    (fun _ _ _ _ _ heven _ _ hstep => evenStacks_backwardAttempt heven hstep)
    (fun _ _ => trivial) (evenStacks_next hlengths) hloop
  rw [forwardSequencesLeft, if_neg (not_not.mpr hlengths), hloop]
  exact congrArg some (heven.done (Option.isNone_iff_eq_none.mp (hdone rfl)))

/-- Where the loop of a forward pass ends that returns. -/
theorem sequentialForward_loop {x : Tensor α} {start stop : Nat} {attempts : List ForwardAttempt}
    {record : ForwardRecord α}
    (h : sequentialForward swarm x prompts start stop attempts = some (.ok record)) :
    ∃ s, retryLoop (fun s : ForwardState α => decide (stop ≤ s.blockIdx))
      (forwardAttempt swarm prompts stop) swarm.maxRetries attempts 0 ⟨start, x, [], [], []⟩
        = some (s, none) ∧ record = ⟨s.inputs, s.intermediateInputs, s.doneSequences⟩ := by
  rw [sequentialForward] at h
  split at h
  · cases Option.some.inj h
  · split at h
    · cases Option.some.inj h
    · split at h
      · cases Option.some.inj h
      · split at h
        · cases h
        · cases Option.some.inj h
        · rename_i s hloop
          exact ⟨s, hloop, (Except.ok.inj (Option.some.inj h)).symm⟩

/-- What every attempt keeps: an input is recorded with each span, and the first block is left only
    with a span. -/
def Recorded (start : Nat) (s : ForwardState α) : Prop :=
  s.intermediateInputs.length = s.doneSequences.length ∧
    (s.blockIdx = start ∨ s.doneSequences ≠ [])

theorem recorded_forwardAttempt {start stop attemptNo : Nat} {attempt : ForwardAttempt}
    {s s' : ForwardState α} {result : Option PyExc} (h : Recorded start s)
    (hattempt : forwardAttempt swarm prompts stop attemptNo attempt s = some (s', result)) :
    Recorded start s' := by
  rw [forwardAttempt] at hattempt
  split at hattempt
  · rename_i next htry
    obtain rfl : next = s' := congrArg Prod.fst (Option.some.inj hattempt)
    obtain ⟨route, -, hbody⟩ := except_bind_eq_ok.mp htry
    split at hbody
    · cases hbody
    · obtain ⟨outputs, -, hbody⟩ := except_bind_eq_ok.mp hbody
      split at hbody
      · obtain rfl := Except.ok.inj hbody
        refine ⟨?_, Or.inr (List.append_ne_nil_of_right_ne_nil _ (List.cons_ne_nil _ _))⟩
        simp only [List.length_append, h.1, List.length_singleton]
      · cases hbody
  · obtain rfl : s = s' := congrArg Prod.fst (Option.some.inj hattempt)
    exact h

/-- **A forward pass over a block records a span**, and one over none nothing. -/
theorem sequentialForward_record {x : Tensor α} {start stop : Nat} {attempts : List ForwardAttempt}
    {record : ForwardRecord α}
    (h : sequentialForward swarm x prompts start stop attempts = some (.ok record)) :
    record.intermediateInputs.length = record.doneSequences.length ∧
      (record.doneSequences = [] ↔ stop ≤ start) := by
  obtain ⟨s, hloop, rfl⟩ := sequentialForward_loop h
  obtain ⟨⟨hlengths, hbegun⟩, hdone⟩ := retryLoop_invariant _ _ (Recorded start)
    (Q := fun _ => True) (fun _ _ _ _ _ hinv _ _ hstep => recorded_forwardAttempt hinv hstep)
    (fun _ _ => trivial) ⟨rfl, Or.inl rfl⟩ hloop
  have hend := of_decide_eq_true (hdone rfl)
  refine ⟨hlengths, fun hnil => ?_, fun hle => ?_⟩
  · rw [hbegun.resolve_right fun hne => hne hnil] at hend
    exact hend
  · -- the loop has ended before an attempt
    have hstart : retryLoop (fun s : ForwardState α => decide (stop ≤ s.blockIdx))
        (forwardAttempt swarm prompts stop) swarm.maxRetries attempts 0 ⟨start, x, [], [], []⟩
          = some (⟨start, x, [], [], []⟩, none) := by
      cases attempts with
      | nil => exact if_pos (decide_eq_true hle)
      | cons attempt attempts => exact if_pos (decide_eq_true hle)
    rw [hstart] at hloop
    obtain rfl := congrArg Prod.fst (Option.some.inj hloop)
    rfl

end Stacks

/-! ## The context -/

section Context

variable {swarm : Swarm α} {maxTokensInBatch : Nat}

/-- What `forward` saves. -/
theorem autogradForward_records {x outputs : Tensor α} {prompts : List (Tensor α)}
    {ctx : AutogradContext α} {attempts : Nat → List ForwardAttempt}
    (h : autogradForward swarm maxTokensInBatch x prompts attempts = some (.ok (outputs, ctx))) :
    ∃ (batchSize : Nat) (records : List (ForwardRecord α)),
      microBatchSize maxTokensInBatch x = .ok batchSize ∧
      records.length = (x.split 0 batchSize).length ∧ records.length ≤ ctx.promptBatches.length ∧
      ctx.intermediateInputBatches = records.map (·.intermediateInputs) ∧
      ctx.sequencesForBatches = records.map (·.doneSequences) ∧
      ∀ record ∈ records, record.intermediateInputs.length = record.doneSequences.length ∧
        (record.doneSequences = [] ↔ swarm.blocks = []) := by
  rw [autogradForward] at h
  split at h
  · cases Option.some.inj h
  · rename_i batchSize hsize
    simp only at h
    generalize (if prompts.all isDummy = true then List.replicate (x.split 0 batchSize).length []
      else splitPromptBatches batchSize prompts) = promptBatches at h
    obtain ⟨gathered, hgathered, hbody⟩ := Option.map_eq_some_iff.mp h
    obtain ⟨records, rfl, hrest⟩ := except_bind_eq_ok.mp hbody
    split at hrest
    · rename_i hlength
      obtain ⟨output, -, hok⟩ := except_bind_eq_ok.mp hrest
      obtain ⟨rfl, rfl⟩ := Prod.mk.inj (Except.ok.inj hok)
      obtain ⟨hcount, -⟩ := gather_mapIdx hgathered
      refine ⟨batchSize, records, hsize, hlength, ?_, rfl, rfl, fun record hmem => ?_⟩
      · rw [hcount, List.length_zip]
        exact Nat.min_le_right _ _
      · have hrun : some (Except.ok record) ∈ records.map fun r => some (Except.ok (ε := PyExc) r) :=
          List.mem_map_of_mem hmem
        rw [← gather_eq_ok.mp hgathered] at hrun
        obtain ⟨i, hi, hrun⟩ := List.mem_mapIdx.mp hrun
        obtain ⟨hlengths, hnil⟩ := sequentialForward_record hrun
        refine ⟨hlengths, hnil.trans ?_⟩
        rw [Nat.le_zero, List.length_eq_zero_iff]
    · cases hrest

/-- **A backward pass that returns** takes every span out of the context, and nothing else. -/
theorem autogradContextLeft_of_returns {ctx : AutogradContext α} {g : Tensor α}
    {attempts : Nat → List BackwardAttempt} {grads : Tensor α × Option (List (Tensor α))}
    (hpromptBatches : ctx.sequencesForBatches.length ≤ ctx.promptBatches.length)
    (h : autogradBackward swarm maxTokensInBatch ctx g attempts = some (.ok grads)) :
    autogradContextLeft swarm maxTokensInBatch ctx g attempts
      = some { ctx with
          sequencesForBatches := List.replicate ctx.sequencesForBatches.length [] } := by
  rw [autogradBackward] at h
  rw [autogradContextLeft]
  cases hsize : microBatchSize maxTokensInBatch g with
  | error exc =>
    rw [hsize] at h
    cases Option.some.inj h
  | ok batchSize =>
    simp only [hsize] at h ⊢
    split at h
    · rename_i hlengths
      rw [if_pos hlengths]
      obtain ⟨gathered, hgathered, hbody⟩ := Option.map_eq_some_iff.mp h
      obtain ⟨results, rfl, -⟩ := except_bind_eq_ok.mp hbody
      obtain ⟨-, hreturned⟩ := gather_mapIdx hgathered
      have hcount : ((g.split 0 batchSize).zip (ctx.intermediateInputBatches.zip
          (ctx.promptBatches.zip ctx.sequencesForBatches))).length
            = ctx.sequencesForBatches.length := by
        simp only [List.length_zip]
        omega
      -- every coroutine has used up its spans
      have hleft : ((g.split 0 batchSize).zip (ctx.intermediateInputBatches.zip
          (ctx.promptBatches.zip ctx.sequencesForBatches))).mapIdx
            (fun i (gradOutput, inputBatch, promptBatch, spans) =>
              forwardSequencesLeft swarm gradOutput inputBatch promptBatch spans (attempts i))
          = (List.replicate ctx.sequencesForBatches.length []).map some := by
        rw [List.map_replicate, List.eq_replicate_iff, List.length_mapIdx]
        refine ⟨hcount, fun left hmem => ?_⟩
        obtain ⟨i, hi, rfl⟩ := List.mem_mapIdx.mp hmem
        obtain ⟨result, -, hrun⟩ := hreturned i _ (List.getElem?_eq_getElem hi)
        exact forwardSequencesLeft_of_returns hrun
      rw [hleft, List.mapM_map]
      have hsome : (List.replicate ctx.sequencesForBatches.length []).mapM (id ∘ some)
          = some (List.replicate ctx.sequencesForBatches.length ([] : List RemoteSpanInfo)) :=
        (List.mapM_pure (m := Option) (f := id)).trans (congrArg some (List.map_id _))
      rw [hsome, Option.map_some, List.length_replicate, List.drop_length, List.append_nil]
    · cases Option.some.inj h

omit [Zero α] [Add α] in
/-- A size is found for tensors of some dimension, and it is positive. -/
theorem microBatchSize_spec {t : Tensor α} {batchSize : Nat}
    (h : microBatchSize maxTokensInBatch t = .ok batchSize) :
    0 < t.shape.length ∧ 0 < batchSize := by
  obtain ⟨seqLength, hseq, hbody⟩ := except_bind_eq_ok.mp h
  obtain ⟨hlt, -⟩ := List.getElem?_eq_some_iff.mp (orRaise_eq_ok.mp hseq)
  split at hbody
  · nomatch hbody
  · obtain rfl := Except.ok.inj hbody
    exact ⟨Nat.lt_trans Nat.one_pos hlt, Nat.lt_of_lt_of_le Nat.one_pos (Nat.le_max_right _ _)⟩

omit [Zero α] [Add α] in
/-- Two tensors of one shape are cut into the same batches. -/
theorem microBatchSize_congr {t u : Tensor α} (h : t.shape = u.shape) :
    microBatchSize maxTokensInBatch t = microBatchSize maxTokensInBatch u := by
  rw [microBatchSize, microBatchSize, h]

omit [Add α] in
theorem length_split_congr {t u : Tensor α} (h : t.shape = u.shape) (size : Nat) :
    (t.split 0 size).length = (u.split 0 size).length := by
  rw [Tensor.split, Tensor.split, List.length_map, List.length_map, h]

omit [Add α] in
/-- There is always a batch. -/
theorem length_split_pos (t : Tensor α) (size : Nat) : 0 < (t.split 0 size).length := by
  rw [Tensor.split, chunkBounds, List.length_map, List.length_map, List.length_range]
  omega

/-- A pass over nothing hands the gradient through. -/
theorem sequentialBackward_nil (g : Tensor α) (prompts : List (Tensor α))
    (attempts : List BackwardAttempt) :
    sequentialBackward swarm g [] prompts [] attempts = some (.ok (g, none)) := by
  cases attempts <;> rfl

/-- Nor does a backward pass over it lack anything. -/
theorem autogradBackward_nil {ctx : AutogradContext α} {g : Tensor α} {batchSize : Nat}
    (hsize : microBatchSize maxTokensInBatch g = .ok batchSize)
    (hinputs : ctx.intermediateInputBatches = List.replicate (g.split 0 batchSize).length [])
    (hspans : ctx.sequencesForBatches = List.replicate (g.split 0 batchSize).length [])
    (hprompts : (g.split 0 batchSize).length ≤ ctx.promptBatches.length)
    (attempts : Nat → List BackwardAttempt) :
    autogradBackward swarm maxTokensInBatch ctx g attempts = some (.ok (g, none)) := by
  have hgather : gatherBackward swarm (g.split 0 batchSize) ctx attempts
      = some (.ok ((g.split 0 batchSize).map fun piece => (piece, none))) := by
    rw [gatherBackward, gather_eq_ok, List.map_map]
    refine List.ext_getElem? fun i => ?_
    rw [List.getElem?_mapIdx, List.getElem?_map]
    cases hpiece : (g.split 0 batchSize)[i]? with
    | none =>
      rw [List.getElem?_eq_none (Nat.le_trans (by rw [List.length_zip]; exact Nat.min_le_left _ _)
        (List.getElem?_eq_none_iff.mp hpiece))]
      rfl
    | some piece =>
      obtain ⟨hi, -⟩ := List.getElem?_eq_some_iff.mp hpiece
      have hzip : ((g.split 0 batchSize).zip (ctx.intermediateInputBatches.zip
          (ctx.promptBatches.zip ctx.sequencesForBatches)))[i]?
            = some (piece, [], ctx.promptBatches[i], []) := by
        simp only [List.getElem?_zip_eq_some, hinputs, hspans, hpiece, List.getElem?_replicate,
          if_pos hi, List.getElem?_eq_getElem (Nat.lt_of_lt_of_le hi hprompts), and_self]
      rw [hzip]
      exact congrArg some (sequentialBackward_nil piece _ _)
  obtain ⟨hndim, hpos⟩ := microBatchSize_spec hsize
  have hcat : catBatches (((g.split 0 batchSize).map fun piece =>
      (piece, (none : Option (List (Tensor α))))).map (·.1)) = .ok g := by
    rw [List.map_map, catBatches]
    show orRaise _ (Tensor.catAll 0 ((g.split 0 batchSize).map id)) = _
    rw [List.map_id, Tensor.catAll_split g hndim hpos]
    rfl
  have hany : ((((g.split 0 batchSize).map fun piece =>
      (piece, (none : Option (List (Tensor α))))).map (·.2)).any Option.isNone) = true := by
    obtain ⟨piece, hmem⟩ := List.exists_mem_of_length_pos (length_split_pos g batchSize)
    rw [List.map_map]
    exact List.any_eq_true.mpr ⟨none, List.mem_map.mpr ⟨piece, hmem, rfl⟩, rfl⟩
  rw [autogradBackward, hsize]
  simp only [hinputs, hspans, List.length_replicate, and_self, if_true, hgather, Option.map_some]
  show some (catBatches _ >>= fun gradInputs => _) = _
  rw [hcat]
  show some (if _ then _ else _) = _
  rw [if_pos hany]

/-- With spans gone and inputs left, the first batch raises. -/
theorem autogradBackward_used {ctx : AutogradContext α} {g : Tensor α} {batchSize : Nat}
    (hsize : microBatchSize maxTokensInBatch g = .ok batchSize)
    (hinputs : ctx.intermediateInputBatches.length = (g.split 0 batchSize).length)
    (hnonempty : ∀ inputs ∈ ctx.intermediateInputBatches, inputs ≠ [])
    (hspans : ctx.sequencesForBatches = List.replicate (g.split 0 batchSize).length [])
    (hprompts : (g.split 0 batchSize).length ≤ ctx.promptBatches.length)
    (attempts : Nat → List BackwardAttempt) :
    autogradBackward swarm maxTokensInBatch ctx g attempts
      = some (.error (.assertionError "")) := by
  have hpos := length_split_pos g batchSize
  obtain ⟨piece, pieces, hpieces⟩ := List.exists_cons_of_length_pos hpos
  obtain ⟨inputs, inputBatches, hctxInputs⟩ := List.exists_cons_of_length_pos (hinputs ▸ hpos)
  obtain ⟨prompts, promptBatches, hctxPrompts⟩ :=
    List.exists_cons_of_length_pos (Nat.lt_of_lt_of_le hpos hprompts)
  have hctxSpans : ctx.sequencesForBatches = [] :: List.replicate pieces.length [] := by
    rw [hspans, hpieces]
    rfl
  have hraises : sequentialBackward swarm piece inputs prompts [] (attempts 0)
      = some (.error (.assertionError "")) := by
    refine if_pos fun hlength => ?_
    exact hnonempty inputs (by rw [hctxInputs]; exact List.mem_cons_self)
      (List.length_eq_zero_iff.mp hlength)
  have hgather : gatherBackward swarm (g.split 0 batchSize) ctx attempts
      = some (.error (.assertionError "")) := by
    rw [gatherBackward, hpieces, hctxInputs, hctxPrompts, hctxSpans]
    simp only [List.zip_cons_cons, List.mapIdx_cons, hraises, gather]
  rw [autogradBackward, hsize]
  simp only [hinputs, hspans, List.length_replicate, and_self, if_true, hgather, Option.map_some]
  rfl

end Context

/-! ## The second backward pass -/

section Second

variable {swarm : Swarm α} {maxTokensInBatch : Nat} {x g outputs : Tensor α}
  {prompts : List (Tensor α)} {ctx : AutogradContext α} {attempts : Nat → List ForwardAttempt}
  {gradAttempts : Nat → List BackwardAttempt} {grads : Tensor α × Option (List (Tensor α))}

/-- **With a block to go through** the spans are gone, and every other `backward` raises. -/
theorem autogradBackward_second
    (hforward : autogradForward swarm maxTokensInBatch x prompts attempts
      = some (.ok (outputs, ctx)))
    (hbackward : autogradBackward swarm maxTokensInBatch ctx g gradAttempts = some (.ok grads))
    (hblocks : swarm.blocks ≠ []) :
    ∃ left, autogradContextLeft swarm maxTokensInBatch ctx g gradAttempts = some left ∧
      left ≠ ctx ∧ ∀ g' : Tensor α, g'.shape = x.shape →
        ∀ attempts' : Nat → List BackwardAttempt,
          autogradBackward swarm maxTokensInBatch left g' attempts'
            = some (.error (.assertionError "")) := by
  obtain ⟨batchSize, records, hsize, hcount, hpromptBatches, hinputs, hspans, hrecords⟩ :=
    autogradForward_records hforward
  have hlength : ctx.sequencesForBatches.length = records.length := by
    rw [hspans, List.length_map]
  have hleft := autogradContextLeft_of_returns (hlength ▸ hpromptBatches) hbackward
  rw [hlength] at hleft
  refine ⟨_, hleft, fun hsame => ?_, fun g' hg' attempts' => ?_⟩
  · -- a span of the first batch is gone
    obtain ⟨record, hmem⟩ := List.exists_mem_of_length_pos (hcount ▸ length_split_pos x batchSize)
    refine hblocks ((hrecords record hmem).2.mp
      (List.eq_of_mem_replicate (n := records.length) ?_))
    have hspansLeft : List.replicate records.length [] = ctx.sequencesForBatches :=
      congrArg AutogradContext.sequencesForBatches hsame
    rw [hspansLeft, hspans]
    exact List.mem_map_of_mem hmem
  · have hcount' : (g'.split 0 batchSize).length = records.length :=
      (length_split_congr hg' batchSize).trans hcount.symm
    refine autogradBackward_used ((microBatchSize_congr hg').trans hsize) ?_
      (fun inputs hmem hnil => hblocks ?_) (by rw [hcount']) (by rw [hcount']; exact hpromptBatches)
      attempts'
    · rw [hcount', hinputs, List.length_map]
    · rw [hinputs] at hmem
      obtain ⟨record, hrecord, rfl⟩ := List.mem_map.mp hmem
      obtain ⟨hlengths, hdone⟩ := hrecords record hrecord
      rw [hnil] at hlengths
      exact hdone.mp (List.length_eq_zero_iff.mp hlengths.symm)

/-- With none there is nothing to lose. -/
theorem backwardRepeats_of_no_blocks
    (hforward : autogradForward swarm maxTokensInBatch x prompts attempts
      = some (.ok (outputs, ctx)))
    (hbackward : autogradBackward swarm maxTokensInBatch ctx g gradAttempts = some (.ok grads))
    (hblocks : swarm.blocks = []) :
    autogradContextLeft swarm maxTokensInBatch ctx g gradAttempts = some ctx ∧
      BackwardRepeats swarm maxTokensInBatch prompts x ctx ctx := by
  obtain ⟨batchSize, records, hsize, hcount, hpromptBatches, hinputs, hspans, hrecords⟩ :=
    autogradForward_records hforward
  have hlength : ctx.sequencesForBatches.length = records.length := by
    rw [hspans, List.length_map]
  have hnil : ctx.sequencesForBatches = List.replicate records.length [] := by
    rw [hspans, List.eq_replicate_iff, List.length_map]
    refine ⟨rfl, fun spans hmem => ?_⟩
    obtain ⟨record, hrecord, rfl⟩ := List.mem_map.mp hmem
    exact (hrecords record hrecord).2.mpr hblocks
  have hinputsNil : ctx.intermediateInputBatches = List.replicate records.length [] := by
    rw [hinputs, List.eq_replicate_iff, List.length_map]
    refine ⟨rfl, fun inputs hmem => ?_⟩
    obtain ⟨record, hrecord, rfl⟩ := List.mem_map.mp hmem
    obtain ⟨hlengths, hdone⟩ := hrecords record hrecord
    rw [hdone.mpr hblocks] at hlengths
    exact List.length_eq_zero_iff.mp hlengths
  have hleft := autogradContextLeft_of_returns (hlength ▸ hpromptBatches) hbackward
  rw [hlength, ← hnil] at hleft
  refine ⟨hleft, rfl, fun g' hg' attempts' _ => ?_⟩
  have hcount' : (g'.split 0 batchSize).length = records.length :=
    (length_split_congr hg' batchSize).trans hcount.symm
  rw [autogradBackward_nil ((microBatchSize_congr hg').trans hsize)
    (by rw [hcount']; exact hinputsNil) (by rw [hcount']; exact hnil)
    (by rw [hcount']; exact hpromptBatches), vectorJacobian, Swarm.layers, hblocks]
  rfl

end Second

/-- **A backward pass uses the context up.**  However the servers failed on the way, once `forward`
    and `backward` have returned, another `backward` finds the context unchanged, and returns the
    product for its own gradient, if and only if there was no block to go through; else it
    raises. -/
theorem autogradBackward_repeats_iff (swarm : Swarm α) (maxTokensInBatch : Nat) (x : Tensor α)
    (prompts : List (Tensor α)) (attempts : Nat → List ForwardAttempt) (outputs : Tensor α)
    (ctx : AutogradContext α)
    (hforward : autogradForward swarm maxTokensInBatch x prompts attempts
      = some (.ok (outputs, ctx)))
    (g : Tensor α) (gradAttempts : Nat → List BackwardAttempt)
    (grads : Tensor α × Option (List (Tensor α)))
    (hbackward : autogradBackward swarm maxTokensInBatch ctx g gradAttempts
      = some (.ok grads)) :
    ∃ left, autogradContextLeft swarm maxTokensInBatch ctx g gradAttempts = some left ∧
      (BackwardRepeats swarm maxTokensInBatch prompts x ctx left ↔ swarm.blocks = []) ∧
      (swarm.blocks ≠ [] → ∀ g' : Tensor α, g'.shape = x.shape →
        ∀ attempts' : Nat → List BackwardAttempt,
          autogradBackward swarm maxTokensInBatch left g' attempts'
            = some (.error (.assertionError ""))) := by
  by_cases hblocks : swarm.blocks = []
  · obtain ⟨hleft, hrepeats⟩ := backwardRepeats_of_no_blocks hforward hbackward hblocks
    exact ⟨ctx, hleft, iff_of_true hrepeats hblocks, fun hne => absurd hblocks hne⟩
  · obtain ⟨left, hleft, hne, hraises⟩ := autogradBackward_second hforward hbackward hblocks
    exact ⟨left, hleft, iff_of_false (fun hrepeats => hne hrepeats.unchanged) hblocks,
      fun _ => hraises⟩

/-- Servers answer from the second attempt on. -/
def scaleBackwards : List BackwardAttempt :=
  ⟨[], some .requestFailed⟩ :: List.replicate 3 ⟨scaleForwards, none⟩

theorem scalePrompts_fit : DeepPrompts 3 [1, 2, 1] scalePrompts :=
  .inr ⟨rfl, fun prompt hmem => by
    rw [List.eq_of_mem_replicate hmem]
    exact ⟨rfl, 1, 2, 1, 1, rfl, rfl, by decide⟩⟩

/-- The passes over three blocks return. -/
theorem scale_passes : ∃ outputs ctx grads,
    autogradForward scaleSwarm 4 scaleInput scalePrompts (fun _ => scaleForwards)
        = some (.ok (outputs, ctx)) ∧
      autogradBackward scaleSwarm 4 ctx scaleInput (fun _ => scaleBackwards)
        = some (.ok grads) := by
  have hblocks : ∀ block ∈ scaleSwarm.blocks, block.RowWise := by
    intro block hmem
    simp only [scaleSwarm, List.mem_cons, List.not_mem_nil, or_false] at hmem
    rcases hmem with rfl | rfl | rfl <;> exact scaleBlock_rowWise _
  have hretry : MayRetry (some 3) 0 := by
    intro m hm
    obtain rfl := Option.some.inj hm
    exact Or.inr (by decide)
  have hx : scaleInput.shape = [1, 2, 1] := rfl
  obtain ⟨ctx, hforward⟩ : ∃ ctx, autogradForward scaleSwarm 4 scaleInput scalePrompts
      (fun _ => scaleForwards)
        = some (.ok (Layer.chain (scaleSwarm.layers scalePrompts) scaleInput, ctx)) :=
    autogradForward_recovers hblocks hx (by decide) (by decide) scalePrompts_fit
      fun _ => scaleForwards_recover
  obtain ⟨-, hctx⟩ := autogradForward_spec hblocks hx (by decide) (by decide) scalePrompts_fit
    hforward
  refine ⟨_, ctx, _, hforward, autogradBackward_recovers hblocks hx (by decide) (by decide)
    scalePrompts_fit rfl hctx fun _ _ _ => .bad (fun h => absurd rfl h) hretry ?_⟩
  exact .good ⟨rfl, fun _ => scaleForwards_recover⟩ (.good ⟨rfl, fun h => absurd rfl h⟩
    (.good ⟨rfl, fun h => absurd rfl h⟩ (.finished 0 [])))

theorem autogradBackward_repeats_iff_three : ∃ ctx left,
    autogradContextLeft scaleSwarm 4 ctx scaleInput (fun _ => scaleBackwards) = some left ∧
      (BackwardRepeats scaleSwarm 4 scalePrompts scaleInput ctx left ↔ scaleSwarm.blocks = []) := by
  obtain ⟨outputs, ctx, grads, hforward, hbackward⟩ := scale_passes
  obtain ⟨left, hleft, hiff, -⟩ := autogradBackward_repeats_iff scaleSwarm 4 scaleInput scalePrompts _
    outputs ctx hforward scaleInput _ grads hbackward
  exact ⟨ctx, left, hleft, hiff⟩

/-- The gradient of the first pass is not returned again. -/
theorem second_backward_raises : ∃ outputs ctx grads left,
    autogradForward scaleSwarm 4 scaleInput scalePrompts (fun _ => scaleForwards)
        = some (.ok (outputs, ctx)) ∧
      autogradBackward scaleSwarm 4 ctx scaleInput (fun _ => scaleBackwards) = some (.ok grads) ∧
      autogradContextLeft scaleSwarm 4 ctx scaleInput (fun _ => scaleBackwards) = some left ∧
      left ≠ ctx ∧
      autogradBackward scaleSwarm 4 left scaleInput (fun _ => scaleBackwards)
        = some (.error (.assertionError "")) := by
  obtain ⟨outputs, ctx, grads, hforward, hbackward⟩ := scale_passes
  obtain ⟨left, hleft, hne, hraises⟩ := autogradBackward_second hforward hbackward
    (List.cons_ne_nil _ _)
  exact ⟨outputs, ctx, grads, left, hforward, hbackward, hleft, hne, hraises scaleInput rfl _⟩

end Drift
