/-
  `_RemoteSequentialAutogradFunction` of `client/sequential_autograd.py`: the batch is split into
  batches of at most `MAX_TOKENS_IN_BATCH` tokens, each is run through the swarm on its own, and the
  results are put together again.

  A batch is a range of rows.  If the blocks work on the rows independently, the chain of the blocks
  with the prompts of the rows computes the rows of what the whole chain computes
  (`restricts_rows`); so the outputs and the gradients are those of one pass over the whole batch,
  whatever routes the passes take (`microBatching_transparent`).

  Of several passes that raise, the first in the order of the batches raises here.
-/
import Drift.Client.AutogradRecovery
import Drift.Lib.Chunks
import Mathlib.Data.List.Induction

namespace Drift

variable {α : Type}

/-- `asyncio.gather` of coroutines, one of which may not end. -/
def gather {ε β : Type} : List (Option (Except ε β)) → Option (Except ε (List β))
  | [] => some (.ok [])
  | none :: _ => none
  | some (.error exc) :: _ => some (.error exc)
  | some (.ok result) :: results => (gather results).map fun rest => rest.map (result :: ·)

/-- `ctx`. -/
structure AutogradContext (α : Type) where
  promptBatches : List (List (Tensor α))
  intermediateInputBatches : List (List (Tensor α))
  sequencesForBatches : List (List RemoteSpanInfo)

/-- `max(MAX_TOKENS_IN_BATCH // t.shape[1], 1)`. -/
def microBatchSize (maxTokensInBatch : Nat) (t : Tensor α) : Except PyExc Nat := do
  let seqLength ← orRaise .indexError t.shape[1]?
  if seqLength = 0 then .error .zeroDivisionError
  else .ok (max (maxTokensInBatch / seqLength) 1)

/-! ## All coroutines -/

/-- The gather returns results exactly when every coroutine returned one. -/
theorem gather_eq_ok {ε β : Type} : ∀ {coroutines : List (Option (Except ε β))} {results : List β},
    gather coroutines = some (.ok results) ↔ coroutines = results.map fun r => some (.ok r)
  | [], results => by
    constructor
    · intro h
      obtain rfl := Except.ok.inj (Option.some.inj h)
      rfl
    · intro h
      obtain rfl := List.map_eq_nil_iff.mp h.symm
      rfl
  | none :: coroutines, results => by
    refine iff_of_false (fun h => nomatch h) fun h => ?_
    cases results <;> nomatch h
  | some (.error exc) :: coroutines, results => by
    refine iff_of_false (fun h => nomatch h) fun h => ?_
    cases results <;> nomatch h
  | some (.ok result) :: coroutines, results => by
    constructor
    · intro h
      obtain ⟨gathered, hgathered, hmap⟩ := Option.map_eq_some_iff.mp h
      obtain ⟨rest, rfl, rfl⟩ := except_map_eq_ok.mp hmap
      rw [gather_eq_ok.mp hgathered]
      rfl
    · intro h
      cases results with
      | nil => nomatch h
      | cons first rest =>
        obtain ⟨hfirst, hrest⟩ := List.cons.inj h
        obtain rfl := Except.ok.inj (Option.some.inj hfirst)
        rw [gather, gather_eq_ok.mpr hrest]
        rfl

section Gather

variable {ε β γ : Type} {coroutine : Nat → γ → Option (Except ε β)} {batches : List γ}

/-- What is gathered is what the coroutines returned. -/
theorem gather_mapIdx {results : List β}
    (h : gather (batches.mapIdx coroutine) = some (.ok results)) :
    results.length = batches.length ∧ ∀ (i : Nat) (batch : γ), batches[i]? = some batch →
      ∃ result, results[i]? = some result ∧ coroutine i batch = some (.ok result) := by
  have heq := gather_eq_ok.mp h
  constructor
  · have hlength := congrArg List.length heq
    rw [List.length_mapIdx, List.length_map] at hlength
    exact hlength.symm
  · intro i batch hbatch
    have hget := congrArg (·[i]?) heq
    simp only [List.getElem?_mapIdx, hbatch, Option.map_some, List.getElem?_map] at hget
    obtain ⟨result, hresult, hsome⟩ := Option.map_eq_some_iff.mp hget.symm
    exact ⟨result, hresult, hsome.symm⟩

/-- If all of them return, so does `gather`. -/
theorem exists_gather_mapIdx (h : ∀ (i : Nat) (batch : γ), batches[i]? = some batch →
      ∃ result, coroutine i batch = some (.ok result)) :
    ∃ results, gather (batches.mapIdx coroutine) = some (.ok results) := by
  have hall : ∀ coroutines : List (Option (Except ε β)),
      (∀ c ∈ coroutines, ∃ result, c = some (.ok result)) →
      ∃ results : List β, coroutines = results.map fun r => some (.ok r) := by
    intro coroutines
    induction coroutines with
    | nil => exact fun _ => ⟨[], rfl⟩
    | cons c coroutines ih =>
      intro hreturn
      obtain ⟨⟨result, rfl⟩, hrest⟩ := List.forall_mem_cons.mp hreturn
      obtain ⟨results, rfl⟩ := ih hrest
      exact ⟨result :: results, rfl⟩
  obtain ⟨results, heq⟩ := hall (batches.mapIdx coroutine) fun c hc => by
    obtain ⟨i, hi, rfl⟩ := List.mem_mapIdx.mp hc
    exact h i _ (List.getElem?_eq_getElem hi)
  exact ⟨results, gather_eq_ok.mpr heq⟩

end Gather

section

variable [Zero α]

/-- `prompts.split(size, dim=1)`, of prompts given by their slices along the first axis. -/
def splitPromptBatches (size : Nat) (prompts : List (Tensor α)) : List (List (Tensor α)) :=
  (chunkBounds ((prompts.head?.map fun prompt => prompt.shape.getD 0 0).getD 0) size).map
    fun bounds => prompts.map fun prompt => prompt.slice 0 bounds.1 bounds.2

/-- `torch.cat(batches, dim=0)`. -/
def catBatches (batches : List (Tensor α)) : Except PyExc (Tensor α) :=
  orRaise (.runtimeError "Sizes of tensors must match except in dimension 0")
    (Tensor.catAll 0 batches)

/-- `torch.cat(batches, dim=1)`, of prompts given by their slices along the first axis. -/
def catPromptBatches (batches : List (List (Tensor α))) : Except PyExc (List (Tensor α)) :=
  match batches with
  | [] => .error (.runtimeError "torch.cat(): expected a non-empty list of Tensors")
  | first :: rest =>
    if ∀ batch ∈ rest, batch.length = first.length then
      orRaise (.runtimeError "Sizes of tensors must match except in dimension 1")
        ((List.range first.length).mapM fun block =>
          Tensor.catAll 0 (batches.filterMap (·[block]?)))
    else .error (.runtimeError "Sizes of tensors must match except in dimension 1")

variable [Add α]

/-- `_gather_forward`. -/
def gatherForward (swarm : Swarm α) (inputBatches : List (Tensor α))
    (promptBatches : List (List (Tensor α))) (attempts : Nat → List ForwardAttempt) :
    Option (Except PyExc (List (ForwardRecord α))) :=
  gather ((inputBatches.zip promptBatches).mapIdx fun i (inputBatch, promptBatch) =>
    sequentialForward swarm inputBatch promptBatch 0 swarm.blocks.length (attempts i))

/-- `_gather_backward`. -/
def gatherBackward (swarm : Swarm α) (gradOutputBatches : List (Tensor α))
    (ctx : AutogradContext α) (attempts : Nat → List BackwardAttempt) :
    Option (Except PyExc (List (Tensor α × Option (List (Tensor α))))) :=
  gather ((gradOutputBatches.zip (ctx.intermediateInputBatches.zip
    (ctx.promptBatches.zip ctx.sequencesForBatches))).mapIdx
      fun i (gradOutput, inputBatch, promptBatch, spans) =>
        sequentialBackward swarm gradOutput inputBatch promptBatch spans (attempts i))

/-- `forward`.  The prompts `None` are the dummy ones. -/
def autogradForward (swarm : Swarm α) (maxTokensInBatch : Nat) (inputs : Tensor α)
    (prompts : List (Tensor α)) (attempts : Nat → List ForwardAttempt) :
    Option (Except PyExc (Tensor α × AutogradContext α)) :=
  match microBatchSize maxTokensInBatch inputs with
  | .error exc => some (.error exc)
  | .ok batchSize =>
    let inputBatches := inputs.split 0 batchSize
    let promptBatches :=
      if prompts.all isDummy then List.replicate inputBatches.length []
      else splitPromptBatches batchSize prompts
    (gatherForward swarm inputBatches promptBatches attempts).map fun outputs => do
      let outputs ← outputs
      if outputs.length = inputBatches.length then do
        let output ← catBatches (outputs.map (·.outputs))
        .ok (output, ⟨promptBatches, outputs.map (·.intermediateInputs),
          outputs.map (·.doneSequences)⟩)
      else .error (.assertionError "")

/-- `backward`. -/
def autogradBackward (swarm : Swarm α) (maxTokensInBatch : Nat) (ctx : AutogradContext α)
    (gradOutputs : Tensor α) (attempts : Nat → List BackwardAttempt) :
    Option (Except PyExc (Tensor α × Option (List (Tensor α)))) :=
  match microBatchSize maxTokensInBatch gradOutputs with
  | .error exc => some (.error exc)
  | .ok batchSize =>
    let gradOutputBatches := gradOutputs.split 0 batchSize
    if ctx.intermediateInputBatches.length = gradOutputBatches.length ∧
        gradOutputBatches.length = ctx.sequencesForBatches.length then
      (gatherBackward swarm gradOutputBatches ctx attempts).map fun outputs => do
        let outputs ← outputs
        let gradInputs ← catBatches (outputs.map (·.1))
        let gradPromptBatches := outputs.map (·.2)
        if gradPromptBatches.any Option.isNone then .ok (gradInputs, none)
        else do
          let gradPrompts ← catPromptBatches (gradPromptBatches.filterMap id)
          .ok (gradInputs, some gradPrompts)
    else some (.error (.assertionError ""))

/-! ## Blocks that work on rows -/

/-- Some of the rows of a tensor. -/
def rows (bounds : Nat × Nat) (t : Tensor α) : Tensor α := t.slice 0 bounds.1 bounds.2

omit [Add α] in
/-- The block acts on the rows of a batch independently, forward and backward. -/
structure DiffBlock.RowWise (block : DiffBlock α) : Prop where
  forward : ∀ (x : Tensor α) (bounds : Nat × Nat), x.shape.length = 3 → bounds.1 < bounds.2 →
    bounds.2 ≤ x.shape.getD 0 0 → block.forward (rows bounds x) = rows bounds (block.forward x)
  backward : ∀ (x g : Tensor α) (bounds : Nat × Nat), x.shape.length = 3 → g.shape = x.shape →
    bounds.1 < bounds.2 → bounds.2 ≤ x.shape.getD 0 0 →
    block.backward (rows bounds x) (rows bounds g) = rows bounds (block.backward x g)

section Rows

variable {b n hid : Nat} {bounds : Nat × Nat}

omit [Add α] in
theorem shape_rows {t : Tensor α} {m : Nat} (ht : t.shape = [b, m, hid]) (hle : bounds.1 ≤ bounds.2)
    (hb : bounds.2 ≤ b) : (rows bounds t).shape = [bounds.2 - bounds.1, m, hid] := by
  rw [rows, Tensor.shape_slice_of_le hle (by rw [ht]; exact hb), ht]
  rfl

omit [Add α] in
/-- A micro-batch reads the rows of the batch from its lower bound on. -/
theorem get_rows {t : Tensor α} {m i j k : Nat} (ht : t.shape = [b, m, hid])
    (hle : bounds.1 ≤ bounds.2) (hb : bounds.2 ≤ b) (hi : i < bounds.2 - bounds.1) (hj : j < m)
    (hk : k < hid) : (rows bounds t).get [i, j, k] = t.get [i + bounds.1, j, k] := by
  refine Tensor.get_slice [i, j, k] hle (by rw [ht]; exact hb) ?_
  rw [ht]
  exact ⟨hi, hj, hk, trivial⟩

/-- The prompts of the rows are added to the rows. -/
theorem promptAdd_rows {prompt : Option (Tensor α)} {x : Tensor α} (hx : x.shape = [b, n, hid])
    (hfits : PromptFits x.shape prompt) (hle : bounds.1 ≤ bounds.2) (hb : bounds.2 ≤ b) :
    promptAdd (prompt.map (rows bounds)) (rows bounds x) = rows bounds (promptAdd prompt x) := by
  rcases prompt with _ | prompt
  · rfl
  obtain ⟨-, b', n', h', p, hx', hprompt, hp⟩ := hfits
  obtain ⟨rfl, rfl, rfl⟩ : b = b' ∧ n = n' ∧ hid = h' := by
    rw [hx] at hx'
    simpa using hx'
  have hlen : (rows bounds prompt).shape = [bounds.2 - bounds.1, p, hid] :=
    shape_rows hprompt hle hb
  have hshape : (promptAdd (some (rows bounds prompt)) (rows bounds x)).shape
      = [bounds.2 - bounds.1, n, hid] := by
    rw [shape_promptAdd, shape_rows hx hle hb]
  have hshape' : (rows bounds (promptAdd (some prompt) x)).shape
      = [bounds.2 - bounds.1, n, hid] :=
    shape_rows (by rw [shape_promptAdd, hx]) hle hb
  refine Tensor.ext_get (hshape.trans hshape'.symm) fun ix hix => ?_
  rw [Option.map_some, hshape] at hix
  obtain ⟨i, j, k, rfl, hi, hj, hk⟩ := hix.exists_three
  have hin : InBounds x.shape [i + bounds.1, j, k] := by
    rw [hx]
    exact ⟨by omega, hj, hk, trivial⟩
  have hshapes : prompt.shape.getD 1 0 = p ∧ (rows bounds prompt).shape.getD 1 0 = p := by
    rw [hprompt, hlen]
    exact ⟨rfl, rfl⟩
  rw [get_rows (by rw [shape_promptAdd, hx]) hle hb hi hj hk, Option.map_some, promptAdd, promptAdd,
    Tensor.get_patch _ (by rw [shape_rows hx hle hb]; exact ⟨hi, hj, hk, trivial⟩),
    Tensor.get_patch _ hin, hshapes.1, hshapes.2, get_rows hx hle hb hi hj hk]
  show (if j < p then _ else _ : Option α).getD _ = (if j < p then _ else _ : Option α).getD _
  split
  · rename_i hlt
    rw [get_rows hprompt hle hb hi hlt hk]
  · rfl

omit [Add α] in
/-- The gradients of the prompts of the rows are those of the rows. -/
theorem promptGrad_rows {prompt : Option (Tensor α)} {g : Tensor α} (hg : g.shape = [b, n, hid])
    (hfits : PromptFits g.shape prompt) (hle : bounds.1 ≤ bounds.2) (hb : bounds.2 ≤ b) :
    promptGrad (rows bounds g) (prompt.map (rows bounds))
      = (promptGrad g prompt).map (rows bounds) := by
  rcases prompt with _ | prompt
  · rfl
  obtain ⟨-, b', n', h', p, hg', hprompt, -⟩ := hfits
  obtain ⟨rfl, rfl, rfl⟩ : b = b' ∧ n = n' ∧ hid = h' := by
    rw [hg] at hg'
    simpa using hg'
  have hlen : (rows bounds prompt).shape.getD 1 0 = prompt.shape.getD 1 0 := by
    rw [shape_rows hprompt hle hb, hprompt]
    rfl
  refine congrArg (fun t => [t]) ?_
  rw [hlen]
  exact Tensor.slice_slice_comm g (by decide) (by simp [hg]) (by simp [hg]) _ _ _ _

/-- **A layer on rows.** -/
theorem restricts_promptLayer {block : DiffBlock α} (hblock : block.RowWise)
    {prompt : Option (Tensor α)} (hfits : PromptFits [b, n, hid] prompt) (hlt : bounds.1 < bounds.2)
    (hb : bounds.2 ≤ b) :
    Layer.Restricts (fun t => t.shape = [b, n, hid]) (rows bounds) (rows bounds)
      (promptLayer block prompt) (promptLayer block (prompt.map (rows bounds))) := by
  have hle := Nat.le_of_lt hlt
  have hadd : ∀ x : Tensor α, x.shape = [b, n, hid] →
      promptAdd (prompt.map (rows bounds)) (rows bounds x) = rows bounds (promptAdd prompt x) :=
    fun x hx => promptAdd_rows hx (by rw [hx]; exact hfits) hle hb
  have hshape : ∀ x : Tensor α, x.shape = [b, n, hid] → (promptAdd prompt x).shape = [b, n, hid] :=
    fun x hx => (shape_promptAdd prompt x).trans hx
  refine ⟨fun x hx => ?_, fun x g hx hg => ?_, fun x hx => ?_, fun x g hx hg => ?_⟩
  · rw [shape_promptLayer_apply, hx]
  · exact (block.shape_backward _ g).trans (hshape x hx)
  · show block.forward _ = _
    rw [hadd x hx]
    exact hblock.forward _ bounds (by rw [hshape x hx]; rfl) hlt (by rw [hshape x hx]; exact hb)
  · have hpull : block.backward (rows bounds (promptAdd prompt x)) (rows bounds g)
        = rows bounds (block.backward (promptAdd prompt x) g) :=
      hblock.backward _ g bounds (by rw [hshape x hx]; rfl) (hg.trans (hshape x hx).symm) hlt
        (by rw [hshape x hx]; exact hb)
    have hgrad : (block.backward (promptAdd prompt x) g).shape = [b, n, hid] :=
      (block.shape_backward _ g).trans (hshape x hx)
    show (block.backward _ _, promptGrad (block.backward _ _) _) = _
    rw [hadd x hx, hpull, promptGrad_rows hgrad (by rw [hgrad]; exact hfits) hle hb]
    rfl

/-- Blocks that work row by row do so with their prompts cut to the same rows. -/
theorem restricts_promptLayers (hlt : bounds.1 < bounds.2) (hb : bounds.2 ≤ b) :
    ∀ {blocks : List (DiffBlock α)} {prompts : List (Option (Tensor α))},
      (∀ block ∈ blocks, block.RowWise) → (∀ prompt ∈ prompts, PromptFits [b, n, hid] prompt) →
      List.Forall₂ (Layer.Restricts (fun t => t.shape = [b, n, hid]) (rows bounds) (rows bounds))
        (promptLayers blocks prompts) (promptLayers blocks (prompts.map (Option.map (rows bounds))))
  | [], _, _, _ => .nil
  | _ :: _, [], _, _ => .nil
  | block :: blocks, prompt :: prompts, hblocks, hfits => by
    obtain ⟨hblock, hblocks⟩ := List.forall_mem_cons.mp hblocks
    obtain ⟨hprompt, hfits⟩ := List.forall_mem_cons.mp hfits
    exact .cons (restricts_promptLayer hblock hprompt hlt hb)
      (restricts_promptLayers hlt hb hblocks hfits)

/-- The prompts of a batch. -/
def batchPrompts (prompts : List (Tensor α)) (bounds : Nat × Nat) : List (Tensor α) :=
  if prompts.all isDummy then [] else prompts.map (rows bounds)

omit [Add α] in
theorem isDummy_rows {prompt : Tensor α} {p : Nat} (hprompt : prompt.shape = [b, p, hid])
    (hdummy : isDummy prompt = false) (hlt : bounds.1 < bounds.2) (hb : bounds.2 ≤ b) :
    isDummy (rows bounds prompt) = false := by
  have hpos : ¬ b * (p * (hid * 1)) = 0 := by
    have hnumel : decide (prompt.shape.prod = 0) = false := hdummy
    rw [hprompt] at hnumel
    exact of_decide_eq_false hnumel
  show decide ((rows bounds prompt).shape.prod = 0) = false
  rw [shape_rows hprompt (Nat.le_of_lt hlt) hb]
  refine decide_eq_false ?_
  show ¬ (bounds.2 - bounds.1) * (p * (hid * 1)) = 0
  have hrest : p * (hid * 1) ≠ 0 := fun hzero => hpos (by rw [hzero, Nat.mul_zero])
  exact Nat.mul_ne_zero (by omega) hrest

variable {prompts : List (Tensor α)} {numBlocks : Nat}

omit [Add α] in
/-- The prompts of a batch fit the batch. -/
theorem batchPrompts_spec (hprompts : DeepPrompts numBlocks [b, n, hid] prompts)
    (hlt : bounds.1 < bounds.2) (hb : bounds.2 ≤ b) :
    DeepPrompts numBlocks [bounds.2 - bounds.1, n, hid] (batchPrompts prompts bounds) ∧
      splitPrompts numBlocks (batchPrompts prompts bounds)
        = (splitPrompts numBlocks prompts).map (Option.map (rows bounds)) := by
  rw [batchPrompts]
  by_cases hdummy : prompts.all isDummy = true
  · rw [if_pos hdummy]
    refine ⟨.inl rfl, ?_⟩
    rw [splitPrompts, splitPrompts, if_pos hdummy, List.map_replicate]
    rfl
  · obtain ⟨hlength, hfits⟩ := hprompts.resolve_left hdummy
    have hrows : ∀ prompt ∈ prompts, PromptFits [bounds.2 - bounds.1, n, hid]
        (some (rows bounds prompt)) := by
      intro prompt hmem
      obtain ⟨hnot, b', n', h', p, hshape, hprompt, hp⟩ := hfits prompt hmem
      obtain ⟨rfl, rfl, rfl⟩ : b = b' ∧ n = n' ∧ hid = h' := by simpa using hshape
      exact ⟨isDummy_rows hprompt hnot hlt hb, _, n, hid, p, rfl,
        shape_rows hprompt (Nat.le_of_lt hlt) hb, hp⟩
    have hnone : ¬ (prompts.map (rows bounds)).all isDummy = true := by
      intro hall
      refine hdummy (List.all_eq_true.mpr fun prompt hmem => ?_)
      have hyes := List.all_eq_true.mp hall _ (List.mem_map_of_mem hmem)
      rw [(hrows prompt hmem).1] at hyes
      cases hyes
    rw [if_neg hdummy]
    refine ⟨.inr ⟨(List.length_map _).trans hlength, fun prompt hmem => ?_⟩, ?_⟩
    · obtain ⟨whole, hwhole, rfl⟩ := List.mem_map.mp hmem
      exact hrows whole hwhole
    · rw [splitPrompts, splitPrompts, if_neg hdummy, if_neg hnone, List.map_map, List.map_map]
      refine List.map_congr_left fun prompt hmem => ?_
      show (if isDummy (rows bounds prompt) = true then none else some (rows bounds prompt))
        = Option.map (rows bounds) (if isDummy prompt = true then none else some prompt)
      rw [if_neg (by rw [(hrows prompt hmem).1]; decide),
        if_neg (by rw [(hfits prompt hmem).1]; decide)]
      rfl

/-- **The chain on a batch**: the blocks with the prompts of the rows. -/
theorem restricts_rows {swarm : Swarm α} (hblocks : ∀ block ∈ swarm.blocks, block.RowWise)
    (hprompts : DeepPrompts swarm.blocks.length [b, n, hid] prompts) (hlt : bounds.1 < bounds.2)
    (hb : bounds.2 ≤ b) :
    List.Forall₂ (Layer.Restricts (fun t => t.shape = [b, n, hid]) (rows bounds) (rows bounds))
      (swarm.layers prompts) (swarm.layers (batchPrompts prompts bounds)) := by
  rw [Swarm.layers, Swarm.layers, (batchPrompts_spec hprompts hlt hb).2]
  exact restricts_promptLayers hlt hb hblocks (splitPrompts_fits hprompts)

end Rows

/-! ## The batches -/

/-- Reading a list element by element. -/
theorem mapM_range_getElem? {β : Type} {ts : List β} {f : Nat → Option β}
    (h : ∀ i < ts.length, f i = ts[i]?) : (List.range ts.length).mapM f = some ts := by
  induction ts using List.reverseRecOn with
  | nil => rfl
  | append_singleton init last ih =>
    have hinit : (List.range init.length).mapM f = some init := by
      refine ih fun i hi => ?_
      rw [h i (by rw [List.length_append]; omega), List.getElem?_append_left hi]
    have hlast : f init.length = some last := by
      rw [h _ (by rw [List.length_append]; exact Nat.lt_succ_self _), List.getElem?_concat_length]
    rw [List.length_append, List.length_singleton, List.range_succ, List.mapM_append, hinit]
    show (do
      let r ← [init.length].mapM f
      pure (init ++ r)) = _
    rw [List.mapM_cons, hlast]
    rfl

section Batches

variable {swarm : Swarm α} {maxTokensInBatch : Nat} {x g : Tensor α} {prompts : List (Tensor α)}
  {b n hid : Nat}

omit [Zero α] [Add α] in
theorem microBatchSize_eq (hx : x.shape = [b, n, hid]) (hn : 0 < n) :
    microBatchSize maxTokensInBatch x = .ok (max (maxTokensInBatch / n) 1) := by
  rw [microBatchSize, hx]
  exact if_neg (Nat.ne_of_gt hn)

/-- The bounds of the batches. -/
def batchBounds (maxTokensInBatch b n : Nat) : List (Nat × Nat) :=
  chunkBounds b (max (maxTokensInBatch / n) 1)

/-- Every micro-batch has a row, and all of its rows are the batch's. -/
theorem mem_batchBounds {bounds : Nat × Nat} (h : bounds ∈ batchBounds maxTokensInBatch b n)
    (hb : 0 < b) : bounds.1 < bounds.2 ∧ bounds.2 ≤ b :=
  le_of_mem_chunkBounds h hb (Nat.lt_of_lt_of_le Nat.one_pos (Nat.le_max_right _ _))

omit [Add α] in
theorem split_eq (hx : x.shape = [b, n, hid]) :
    x.split 0 (max (maxTokensInBatch / n) 1)
      = (batchBounds maxTokensInBatch b n).map fun bounds => rows bounds x := by
  rw [Tensor.split, hx]
  rfl

omit [Add α] in
/-- The rows of the batches together. -/
theorem catAll_rows {t : Tensor α} {m : Nat} (ht : t.shape = [b, m, hid]) :
    Tensor.catAll 0 ((batchBounds maxTokensInBatch b n).map fun bounds => rows bounds t)
      = some t := by
  have hsplit : t.split 0 (max (maxTokensInBatch / n) 1)
      = (batchBounds maxTokensInBatch b n).map fun bounds => rows bounds t := by
    rw [Tensor.split, ht]
    rfl
  rw [← hsplit]
  exact Tensor.catAll_split t (by simp [ht]) (Nat.lt_of_lt_of_le Nat.one_pos (Nat.le_max_right _ _))

omit [Add α] in
/-- The micro-batches put together again are the batch. -/
theorem catBatches_rows {t : Tensor α} {m : Nat} (ht : t.shape = [b, m, hid]) :
    catBatches ((batchBounds maxTokensInBatch b n).map fun bounds => rows bounds t) = .ok t := by
  rw [catBatches, catAll_rows ht]
  rfl

omit [Add α] in
theorem batchBounds_ne_nil : batchBounds maxTokensInBatch b n ≠ [] := by
  rw [batchBounds, chunkBounds, ne_eq, List.map_eq_nil_iff, List.range_eq_nil]
  omega

omit [Add α] in
/-- The prompts of the batches together. -/
theorem catPromptBatches_rows {ts : List (Tensor α)} (hts : ∀ t ∈ ts, ∃ m, t.shape = [b, m, hid]) :
    catPromptBatches ((batchBounds maxTokensInBatch b n).map fun bounds => ts.map (rows bounds))
      = .ok ts := by
  have hcat : ∀ block < ts.length, Tensor.catAll 0
      (((batchBounds maxTokensInBatch b n).map fun bounds => ts.map (rows bounds)).filterMap
        (·[block]?)) = ts[block]? := by
    intro block hblock
    obtain ⟨m, hm⟩ := hts ts[block] (List.getElem_mem hblock)
    rw [List.filterMap_map, List.getElem?_eq_getElem hblock, ← catAll_rows hm]
    refine congrArg (Tensor.catAll 0) ?_
    rw [← List.filterMap_eq_map]
    refine List.filterMap_congr fun bounds _ => ?_
    show (ts.map (rows bounds))[block]? = some (rows bounds ts[block])
    rw [List.getElem?_map, List.getElem?_eq_getElem hblock]
    rfl
  obtain ⟨first, rest, hbounds⟩ := List.exists_cons_of_ne_nil
    (@batchBounds_ne_nil maxTokensInBatch b n)
  rw [hbounds] at hcat ⊢
  rw [List.map_cons] at hcat ⊢
  rw [catPromptBatches, if_pos, List.length_map, mapM_range_getElem? hcat]
  · rfl
  · intro batch hbatch
    obtain ⟨bounds, -, rfl⟩ := List.mem_map.mp hbatch
    rw [List.length_map, List.length_map]

omit [Add α] in
/-- The prompts of each micro-batch are the batch's prompts, cut to its rows. -/
theorem promptBatches_eq (hprompts : DeepPrompts swarm.blocks.length [b, n, hid] prompts) :
    (if prompts.all isDummy then
        List.replicate
          ((batchBounds maxTokensInBatch b n).map fun bounds => rows bounds x).length []
      else splitPromptBatches (max (maxTokensInBatch / n) 1) prompts)
      = (batchBounds maxTokensInBatch b n).map (batchPrompts prompts) := by
  by_cases hdummy : prompts.all isDummy = true
  · rw [if_pos hdummy, List.length_map, ← List.map_const']
    refine List.map_congr_left fun bounds _ => ?_
    rw [batchPrompts, if_pos hdummy]
  · obtain ⟨-, hfits⟩ := hprompts.resolve_left hdummy
    obtain ⟨prompt, rest, rfl⟩ : ∃ prompt rest, prompts = prompt :: rest := by
      cases prompts with
      | nil => exact absurd rfl hdummy
      | cons prompt rest => exact ⟨prompt, rest, rfl⟩
    obtain ⟨-, b', _, _, p, hshape, hprompt, -⟩ := hfits prompt List.mem_cons_self
    obtain rfl : b = b' := (List.cons.inj hshape).1
    rw [if_neg hdummy, splitPromptBatches, List.head?_cons, Option.map_some, hprompt]
    refine List.map_congr_left fun bounds _ => ?_
    rw [batchPrompts, if_neg hdummy]
    rfl

/-- The contexts of the batches. -/
structure IsContext (swarm : Swarm α) (prompts : List (Tensor α)) (x : Tensor α)
    (bounds : List (Nat × Nat)) (ctx : AutogradContext α) : Prop where
  promptBatches : ctx.promptBatches = bounds.map (batchPrompts prompts)
  lengths : ctx.intermediateInputBatches.length = bounds.length ∧
    ctx.sequencesForBatches.length = bounds.length
  records : ∀ (i : Nat) (batch : Nat × Nat), bounds[i]? = some batch →
    ∃ inputs spans, ctx.intermediateInputBatches[i]? = some inputs ∧
      ctx.sequencesForBatches[i]? = some spans ∧
      RecordUpTo (swarm.layers (batchPrompts prompts batch)) 0 (rows batch x) swarm.blocks.length
        inputs spans

theorem pySlice_layers (hprompts : DeepPrompts swarm.blocks.length [b, n, hid] prompts) :
    pySlice (swarm.layers prompts) 0 swarm.blocks.length = swarm.layers prompts := by
  have hlength : (swarm.layers prompts).length = swarm.blocks.length := by
    rw [Swarm.layers, promptLayers, List.length_zipWith, length_splitPrompts hprompts, Nat.min_self]
  rw [pySlice, ← hlength, List.take_length]
  rfl

section Passes

variable (hblocks : ∀ block ∈ swarm.blocks, block.RowWise) (hx : x.shape = [b, n, hid]) (hb : 0 < b)
  (hn : 0 < n) (hprompts : DeepPrompts swarm.blocks.length [b, n, hid] prompts)

include hblocks hx hb hprompts

/-- **The forward pass of a batch** returns the rows of the outputs. -/
theorem sequentialForward_rows {bounds : Nat × Nat}
    (hbounds : bounds ∈ batchBounds maxTokensInBatch b n) {attempts : List ForwardAttempt}
    {record : ForwardRecord α}
    (hrun : sequentialForward swarm (rows bounds x) (batchPrompts prompts bounds) 0
      swarm.blocks.length attempts = some (.ok record)) :
    record.outputs = rows bounds (Layer.chain (swarm.layers prompts) x) ∧
      RecordUpTo (swarm.layers (batchPrompts prompts bounds)) 0 (rows bounds x) swarm.blocks.length
        record.intermediateInputs record.doneSequences := by
  obtain ⟨hlt, hle⟩ := mem_batchBounds hbounds hb
  have hshape := shape_rows hx (Nat.le_of_lt hlt) hle
  have hbatch := (batchPrompts_spec hprompts hlt hle).1
  obtain ⟨houtputs, hrecord⟩ := sequentialForward_isRecord (by rw [hshape]; rfl)
    (by rw [hshape]; exact hbatch) (Nat.zero_le _) (Nat.le_refl _) hrun
  refine ⟨?_, hrecord⟩
  rw [houtputs, inputAt, pySlice_layers hbatch]
  exact (Layer.chain_restricts (restricts_rows hblocks hprompts hlt hle) hx).2

/-- **The backward pass of a batch** returns the rows of the gradients. -/
theorem sequentialBackward_rows (hg : g.shape = [b, n, hid]) {bounds : Nat × Nat}
    (hbounds : bounds ∈ batchBounds maxTokensInBatch b n) {inputs : List (Tensor α)}
    {spans : List RemoteSpanInfo}
    (hrecord : RecordUpTo (swarm.layers (batchPrompts prompts bounds)) 0 (rows bounds x)
      swarm.blocks.length inputs spans) {attempts : List BackwardAttempt}
    {result : Tensor α × Option (List (Tensor α))}
    (hrun : sequentialBackward swarm (rows bounds g) inputs (batchPrompts prompts bounds) spans
      attempts = some (.ok result)) :
    let grads := Layer.chainPull (swarm.layers prompts) x g
    result = (rows bounds grads.1,
      if grads.2 = [] then none else some (grads.2.map (rows bounds))) := by
  intro grads
  obtain ⟨hlt, hle⟩ := mem_batchBounds hbounds hb
  have hshape := shape_rows hx (Nat.le_of_lt hlt) hle
  have hbatch := (batchPrompts_spec hprompts hlt hle).1
  have hresult := sequentialBackward_exact (by rw [hshape]; rfl) (by rw [hshape]; exact hbatch)
    (Nat.le_refl _) hrecord hrun
  rw [pySlice_layers hbatch,
    (Layer.chainPull_restricts (restricts_rows hblocks hprompts hlt hle) hx hg).2] at hresult
  rw [hresult]
  simp only [List.map_eq_nil_iff]
  rfl

/-- The records that are gathered are those of the batches. -/
theorem gatherForward_spec {attempts : Nat → List ForwardAttempt}
    {records : List (ForwardRecord α)}
    (h : gatherForward swarm ((batchBounds maxTokensInBatch b n).map fun batch => rows batch x)
      ((batchBounds maxTokensInBatch b n).map (batchPrompts prompts)) attempts
        = some (.ok records)) :
    (records.map (·.outputs)) = (batchBounds maxTokensInBatch b n).map
        (fun batch => rows batch (Layer.chain (swarm.layers prompts) x)) ∧
      IsContext swarm prompts x (batchBounds maxTokensInBatch b n)
        ⟨(batchBounds maxTokensInBatch b n).map (batchPrompts prompts),
          records.map (·.intermediateInputs), records.map (·.doneSequences)⟩ := by
  obtain ⟨hlength, hreturned⟩ := gather_mapIdx h
  rw [List.length_zip, List.length_map, List.length_map, Nat.min_self] at hlength
  have hrecords : ∀ (i : Nat) (batch : Nat × Nat),
      (batchBounds maxTokensInBatch b n)[i]? = some batch → ∃ record, records[i]? = some record ∧
        record.outputs = rows batch (Layer.chain (swarm.layers prompts) x) ∧
        RecordUpTo (swarm.layers (batchPrompts prompts batch)) 0 (rows batch x) swarm.blocks.length
          record.intermediateInputs record.doneSequences := by
    intro i batch hbatch
    obtain ⟨record, hrecord, hrun⟩ := hreturned i (rows batch x, batchPrompts prompts batch) (by
      rw [List.getElem?_zip_eq_some, List.getElem?_map, List.getElem?_map, hbatch]
      exact ⟨rfl, rfl⟩)
    exact ⟨record, hrecord, sequentialForward_rows hblocks hx hb hprompts
      (List.mem_of_getElem? hbatch) hrun⟩
  refine ⟨List.ext_getElem? fun i => ?_, rfl, ⟨?_, ?_⟩, fun i batch hbatch => ?_⟩
  · rw [List.getElem?_map, List.getElem?_map]
    cases hbatch : (batchBounds maxTokensInBatch b n)[i]? with
    | none =>
      rw [List.getElem?_eq_none (by rw [hlength]; exact List.getElem?_eq_none_iff.mp hbatch)]
      rfl
    | some batch =>
      obtain ⟨record, hrecord, houtputs, -⟩ := hrecords i batch hbatch
      rw [hrecord]
      exact congrArg some houtputs
  · rw [List.length_map, hlength]
  · rw [List.length_map, hlength]
  · obtain ⟨record, hrecord, -, hupTo⟩ := hrecords i batch hbatch
    refine ⟨_, _, ?_, ?_, hupTo⟩
    · rw [List.getElem?_map, hrecord]
      rfl
    · rw [List.getElem?_map, hrecord]
      rfl

include hn

/-- **`forward`**, if it returns. -/
theorem autogradForward_spec {attempts : Nat → List ForwardAttempt} {outputs : Tensor α}
    {ctx : AutogradContext α}
    (h : autogradForward swarm maxTokensInBatch x prompts attempts = some (.ok (outputs, ctx))) :
    outputs = Layer.chain (swarm.layers prompts) x ∧
      IsContext swarm prompts x (batchBounds maxTokensInBatch b n) ctx := by
  rw [autogradForward, microBatchSize_eq hx hn] at h
  simp only [split_eq hx, promptBatches_eq hprompts] at h
  obtain ⟨gathered, hgathered, hbody⟩ := Option.map_eq_some_iff.mp h
  obtain ⟨records, rfl, hrest⟩ := except_bind_eq_ok.mp hbody
  obtain ⟨houtputs, hcontext⟩ := gatherForward_spec hblocks hx hb hprompts hgathered
  split at hrest
  case isFalse => nomatch hrest
  obtain ⟨output, houtput, hok⟩ := except_bind_eq_ok.mp hrest
  obtain ⟨rfl, rfl⟩ := Prod.mk.inj (Except.ok.inj hok)
  rw [houtputs, catBatches_rows (by rw [Swarm.layers, shape_chain_promptLayers, hx])] at houtput
  exact ⟨(Except.ok.inj houtput).symm, hcontext⟩

/-- It returns if the attempts of all batches get through. -/
theorem autogradForward_recovers {attempts : Nat → List ForwardAttempt}
    (hattempts : ∀ i, ForwardRecovers swarm.blocks.length swarm.maxRetries swarm.blocks.length
      (attempts i)) :
    ∃ ctx, autogradForward swarm maxTokensInBatch x prompts attempts
        = some (.ok (Layer.chain (swarm.layers prompts) x, ctx)) := by
  obtain ⟨records, hgather⟩ : ∃ records, gatherForward swarm
      ((batchBounds maxTokensInBatch b n).map fun batch => rows batch x)
      ((batchBounds maxTokensInBatch b n).map (batchPrompts prompts)) attempts
        = some (.ok records) := by
    refine exists_gather_mapIdx fun i batch hbatch => ?_
    rw [List.zip_map', List.getElem?_map] at hbatch
    obtain ⟨bounds, hbounds, rfl⟩ := Option.map_eq_some_iff.mp hbatch
    obtain ⟨hlt, hle⟩ := mem_batchBounds (List.mem_of_getElem? hbounds) hb
    have hshape := shape_rows hx (Nat.le_of_lt hlt) hle
    obtain ⟨record, hrun, -⟩ := sequentialForward_recovers (by rw [hshape]; rfl)
      (by rw [hshape]; exact (batchPrompts_spec hprompts hlt hle).1) (Nat.zero_le _)
      (Nat.le_refl _) (Nat.le_refl _) (hattempts i)
    exact ⟨record, hrun⟩
  obtain ⟨houtputs, hcontext⟩ := gatherForward_spec hblocks hx hb hprompts hgather
  have hlength : records.length
      = ((batchBounds maxTokensInBatch b n).map fun batch => rows batch x).length := by
    rw [List.length_map, ← hcontext.lengths.1, List.length_map]
  refine ⟨⟨(batchBounds maxTokensInBatch b n).map (batchPrompts prompts),
    records.map (·.intermediateInputs), records.map (·.doneSequences)⟩, ?_⟩
  rw [autogradForward, microBatchSize_eq hx hn]
  simp only [split_eq hx, promptBatches_eq hprompts, hgather, Option.map_some]
  show some (if records.length = _ then _ else _) = _
  rw [if_pos hlength, houtputs,
    catBatches_rows (by rw [Swarm.layers, shape_chain_promptLayers, hx])]
  rfl

omit hblocks hb hn hprompts in
/-- The gradients of the prompts keep the rows. -/
theorem shape_chainPull (blocks : List (DiffBlock α)) (prompts : List (Option (Tensor α))) :
    ∀ q ∈ (Layer.chainPull (promptLayers blocks prompts) x g).2, ∃ m, q.shape = [b, m, hid] := by
  induction blocks generalizing prompts x with
  | nil => exact fun q hq => absurd hq List.not_mem_nil
  | cons block blocks ih =>
    cases prompts with
    | nil => exact fun q hq => absurd hq List.not_mem_nil
    | cons prompt prompts =>
      intro q hq
      rcases List.mem_append.mp hq with hhere | hlater
      · rcases prompt with _ | prompt
        · exact absurd hhere List.not_mem_nil
        obtain rfl := List.mem_singleton.mp hhere
        rw [Tensor.shape_slice, block.shape_backward, shape_promptAdd, hx]
        exact ⟨_, rfl⟩
      · exact ih ((shape_promptLayer_apply block prompt x).trans hx) prompts q hlater

omit [Add α] hblocks hx hb hn hprompts in
/-- What `backward` makes of the rows of the gradients. -/
theorem mergeGradients_rows {grads : Tensor α × List (Tensor α)}
    (hfst : grads.1.shape = [b, n, hid])
    (hsnd : ∀ q ∈ grads.2, ∃ m, q.shape = [b, m, hid]) :
    let outputs := (batchBounds maxTokensInBatch b n).map fun bounds =>
      (rows bounds grads.1, if grads.2 = [] then none else some (grads.2.map (rows bounds)))
    (do
      let gradInputs ← catBatches (outputs.map (·.1))
      let gradPromptBatches := outputs.map (·.2)
      if gradPromptBatches.any Option.isNone then .ok (gradInputs, none)
      else do
        let gradPrompts ← catPromptBatches (gradPromptBatches.filterMap id)
        .ok (gradInputs, some gradPrompts))
      = (.ok (grads.1, if grads.2 = [] then none else some grads.2) :
          Except PyExc (Tensor α × Option (List (Tensor α)))) := by
  intro outputs
  have hinputs : outputs.map (·.1)
      = (batchBounds maxTokensInBatch b n).map fun bounds => rows bounds grads.1 :=
    List.map_map
  rw [hinputs, catBatches_rows hfst]
  show (if (outputs.map (·.2)).any Option.isNone = true then _ else _) = _
  by_cases hnil : grads.2 = []
  · have hany : (outputs.map (·.2)).any Option.isNone = true := by
      obtain ⟨first, rest, hbounds⟩ := List.exists_cons_of_ne_nil
        (@batchBounds_ne_nil maxTokensInBatch b n)
      simp [outputs, hbounds, hnil]
    rw [if_pos hany, if_pos hnil]
  · have hsome : outputs.map (·.2) = (batchBounds maxTokensInBatch b n).map fun bounds =>
        some (grads.2.map (rows bounds)) := by
      rw [List.map_map]
      exact List.map_congr_left fun bounds _ => if_neg hnil
    have hany : ¬ (outputs.map (·.2)).any Option.isNone = true := by
      rw [hsome]
      simp
    have hfilter : (outputs.map (·.2)).filterMap id
        = (batchBounds maxTokensInBatch b n).map fun bounds => grads.2.map (rows bounds) := by
      rw [hsome, List.filterMap_map]
      exact congrFun List.filterMap_eq_map _
    rw [if_neg hany, if_neg hnil, hfilter, catPromptBatches_rows hsnd]
    rfl

omit hn in
/-- The results that are gathered are the rows of the gradients. -/
theorem gatherBackward_spec (hg : g.shape = [b, n, hid]) {ctx : AutogradContext α}
    (hctx : IsContext swarm prompts x (batchBounds maxTokensInBatch b n) ctx)
    {attempts : Nat → List BackwardAttempt}
    {results : List (Tensor α × Option (List (Tensor α)))}
    (h : gatherBackward swarm ((batchBounds maxTokensInBatch b n).map fun batch => rows batch g)
      ctx attempts = some (.ok results)) :
    let grads := Layer.chainPull (swarm.layers prompts) x g
    results = (batchBounds maxTokensInBatch b n).map fun bounds =>
      (rows bounds grads.1, if grads.2 = [] then none else some (grads.2.map (rows bounds))) := by
  intro grads
  obtain ⟨hlength, hreturned⟩ := gather_mapIdx h
  simp only [List.length_zip, List.length_map, hctx.promptBatches, hctx.lengths.1, hctx.lengths.2,
    Nat.min_self] at hlength
  refine List.ext_getElem? fun i => ?_
  rw [List.getElem?_map]
  cases hbatch : (batchBounds maxTokensInBatch b n)[i]? with
  | none =>
    rw [List.getElem?_eq_none (by rw [hlength]; exact List.getElem?_eq_none_iff.mp hbatch)]
    rfl
  | some batch =>
    obtain ⟨inputs, spans, hinputs, hspans, hrecord⟩ := hctx.records i batch hbatch
    obtain ⟨result, hresult, hrun⟩ := hreturned i
      (rows batch g, inputs, batchPrompts prompts batch, spans) (by
        simp only [List.getElem?_zip_eq_some, List.getElem?_map, hbatch, hctx.promptBatches,
          hinputs, hspans, Option.map_some, and_self])
    rw [hresult]
    exact congrArg some (sequentialBackward_rows hblocks hx hb hprompts hg
      (List.mem_of_getElem? hbatch) hrecord hrun)

/-- **`backward`**, if it returns. -/
theorem autogradBackward_spec (hg : g.shape = [b, n, hid]) {ctx : AutogradContext α}
    (hctx : IsContext swarm prompts x (batchBounds maxTokensInBatch b n) ctx)
    {attempts : Nat → List BackwardAttempt} {result : Tensor α × Option (List (Tensor α))}
    (h : autogradBackward swarm maxTokensInBatch ctx g attempts = some (.ok result)) :
    let grads := Layer.chainPull (swarm.layers prompts) x g
    result = (grads.1, if grads.2 = [] then none else some grads.2) := by
  intro grads
  obtain ⟨hinputs, hspans⟩ := hctx.lengths
  rw [autogradBackward, microBatchSize_eq hg hn] at h
  simp only [split_eq hg, List.length_map, hinputs, hspans, and_self, if_true] at h
  obtain ⟨gathered, hgathered, hbody⟩ := Option.map_eq_some_iff.mp h
  obtain ⟨results, rfl, hrest⟩ := except_bind_eq_ok.mp hbody
  rw [gatherBackward_spec hblocks hx hb hprompts hg hctx hgathered] at hrest
  have hfst : grads.1.shape = [b, n, hid] :=
    (Layer.chainPull_restricts (restricts_rows hblocks hprompts (show (0, b).1 < (0, b).2 from hb)
      (Nat.le_refl b)) hx hg).1
  rw [mergeGradients_rows hfst (shape_chainPull hx _ _)] at hrest
  exact (Except.ok.inj hrest).symm

/-- It returns if the attempts of all batches get through. -/
theorem autogradBackward_recovers (hg : g.shape = [b, n, hid]) {ctx : AutogradContext α}
    (hctx : IsContext swarm prompts x (batchBounds maxTokensInBatch b n) ctx)
    {attempts : Nat → List BackwardAttempt}
    (hattempts : ∀ (i : Nat) (batchPrompt : List (Tensor α)),
      ctx.promptBatches[i]? = some batchPrompt →
      BackwardRecovers swarm batchPrompt swarm.blocks.length (attempts i)) :
    let grads := Layer.chainPull (swarm.layers prompts) x g
    autogradBackward swarm maxTokensInBatch ctx g attempts
      = some (.ok (grads.1, if grads.2 = [] then none else some grads.2)) := by
  intro grads
  obtain ⟨hinputs, hspans⟩ := hctx.lengths
  obtain ⟨results, hgather⟩ : ∃ results, gatherBackward swarm
      ((batchBounds maxTokensInBatch b n).map fun batch => rows batch g) ctx attempts
        = some (.ok results) := by
    refine exists_gather_mapIdx fun i batch hbatch => ?_
    obtain ⟨grad, inputs, batchPrompt, spans⟩ := batch
    simp only [List.getElem?_zip_eq_some] at hbatch
    obtain ⟨hgrad, hinput, hprompt, hspan⟩ := hbatch
    have hrecovers := hattempts i batchPrompt hprompt
    rw [List.getElem?_map] at hgrad
    obtain ⟨bounds, hbounds, rfl⟩ := Option.map_eq_some_iff.mp hgrad
    rw [hctx.promptBatches, List.getElem?_map, hbounds] at hprompt
    obtain rfl := Option.some.inj hprompt
    obtain ⟨inputs', spans', hinput', hspan', hrecord⟩ := hctx.records i bounds hbounds
    obtain rfl := Option.some.inj (hinput.symm.trans hinput')
    obtain rfl := Option.some.inj (hspan.symm.trans hspan')
    obtain ⟨hlt, hle⟩ := mem_batchBounds (List.mem_of_getElem? hbounds) hb
    have hshape := shape_rows hx (Nat.le_of_lt hlt) hle
    exact ⟨_, sequentialBackward_recovers (by rw [hshape]; rfl)
      (by rw [hshape]; exact (batchPrompts_spec hprompts hlt hle).1) (Nat.le_refl _) hrecord
      hrecovers⟩
  have hfst : (Layer.chainPull (swarm.layers prompts) x g).1.shape = [b, n, hid] :=
    (Layer.chainPull_restricts (restricts_rows hblocks hprompts (show (0, b).1 < (0, b).2 from hb)
      (Nat.le_refl b)) hx hg).1
  rw [autogradBackward, microBatchSize_eq hg hn]
  simp only [split_eq hg, List.length_map, hinputs, hspans, and_self, if_true, hgather,
    Option.map_some]
  rw [gatherBackward_spec hblocks hx hb hprompts hg hctx hgather]
  exact congrArg some (mergeGradients_rows hfst (shape_chainPull hx _ _))

end Passes

/-! ## Prompts that are too long -/

/-- A prompt tensor `[blocks, batch, prefix, hidden]` for hidden states of this shape, or a dummy
    one. -/
def PromptTensor (numBlocks : Nat) (shape : List Nat) (prompts : List (Tensor α)) : Prop :=
  prompts.all isDummy = true ∨
    prompts.length = numBlocks ∧ ∃ p, ∀ prompt ∈ prompts, prompt.shape = shape.set 1 p

omit [Zero α] [Add α] in
/-- The prompts fit, or they are longer than the sequence. -/
theorem PromptTensor.fits_or_long {numBlocks : Nat}
    (h : PromptTensor numBlocks [b, n, hid] prompts) :
    DeepPrompts numBlocks [b, n, hid] prompts ∨
      0 < numBlocks ∧ prompts.length = numBlocks ∧ ∃ p, n < p ∧
        ∀ prompt ∈ prompts, isDummy prompt = false ∧ prompt.shape = [b, p, hid] := by
  by_cases hdummy : prompts.all isDummy = true
  · exact .inl (.inl hdummy)
  obtain ⟨hlength, p, hshape⟩ := h.resolve_left hdummy
  -- they are all of one shape
  have hnot : ∀ prompt ∈ prompts, isDummy prompt = false := by
    intro prompt hmem
    rw [Bool.eq_false_iff]
    intro hyes
    refine hdummy (List.all_eq_true.mpr fun other hother => ?_)
    have hsame : other.shape = prompt.shape := (hshape other hother).trans (hshape prompt hmem).symm
    rw [isDummy, Tensor.numel, hsame]
    exact hyes
  by_cases hp : p ≤ n
  · exact .inl (.inr ⟨hlength, fun prompt hmem => ⟨hnot prompt hmem, b, n, hid, p, rfl,
      hshape prompt hmem, hp⟩⟩)
  · refine .inr ⟨?_, hlength, p, Nat.lt_of_not_le hp,
      fun prompt hmem => ⟨hnot prompt hmem, hshape prompt hmem⟩⟩
    rw [← hlength]
    refine List.length_pos_iff.mpr fun hnil => ?_
    rw [hnil] at hdummy
    exact hdummy rfl

/-- A server cannot add a prompt that is longer than the sequence. -/
theorem runRpcForward_long {blocks : List (DiffBlock α)} {p : Nat} (hx : x.shape = [b, n, hid])
    (hn : 0 < n) (hp : n < p) (hlength : prompts.length = blocks.length)
    (hprompts : ∀ prompt ∈ prompts, isDummy prompt = false ∧ prompt.shape = [b, p, hid]) :
    ∃ exc, runRpcForward blocks x prompts = .error exc := by
  rw [runRpcForward]
  cases blocks with
  | nil => exact ⟨_, if_pos rfl⟩
  | cons block blocks =>
    cases prompts with
    | nil => cases hlength
    | cons prompt prompts =>
      obtain ⟨hdummy, hshape⟩ := hprompts prompt List.mem_cons_self
      have hsplit : splitPrompts (block :: blocks).length (prompt :: prompts)
          = some prompt ::
            prompts.map fun prompt => if isDummy prompt then none else some prompt := by
        rw [splitPrompts, if_neg (by simp [hdummy]), List.map_cons, hdummy]
        rfl
      have hadd : addPrompt (some prompt) x = .error (.runtimeError "shape mismatch") := by
        have hslice : (x.slice 1 0 (p : Nat)).shape = [b, n, hid] := by
          rw [Tensor.shape_slice_all (by rw [hx]; exact Nat.le_of_lt hp), hx]
        have hbroadcasts : ¬ Tensor.broadcasts [b, p, hid] [b, n, hid] = true := by
          simp only [Tensor.broadcasts, List.zip_cons_cons, List.all_cons]
          simp
          omega
        refine if_neg ?_
        rw [hshape]
        show ¬ Tensor.broadcasts _ (x.slice 1 0 (p : Nat)).shape = true
        rw [hslice]
        exact hbroadcasts
      refine ⟨.runtimeError "shape mismatch", ?_⟩
      rw [if_neg (List.cons_ne_nil _ _), if_pos (by rw [hx]; rfl), hsplit, rpcForwardLoop, hadd]
      rfl

/-- Nor does the forward pass get through. -/
theorem sequentialForward_long {p : Nat} (hx : x.shape = [b, n, hid]) (hn : 0 < n) (hp : n < p)
    (hpos : 0 < swarm.blocks.length) (hlength : prompts.length = swarm.blocks.length)
    (hprompts : ∀ prompt ∈ prompts, isDummy prompt = false ∧ prompt.shape = [b, p, hid])
    (attempts : List ForwardAttempt) (record : ForwardRecord α) :
    sequentialForward swarm x prompts 0 swarm.blocks.length attempts ≠ some (.ok record) := by
  intro h
  rw [sequentialForward, if_neg (by simp [hx]), if_neg (Nat.lt_irrefl _),
    if_neg (not_not.mpr (.inr hlength))] at h
  have hstep : ∀ (s : ForwardState α) (attemptNo : Nat) (a : ForwardAttempt) s' result,
      (s.inputs = x ∧ s.blockIdx = 0) → decide (swarm.blocks.length ≤ s.blockIdx) = false → True →
      forwardAttempt swarm prompts swarm.blocks.length attemptNo a s = some (s', result) →
      s'.inputs = x ∧ s'.blockIdx = 0 := by
    intro s attemptNo a s' result hinv _ _ hattempt
    have htry : ∃ exc, forwardTry swarm prompts swarm.blocks.length attemptNo a s = .error exc := by
      rw [forwardTry]
      cases forwardRoute swarm.blocks.length attemptNo a.table s with
      | error exc => exact ⟨exc, rfl⟩
      | ok spans =>
        cases spans with
        | nil => exact ⟨.indexError, rfl⟩
        | cons span spans =>
          obtain ⟨exc, hserver⟩ : ∃ exc, runRpcForward (pySlice swarm.blocks span.start span.stop)
              s.inputs (pySlice prompts span.start span.stop) = .error exc := by
            rw [hinv.1]
            refine runRpcForward_long hx hn hp ?_ fun prompt hmem =>
              hprompts prompt (mem_of_mem_pySlice hmem)
            rw [pySlice, pySlice, List.length_drop, List.length_drop, List.length_take,
              List.length_take, hlength]
          refine ⟨a.failure.getD exc, ?_⟩
          show (remoteCall a.failure _ >>= _) = _
          rw [hserver]
          cases a.failure <;> rfl
    obtain ⟨exc, htry⟩ := htry
    rw [forwardAttempt, htry] at hattempt
    obtain ⟨rfl, -⟩ := Prod.mk.inj (Option.some.inj hattempt)
    exact hinv
  rcases hloop : retryLoop (fun s : ForwardState α => decide (swarm.blocks.length ≤ s.blockIdx))
    (forwardAttempt swarm prompts swarm.blocks.length) swarm.maxRetries attempts 0
    ⟨0, x, [], [], []⟩ with _ | ⟨s, _ | exc⟩
  · rw [hloop] at h
    cases h
  · obtain ⟨hinv, hend⟩ := retryLoop_invariant _ _ _ hstep (fun _ _ => trivial) ⟨rfl, rfl⟩ hloop
    have hdone := of_decide_eq_true (hend rfl)
    rw [hinv.2] at hdone
    omega
  · rw [hloop] at h
    cases h

end Batches

/-! ## The two passes together -/

/-- **Micro-batching is transparent.**  If the passes over the batches return, they return what the
    passes over the whole batch do, if these return, whatever happens to any of the attempts.  And
    with prompts that fit they do return, as long as the attempts get through.  (The context serves
    one backward pass: this takes the spans out of it.) -/
theorem microBatching_transparent (swarm : Swarm α)
    (hblocks : ∀ block ∈ swarm.blocks, block.RowWise)
    (maxTokensInBatch : Nat) {b n hid : Nat} (hb : 0 < b) (hn : 0 < n) (x : Tensor α)
    (hx : x.shape = [b, n, hid]) (prompts : List (Tensor α))
    (hprompts : PromptTensor swarm.blocks.length [b, n, hid] prompts)
    (attempts : Nat → List ForwardAttempt) :
    (∀ outputs ctx wholeAttempts record,
      autogradForward swarm maxTokensInBatch x prompts attempts = some (.ok (outputs, ctx)) →
      sequentialForward swarm x prompts 0 swarm.blocks.length wholeAttempts = some (.ok record) →
      outputs = record.outputs ∧
      ∀ g : Tensor α, g.shape = x.shape → ∀ gradAttempts wholeGradAttempts grads wholeGrads,
        autogradBackward swarm maxTokensInBatch ctx g gradAttempts = some (.ok grads) →
        sequentialBackward swarm g record.intermediateInputs prompts record.doneSequences
          wholeGradAttempts = some (.ok wholeGrads) →
        grads = wholeGrads) ∧
    (DeepPrompts swarm.blocks.length x.shape prompts →
      (∀ i, ForwardRecovers swarm.blocks.length swarm.maxRetries swarm.blocks.length
        (attempts i)) →
      ∃ outputs ctx,
        autogradForward swarm maxTokensInBatch x prompts attempts = some (.ok (outputs, ctx)) ∧
        ∀ g : Tensor α, g.shape = x.shape → ∀ gradAttempts : Nat → List BackwardAttempt,
          (∀ (i : Nat) (batchPrompt : List (Tensor α)),
            ctx.promptBatches[i]? = some batchPrompt →
            BackwardRecovers swarm batchPrompt swarm.blocks.length (gradAttempts i)) →
          ∃ grads, autogradBackward swarm maxTokensInBatch ctx g gradAttempts
            = some (.ok grads)) := by
  constructor
  · intro outputs ctx wholeAttempts record hforward hwhole
    rcases hprompts.fits_or_long with hfits | ⟨hpos, hlength, p, hp, hlong⟩
    swap
    · exact absurd hwhole (sequentialForward_long hx hn hp hpos hlength hlong _ _)
    obtain ⟨houtputs, hctx⟩ := autogradForward_spec hblocks hx hb hn hfits hforward
    obtain ⟨hrecorded, hrecord⟩ := sequentialForward_isRecord (by rw [hx]; rfl)
      (by rw [hx]; exact hfits) (Nat.zero_le _) (Nat.le_refl _) hwhole
    refine ⟨?_, fun g hg gradAttempts wholeGradAttempts grads wholeGrads hgrads hwholeGrads => ?_⟩
    · rw [houtputs, hrecorded, inputAt, pySlice_layers hfits]
    · have hexact := sequentialBackward_exact (by rw [hx]; rfl) (by rw [hx]; exact hfits)
        (Nat.le_refl _) hrecord hwholeGrads
      rw [pySlice_layers hfits] at hexact
      exact (autogradBackward_spec hblocks hx hb hn hfits (hg.trans hx) hctx hgrads).trans
        hexact.symm
  · intro hfits hattempts
    rw [hx] at hfits
    obtain ⟨ctx, hforward⟩ : ∃ ctx, autogradForward swarm maxTokensInBatch x prompts attempts
        = some (.ok (Layer.chain (swarm.layers prompts) x, ctx)) :=
      autogradForward_recovers hblocks hx hb hn hfits hattempts
    refine ⟨_, ctx, hforward, fun g hg gradAttempts hgrads => ?_⟩
    obtain ⟨-, hctx⟩ := autogradForward_spec hblocks hx hb hn hfits hforward
    exact ⟨_, autogradBackward_recovers hblocks hx hb hn hfits (hg.trans hx) hctx hgrads⟩

end

/-- A block that multiplies by a constant multiplies the rows. -/
theorem scaleBlock_rowWise (c : Int) : (scaleBlock c).RowWise := by
  have hscale : ∀ (x y : Tensor Int) (bounds : Nat × Nat), x.shape.length = 3 → y.shape = x.shape →
      Tensor.ofFn (rows bounds x).shape (fun ix => c * (rows bounds y).get ix)
        = rows bounds (Tensor.ofFn x.shape fun ix => c * y.get ix) := by
    intro x y bounds hndim hy
    refine Tensor.ext_get rfl fun ix hix => ?_
    rw [Tensor.shape_ofFn] at hix
    have hrow : InBounds (rows bounds y).shape ix := by
      rw [rows, Tensor.shape_slice, hy]
      exact hix
    have hin : InBounds x.shape (ix.modify 0 (· + Tensor.clampIndex (x.shape.getD 0 0) bounds.1)) :=
      Tensor.inBounds_of_slice (by omega) hix
    have hwhole : (rows bounds (Tensor.ofFn x.shape fun ix => c * y.get ix)).get ix
        = (Tensor.ofFn x.shape fun ix => c * y.get ix).get
          (ix.modify 0 (· + Tensor.clampIndex (x.shape.getD 0 0) bounds.1)) :=
      Tensor.get_slice_eq hix
    rw [Tensor.get_ofFn _ hix, hwhole, Tensor.get_ofFn _ hin, rows, Tensor.get_slice_eq hrow, hy]
  exact ⟨fun x bounds hndim _ _ => hscale x x bounds hndim rfl,
    fun x g bounds hndim hg _ _ => hscale x g bounds hndim hg⟩

/-- Three rows in two batches, of two rows and of one. -/
theorem microBatching_transparent_three :
    let x : Tensor Int := Tensor.ofFn [3, 2, 1] fun _ => 1
    let prompts : List (Tensor Int) := List.replicate 3 (Tensor.ofFn [3, 1, 1] fun _ => 7)
    ∃ outputs ctx, autogradForward scaleSwarm 4 x prompts (fun _ => scaleForwards)
        = some (.ok (outputs, ctx)) ∧
      ∀ wholeAttempts record,
        sequentialForward scaleSwarm x prompts 0 3 wholeAttempts = some (.ok record) →
        outputs = record.outputs ∧
        ∀ g : Tensor Int, g.shape = x.shape → ∀ gradAttempts wholeGradAttempts grads wholeGrads,
          autogradBackward scaleSwarm 4 ctx g gradAttempts = some (.ok grads) →
          sequentialBackward scaleSwarm g record.intermediateInputs prompts record.doneSequences
            wholeGradAttempts = some (.ok wholeGrads) →
          grads = wholeGrads := by
  intro x prompts
  have hblocks : ∀ block ∈ scaleSwarm.blocks, block.RowWise := by
    intro block hmem
    simp only [scaleSwarm, List.mem_cons, List.not_mem_nil, or_false] at hmem
    rcases hmem with rfl | rfl | rfl <;> exact scaleBlock_rowWise _
  have hshape : ∀ prompt ∈ prompts, prompt = Tensor.ofFn [3, 1, 1] fun _ => 7 :=
    fun prompt hmem => List.eq_of_mem_replicate hmem
  obtain ⟨hsame, hreturns⟩ := microBatching_transparent scaleSwarm hblocks 4 (by decide) (by decide)
    x rfl prompts (.inr ⟨rfl, 1, fun prompt hmem => by rw [hshape prompt hmem]; rfl⟩)
    fun _ => scaleForwards
  obtain ⟨outputs, ctx, hrun, -⟩ := hreturns (.inr ⟨rfl, fun prompt hmem => by
    rw [hshape prompt hmem]
    exact ⟨rfl, 3, 2, 1, 1, rfl, rfl, by decide⟩⟩) fun _ => scaleForwards_recover
  exact ⟨outputs, ctx, hrun, fun wholeAttempts record hwhole =>
    hsame outputs ctx wholeAttempts record hrun hwhole⟩

end Drift
