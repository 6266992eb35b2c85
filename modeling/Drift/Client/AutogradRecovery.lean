/-
  Forward and backward through the swarm are exact, whatever fails on the way.

  The chain of blocks behind its deep prompts is a list of layers, and a span of blocks is a slice
  of it.  A record of the forward pass says which slices were run, and on which hidden states
  (`IsRecord`); so do the two stacks of the backward pass at every moment, for the blocks that are
  still to come (`Stacked`).  An attempt that fails leaves both as they are: it may split a span
  into several, but not change what blocks are left or what reaches them.
-/
import Drift.Client.SequentialAutograd

namespace Drift

variable {α : Type}

/-! ## Spans of the chain -/

/-- A deep-prompt tensor for hidden states of this shape: a dummy one, or a prompt per block. -/
def DeepPrompts (numBlocks : Nat) (shape : List Nat) (prompts : List (Tensor α)) : Prop :=
  prompts.all isDummy = true ∨
    prompts.length = numBlocks ∧ ∀ prompt ∈ prompts, PromptFits shape (some prompt)

theorem length_splitPrompts {numBlocks : Nat} {shape : List Nat} {prompts : List (Tensor α)}
    (h : DeepPrompts numBlocks shape prompts) :
    (splitPrompts numBlocks prompts).length = numBlocks := by
  rw [splitPrompts]
  split
  · exact List.length_replicate
  · rename_i hdummy
    rw [List.length_map]
    exact (h.resolve_left hdummy).1

theorem splitPrompts_fits {numBlocks : Nat} {shape : List Nat} {prompts : List (Tensor α)}
    (h : DeepPrompts numBlocks shape prompts) :
    ∀ prompt ∈ splitPrompts numBlocks prompts, PromptFits shape prompt := by
  intro prompt hmem
  rw [splitPrompts] at hmem
  split at hmem
  · obtain rfl := List.eq_of_mem_replicate hmem
    trivial
  · rename_i hdummy
    obtain ⟨t, ht, rfl⟩ := List.mem_map.mp hmem
    have hfits := (h.resolve_left hdummy).2 t ht
    rw [hfits.1]
    exact hfits

/-- The prompts of a span are a slice of all prompts. -/
theorem splitPrompts_pySlice {numBlocks start stop : Nat} {shape : List Nat}
    {prompts : List (Tensor α)} (h : DeepPrompts numBlocks shape prompts) (hlt : start < stop)
    (hle : stop ≤ numBlocks) :
    splitPrompts (stop - start) (pySlice prompts start stop)
      = pySlice (splitPrompts numBlocks prompts) start stop := by
  by_cases hdummy : prompts.all isDummy = true
  · have hslice : (pySlice prompts start stop).all isDummy = true :=
      List.all_eq_true.mpr fun t ht => List.all_eq_true.mp hdummy t (mem_of_mem_pySlice ht)
    rw [splitPrompts, splitPrompts, if_pos hdummy, if_pos hslice, pySlice, List.take_replicate,
      List.drop_replicate, Nat.min_eq_left hle]
  · obtain ⟨hlen, hfits⟩ := h.resolve_left hdummy
    have hslice : ¬ (pySlice prompts start stop).all isDummy = true := by
      intro hall
      have hpos : 0 < (pySlice prompts start stop).length := by
        rw [length_pySlice start (by omega)]
        omega
      obtain ⟨t, ht⟩ := List.exists_mem_of_length_pos hpos
      have := (hfits t (mem_of_mem_pySlice ht)).1
      rw [List.all_eq_true.mp hall t ht] at this
      cases this
    rw [splitPrompts, splitPrompts, if_neg hdummy, if_neg hslice, pySlice_map]

/-- The hidden states that reach block `b` when `x` enters at block `start`. -/
def inputAt (layers : List (Layer (Tensor α) (Tensor α))) (start : Nat) (x : Tensor α) (b : Nat) :
    Tensor α :=
  Layer.chain (pySlice layers start b) x

theorem inputAt_self (layers : List (Layer (Tensor α) (Tensor α))) (start : Nat) (x : Tensor α) :
    inputAt layers start x start = x := by
  rw [inputAt, pySlice_self]
  rfl

/-- The activations at a block do not depend on where the chain was taken up. -/
theorem inputAt_trans {layers : List (Layer (Tensor α) (Tensor α))} {start mid b : Nat}
    {x : Tensor α} (hmid : start ≤ mid) (hb : mid ≤ b) :
    inputAt layers mid (inputAt layers start x mid) b = inputAt layers start x b := by
  rw [inputAt, inputAt, inputAt, ← Layer.chain_append, pySlice_append layers hmid hb]

variable [Zero α] [Add α]

/-- The blocks of the swarm behind their prompts. -/
def Swarm.layers (swarm : Swarm α) (prompts : List (Tensor α)) :
    List (Layer (Tensor α) (Tensor α)) :=
  promptLayers swarm.blocks (splitPrompts swarm.blocks.length prompts)

theorem promptLayers_pySlice {swarm : Swarm α} {prompts : List (Tensor α)} {shape : List Nat}
    {start stop : Nat} (h : DeepPrompts swarm.blocks.length shape prompts) (hlt : start < stop)
    (hle : stop ≤ swarm.blocks.length) :
    promptLayers (pySlice swarm.blocks start stop)
        (splitPrompts (pySlice swarm.blocks start stop).length (pySlice prompts start stop))
      = pySlice (swarm.layers prompts) start stop := by
  rw [length_pySlice start hle, splitPrompts_pySlice h hlt hle]
  exact (pySlice_zipWith promptLayer _ _ start stop).symm

theorem shape_inputAt (swarm : Swarm α) (prompts : List (Tensor α)) (start : Nat) (x : Tensor α)
    (b : Nat) : (inputAt (swarm.layers prompts) start x b).shape = x.shape := by
  rw [inputAt, Swarm.layers, promptLayers, pySlice_zipWith]
  exact shape_chain_promptLayers _ _ x

/-! ## What the servers answer -/

/-- A server runs its span. -/
theorem runRpcForward_span {swarm : Swarm α} {prompts : List (Tensor α)} {x : Tensor α}
    {start stop : Nat} (hndim : x.shape.length = 3)
    (h : DeepPrompts swarm.blocks.length x.shape prompts) (hlt : start < stop)
    (hle : stop ≤ swarm.blocks.length) :
    runRpcForward (pySlice swarm.blocks start stop) x (pySlice prompts start stop)
      = .ok (inputAt (swarm.layers prompts) start x stop) := by
  have hlen := length_pySlice start hle
  rw [runRpcForward_eq ?_ hndim ?_, promptLayers_pySlice h hlt hle]
  · rfl
  · intro hnil
    rw [hnil, List.length_nil] at hlen
    omega
  · rw [hlen, splitPrompts_pySlice h hlt hle]
    exact fun prompt hmem => splitPrompts_fits h prompt (mem_of_mem_pySlice hmem)

/-- A server runs its span backward. -/
theorem runRpcBackward_span {swarm : Swarm α} {prompts : List (Tensor α)} {x : Tensor α}
    {start stop : Nat} (hndim : x.shape.length = 3)
    (h : DeepPrompts swarm.blocks.length x.shape prompts) (hlt : start < stop)
    (hle : stop ≤ swarm.blocks.length) (g : Tensor α) :
    let grads := Layer.chainPull (pySlice (swarm.layers prompts) start stop) x g
    runRpcBackward (pySlice swarm.blocks start stop) x g (pySlice prompts start stop)
      = .ok (grads.1, if grads.2 = [] then none else some grads.2) := by
  intro grads
  have hlen := length_pySlice start hle
  have hsplit := splitPrompts_pySlice h hlt hle
  have hne : pySlice swarm.blocks start stop ≠ [] := by
    intro hnil
    rw [hnil, List.length_nil] at hlen
    omega
  have hserver := runRpcBackward_eq hne hndim rfl
    (by rw [hlen, hsplit, length_pySlice start (by rw [length_splitPrompts h]; exact hle)])
    (by
      rw [hlen, hsplit]
      exact fun prompt hmem => splitPrompts_fits h prompt (mem_of_mem_pySlice hmem)) g
  rw [promptLayers_pySlice h hlt hle] at hserver
  exact hserver

/-! ## The forward pass -/

/-- Spans that tile `[start, b)`, with the exact input of each. -/
structure RecordUpTo (layers : List (Layer (Tensor α) (Tensor α))) (start : Nat) (x : Tensor α)
    (b : Nat) (inputs : List (Tensor α)) (spans : List RemoteSpanInfo) : Prop where
  tiles : Tiles start spans b
  inputs : inputs = spans.map fun span => inputAt layers start x span.start

/-- What `sequential_forward` returns: the composition, and a record of the whole way. -/
structure IsRecord (layers : List (Layer (Tensor α) (Tensor α))) (start stop : Nat) (x : Tensor α)
    (record : ForwardRecord α) : Prop where
  outputs : record.outputs = inputAt layers start x stop
  upTo : RecordUpTo layers start x stop record.intermediateInputs record.doneSequences

/-- The invariant of the forward loop. -/
structure ForwardInv (layers : List (Layer (Tensor α) (Tensor α))) (start stop : Nat)
    (x : Tensor α) (s : ForwardState α) : Prop where
  inputs : s.inputs = inputAt layers start x s.blockIdx
  upTo : RecordUpTo layers start x s.blockIdx s.intermediateInputs s.doneSequences
  /-- The rest of a route that has not failed leads to the end. -/
  route : s.sequences = [] ∨ Tiles s.blockIdx s.sequences stop
  le : s.blockIdx ≤ stop

/-- An attempt that goes well: the swarm serves every block, and the server answers. -/
def ForwardAttempt.Succeeds (numBlocks : Nat) (attempt : ForwardAttempt) : Prop :=
  attempt.failure = none ∧ attempt.table.Complete numBlocks

/-- The attempts get a forward pass over `work` blocks through. -/
def ForwardRecovers (numBlocks : Nat) (maxRetries : Option Nat) (work : Nat)
    (attempts : List ForwardAttempt) : Prop :=
  Recovers (fun _ attempt => attempt.Succeeds numBlocks) (fun _ _ => True) maxRetries work 0 attempts

section Forward

variable {swarm : Swarm α} {prompts : List (Tensor α)} {x : Tensor α} {start stop : Nat}

omit [Zero α] [Add α] in
/-- Another span goes onto a record. -/
theorem RecordUpTo.concat {layers : List (Layer (Tensor α) (Tensor α))} {b : Nat}
    {inputs : List (Tensor α)} {spans : List RemoteSpanInfo} {span : RemoteSpanInfo}
    (h : RecordUpTo layers start x b inputs spans) (hstart : span.start = b)
    (hlt : span.start < span.stop) :
    RecordUpTo layers start x span.stop (inputs ++ [inputAt layers start x b]) (spans ++ [span]) := by
  subst hstart
  refine ⟨tiles_concat.mpr ⟨h.tiles, hlt, rfl⟩, ?_⟩
  rw [List.map_append, ← h.inputs]
  rfl

/-- Every route the forward pass takes covers the blocks that are left, in order. -/
theorem forwardRoute_tiles {table : RoutingTable} {attemptNo : Nat} {s : ForwardState α}
    {route : List RemoteSpanInfo}
    (hinv : ForwardInv (swarm.layers prompts) start stop x s) (hmore : s.blockIdx < stop)
    (h : forwardRoute stop attemptNo table s = .ok route) : Tiles s.blockIdx route stop := by
  rw [forwardRoute] at h
  split at h
  · cases hspans : makeSequence table s.blockIdx stop with
    | error exc =>
      rw [hspans] at h
      nomatch h
    | ok spans =>
      obtain ⟨trimmed, htrim, htiles⟩ := makeSequence_tiles hmore hspans
      rw [hspans] at h
      simp only [bind, Except.bind, htrim, orRaise, Except.ok.injEq] at h
      exact h ▸ htiles
  · rename_i hkeep
    obtain rfl := Except.ok.inj h
    refine hinv.route.resolve_left fun hnil => hkeep (Or.inl hnil)

omit [Zero α] [Add α] in
/-- A complete table has a route for the blocks that are left. -/
theorem forwardRoute_complete {table : RoutingTable} {numBlocks : Nat} (attemptNo : Nat)
    {s : ForwardState α} (htable : table.Complete numBlocks) (hle : stop ≤ numBlocks)
    (hmore : s.blockIdx < stop) : ∃ route, forwardRoute stop attemptNo table s = .ok route := by
  rw [forwardRoute]
  split
  · obtain ⟨spans, hspans⟩ := makeSequence_complete htable s.blockIdx hle
    obtain ⟨route, htrim, -⟩ := makeSequence_tiles hmore hspans
    refine ⟨route, ?_⟩
    simp only [hspans, bind, Except.bind, htrim, orRaise]
  · exact ⟨s.sequences, rfl⟩

/-- The state behind the first span of a route. -/
def ForwardState.advance (layers : List (Layer (Tensor α) (Tensor α))) (start : Nat) (x : Tensor α)
    (s : ForwardState α) (span : RemoteSpanInfo) (rest : List RemoteSpanInfo) : ForwardState α where
  blockIdx := span.stop
  inputs := inputAt layers start x span.stop
  sequences := rest
  intermediateInputs := s.intermediateInputs ++ [inputAt layers start x s.blockIdx]
  doneSequences := s.doneSequences ++ [span]

/-- With a route, an attempt runs its first span or fails as the server does. -/
theorem forwardTry_eq {attempt : ForwardAttempt} {attemptNo : Nat} {s : ForwardState α}
    {route : List RemoteSpanInfo} (hndim : x.shape.length = 3)
    (hprompts : DeepPrompts swarm.blocks.length x.shape prompts)
    (hle : stop ≤ swarm.blocks.length)
    (hinv : ForwardInv (swarm.layers prompts) start stop x s) (hmore : s.blockIdx < stop)
    (hroute : forwardRoute stop attemptNo attempt.table s = .ok route) :
    ∃ span rest, Tiles s.blockIdx (span :: rest) stop ∧
      forwardTry swarm prompts stop attemptNo attempt s
        = remoteCall attempt.failure
            (.ok (s.advance (swarm.layers prompts) start x span rest)) := by
  have htiles := forwardRoute_tiles hinv hmore hroute
  rcases route with _ | ⟨span, rest⟩
  · exact absurd htiles (Nat.ne_of_lt hmore)
  refine ⟨span, rest, htiles, ?_⟩
  obtain ⟨hspan, hlt, hrest⟩ := htiles
  have hstart : start ≤ s.blockIdx := hinv.upTo.tiles.le
  have hshape : s.inputs.shape = x.shape := by rw [hinv.inputs, shape_inputAt]
  have hserver : runRpcForward (pySlice swarm.blocks span.start span.stop) s.inputs
      (pySlice prompts span.start span.stop)
        = .ok (inputAt (swarm.layers prompts) start x span.stop) := by
    rw [runRpcForward_span (by rw [hshape]; exact hndim) (by rw [hshape]; exact hprompts) hlt
      (Nat.le_trans hrest.le hle), hinv.inputs, hspan]
    rw [inputAt_trans hstart (by omega)]
  simp only [forwardTry, hroute, bind, Except.bind, hserver]
  cases attempt.failure with
  | some exc => rfl
  | none =>
    simp only [remoteCall, shape_inputAt, hshape, if_true]
    rw [ForwardState.advance, hinv.inputs]

/-- A span that is served keeps the invariant and moves the position on. -/
theorem advance_inv {s : ForwardState α} {span : RemoteSpanInfo} {rest : List RemoteSpanInfo}
    (hinv : ForwardInv (swarm.layers prompts) start stop x s)
    (htiles : Tiles s.blockIdx (span :: rest) stop) :
    ForwardInv (swarm.layers prompts) start stop x
        (s.advance (swarm.layers prompts) start x span rest) ∧ s.blockIdx < span.stop := by
  obtain ⟨hspan, hlt, hrest⟩ := htiles
  refine ⟨⟨rfl, hinv.upTo.concat hspan hlt, Or.inr hrest, hrest.le⟩, ?_⟩
  omega

/-- **An attempt, however it ends**: it gets some blocks further, or it leaves the state. -/
theorem forwardAttempt_spec (attempt : ForwardAttempt) (attemptNo : Nat) {s : ForwardState α}
    (hndim : x.shape.length = 3) (hprompts : DeepPrompts swarm.blocks.length x.shape prompts)
    (hle : stop ≤ swarm.blocks.length)
    (hinv : ForwardInv (swarm.layers prompts) start stop x s) (hmore : s.blockIdx < stop) :
    ∃ s' result, forwardAttempt swarm prompts stop attemptNo attempt s = some (s', result) ∧
      ForwardInv (swarm.layers prompts) start stop x s' ∧ s.blockIdx ≤ s'.blockIdx := by
  cases hroute : forwardRoute stop attemptNo attempt.table s with
  | error exc =>
    refine ⟨s, some exc, ?_, hinv, Nat.le_refl _⟩
    simp only [forwardAttempt, forwardTry, hroute, bind, Except.bind]
  | ok route =>
    obtain ⟨span, rest, htiles, htry⟩ := forwardTry_eq hndim hprompts hle hinv hmore hroute
    rw [forwardAttempt, htry]
    obtain ⟨hinv', hlt⟩ := advance_inv hinv htiles
    cases attempt.failure with
    | none => exact ⟨_, none, rfl, hinv', Nat.le_of_lt hlt⟩
    | some exc => exact ⟨s, some exc, rfl, hinv, Nat.le_refl _⟩

/-- An attempt whose table is complete and whose server answers keeps the invariant and goes on. -/
theorem forwardAttempt_succeeds {attempt : ForwardAttempt} (attemptNo : Nat) {s : ForwardState α}
    (hndim : x.shape.length = 3) (hprompts : DeepPrompts swarm.blocks.length x.shape prompts)
    (hle : stop ≤ swarm.blocks.length)
    (hinv : ForwardInv (swarm.layers prompts) start stop x s) (hmore : s.blockIdx < stop)
    (hattempt : attempt.Succeeds swarm.blocks.length) :
    ∃ s', forwardAttempt swarm prompts stop attemptNo attempt s = some (s', none) ∧
      ForwardInv (swarm.layers prompts) start stop x s' ∧ s.blockIdx < s'.blockIdx := by
  obtain ⟨hanswers, hcomplete⟩ := hattempt
  obtain ⟨route, hroute⟩ := forwardRoute_complete attemptNo hcomplete hle hmore
  obtain ⟨span, rest, htiles, htry⟩ := forwardTry_eq hndim hprompts hle hinv hmore hroute
  refine ⟨_, ?_, advance_inv hinv htiles⟩
  rw [forwardAttempt, htry, hanswers]
  rfl

omit [Zero α] [Add α] in
theorem forwardInv_init (layers : List (Layer (Tensor α) (Tensor α))) (hstart : start ≤ stop) :
    ForwardInv layers start stop x ⟨start, x, [], [], []⟩ :=
  ⟨(inputAt_self layers start x).symm, ⟨rfl, rfl⟩, Or.inl rfl, hstart⟩

omit [Zero α] [Add α] in
/-- At the end of the loop the record is complete. -/
theorem ForwardInv.isRecord {layers : List (Layer (Tensor α) (Tensor α))} {s : ForwardState α}
    (hinv : ForwardInv layers start stop x s) (hend : stop ≤ s.blockIdx) :
    IsRecord layers start stop x ⟨s.inputs, s.intermediateInputs, s.doneSequences⟩ := by
  have heq : s.blockIdx = stop := Nat.le_antisymm hinv.le hend
  exact ⟨heq ▸ hinv.inputs, heq ▸ hinv.upTo⟩

/-- The arguments pass the assertions of `sequential_forward`. -/
theorem sequentialForward_eq (hndim : x.shape.length = 3)
    (hprompts : DeepPrompts swarm.blocks.length x.shape prompts)
    (hle : stop ≤ swarm.blocks.length) (attempts : List ForwardAttempt) :
    sequentialForward swarm x prompts start stop attempts =
      match retryLoop (fun s => decide (stop ≤ s.blockIdx)) (forwardAttempt swarm prompts stop)
          swarm.maxRetries attempts 0 ⟨start, x, [], [], []⟩ with
      | none => none
      | some (_, some exc) => some (.error exc)
      | some (s, none) => some (.ok ⟨s.inputs, s.intermediateInputs, s.doneSequences⟩) := by
  have hlen : prompts.all isDummy = true ∨ prompts.length = swarm.blocks.length :=
    hprompts.imp id fun h => h.1
  rw [sequentialForward, if_neg (not_not.mpr hndim), if_neg (by omega)]
  exact if_neg (not_not.mpr hlen)

/-- Whatever failed on the way, what `sequential_forward` returns is right. -/
theorem sequentialForward_isRecord (hndim : x.shape.length = 3)
    (hprompts : DeepPrompts swarm.blocks.length x.shape prompts) (hstart : start ≤ stop)
    (hle : stop ≤ swarm.blocks.length) {attempts : List ForwardAttempt}
    {record : ForwardRecord α}
    (h : sequentialForward swarm x prompts start stop attempts = some (.ok record)) :
    IsRecord (swarm.layers prompts) start stop x record := by
  rw [sequentialForward_eq hndim hprompts hle] at h
  rcases hloop : retryLoop (fun s => decide (stop ≤ s.blockIdx)) (forwardAttempt swarm prompts stop)
    swarm.maxRetries attempts 0 ⟨start, x, [], [], []⟩ with _ | ⟨s, _ | exc⟩
  · rw [hloop] at h
    nomatch h
  · rw [hloop] at h
    obtain rfl := Except.ok.inj (Option.some.inj h)
    obtain ⟨hinv, hend⟩ := retryLoop_invariant _ _
      (ForwardInv (swarm.layers prompts) start stop x) (Q := fun _ => True)
      (fun s attemptNo a s' result hinv hmore _ hstep => by
        obtain ⟨s'', result', heq, hinv', -⟩ := forwardAttempt_spec a attemptNo hndim hprompts hle
          hinv (by simpa using hmore)
        rw [heq] at hstep
        obtain ⟨rfl, -⟩ := Prod.mk.inj (Option.some.inj hstep)
        exact hinv') (fun _ _ => trivial) (forwardInv_init _ hstart) hloop
    exact hinv.isRecord (of_decide_eq_true (hend rfl))
  · rw [hloop] at h
    nomatch h

/-- **The forward pass gets through.** -/
theorem sequentialForward_recovers (hndim : x.shape.length = 3)
    (hprompts : DeepPrompts swarm.blocks.length x.shape prompts) (hstart : start ≤ stop)
    (hle : stop ≤ swarm.blocks.length) {attempts : List ForwardAttempt} {work : Nat}
    (hwork : stop - start ≤ work)
    (hattempts : ForwardRecovers swarm.blocks.length swarm.maxRetries work attempts) :
    ∃ record, sequentialForward swarm x prompts start stop attempts = some (.ok record) ∧
      IsRecord (swarm.layers prompts) start stop x record := by
  obtain ⟨s, -, hloop, hinv, hend⟩ := retryLoop_recovers (fun s => decide (stop ≤ s.blockIdx))
    (forwardAttempt swarm prompts stop) (fun _ => ForwardInv (swarm.layers prompts) start stop x)
    (fun s => stop - s.blockIdx) (fun s _ _ hzero => decide_eq_true (by omega))
    (fun s attemptNo _ a hinv hmore _ hgood => by
      have hlt : s.blockIdx < stop := by simpa using hmore
      obtain ⟨s', heq, hinv', hless⟩ := forwardAttempt_succeeds attemptNo hndim hprompts hle hinv
        hlt hgood
      exact ⟨s', heq, hinv', by omega⟩)
    (fun s attemptNo _ a hinv hmore _ _ => by
      obtain ⟨s', result, heq, hinv', hless⟩ := forwardAttempt_spec a attemptNo hndim hprompts hle
        hinv (by simpa using hmore)
      exact ⟨s', result, heq, hinv', by omega⟩)
    hattempts (forwardInv_init (swarm.layers prompts) hstart) hwork (Nat.le_refl 0)
  refine ⟨_, ?_, hinv.isRecord (of_decide_eq_true hend)⟩
  rw [sequentialForward_eq hndim hprompts hle, hloop]

end Forward

/-! ## The backward pass -/

/-- The stacks hold the record of the blocks `[start, b)`; the gradients are those of the blocks
    `[b, stop)`, each pulled back once and in order. -/
structure Stacked (layers : List (Layer (Tensor α) (Tensor α))) (start stop : Nat)
    (x gradOutputs : Tensor α) (b : Nat) (s : BackwardState α) : Prop where
  upTo : RecordUpTo layers start x b s.intermediateInputs s.forwardSequences
  le : b ≤ stop
  grads : (s.gradOutputs, s.gradPromptsReversed.reverse.flatten)
    = Layer.chainPull (pySlice layers b stop) (inputAt layers start x b) gradOutputs
  ne_nil : [] ∉ s.gradPromptsReversed

/-- The state before the current span was popped. -/
def BackwardState.unpop (s : BackwardState α) (inputs : Tensor α) (span : RemoteSpanInfo) :
    BackwardState α :=
  { s with intermediateInputs := s.intermediateInputs ++ [inputs]
           forwardSequences := s.forwardSequences ++ [span] }

/-- The invariant of the backward loop. -/
def BackwardInv (layers : List (Layer (Tensor α) (Tensor α))) (start stop : Nat)
    (x gradOutputs : Tensor α) (s : BackwardState α) : Prop :=
  match s.current with
  | none => Stacked layers start stop x gradOutputs start s
  | some (inputs, span) => Stacked layers start stop x gradOutputs span.stop (s.unpop inputs span)

/-- The blocks that are still to come. -/
def BackwardState.blocksLeft (start : Nat) (s : BackwardState α) : Nat :=
  match s.current with
  | none => 0
  | some (_, span) => span.stop - start

section Backward

variable {layers : List (Layer (Tensor α) (Tensor α))} {swarm : Swarm α}
  {prompts : List (Tensor α)} {x g : Tensor α} {start stop : Nat}

omit [Zero α] [Add α] in
/-- Popping a span from the stacks. -/
theorem Stacked.next {b : Nat} {s : BackwardState α} (h : Stacked layers start stop x g b s) :
    BackwardInv layers start stop x g s.next ∧ s.next.blocksLeft start = b - start ∧
      (s.next.current.isNone = true → b = start) := by
  rcases List.eq_nil_or_concat' s.forwardSequences with hspans | ⟨spans, span, hspans⟩
  · -- nothing is left
    have hb : start = b := by
      have := h.upTo.tiles
      rw [hspans] at this
      exact this
    subst hb
    have hnext : s.next = { s with current := none } := by
      simp only [BackwardState.next, hspans, List.getLast?_nil]
      cases s.intermediateInputs.getLast? <;> rfl
    rw [hnext]
    refine ⟨?_, (Nat.sub_self _).symm, fun _ => rfl⟩
    show Stacked layers start stop x g start _
    exact ⟨h.upTo, h.le, h.grads, h.ne_nil⟩
  · have hinputs := h.upTo.inputs
    rw [hspans, List.map_append, List.map_singleton] at hinputs
    obtain ⟨hspansTile, hlt, hstop⟩ := tiles_concat.mp (hspans ▸ h.upTo.tiles)
    have hnext : s.next = { s with
        current := some (inputAt layers start x span.start, span)
        intermediateInputs := spans.map fun span => inputAt layers start x span.start
        forwardSequences := spans } := by
      simp only [BackwardState.next, hspans, hinputs, List.getLast?_concat, List.dropLast_concat]
    rw [hnext]
    refine ⟨?_, by rw [← hstop]; rfl, fun hnone => nomatch hnone⟩
    show Stacked layers start stop x g span.stop _
    rw [hstop]
    refine ⟨⟨?_, ?_⟩, h.le, h.grads, h.ne_nil⟩
    · show Tiles start (spans ++ [span]) b
      rw [← hspans]
      exact h.upTo.tiles
    · show spans.map _ ++ [_] = (spans ++ [span]).map _
      rw [List.map_append, List.map_singleton]

omit [Zero α] [Add α] in
/-- What the current span is. -/
theorem BackwardInv.current {s : BackwardState α} {inputs : Tensor α} {span : RemoteSpanInfo}
    (h : BackwardInv layers start stop x g s) (hcurrent : s.current = some (inputs, span)) :
    Stacked layers start stop x g span.stop (s.unpop inputs span) ∧
      inputs = inputAt layers start x span.start ∧ start ≤ span.start ∧ span.start < span.stop ∧
      RecordUpTo layers start x span.start s.intermediateInputs s.forwardSequences := by
  have hstacked : Stacked layers start stop x g span.stop (s.unpop inputs span) := by
    rw [BackwardInv, hcurrent] at h
    exact h
  obtain ⟨htiles, hlt, -⟩ := tiles_concat.mp hstacked.upTo.tiles
  have hinputs : s.intermediateInputs ++ [inputs]
      = s.forwardSequences.map (fun span => inputAt layers start x span.start)
        ++ [inputAt layers start x span.start] := by
    have := hstacked.upTo.inputs
    rw [BackwardState.unpop, List.map_append, List.map_singleton] at this
    exact this
  obtain ⟨hinit, hlast⟩ := List.append_inj' hinputs rfl
  exact ⟨hstacked, (List.cons.inj hlast).1, htiles.le, hlt, htiles, hinit⟩

/-- **A backward request of the current span**: it pulls the gradient through the span, or fails and
    leaves the state. -/
theorem backwardRequest_spec (hndim : x.shape.length = 3)
    (hprompts : DeepPrompts swarm.blocks.length x.shape prompts)
    (hle : stop ≤ swarm.blocks.length) (failure : Option PyExc) {s : BackwardState α}
    {inputs : Tensor α} {span : RemoteSpanInfo}
    (hinv : BackwardInv (swarm.layers prompts) start stop x g s)
    (hcurrent : s.current = some (inputs, span)) :
    ∃ s' result, backwardRequest swarm prompts failure inputs span s = (s', result) ∧
      BackwardInv (swarm.layers prompts) start stop x g s' ∧
      (failure = none → result = none ∧ s'.blocksLeft start < s.blocksLeft start) ∧
      s'.blocksLeft start ≤ s.blocksLeft start := by
  rcases failure with _ | exc
  swap
  · exact ⟨s, some exc, rfl, hinv, fun h => (nomatch h), Nat.le_refl _⟩
  obtain ⟨hstacked, hinputs, hstart, hlt, hrecord⟩ := hinv.current hcurrent
  have hshape : inputs.shape = x.shape := by rw [hinputs, shape_inputAt]
  have hserver := runRpcBackward_span (by rw [hshape]; exact hndim) (by rw [hshape]; exact hprompts)
    hlt (Nat.le_trans hstacked.le hle) s.gradOutputs
  have hleft : s.blocksLeft start = span.stop - start := by
    rw [BackwardState.blocksLeft, hcurrent]
  generalize hgrads : Layer.chainPull (pySlice (swarm.layers prompts) span.start span.stop) inputs
    s.gradOutputs = grads at hserver
  have hpulled : Stacked (swarm.layers prompts) start stop x g span.start { s with
      gradOutputs := grads.1
      gradPromptsReversed := s.gradPromptsReversed ++
        (if grads.2 = [] then none else some grads.2).toList } := by
    refine ⟨hrecord, by have := hstacked.le; omega, ?_, ?_⟩
    · -- the blocks of the span come before those that are done
      rw [← pySlice_append (swarm.layers prompts) (Nat.le_of_lt hlt) hstacked.le,
        Layer.chainPull_append]
      have hreach : Layer.chain (pySlice (swarm.layers prompts) span.start span.stop)
          (inputAt (swarm.layers prompts) start x span.start)
            = inputAt (swarm.layers prompts) start x span.stop :=
        inputAt_trans hstart (Nat.le_of_lt hlt)
      have hdone : (s.gradOutputs, s.gradPromptsReversed.reverse.flatten) = _ := hstacked.grads
      rw [hreach, ← hdone, ← hinputs, hgrads]
      by_cases hnil : grads.2 = []
      · simp [hnil]
      · simp [hnil]
    · intro hmem
      rcases List.mem_append.mp hmem with hold | hnew
      · exact hstacked.ne_nil hold
      · by_cases hnil : grads.2 = []
        · simp [hnil] at hnew
        · simp [hnil] at hnew
  obtain ⟨hinv', hblocks, -⟩ := hpulled.next
  refine ⟨_, none, ?_, hinv', fun _ => ⟨rfl, ?_⟩, ?_⟩
  · simp only [backwardRequest, remoteCall, hserver]
  · omega
  · omega

/-- **A span that is run forward again**: its record covers the same blocks with the same inputs. -/
theorem backupSpan_spec (hndim : x.shape.length = 3)
    (hprompts : DeepPrompts swarm.blocks.length x.shape prompts)
    (hle : stop ≤ swarm.blocks.length) {s : BackwardState α} {inputs : Tensor α}
    {span : RemoteSpanInfo} {attempts : List ForwardAttempt}
    (hinv : BackwardInv (swarm.layers prompts) start stop x g s)
    (hcurrent : s.current = some (inputs, span)) {record : ForwardRecord α}
    (hforward : sequentialForward swarm inputs prompts span.start span.stop attempts
      = some (.ok record)) :
    ∃ s', backupSpan swarm prompts attempts inputs span s = some (.ok s') ∧
      BackwardInv (swarm.layers prompts) start stop x g s' ∧ s'.current.isSome = true ∧
      s'.blocksLeft start = s.blocksLeft start := by
  obtain ⟨hstacked, hinputs, hstart, hlt, hrecord⟩ := hinv.current hcurrent
  have hshape : inputs.shape = x.shape := by rw [hinputs, shape_inputAt]
  obtain ⟨-, htiles, hrecorded⟩ := sequentialForward_isRecord (by rw [hshape]; exact hndim)
    (by rw [hshape]; exact hprompts) (Nat.le_of_lt hlt) (Nat.le_trans hstacked.le hle) hforward
  have hlen : record.intermediateInputs.length = record.doneSequences.length := by
    rw [hrecorded, List.length_map]
  have hsame : record.intermediateInputs
      = record.doneSequences.map fun span => inputAt (swarm.layers prompts) start x span.start := by
    rw [hrecorded]
    refine List.map_congr_left fun piece hpiece => ?_
    rw [hinputs, inputAt_trans hstart (htiles.bounds piece hpiece).1]
  have hpushed : Stacked (swarm.layers prompts) start stop x g span.stop { s with
      intermediateInputs := s.intermediateInputs ++ record.intermediateInputs
      forwardSequences := s.forwardSequences ++ record.doneSequences } := by
    refine ⟨⟨tiles_append.mpr ⟨span.start, hrecord.tiles, htiles⟩, ?_⟩, hstacked.le, hstacked.grads,
      hstacked.ne_nil⟩
    show s.intermediateInputs ++ record.intermediateInputs
      = (s.forwardSequences ++ record.doneSequences).map _
    rw [List.map_append, hrecord.inputs, hsame]
  obtain ⟨hinv', hblocks, hend⟩ := hpushed.next
  obtain ⟨first, last, hfirst, hlast, hfirstStart, hlastStop⟩ := htiles.ends hlt
  refine ⟨_, ?_, hinv', ?_, ?_⟩
  · simp only [backupSpan, hforward, hlen, ne_eq, not_true_eq_false, if_false, hfirst, hlast,
      hfirstStart, hlastStop, and_self, if_true]
  · rw [Option.isSome_iff_ne_none]
    intro hnone
    have := hend (by rw [hnone]; rfl)
    omega
  · rw [hblocks, BackwardState.blocksLeft, hcurrent]

/-- An attempt that goes well: the server answers, and if this is not the first attempt, so do those
    that run the span forward again. -/
def BackwardAttempt.Succeeds (numBlocks : Nat) (maxRetries : Option Nat) (streak : Nat)
    (attempt : BackwardAttempt) : Prop :=
  attempt.failure = none ∧
    (streak ≠ 0 → ForwardRecovers numBlocks maxRetries numBlocks attempt.recompute)

/-- An attempt comes to an end: the forward pass that it starts with does. -/
def BackwardAttempt.Ends (swarm : Swarm α) (prompts : List (Tensor α)) (streak : Nat)
    (attempt : BackwardAttempt) : Prop :=
  streak ≠ 0 → ∀ inputs start stop,
    sequentialForward swarm inputs prompts start stop attempt.recompute ≠ none

/-- **An attempt, however it ends**, as long as its forward pass does: it leaves the blocks that
    are still to come, and takes some of them when the server and the forward pass go well. -/
theorem backwardAttempt_spec (hndim : x.shape.length = 3)
    (hprompts : DeepPrompts swarm.blocks.length x.shape prompts)
    (hle : stop ≤ swarm.blocks.length) (attempt : BackwardAttempt) (attemptNo : Nat)
    {s : BackwardState α} {inputs : Tensor α} {span : RemoteSpanInfo}
    (hinv : BackwardInv (swarm.layers prompts) start stop x g s)
    (hcurrent : s.current = some (inputs, span))
    (hends : attemptNo ≠ 0 →
      sequentialForward swarm inputs prompts span.start span.stop attempt.recompute ≠ none) :
    ∃ s' result, backwardAttempt swarm prompts attemptNo attempt s = some (s', result) ∧
      BackwardInv (swarm.layers prompts) start stop x g s' ∧
      (attempt.failure = none → (attemptNo ≠ 0 → ∃ record,
          sequentialForward swarm inputs prompts span.start span.stop attempt.recompute
            = some (.ok record)) →
        result = none ∧ s'.blocksLeft start < s.blocksLeft start) ∧
      s'.blocksLeft start ≤ s.blocksLeft start := by
  by_cases hfirst : attemptNo = 0
  · obtain ⟨s', result, hrequest, hinv', hwell, hless⟩ := backwardRequest_spec hndim hprompts hle
      attempt.failure hinv hcurrent
    refine ⟨s', result, ?_, hinv', fun hnone _ => hwell hnone, hless⟩
    simp only [backwardAttempt, hcurrent, if_pos hfirst, hrequest]
  rcases hforward : sequentialForward swarm inputs prompts span.start span.stop attempt.recompute
    with _ | exc | record
  · exact absurd hforward (hends hfirst)
  · refine ⟨s, some exc, ?_, hinv, fun _ h => ?_, Nat.le_refl _⟩
    · simp only [backwardAttempt, hcurrent, if_neg hfirst, backupSpan, hforward]
    · obtain ⟨record, hrecord⟩ := h hfirst
      nomatch hrecord
  · obtain ⟨s₁, hbackup, hinv₁, hsome, hblocks⟩ := backupSpan_spec hndim hprompts hle hinv
      hcurrent hforward
    obtain ⟨⟨inputs₁, span₁⟩, hcurrent₁⟩ := Option.isSome_iff_exists.mp hsome
    obtain ⟨s', result, hrequest, hinv', hwell, hless⟩ := backwardRequest_spec hndim hprompts hle
      attempt.failure hinv₁ hcurrent₁
    refine ⟨s', result, ?_, hinv', fun hnone _ => hblocks ▸ hwell hnone, hblocks ▸ hless⟩
    simp only [backwardAttempt, hcurrent, if_neg hfirst, hbackup, hcurrent₁, hrequest]

/-- The attempts get a backward pass over `work` blocks through. -/
def BackwardRecovers (swarm : Swarm α) (prompts : List (Tensor α)) (work : Nat)
    (attempts : List BackwardAttempt) : Prop :=
  Recovers (fun streak attempt => attempt.Succeeds swarm.blocks.length swarm.maxRetries streak)
    (fun streak attempt => attempt.Ends swarm prompts streak) swarm.maxRetries work 0 attempts

omit [Zero α] [Add α] in
/-- Where the backward pass begins. -/
theorem stacked_init {inputs : List (Tensor α)} {spans : List RemoteSpanInfo}
    (hrecord : RecordUpTo layers start x stop inputs spans) (g : Tensor α) :
    Stacked layers start stop x g stop ⟨none, inputs, spans, g, []⟩ := by
  refine ⟨hrecord, Nat.le_refl _, ?_, List.not_mem_nil⟩
  rw [pySlice_self]
  rfl

omit [Zero α] [Add α] in
/-- What the backward pass returns where it ends. -/
theorem BackwardInv.result {s : BackwardState α} (hinv : BackwardInv layers start stop x g s)
    (hend : s.current.isNone = true) :
    let grads := Layer.chainPull (pySlice layers start stop) x g
    (s.gradOutputs, if s.gradPromptsReversed = [] then none
        else some s.gradPromptsReversed.reverse.flatten)
      = (grads.1, if grads.2 = [] then none else some grads.2) := by
  intro grads
  have hnone : s.current = none := Option.isNone_iff_eq_none.mp hend
  have hstacked : Stacked layers start stop x g start s := by
    rw [BackwardInv, hnone] at hinv
    exact hinv
  have hgrads : (s.gradOutputs, s.gradPromptsReversed.reverse.flatten) = grads := by
    have hpulled := hstacked.grads
    rw [inputAt_self] at hpulled
    exact hpulled
  have hnil : s.gradPromptsReversed = [] ↔ grads.2 = [] := by
    rw [← hgrads]
    constructor
    · intro h
      rw [h]
      rfl
    · intro h
      refine List.eq_nil_iff_forall_not_mem.mpr fun piece hpiece => hstacked.ne_nil ?_
      have hempty := List.flatten_eq_nil_iff.mp h piece (List.mem_reverse.mpr hpiece)
      exact hempty ▸ hpiece
  simp only [hnil, ← hgrads]

/-- **The backward pass gets through**: from the record of a forward pass it returns the
    vector-Jacobian product of the whole chain. -/
theorem sequentialBackward_recovers (hndim : x.shape.length = 3)
    (hprompts : DeepPrompts swarm.blocks.length x.shape prompts)
    (hle : stop ≤ swarm.blocks.length) {inputs : List (Tensor α)} {spans : List RemoteSpanInfo}
    (hrecord : RecordUpTo (swarm.layers prompts) start x stop inputs spans)
    {attempts : List BackwardAttempt}
    (hattempts : BackwardRecovers swarm prompts (stop - start) attempts) :
    let grads := Layer.chainPull (pySlice (swarm.layers prompts) start stop) x g
    sequentialBackward swarm g inputs prompts spans attempts
      = some (.ok (grads.1, if grads.2 = [] then none else some grads.2)) := by
  intro grads
  have hlen : inputs.length = spans.length := by rw [hrecord.inputs, List.length_map]
  obtain ⟨hinv₀, hblocks₀, -⟩ := (stacked_init hrecord g).next
  obtain ⟨s, -, hloop, hinv, hend⟩ := retryLoop_recovers
    (fun s : BackwardState α => s.current.isNone) (backwardAttempt swarm prompts)
    (fun _ => BackwardInv (swarm.layers prompts) start stop x g) (BackwardState.blocksLeft start)
    (fun s _ hinv hzero => by
      rcases hcurrent : s.current with _ | ⟨inputs, span⟩
      · rfl
      · obtain ⟨-, -, hlo, hlt, -⟩ := hinv.current hcurrent
        rw [BackwardState.blocksLeft, hcurrent] at hzero
        simp only at hzero
        omega)
    (fun s attemptNo streak a hinv hmore hstreak hgood => by
      rcases hcurrent : s.current with _ | ⟨inputs, span⟩
      · rw [hcurrent] at hmore
        nomatch hmore
      obtain ⟨hstacked, hreach, hlo, hlt, -⟩ := hinv.current hcurrent
      have hstop := hstacked.le
      have hshape : inputs.shape = x.shape := by rw [hreach, shape_inputAt]
      have hforward : attemptNo ≠ 0 → ∃ record,
          sequentialForward swarm inputs prompts span.start span.stop a.recompute
            = some (.ok record) := by
        intro hno
        obtain ⟨record, hrun, -⟩ := sequentialForward_recovers (by rw [hshape]; exact hndim)
          (by rw [hshape]; exact hprompts) (Nat.le_of_lt hlt) (Nat.le_trans hstop hle)
          (by omega) (hgood.2 (by omega))
        exact ⟨record, hrun⟩
      obtain ⟨s', result, hattempt, hinv', hwell, -⟩ := backwardAttempt_spec hndim hprompts hle a
        attemptNo hinv hcurrent fun hno hnone => by
          obtain ⟨record, hrun⟩ := hforward hno
          rw [hrun] at hnone
          nomatch hnone
      obtain ⟨rfl, hless⟩ := hwell hgood.1 hforward
      exact ⟨s', hattempt, hinv', hless⟩)
    (fun s attemptNo streak a hinv hmore hstreak hends => by
      rcases hcurrent : s.current with _ | ⟨inputs, span⟩
      · rw [hcurrent] at hmore
        nomatch hmore
      obtain ⟨s', result, hattempt, hinv', -, hless⟩ := backwardAttempt_spec hndim hprompts hle a
        attemptNo hinv hcurrent fun hno => hends (by omega) inputs span.start span.stop
      exact ⟨s', result, hattempt, hinv', hless⟩)
    hattempts hinv₀ (Nat.le_of_eq hblocks₀) (Nat.le_refl 0)
  rw [sequentialBackward, if_neg (not_not.mpr hlen), hloop]
  exact congrArg (fun grads => some (Except.ok grads)) (hinv.result hend)

/-- Whatever failed on the way, what `sequential_backward` returns is right. -/
theorem sequentialBackward_exact (hndim : x.shape.length = 3)
    (hprompts : DeepPrompts swarm.blocks.length x.shape prompts)
    (hle : stop ≤ swarm.blocks.length) {inputs : List (Tensor α)} {spans : List RemoteSpanInfo}
    (hrecord : RecordUpTo (swarm.layers prompts) start x stop inputs spans)
    {attempts : List BackwardAttempt} {result : Tensor α × Option (List (Tensor α))}
    (h : sequentialBackward swarm g inputs prompts spans attempts = some (.ok result)) :
    let grads := Layer.chainPull (pySlice (swarm.layers prompts) start stop) x g
    result = (grads.1, if grads.2 = [] then none else some grads.2) := by
  intro grads
  have hlen : inputs.length = spans.length := by rw [hrecord.inputs, List.length_map]
  obtain ⟨hinv₀, -, -⟩ := (stacked_init hrecord g).next
  rw [sequentialBackward, if_neg (not_not.mpr hlen)] at h
  rcases hloop : retryLoop (fun s : BackwardState α => s.current.isNone)
    (backwardAttempt swarm prompts) swarm.maxRetries attempts 0
    (BackwardState.next ⟨none, inputs, spans, g, []⟩) with _ | ⟨s, _ | exc⟩
  · rw [hloop] at h
    nomatch h
  · rw [hloop] at h
    obtain rfl := Except.ok.inj (Option.some.inj h)
    obtain ⟨hinv, hend⟩ := retryLoop_invariant _ _
      (BackwardInv (swarm.layers prompts) start stop x g) (Q := fun _ => True)
      (fun s attemptNo a s' result hinv hmore _ hstep => by
        rcases hcurrent : s.current with _ | ⟨inputs, span⟩
        · rw [hcurrent] at hmore
          nomatch hmore
        -- an attempt that ended has run its forward pass to the end
        have hends : attemptNo ≠ 0 →
            sequentialForward swarm inputs prompts span.start span.stop a.recompute ≠ none := by
          intro hno hnone
          simp only [backwardAttempt, hcurrent, if_neg hno, backupSpan, hnone] at hstep
          nomatch hstep
        obtain ⟨s'', result', heq, hinv', -⟩ :=
          backwardAttempt_spec hndim hprompts hle a attemptNo hinv hcurrent hends
        rw [heq] at hstep
        obtain ⟨rfl, -⟩ := Prod.mk.inj (Option.some.inj hstep)
        exact hinv') (fun _ _ => trivial) hinv₀ hloop
    exact hinv.result (hend rfl)
  · rw [hloop] at h
    nomatch h

end Backward

/-! ## The two passes together -/

/-- **Forward and backward over the swarm are exact under failures.**  However the chain is split
    and whatever fails, as long as the attempts get through: the forward pass returns the
    composition, spans that tile the blocks and the exact input of each; and on that record the
    backward pass returns the vector-Jacobian product of the composition, for the input and for the
    prompts in the order of their blocks. -/
theorem swarm_backprop_exact (swarm : Swarm α) (prompts : List (Tensor α)) (x g : Tensor α)
    (start stop : Nat) (hndim : x.shape.length = 3)
    (hprompts : DeepPrompts swarm.blocks.length x.shape prompts) (hstart : start ≤ stop)
    (hle : stop ≤ swarm.blocks.length) (forwardAttempts : List ForwardAttempt)
    (hforward : ForwardRecovers swarm.blocks.length swarm.maxRetries (stop - start) forwardAttempts)
    (backwardAttempts : List BackwardAttempt)
    (hbackward : BackwardRecovers swarm prompts (stop - start) backwardAttempts) :
    let layers := pySlice (swarm.layers prompts) start stop
    let grads := Layer.chainPull layers x g
    ∃ record, sequentialForward swarm x prompts start stop forwardAttempts = some (.ok record) ∧
      record.outputs = Layer.chain layers x ∧
      Tiles start record.doneSequences stop ∧
      (record.intermediateInputs = record.doneSequences.map fun span =>
        Layer.chain (pySlice (swarm.layers prompts) start span.start) x) ∧
      sequentialBackward swarm g record.intermediateInputs prompts record.doneSequences
          backwardAttempts
        = some (.ok (grads.1, if grads.2 = [] then none else some grads.2)) := by
  intro layers grads
  obtain ⟨record, hrun, houtputs, hrecord⟩ := sequentialForward_recovers hndim hprompts hstart hle
    (Nat.le_refl _) hforward
  exact ⟨record, hrun, houtputs, hrecord.tiles, hrecord.inputs,
    sequentialBackward_recovers hndim hprompts hle hrecord hbackward⟩

/-- A block that multiplies by a constant. -/
def scaleBlock (c : Int) : DiffBlock Int where
  forward x := Tensor.ofFn x.shape fun ix => c * x.get ix
  backward x g := Tensor.ofFn x.shape fun ix => c * g.get ix
  shape_forward _ := rfl
  shape_backward _ _ := rfl

/-- Three blocks, of which one server has the first two and another one the last two. -/
def scaleSwarm : Swarm Int := ⟨[scaleBlock 2, scaleBlock 3, scaleBlock 5], some 3⟩

def scaleTable : RoutingTable :=
  ⟨[[⟨0, 0, 2⟩], [⟨0, 0, 2⟩, ⟨1, 1, 3⟩], [⟨1, 1, 3⟩]], fun b => b⟩

theorem scaleTable_complete : scaleTable.Complete 3 := by
  intro b hb
  rcases b with _ | _ | _ | b
  · exact ⟨_, rfl, by decide, by decide⟩
  · exact ⟨_, rfl, by decide, by decide⟩
  · exact ⟨_, rfl, by decide, by decide⟩
  · omega

/-- One row of two positions. -/
def scaleInput : Tensor Int := Tensor.ofFn [1, 2, 1] fun _ => 1

/-- Prompts for the first position. -/
def scalePrompts : List (Tensor Int) := List.replicate 3 (Tensor.ofFn [1, 1, 1] fun _ => 7)

/-- Servers answer from some moment on. -/
def scaleForwards : List ForwardAttempt := List.replicate 3 ⟨scaleTable, none⟩

theorem scaleForwards_recover : ForwardRecovers 3 (some 3) 3 scaleForwards :=
  .good ⟨rfl, scaleTable_complete⟩ (.good ⟨rfl, scaleTable_complete⟩
    (.good ⟨rfl, scaleTable_complete⟩ (.finished 0 [])))

/-- The first request of either pass fails. -/
theorem swarm_backprop_exact_example :
    let layers := pySlice (scaleSwarm.layers scalePrompts) 0 3
    let grads := Layer.chainPull layers scaleInput scaleInput
    ∃ record, sequentialForward scaleSwarm scaleInput scalePrompts 0 3
        (⟨scaleTable, some .requestFailed⟩ :: scaleForwards) = some (.ok record) ∧
      record.outputs = Layer.chain layers scaleInput ∧
      Tiles 0 record.doneSequences 3 ∧
      (record.intermediateInputs = record.doneSequences.map fun span =>
        Layer.chain (pySlice (scaleSwarm.layers scalePrompts) 0 span.start) scaleInput) ∧
      sequentialBackward scaleSwarm scaleInput record.intermediateInputs scalePrompts
          record.doneSequences (⟨[], some .requestFailed⟩ ::
            List.replicate 3 ⟨scaleForwards, none⟩)
        = some (.ok (grads.1, if grads.2 = [] then none else some grads.2)) := by
  have hretry : MayRetry (some 3) 0 := by
    intro m hm
    obtain rfl := Option.some.inj hm
    exact Or.inr (by decide)
  have hfits : PromptFits scaleInput.shape (some (Tensor.ofFn [1, 1, 1] fun _ => (7 : Int))) :=
    ⟨rfl, 1, 2, 1, 1, rfl, rfl, by decide⟩
  refine swarm_backprop_exact scaleSwarm scalePrompts scaleInput scaleInput 0 3 rfl
    (Or.inr ⟨rfl, fun prompt hmem => ?_⟩) (by decide) (by decide) _
    (.bad trivial hretry ?_) _ (.bad (fun h => absurd rfl h) hretry ?_)
  · rw [List.eq_of_mem_replicate hmem]
    exact hfits
  · exact .good ⟨rfl, scaleTable_complete⟩ (.good ⟨rfl, scaleTable_complete⟩
      (.good ⟨rfl, scaleTable_complete⟩ (.finished 0 [])))
  · exact .good ⟨rfl, fun _ => scaleForwards_recover⟩ (.good ⟨rfl, fun h => absurd rfl h⟩
      (.good ⟨rfl, fun h => absurd rfl h⟩ (.finished 0 [])))

end Drift
