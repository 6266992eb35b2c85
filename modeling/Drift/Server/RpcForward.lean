/-
  `run_rpc_forward` and `run_rpc_backward` of `server/block_functions.py`: the training requests,
  which keep no cache.

  A block is a function of the hidden states with its vector-Jacobian product
  (`TransformerBackend.forward`, `TransformerBackend.backward`).  A request names a span of blocks
  and carries a deep-prompt tensor for them, given below as the list of its slices along the first
  axis: a dummy one, or one prompt per block, added to the first positions of the block's input.
  The backward request runs the span forward first, to recover the input of every block.

  What both compute is the span as a chain of layers (`promptLayers`), forward (`runRpcForward_eq`)
  and backward (`runRpcBackward_eq`).  The casts to the dtype of the backends are left out, and the
  priorities with them.
-/
import Drift.Lib.Backprop
import Drift.Server.BlockFunctions

namespace Drift

variable {α : Type}

/-- A block with its vector-Jacobian product at an input.  Both keep the shape of the hidden
    states. -/
structure DiffBlock (α : Type) where
  forward : Tensor α → Tensor α
  backward : Tensor α → Tensor α → Tensor α
  shape_forward : ∀ x, (forward x).shape = x.shape
  shape_backward : ∀ x g, (backward x g).shape = x.shape

/-! ## The two requests -/

/-- `[DUMMY] * len(requested_backends)`, or the slices of the prompts. -/
def splitPrompts (numBackends : Nat) (prompts : List (Tensor α)) : List (Option (Tensor α)) :=
  if prompts.all isDummy then List.replicate numBackends none
  else prompts.map fun prompt => if isDummy prompt then none else some prompt

variable [Zero α] [Add α]

/-- The loop of `run_rpc_forward`. -/
def rpcForwardLoop : List (DiffBlock α) → List (Option (Tensor α)) → Tensor α →
    Except PyExc (Tensor α)
  | block :: blocks, prompt :: prompts, hiddenStates => do
    let hiddenStates ← addPrompt prompt hiddenStates
    let hiddenStates := block.forward hiddenStates
    if hiddenStates.shape.length = 3 then rpcForwardLoop blocks prompts hiddenStates
    else .error (.assertionError ("inputs to <class 'drift.server.backend.TransformerBackend'> " ++
      "must be a list with a single 3d tensor of hidden states"))
  | _, _, hiddenStates => .ok hiddenStates

/-- `run_rpc_forward`. -/
def runRpcForward (blocks : List (DiffBlock α)) (hiddenStates : Tensor α)
    (prompts : List (Tensor α)) : Except PyExc (Tensor α) :=
  if blocks = [] then .error .indexError
  else if hiddenStates.shape.length = 3 then
    rpcForwardLoop blocks (splitPrompts blocks.length prompts) hiddenStates
  else .error (.assertionError "")

/-- The forward chain of `run_rpc_backward`: the inputs of the blocks, and the output of the last
    one. -/
def collectInputs : List (DiffBlock α) → List (Option (Tensor α)) → Tensor α →
    Except PyExc (List (Tensor α) × Tensor α)
  | block :: blocks, prompt :: prompts, inputs => do
    if inputs.shape.length = 3 then
      let inputs ← addPrompt prompt inputs
      let (interInputs, last) ← collectInputs blocks prompts (block.forward inputs)
      .ok (inputs :: interInputs, last)
    else .error (.assertionError ("inputs to <class 'drift.server.backend.TransformerBackend'> " ++
      "must be a single 3d tensor of hidden states"))
  | _, _, inputs => .ok ([], inputs)

/-- The backward chain: the gradient, and those of the prompts as they come. -/
def gradLoop : List (Tensor α × Option (Tensor α) × DiffBlock α) → Tensor α →
    Tensor α × List (Tensor α)
  | [], gradOutputs => (gradOutputs, [])
  | (inp, prompt, block) :: items, gradOutputs =>
    let gradOutputs := block.backward inp gradOutputs
    let rest := gradLoop items gradOutputs
    match prompt with
    | none => rest
    | some prompt => (rest.1, gradOutputs.slice 1 0 (prompt.shape.getD 1 0) :: rest.2)

/-- `run_rpc_backward`.  There is no second tensor in the response when it would be a dummy. -/
def runRpcBackward (blocks : List (DiffBlock α)) (inputs gradOutputs : Tensor α)
    (prompts : List (Tensor α)) : Except PyExc (Tensor α × Option (List (Tensor α))) := do
  if blocks = [] then .error .indexError
  else
    let prompts := splitPrompts blocks.length prompts
    let (interInputs, last) ← collectInputs blocks.dropLast prompts.dropLast inputs
    let prompt ← orRaise .indexError prompts.getLast?
    let last ← addPrompt prompt last
    let interInputs := interInputs ++ [last]
    if interInputs.length = prompts.length ∧ prompts.length = blocks.length then
      let (gradOutputs, gradPromptsReversed) :=
        gradLoop (interInputs.reverse.zip (prompts.reverse.zip blocks.reverse)) gradOutputs
      let gradPrompts := gradPromptsReversed.reverse
      .ok (gradOutputs, if gradPrompts.all isDummy then none else some gradPrompts)
    else .error (.assertionError "internal shape error during backward")

/-! ## The span as a chain of layers -/

/-- The prompt fits the hidden states: one vector for each of the first positions of every row. -/
def PromptFits (shape : List Nat) : Option (Tensor α) → Prop
  | none => True
  | some prompt => isDummy prompt = false ∧
      ∃ b n h p, shape = [b, n, h] ∧ prompt.shape = [b, p, h] ∧ p ≤ n

/-- The input of a block with its prompt added. -/
def promptAdd : Option (Tensor α) → Tensor α → Tensor α
  | none, x => x
  | some prompt, x => x.patch fun ix =>
      if ix.getD 1 0 < prompt.shape.getD 1 0 then some (x.get ix + prompt.get ix) else none

/-- The gradient of a prompt is that of the positions it was added to. -/
def promptGrad (gradInput : Tensor α) : Option (Tensor α) → List (Tensor α)
  | none => []
  | some prompt => [gradInput.slice 1 0 (prompt.shape.getD 1 0)]

/-- A block behind its prompt, as a function of the input, with the vector-Jacobian product to the
    input and to the prompt. -/
def promptLayer (block : DiffBlock α) (prompt : Option (Tensor α)) :
    Layer (Tensor α) (Tensor α) where
  apply x := block.forward (promptAdd prompt x)
  pull x g :=
    (block.backward (promptAdd prompt x) g, promptGrad (block.backward (promptAdd prompt x) g) prompt)

/-- The blocks of a span behind their prompts. -/
def promptLayers (blocks : List (DiffBlock α)) (prompts : List (Option (Tensor α))) :
    List (Layer (Tensor α) (Tensor α)) :=
  List.zipWith promptLayer blocks prompts

@[simp] theorem promptLayers_cons (block : DiffBlock α) (blocks : List (DiffBlock α))
    (prompt : Option (Tensor α)) (prompts : List (Option (Tensor α))) :
    promptLayers (block :: blocks) (prompt :: prompts)
      = promptLayer block prompt :: promptLayers blocks prompts := rfl

@[simp] theorem shape_promptAdd (prompt : Option (Tensor α)) (x : Tensor α) :
    (promptAdd prompt x).shape = x.shape := by
  cases prompt <;> rfl

@[simp] theorem shape_promptLayer_apply (block : DiffBlock α) (prompt : Option (Tensor α))
    (x : Tensor α) : ((promptLayer block prompt).apply x).shape = x.shape :=
  (block.shape_forward _).trans (shape_promptAdd prompt x)

theorem shape_chain_promptLayers (blocks : List (DiffBlock α))
    (prompts : List (Option (Tensor α))) (x : Tensor α) :
    (Layer.chain (promptLayers blocks prompts) x).shape = x.shape := by
  induction blocks generalizing prompts x with
  | nil => rfl
  | cons block blocks ih =>
    cases prompts with
    | nil => rfl
    | cons prompt prompts =>
      show (Layer.chain (promptLayers blocks prompts) ((promptLayer block prompt).apply x)).shape = _
      rw [ih prompts, shape_promptLayer_apply]

/-- A prompt that fits is added without broadcasting. -/
theorem addPrompt_of_fits {prompt : Option (Tensor α)} {x : Tensor α}
    (h : PromptFits x.shape prompt) : addPrompt prompt x = .ok (promptAdd prompt x) := by
  rcases prompt with _ | prompt
  · rfl
  obtain ⟨-, b, n, hid, p, hx, hprompt, hp⟩ := h
  have hslice : (x.slice 1 0 (p : Int)).shape = [b, p, hid] := by
    have h : (x.slice 1 (0 : Nat) p).shape = x.shape.set 1 (p - 0) :=
      Tensor.shape_slice_of_le (Nat.zero_le p) (by rw [hx]; exact hp)
    rw [hx] at h
    exact h
  have hstop : prompt.shape.getD 1 0 = p := by rw [hprompt]; rfl
  have hbroadcasts : Tensor.broadcasts prompt.shape
      (x.slice 1 0 (prompt.shape.getD 1 0 : Nat)).shape = true := by
    rw [hstop, hslice, hprompt]
    exact Tensor.broadcasts_self _
  simp only [addPrompt, hbroadcasts, if_true]
  congr 1
  show x.patch _ = x.patch _
  refine Tensor.ext_get rfl fun ix hix => ?_
  rw [Tensor.shape_patch] at hix
  rw [Tensor.get_patch _ hix, Tensor.get_patch _ hix, hstop]
  by_cases hlt : ix.getD 1 0 < p
  · -- the index is in bounds of the prompt too
    have hin : InBounds prompt.shape ix := by
      rw [hx] at hix
      obtain ⟨i, j, k, rfl, hi, -, hk⟩ := hix.exists_three
      rw [hprompt]
      exact ⟨hi, hlt, hk, trivial⟩
    rw [Tensor.broadcastIndex_self hin]
  · rw [if_neg hlt, if_neg hlt]

theorem rpcForwardLoop_eq {shape : List Nat} (hndim : shape.length = 3) :
    ∀ (blocks : List (DiffBlock α)) (prompts : List (Option (Tensor α))) {x : Tensor α},
      x.shape = shape → (∀ prompt ∈ prompts, PromptFits shape prompt) →
      rpcForwardLoop blocks prompts x = .ok (Layer.chain (promptLayers blocks prompts) x)
  | [], _, _, _, _ => rfl
  | _ :: _, [], _, _, _ => rfl
  | block :: blocks, prompt :: prompts, x, hx, hfits => by
    have hadd : addPrompt prompt x = .ok (promptAdd prompt x) :=
      addPrompt_of_fits (hx ▸ hfits prompt List.mem_cons_self)
    have hshape : (block.forward (promptAdd prompt x)).shape = shape :=
      (shape_promptLayer_apply block prompt x).trans hx
    have hrec := rpcForwardLoop_eq hndim blocks prompts hshape
      fun q hq => hfits q (List.mem_cons_of_mem _ hq)
    simp only [rpcForwardLoop, hadd]
    show (if (block.forward (promptAdd prompt x)).shape.length = 3 then _ else _) = _
    rw [if_pos (by rw [hshape]; exact hndim), hrec]
    rfl

/-- **A forward request computes the span.** -/
theorem runRpcForward_eq {blocks : List (DiffBlock α)} {prompts : List (Tensor α)} {x : Tensor α}
    (hblocks : blocks ≠ []) (hndim : x.shape.length = 3)
    (hfits : ∀ prompt ∈ splitPrompts blocks.length prompts, PromptFits x.shape prompt) :
    runRpcForward blocks x prompts
      = .ok (Layer.chain (promptLayers blocks (splitPrompts blocks.length prompts)) x) := by
  rw [runRpcForward, if_neg hblocks, if_pos hndim]
  exact rpcForwardLoop_eq hndim _ _ rfl hfits

/-- What the forward chain of a backward request collects: the input of every block, with its
    prompt. -/
theorem collectInputs_eq {shape : List Nat} (hndim : shape.length = 3) :
    ∀ (blocks : List (DiffBlock α)) (prompts : List (Option (Tensor α))) {x : Tensor α},
      x.shape = shape → (∀ prompt ∈ prompts, PromptFits shape prompt) →
      collectInputs blocks prompts x =
        .ok (List.zipWith promptAdd prompts (Layer.chainInputs (promptLayers blocks prompts) x),
          Layer.chain (promptLayers blocks prompts) x)
  | [], prompts, _, _, _ => by
    simp only [collectInputs, promptLayers, List.zipWith_nil_left, Layer.chainInputs,
      List.zipWith_nil_right, Layer.chain]
  | _ :: _, [], _, _, _ => rfl
  | block :: blocks, prompt :: prompts, x, hx, hfits => by
    have hadd : addPrompt prompt x = .ok (promptAdd prompt x) :=
      addPrompt_of_fits (hx ▸ hfits prompt List.mem_cons_self)
    have hshape : (block.forward (promptAdd prompt x)).shape = shape :=
      (shape_promptLayer_apply block prompt x).trans hx
    have hrec := collectInputs_eq hndim blocks prompts hshape
      fun q hq => hfits q (List.mem_cons_of_mem _ hq)
    rw [collectInputs, if_pos (by rw [hx]; exact hndim), hadd]
    show (do
      let (interInputs, last) ← collectInputs blocks prompts (block.forward (promptAdd prompt x))
      Except.ok (promptAdd prompt x :: interInputs, last)) = _
    rw [hrec]
    rfl

/-- The backward chain runs the layers on the inputs before their prompts. -/
theorem gradLoop_eq (items : List (Tensor α × Option (Tensor α) × DiffBlock α)) (g : Tensor α) :
    gradLoop (items.map fun item => (promptAdd item.2.1 item.1, item.2)) g =
      ((Layer.pullEach (items.map fun item => (item.1, promptLayer item.2.2 item.2.1)) g).1,
        (Layer.pullEach (items.map fun item => (item.1, promptLayer item.2.2 item.2.1)) g).2.flatten)
    := by
  induction items generalizing g with
  | nil => rfl
  | cons item items ih =>
    obtain ⟨x, prompt, block⟩ := item
    simp only [List.map_cons, gradLoop, Layer.pullEach, ih, List.flatten_cons]
    cases prompt <;> rfl

/-- A layer has at most one prompt, so the gradients of one layer read the same backward. -/
theorem map_reverse_pullEach (items : List (Tensor α × Option (Tensor α) × DiffBlock α))
    (g : Tensor α) :
    (Layer.pullEach (items.map fun item => (item.1, promptLayer item.2.2 item.2.1)) g).2.map
        List.reverse
      = (Layer.pullEach (items.map fun item => (item.1, promptLayer item.2.2 item.2.1)) g).2 := by
  induction items generalizing g with
  | nil => rfl
  | cons item items ih =>
    obtain ⟨x, prompt, block⟩ := item
    simp only [List.map_cons, Layer.pullEach, ih]
    cases prompt <;> rfl

omit [Add α] in
/-- The gradient of a prompt that fits has elements. -/
theorem not_isDummy_promptGrad (prompt : Option (Tensor α)) {g q : Tensor α}
    (h : PromptFits g.shape prompt) (hq : q ∈ promptGrad g prompt) : isDummy q = false := by
  rcases prompt with _ | prompt
  · exact absurd hq List.not_mem_nil
  obtain ⟨hdummy, b, n, hid, p, hg, hprompt, hp⟩ := h
  obtain rfl := List.mem_singleton.mp hq
  have hstop : prompt.shape.getD 1 0 = p := by rw [hprompt]; rfl
  have hslice : (g.slice 1 (0 : Nat) p).shape = g.shape.set 1 (p - 0) :=
    Tensor.shape_slice_of_le (Nat.zero_le p) (by rw [hg]; exact hp)
  have hshape : (g.slice 1 0 (prompt.shape.getD 1 0 : Nat)).shape = prompt.shape := by
    rw [hstop, hprompt]
    rw [hg] at hslice
    exact hslice
  show decide ((g.slice 1 0 (prompt.shape.getD 1 0 : Nat)).shape.prod = 0) = false
  rw [hshape]
  exact hdummy

theorem not_isDummy_chainPull {shape : List Nat} :
    ∀ (blocks : List (DiffBlock α)) (prompts : List (Option (Tensor α))) {x g q : Tensor α},
      x.shape = shape → (∀ prompt ∈ prompts, PromptFits shape prompt) →
      q ∈ (Layer.chainPull (promptLayers blocks prompts) x g).2 → isDummy q = false
  | [], _, _, _, _, _, _, hq => absurd hq List.not_mem_nil
  | _ :: _, [], _, _, _, _, _, hq => absurd hq List.not_mem_nil
  | block :: blocks, prompt :: prompts, x, g, q, hx, hfits, hq => by
    rcases List.mem_append.mp hq with hhere | hlater
    · refine not_isDummy_promptGrad prompt ?_ hhere
      rw [block.shape_backward, shape_promptAdd, hx]
      exact hfits prompt List.mem_cons_self
    · have hshape : ((promptLayer block prompt).apply x).shape = shape :=
        (shape_promptLayer_apply block prompt x).trans hx
      exact not_isDummy_chainPull blocks prompts hshape
        (fun p hp => hfits p (List.mem_cons_of_mem _ hp)) hlater

theorem zip_zipWith_promptAdd : ∀ (blocks : List (DiffBlock α))
    (prompts : List (Option (Tensor α))) (xs : List (Tensor α)),
    (List.zipWith promptAdd prompts xs).zip (prompts.zip blocks)
      = (xs.zip (prompts.zip blocks)).map fun item => (promptAdd item.2.1 item.1, item.2)
  | _, [], xs => by cases xs <;> rfl
  | _, _ :: _, [] => rfl
  | [], _ :: _, _ :: _ => rfl
  | block :: blocks, prompt :: prompts, x :: xs =>
    congrArg ((promptAdd prompt x, prompt, block) :: ·) (zip_zipWith_promptAdd blocks prompts xs)

theorem map_promptLayer_zip : ∀ (blocks : List (DiffBlock α))
    (prompts : List (Option (Tensor α))) (xs : List (Tensor α)),
    (xs.zip (prompts.zip blocks)).map (fun item => (item.1, promptLayer item.2.2 item.2.1))
      = xs.zip (promptLayers blocks prompts)
  | _, _, [] => rfl
  | [], [], _ :: _ => rfl
  | [], _ :: _, _ :: _ => rfl
  | _ :: _, [], _ :: _ => rfl
  | block :: blocks, prompt :: prompts, x :: xs =>
    congrArg ((x, promptLayer block prompt) :: ·) (map_promptLayer_zip blocks prompts xs)

theorem zip_reverse {β γ : Type} {xs : List β} {ys : List γ} (h : xs.length = ys.length) :
    xs.reverse.zip ys.reverse = (xs.zip ys).reverse :=
  (List.reverse_zipWith h).symm

/-- The backward chain on the collected inputs, from the last block to the first. -/
theorem gradLoop_reverse {blocks : List (DiffBlock α)} {prompts : List (Option (Tensor α))}
    (hlen : prompts.length = blocks.length) (x g : Tensor α) :
    let inputs := List.zipWith promptAdd prompts (Layer.chainInputs (promptLayers blocks prompts) x)
    let grads := gradLoop (inputs.reverse.zip (prompts.reverse.zip blocks.reverse)) g
    (grads.1, grads.2.reverse) = Layer.chainPull (promptLayers blocks prompts) x g := by
  intro inputs grads
  have hlayers : (promptLayers blocks prompts).length = blocks.length := by
    rw [promptLayers, List.length_zipWith, hlen, Nat.min_self]
  have hinputs : inputs.length = blocks.length := by
    rw [List.length_zipWith, Layer.length_chainInputs, hlayers, hlen, Nat.min_self]
  have hzip : (prompts.zip blocks).length = inputs.length := by
    rw [List.length_zip, hlen, hinputs, Nat.min_self]
  have hitems : inputs.reverse.zip (prompts.reverse.zip blocks.reverse) =
      ((Layer.chainInputs (promptLayers blocks prompts) x).zip (prompts.zip blocks)).reverse.map
        fun item => (promptAdd item.2.1 item.1, item.2) := by
    rw [zip_reverse hlen, zip_reverse hzip.symm, List.map_reverse]
    exact congrArg List.reverse (zip_zipWith_promptAdd blocks prompts _)
  have hgrads : grads = gradLoop (List.map _ _) g := congrArg (gradLoop · g) hitems
  obtain ⟨hcot, hparams⟩ := Layer.pullEach_reverse (promptLayers blocks prompts) x g
  rw [hgrads, gradLoop_eq]
  rw [← map_promptLayer_zip, ← List.map_reverse] at hcot hparams
  refine Prod.ext hcot ?_
  show (List.flatten _).reverse = _
  rw [List.reverse_flatten, map_reverse_pullEach]
  exact hparams

/-- **A backward request computes the vector-Jacobian product of the span.** -/
theorem runRpcBackward_eq {blocks : List (DiffBlock α)} {prompts : List (Tensor α)}
    {ps : List (Option (Tensor α))} {x : Tensor α} (hblocks : blocks ≠ [])
    (hndim : x.shape.length = 3) (hps : splitPrompts blocks.length prompts = ps)
    (hlen : ps.length = blocks.length) (hfits : ∀ prompt ∈ ps, PromptFits x.shape prompt)
    (g : Tensor α) :
    runRpcBackward blocks x g prompts =
      .ok ((Layer.chainPull (promptLayers blocks ps) x g).1,
        if (Layer.chainPull (promptLayers blocks ps) x g).2 = [] then none
        else some (Layer.chainPull (promptLayers blocks ps) x g).2) := by
  have hloop := gradLoop_reverse hlen x g
  have hdummy : ∀ p ∈ (Layer.chainPull (promptLayers blocks ps) x g).2, isDummy p = false :=
    fun p hp => not_isDummy_chainPull blocks ps rfl hfits hp
  generalize hgrads : Layer.chainPull (promptLayers blocks ps) x g = grads at hloop hdummy ⊢
  obtain ⟨bs, block, rfl⟩ := (List.eq_nil_or_concat' blocks).resolve_left hblocks
  obtain ⟨qs, q, rfl⟩ : ∃ qs q, ps = qs ++ [q] := by
    refine (List.eq_nil_or_concat' ps).resolve_left ?_
    rintro rfl
    simp at hlen
  have hqs : qs.length = bs.length := by simpa using hlen
  have hlayers : promptLayers (bs ++ [block]) (qs ++ [q])
      = promptLayers bs qs ++ [promptLayer block q] := List.zipWith_append hqs.symm
  have hcollect := collectInputs_eq hndim bs qs rfl
    fun p hp => hfits p (List.mem_append_left _ hp)
  have hadd : addPrompt q (Layer.chain (promptLayers bs qs) x)
      = .ok (promptAdd q (Layer.chain (promptLayers bs qs) x)) := by
    refine addPrompt_of_fits ?_
    rw [shape_chain_promptLayers]
    exact hfits q (List.mem_append_right _ List.mem_cons_self)
  -- the collected inputs are those of all layers, the last one included
  have hinputs : List.zipWith promptAdd qs (Layer.chainInputs (promptLayers bs qs) x)
        ++ [promptAdd q (Layer.chain (promptLayers bs qs) x)]
      = List.zipWith promptAdd (qs ++ [q])
          (Layer.chainInputs (promptLayers (bs ++ [block]) (qs ++ [q])) x) := by
    rw [hlayers, Layer.chainInputs_append, List.zipWith_append]
    · rfl
    · rw [Layer.length_chainInputs, promptLayers, List.length_zipWith, hqs, Nat.min_self]
  have hcount : (List.zipWith promptAdd (qs ++ [q])
      (Layer.chainInputs (promptLayers (bs ++ [block]) (qs ++ [q])) x)).length
        = (qs ++ [q]).length := by
    rw [List.length_zipWith, Layer.length_chainInputs, promptLayers, List.length_zipWith, hlen,
      Nat.min_self, Nat.min_self]
  have hcot := congrArg Prod.fst hloop
  have hparams := congrArg Prod.snd hloop
  dsimp only at hcot hparams
  rw [runRpcBackward, if_neg hblocks, hps]
  dsimp only
  rw [List.dropLast_concat, List.dropLast_concat, hcollect, List.getLast?_concat]
  simp only [Except.bind, bind, orRaise, hadd, hinputs, hcount, hlen, and_self, if_true, hcot,
    hparams]
  by_cases hnil : grads.2 = []
  · rw [hnil, if_pos rfl]
    rfl
  · have hall : grads.2.all isDummy = false := by
      obtain ⟨p, hp⟩ := List.exists_mem_of_ne_nil _ hnil
      refine Bool.eq_false_iff.mpr fun h => ?_
      have := List.all_eq_true.mp h p hp
      rw [hdummy p hp] at this
      cases this
    rw [hall, if_neg hnil]
    rfl

end Drift
