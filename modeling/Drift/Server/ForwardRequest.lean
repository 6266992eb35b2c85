/-
  What a forward request of a client is answered with: `run_rpc_forward` for tensors as they come
  over the wire.

  `RpcForward` takes the prompts as one slice per block, and blocks that answer.  Here the prompts
  are the tensor that the client sent, of any shape, and the pool of a block may refuse its task.
  The loop pairs blocks and prompts by `zip`, so a prompts tensor whose first axis is shorter than
  the span ends the forward pass early, and the request is answered with the hidden states of a
  block in the middle (`runForwardRequest_complete_iff`).
-/
import Drift.Server.RpcForward

namespace Drift

variable {α : Type}

/-- `backend.forward_pool.submit_task`, and the wait for its result. -/
abbrev ForwardTask (α : Type) := Tensor α → Except PyExc (Tensor α)

variable [Zero α]

/-- `[p.squeeze(0) for p in prompts.split(1, dim=0)]`. -/
def promptSlices (prompts : Tensor α) : Except PyExc (List (Tensor α)) :=
  match prompts.shape with
  | [] => .error (.runtimeError "split expects at least a 1-dimensional tensor")
  | n :: shape =>
    .ok ((List.range n).map fun i => Tensor.ofFn shape fun ix => prompts.get (i :: ix))

/-- The prompts that the blocks are paired with. -/
def requestPrompts (numBackends : Nat) (prompts : Tensor α) :
    Except PyExc (List (Option (Tensor α))) :=
  if isDummy prompts then .ok (List.replicate numBackends none)
  else (promptSlices prompts).map (splitPrompts numBackends)

variable [Add α]

/-- `hidden_states[:, :stop] += prompt`. -/
def addToFirst (stop : Nat) (prompt hiddenStates : Tensor α) : Except PyExc (Tensor α) :=
  if Tensor.broadcasts prompt.shape (hiddenStates.slice 1 0 stop).shape then
    .ok (hiddenStates.patch fun ix =>
      if ix.getD 1 0 < stop then
        some (hiddenStates.get ix + prompt.get (Tensor.broadcastIndex prompt.shape ix))
      else none)
  else .error (.runtimeError "shape mismatch")

/-- `hidden_states[:, : prompt.shape[1]] += prompt`; a prompt of two axes stands for all rows. -/
def addAnyPrompt (prompt : Option (Tensor α)) (hiddenStates : Tensor α) :
    Except PyExc (Tensor α) :=
  match prompt with
  | none => .ok hiddenStates
  | some prompt =>
    match h : prompt.shape with
    | [] | [_] => .error .indexError
    | [a, stop] =>
      addToFirst stop (prompt.withShape [1, a, stop] (by simp [h])) hiddenStates
    | _ :: stop :: _ :: _ => addToFirst stop prompt hiddenStates

/-- The loop of `run_rpc_forward`. -/
def forwardRequestLoop : List (ForwardTask α) → List (Option (Tensor α)) → Tensor α →
    Except PyExc (Tensor α)
  | task :: tasks, prompt :: prompts, hiddenStates => do
    let hiddenStates ← addAnyPrompt prompt hiddenStates
    let hiddenStates ← task hiddenStates
    if hiddenStates.shape.length = 3 then forwardRequestLoop tasks prompts hiddenStates
    else .error (.assertionError ("inputs to <class 'drift.server.backend.TransformerBackend'> " ++
      "must be a list with a single 3d tensor of hidden states"))
  | _, _, hiddenStates => .ok hiddenStates

/-- `run_rpc_forward`. -/
def runForwardRequest (tasks : List (ForwardTask α)) (hiddenStates prompts : Tensor α) :
    Except PyExc (Tensor α) := do
  if tasks = [] then .error .indexError
  else if hiddenStates.shape.length = 3 then
    let prompts ← requestPrompts tasks.length prompts
    forwardRequestLoop tasks prompts hiddenStates
  else .error (.assertionError "")

/-- Three axes are what `addPrompt` expects. -/
theorem addAnyPrompt_of_length {prompt : Tensor α} (h : prompt.shape.length = 3)
    (hiddenStates : Tensor α) :
    addAnyPrompt (some prompt) hiddenStates = addPrompt (some prompt) hiddenStates := by
  obtain ⟨a, b, c, hshape⟩ := List.length_eq_three.mp h
  rw [addAnyPrompt, addPrompt]
  split
  · rename_i h'
    rw [hshape] at h'
    cases h'
  · rename_i h'
    rw [hshape] at h'
    cases h'
  · rename_i h'
    rw [hshape] at h'
    cases h'
  · rename_i h'
    rw [hshape] at h'
    cases h'
    rw [addToFirst]
    simp only [hshape]
    rfl

/-- For blocks that answer, this is the loop of `RpcForward`. -/
theorem forwardRequestLoop_eq : ∀ (blocks : List (DiffBlock α))
    (prompts : List (Option (Tensor α))) (hiddenStates : Tensor α),
    (∀ prompt ∈ prompts, ∀ p, prompt = some p → p.shape.length = 3) →
    forwardRequestLoop (blocks.map fun block x => .ok (block.forward x)) prompts hiddenStates
      = rpcForwardLoop blocks prompts hiddenStates
  | [], _, _, _ => rfl
  | _ :: _, [], _, _ => rfl
  | block :: blocks, prompt :: prompts, hiddenStates, h => by
    have hadd : addAnyPrompt prompt hiddenStates = addPrompt prompt hiddenStates := by
      cases prompt with
      | none => rfl
      | some prompt => exact addAnyPrompt_of_length (h _ List.mem_cons_self prompt rfl) _
    rw [List.map_cons, forwardRequestLoop, rpcForwardLoop, hadd]
    refine bind_congr fun x => ?_
    show (if _ then _ else _) = (if _ then _ else _)
    split
    · exact forwardRequestLoop_eq blocks prompts _ fun p hp => h p (List.mem_cons_of_mem _ hp)
    · rfl

/-! ## The whole span -/

/-- Every backend is applied once, in the order of the request, to hidden states with its own
    prompt added: from `x` they take it to `y`. -/
inductive RunsEveryBlock : List (ForwardTask α) → List (Option (Tensor α)) → Tensor α → Tensor α →
    Prop
  | nil (prompts : List (Option (Tensor α))) (x : Tensor α) : RunsEveryBlock [] prompts x x
  | cons {task : ForwardTask α} {tasks : List (ForwardTask α)} {prompt : Option (Tensor α)}
      {prompts : List (Option (Tensor α))} {x x' y z : Tensor α}
      (hadd : addAnyPrompt prompt x = .ok x') (htask : task x' = .ok y)
      (hrest : RunsEveryBlock tasks prompts y z) :
      RunsEveryBlock (task :: tasks) (prompt :: prompts) x z

/-- The response is that of the whole span. -/
def ServesSpan (tasks : List (ForwardTask α)) (hiddenStates prompts response : Tensor α) : Prop :=
  ∃ ps, requestPrompts tasks.length prompts = .ok ps ∧
    RunsEveryBlock tasks ps hiddenStates response

section Loop

variable {tasks : List (ForwardTask α)} {prompts : List (Option (Tensor α))} {x y : Tensor α}

/-- A block without a prompt is not run. -/
theorem RunsEveryBlock.length_le (h : RunsEveryBlock tasks prompts x y) :
    tasks.length ≤ prompts.length := by
  induction h with
  | nil prompts x => exact Nat.zero_le _
  | cons _ _ _ ih => exact Nat.succ_le_succ ih

/-- With a prompt for every block the loop runs the span. -/
theorem RunsEveryBlock.of_loop : ∀ {tasks : List (ForwardTask α)}
    {prompts : List (Option (Tensor α))} {x : Tensor α}, tasks.length ≤ prompts.length →
    forwardRequestLoop tasks prompts x = .ok y → RunsEveryBlock tasks prompts x y
  | [], prompts, x, _, h => by
    obtain rfl : x = y := Except.ok.inj h
    exact .nil prompts x
  | _ :: _, [], _, hlen, _ => absurd hlen (Nat.not_succ_le_zero _)
  | task :: tasks, prompt :: prompts, x, hlen, h => by
    obtain ⟨x', hadd, h⟩ := except_bind_eq_ok.mp h
    obtain ⟨z, htask, h⟩ := except_bind_eq_ok.mp h
    split at h
    · exact .cons hadd htask (.of_loop (Nat.le_of_succ_le_succ hlen) h)
    · nomatch h

/-- `zip` stops with the prompts. -/
theorem forwardRequestLoop_take : ∀ (tasks : List (ForwardTask α))
    (prompts : List (Option (Tensor α))) (x : Tensor α),
    forwardRequestLoop (tasks.take prompts.length) prompts x = forwardRequestLoop tasks prompts x
  | [], _, _ => by rw [List.take_nil]
  | _ :: _, [], _ => rfl
  | task :: tasks, prompt :: prompts, x => by
    rw [List.length_cons, List.take_succ_cons, forwardRequestLoop, forwardRequestLoop]
    refine bind_congr fun x' => bind_congr fun y => ?_
    split
    · exact forwardRequestLoop_take tasks prompts y
    · rfl

end Loop

/-! ## The request -/

section Request

variable {tasks : List (ForwardTask α)} {hiddenStates prompts : Tensor α}

theorem runForwardRequest_eq_ok {y : Tensor α} :
    runForwardRequest tasks hiddenStates prompts = .ok y ↔
      tasks ≠ [] ∧ hiddenStates.shape.length = 3 ∧
      ∃ ps, requestPrompts tasks.length prompts = .ok ps ∧
        forwardRequestLoop tasks ps hiddenStates = .ok y := by
  rw [runForwardRequest]
  split
  · rename_i hnil
    exact ⟨fun h => (nomatch h), fun h => absurd hnil h.1⟩
  · rename_i hne
    split
    · rename_i hndim
      rw [except_bind_eq_ok]
      exact ⟨fun h => ⟨hne, hndim, h⟩, fun h => h.2.2⟩
    · rename_i hndim
      exact ⟨fun h => (nomatch h), fun h => absurd h.2.1 hndim⟩

omit [Add α] in
/-- The slices of a tensor with elements have elements. -/
theorem promptSlices_eq_ok {slices : List (Tensor α)} (hdummy : isDummy prompts = false)
    (h : promptSlices prompts = .ok slices) :
    slices.length = prompts.shape.headD 0 ∧ slices ≠ [] ∧
      ∀ slice ∈ slices, isDummy slice = false := by
  rw [isDummy, Tensor.numel, decide_eq_false_iff_not] at hdummy
  rw [promptSlices] at h
  split at h
  · cases h
  · rename_i n shape hshape
    obtain rfl := Except.ok.inj h
    rw [hshape, List.prod_cons, Nat.mul_eq_zero, not_or] at hdummy
    refine ⟨?_, ?_, ?_⟩
    · rw [List.length_map, List.length_range, hshape, List.headD_cons]
    · rw [Ne, List.map_eq_nil_iff, List.range_eq_nil]
      exact hdummy.1
    · intro slice hslice
      obtain ⟨i, -, rfl⟩ := List.mem_map.mp hslice
      exact decide_eq_false hdummy.2

omit [Add α] in
/-- The prompts of a tensor that is not dummy: as many as its first axis is long, whatever the
    number of blocks. -/
theorem requestPrompts_eq_ok {ps : List (Option (Tensor α))} {numBackends : Nat}
    (hdummy : isDummy prompts = false) (h : requestPrompts numBackends prompts = .ok ps) :
    ps.length = prompts.shape.headD 0 ∧ ps ≠ [] ∧
      ∀ numBackends', requestPrompts numBackends' prompts = .ok ps := by
  simp only [requestPrompts, hdummy] at h ⊢
  obtain ⟨slices, hslices, rfl⟩ := except_map_eq_ok.mp h
  obtain ⟨hlen, hne, hall⟩ := promptSlices_eq_ok hdummy hslices
  have hsplit : ∀ m, splitPrompts m slices
      = slices.map fun prompt => if isDummy prompt then none else some prompt := by
    intro m
    refine if_neg fun h => ?_
    obtain ⟨slice, hslice⟩ := List.exists_mem_of_ne_nil _ hne
    have := List.all_eq_true.mp h slice hslice
    rw [hall slice hslice] at this
    nomatch this
  refine ⟨?_, ?_, fun m => ?_⟩
  · rw [hsplit, List.length_map, hlen]
  · rw [hsplit, Ne, List.map_eq_nil_iff]
    exact hne
  · rw [hslices, hsplit]
    exact congrArg Except.ok (hsplit m)

/-- **A request without an error runs all blocks exactly if there is a prompt for every block**,
    or none at all, or the request for the blocks that have one raises. -/
theorem runForwardRequest_complete_iff (hne : tasks ≠ []) (hiddenStates prompts : Tensor α) :
    (∀ response, runForwardRequest tasks hiddenStates prompts = .ok response →
      ServesSpan tasks hiddenStates prompts response) ↔
    isDummy prompts = true ∨ tasks.length ≤ prompts.shape.headD 0 ∨
      ∀ response, runForwardRequest (tasks.take (prompts.shape.headD 0)) hiddenStates prompts
        ≠ .ok response := by
  cases hdummy : isDummy prompts with
  | true =>
    refine iff_of_true (fun response h => ?_) (.inl rfl)
    obtain ⟨-, -, ps, hps, hloop⟩ := runForwardRequest_eq_ok.mp h
    refine ⟨ps, hps, .of_loop ?_ hloop⟩
    rw [requestPrompts, if_pos hdummy] at hps
    obtain rfl := Except.ok.inj hps
    exact List.length_replicate.ge
  | false =>
    rw [or_iff_right (by simp)]
    constructor
    · intro h
      refine or_iff_not_imp_left.mpr fun hshort response hresponse => hshort ?_
      obtain ⟨-, hndim, ps, hps, hloop⟩ := runForwardRequest_eq_ok.mp hresponse
      obtain ⟨hlen, -, hps⟩ := requestPrompts_eq_ok hdummy hps
      rw [← hlen, forwardRequestLoop_take] at hloop
      obtain ⟨ps', hps', hruns⟩ :=
        h response (runForwardRequest_eq_ok.mpr ⟨hne, hndim, ps, hps _, hloop⟩)
      obtain rfl : ps' = ps := Except.ok.inj (hps'.symm.trans (hps _))
      exact hlen ▸ hruns.length_le
    · intro h response hresponse
      obtain ⟨-, hndim, ps, hps, hloop⟩ := runForwardRequest_eq_ok.mp hresponse
      obtain ⟨hlen, hnil, hall⟩ := requestPrompts_eq_ok hdummy hps
      rcases h with hle | hraises
      · exact ⟨ps, hps, .of_loop (hlen ▸ hle) hloop⟩
      · rw [← forwardRequestLoop_take, hlen] at hloop
        refine absurd (runForwardRequest_eq_ok.mpr ⟨?_, hndim, ps, hall _, hloop⟩)
          (hraises response)
        rw [← hlen, Ne, List.take_eq_nil_iff, List.length_eq_zero_iff]
        exact not_or.mpr ⟨hnil, hne⟩

end Request

/-- A block that adds one to everything. -/
def plusOne : ForwardTask Int := fun x => .ok (x.patch fun ix => some (x.get ix + 1))

/-- Two prompts for one block: the second is left over. -/
theorem runForwardRequest_complete_iff_two_prompts :
    ServesSpan [plusOne] (Tensor.zeros [1, 2, 1]) (Tensor.ofFn [2, 1, 1, 1] fun _ => 5)
      (Tensor.ofFn [1, 2, 1] fun ix => if ix.getD 1 0 = 0 then 6 else 1) :=
  (runForwardRequest_complete_iff (List.cons_ne_nil _ _) _ _).mpr (.inr (.inl (by decide))) _
    (by decide +kernel)

/-- One prompt for two blocks: the response is that of the first block alone. -/
theorem one_prompt_truncates :
    runForwardRequest [plusOne, plusOne] (Tensor.zeros [1, 2, 1])
        (Tensor.ofFn [1, 1, 1, 1] fun _ => 5)
      = .ok (Tensor.ofFn [1, 2, 1] fun ix => if ix.getD 1 0 = 0 then 6 else 1) ∧
    ¬ ∀ response, runForwardRequest [plusOne, plusOne] (Tensor.zeros [1, 2, 1])
        (Tensor.ofFn [1, 1, 1, 1] fun _ => 5) = .ok response →
      ServesSpan [plusOne, plusOne] (Tensor.zeros [1, 2, 1]) (Tensor.ofFn [1, 1, 1, 1] fun _ => 5)
        response := by
  have hserved : runForwardRequest [plusOne, plusOne] (Tensor.zeros [1, 2, 1])
      (Tensor.ofFn [1, 1, 1, 1] fun _ => 5)
      = .ok (Tensor.ofFn [1, 2, 1] fun ix => if ix.getD 1 0 = 0 then 6 else 1) := by
    decide +kernel
  refine ⟨hserved, fun h => ?_⟩
  obtain ⟨ps, hps, hruns⟩ := h _ hserved
  obtain ⟨hlen, -⟩ := requestPrompts_eq_ok rfl hps
  exact absurd (hlen ▸ hruns.length_le) (by decide)

end Drift
