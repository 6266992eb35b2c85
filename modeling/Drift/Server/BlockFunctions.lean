/-
  `iterate_rpc_inference` of `server/block_functions.py`: the generator that serves one inference
  session, one message of the request stream after the other.

  A step runs in two processes.  The handler parses the message and submits tasks; the runtime takes
  them from its queue and owns the caches.  The queue pickles a task, so the runtime works on a copy
  of the arguments: within one task all blocks write into one `shared_kv_states` dict, but the
  handler's dict stays as it was.  That is why the task functions below return the outputs and the
  donor tensors only, never the dict.

  A short step is one task for the whole span (`can_merge_pools`), a long one is a task per block.
-/
import Drift.Server.Backend

namespace Drift

variable {κ α : Type} [LinearOrder κ]

/-! ## `utils/shared_kv.py` -/

/-- `flatten_shared_kv`. -/
def flattenSharedKv (shared : SharedKvStates κ α) : List κ × List (Tensor α) :=
  (pySorted shared.keys, kvTensors shared (pySorted shared.keys))

/-- `(tensors[2 * i], tensors[2 * i + 1])` for every `i`. -/
def pairTensors : List (Tensor α) → List (KVPair α)
  | key :: value :: tensors => (key, value) :: pairTensors tensors
  | _ => []

/-- `dict.update` with the given items. -/
def updateShared (shared : SharedKvStates κ α) (items : List (κ × KVPair α)) :
    SharedKvStates κ α :=
  items.foldl (fun shared item => shared.insert item.1 item.2) shared

/-- `unflatten_shared_kv`, as the items of the dict it returns. -/
def unflattenSharedKv (keys : List κ) (tensors : List (Tensor α)) :
    Except PyExc (List (κ × KVPair α)) :=
  if tensors.length = 2 * keys.length then .ok (keys.zip (pairTensors tensors))
  else .error (.assertionError
    s!"expected 2 tensors per layer type, got {tensors.length} for {keys.length} keys")

/-! ## The message and the span -/

/-- One message of the request stream with its metadata.  Prompts and per-layer inputs are split
    along their first axis; dummy ones have no elements. -/
structure InferenceRequest (κ α : Type) where
  hiddenStates : Tensor α
  prompts : List (Tensor α)
  hypoIds : List Int
  perLayerInputs : List (Tensor α)
  sharedKvInputTensors : List (Tensor α)
  sharedKvKeys : List κ
  startFromPosition : Option Int

/-- What the generator is called with: the backends with their cache handles, the length that was
    allocated, `merge_max_tokens` and the size limit of the inference pool. -/
structure InferenceSpan (κ α : Type) where
  blocks : List (TransformerBackend κ α × Nat)
  maxLength : Nat
  mergeMaxTokens : Nat
  maxBatchSize : Nat

/-- What a step yields: the outputs, the donor keys and values it produced, and `can_push`. -/
structure InferenceResponse (κ α : Type) where
  hiddenStates : Tensor α
  sharedKvKeys : List κ
  sharedKvTensors : List (Tensor α)
  canPush : Bool

/-- One block of a task: its backend, its metadata and its prompt. -/
structure BlockTask (κ α : Type) where
  backend : TransformerBackend κ α
  info : InferenceMetadata α
  prompt : Option (Tensor α)

/-- The prompts per block. -/
def parsePrompts (numBackends : Nat) (prompts : List (Tensor α)) :
    Except PyExc (List (Option (Tensor α))) :=
  if prompts.all isDummy then .ok (List.replicate numBackends none)
  else if numBackends = prompts.length then
    .ok (prompts.map fun prompt => if isDummy prompt then none else some prompt)
  else .error (.valueError s!"Received {prompts.length} prompts for {numBackends} backends")

/-- The per-layer inputs per block. -/
def parsePerLayerInputs (numBackends : Nat) (inputs : List (Tensor α)) :
    Except PyExc (List (Option (Tensor α))) :=
  if inputs.all isDummy then .ok (List.replicate numBackends none)
  else if numBackends = inputs.length then .ok (inputs.map some)
  else .error (.valueError
    s!"Received {inputs.length} per-layer inputs for {numBackends} backends")

/-- The dict that the client seeds. -/
def parseSharedKv (keys : List κ) (tensors : List (Tensor α)) :
    Except PyExc (SharedKvStates κ α) :=
  if keys = [] then .ok ∅ else (unflattenSharedKv keys tensors).map (updateShared ∅)

/-- The position the step starts at. -/
def startPosition (prefixLength : Int) (request : InferenceRequest κ α) : Except PyExc Int :=
  match request.startFromPosition with
  | none => .ok prefixLength
  | some start =>
    if start ≤ prefixLength then .ok start
    else .error (.assertionError s!"prefix_length={prefixLength}, start_from_position={start}")

/-- `zip(requested_backends, requested_uids, cache_handles, prompts, per_layer_inputs)`. -/
def blockTasks (prefixLength : Int) : List (TransformerBackend κ α × Nat) →
    List (Option (Tensor α)) → List (Option (Tensor α)) → List (BlockTask κ α)
  | (backend, handle) :: blocks, prompt :: prompts, perLayerInput :: inputs =>
    ⟨backend, ⟨prefixLength, handle, perLayerInput⟩, prompt⟩ ::
      blockTasks prefixLength blocks prompts inputs
  | _, _, _ => []

/-- `batch_size`. -/
def InferenceRequest.batchSize (request : InferenceRequest κ α) : Nat :=
  request.hiddenStates.shape.getD 0 0

/-- `length_increment`. -/
def InferenceRequest.lengthIncrement (request : InferenceRequest κ α) : Nat :=
  request.hiddenStates.shape.getD 1 0

/-- What the handler does before it runs anything: the position of the step, the blocks to run and
    the seeded dict. -/
def parseRequest (span : InferenceSpan κ α) (prefixLength : Int) (request : InferenceRequest κ α) :
    Except PyExc (Int × List (BlockTask κ α) × SharedKvStates κ α) := do
  let prefixLength ← startPosition prefixLength request
  let prompts ← parsePrompts span.blocks.length request.prompts
  let inputs ← parsePerLayerInputs span.blocks.length request.perLayerInputs
  let shared ← parseSharedKv request.sharedKvKeys request.sharedKvInputTensors
  if span.maxLength < prefixLength + request.lengthIncrement then
    .error (.valueError (s!"Maximum length exceeded: prefix {prefixLength} + current " ++
      s!"{request.lengthIncrement} exceeds pre-allocated maximum {span.maxLength}"))
  else .ok (prefixLength, blockTasks prefixLength span.blocks prompts inputs, shared)

/-! ## The runtime -/

section Runtime

variable [Zero α] [Add α] {cfg : PoolConfig}

/-- `hidden_states[:, : optional_prompt.shape[1]] += optional_prompt`. -/
def addPrompt (prompt : Option (Tensor α)) (hiddenStates : Tensor α) : Except PyExc (Tensor α) :=
  match prompt with
  | none => .ok hiddenStates
  | some prompt =>
    let stop := prompt.shape.getD 1 0
    if Tensor.broadcasts prompt.shape (hiddenStates.slice 1 0 stop).shape then
      .ok (hiddenStates.patch fun ix =>
        if ix.getD 1 0 < stop then
          some (hiddenStates.get ix + prompt.get (Tensor.broadcastIndex prompt.shape ix))
        else none)
    else .error (.runtimeError "shape mismatch")

/-- The loop of `_MergedInferenceStep`: all blocks work on one dict. -/
def mergedLoop (hypoIds : List Int) : List (BlockTask κ α) → Tensor α → SharedKvStates κ α →
    RuntimeM α cfg (Tensor α × SharedKvStates κ α)
  | [], hiddenStates, shared => pure (hiddenStates, shared)
  | task :: tasks, hiddenStates, shared => do
    let hiddenStates ← liftExcept (addPrompt task.prompt hiddenStates)
    let (hiddenStates, _, shared) ←
      task.backend.inferenceStep hiddenStates hypoIds task.info shared
    mergedLoop hypoIds tasks hiddenStates shared

/-- `_MergedInferenceStep.__call__`. -/
def mergedInferenceStep (hypoIds : List Int) (tasks : List (BlockTask κ α))
    (shared : SharedKvStates κ α) (hiddenStates : Tensor α) :
    RuntimeM α cfg (Tensor α × List (Tensor α)) := do
  let (hiddenStates, shared') ← mergedLoop hypoIds tasks hiddenStates shared
  pure (hiddenStates, extractProducedSharedKv shared' shared.keys)

/-- `get_task_size`. -/
def getTaskSize (hiddenStates : Tensor α) : Nat :=
  match hiddenStates.shape with
  | a :: b :: _ => a * b
  | _ => 1

/-- `submit_task`, and the wait for its result. -/
def submitTask {β : Type} (maxBatchSize : Nat) (run : Tensor α → RuntimeM α cfg β)
    (hiddenStates : Tensor α) : RuntimeM α cfg β :=
  if maxBatchSize < getTaskSize hiddenStates then
    throw (.valueError
      s!"Task size greater than max_batch_size ({maxBatchSize}), it can't be processed")
  else run hiddenStates

/-! ## The two branches of a step -/

/-- `span_donor_types`, or `backend_donor_types` of a single block. -/
def newDonorTypes (tasks : List (BlockTask κ α)) (seededKeys : List κ) : List κ :=
  pySorted ((tasks.flatMap fun task => task.backend.donorLayerTypes).dedup.filter
    (· ∉ seededKeys))

/-- The branch of `can_merge_pools`: one task for the span. -/
def mergedBranch (maxBatchSize : Nat) (hypoIds : List Int) (tasks : List (BlockTask κ α))
    (shared : SharedKvStates κ α) (hiddenStates : Tensor α) :
    RuntimeM α cfg (Tensor α × SharedKvStates κ α) := do
  let (hiddenStates, produced) ←
    submitTask maxBatchSize (mergedInferenceStep hypoIds tasks shared) hiddenStates
  let items ← liftExcept (unflattenSharedKv (newDonorTypes tasks shared.keys) produced)
  pure (hiddenStates, updateShared ∅ items)

/-- The other branch: one task per block, each with the dict of the handler. -/
def perBlockBranch (maxBatchSize : Nat) (hypoIds : List Int) (shared : SharedKvStates κ α) :
    List (BlockTask κ α) → Tensor α → SharedKvStates κ α →
    RuntimeM α cfg (Tensor α × SharedKvStates κ α)
  | [], hiddenStates, producedSharedKv => pure (hiddenStates, producedSharedKv)
  | task :: tasks, hiddenStates, producedSharedKv => do
    let (hiddenStates, produced) ←
      submitTask maxBatchSize (mergedInferenceStep hypoIds [task] shared) hiddenStates
    let items ← liftExcept (unflattenSharedKv
      (task.backend.donorLayerTypes.filter (· ∉ shared.keys)) produced)
    perBlockBranch maxBatchSize hypoIds shared tasks hiddenStates
      (updateShared producedSharedKv items)

/-- The step on the caches, with the branch to take.  A step without tokens only makes sure that
    the cache is allocated. -/
def runSpan (merge : Bool) (maxBatchSize : Nat) (hypoIds : List Int) (tasks : List (BlockTask κ α))
    (shared : SharedKvStates κ α) (hiddenStates : Tensor α) :
    RuntimeM α cfg (Tensor α × SharedKvStates κ α) :=
  if isDummy hiddenStates then pure (hiddenStates, ∅)
  else if merge then mergedBranch maxBatchSize hypoIds tasks shared hiddenStates
  else perBlockBranch maxBatchSize hypoIds shared tasks hiddenStates ∅

/-- What the step yields. -/
def respond (request : InferenceRequest κ α) (shared : SharedKvStates κ α)
    (hiddenStates : Tensor α) (producedSharedKv : SharedKvStates κ α) : InferenceResponse κ α where
  hiddenStates := hiddenStates
  sharedKvKeys := (flattenSharedKv producedSharedKv).1
  sharedKvTensors := (flattenSharedKv producedSharedKv).2
  canPush := request.prompts.all isDummy && request.perLayerInputs.all isDummy &&
    shared.keys.isEmpty && producedSharedKv.keys.isEmpty

/-- One turn of the generator, with the branch to take. -/
def serveStep (merge : Bool) (span : InferenceSpan κ α) (prefixLength : Int)
    (request : InferenceRequest κ α) :
    RuntimeM α cfg (InferenceResponse κ α × Int) := do
  let (prefixLength, tasks, shared) ← liftExcept (parseRequest span prefixLength request)
  let (hiddenStates, produced) ←
    runSpan merge span.maxBatchSize request.hypoIds tasks shared request.hiddenStates
  pure (respond request shared hiddenStates produced, prefixLength + request.lengthIncrement)

/-- One turn of `iterate_rpc_inference`. -/
def iterateRpcInference (span : InferenceSpan κ α) (prefixLength : Int)
    (request : InferenceRequest κ α) : RuntimeM α cfg (InferenceResponse κ α × Int) :=
  serveStep (request.batchSize * request.lengthIncrement ≤ span.mergeMaxTokens) span prefixLength
    request

end Runtime

end Drift
