/-
  `rpc_inference`, `_iterate_inference_steps` and `_push_outputs` of `server/handler.py`: one
  inference stream of a server, request by request.

  The first request opens the stream: it says how long the caches have to be, and its
  `args_structure` is used for all requests of the stream.  A request whose step was served already
  is skipped: it is the copy of a step that another server has pushed, or the other way round.
  After a step the outputs may be pushed to the next server, with the other tensors of the first
  request.

  The arguments are unpacked before `start_from_position` is checked, and not behind it; where both
  raise, that is another exception.  Uids, the timeouts, points and adapters are left out.
-/
import Drift.Server.BlockFunctions
import Drift.Utils.Packaging
import Drift.Wire

namespace Drift

variable {κ α : Type} [LinearOrder κ] [Zero α] [Add α] {cfg : PoolConfig}

/-! ## The arguments of a request -/

/-- `[p.squeeze(0) for p in t.split(1, dim=0)]`. -/
def Tensor.splitFirst (t : Tensor α) : List (Tensor α) :=
  (List.range (t.shape.getD 0 0)).map fun i => Tensor.ofFn t.shape.tail fun ix => t.get (i :: ix)

/-- `flat_tensors` of a step. -/
def obtainArgs (argsStructure : Option (List Nat)) (tensors : List (WireTensor α)) :
    Except PyExc (List (WireTensor α)) :=
  match argsStructure with
  | none => .ok tensors
  | some argsStructure => unpackArgs tensors argsStructure

/-- `rest` of a step. -/
def restTensors : List (WireTensor α) → Except PyExc (List (Tensor α))
  | [] => .ok []
  | .int64 _ :: _ => .error .typeError
  | .floating tensor :: rest => (restTensors rest).map (tensor :: ·)

/-- `hidden_states, prompts, hypo_ids, *rest = flat_tensors`.  Indices are taken at the third place
    only. -/
def parseArgs (metadata : RequestMetadata κ) : List (WireTensor α) →
    Except PyExc (InferenceRequest κ α)
  | .floating hiddenStates :: .floating prompts :: .int64 hypoIds :: rest => do
    let rest ← restTensors rest
    .ok { hiddenStates := hiddenStates
          prompts := prompts.splitFirst
          hypoIds := hypoIds
          perLayerInputs := (rest.head?.map Tensor.splitFirst).getD []
          sharedKvInputTensors := rest.tail
          sharedKvKeys := metadata.sharedKvKeys
          startFromPosition := metadata.startFromPosition }
  | _ :: _ :: .floating _ :: _ => .error (.assertionError "hypo ids must be int64")
  | _ :: _ :: .int64 _ :: _ => .error .typeError
  | args =>
    .error (.valueError s!"not enough values to unpack (expected at least 3, got {args.length})")

/-! ## The stream -/

/-- What a server has to serve a span: the blocks by their number, its limits, and what
    `_allocate_cache` gives it, handles for the blocks and the caches behind them. -/
structure InferenceServer (κ α : Type) (cfg : PoolConfig) where
  moduleBackends : Nat → Option (TransformerBackend κ α)
  inferenceMaxLength : Nat
  mergeMaxTokens : Nat
  maxBatchSize : Nat
  allocateCache : List (TransformerBackend κ α) → Nat → Nat → Except PyExc (List Nat × KVStore α cfg)

/-- A stream that is open. -/
structure InferenceStream (κ α : Type) (cfg : PoolConfig) where
  firstRequest : ExpertRequest κ α
  span : InferenceSpan κ α
  prefixLength : Int
  processedStepIds : List Nat
  store : KVStore α cfg

/-- `requested_backends`. -/
def requestedBackends (server : InferenceServer κ α cfg) (start stop : Nat) :
    Except PyExc (List (TransformerBackend κ α)) :=
  (List.range' start (stop - start)).mapM fun i => orRaise .keyError (server.moduleBackends i)

/-- `request.tensors[0].size[0] if request.tensors else 1`. -/
def requestBatchSize (request : ExpertRequest κ α) : Nat :=
  match request.tensors with
  | [] => 1
  | .floating tensor :: _ => tensor.shape.getD 0 0
  | .int64 ids :: _ => ids.length

/-- The head of `rpc_inference`. -/
def openStream (server : InferenceServer κ α cfg) (request : ExpertRequest κ α) :
    Except PyExc (InferenceStream κ α cfg) := do
  let backends ← requestedBackends server request.start request.stop
  if backends = [] then
    .error (.valueError "User must specify at least one block for inference, but got none")
  else match request.metadata.maxLength with
    | none => .error (.assertionError
        "rpc_inference metadata must contain int max_length, got None")
    | some maxLength =>
      if server.inferenceMaxLength < maxLength then
        .error (.valueError (s!"Cannot allocate KV cache for {maxLength} tokens, " ++
          s!"max = {server.inferenceMaxLength}"))
      else do
        let (handles, store) ← server.allocateCache backends (requestBatchSize request) maxLength
        if handles.length = backends.length then
          .ok { firstRequest := request
                span := ⟨backends.zip handles, maxLength, server.mergeMaxTokens, server.maxBatchSize⟩
                prefixLength := 0
                processedStepIds := []
                store := store }
        else .error (.assertionError "")

/-- `_push_outputs`: the server to push to, and the request. -/
def pushOutputs (request : ExpertRequest κ α) (output : Tensor α) (metadata : RequestMetadata κ) :
    Option (NextServer × ExpertRequest κ α) :=
  match metadata.nextServers with
  | [] => none
  | next :: nextServers => some (next,
      { start := next.start
        stop := next.stop
        tensors := .floating output :: request.tensors.tail
        metadata := { metadata with
          sessionId := next.sessionId
          nextServers := nextServers
          pushed := true } })

/-- What a served step gives: the response, and the request to push. -/
structure ServedStep (κ α : Type) where
  response : ExpertResponse κ α
  push : Option (NextServer × ExpertRequest κ α)

/-- The arguments of a request to this stream. -/
def obtainRequest (stream : InferenceStream κ α cfg) (request : ExpertRequest κ α) :
    Except PyExc (InferenceRequest κ α) :=
  obtainArgs stream.firstRequest.metadata.argsStructure request.tensors >>=
    parseArgs request.metadata

/-- One turn of the loop of `rpc_inference`. -/
def serveNew (stream : InferenceStream κ α cfg) (request : ExpertRequest κ α) :
    Except PyExc (ServedStep κ α × InferenceStream κ α cfg) := do
  let parsed ← obtainRequest stream request
  match iterateRpcInference stream.span stream.prefixLength parsed stream.store with
  | .error exc _ => .error exc
  | .ok (response, prefixLength) store =>
    .ok ({ response := ⟨response.hiddenStates :: response.sharedKvTensors, response.sharedKvKeys⟩
           push := if response.canPush then
             pushOutputs stream.firstRequest response.hiddenStates request.metadata else none },
      { stream with
        prefixLength := prefixLength
        processedStepIds := stream.processedStepIds ++ request.metadata.stepId.toList
        store := store })

theorem serveNew_eq_ok {stream stream' : InferenceStream κ α cfg} {request : ExpertRequest κ α}
    {served : ServedStep κ α} :
    serveNew stream request = .ok (served, stream') ↔
      ∃ parsed response prefixLength store, obtainRequest stream request = .ok parsed ∧
        iterateRpcInference stream.span stream.prefixLength parsed stream.store
          = .ok (response, prefixLength) store ∧
        served = ⟨⟨response.hiddenStates :: response.sharedKvTensors, response.sharedKvKeys⟩,
          if response.canPush then
            pushOutputs stream.firstRequest response.hiddenStates request.metadata else none⟩ ∧
        stream' = { stream with
          prefixLength := prefixLength
          processedStepIds := stream.processedStepIds ++ request.metadata.stepId.toList
          store := store } := by
  constructor
  · intro h
    obtain ⟨parsed, hparsed, h⟩ := except_bind_eq_ok.mp h
    cases hstep : iterateRpcInference stream.span stream.prefixLength parsed stream.store with
    | error exc store =>
      simp only [hstep] at h
      nomatch h
    | ok result store =>
      simp only [hstep] at h
      cases h
      exact ⟨parsed, result.1, result.2, store, hparsed, hstep, rfl, rfl⟩
  · rintro ⟨parsed, response, prefixLength, store, hparsed, hstep, rfl, rfl⟩
    refine except_bind_eq_ok.mpr ⟨parsed, hparsed, ?_⟩
    simp only [hstep]

/-- `step_id in processed_step_ids`. -/
def InferenceStream.processed (stream : InferenceStream κ α cfg) (request : ExpertRequest κ α) :
    Bool :=
  request.metadata.stepId.any (· ∈ stream.processedStepIds)

/-- `_iterate_inference_steps`: a step that was served before is not served again. -/
def serveRequest (stream : InferenceStream κ α cfg) (request : ExpertRequest κ α) :
    Except PyExc (Option (ServedStep κ α) × InferenceStream κ α cfg) :=
  if stream.processed request then .ok (none, stream)
  else (serveNew stream request).map fun r => (some r.1, r.2)

/-- `rpc_inference` on the next request of a stream, the first of which opens it. -/
def rpcInference (server : InferenceServer κ α cfg) (stream : Option (InferenceStream κ α cfg))
    (request : ExpertRequest κ α) :
    Except PyExc (Option (ServedStep κ α) × InferenceStream κ α cfg) :=
  match stream with
  | none => do
    let stream ← openStream server request
    serveRequest stream request
  | some stream => serveRequest stream request

end Drift
