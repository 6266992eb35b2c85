/-
  The servers that a client meets: each answers the requests of a stream with `rpc_inference` of
  `server/handler.py`.

  `answer_eq_ok` says what an answer tells: the stream is open (`handlerStream`), one turn of its
  loop has served the request, and the stream goes on from there.  A request that the server skips
  is not answered; the client waits for it in vain.
-/
import Drift.Client.ServerSession
import Drift.Client.StepArguments
import Drift.Server.Handler

namespace Drift

open ServerInferenceSession

variable {κ α : Type} [LinearOrder κ] [Zero α] [Add α] {cfg : PoolConfig}

/-- A server's end of an inference stream, which its first request opens. -/
structure HandlerState (κ α : Type) (cfg : PoolConfig) where
  server : InferenceServer κ α cfg
  stream : Option (InferenceStream κ α cfg)

/-- The stream that the next request comes to. -/
def handlerStream (handler : HandlerState κ α cfg) (request : ExpertRequest κ α) :
    Except PyExc (InferenceStream κ α cfg) :=
  match handler.stream with
  | some stream => .ok stream
  | none => openStream handler.server request

/-- The servers of the swarm, by their peers. -/
def rpcServers (peers : Nat → Except PyExc (InferenceServer κ α cfg)) :
    InferenceServers (HandlerState κ α cfg) κ α where
  connect span := (peers span.peerId).map fun server => ⟨server, none⟩
  answer handler request := do
    let (served, stream) ← rpcInference handler.server handler.stream request
    let served ← orRaise .requestFailed served
    .ok (served.response, ⟨handler.server, some stream⟩)

theorem rpcInference_eq (handler : HandlerState κ α cfg) (request : ExpertRequest κ α) :
    rpcInference handler.server handler.stream request
      = handlerStream handler request >>= fun stream => serveRequest stream request := by
  unfold rpcInference handlerStream
  cases handler.stream <;> rfl

/-- A request that is answered. -/
theorem answer_eq_ok {peers : Nat → Except PyExc (InferenceServer κ α cfg)}
    {handler handler' : HandlerState κ α cfg} {request : ExpertRequest κ α}
    {response : ExpertResponse κ α} :
    (rpcServers peers).answer handler request = .ok (response, handler') ↔
      ∃ stream served stream', handlerStream handler request = .ok stream ∧
        stream.processed request = false ∧ serveNew stream request = .ok (served, stream') ∧
        response = served.response ∧ handler' = ⟨handler.server, some stream'⟩ := by
  constructor
  · intro h
    obtain ⟨⟨served, stream'⟩, hserved, h⟩ := except_bind_eq_ok.mp h
    obtain ⟨served, hsome, h⟩ := except_bind_eq_ok.mp h
    obtain rfl := orRaise_eq_ok.mp hsome
    cases h
    rw [rpcInference_eq] at hserved
    obtain ⟨stream, hstream, hserved⟩ := except_bind_eq_ok.mp hserved
    unfold serveRequest at hserved
    by_cases hprocessed : stream.processed request = true
    · rw [if_pos hprocessed] at hserved
      nomatch hserved
    · rw [if_neg hprocessed] at hserved
      obtain ⟨new, hnew, heq⟩ := except_map_eq_ok.mp hserved
      cases heq
      exact ⟨stream, new.1, new.2, hstream, by simpa using hprocessed, hnew, rfl, rfl⟩
  · rintro ⟨stream, served, stream', hstream, hprocessed, hnew, rfl, rfl⟩
    refine except_bind_eq_ok.mpr ⟨(some served, stream'), ?_, rfl⟩
    rw [rpcInference_eq, hstream]
    refine except_bind_eq_ok.mpr ⟨stream, rfl, ?_⟩
    rw [serveRequest, if_neg (by simp [hprocessed]), hnew]
    rfl

/-! ## What a request says -/

section Requests

omit [Add α]

omit [LinearOrder κ] in
/-- The hidden states of a request are its first argument. -/
theorem parseArgs_spec {metadata : RequestMetadata κ} {args : List (WireTensor α)}
    {parsed : InferenceRequest κ α} (h : parseArgs metadata args = .ok parsed) :
    args.head? = some (.floating parsed.hiddenStates) ∧
      parsed.startFromPosition = metadata.startFromPosition := by
  unfold parseArgs at h
  split at h
  · obtain ⟨rest, -, h⟩ := except_bind_eq_ok.mp h
    cases h
    exact ⟨rfl, rfl⟩
  all_goals nomatch h

omit [LinearOrder κ] [Zero α] in
theorem restTensors_map_floating (tensors : List (Tensor α)) :
    restTensors (tensors.map .floating) = .ok tensors := by
  induction tensors with
  | nil => rfl
  | cons tensor tensors ih =>
    rw [List.map_cons, restTensors, ih]
    rfl

/-- The arguments of a step are parsed. -/
theorem parseArgs_stepArgs (metadata : RequestMetadata κ) (inputs : Tensor α)
    (step : StepInputs κ α) :
    ∃ parsed, parseArgs metadata (stepArgs inputs step) = .ok parsed ∧
      parsed.hiddenStates = inputs ∧ parsed.startFromPosition = metadata.startFromPosition := by
  have hrest : ∃ tensors : List (Tensor α), extraTensors step = tensors.map .floating := by
    refine ⟨(if isDummy step.perLayerInputs then
        if step.sharedKvStates.keys.isEmpty then [] else [dummy]
      else [step.perLayerInputs]) ++ (flattenSharedKv step.sharedKvStates).2, ?_⟩
    rw [List.map_append, extraTensors]
    congr 1
    split
    · split <;> rfl
    · rfl
  obtain ⟨tensors, htensors⟩ := hrest
  rw [stepArgs, htensors]
  exact ⟨_, except_bind_eq_ok.mpr ⟨tensors, restTensors_map_floating tensors, rfl⟩, rfl, rfl⟩

omit [LinearOrder κ] [Zero α] in
/-- The first argument is the first tensor of the request. -/
theorem head?_obtainArgs {tensors args : List (WireTensor α)} {n : Nat} (hn : 0 < n)
    (h : obtainArgs (some (List.range n)) tensors = .ok args) : args.head? = tensors.head? := by
  have hlength : n ≤ tensors.length := by
    by_contra hlt
    rw [obtainArgs, List.range_eq_range',
      unpackArgs_range'_error tensors n 0 (by omega) hn (Nat.zero_le _)] at h
    cases h
  rw [obtainArgs, List.range_eq_range', unpackArgs_range' tensors n 0 (by omega)] at h
  cases h
  rw [List.drop_zero, List.head?_take, if_neg (by omega)]

/-- What a server makes of the request of a step, if its stream has the structure of a step. -/
theorem obtainRequest_spec {σ : Type} {stream : InferenceStream κ α cfg} {k : Nat}
    (hstructure : stream.firstRequest.metadata.argsStructure = some (List.range (3 + k)))
    {session : ServerInferenceSession σ α} {sent : Tensor α} {step : StepInputs κ α}
    {parsed : InferenceRequest κ α}
    (h : obtainRequest stream (session.stepRequest sent step) = .ok parsed) :
    parsed.hiddenStates = sent ∧ parsed.startFromPosition = some (session.position : Int) := by
  obtain ⟨args, hargs, hparsed⟩ := except_bind_eq_ok.mp h
  obtain ⟨hhead, hstart⟩ := parseArgs_spec hparsed
  rw [hstructure, stepRequest_tensors] at hargs
  rw [head?_obtainArgs (by omega) hargs] at hhead
  refine ⟨?_, hstart⟩
  cases hhead
  rfl

omit [LinearOrder κ] [Zero α] in
/-- A stream is opened for the length that its first request asks for. -/
theorem openStream_spec {server : InferenceServer κ α cfg} {stream : InferenceStream κ α cfg}
    {request : ExpertRequest κ α} (h : openStream server request = .ok stream) :
    stream.firstRequest = request ∧ request.metadata.maxLength = some stream.span.maxLength ∧
      stream.prefixLength = 0 := by
  obtain ⟨backends, -, h⟩ := except_bind_eq_ok.mp h
  split at h
  · nomatch h
  · split at h
    · nomatch h
    · rename_i maxLength hmaxLength
      split at h
      · nomatch h
      · obtain ⟨⟨handles, store⟩, -, h⟩ := except_bind_eq_ok.mp h
        simp only at h
        split at h
        · cases h
          exact ⟨rfl, hmaxLength, rfl⟩
        · nomatch h

end Requests

omit [LinearOrder κ] [Zero α] [Add α] in
theorem startPosition_of_le {prefixLength start : Int} {request : InferenceRequest κ α}
    (h : request.startFromPosition = some start) (hle : start ≤ prefixLength) :
    startPosition prefixLength request = .ok start := by
  rw [startPosition, h]
  exact if_pos hle

/-- A turn moves the prefix to the end of the tokens that it was fed. -/
theorem iterateRpcInference_prefix {span : InferenceSpan κ α} {prefixLength prefixLength' : Int}
    {request : InferenceRequest κ α} {store store' : KVStore α cfg}
    {response : InferenceResponse κ α}
    (h : iterateRpcInference span prefixLength request store
      = .ok (response, prefixLength') store') :
    ∃ start, startPosition prefixLength request = .ok start ∧
      prefixLength' = start + request.lengthIncrement := by
  obtain ⟨⟨start, tasks, shared⟩, store₁, hparse, h⟩ := bind_eq_ok.mp h
  obtain ⟨hparse, -⟩ := liftExcept_eq_ok.mp hparse
  obtain ⟨⟨hiddenStates, produced⟩, store₂, -, h⟩ := bind_eq_ok.mp h
  cases h
  obtain ⟨first, hstart, hparse⟩ := except_bind_eq_ok.mp hparse
  obtain ⟨prompts, -, hparse⟩ := except_bind_eq_ok.mp hparse
  obtain ⟨inputs, -, hparse⟩ := except_bind_eq_ok.mp hparse
  obtain ⟨shared', -, hparse⟩ := except_bind_eq_ok.mp hparse
  split at hparse
  · nomatch hparse
  · cases hparse
    exact ⟨start, hstart, rfl⟩

end Drift
