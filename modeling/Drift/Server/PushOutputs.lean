/-
  A pushed step against the direct request for the same step.

  A server that has served a step may push its outputs to the next server, which gets the same step
  from the client too and serves whichever comes first.  `_push_outputs` takes the step's metadata,
  but the prompts and the hypo ids from the FIRST request of the stream.  So the two copies are the
  same step exactly if the request has the tensors of the first one behind its hidden states
  (`push_interchangeable_iff`); then it does not matter which copy arrives first, nor how late the
  other one is (`serveAll_skip`).
-/
import Drift.Client.StepArguments
import Drift.Server.MergedStep

namespace Drift

variable {κ α : Type} [LinearOrder κ] [Zero α] {cfg : PoolConfig}

/-! ## The two copies of a step -/

/-- The client's request for the same step to the next server. -/
def directRequest (next : NextServer) (nextServers : List NextServer) (output : Tensor α)
    (request : ExpertRequest κ α) : ExpertRequest κ α where
  start := next.start
  stop := next.stop
  tensors := .floating output :: request.tensors.tail
  metadata := { request.metadata with
    sessionId := next.sessionId
    nextServers := nextServers
    maxLength := none
    pushed := false }

/-- Two requests for one step: the same tensors and the same metadata up to the routing fields and
    what opens a stream. -/
structure SameStep (r r' : ExpertRequest κ α) : Prop where
  blocks : r.start = r'.start ∧ r.stop = r'.stop
  tensors : r.tensors = r'.tensors
  sessionId : r.metadata.sessionId = r'.metadata.sessionId
  stepId : r.metadata.stepId = r'.metadata.stepId
  sharedKvKeys : r.metadata.sharedKvKeys = r'.metadata.sharedKvKeys
  startFromPosition : r.metadata.startFromPosition = r'.metadata.startFromPosition
  argsStructure : r.metadata.argsStructure = r'.metadata.argsStructure

/-- The direct request is what the next session of the client sends when all optional inputs are
    dummies, which a server that pushes has made sure of. -/
theorem stepRequest_sameStep {σ : Type} {session nextSession : ServerInferenceSession σ α}
    (inputs output : Tensor α) {step : StepInputs κ α} (nextServers : List NextServer)
    (hposition : nextSession.position = session.position) :
    SameStep (nextSession.stepRequest output step)
      (directRequest ⟨nextSession.span.peerId, nextSession.sessionId, nextSession.span.start,
        nextSession.span.stop⟩ nextServers output (session.stepRequest inputs step)) where
  blocks := ⟨rfl, rfl⟩
  tensors := by
    rw [stepRequest_tensors, directRequest, stepRequest_tensors]
    rfl
  sessionId := rfl
  stepId := rfl
  sharedKvKeys := rfl
  startFromPosition := by
    show some (nextSession.position : Int) = some (session.position : Int)
    rw [hposition]
  argsStructure := by
    rw [stepRequest_argsStructure]
    exact (stepRequest_argsStructure session inputs step).symm

/-! ## Serving what arrives -/

variable [Add α]

/-- What a request does to a stream, apart from the push that it may lead to. -/
def deliver (stream : InferenceStream κ α cfg) (request : ExpertRequest κ α) :
    Except PyExc (Option (ExpertResponse κ α) × InferenceStream κ α cfg) :=
  (serveRequest stream request).map fun r => (r.1.map ServedStep.response, r.2)

/-- The requests in the order in which they arrive, whether pushed or direct. -/
def serveAll : InferenceStream κ α cfg → List (ExpertRequest κ α) →
    Except PyExc (List (ExpertResponse κ α) × InferenceStream κ α cfg)
  | stream, [] => .ok ([], stream)
  | stream, request :: requests => do
    let (response, stream) ← deliver stream request
    let (responses, stream) ← serveAll stream requests
    .ok (response.toList ++ responses, stream)

theorem serveAll_of_deliver {stream stream' : InferenceStream κ α cfg} {request : ExpertRequest κ α}
    {response : Option (ExpertResponse κ α)} (requests : List (ExpertRequest κ α))
    (h : deliver stream request = .ok (response, stream')) :
    serveAll stream (request :: requests) = (serveAll stream' requests).map fun served =>
      (response.toList ++ served.1, served.2) := by
  rw [serveAll, h]
  show (serveAll stream' requests).bind _ = _
  cases serveAll stream' requests <;> rfl

omit [LinearOrder κ] [Zero α] [Add α] in
theorem processed_iff {stream : InferenceStream κ α cfg} {request : ExpertRequest κ α} :
    stream.processed request = true ↔
      ∃ stepId ∈ request.metadata.stepId, stepId ∈ stream.processedStepIds := by
  rw [InferenceStream.processed]
  cases request.metadata.stepId <;> simp

theorem deliver_processed {stream : InferenceStream κ α cfg} {request : ExpertRequest κ α}
    (h : stream.processed request = true) : deliver stream request = .ok (none, stream) := by
  rw [deliver, serveRequest, if_pos h]
  rfl

/-- What a step that was not served before does. -/
theorem deliver_new {stream : InferenceStream κ α cfg} {request : ExpertRequest κ α}
    (h : stream.processed request = false) :
    deliver stream request =
      (serveNew stream request).map fun r => (some r.1.response, r.2) := by
  rw [deliver, serveRequest, if_neg (by rw [h]; exact Bool.false_ne_true)]
  cases serveNew stream request <;> rfl

omit [LinearOrder κ] [Zero α] [Add α] in
theorem SameStep.processed {r r' : ExpertRequest κ α} (h : SameStep r r')
    (stream : InferenceStream κ α cfg) : stream.processed r = stream.processed r' := by
  rw [InferenceStream.processed, InferenceStream.processed, h.stepId]

omit [LinearOrder κ] [Add α] in
theorem SameStep.obtainRequest {r r' : ExpertRequest κ α} (h : SameStep r r')
    (stream : InferenceStream κ α cfg) : obtainRequest stream r = obtainRequest stream r' := by
  have hparse : parseArgs r.metadata = parseArgs (α := α) r'.metadata := by
    unfold parseArgs
    rw [h.sharedKvKeys, h.startFromPosition]
  rw [Drift.obtainRequest, Drift.obtainRequest, h.tensors, hparse]

/-- **Two requests for one step** do the same to a stream. -/
theorem deliver_congr {r r' : ExpertRequest κ α} (h : SameStep r r')
    (stream : InferenceStream κ α cfg) : deliver stream r = deliver stream r' := by
  cases hprocessed : stream.processed r with
  | true => rw [deliver_processed hprocessed, deliver_processed (h.processed stream ▸ hprocessed)]
  | false =>
    rw [deliver_new hprocessed, deliver_new (h.processed stream ▸ hprocessed), serveNew, serveNew,
      h.obtainRequest]
    cases obtainRequest stream r' with
    | error exc => rfl
    | ok parsed =>
      rw [h.stepId]
      dsimp only [Bind.bind, Except.bind]
      cases iterateRpcInference stream.span stream.prefixLength parsed stream.store <;> rfl

/-- What was processed stays so, and a request that was served is processed. -/
theorem deliver_processedStepIds {stream stream' : InferenceStream κ α cfg}
    {request : ExpertRequest κ α} {response : Option (ExpertResponse κ α)}
    (h : deliver stream request = .ok (response, stream')) :
    stream.processedStepIds ⊆ stream'.processedStepIds ∧
      ∀ stepId ∈ request.metadata.stepId, stepId ∈ stream'.processedStepIds := by
  cases hprocessed : stream.processed request with
  | true =>
    rw [deliver_processed hprocessed] at h
    cases h
    refine ⟨List.Subset.refl _, fun stepId hstep => ?_⟩
    obtain ⟨stepId', hstep', hmem⟩ := processed_iff.mp hprocessed
    obtain rfl := Option.mem_unique hstep' hstep
    exact hmem
  | false =>
    rw [deliver_new hprocessed] at h
    cases hserve : serveNew stream request with
    | error exc =>
      rw [hserve] at h
      nomatch h
    | ok result =>
      obtain ⟨parsed, answer, prefixLength, store, -, -, -, hstream⟩ := serveNew_eq_ok.mp hserve
      rw [hserve] at h
      cases h
      rw [hstream]
      refine ⟨List.subset_append_left _ _, fun stepId hstep => List.mem_append_right _ ?_⟩
      rw [Option.mem_toList]
      exact hstep

/-- **The copy that comes later** is skipped, however late it is. -/
theorem serveAll_skip {request : ExpertRequest κ α} : ∀ (between after : List (ExpertRequest κ α))
    {stream : InferenceStream κ α cfg}, stream.processed request = true →
      serveAll stream (between ++ request :: after) = serveAll stream (between ++ after) := by
  intro between
  induction between with
  | nil =>
    intro after stream h
    rw [List.nil_append, List.nil_append, serveAll, deliver_processed h]
    show (serveAll stream after >>= _) = _
    cases serveAll stream after <;> rfl
  | cons first between ih =>
    intro after stream h
    rw [List.cons_append, List.cons_append, serveAll, serveAll]
    cases hdeliver : deliver stream first with
    | error exc => rfl
    | ok result =>
      obtain ⟨response, stream'⟩ := result
      obtain ⟨stepId, hstep, hmem⟩ := processed_iff.mp h
      have hnext : stream'.processed request = true :=
        processed_iff.mpr ⟨stepId, hstep, (deliver_processedStepIds hdeliver).1 hmem⟩
      show (serveAll stream' (between ++ request :: after) >>= _)
        = (serveAll stream' (between ++ after) >>= _)
      rw [ih after hnext]

/-! ## Pushed or direct -/

/-- **The push is interchangeable** with the direct request: it is a request for the same step, and
    whichever of the two comes first, a stream does what the direct request alone makes it do. -/
def Interchangeable (cfg : PoolConfig) (pushed direct : ExpertRequest κ α) : Prop :=
  SameStep pushed direct ∧
    ∀ (stream : InferenceStream κ α cfg) (between after : List (ExpertRequest κ α)),
      serveAll stream (pushed :: (between ++ direct :: after))
          = serveAll stream (direct :: (between ++ after)) ∧
        serveAll stream (direct :: (between ++ pushed :: after))
          = serveAll stream (direct :: (between ++ after))

/-- A copy behind the request is skipped. -/
theorem serveAll_cons_skip {r r' : ExpertRequest κ α} (hstep : r.metadata.stepId.isSome)
    (h : r.metadata.stepId = r'.metadata.stepId) (stream : InferenceStream κ α cfg)
    (between after : List (ExpertRequest κ α)) :
    serveAll stream (r :: (between ++ r' :: after)) = serveAll stream (r :: (between ++ after)) := by
  rw [serveAll, serveAll]
  cases hdeliver : deliver stream r with
  | error exc => rfl
  | ok result =>
    obtain ⟨response, stream'⟩ := result
    obtain ⟨stepId, hid⟩ := Option.isSome_iff_exists.mp hstep
    have hnext : stream'.processed r' = true :=
      processed_iff.mpr ⟨stepId, h ▸ hid, (deliver_processedStepIds hdeliver).2 stepId hid⟩
    show (serveAll stream' (between ++ r' :: after) >>= _)
      = (serveAll stream' (between ++ after) >>= _)
    rw [serveAll_skip between after hnext]

theorem serveAll_cons_congr {r r' : ExpertRequest κ α} (h : SameStep r r')
    (stream : InferenceStream κ α cfg) (requests : List (ExpertRequest κ α)) :
    serveAll stream (r :: requests) = serveAll stream (r' :: requests) := by
  rw [serveAll, serveAll, deliver_congr h]

theorem interchangeable_of_sameStep {pushed direct : ExpertRequest κ α}
    (hstep : pushed.metadata.stepId.isSome) (h : SameStep pushed direct) :
    Interchangeable cfg pushed direct := by
  refine ⟨h, fun stream between after => ⟨?_, ?_⟩⟩
  · rw [serveAll_cons_skip hstep h.stepId, serveAll_cons_congr h]
  · rw [serveAll_cons_skip (h.stepId ▸ hstep) h.stepId.symm]

omit [LinearOrder κ] [Zero α] [Add α] in
theorem pushOutputs_eq_some {request pushed : ExpertRequest κ α} {output : Tensor α}
    {metadata : RequestMetadata κ} {next : NextServer}
    (h : pushOutputs request output metadata = some (next, pushed)) :
    pushed = { start := next.start
               stop := next.stop
               tensors := .floating output :: request.tensors.tail
               metadata := { metadata with
                 sessionId := next.sessionId
                 nextServers := metadata.nextServers.tail
                 pushed := true } } := by
  unfold pushOutputs at h
  split at h
  · nomatch h
  · rename_i hnext
    cases h
    rw [hnext]
    rfl

/-- **When a push is interchangeable**: for every stream and every step that it serves and
    pushes. -/
theorem push_interchangeable_iff {stream stream' : InferenceStream κ α cfg}
    {request pushed : ExpertRequest κ α} {output : Tensor α} {outputs : List (Tensor α)}
    {sharedKvKeys : List κ} {next : NextServer} (hstep : request.metadata.stepId.isSome)
    (hserved : serveRequest stream request
      = .ok (some ⟨⟨output :: outputs, sharedKvKeys⟩, some (next, pushed)⟩, stream')) :
    Interchangeable cfg pushed
        (directRequest next request.metadata.nextServers.tail output request) ↔
      stream.firstRequest.tensors.tail = request.tensors.tail := by
  have hpushed : pushOutputs stream.firstRequest output request.metadata = some (next, pushed) := by
    unfold serveRequest at hserved
    split at hserved
    · nomatch hserved
    · cases hserve : serveNew stream request with
      | error exc =>
        rw [hserve] at hserved
        nomatch hserved
      | ok result =>
        obtain ⟨served, stream''⟩ := result
        obtain ⟨parsed, answer, prefixLength, store, -, -, hresult, -⟩ := serveNew_eq_ok.mp hserve
        rw [hserve] at hserved
        cases hserved
        obtain ⟨hresponse, hpush⟩ := ServedStep.mk.inj hresult
        obtain ⟨houtput, -⟩ := List.cons.inj (ExpertResponse.mk.inj hresponse).1
        split at hpush
        · rw [houtput]
          exact hpush.symm
        · nomatch hpush
  rw [pushOutputs_eq_some hpushed]
  constructor
  · rintro ⟨hsame, -⟩
    exact (List.cons.inj hsame.tensors).2
  · intro htail
    refine interchangeable_of_sameStep hstep ⟨⟨rfl, rfl⟩, ?_, rfl, rfl, rfl, rfl, rfl⟩
    rw [htail]
    rfl

/-! ## Beam search -/

/-- A request of one token for two rows, to be pushed on to the block behind. -/
def beamRequest (stepId : Nat) (hypoIds : List Int) : ExpertRequest String Int where
  start := 0
  stop := 1
  tensors := [.floating (Tensor.ofFn [2, 1, 1] fun _ => 7), .floating dummy, .int64 hypoIds]
  metadata :=
    { sessionId := 0
      stepId := some stepId
      sharedKvKeys := []
      maxLength := none
      startFromPosition := none
      nextServers := [⟨1, 1, 1, 2⟩]
      pushed := false
      argsStructure := some [0, 1, 2] }

/-- A stream for two rows whose first request had these hypo ids. -/
def beamStream (hypoIds : List Int) : InferenceStream String Int (PagedKVPool.tokenConfig 1) where
  firstRequest := beamRequest 0 hypoIds
  span := echoSpan [.ordinary]
  prefixLength := 0
  processedStepIds := [0]
  store := .contiguous (AList.insert 0 [(Tensor.zeros [2, 1, 1, 4], Tensor.zeros [2, 1, 4, 1])] ∅)

/-- A step that swaps the two beams, like the first one. -/
theorem push_interchangeable_iff_example :
    ∃ pushed, Interchangeable (PagedKVPool.tokenConfig 1) pushed
      (directRequest ⟨1, 1, 1, 2⟩ [] (Tensor.ofFn [2, 1, 1] fun _ => 7) (beamRequest 1 [1, 0])) := by
  have hserved : ∃ outputs keys pushed stream',
      serveRequest (beamStream [1, 0]) (beamRequest 1 [1, 0])
        = .ok (some ⟨⟨(Tensor.ofFn [2, 1, 1] fun _ => 7) :: outputs, keys⟩,
            some (⟨1, 1, 1, 2⟩, pushed)⟩, stream') := ⟨_, _, _, _, rfl⟩
  obtain ⟨outputs, keys, pushed, stream', hserved⟩ := hserved
  exact ⟨pushed, (push_interchangeable_iff rfl hserved).mpr rfl⟩

/-- **Stale hypo ids**: the first step had none, this one swaps the two beams; the push says
    nothing of it. -/
theorem push_keeps_first_hypoIds :
    ∃ pushed stream', serveRequest (beamStream []) (beamRequest 1 [1, 0])
        = .ok (some ⟨⟨[Tensor.ofFn [2, 1, 1] fun _ => 7], []⟩, some (⟨1, 1, 1, 2⟩, pushed)⟩,
            stream') ∧
      ¬ Interchangeable (PagedKVPool.tokenConfig 1) pushed
        (directRequest ⟨1, 1, 1, 2⟩ [] (Tensor.ofFn [2, 1, 1] fun _ => 7)
          (beamRequest 1 [1, 0])) := by
  refine ⟨_, _, rfl, fun h => ?_⟩
  have hids := h.1.tensors
  nomatch hids

end Drift
