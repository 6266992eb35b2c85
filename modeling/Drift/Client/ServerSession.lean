/-
  `_ServerInferenceSession` of `client/inference_session.py`: the client's end of one inference
  stream, to the server of one span.

  The session counts the tokens that the server has been fed (`position`) and keeps them
  (`history`), to feed them to another server should this one fail.  The first request of a stream
  carries the whole history and what the server needs to allocate its caches; later ones carry the
  new tokens.

  A server is the state of its end of the stream and what it answers.  A request may also fail on
  the way (`failure`); what it then leaves on the server does not matter, since the client never
  reads the stream again.

  `_position` is always a number, so every request has `start_from_position` and none has
  `next_servers`; `next_session` has no other use and is left out.  The compression of the tensors
  is left out, and with it the check against the inference schema, which names the three tensors
  that every request has.
-/
import Drift.Lib.TokenColumns
import Drift.Client.Routing
import Drift.Server.BlockFunctions
import Drift.Utils.Packaging
import Drift.Wire

namespace Drift

/-- The servers, with the type of what a server keeps for a stream: `rpc_inference` is opened, and
    then answers one request after the other. -/
structure InferenceServers (σ κ α : Type) where
  connect : RemoteSpanInfo → Except PyExc σ
  answer : σ → ExpertRequest κ α → Except PyExc (ExpertResponse κ α × σ)

/-- `_ServerInferenceSession`. -/
structure ServerInferenceSession (σ α : Type) where
  span : RemoteSpanInfo
  sessionId : Nat
  maxLength : Nat
  stepped : Bool
  closed : Bool
  position : Nat
  history : Option (Tensor α)
  stream : σ

/-- The arguments of `_ServerInferenceSession.step`; the optional ones may be dummies. -/
structure StepInputs (κ α : Type) where
  inputs : Tensor α
  prompts : Tensor α
  hypoIds : List Int
  stepId : Nat
  perLayerInputs : Tensor α
  sharedKvStates : SharedKvStates κ α

/-- `DUMMY`. -/
def dummy {α : Type} [Zero α] : Tensor α := Tensor.zeros [0]

/-- `torch.cat([t, u], dim=1)`. -/
def catTokens {α : Type} [Zero α] (t u : Tensor α) : Except PyExc (Tensor α) :=
  if t.shape.set 1 0 = u.shape.set 1 0 then .ok (t.cat 1 u)
  else .error (.runtimeError "Sizes of tensors must match except in dimension 1")

namespace ServerInferenceSession

variable {σ κ α : Type} [LinearOrder κ] [Zero α]

/-- `__init__`. -/
def new (span : RemoteSpanInfo) (sessionId maxLength : Nat) (stream : σ) :
    ServerInferenceSession σ α where
  span := span
  sessionId := sessionId
  maxLength := maxLength
  stepped := false
  closed := false
  position := 0
  history := none
  stream := stream

/-- The setter of `position`. -/
def setPosition (session : ServerInferenceSession σ α) (startFromPosition : Nat) :
    Except PyExc (ServerInferenceSession σ α) :=
  if startFromPosition ≤ session.position then
    .ok { session with
      position := startFromPosition
      history := session.history.bind fun history =>
        if startFromPosition ≤ history.shape.getD 1 0 then
          if 0 < startFromPosition then some (history.slice 1 0 startFromPosition) else none
        else some history }
  else .error (.assertionError "")

theorem setPosition_fields {session session' : ServerInferenceSession σ α} {start : Nat}
    (h : session.setPosition start = .ok session') :
    session'.span = session.span ∧ session'.sessionId = session.sessionId := by
  unfold setPosition at h
  split at h
  · obtain rfl := Except.ok.inj h
    exact ⟨rfl, rfl⟩
  · nomatch h

/-- The history with the inputs behind it, unless it is longer than the position. -/
def extendHistory (session : ServerInferenceSession σ α) (inputs : Tensor α) :
    Except PyExc (Tensor α) :=
  match session.history with
  | none => .ok inputs
  | some history =>
    if history.shape.getD 1 0 = session.position then
      catTokens history (inputs.lastTokens (inputs.shape.getD 1 0))
    else .ok history

/-- `*extra_tensors`: per-layer inputs in slot 4, or a dummy if there is shared K/V behind it. -/
def extraTensors (step : StepInputs κ α) : List (WireTensor α) :=
  (if isDummy step.perLayerInputs then
      if step.sharedKvStates.keys.isEmpty then [] else [.floating dummy]
    else [.floating step.perLayerInputs]) ++
    (flattenSharedKv step.sharedKvStates).2.map .floating

/-- The positional arguments of a step. -/
def stepArgs (inputs : Tensor α) (step : StepInputs κ α) : List (WireTensor α) :=
  [.floating inputs, .floating step.prompts, .int64 step.hypoIds] ++ extraTensors step

/-- The arguments are different objects: slices of what the caller passed, tensors that were
    deserialized, and the dummies. -/
def stepObjects (inputs : Tensor α) (step : StepInputs κ α) : List (TensorObject (WireTensor α)) :=
  (stepArgs inputs step).mapIdx TensorObject.mk

/-- The request with its metadata. -/
def stepRequest (session : ServerInferenceSession σ α) (inputs : Tensor α)
    (step : StepInputs κ α) : ExpertRequest κ α :=
  let packed := packArgs (stepObjects inputs step)
  { start := session.span.start
    stop := session.span.stop
    tensors := packed.1.map TensorObject.tensor
    metadata :=
      { sessionId := session.sessionId
        stepId := some step.stepId
        sharedKvKeys := (flattenSharedKv step.sharedKvStates).1
        maxLength := if session.stepped then none else some session.maxLength
        startFromPosition := some session.position
        nextServers := []
        pushed := false
        argsStructure := some packed.2 } }

/-- What the client makes of a response: the output, and the items of `produced_shared_kv`. -/
def receive (inputs : Tensor α) (response : ExpertResponse κ α) :
    Except PyExc (Tensor α × List (κ × KVPair α)) :=
  match response.tensors with
  | [] => .error .indexError
  | output :: tensors =>
    if output.shape = inputs.shape then
      (unflattenSharedKv response.sharedKvKeys (tensors.take (2 * response.sharedKvKeys.length))).map
        fun items => (output, items)
    else .error (.assertionError (s!"output activation shape is different from input shape: " ++
      s!"{output.shape} != {inputs.shape}"))

/-- The part of `step` that talks to the server.  `inputs` are the tokens to send. -/
def exchange (servers : InferenceServers σ κ α) (failure : Option PyExc)
    (session : ServerInferenceSession σ α) (inputs : Tensor α) (step : StepInputs κ α) :
    ServerInferenceSession σ α × Except PyExc (Tensor α × List (κ × KVPair α)) :=
  match remoteCall failure (servers.answer session.stream (session.stepRequest inputs step)) with
  | .error exc => ({ session with stepped := true }, .error exc)
  | .ok (response, stream) =>
    let session := { session with stepped := true, stream := stream }
    match receive inputs response with
    | .error exc => (session, .error exc)
    | .ok result => ({ session with
        position := session.position + step.inputs.shape.getD 1 0 }, .ok result)

/-- `step` up to the request: the session with its history extended, and the tokens to send. -/
def prepare (session : ServerInferenceSession σ α) (inputs : Tensor α) :
    ServerInferenceSession σ α × Except PyExc (Tensor α) :=
  let numInputTokens := inputs.shape.getD 1 0
  if session.closed then
    (session, .error (.exception "Session is closed, cannot perform step"))
  else match session.extendHistory inputs with
    | .error exc => (session, .error exc)
    | .ok history =>
      ({ session with history := some history },
        if history.shape.getD 1 0 = session.position + numInputTokens then
          .ok (if session.stepped then inputs.lastTokens numInputTokens else history)
        else .error (.assertionError (s!"Broken input cache: shape={history.shape} " ++
          s!"position={session.position} n_input_tokens={numInputTokens}")))

/-- `step`.  The history stays extended when the request fails. -/
def step (servers : InferenceServers σ κ α) (failure : Option PyExc)
    (session : ServerInferenceSession σ α) (step : StepInputs κ α) :
    ServerInferenceSession σ α × Except PyExc (Tensor α × List (κ × KVPair α)) :=
  match session.prepare step.inputs with
  | (session, .error exc) => (session, .error exc)
  | (session, .ok inputs) => session.exchange servers failure inputs step

/-- What is sent behind the position, to a server that has seen the tokens before it or not. -/
def sentTokens (session : ServerInferenceSession σ α) (history inputs : Tensor α) : Tensor α :=
  if session.stepped then inputs.lastTokens (inputs.shape.getD 1 0) else history

theorem prepare_eq_ok {session session' : ServerInferenceSession σ α} {inputs sent : Tensor α} :
    session.prepare inputs = (session', .ok sent) ↔
      ∃ history, session.closed = false ∧ session.extendHistory inputs = .ok history ∧
        history.shape.getD 1 0 = session.position + inputs.shape.getD 1 0 ∧
        session' = { session with history := some history } ∧
        sent = session.sentTokens history inputs := by
  unfold prepare sentTokens
  constructor
  · intro h
    split at h
    · nomatch (Prod.ext_iff.mp h).2
    · rename_i hclosed
      split at h
      · nomatch (Prod.ext_iff.mp h).2
      · rename_i history hextend
        simp only [Prod.mk.injEq] at h
        obtain ⟨rfl, hsent⟩ := h
        by_cases hlength : history.shape.getD 1 0 = session.position + inputs.shape.getD 1 0
        · rw [if_pos hlength] at hsent
          exact ⟨history, by simpa using hclosed, hextend, hlength, rfl, (Except.ok.inj hsent).symm⟩
        · rw [if_neg hlength] at hsent
          nomatch hsent
  · rintro ⟨history, hclosed, hextend, hlength, rfl, rfl⟩
    simp only [hclosed, hextend, if_pos hlength]
    rfl

omit [LinearOrder κ] [Zero α] in
theorem receive_eq_ok {inputs outputs : Tensor α} {response : ExpertResponse κ α}
    {produced : List (κ × KVPair α)} (h : receive inputs response = .ok (outputs, produced)) :
    ∃ tensors, response.tensors = outputs :: tensors ∧ outputs.shape = inputs.shape ∧
      unflattenSharedKv response.sharedKvKeys (tensors.take (2 * response.sharedKvKeys.length))
        = .ok produced := by
  unfold receive at h
  split at h
  · nomatch h
  · rename_i output tensors htensors
    split at h
    · rename_i hshape
      obtain ⟨items, hitems, heq⟩ := except_map_eq_ok.mp h
      cases heq
      exact ⟨tensors, htensors, hshape, hitems⟩
    · nomatch h

/-- A step that is answered. -/
theorem step_eq_ok {servers : InferenceServers σ κ α} {session session' : ServerInferenceSession σ α}
    {step : StepInputs κ α} {outputs : Tensor α} {produced : List (κ × KVPair α)} :
    session.step servers none step = (session', .ok (outputs, produced)) ↔
      ∃ history sent response stream,
        session.prepare step.inputs = ({ session with history := some history }, .ok sent) ∧
        servers.answer session.stream (session.stepRequest sent step) = .ok (response, stream) ∧
        receive sent response = .ok (outputs, produced) ∧
        session' = { session with
          history := some history
          stepped := true
          stream := stream
          position := session.position + step.inputs.shape.getD 1 0 } := by
  unfold ServerInferenceSession.step
  constructor
  · intro h
    split at h
    · nomatch (Prod.ext_iff.mp h).2
    · rename_i session₁ sent hprepare
      obtain ⟨history, -, -, -, rfl, -⟩ := prepare_eq_ok.mp hprepare
      unfold exchange remoteCall at h
      simp only at h
      split at h
      · nomatch (Prod.ext_iff.mp h).2
      · rename_i response stream hanswer
        split at h
        · nomatch (Prod.ext_iff.mp h).2
        · rename_i result hreceive
          cases h
          exact ⟨history, sent, response, stream, hprepare, hanswer, hreceive, rfl⟩
  · rintro ⟨history, sent, response, stream, hprepare, hanswer, hreceive, rfl⟩
    have hrequest :
        ServerInferenceSession.stepRequest { session with history := some history } sent step
        = session.stepRequest sent step := rfl
    simp only [hprepare, exchange, remoteCall, hrequest, hanswer, hreceive]

end ServerInferenceSession

end Drift
