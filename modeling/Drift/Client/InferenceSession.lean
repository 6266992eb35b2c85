/-
  `InferenceSession` of `client/inference_session.py`: a sequence of server sessions that together
  serve the blocks of a model.

  A step hands the hidden states from one server session to the next.  An attempt that fails is
  followed by one that first replaces the failed server session: it closes it, asks for a route
  through its blocks and opens sessions along it, the first of which gets the history of the one
  that it replaces.

  What an attempt meets is an argument: the routing table, what the path finder makes of it, and how
  the request fails if it does.  Drawing a
  `uuid4` gives the next number.  Devices and dtypes are left out, and so are `close`, after which
  nothing works any more, and the bookkeeping about failed peers, which only the router reads.
-/
import Drift.Client.MinLatencyRouting
import Drift.Client.ServerSession
import Drift.Lib.Retry

namespace Drift

/-- `InferenceSession`, with what it uses of its sequence manager: the number of blocks and
    `config.max_retries`. -/
structure InferenceSession (σ α : Type) where
  numBlocks : Nat
  maxRetries : Option Nat
  maxLength : Nat
  position : Nat
  serverSessions : List (ServerInferenceSession σ α)
  uuids : Nat

/-- What an attempt meets: `spans_containing_block`, the path that is found between two blocks, and
    how the request fails if it does. -/
structure StepAttempt where
  spansContainingBlock : List (List RemoteSpanInfo)
  findPath : Nat → Nat → Except PyExc (List RouteNode)
  failure : Option PyExc

/-- `make_sequence(start_index, end_index, mode="min_latency")`. -/
def StepAttempt.makeSequence (attempt : StepAttempt) (startIndex endIndex : Nat) :
    Except PyExc (List RemoteSpanInfo) :=
  makeSequenceMinLatency attempt.spansContainingBlock (attempt.findPath startIndex endIndex)
    startIndex endIndex

/-- The arguments of a step behind its checks. -/
structure StepArgs (α : Type) where
  inputs : Tensor α
  prompts : Tensor α
  hypoIds : List Int
  perLayerInputs : Tensor α

/-- The variables of the loop of `step`. -/
structure StepState (σ κ α : Type) where
  session : InferenceSession σ α
  serverIdx : Nat
  blockIdx : Nat
  inputs : Tensor α
  accumulatedSharedKv : SharedKvStates κ α

namespace InferenceSession

variable {σ κ α : Type} [LinearOrder κ] [Zero α]

/-- `__init__`. -/
def new (σ α : Type) (numBlocks : Nat) (maxRetries : Option Nat) (maxLength : Nat) :
    InferenceSession σ α where
  numBlocks := numBlocks
  maxRetries := maxRetries
  maxLength := maxLength
  position := 0
  serverSessions := []
  uuids := 0

/-- The setter of `position`. -/
def setPosition (session : InferenceSession σ α) (startFromPosition : Nat) :
    Except PyExc (InferenceSession σ α) := do
  let serverSessions ← session.serverSessions.mapM (·.setPosition startFromPosition)
  .ok { session with position := startFromPosition, serverSessions := serverSessions }

/-! ## The servers of a span -/

/-- `_enter_server_sessions`. -/
def enterServerSessions (servers : InferenceServers σ κ α) (maxLength : Nat) :
    Nat → List RemoteSpanInfo → Except PyExc (List (ServerInferenceSession σ α))
  | _, [] => .ok []
  | uuid, span :: spans => do
    let stream ← servers.connect span
    let sessions ← enterServerSessions servers maxLength (uuid + 1) spans
    .ok (.new span uuid maxLength stream :: sessions)

/-- `updated_sessions[0].history = self._server_sessions[server_idx].history`. -/
def inheritHistory (failed : Option (ServerInferenceSession σ α)) :
    List (ServerInferenceSession σ α) → List (ServerInferenceSession σ α)
  | [] => []
  | first :: rest =>
    match failed with
    | none => first :: rest
    | some failed => { first with history := failed.history } :: rest

/-- The new sessions of `_update_sequence`. -/
def updatedSessions (servers : InferenceServers σ κ α) (session : InferenceSession σ α)
    (serverIdx blockIdx : Nat) (attempt : StepAttempt) :
    Except PyExc (List (ServerInferenceSession σ α)) := do
  let failed := session.serverSessions[serverIdx]?
  let updateEnd := failed.elim session.numBlocks (·.span.stop)
  let spans ← attempt.makeSequence blockIdx updateEnd
  let spans ← orRaise .indexError (trimLast updateEnd spans)
  let sessions ← enterServerSessions servers session.maxLength session.uuids spans
  .ok (inheritHistory failed sessions)

/-- `_update_sequence`.  The failed session is closed in any case. -/
def updateSequence (servers : InferenceServers σ κ α) (session : InferenceSession σ α)
    (serverIdx blockIdx : Nat) (attempt : StepAttempt) : InferenceSession σ α × Option PyExc :=
  match updatedSessions servers session serverIdx blockIdx attempt with
  | .error exc => ({ session with
      serverSessions := session.serverSessions.modify serverIdx ({ · with closed := true }) },
      some exc)
  | .ok updated => ({ session with
      serverSessions := session.serverSessions.take serverIdx ++ updated ++
        session.serverSessions.drop (serverIdx + 1)
      uuids := session.uuids + updated.length }, none)

/-! ## A step -/

/-- The arguments for one server session: its part of the prompts and of the per-layer inputs. -/
def spanInputs (args : StepArgs α) (stepId : Nat) (span : RemoteSpanInfo) (inputs : Tensor α)
    (shared : SharedKvStates κ α) : StepInputs κ α where
  inputs := inputs
  prompts := args.prompts.slice 0 span.start span.stop
  hypoIds := args.hypoIds
  stepId := stepId
  perLayerInputs := if isDummy args.perLayerInputs then args.perLayerInputs
    else args.perLayerInputs.slice 0 span.start span.stop
  sharedKvStates := shared

/-- The request of an attempt, to the session at `server_idx`. -/
def requestSpan (servers : InferenceServers σ κ α) (args : StepArgs α) (stepId : Nat)
    (failure : Option PyExc) (s : StepState σ κ α) : StepState σ κ α × Option PyExc :=
  match s.session.serverSessions[s.serverIdx]? with
  | none => (s, some .indexError)
  | some serverSession =>
    if serverSession.position = s.session.position then
      match serverSession.step servers failure
          (spanInputs args stepId serverSession.span s.inputs s.accumulatedSharedKv) with
      | (serverSession, result) =>
        let session := { s.session with
          serverSessions := s.session.serverSessions.set s.serverIdx serverSession }
        match result with
        | .error exc => ({ s with session := session }, some exc)
        | .ok (outputs, produced) =>
          ({ session := session
             serverIdx := s.serverIdx + 1
             blockIdx := serverSession.span.stop
             inputs := outputs
             accumulatedSharedKv := updateShared s.accumulatedSharedKv produced }, none)
    else (s, some (.assertionError s!"{serverSession.position} and {s.session.position}"))

/-- One attempt of the loop. -/
def stepAttempt (servers : InferenceServers σ κ α) (args : StepArgs α) (stepId attemptNo : Nat)
    (attempt : StepAttempt) (s : StepState σ κ α) : Option (StepState σ κ α × Option PyExc) :=
  if s.session.serverSessions.isEmpty ∨ 1 ≤ attemptNo then
    match s.session.updateSequence servers s.serverIdx s.blockIdx attempt with
    | (session, some exc) => some ({ s with session := session }, some exc)
    | (session, none) =>
      some (requestSpan servers args stepId attempt.failure { s with session := session })
  else some (requestSpan servers args stepId attempt.failure s)

/-- `block_idx < self.num_blocks` is false. -/
def stepFinished (s : StepState σ κ α) : Bool := s.session.numBlocks ≤ s.blockIdx

/-- `prompts`, or a dummy. -/
def checkPrompts (numBlocks : Nat) (inputs : Tensor α) :
    Option (Tensor α) → Except PyExc (Tensor α)
  | none => .ok dummy
  | some prompts =>
    if isDummy prompts then .ok dummy
    else if prompts.shape.length ≠ 4 then .error (.assertionError
      "deep prompts should have shape [num_blocks, batch_size, prefix_len, hid_size]")
    else if prompts.shape.getD 0 0 = numBlocks ∧
        (prompts.shape.getD 1 0 = inputs.shape.getD 0 0 ∨ prompts.shape.getD 1 0 = 1) ∧
        prompts.shape.getD 2 0 ≤ inputs.shape.getD 1 0 ∧
        prompts.shape.getD 3 0 = inputs.shape.getD 2 0 then .ok prompts
    else .error (.assertionError "")

/-- `per_layer_inputs`, or a dummy. -/
def checkPerLayerInputs (numBlocks : Nat) (inputs : Tensor α) :
    Option (Tensor α) → Except PyExc (Tensor α)
  | none => .ok dummy
  | some perLayerInputs =>
    if isDummy perLayerInputs then .ok dummy
    else if perLayerInputs.shape.length ≠ 4 then .error (.assertionError
      "per_layer_inputs should have shape [num_blocks, batch_size, seq_len, per_layer_dim]")
    else if perLayerInputs.shape.getD 0 0 = numBlocks ∧
        (perLayerInputs.shape.getD 1 0 = inputs.shape.getD 0 0 ∨
          perLayerInputs.shape.getD 1 0 = 1) ∧
        perLayerInputs.shape.getD 2 0 = inputs.shape.getD 1 0 then .ok perLayerInputs
    else .error (.assertionError "")

/-- `hypo_ids`, or a dummy. -/
def checkHypoIds (inputs : Tensor α) : Option (List Int) → Except PyExc (List Int)
  | none => .ok []
  | some hypoIds =>
    if hypoIds = [] ∨ hypoIds.length = inputs.shape.getD 0 0 then .ok hypoIds
    else .error (.assertionError "")

/-- The head of `step`. -/
def checkStep (session : InferenceSession σ α) (inputs : Tensor α) (prompts : Option (Tensor α))
    (hypoIds : Option (List Int)) (perLayerInputs : Option (Tensor α)) :
    Except PyExc (StepArgs α) := do
  let prompts ← checkPrompts session.numBlocks inputs prompts
  let perLayerInputs ← checkPerLayerInputs session.numBlocks inputs perLayerInputs
  let hypoIds ← checkHypoIds inputs hypoIds
  if session.maxLength < session.position + inputs.shape.getD 1 0 then
    .error (.valueError (s!"Maximum length exceeded: prefix {session.position} + current " ++
      s!"{inputs.shape.getD 1 0} exceeds pre-allocated maximum {session.maxLength}"))
  else .ok ⟨inputs, prompts, hypoIds, perLayerInputs⟩

/-- The variables when the loop begins: a `step_id` has been drawn. -/
def startStep (session : InferenceSession σ α) (args : StepArgs α) : StepState σ κ α where
  session := { session with uuids := session.uuids + 1 }
  serverIdx := 0
  blockIdx := 0
  inputs := args.inputs
  accumulatedSharedKv := ∅

/-- The tail of `step`. -/
def finishStep (args : StepArgs α) (s : StepState σ κ α) : InferenceSession σ α × Tensor α :=
  ({ s.session with position := s.session.position + args.inputs.shape.getD 1 0 },
    s.inputs.lastTokens (args.inputs.shape.getD 1 0))

/-- `step` behind its checks. -/
def runStep (servers : InferenceServers σ κ α) (session : InferenceSession σ α)
    (args : StepArgs α) (attempts : List StepAttempt) :
    Option (InferenceSession σ α × Except PyExc (Tensor α)) :=
  match retryLoop stepFinished (stepAttempt servers args session.uuids) session.maxRetries attempts 0
      (session.startStep args) with
  | none => none
  | some (s, some exc) => some (s.session, .error exc)
  | some (s, none) => some ((finishStep args s).1, .ok (finishStep args s).2)

/-- `step`.  It has no result when the attempts are used up. -/
def step (servers : InferenceServers σ κ α) (session : InferenceSession σ α) (inputs : Tensor α)
    (prompts : Option (Tensor α)) (hypoIds : Option (List Int))
    (perLayerInputs : Option (Tensor α)) (attempts : List StepAttempt) :
    Option (InferenceSession σ α × Except PyExc (Tensor α)) :=
  match session.checkStep inputs prompts hypoIds perLayerInputs with
  | .error exc => some (session, .error exc)
  | .ok args => session.runStep servers args attempts

omit [LinearOrder κ] in
/-- What the client checks. -/
theorem checkStep_spec {session : InferenceSession σ α} {inputs : Tensor α}
    {prompts : Option (Tensor α)} {hypoIds : Option (List Int)}
    {perLayerInputs : Option (Tensor α)} {args : StepArgs α}
    (h : session.checkStep inputs prompts hypoIds perLayerInputs = .ok args) :
    args.inputs = inputs ∧ session.position + inputs.shape.getD 1 0 ≤ session.maxLength := by
  obtain ⟨prompts', -, h⟩ := except_bind_eq_ok.mp h
  obtain ⟨perLayerInputs', -, h⟩ := except_bind_eq_ok.mp h
  obtain ⟨hypoIds', -, h⟩ := except_bind_eq_ok.mp h
  split at h
  · nomatch h
  · cases h
    exact ⟨rfl, by omega⟩

/-- A step that the client accepts. -/
theorem step_of_checkStep {servers : InferenceServers σ κ α} {session : InferenceSession σ α}
    {inputs : Tensor α} {prompts : Option (Tensor α)} {hypoIds : Option (List Int)}
    {perLayerInputs : Option (Tensor α)} {args : StepArgs α} {attempts : List StepAttempt}
    (h : session.checkStep inputs prompts hypoIds perLayerInputs = .ok args) :
    session.step servers inputs prompts hypoIds perLayerInputs attempts
      = session.runStep servers args attempts := by
  unfold InferenceSession.step
  rw [h]

end InferenceSession

end Drift
