/-
  `client/sequential_autograd.py`: forward and backward through a chain of remote blocks, with
  failing servers.

  The forward pass routes the rest of the chain again after every failed attempt.  It records the
  spans that were run and their inputs.  The backward pass pops this record from its end; where the
  server of a span fails, it runs the span forward again, over whatever servers there are, and
  pushes the new record, so that one failed span may become several.

  What an attempt meets (the routing table, the answer of the server) is an argument of the attempt.
  The loops stop with `none` when there is no attempt left while they still wait for one.

  Devices and dtypes are left out.
-/
import Drift.Lib.Retry
import Drift.Client.Routing
import Drift.Server.RpcForward
import Drift.Wire

namespace Drift

variable {α : Type}

/-- What the client is up against: the blocks behind `block_uids`, and `config.max_retries`. -/
structure Swarm (α : Type) where
  blocks : List (DiffBlock α)
  maxRetries : Option Nat

/-- One attempt at a forward request: the routing table it finds, and how the request fails if it
    does. -/
structure ForwardAttempt where
  table : RoutingTable
  failure : Option PyExc

/-- The variables of `sequential_forward`. -/
structure ForwardState (α : Type) where
  blockIdx : Nat
  inputs : Tensor α
  sequences : List RemoteSpanInfo
  intermediateInputs : List (Tensor α)
  doneSequences : List RemoteSpanInfo

/-- The outputs of `sequential_forward`, with its record of inputs and spans. -/
structure ForwardRecord (α : Type) where
  outputs : Tensor α
  intermediateInputs : List (Tensor α)
  doneSequences : List RemoteSpanInfo

section

variable [Zero α] [Add α]

/-- `sequences` at the head of an attempt: a new route unless there is one that has not failed
    yet. -/
def forwardRoute (endIndex attemptNo : Nat) (table : RoutingTable) (s : ForwardState α) :
    Except PyExc (List RemoteSpanInfo) :=
  if s.sequences = [] ∨ 1 ≤ attemptNo then do
    let spans ← makeSequence table s.blockIdx endIndex
    orRaise .indexError (trimLast endIndex spans)
  else .ok s.sequences

/-- The `try` block of `sequential_forward`. -/
def forwardTry (swarm : Swarm α) (prompts : List (Tensor α)) (endIndex attemptNo : Nat)
    (attempt : ForwardAttempt) (s : ForwardState α) : Except PyExc (ForwardState α) := do
  match ← forwardRoute endIndex attemptNo attempt.table s with
  | [] => .error .indexError
  | span :: sequences =>
    let outputs ← remoteCall attempt.failure (runRpcForward
      (pySlice swarm.blocks span.start span.stop) s.inputs (pySlice prompts span.start span.stop))
    if outputs.shape = s.inputs.shape then
      .ok { blockIdx := span.stop
            inputs := outputs
            sequences := sequences
            intermediateInputs := s.intermediateInputs ++ [s.inputs]
            doneSequences := s.doneSequences ++ [span] }
    else .error (.assertionError s!"Expected output {s.inputs.shape}, got {outputs.shape}")

/-- One round of the inner loop of `sequential_forward`.  A failed attempt may have popped a span,
    but the next one starts with a new route. -/
def forwardAttempt (swarm : Swarm α) (prompts : List (Tensor α)) (endIndex attemptNo : Nat)
    (attempt : ForwardAttempt) (s : ForwardState α) : Option (ForwardState α × Option PyExc) :=
  match forwardTry swarm prompts endIndex attemptNo attempt s with
  | .ok s => some (s, none)
  | .error exc => some (s, some exc)

/-- `sequential_forward`. -/
def sequentialForward (swarm : Swarm α) (inputs : Tensor α) (prompts : List (Tensor α))
    (startIndex endIndex : Nat) (attempts : List ForwardAttempt) :
    Option (Except PyExc (ForwardRecord α)) :=
  if inputs.shape.length ≠ 3 then
    some (.error (.assertionError s!"<class 'torch.Tensor'>: {inputs.shape.length}"))
  else if swarm.blocks.length < endIndex then some (.error (.assertionError ""))
  else if ¬ (prompts.all isDummy ∨ prompts.length = swarm.blocks.length) then
    some (.error (.assertionError ""))
  else
    match retryLoop (fun s => decide (endIndex ≤ s.blockIdx))
        (forwardAttempt swarm prompts endIndex) swarm.maxRetries attempts 0
        ⟨startIndex, inputs, [], [], []⟩ with
    | none => none
    | some (_, some exc) => some (.error exc)
    | some (s, none) => some (.ok ⟨s.inputs, s.intermediateInputs, s.doneSequences⟩)

/-- One attempt at a backward request: the attempts of the forward pass that comes first unless
    this is the first attempt, and how the request fails if it does. -/
structure BackwardAttempt where
  recompute : List ForwardAttempt
  failure : Option PyExc

/-- The variables of `sequential_backward`.  `current` is the span that was popped, with its
    inputs. -/
structure BackwardState (α : Type) where
  current : Option (Tensor α × RemoteSpanInfo)
  intermediateInputs : List (Tensor α)
  forwardSequences : List RemoteSpanInfo
  gradOutputs : Tensor α
  gradPromptsReversed : List (List (Tensor α))

/-- The head of the outer loop: `pop` from both stacks unless one is empty. -/
def BackwardState.next (s : BackwardState α) : BackwardState α :=
  match s.intermediateInputs.getLast?, s.forwardSequences.getLast? with
  | some inputs, some span =>
    { s with current := some (inputs, span)
             intermediateInputs := s.intermediateInputs.dropLast
             forwardSequences := s.forwardSequences.dropLast }
  | _, _ => { s with current := none }

/-- The forward pass over a span whose server failed: its record goes onto the stacks, and the last
    span of it is popped. -/
def backupSpan (swarm : Swarm α) (prompts : List (Tensor α)) (attempts : List ForwardAttempt)
    (inputs : Tensor α) (span : RemoteSpanInfo) (s : BackwardState α) :
    Option (Except PyExc (BackwardState α)) :=
  match sequentialForward swarm inputs prompts span.start span.stop attempts with
  | none => none
  | some (.error exc) => some (.error exc)
  | some (.ok record) =>
    if record.intermediateInputs.length ≠ record.doneSequences.length then
      some (.error (.assertionError ""))
    else match record.doneSequences.head?, record.doneSequences.getLast? with
      | some first, some last =>
        if first.start = span.start ∧ last.stop = span.stop then
          let stacked := { s with
            intermediateInputs := s.intermediateInputs ++ record.intermediateInputs
            forwardSequences := s.forwardSequences ++ record.doneSequences }
          some (.ok stacked.next)
        else some (.error (.assertionError ""))
      | _, _ => some (.error .indexError)

/-- The request of `sequential_backward` for the current span. -/
def backwardRequest (swarm : Swarm α) (prompts : List (Tensor α)) (failure : Option PyExc)
    (inputs : Tensor α) (span : RemoteSpanInfo) (s : BackwardState α) :
    BackwardState α × Option PyExc :=
  match remoteCall failure (runRpcBackward (pySlice swarm.blocks span.start span.stop) inputs
      s.gradOutputs (pySlice prompts span.start span.stop)) with
  | .error exc => (s, some exc)
  | .ok (gradOutputs, spanGradPrompts) =>
    (BackwardState.next { s with
      gradOutputs := gradOutputs
      gradPromptsReversed := s.gradPromptsReversed ++ spanGradPrompts.toList }, none)

/-- One round of the inner loop of `sequential_backward`, and the head of the outer loop after a
    success. -/
def backwardAttempt (swarm : Swarm α) (prompts : List (Tensor α)) (attemptNo : Nat)
    (attempt : BackwardAttempt) (s : BackwardState α) :
    Option (BackwardState α × Option PyExc) :=
  match s.current with
  | none => none
  | some (inputs, span) =>
    if attemptNo = 0 then some (backwardRequest swarm prompts attempt.failure inputs span s)
    else match backupSpan swarm prompts attempt.recompute inputs span s with
      | none => none
      | some (.error exc) => some (s, some exc)
      | some (.ok s) =>
        match s.current with
        | none => some (s, some .indexError)
        | some (inputs, span) =>
          some (backwardRequest swarm prompts attempt.failure inputs span s)

/-- `sequential_backward`: the gradient of the inputs, and that of the prompts unless there is
    none. -/
def sequentialBackward (swarm : Swarm α) (gradOutputs : Tensor α)
    (intermediateInputs : List (Tensor α)) (prompts : List (Tensor α))
    (forwardSequences : List RemoteSpanInfo) (attempts : List BackwardAttempt) :
    Option (Except PyExc (Tensor α × Option (List (Tensor α)))) :=
  if intermediateInputs.length ≠ forwardSequences.length then
    some (.error (.assertionError ""))
  else
    match retryLoop (fun s => s.current.isNone) (backwardAttempt swarm prompts) swarm.maxRetries
        attempts 0
        (BackwardState.next ⟨none, intermediateInputs, forwardSequences, gradOutputs, []⟩) with
    | none => none
    | some (_, some exc) => some (.error exc)
    | some (s, none) => some (.ok (s.gradOutputs,
        if s.gradPromptsReversed = [] then none else some s.gradPromptsReversed.reverse.flatten))

end

end Drift
