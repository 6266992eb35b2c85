/-
  `DistributedLlamaForSpeculativeGeneration._sample` of `models/llama/speculative_model.py`, with
  the forward pass of `models/llama/model.py` and the prompts of `client/ptune.py`.

  In every iteration a small model drafts some tokens, and the distributed model runs once over the
  draft.  The rows of its logits say which token it would have put where; the draft is accepted up
  to the first token that differs, and if the first one does already, the token of the distributed
  model is taken.  The session then stands behind tokens that were not accepted, so the next
  iteration begins by taking its position back.

  The batch is one row, and the logits processor changes nothing.  The small model, the stopping
  criteria and the layers of the distributed model that run on the client are arguments, and so is
  what the requests of a forward pass meet.  The streamer is left out.
-/
import Drift.Client.InferenceSession
import Mathlib.Data.List.MinMax

namespace Drift

open Tensor

/-- What `PTuneMixin` adds in front of the inputs: the rows of `prompt_embeddings`, and
    `intermediate_prompts`, a dummy unless the mode is `"deep_ptune"`. -/
structure PTune (α : Type) where
  prompts : List (List α)
  intermediatePrompts : Tensor α

/-- The distributed model: what it runs on the client, token by token.  `lmHead` is the last norm
    and the head. -/
structure SpeculativeModel (α β : Type) where
  hiddenSize : Nat
  embedTokens : Int → List α
  length_embedTokens : ∀ token, (embedTokens token).length = hiddenSize
  lmHead : List α → List β
  ptune : Option (PTune α)

/-- `small_model.generate`: it supplies as many tokens as it is asked for. -/
structure Draft where
  generate : List Int → Int → Except PyExc (List Int)
  supplies : ∀ inputIds (k : Nat), 0 < k →
    ∃ tokens, generate inputIds k = .ok (inputIds ++ tokens) ∧ tokens.length = k

variable {σ κ α β : Type} [LinearOrder κ] [Zero α]

/-! ## The forward pass -/

/-- `embed_tokens(input_ids)`. -/
def SpeculativeModel.embed (model : SpeculativeModel α β) (inputIds : List Int) :
    List (List (List α)) :=
  inputIds.map fun token => [model.embedTokens token]

/-- The rows of `lm_head(norm(hidden_states))`. -/
def SpeculativeModel.logits (model : SpeculativeModel α β) (columns : List (List (List α))) :
    List (List β) :=
  columns.map fun column => model.lmHead (column.headD [])

/-- `self(input_ids)` in the active session: the session afterwards, and the logits.  The soft
    prompts are prepended at position 0. -/
def SpeculativeModel.forward (servers : InferenceServers σ κ α) (model : SpeculativeModel α β)
    (session : InferenceSession σ α) (inputIds : List Int) (attempts : List StepAttempt) :
    Option (InferenceSession σ α × Except PyExc (List (List β))) :=
  let inputsEmbeds := model.embed inputIds
  match (if session.position = 0 then model.ptune else none) with
  | none =>
    (session.step servers (ofColumns 1 model.hiddenSize inputsEmbeds) none none none attempts).map
      fun result => (result.1, result.2.map fun hiddenStates => model.logits hiddenStates.columns)
  | some ptune =>
    (session.step servers
      (ofColumns 1 model.hiddenSize (ptune.prompts.map (fun prompt => [prompt]) ++ inputsEmbeds))
      (some ptune.intermediatePrompts) none none attempts).map
      fun result => (result.1, result.2.map fun hiddenStates =>
        model.logits (hiddenStates.columns.drop ptune.prompts.length))

/-! ## One iteration -/

/-- The variables of the loop of `_sample`.  `unfinished` is the one entry of
    `unfinished_sequences`. -/
structure SampleState (σ α : Type) where
  session : InferenceSession σ α
  inputIds : List Int
  iterationSize : Int
  firsts : Bool
  unfinished : Bool

/-- The iteration size, with room for what it feeds. -/
def SampleState.nextSize (s : SampleState σ α) : Int :=
  min s.iterationSize (s.session.maxLength - s.inputIds.length)

/-- `speculative_tokens`. -/
def SampleState.speculativeTokens (draft : Draft) (s : SampleState σ α) :
    Except PyExc (List Int) := do
  let speculativeOutputs ← draft.generate s.inputIds s.nextSize
  let speculativeTokens := pyFrom speculativeOutputs (-s.nextSize)
  if s.inputIds.length + s.nextSize = (s.inputIds ++ speculativeTokens).length then
    .ok speculativeTokens
  else .error (.assertionError "")

/-- The session to validate in, and `input_for_validation`.  Behind the first iteration there are
    tokens. -/
def SampleState.inputForValidation (s : SampleState σ α) (speculativeTokens : List Int) :
    Except PyExc (InferenceSession σ α × List Int) :=
  let fullSequence := s.inputIds ++ speculativeTokens
  if s.firsts then .ok (s.session, fullSequence.dropLast)
  else (s.session.setPosition (s.inputIds.length - 1)).map fun session =>
    (session, (pyFrom fullSequence (-s.nextSize - 1)).dropLast)

/-- `torch.argmax` of a row: the first index of the largest value. -/
def argmax [LinearOrder β] (row : List β) : Nat :=
  match row.maximum with
  | none => 0
  | some largest => row.idxOf largest

/-- The loop over the rows of `full_token_logits`: `all_valid_tokens` and `first_token`. -/
def validateLoop [LinearOrder β] : List (List β) → List Int →
    Except PyExc (List Int × Option Int)
  | _, [] => .ok ([], none)
  | [], _ :: _ => .error .indexError
  | tokenLogits :: rows, speculativeToken :: speculativeTokens =>
    let validToken : Int := argmax tokenLogits
    if validToken = speculativeToken then do
      let (allValidTokens, _) ← validateLoop rows speculativeTokens
      .ok (validToken :: allValidTokens, some validToken)
    else .ok ([], some validToken)

/-- `all_valid_tokens` behind the loop. -/
def validTokens [LinearOrder β] (rows : List (List β)) (speculativeTokens : List Int) :
    Except PyExc (List Int) := do
  let (allValidTokens, firstToken) ← validateLoop rows speculativeTokens
  if allValidTokens = [] then
    orRaise (.runtimeError "torch.cat(): expected a non-empty list of Tensors")
      (firstToken.map fun token => [token])
  else .ok allValidTokens

/-- What an iteration goes through: the draft, the session and the input to validate it with, the
    session behind the forward pass, the rows that are used, and the tokens that come out. -/
structure Validation (σ α β : Type) where
  speculativeTokens : List Int
  before : InferenceSession σ α
  input : List Int
  after : InferenceSession σ α
  fullTokenLogits : List (List β)
  tokens : List Int

/-- The body of the loop up to `all_valid_tokens`. -/
def SampleState.validate [LinearOrder β] (servers : InferenceServers σ κ α)
    (model : SpeculativeModel α β) (draft : Draft) (s : SampleState σ α)
    (attempts : List StepAttempt) : Option (Except PyExc (Validation σ α β)) :=
  match s.speculativeTokens draft with
  | .error exc => some (.error exc)
  | .ok speculativeTokens =>
    match s.inputForValidation speculativeTokens with
    | .error exc => some (.error exc)
    | .ok (before, input) =>
      (model.forward servers before input attempts).map fun (after, result) => do
        let logits ← result
        let fullTokenLogits := pyFrom logits (-s.nextSize)
        let tokens ← validTokens fullTokenLogits speculativeTokens
        .ok ⟨speculativeTokens, before, input, after, fullTokenLogits, tokens⟩

/-- What the loop is called with beside the models: the criteria that stop it, whether one of them
    has end tokens, and the padding.  With end tokens there is to be a padding token, since the loop
    multiplies it. -/
structure SampleConfig where
  stoppingCriteria : List Int → Bool
  hasEosStoppingCriteria : Bool
  padTokenId : Option Int
  pads : hasEosStoppingCriteria = true → padTokenId.isSome = true

/-- The tail of the body. -/
def SampleState.extend (config : SampleConfig) (s : SampleState σ α) (v : Validation σ α β) :
    SampleState σ α :=
  let tokens :=
    if h : config.hasEosStoppingCriteria = true then
      v.tokens.map fun token =>
        if s.unfinished then token else config.padTokenId.get (config.pads h)
    else v.tokens
  { session := v.after
    inputIds := s.inputIds ++ tokens
    iterationSize := s.nextSize
    firsts := false
    unfinished := s.unfinished && !config.stoppingCriteria (s.inputIds ++ tokens) }

/-- One turn of the loop of `_sample`; one that raises ends it. -/
def SampleState.iterate [LinearOrder β] (servers : InferenceServers σ κ α)
    (model : SpeculativeModel α β) (draft : Draft) (config : SampleConfig) (s : SampleState σ α)
    (attempts : List StepAttempt) : Option (SampleState σ α) :=
  if s.unfinished then
    match s.validate servers model draft attempts with
    | some (.ok v) => some (s.extend config v)
    | _ => none
  else none

/-- The variables when the loop begins, in a fresh session. -/
def SampleState.new (σ α : Type) (numBlocks : Nat) (maxRetries : Option Nat) (maxLength : Nat)
    (inputIds : List Int) (iterationSize : Nat) : SampleState σ α where
  session := .new σ α numBlocks maxRetries maxLength
  inputIds := inputIds
  iterationSize := iterationSize
  firsts := true
  unfinished := true

end Drift
