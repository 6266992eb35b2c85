/-
  The arguments of a step on both ends of an inference stream.

  The client packs every step on its own, with a structure of its own.  The server unpacks all
  requests of a stream with the structure of the first one.  So a step arrives as it was sent
  exactly if it has as many tensors as the first step of its stream (`session_args_survive_iff`):
  with fewer, the server raises; with more, it drops the last ones and computes without them.

  Per-layer inputs without tokens count as none, and a step without tokens gets no donor's keys and
  values from the span before it.  So a session that begins with such a step, to allocate the
  caches, has a first step with three tensors whatever the steps behind it have.
-/
import Drift.Client.ServerSession
import Drift.Lib.Run
import Drift.Server.Handler
import Drift.Server.SharedKv
import Mathlib.Data.String.Basic

namespace Drift

open ServerInferenceSession

variable {σ κ α : Type} [LinearOrder κ] [Zero α]

/-! ## The run of a stream -/

/-- The session on the client, and what its server has seen first: the step and its request. -/
structure StreamState (σ κ α : Type) where
  session : ServerInferenceSession σ α
  first : Option (StepInputs κ α × ExpertRequest κ α)

/-- What the client does: a step, whose request may fail, or a change of the position. -/
inductive StreamOp (κ α : Type) where
  | step (step : StepInputs κ α) (failure : Option PyExc)
  | setPosition (startFromPosition : Nat)

/-- The request of a step with the arguments that were packed; none if the step raises before. -/
def outgoing (session : ServerInferenceSession σ α) (step : StepInputs κ α) :
    Option (ExpertRequest κ α × List (WireTensor α)) :=
  match session.prepare step.inputs with
  | (_, .error _) => none
  | (session, .ok inputs) => some (session.stepRequest inputs step, stepArgs inputs step)

/-- The stream after an operation; one that raises leaves the session as it has become. -/
def StreamState.perform (servers : InferenceServers σ κ α) (s : StreamState σ κ α) :
    StreamOp κ α → Option (StreamState σ κ α)
  | .step step failure => some
      { session := (s.session.step servers failure step).1
        first := s.first <|> (outgoing s.session step).map fun sent => (step, sent.1) }
  | .setPosition startFromPosition =>
    match s.session.setPosition startFromPosition with
    | .error _ => none
    | .ok session => some { s with session := session }

/-- `args_structure` of `rpc_inference` when this request arrives. -/
def StreamState.argsStructure (s : StreamState σ κ α) (request : ExpertRequest κ α) :
    Option (List Nat) :=
  match s.first with
  | some (_, first) => first.metadata.argsStructure
  | none => request.metadata.argsStructure

/-- **The arguments survive**: what the server obtains is what the client has packed. -/
def ArgsSurvive (s : StreamState σ κ α) : StreamOp κ α → Prop
  | .step step _ => ∀ request args, outgoing s.session step = some (request, args) →
      obtainArgs (s.argsStructure request) request.tensors = .ok args
  | .setPosition _ => True

/-- The number of tensors behind the hidden states, the prompts and the hypo ids. -/
def numExtraTensors (step : StepInputs κ α) : Nat :=
  (if isDummy step.perLayerInputs ∧ step.sharedKvStates.keys = [] then 0 else 1) +
    2 * step.sharedKvStates.keys.length

/-- The step has the optional inputs of the first one: a tensor in slot 4 or none, and keys and
    values of as many donors. -/
def LikeFirst (s : StreamState σ κ α) : StreamOp κ α → Prop
  | .step step _ => ∀ first request, s.first = some (first, request) →
      (outgoing s.session step).isSome → numExtraTensors first = numExtraTensors step
  | .setPosition _ => True

/-! ## One step -/

omit [Zero α] in
theorem length_flattenSharedKv (shared : SharedKvStates κ α) :
    (flattenSharedKv shared).2.length = 2 * shared.keys.length := by
  have hmem : ∀ k ∈ pySorted shared.keys, k ∈ shared := fun k hk =>
    AList.mem_keys.mp (mem_pySorted.mp hk)
  show (kvTensors shared (pySorted shared.keys)).length = _
  rw [(zip_pairTensors_kvTensors hmem).1, (perm_pySorted shared.keys).length_eq]

theorem length_extraTensors (step : StepInputs κ α) :
    (extraTensors step).length = numExtraTensors step := by
  rw [extraTensors, numExtraTensors, List.length_append, List.length_map, length_flattenSharedKv]
  congr 1
  cases hdummy : isDummy step.perLayerInputs <;> cases step.sharedKvStates.keys <;> rfl

theorem length_stepArgs (inputs : Tensor α) (step : StepInputs κ α) :
    (stepArgs inputs step).length = 3 + numExtraTensors step := by
  rw [stepArgs, List.length_append, length_extraTensors]
  rfl

/-- The objects of a step are different. -/
theorem packArgs_stepObjects (inputs : Tensor α) (step : StepInputs κ α) :
    packArgs (stepObjects inputs step)
      = (stepObjects inputs step, List.range (3 + numExtraTensors step)) := by
  have hids : (stepObjects inputs step).map TensorObject.id
      = List.range (stepArgs inputs step).length := by
    refine List.ext_getElem (by simp [stepObjects]) fun i hi hi' => ?_
    simp [stepObjects]
  rw [packArgs_of_nodup (by rw [hids]; exact List.nodup_range), stepObjects, List.length_mapIdx,
    length_stepArgs]

theorem stepRequest_tensors (session : ServerInferenceSession σ α) (inputs : Tensor α)
    (step : StepInputs κ α) : (session.stepRequest inputs step).tensors = stepArgs inputs step := by
  show (packArgs (stepObjects inputs step)).1.map TensorObject.tensor = _
  rw [packArgs_stepObjects]
  refine List.ext_getElem (by simp [stepObjects]) fun i hi hi' => ?_
  simp [stepObjects]

theorem stepRequest_argsStructure (session : ServerInferenceSession σ α) (inputs : Tensor α)
    (step : StepInputs κ α) : (session.stepRequest inputs step).metadata.argsStructure
      = some (List.range (3 + numExtraTensors step)) := by
  show some (packArgs (stepObjects inputs step)).2 = _
  rw [packArgs_stepObjects]

/-- What is known of a request that is sent. -/
theorem outgoing_spec {session : ServerInferenceSession σ α} {step : StepInputs κ α}
    {request : ExpertRequest κ α} {args : List (WireTensor α)}
    (h : outgoing session step = some (request, args)) :
    request.tensors = args ∧ args.length = 3 + numExtraTensors step ∧
      request.metadata.argsStructure = some (List.range (3 + numExtraTensors step)) := by
  unfold outgoing at h
  split at h
  · nomatch h
  · cases h
    exact ⟨stepRequest_tensors .., length_stepArgs .., stepRequest_argsStructure ..⟩

/-- The structure that the server keeps is that of the first step. -/
def KeepsFirst (s : StreamState σ κ α) : Prop :=
  ∀ first request, s.first = some (first, request) →
    request.metadata.argsStructure = some (List.range (3 + numExtraTensors first))

theorem perform_keepsFirst {servers : InferenceServers σ κ α} {s s' : StreamState σ κ α}
    {op : StreamOp κ α} (hs : KeepsFirst s) (h : s.perform servers op = some s') :
    KeepsFirst s' := by
  cases op with
  | setPosition startFromPosition =>
    simp only [StreamState.perform] at h
    cases hset : s.session.setPosition startFromPosition with
    | error exc =>
      rw [hset] at h
      nomatch h
    | ok session =>
      rw [hset] at h
      cases h
      exact hs
  | step step failure =>
    cases h
    intro first request hfirst
    cases hkept : s.first with
    | some kept =>
      rw [hkept] at hfirst
      exact hs first request (hkept.trans hfirst)
    | none =>
      rw [hkept] at hfirst
      obtain ⟨⟨sent, args⟩, hsent, hpair⟩ := Option.map_eq_some_iff.mp hfirst
      cases hpair
      exact (outgoing_spec hsent).2.2

theorem argsSurvive_iff_likeFirst {s : StreamState σ κ α} (hs : KeepsFirst s)
    (op : StreamOp κ α) : ArgsSurvive s op ↔ LikeFirst s op := by
  cases op with
  | setPosition startFromPosition => exact Iff.rfl
  | step step failure =>
    have hiff : ∀ request args, outgoing s.session step = some (request, args) →
        (obtainArgs (s.argsStructure request) request.tensors = .ok args ↔
          ∀ first kept, s.first = some (first, kept) →
            numExtraTensors first = numExtraTensors step) := by
      intro request args hsent
      obtain ⟨htensors, hlength, hstructure⟩ := outgoing_spec hsent
      rw [htensors, StreamState.argsStructure]
      cases hfirst : s.first with
      | none =>
        simp only [hstructure, obtainArgs]
        rw [unpackArgs_range_iff, hlength]
        exact iff_of_true rfl fun first kept h => nomatch h
      | some kept =>
        obtain ⟨first, kept⟩ := kept
        simp only [hs first kept hfirst, obtainArgs]
        rw [unpackArgs_range_iff, hlength]
        constructor
        · rintro h first' kept' heq
          cases heq
          omega
        · intro h
          rw [h first kept rfl]
    constructor
    · intro hsurvive first kept hfirst hsome
      obtain ⟨⟨request, args⟩, hsent⟩ := Option.isSome_iff_exists.mp hsome
      exact (hiff request args hsent).mp (hsurvive request args hsent) first kept hfirst
    · intro hlike request args hsent
      exact (hiff request args hsent).mpr fun first kept hfirst =>
        hlike first kept hfirst (by rw [hsent]; rfl)

/-- **When the arguments of all steps survive**: for every server, every sequence of steps and
    rollbacks of a session, and every pattern of failed requests. -/
theorem session_args_survive_iff (servers : InferenceServers σ κ α) (span : RemoteSpanInfo)
    (sessionId maxLength : Nat) (stream : σ) (ops : List (StreamOp κ α)) :
    AllSteps (StreamState.perform servers) ArgsSurvive ⟨.new span sessionId maxLength stream, none⟩
        ops ↔
      AllSteps (StreamState.perform servers) LikeFirst ⟨.new span sessionId maxLength stream, none⟩
        ops :=
  allSteps_congr (P := KeepsFirst)
    (fun _ op hs => ⟨argsSurvive_iff_likeFirst hs op, fun _ h => perform_keepsFirst hs h⟩)
    fun _ _ h => nomatch h

/-! ## A step that only allocates -/

/-- A server that answers with what it was sent. -/
def echoServers : InferenceServers Unit String Int where
  connect _ := .ok ()
  answer _ request :=
    match request.tensors with
    | .floating tensor :: _ => .ok (⟨[tensor], []⟩, ())
    | _ => .error .typeError

/-- A step of `n` tokens with per-layer inputs of one block. -/
def perLayerStep (stepId n : Nat) : StepInputs String Int where
  inputs := Tensor.zeros [1, n, 1]
  prompts := dummy
  hypoIds := []
  stepId := stepId
  perLayerInputs := Tensor.zeros [1, 1, n, 1]
  sharedKvStates := ∅

/-- **The per-layer inputs get lost**: the first step has no tokens, and so no tensor in slot 4;
    then the server never looks there. -/
theorem allocating_step_loses_args :
    ¬ AllSteps (StreamState.perform echoServers) ArgsSurvive ⟨.new ⟨0, 0, 1⟩ 0 4 (), none⟩
      [.step (perLayerStep 0 0) none, .step (perLayerStep 1 1) none] := by
  intro h
  have hsecond := (h.2 _ rfl).1 _ _ rfl
  have hlength := congrArg (Except.map List.length) hsecond
  exact absurd hlength (by decide)

end Drift
