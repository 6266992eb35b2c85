/-
  An `InferenceSession` with the links between its server sessions.

  Beside a session of `Client/InferenceSession` stand the `next_session` of its server sessions, and
  during a step the requests that were answered (`served`).  A failed server session is replaced, in
  its place, by sessions for the same blocks, and the links are set anew around them
  (`updatedLinks`).  Which servers can be reached may be different at every attempt, and so the
  servers come with what an attempt meets.

  Without the additions the loop is the one of `InferenceSession.step` (`step_session`).
-/
import Drift.Client.FailureFree
import Drift.Lib.Links

namespace Drift

open ServerInferenceSession InferenceSession

/-- What an attempt meets, the servers included. -/
structure ServedAttempt (σ κ α : Type) where
  servers : InferenceServers σ κ α
  attempt : StepAttempt

/-- An `InferenceSession` with the `next_session` of its server sessions, by their ids. -/
structure LinkedSession (σ α : Type) where
  session : InferenceSession σ α
  nextSessions : List (Option Nat)

/-- A request that was answered. -/
structure Handoff (α : Type) where
  span : RemoteSpanInfo
  inputs : Tensor α
  outputs : Tensor α

/-- The variables of the loop of `step`, and the requests of the step that were answered. -/
structure LinkedStep (σ κ α : Type) where
  state : StepState σ κ α
  nextSessions : List (Option Nat)
  served : List (Handoff α)

variable {σ κ α : Type} [LinearOrder κ] [Zero α]

/-! ## The source, with the links -/

/-- The end of `_update_sequence`: new sessions have no links, and the last loop sets them. -/
def updatedLinks (sessionIds : List Nat) (serverIdx numUpdated : Nat)
    (nextSessions : List (Option Nat)) : List (Option Nat) :=
  setLinks sessionIds
    (List.range' (serverIdx - 1)
      (min (serverIdx + numUpdated) (sessionIds.length - 1) - (serverIdx - 1)))
    (splice serverIdx (List.replicate numUpdated none) nextSessions)

namespace LinkedSession

/-- `_update_sequence`. -/
def updateSequence (servers : InferenceServers σ κ α) (s : LinkedSession σ α)
    (serverIdx blockIdx : Nat) (attempt : StepAttempt) : LinkedSession σ α × Option PyExc :=
  match s.session.updateSequence servers serverIdx blockIdx attempt,
    updatedSessions servers s.session serverIdx blockIdx attempt with
  | (session, result), .error _ => (⟨session, s.nextSessions⟩, result)
  | (session, result), .ok updated => (⟨session, updatedLinks
      (session.serverSessions.map ServerInferenceSession.sessionId) serverIdx updated.length
      s.nextSessions⟩, result)

end LinkedSession

namespace LinkedStep

/-- An attempt up to the request: `_update_sequence`, if it is called. -/
def prepare (attemptNo : Nat) (a : ServedAttempt σ κ α) (s : LinkedStep σ κ α) :
    LinkedStep σ κ α × Option PyExc :=
  if s.state.session.serverSessions.isEmpty ∨ 1 ≤ attemptNo then
    match LinkedSession.updateSequence a.servers ⟨s.state.session, s.nextSessions⟩
        s.state.serverIdx s.state.blockIdx a.attempt with
    | (linked, result) => ({ s with
        state := { s.state with session := linked.session }
        nextSessions := linked.nextSessions }, result)
  else (s, none)

/-- The request of an attempt.  An answer is put down. -/
def request (args : StepArgs α) (stepId : Nat) (a : ServedAttempt σ κ α) (s : LinkedStep σ κ α) :
    LinkedStep σ κ α × Option PyExc :=
  match requestSpan a.servers args stepId a.attempt.failure s.state with
  | (state, some exc) => ({ s with state := state }, some exc)
  | (state, none) => ({ s with
      state := state
      served := s.served ++ (s.state.session.serverSessions[s.state.serverIdx]?).toList.map
        fun serverSession => ⟨serverSession.span, s.state.inputs, state.inputs⟩ }, none)

/-- One attempt of the loop. -/
def attempt (args : StepArgs α) (stepId attemptNo : Nat) (a : ServedAttempt σ κ α)
    (s : LinkedStep σ κ α) : Option (LinkedStep σ κ α × Option PyExc) :=
  match s.prepare attemptNo a with
  | (s, some exc) => some (s, some exc)
  | (s, none) => some (s.request args stepId a)

/-- `block_idx < self.num_blocks` is false. -/
def finished (s : LinkedStep σ κ α) : Bool := stepFinished s.state

end LinkedStep

namespace LinkedSession

/-- `__init__`. -/
def new (σ α : Type) (numBlocks : Nat) (maxRetries : Option Nat) (maxLength : Nat) :
    LinkedSession σ α :=
  ⟨.new σ α numBlocks maxRetries maxLength, []⟩

/-- The variables when the loop begins. -/
def startStep (s : LinkedSession σ α) (args : StepArgs α) : LinkedStep σ κ α :=
  ⟨s.session.startStep args, s.nextSessions, []⟩

/-- The loop of `step`. -/
def loop (s : LinkedSession σ α) (args : StepArgs α) (attempts : List (ServedAttempt σ κ α)) :
    Option (LinkedStep σ κ α × Option PyExc) :=
  retryLoop LinkedStep.finished (LinkedStep.attempt args s.session.uuids) s.session.maxRetries
    attempts 0 (s.startStep args)

/-- `step`.  It has no result when the attempts are used up. -/
def step (s : LinkedSession σ α) (inputs : Tensor α) (prompts : Option (Tensor α))
    (hypoIds : Option (List Int)) (perLayerInputs : Option (Tensor α))
    (attempts : List (ServedAttempt σ κ α)) :
    Option (LinkedSession σ α × Except PyExc (Tensor α)) :=
  match s.session.checkStep inputs prompts hypoIds perLayerInputs with
  | .error exc => some (s, .error exc)
  | .ok args =>
    match s.loop args attempts with
    | none => none
    | some (final, some exc) => some (⟨final.state.session, final.nextSessions⟩, .error exc)
    | some (final, none) => some (⟨(finishStep args final.state).1, final.nextSessions⟩,
        .ok (finishStep args final.state).2)

end LinkedSession

/-! ## Without the links -/

omit [LinearOrder κ] [Zero α] in
theorem LinkedSession.updateSequence_session (servers : InferenceServers σ κ α)
    (s : LinkedSession σ α) (serverIdx blockIdx : Nat) (attempt : StepAttempt) :
    (s.updateSequence servers serverIdx blockIdx attempt).1.session
        = (s.session.updateSequence servers serverIdx blockIdx attempt).1 ∧
      (s.updateSequence servers serverIdx blockIdx attempt).2
        = (s.session.updateSequence servers serverIdx blockIdx attempt).2 := by
  unfold LinkedSession.updateSequence
  cases updatedSessions servers s.session serverIdx blockIdx attempt <;> exact ⟨rfl, rfl⟩

/-- An attempt is the one of the session without links. -/
theorem LinkedStep.attempt_state (args : StepArgs α) (stepId attemptNo : Nat)
    (servers : InferenceServers σ κ α) (attempt : StepAttempt) (s : LinkedStep σ κ α) :
    stepAttempt servers args stepId attemptNo attempt s.state
      = (s.attempt args stepId attemptNo ⟨servers, attempt⟩).map
          (Prod.map LinkedStep.state id) := by
  have hrequest : ∀ s : LinkedStep σ κ α,
      requestSpan servers args stepId attempt.failure s.state
        = Prod.map LinkedStep.state id (s.request args stepId ⟨servers, attempt⟩) := by
    intro s
    unfold LinkedStep.request
    rcases requestSpan servers args stepId attempt.failure s.state with ⟨state, _ | exc⟩ <;> rfl
  unfold stepAttempt LinkedStep.attempt LinkedStep.prepare
  by_cases hupdate : s.state.session.serverSessions.isEmpty ∨ 1 ≤ attemptNo
  · rw [if_pos hupdate, if_pos hupdate]
    obtain ⟨hsession, hresult⟩ := LinkedSession.updateSequence_session servers
      ⟨s.state.session, s.nextSessions⟩ s.state.serverIdx s.state.blockIdx attempt
    rcases hlinked : LinkedSession.updateSequence servers ⟨s.state.session, s.nextSessions⟩
      s.state.serverIdx s.state.blockIdx attempt with ⟨linked, result⟩
    rcases hplain : s.state.session.updateSequence servers s.state.serverIdx s.state.blockIdx
      attempt with ⟨session, result'⟩
    simp only [hlinked, hplain] at hsession hresult
    subst hsession hresult
    cases result with
    | none => exact congrArg some (hrequest
        ⟨{ s.state with session := linked.session }, linked.nextSessions, s.served⟩)
    | some exc => rfl
  · rw [if_neg hupdate, if_neg hupdate]
    exact congrArg some (hrequest s)

/-- **The links change nothing**: with the same servers at every attempt, a step is one of the
    session without them. -/
theorem LinkedSession.step_session (servers : InferenceServers σ κ α) (s : LinkedSession σ α)
    (inputs : Tensor α) (prompts : Option (Tensor α)) (hypoIds : Option (List Int))
    (perLayerInputs : Option (Tensor α)) (attempts : List StepAttempt) :
    s.session.step servers inputs prompts hypoIds perLayerInputs attempts
      = (s.step inputs prompts hypoIds perLayerInputs
          (attempts.map (ServedAttempt.mk servers))).map
            (Prod.map LinkedSession.session id) := by
  unfold InferenceSession.step LinkedSession.step
  cases s.session.checkStep inputs prompts hypoIds perLayerInputs with
  | error exc => rfl
  | ok args =>
    have hfinished : ∀ t : LinkedStep σ κ α, stepFinished t.state = t.finished := fun _ => rfl
    have hloop : retryLoop stepFinished (stepAttempt servers args s.session.uuids)
        s.session.maxRetries (attempts.map id) 0 (s.session.startStep args)
        = (s.loop args (attempts.map (ServedAttempt.mk servers))).map
            (Prod.map LinkedStep.state id) :=
      retryLoop_map LinkedStep.state id (ServedAttempt.mk servers) hfinished
        (fun attemptNo attempt t =>
          t.attempt_state args s.session.uuids attemptNo servers attempt) attempts 0
        (s.startStep args)
    rw [List.map_id] at hloop
    simp only [runStep, hloop]
    rcases s.loop args (attempts.map (ServedAttempt.mk servers)) with _ | ⟨final, _ | exc⟩ <;> rfl

end Drift
