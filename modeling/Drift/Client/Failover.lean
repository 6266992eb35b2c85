/-
  What a session returns when servers fail.

  A failed server session is replaced by sessions for the same blocks, and the first of them gets its
  history, to send it to its server.  All of them begin at position 0, where the loop then expects
  them to be at the position of the session.

  * At position 0 a failure does not show: whatever a failed session has left in the history, the
    one that replaces it sends the tokens of the step (`AtStart.step`), and the loop gets through
    (`runStep_atStart`).
  * Behind it a failure cannot be made up for: every retry fails like the attempt before it
    (`Stuck.retry`).

  So a run returns what the same run without failures returns exactly if its failures happen at
  position 0 (`run_transparent_iff`).
-/
import Drift.Client.CausalSwarm
import Drift.Client.SessionLinks

namespace Drift

open ServerInferenceSession InferenceSession Tensor

variable {κ α : Type} [LinearOrder κ] [Zero α]

/-! ## The runs -/

/-- A session whose servers may fail, and beside it the same session with servers that stay up. -/
structure TwinSessions (α : Type) where
  session : InferenceSession (CausalStream α) α
  steady : InferenceSession (CausalStream α) α

/-- What a user does with both. -/
inductive TwinEvent (α : Type) where
  | step (inputs : Tensor α) (prompts : Option (Tensor α)) (hypoIds : Option (List Int))
      (perLayerInputs : Option (Tensor α)) (attempts steadyAttempts : List StepAttempt)
  | rollback (start : Nat)

/-- Both sessions after an event.  An exception ends the run. -/
def TwinSessions.perform (servers : InferenceServers (CausalStream α) κ α) (s : TwinSessions α) :
    TwinEvent α → Option (TwinSessions α)
  | .step inputs prompts hypoIds perLayerInputs attempts steadyAttempts =>
    match s.session.step servers inputs prompts hypoIds perLayerInputs attempts,
      s.steady.step servers inputs prompts hypoIds perLayerInputs steadyAttempts with
    | some (session, .ok _), some (steady, .ok _) => some ⟨session, steady⟩
    | _, _ => none
  | .rollback start =>
    match s.session.setPosition start, s.steady.setPosition start with
    | .ok session, .ok steady => some ⟨session, steady⟩
    | _, _ => none

/-- `make_sequence` finds a way through any blocks that it is asked for. -/
def HasRoutes (numBlocks : Nat) (attempt : StepAttempt) : Prop :=
  ∀ startIndex endIndex, startIndex < endIndex → endIndex ≤ numBlocks →
    ∃ spans, attempt.makeSequence startIndex endIndex = .ok spans

/-- An attempt on servers that stay up.  Routes are needed if there is one to be found. -/
def StaysUp (numBlocks : Nat) (updates : Prop) (attempt : StepAttempt) : Prop :=
  FindsPaths attempt ∧ attempt.failure = none ∧ (updates → HasRoutes numBlocks attempt)

/-- Whatever fails in a step, an attempt on servers that stay up comes before the retries are used
    up. -/
def StepRecovers (session : InferenceSession (CausalStream α) α) (attempts : List StepAttempt) :
    Prop :=
  Recovers
    (fun streak attempt =>
      StaysUp session.numBlocks (session.serverSessions = [] ∨ streak ≠ 0) attempt)
    (fun _ attempt => FindsPaths attempt) session.maxRetries session.numBlocks 0 attempts

/-- What is assumed of an event: the client accepts it, the servers of one session recover and those
    of the other stay up. -/
def Survivable (κ : Type) [LinearOrder κ] (blocks : CausalBlocks α) (batch features : Nat)
    (s : TwinSessions α) : TwinEvent α → Prop
  | .rollback start => start ≤ s.session.position
  | .step inputs prompts hypoIds perLayerInputs attempts steadyAttempts =>
    (∃ n, inputs.shape = [batch, n, features]) ∧
      (∃ args, s.session.checkStep inputs prompts hypoIds perLayerInputs = .ok args) ∧
      StepRecovers s.session attempts ∧
      SwarmUp (causalServers κ blocks) s.steady steadyAttempts

/-- **Failover is transparent**: the step returns what it returns without failures. -/
def Transparent (servers : InferenceServers (CausalStream α) κ α) (s : TwinSessions α) :
    TwinEvent α → Prop
  | .rollback _ => True
  | .step inputs prompts hypoIds perLayerInputs attempts steadyAttempts =>
    ∃ session steady outputs,
      s.session.step servers inputs prompts hypoIds perLayerInputs attempts
        = some (session, .ok outputs) ∧
      s.steady.step servers inputs prompts hypoIds perLayerInputs steadyAttempts
        = some (steady, .ok outputs)

/-- No request fails behind position 0.  There the attempts of a step are one for every server
    session. -/
def FailsAtStartOnly (s : TwinSessions α) : TwinEvent α → Prop
  | .rollback _ => True
  | .step _ _ _ _ attempts _ =>
    s.session.position = 0 ∨ Quiet (attempts.take s.session.serverSessions.length)

/-! ## A server session at position 0 -/

/-- What a failed session may leave in the history at position 0: nothing, or the tokens of the
    step. -/
def Replays (batch features : Nat) (tokens : List (Column α)) : Option (Tensor α) → Prop
  | none => True
  | some history => history.shape = [batch, 0, features] ∨
      history.shape = [batch, tokens.length, features] ∧ history.columns = tokens

/-- A server session that is to run at position 0, when the tokens `new` are stepped. -/
structure AtStart (blocks : CausalBlocks α) (batch features maxLength : Nat)
    (new : List (Column α)) (serverSession : ServerInferenceSession (CausalStream α) α) :
    Prop where
  isOpen : serverSession.closed = false
  streamBehind : StreamBehind blocks maxLength [] serverSession
  history : Replays batch features (layers blocks.run 0 serverSession.span.start new)
    serverSession.history

section ServerSessions

variable {blocks : CausalBlocks α} {batch features maxLength : Nat} {new : List (Column α)}
  {serverSession : ServerInferenceSession (CausalStream α) α}

theorem StandsBehind.atStart (h : StandsBehind blocks batch features maxLength [] serverSession)
    (new : List (Column α)) : AtStart blocks batch features maxLength new serverSession := by
  refine ⟨h.isOpen, h.streamBehind, ?_⟩
  cases hcase : serverSession.history with
  | none => trivial
  | some history => exact Or.inl (h.shape history hcase)

/-- The history becomes the tokens of the step, and they are what is sent. -/
theorem AtStart.prepare (h : AtStart blocks batch features maxLength new serverSession)
    {inputs : Tensor α} (hshape : inputs.shape = [batch, new.length, features])
    (hinputs : inputs.columns = layers blocks.run 0 serverSession.span.start new) :
    ∃ history sent,
      serverSession.prepare inputs = ({ serverSession with history := some history }, .ok sent) ∧
      history.shape = [batch, new.length, features] ∧
      history.columns = layers blocks.run 0 serverSession.span.start new ∧
      sent.shape = [batch, new.length, features] ∧
      sent.columns = layers blocks.run 0 serverSession.span.start new := by
  have hposition : serverSession.position = 0 := h.streamBehind.position_eq
  obtain ⟨history, hextend, hlength, hcolumns⟩ : ∃ history,
      serverSession.extendHistory inputs = .ok history ∧
      history.shape = [batch, new.length, features] ∧
      history.columns = layers blocks.run 0 serverSession.span.start new := by
    have hhistory := h.history
    unfold ServerInferenceSession.extendHistory
    cases hcase : serverSession.history with
    | none => exact ⟨inputs, rfl, hshape, hinputs⟩
    | some old =>
      rw [hcase] at hhistory
      -- a history without tokens is extended, one with the tokens of the step is not
      have hempty : old.shape = [batch, 0, features] → ∃ history,
          (if old.shape.getD 1 0 = serverSession.position then
            catTokens old (inputs.lastTokens (inputs.shape.getD 1 0)) else .ok old)
              = .ok history ∧
          history.shape = [batch, new.length, features] ∧
          history.columns = layers blocks.run 0 serverSession.span.start new := by
        intro hold
        have hnone : old.columns = [] :=
          List.length_eq_zero_iff.mp (by rw [length_columns, hold]; rfl)
        rw [if_pos (by rw [hold, hposition]; rfl), lastTokens_self rfl, catTokens,
          if_pos (by rw [hold, hshape]; rfl)]
        refine ⟨_, rfl, ?_, ?_⟩
        · rw [shape_cat_tokens hold hshape, Nat.zero_add]
        · rw [columns_cat hold hshape, hnone, hinputs, List.nil_append]
      rcases hhistory with hold | ⟨hold, hcolumns⟩
      · exact hempty hold
      · rw [length_layers] at hold
        by_cases hzero : new.length = 0
        · exact hempty (by rw [hold, hzero])
        · exact ⟨old, if_neg (by rw [hold, hposition]; exact hzero), hold, hcolumns⟩
  have hprepare := prepare_eq_ok.mpr ⟨history, h.isOpen, hextend,
    by rw [hlength, hposition, hshape]; exact (Nat.zero_add _).symm, rfl, rfl⟩
  refine ⟨history, _, hprepare, hlength, hcolumns, ?_⟩
  unfold sentTokens
  cases serverSession.stepped with
  | true =>
    rw [lastTokens_self rfl]
    exact ⟨hshape, hinputs⟩
  | false => exact ⟨hlength, hcolumns⟩

/-- **A step at position 0** that is answered. -/
theorem AtStart.step (h : AtStart blocks batch features maxLength new serverSession)
    (step : StepInputs κ α) (hle : serverSession.span.start ≤ serverSession.span.stop)
    (hnew : ∀ column ∈ new, ColumnShape batch features column)
    (hshape : step.inputs.shape = [batch, new.length, features])
    (hfits : new.length ≤ maxLength)
    (hinputs : step.inputs.columns = layers blocks.run 0 serverSession.span.start new) :
    ∃ serverSession' outputs,
      serverSession.step (causalServers κ blocks) none step = (serverSession', .ok (outputs, [])) ∧
      StandsBehind blocks batch features maxLength new serverSession' ∧
      serverSession'.span = serverSession.span ∧
      outputs.shape = [batch, new.length, features] ∧
      outputs.columns = layers blocks.run 0 serverSession.span.stop new := by
  obtain ⟨history, sent, hprepare, hhistory, hcolumns, hsent, hsentColumns⟩ :=
    h.prepare hshape hinputs
  obtain ⟨outputs, hstep, hout, houtputs⟩ := h.streamBehind.exchange step hle hnew
    hprepare (by rw [hshape]; rfl) hsent (by simpa using hfits) hsentColumns
  refine ⟨_, outputs, hstep, ?_, rfl, hout, houtputs⟩
  refine ⟨⟨rfl, h.streamBehind.limit_eq, ⟨batch, features, hhistory, hcolumns⟩, ?_⟩, h.isOpen, ?_,
    rfl, rfl, ?_⟩
  · intro hstepped
    nomatch hstepped
  · rintro history' ⟨⟩
    exact hhistory
  · exact List.take_of_length_le (by simp)

/-- A step at position 0 whose request fails: the tokens are in the history now. -/
theorem AtStart.failed (h : AtStart blocks batch features maxLength new serverSession)
    (step : StepInputs κ α) (exc : PyExc)
    (hshape : step.inputs.shape = [batch, new.length, features])
    (hinputs : step.inputs.columns = layers blocks.run 0 serverSession.span.start new) :
    ∃ serverSession', serverSession.step (causalServers κ blocks) (some exc) step
        = (serverSession', .error exc) ∧
      serverSession'.span = serverSession.span ∧
      Replays batch features (layers blocks.run 0 serverSession.span.start new)
        serverSession'.history := by
  obtain ⟨history, sent, hprepare, hhistory, hcolumns, -⟩ := h.prepare hshape hinputs
  refine ⟨{ serverSession with history := some history, stepped := true }, ?_, rfl, ?_⟩
  · unfold ServerInferenceSession.step
    rw [hprepare]
    rfl
  · exact Or.inr ⟨by rw [length_layers]; exact hhistory, hcolumns⟩

end ServerSessions

/-! ## The loop at position 0 -/

/-- Server sessions that are still to run.  Before a retry the first of them has failed, and nothing
    but its history is used again. -/
def Waiting (blocks : CausalBlocks α) (batch features maxLength : Nat) (new : List (Column α))
    (attemptNo : Nat) : List (ServerInferenceSession (CausalStream α) α) → Prop
  | [] => True
  | first :: rest =>
    Replays batch features (layers blocks.run 0 first.span.start new) first.history ∧
      (attemptNo = 0 → AtStart blocks batch features maxLength new first) ∧
      ∀ serverSession ∈ rest, AtStart blocks batch features maxLength new serverSession

/-- Where an attempt begins, when `session` steps the tokens `new` at position 0: what has run
    already stands behind them. -/
structure FromStart (blocks : CausalBlocks α) (batch features : Nat) (new : List (Column α))
    (session : InferenceSession (CausalStream α) α) (attemptNo : Nat)
    (s : StepState (CausalStream α) κ α) : Prop where
  same : ∃ sessions uuids,
    s.session = { session with serverSessions := sessions, uuids := uuids }
  shape : s.inputs.shape = [batch, new.length, features]
  columns : s.inputs.columns = layers blocks.run 0 s.blockIdx new
  sessions : (session.serverSessions = [] ∧ s.session.serverSessions = [] ∧ s.serverIdx = 0 ∧
      s.blockIdx = 0) ∨
    ∃ done todo, s.session.serverSessions = done ++ todo ∧ s.serverIdx = done.length ∧
      Tiles 0 (done.map ServerInferenceSession.span) s.blockIdx ∧
      Tiles s.blockIdx (todo.map ServerInferenceSession.span) session.numBlocks ∧
      (∀ serverSession ∈ done,
        StandsBehind blocks batch features session.maxLength new serverSession) ∧
      Waiting blocks batch features session.maxLength new attemptNo todo

section Loop

variable {blocks : CausalBlocks α} {batch features : Nat} {new : List (Column α)}
  {session : InferenceSession (CausalStream α) α}

theorem waiting_of_atStart {maxLength attemptNo : Nat} :
    ∀ {todo : List (ServerInferenceSession (CausalStream α) α)},
      (∀ serverSession ∈ todo, AtStart blocks batch features maxLength new serverSession) →
      Waiting blocks batch features maxLength new attemptNo todo
  | [], _ => trivial
  | first :: _, h => ⟨(h first List.mem_cons_self).history, fun _ => h first List.mem_cons_self,
      fun x hx => h x (List.mem_cons_of_mem first hx)⟩

/-- New server sessions, the first of which inherits what was left in a history. -/
theorem atStart_inheritHistory {maxLength lo hi : Nat}
    {failed : Option (ServerInferenceSession (CausalStream α) α)}
    {sessions : List (ServerInferenceSession (CausalStream α) α)}
    (hnew : ∀ serverSession ∈ sessions, ∃ span uuid stream,
      (causalServers κ blocks).connect span = .ok stream ∧
      serverSession = .new span uuid maxLength stream)
    (htiles : Tiles lo ((inheritHistory failed sessions).map ServerInferenceSession.span) hi)
    (hfailed : ∀ x, failed = some x →
      Replays batch features (layers blocks.run 0 lo new) x.history) :
    ∀ serverSession ∈ inheritHistory failed sessions,
      AtStart blocks batch features maxLength new serverSession := by
  have hall : ∀ serverSession ∈ sessions,
      AtStart blocks batch features maxLength new serverSession := by
    intro serverSession hmem
    obtain ⟨span, uuid, stream, hconnect, rfl⟩ := hnew serverSession hmem
    cases hconnect
    exact (standsBehind_new span uuid).atStart new
  cases sessions with
  | nil => exact fun _ h => nomatch h
  | cons first rest =>
    cases failed with
    | none => exact hall
    | some x =>
      intro serverSession hmem
      rcases List.mem_cons.mp hmem with rfl | hmem
      · have hfirst := hall first List.mem_cons_self
        have hstart : first.span.start = lo := htiles.1
        exact ⟨hfirst.isOpen, ⟨hfirst.streamBehind.position_eq, hfirst.streamBehind.limit_eq,
          hfirst.streamBehind.span_eq, hfirst.streamBehind.maxLength_eq, hfirst.streamBehind.fed⟩,
          by rw [← hstart] at hfailed; exact hfailed x rfl⟩
      · exact hall serverSession (List.mem_cons_of_mem first hmem)

theorem modify_append_cons {γ : Type} (f : γ → γ) (done rest : List γ) (x : γ) :
    (done ++ x :: rest).modify done.length f = done ++ f x :: rest := by
  induction done with
  | nil => rfl
  | cons y done ih => simpa using ih

theorem FindsPaths.routesTile {attempt : StepAttempt} (h : FindsPaths attempt) :
    RoutesTile attempt :=
  fun _ _ _ _ hspans => StepAttempt.makeSequence_tiles h hspans

omit [LinearOrder κ] in
/-- What an attempt replaces: the failed session, or nothing if there are no sessions yet. -/
theorem FromStart.replaced {attemptNo : Nat} {s : StepState (CausalStream α) κ α}
    (h : FromStart blocks batch features new session attemptNo s) (hmore : stepFinished s = false) :
    ∃ done rest updateEnd, s.session.serverSessions.take s.serverIdx = done ∧
      s.session.serverSessions.drop (s.serverIdx + 1) = rest ∧ s.serverIdx = done.length ∧
      s.session.serverSessions[s.serverIdx]?.elim s.session.numBlocks (·.span.stop) = updateEnd ∧
      s.blockIdx < updateEnd ∧ updateEnd ≤ session.numBlocks ∧
      Tiles 0 (done.map ServerInferenceSession.span) s.blockIdx ∧
      Tiles updateEnd (rest.map ServerInferenceSession.span) session.numBlocks ∧
      (∀ serverSession ∈ done,
        StandsBehind blocks batch features session.maxLength new serverSession) ∧
      (∀ serverSession ∈ rest,
        AtStart blocks batch features session.maxLength new serverSession) ∧
      ∀ x, s.session.serverSessions[s.serverIdx]? = some x →
        Replays batch features (layers blocks.run 0 s.blockIdx new) x.history := by
  have hlt : s.blockIdx < s.session.numBlocks := Nat.lt_of_not_le (of_decide_eq_false hmore)
  have hblocks : s.session.numBlocks = session.numBlocks := by
    obtain ⟨_, _, hsame⟩ := h.same
    rw [hsame]
  rcases h.sessions with ⟨-, hnone, hidx, hblock⟩ |
    ⟨done, todo, hsessions, hidx, hfront, htiles, hdone, hwaiting⟩
  · refine ⟨[], [], session.numBlocks, ?_, ?_, hidx, ?_, ?_, Nat.le_refl _, hblock.symm, rfl, ?_, ?_,
      ?_⟩
    · rw [hnone, List.take_nil]
    · rw [hnone, List.drop_nil]
    · rw [hnone]
      exact hblocks
    · exact hblocks ▸ hlt
    · exact fun _ h => nomatch h
    · exact fun _ h => nomatch h
    · rw [hnone]
      exact fun _ h => nomatch h
  · cases todo with
    | nil =>
      rw [hblocks] at hlt
      exact absurd htiles (Nat.ne_of_lt hlt)
    | cons first rest =>
      obtain ⟨hreplays, -, hrest⟩ := hwaiting
      obtain ⟨hstart, hne, htiles⟩ := htiles
      have hget : s.session.serverSessions[s.serverIdx]? = some first := by
        rw [hsessions, hidx]
        simp
      refine ⟨done, rest, first.span.stop, ?_, ?_, hidx, ?_, ?_, htiles.le, hfront, htiles, hdone,
        hrest, ?_⟩
      · rw [hsessions, hidx, List.take_left]
      · rw [hsessions, hidx]
        simp
      · rw [hget]
        rfl
      · rw [← hstart]
        exact hne
      · intro x hx
        obtain rfl := Option.some.inj (hget.symm.trans hx)
        rw [← hstart]
        exact hreplays

omit [LinearOrder κ] in
/-- A failed session that only gets closed. -/
theorem FromStart.closed {attemptNo : Nat} {s : StepState (CausalStream α) κ α}
    (h : FromStart blocks batch features new session attemptNo s) :
    FromStart blocks batch features new session (attemptNo + 1)
      { s with session := { s.session with
          serverSessions := s.session.serverSessions.modify s.serverIdx
            ({ · with closed := true }) } } := by
  obtain ⟨⟨sessions, uuids, hsame⟩, hshape, hcolumns, hsessions⟩ := h
  refine ⟨⟨_, uuids, by rw [hsame]⟩, hshape, hcolumns, ?_⟩
  rcases hsessions with ⟨hunopened, hnone, hidx, hblock⟩ |
    ⟨done, todo, hsessions, hidx, hfront, htiles, hdone, hwaiting⟩
  · refine Or.inl ⟨hunopened, ?_, hidx, hblock⟩
    show s.session.serverSessions.modify _ _ = []
    rw [hnone, List.modify_nil]
  · right
    cases todo with
    | nil =>
      refine ⟨done, [], ?_, hidx, hfront, htiles, hdone, trivial⟩
      show s.session.serverSessions.modify _ _ = _
      rw [hsessions, List.append_nil, hidx]
      exact List.modify_eq_self (Nat.le_refl _)
    | cons first rest =>
      refine ⟨done, { first with closed := true } :: rest, ?_, hidx, hfront, htiles, hdone,
        hwaiting.1, fun hno => absurd hno (Nat.succ_ne_zero _), hwaiting.2.2⟩
      show s.session.serverSessions.modify _ _ = _
      rw [hsessions, hidx]
      exact modify_append_cons _ done rest first

/-- **`_update_sequence`** puts in sessions that are to run at position 0. -/
theorem FromStart.update {attemptNo : Nat} {s : StepState (CausalStream α) κ α}
    (h : FromStart blocks batch features new session attemptNo s) (hmore : stepFinished s = false)
    {attempt : StepAttempt} (hfind : FindsPaths attempt) :
    ∃ session' result,
      s.session.updateSequence (causalServers κ blocks) s.serverIdx s.blockIdx attempt
        = (session', result) ∧
      FromStart blocks batch features new session (if result.isNone then 0 else attemptNo + 1)
        { s with session := session' } ∧
      (result = none → session'.serverSessions ≠ []) ∧
      (HasRoutes session.numBlocks attempt → result = none) := by
  obtain ⟨done, rest, updateEnd, htake, hdrop, hidx, hend, hlt, hle, hfront, htiles, hdone, hrest,
    hreplays⟩ := h.replaced hmore
  unfold InferenceSession.updateSequence
  cases hupdated : updatedSessions (causalServers κ blocks) s.session s.serverIdx s.blockIdx
    attempt with
  | error exc =>
    refine ⟨_, _, rfl, h.closed, fun hnone => (nomatch hnone), fun hroutes => ?_⟩
    have hok : ∃ updated, updatedSessions (causalServers κ blocks) s.session s.serverIdx s.blockIdx
        attempt = .ok updated :=
      exists_updatedSessions (fun span => ⟨_, rfl⟩) hfind.routesTile hend hlt (hroutes _ _ hlt hle)
    obtain ⟨updated, hok⟩ := hok
    rw [hok] at hupdated
    nomatch hupdated
  | ok updated =>
    obtain ⟨hnewTiles, -⟩ := updatedSessions_spec hfind.routesTile hend hlt hupdated
    have hne : updated ≠ [] := by
      rintro rfl
      exact absurd hnewTiles (Nat.ne_of_lt hlt)
    obtain ⟨⟨sessions, uuids, hsame⟩, hshape, hcolumns, -⟩ := h
    have hlimit : s.session.maxLength = session.maxLength := by rw [hsame]
    have hnew : ∀ serverSession ∈ updated,
        AtStart blocks batch features session.maxLength new serverSession := by
      obtain ⟨opened, rfl, -, hopened⟩ := updatedSessions_new hupdated
      rw [hlimit] at hopened
      exact atStart_inheritHistory hopened hnewTiles hreplays
    refine ⟨_, _, rfl, ⟨⟨_, s.session.uuids + updated.length, by rw [hsame]⟩, hshape, hcolumns,
      Or.inr ⟨done, updated ++ rest, ?_, hidx, hfront, ?_, hdone, ?_⟩⟩, fun _ => ?_, fun _ => rfl⟩
    · show s.session.serverSessions.take _ ++ updated ++ s.session.serverSessions.drop _ = _
      rw [htake, hdrop, List.append_assoc]
    · rw [List.map_append]
      exact tiles_append.mpr ⟨updateEnd, hnewTiles, htiles⟩
    · refine waiting_of_atStart fun serverSession hmem => ?_
      rcases List.mem_append.mp hmem with hmem | hmem
      · exact hnew serverSession hmem
      · exact hrest serverSession hmem
    · show s.session.serverSessions.take _ ++ updated ++ s.session.serverSessions.drop _ ≠ []
      simp [hne]

/-- **The request at position 0.**  An answer takes the loop behind the span; a failure leaves the
    tokens of the step in the history. -/
theorem FromStart.request {s : StepState (CausalStream α) κ α}
    (h : FromStart blocks batch features new session 0 s) (hmore : stepFinished s = false)
    (hopen : s.session.serverSessions ≠ []) (hposition : session.position = 0)
    (hnew : ∀ column ∈ new, ColumnShape batch features column)
    (hfits : new.length ≤ session.maxLength) (args : StepArgs α) (stepId attemptNo : Nat)
    (failure : Option PyExc) :
    ∃ s' result, requestSpan (causalServers κ blocks) args stepId failure s = (s', result) ∧
      FromStart blocks batch features new session (if result.isNone then 0 else attemptNo + 1) s' ∧
      s.blockIdx ≤ s'.blockIdx ∧ (failure = none → result = none ∧ s.blockIdx < s'.blockIdx) := by
  have hlt : s.blockIdx < s.session.numBlocks := Nat.lt_of_not_le (of_decide_eq_false hmore)
  obtain ⟨⟨sessions, uuids, hsame⟩, hshape, hcolumns, hsessions⟩ := h
  rcases hsessions with ⟨-, hnone, -⟩ |
    ⟨done, todo, hsessions, hidx, hfront, htiles, hdone, hwaiting⟩
  · exact absurd hnone hopen
  cases todo with
  | nil =>
    rw [hsame] at hlt
    exact absurd htiles (Nat.ne_of_lt hlt)
  | cons first rest =>
    obtain ⟨-, hfirst, hrest⟩ := hwaiting
    have hfirst := hfirst rfl
    obtain ⟨hstart, hne, htiles⟩ := htiles
    have hat : first.position = s.session.position := by
      rw [hfirst.streamBehind.position_eq, hsame]
      exact hposition.symm
    rw [← hstart] at hcolumns hfront
    cases failure with
    | none =>
      obtain ⟨first', outputs, hstep, hbehind, hspan, hout, houtputs⟩ :=
        hfirst.step (spanInputs args stepId first.span s.inputs s.accumulatedSharedKv)
          (Nat.le_of_lt hne) hnew hshape hfits hcolumns
      refine ⟨_, _, requestSpan_ok (causalServers κ blocks) args stepId hsessions hidx hat hstep,
        ⟨⟨_, uuids, by rw [hsame]⟩, hout, houtputs, Or.inr ⟨done ++ [first'], rest, rfl, rfl, ?_,
          htiles, ?_, waiting_of_atStart hrest⟩⟩, ?_, fun _ => ⟨rfl, ?_⟩⟩
      · rw [List.map_append, List.map_cons, hspan]
        exact tiles_concat.mpr ⟨hfront, hne, rfl⟩
      · intro serverSession hmem
        rcases List.mem_append.mp hmem with hmem | hmem
        · exact hdone serverSession hmem
        · rw [List.mem_singleton.mp hmem]
          exact hbehind
      · rw [← hstart]
        exact Nat.le_of_lt hne
      · rw [← hstart]
        exact hne
    | some exc =>
      obtain ⟨first', hstep, hspan, hreplays⟩ :=
        hfirst.failed (spanInputs args stepId first.span s.inputs s.accumulatedSharedKv) exc hshape
          hcolumns
      have hget : s.session.serverSessions[s.serverIdx]? = some first := by
        rw [hsessions, hidx]
        simp
      have hset : s.session.serverSessions.set s.serverIdx first' = done ++ first' :: rest := by
        rw [hsessions, hidx]
        simp
      refine ⟨{ s with session := { s.session with serverSessions := done ++ first' :: rest } },
        some exc, ?_, ⟨⟨_, uuids, by rw [hsame]⟩, hshape, ?_, Or.inr ⟨done, first' :: rest, rfl,
          hidx, ?_, ?_, hdone, ?_, fun hno => ?_, hrest⟩⟩, Nat.le_refl _, fun hnone => nomatch hnone⟩
      · unfold requestSpan
        simp only [hget, if_pos hat, hstep, hset]
      · rw [← hstart]
        exact hcolumns
      · rw [← hstart]
        exact hfront
      · exact ⟨hspan ▸ hstart, hspan ▸ hne, hspan ▸ htiles⟩
      · rw [hspan]
        exact hreplays
      · exact absurd hno (Nat.succ_ne_zero _)

/-- **An attempt at position 0**, whether it fails or not. -/
theorem FromStart.attempt {attemptNo : Nat} {s : StepState (CausalStream α) κ α}
    (h : FromStart blocks batch features new session attemptNo s) (hmore : stepFinished s = false)
    (hposition : session.position = 0) (hnew : ∀ column ∈ new, ColumnShape batch features column)
    (hfits : new.length ≤ session.maxLength) (args : StepArgs α) (stepId : Nat)
    {attempt : StepAttempt} (hfind : FindsPaths attempt) :
    ∃ s' result,
      stepAttempt (causalServers κ blocks) args stepId attemptNo attempt s = some (s', result) ∧
      FromStart blocks batch features new session (if result.isNone then 0 else attemptNo + 1) s' ∧
      s.blockIdx ≤ s'.blockIdx ∧
      (attempt.failure = none → (session.serverSessions = [] ∨ attemptNo ≠ 0 →
        HasRoutes session.numBlocks attempt) → result = none ∧ s.blockIdx < s'.blockIdx) := by
  unfold stepAttempt
  by_cases hupdate : s.session.serverSessions.isEmpty ∨ 1 ≤ attemptNo
  · rw [if_pos hupdate]
    -- routes are asked for
    have hasked : session.serverSessions = [] ∨ attemptNo ≠ 0 := by
      rcases hupdate with hempty | hno
      · rcases h.sessions with ⟨hnone, -⟩ | ⟨done, todo, hsessions, -, hfront, htiles, -⟩
        · exact Or.inl hnone
        · rw [List.isEmpty_iff.mp hempty] at hsessions
          obtain ⟨rfl, rfl⟩ := List.append_eq_nil_iff.mp hsessions.symm
          have hlt : s.blockIdx < s.session.numBlocks :=
            Nat.lt_of_not_le (of_decide_eq_false hmore)
          obtain ⟨_, _, hsame⟩ := h.same
          rw [hsame] at hlt
          exact absurd htiles (Nat.ne_of_lt hlt)
      · exact Or.inr (Nat.pos_iff_ne_zero.mp hno)
    obtain ⟨session', result, hsequence, hinv, hopen, hroutes⟩ := h.update hmore hfind
    rw [hsequence]
    cases result with
    | some exc =>
      refine ⟨_, _, rfl, hinv, Nat.le_refl _, fun _ hfound => ?_⟩
      nomatch hroutes (hfound hasked)
    | none =>
      have hmore' : stepFinished { s with session := session' } = false := by
        obtain ⟨_, _, hsame⟩ := h.same
        obtain ⟨_, _, hsame'⟩ := hinv.same
        refine decide_eq_false ?_
        show ¬ session'.numBlocks ≤ s.blockIdx
        have hlt := of_decide_eq_false hmore
        rw [hsame] at hlt
        rw [show session' = _ from hsame']
        exact hlt
      obtain ⟨s', result, hrequest, hinv', hle, hgood⟩ := FromStart.request hinv hmore' (hopen rfl)
        hposition hnew hfits args stepId attemptNo attempt.failure
      exact ⟨s', result, congrArg some hrequest, hinv', hle, fun hquiet _ => hgood hquiet⟩
  · rw [if_neg hupdate]
    obtain ⟨hopen, hno⟩ := not_or.mp hupdate
    obtain rfl : attemptNo = 0 := by omega
    obtain ⟨s', result, hrequest, hinv', hle, hgood⟩ := h.request hmore
      (fun hnil => hopen (List.isEmpty_iff.mpr hnil)) hposition hnew hfits args stepId 0
      attempt.failure
    exact ⟨s', result, congrArg some hrequest, hinv', hle, fun hquiet _ => hgood hquiet⟩

/-- **A step at position 0** returns what the model makes of its tokens, whatever fails. -/
theorem CausalSession.runStep_atStart {n : Nat}
    (h : CausalSession blocks batch features [] session) {args : StepArgs α}
    {attempts : List StepAttempt} (hrecovers : StepRecovers session attempts)
    (hshape : args.inputs.shape = [batch, n, features]) (hfits : n ≤ session.maxLength) :
    ∃ session' outputs,
      session.runStep (causalServers κ blocks) args attempts = some (session', .ok outputs) ∧
      CausalSession blocks batch features args.inputs.columns session' ∧
      session'.numBlocks = session.numBlocks ∧ session'.maxLength = session.maxLength ∧
      outputs.shape = [batch, n, features] ∧
      outputs.columns = layers blocks.run 0 session.numBlocks args.inputs.columns := by
  have hn : args.inputs.columns.length = n := by
    rw [length_columns, hshape]
    rfl
  have hstart : FromStart blocks batch features args.inputs.columns session 0
      (session.startStep args : StepState (CausalStream α) κ α) := by
    refine ⟨⟨session.serverSessions, session.uuids + 1, rfl⟩, by rw [hn]; exact hshape,
      (layers_self ..).symm, ?_⟩
    rcases h.tiles with hnone | htiles
    · exact Or.inl ⟨hnone, hnone, rfl, rfl⟩
    · exact Or.inr ⟨[], session.serverSessions, rfl, rfl, rfl, htiles, fun _ h => (nomatch h),
        waiting_of_atStart fun x hx => (h.standsBehind x hx).atStart _⟩
  have hnew := h.shape_append hshape
  obtain ⟨s, attemptNo, hloop, hinv, hdone⟩ := retryLoop_recovers stepFinished
    (stepAttempt (causalServers κ blocks) args session.uuids)
    (FromStart blocks batch features args.inputs.columns session)
    (fun s => session.numBlocks - s.blockIdx)
    (fun s _ hinv hzero => by
      obtain ⟨_, _, hsame⟩ := hinv.same
      refine decide_eq_true ?_
      rw [hsame]
      show session.numBlocks ≤ s.blockIdx
      omega)
    (fun s attemptNo streak a hinv hmore hstreak hgood => by
      obtain ⟨s', result, hattempt, hinv', -, hup⟩ := hinv.attempt hmore h.position_eq hnew
        (by rw [hn]; exact hfits) args session.uuids hgood.1
      obtain ⟨rfl, hless⟩ := hup hgood.2.1 fun hasked =>
        hgood.2.2 (hasked.imp id fun hno => by omega)
      refine ⟨s', hattempt, hinv', ?_⟩
      obtain ⟨_, _, hsame⟩ := hinv.same
      have hlt : s.blockIdx < s.session.numBlocks := Nat.lt_of_not_le (of_decide_eq_false hmore)
      rw [hsame] at hlt
      simp only at hlt
      omega)
    (fun s attemptNo streak a hinv hmore _ hends => by
      obtain ⟨s', result, hattempt, hinv', hle, -⟩ := hinv.attempt hmore h.position_eq hnew
        (by rw [hn]; exact hfits) args session.uuids hends
      exact ⟨s', result, hattempt, hinv', by omega⟩)
    hrecovers hstart (Nat.sub_le _ _) (Nat.le_refl 0)
  obtain ⟨⟨sessions, uuids, hsame⟩, hout, houtputs, hsessions⟩ := hinv
  have hge : session.numBlocks ≤ s.blockIdx := by
    have hge := of_decide_eq_true hdone
    rw [hsame] at hge
    exact hge
  rcases hsessions with ⟨-, -, -, hzero⟩ | ⟨done, todo, hsessions, -, hfront, htiles, hdone, -⟩
  · exact absurd h.blocks_pos (by omega)
  -- all server sessions have run
  have hend : s.blockIdx = session.numBlocks := Nat.le_antisymm htiles.le hge
  rw [hend] at houtputs hfront htiles
  have hnil : todo = [] := List.map_eq_nil_iff.mp htiles.eq_nil
  obtain rfl : sessions = done := by
    rw [hnil, List.append_nil, hsame] at hsessions
    exact hsessions
  rw [hn] at hout
  have hgetD : args.inputs.shape.getD 1 0 = n := by
    rw [hshape]
    rfl
  refine ⟨(finishStep args s).1, s.inputs, ?_, ?_, ?_, ?_, hout, houtputs⟩
  · unfold InferenceSession.runStep
    rw [hloop]
    show some ((finishStep args s).1, Except.ok (s.inputs.lastTokens _)) = _
    rw [lastTokens_self (by rw [hout, hgetD]; rfl)]
  · unfold finishStep
    rw [hsame]
    exact h.stepped hshape hdone hfront
  · unfold finishStep
    rw [hsame]
  · unfold finishStep
    rw [hsame]

end Loop

/-! ## Behind position 0 -/

section Later

variable {σ : Type} {servers : InferenceServers σ κ α}

theorem ServerInferenceSession.step_failure (servers : InferenceServers σ κ α) (exc : PyExc)
    (serverSession : ServerInferenceSession σ α) (step : StepInputs κ α) :
    ∃ serverSession' exc',
      serverSession.step servers (some exc) step = (serverSession', .error exc') := by
  unfold ServerInferenceSession.step
  rcases serverSession.prepare step.inputs with ⟨serverSession', exc' | inputs⟩
  · exact ⟨_, _, rfl⟩
  · exact ⟨_, exc, rfl⟩

/-- A step that is not at its end, at a position behind 0. -/
structure Later (s : StepState σ κ α) : Prop where
  position_pos : 0 < s.session.position
  idx_lt : s.serverIdx < s.session.serverSessions.length
  more : stepFinished s = false

/-- A request that fails. -/
theorem Later.request {s : StepState σ κ α} (h : Later s) (args : StepArgs α) (stepId : Nat)
    (exc : PyExc) :
    ∃ s' exc', requestSpan servers args stepId (some exc) s = (s', some exc') ∧ Later s' := by
  obtain ⟨serverSession, hget⟩ : ∃ serverSession,
      s.session.serverSessions[s.serverIdx]? = some serverSession :=
    ⟨_, List.getElem?_eq_getElem h.idx_lt⟩
  unfold requestSpan
  simp only [hget]
  by_cases hposition : serverSession.position = s.session.position
  · obtain ⟨serverSession', exc', hstep⟩ := serverSession.step_failure servers exc
      (spanInputs args stepId serverSession.span s.inputs s.accumulatedSharedKv)
    rw [if_pos hposition, hstep]
    exact ⟨_, exc', rfl, h.position_pos, by simpa using h.idx_lt, h.more⟩
  · rw [if_neg hposition]
    exact ⟨s, _, rfl, h⟩

/-- **A retry fails**: the session that it puts in is at position 0. -/
theorem Later.retry {s : StepState σ κ α} (h : Later s) (args : StepArgs α) (stepId : Nat)
    {attemptNo : Nat} (hno : 1 ≤ attemptNo) (attempt : StepAttempt) :
    ∃ s' exc, stepAttempt servers args stepId attemptNo attempt s = some (s', some exc) ∧
      Later s' := by
  unfold stepAttempt
  rw [if_pos (Or.inr hno)]
  unfold InferenceSession.updateSequence
  cases hupdated : updatedSessions servers s.session s.serverIdx s.blockIdx attempt with
  | error exc =>
    exact ⟨_, exc, rfl, h.position_pos, by simpa using h.idx_lt, h.more⟩
  | ok updated =>
    obtain ⟨sessions, rfl, hne, hnew⟩ := updatedSessions_new hupdated
    obtain ⟨first, rest, rfl⟩ := List.exists_cons_of_ne_nil hne
    obtain ⟨span, uuid, stream, -, hfirst⟩ := hnew first List.mem_cons_self
    obtain ⟨first', hinherit, hzero⟩ : ∃ first' : ServerInferenceSession σ α,
        inheritHistory s.session.serverSessions[s.serverIdx]? (first :: rest) = first' :: rest ∧
        first'.position = 0 := by
      cases s.session.serverSessions[s.serverIdx]? with
      | none => exact ⟨first, rfl, by rw [hfirst]; rfl⟩
      | some failed => exact ⟨_, rfl, by rw [hfirst]; rfl⟩
    simp only [hinherit]
    have hlength : (s.session.serverSessions.take s.serverIdx).length = s.serverIdx := by
      rw [List.length_take]
      exact Nat.min_eq_left (Nat.le_of_lt h.idx_lt)
    have hget : (s.session.serverSessions.take s.serverIdx ++ first' :: rest ++
        s.session.serverSessions.drop (s.serverIdx + 1))[s.serverIdx]? = some first' := by
      rw [List.append_assoc, List.getElem?_append_right (Nat.le_of_eq hlength), hlength,
        Nat.sub_self]
      rfl
    have hposition : first'.position ≠ s.session.position := by
      rw [hzero]
      exact Nat.ne_of_lt h.position_pos
    unfold requestSpan
    simp only [hget, if_neg hposition]
    exact ⟨_, _, rfl, h.position_pos, (List.getElem?_eq_some_iff.mp hget).1, h.more⟩

/-- So the first failure is the end of it. -/
theorem Later.loop {s s' : StepState σ κ α} (h : Later s) (args : StepArgs α) (stepId : Nat)
    (maxRetries : Option Nat) (attempts : List StepAttempt) :
    retryLoop stepFinished (stepAttempt servers args stepId) maxRetries attempts 1 s
      ≠ some (s', none) :=
  retryLoop_stuck stepFinished (stepAttempt servers args stepId) Later (fun _ h => h.more)
    (fun _ _ attempt h hno => h.retry args stepId hno attempt) h (Nat.le_refl 1)

end Later

section Sessions

variable {blocks : CausalBlocks α} {batch n features : Nat} {kept new : List (Column α)}
  {session : InferenceSession (CausalStream α) α}

/-- A loop behind position 0 in which a request fails.  The server sessions before it answer. -/
theorem loop_not_quiet {maxLength : Nat} (hpos : 0 < kept.length)
    (hcolumns : ∀ column ∈ kept ++ new, ColumnShape batch features column)
    (hfits : kept.length + new.length ≤ maxLength) (args : StepArgs α) (stepId : Nat)
    (maxRetries : Option Nat) (s' : StepState (CausalStream α) κ α) :
    ∀ (todo done : List (ServerInferenceSession (CausalStream α) α))
      (attempts : List StepAttempt) (s : StepState (CausalStream α) κ α),
    s.session.serverSessions = done ++ todo → s.session.serverSessions ≠ [] →
    s.serverIdx = done.length →
    Tiles s.blockIdx (todo.map ServerInferenceSession.span) s.session.numBlocks →
    (∀ serverSession ∈ todo,
      StandsBehind blocks batch features maxLength kept serverSession) →
    s.session.position = kept.length → s.inputs.shape = [batch, new.length, features] →
    s.inputs.columns = (layers blocks.run 0 s.blockIdx (kept ++ new)).drop kept.length →
    ¬ Quiet (attempts.take todo.length) →
    retryLoop stepFinished (stepAttempt (causalServers κ blocks) args stepId) maxRetries attempts 0 s
      ≠ some (s', none) := by
  intro todo
  induction todo with
  | nil =>
    intro done attempts s _ _ _ _ _ _ _ _ hfails
    exact absurd (fun _ h => by cases h) hfails
  | cons first rest ih =>
    intro done attempts s hsessions hopen hidx htiles hbehind hposition hshape hinputs hfails
    obtain ⟨hstart, hlt, htiles⟩ := htiles
    cases attempts with
    | nil => exact absurd (fun _ h => by cases h) hfails
    | cons attempt attempts =>
      have hmore : stepFinished s = false := by
        have hle := htiles.le
        exact decide_eq_false (by omega)
      have hattempt : stepAttempt (causalServers κ blocks) args stepId 0 attempt s
          = some (requestSpan (causalServers κ blocks) args stepId attempt.failure s) := by
        unfold stepAttempt
        rw [if_neg (by simp [hopen])]
      have hfirst := hbehind first List.mem_cons_self
      rw [retryLoop, hmore]
      cases hfailure : attempt.failure with
      | none =>
        -- this one answers, and the failure is behind it
        rw [← hstart] at hinputs
        obtain ⟨first', outputs, hstep, -, -, hout, houtputs⟩ :=
          hfirst.step (spanInputs args stepId first.span s.inputs s.accumulatedSharedKv)
            (Nat.le_of_lt hlt) hcolumns hshape hfits hinputs
        have hat : first.position = s.session.position :=
          hfirst.keeps.position_eq.trans hposition.symm
        rw [hfailure,
          requestSpan_ok (causalServers κ blocks) args stepId hsessions hidx hat hstep] at hattempt
        simp only [hattempt]
        refine ih (done ++ [first']) attempts _ rfl (by simp) rfl htiles
          (fun x hx => hbehind x (List.mem_cons_of_mem first hx)) hposition hout houtputs
          fun hquiet => hfails fun a ha => ?_
        rcases List.mem_cons.mp (List.take_succ_cons ▸ ha) with rfl | ha
        · exact hfailure
        · exact hquiet a ha
      | some exc =>
        have hlater : Later s := by
          refine ⟨hposition ▸ hpos, ?_, hmore⟩
          rw [hsessions, hidx, List.length_append, List.length_cons]
          omega
        obtain ⟨s₁, exc', hrequest, hlater'⟩ := hlater.request args stepId exc
        rw [hfailure, hrequest] at hattempt
        simp only [hattempt]
        by_cases hlast : maxRetries = some (0 + 1)
        · rw [if_pos hlast]
          intro h
          cases (Prod.ext_iff.mp (Option.some.inj h)).2
        · rw [if_neg hlast]
          exact hlater'.loop args stepId maxRetries attempts

/-- **A failure behind position 0**: the step does not return. -/
theorem CausalSession.runStep_fails (h : CausalSession blocks batch features kept session)
    (hpos : 0 < kept.length) {args : StepArgs α} {attempts : List StepAttempt}
    (hfails : ¬ Quiet (attempts.take session.serverSessions.length))
    (hshape : args.inputs.shape = [batch, n, features])
    (hfits : kept.length + n ≤ session.maxLength)
    (session' : InferenceSession (CausalStream α) α) (outputs : Tensor α) :
    session.runStep (causalServers κ blocks) args attempts ≠ some (session', .ok outputs) := by
  have hn : args.inputs.columns.length = n := by
    rw [length_columns, hshape]
    rfl
  have hopen : session.serverSessions ≠ [] := fun hnil => by
    rw [h.unopened hnil] at hpos
    exact Nat.lt_irrefl 0 hpos
  intro hrun
  unfold InferenceSession.runStep at hrun
  split at hrun
  · nomatch hrun
  · nomatch hrun
  · rename_i s hloop
    refine loop_not_quiet hpos (h.shape_append hshape) (by rw [hn]; exact hfits) args session.uuids
      session.maxRetries s session.serverSessions [] attempts (session.startStep args) rfl hopen rfl
      (h.tiles.resolve_left hopen) h.standsBehind h.position_eq (by rw [hn]; exact hshape) ?_ hfails
      hloop
    show args.inputs.columns = (layers blocks.run 0 0 (kept ++ args.inputs.columns)).drop kept.length
    rw [layers_self, List.drop_left]

/-- More attempts do not change a step that has returned. -/
theorem runStep_append {σ : Type} {servers : InferenceServers σ κ α} {session : InferenceSession σ α}
    {args : StepArgs α} {attempts : List StepAttempt} (more : List StepAttempt)
    {result : InferenceSession σ α × Except PyExc (Tensor α)}
    (h : session.runStep servers args attempts = some result) :
    session.runStep servers args (attempts ++ more) = some result := by
  unfold InferenceSession.runStep at h ⊢
  cases hloop : retryLoop stepFinished (stepAttempt servers args session.uuids) session.maxRetries
    attempts 0 (session.startStep args) with
  | none => rw [hloop] at h; nomatch h
  | some final =>
    rw [hloop] at h
    rw [retryLoop_append stepFinished (stepAttempt servers args session.uuids) more hloop]
    exact h

/-- **A step behind position 0** in which nothing fails. -/
theorem CausalSession.runStep_quiet (h : CausalSession blocks batch features kept session)
    (hpos : 0 < kept.length) {args : StepArgs α} {attempts : List StepAttempt}
    (hrecovers : StepRecovers session attempts)
    (hquiet : Quiet (attempts.take session.serverSessions.length))
    (hshape : args.inputs.shape = [batch, n, features])
    (hfits : kept.length + n ≤ session.maxLength) :
    ∃ session' outputs,
      session.runStep (causalServers κ blocks) args attempts = some (session', .ok outputs) ∧
      CausalSession blocks batch features (kept ++ args.inputs.columns) session' ∧
      session'.numBlocks = session.numBlocks ∧ session'.maxLength = session.maxLength ∧
      outputs.shape = [batch, n, features] ∧
      outputs.columns
        = (layers blocks.run 0 session.numBlocks (kept ++ args.inputs.columns)).drop
          kept.length := by
  have hopen : session.serverSessions ≠ [] := fun hnil => by
    rw [h.unopened hnil] at hpos
    exact Nat.lt_irrefl 0 hpos
  -- there are attempts enough for the server sessions
  have hsessions : session.serverSessions.length ≤ session.numBlocks := by
    have hlength := (h.tiles.resolve_left hopen).length_le
    rw [List.length_map] at hlength
    omega
  have hfinds := hrecovers.forall_take (P := FindsPaths) (fun _ _ hgood => hgood.1)
    (fun _ _ hends => hends)
  have henough := Nat.le_trans hsessions hrecovers.le_length
  have hlength : (attempts.take session.serverSessions.length).length
      = session.serverSessions.length := List.length_take_of_le henough
  obtain ⟨attempt, rest, hattempts⟩ := List.exists_cons_of_ne_nil
    (List.ne_nil_of_length_pos (hlength.symm ▸ List.length_pos_iff.mpr hopen))
  have hup : SwarmUp (causalServers κ blocks) session
      (attempts.take session.serverSessions.length) :=
    ⟨hquiet, fun a ha => hfinds a (List.take_subset_take_left _ hsessions ha), attempt, rest, _,
      hattempts, opened_of_ne_nil hopen, Nat.le_of_eq hlength.symm⟩
  obtain ⟨session', outputs, hrun, hend⟩ := h.runStep hup hshape hfits
  refine ⟨session', outputs, ?_, hend⟩
  rw [← List.take_append_drop session.serverSessions.length attempts]
  exact runStep_append _ hrun

end Sessions

/-! ## Both runs -/

/-- Both sessions have been fed the same. -/
def Twins (blocks : CausalBlocks α) (batch features : Nat) (s : TwinSessions α) : Prop :=
  s.session.numBlocks = s.steady.numBlocks ∧ s.session.maxLength = s.steady.maxLength ∧
    ∃ kept, CausalSession blocks batch features kept s.session ∧
      CausalSession blocks batch features kept s.steady

section Runs

variable {blocks : CausalBlocks α} {batch features : Nat} {s : TwinSessions α}

omit [LinearOrder κ] in
theorem checkStep_congr {session session' : InferenceSession (CausalStream α) α}
    (hblocks : session.numBlocks = session'.numBlocks)
    (hlimit : session.maxLength = session'.maxLength)
    (hposition : session.position = session'.position) :
    session.checkStep = session'.checkStep := by
  funext inputs prompts hypoIds perLayerInputs
  simp only [InferenceSession.checkStep, hblocks, hlimit, hposition]

theorem Twins.rollback (h : Twins blocks batch features s) {start : Nat}
    (hstart : start ≤ s.session.position) {s' : TwinSessions α}
    (hperform : s.perform (causalServers κ blocks) (.rollback start) = some s') :
    Twins blocks batch features s' := by
  obtain ⟨hblocks, hlimit, kept, hsession, hsteady⟩ := h
  rw [hsession.position_eq] at hstart
  obtain ⟨session', hset, hsession', hblocks', hlimit', -⟩ := hsession.setPosition hstart
  obtain ⟨steady', hset', hsteady', hblocks'', hlimit'', -⟩ := hsteady.setPosition hstart
  simp only [TwinSessions.perform, hset, hset'] at hperform
  obtain rfl := Option.some.inj hperform
  exact ⟨hblocks'.trans (hblocks.trans hblocks''.symm),
    hlimit'.trans (hlimit.trans hlimit''.symm), _, hsession', hsteady'⟩

/-- **One event**: it is transparent exactly if it fails at position 0 only, and then both sessions
    have still been fed the same. -/
theorem Twins.perform (h : Twins blocks batch features s) (event : TwinEvent α)
    (hsurvivable : Survivable κ blocks batch features s event) :
    (Transparent (causalServers κ blocks) s event ↔ FailsAtStartOnly s event) ∧
      ∀ s', s.perform (causalServers κ blocks) event = some s' → Twins blocks batch features s' := by
  cases event with
  | rollback start => exact ⟨Iff.rfl, fun s' hs' => h.rollback hsurvivable hs'⟩
  | step inputs prompts hypoIds perLayerInputs attempts steadyAttempts =>
    obtain ⟨hblocks, hlimit, kept, hsession, hsteady⟩ := h
    obtain ⟨⟨n, hshape⟩, ⟨args, hcheck⟩, hrecovers, hup⟩ := hsurvivable
    obtain ⟨rfl, hfits⟩ := checkStep_spec hcheck
    have hfits' : kept.length + n ≤ s.session.maxLength := by
      rw [hsession.position_eq, hshape] at hfits
      exact hfits
    have hcheck' : s.steady.checkStep args.inputs prompts hypoIds perLayerInputs = .ok args := by
      rw [← checkStep_congr hblocks hlimit
        (hsession.position_eq.trans hsteady.position_eq.symm)]
      exact hcheck
    obtain ⟨steady', outputs', hrun', hsteady', hblocks', hlimit', hout', houtputs'⟩ :=
      hsteady.runStep hup hshape (hlimit ▸ hfits')
    -- where the step returns, the outputs are those of the model
    have hreturns : FailsAtStartOnly s
        (.step args.inputs prompts hypoIds perLayerInputs attempts steadyAttempts) →
        ∃ session' outputs, s.session.runStep (causalServers κ blocks) args attempts
            = some (session', .ok outputs) ∧
          CausalSession blocks batch features (kept ++ args.inputs.columns) session' ∧
          session'.numBlocks = s.session.numBlocks ∧
          session'.maxLength = s.session.maxLength ∧ outputs = outputs' := by
      intro hfails
      obtain ⟨session', outputs, hrun, hend, hnum, hmax, hout, houtputs⟩ : ∃ session' outputs,
          s.session.runStep (causalServers κ blocks) args attempts
            = some (session', .ok outputs) ∧
          CausalSession blocks batch features (kept ++ args.inputs.columns) session' ∧
          session'.numBlocks = s.session.numBlocks ∧ session'.maxLength = s.session.maxLength ∧
          outputs.shape = [batch, n, features] ∧
          outputs.columns = (layers blocks.run 0 s.session.numBlocks
            (kept ++ args.inputs.columns)).drop kept.length := by
        rcases Nat.eq_zero_or_pos kept.length with hzero | hpos
        · obtain rfl := List.length_eq_zero_iff.mp hzero
          rw [List.length_nil, Nat.zero_add] at hfits'
          exact hsession.runStep_atStart hrecovers hshape hfits'
        · refine hsession.runStep_quiet hpos hrecovers (hfails.resolve_left ?_) hshape hfits'
          rw [hsession.position_eq]
          exact Nat.pos_iff_ne_zero.mp hpos
      refine ⟨session', outputs, hrun, hend, hnum, hmax, columns_inj hout hout' ?_⟩
      rw [houtputs, houtputs', hblocks]
    refine ⟨⟨fun htransparent => ?_, fun hfails => ?_⟩, fun s' hs' => ?_⟩
    · obtain ⟨session', _, outputs, hstep, -⟩ := htransparent
      rw [step_of_checkStep hcheck] at hstep
      rcases Nat.eq_zero_or_pos kept.length with hzero | hpos
      · exact Or.inl (hsession.position_eq.trans hzero)
      · refine Or.inr (by_contra fun hnot => ?_)
        exact hsession.runStep_fails hpos hnot hshape hfits' session' outputs hstep
    · obtain ⟨session', outputs, hrun, -, -, -, rfl⟩ := hreturns hfails
      exact ⟨session', steady', outputs, (step_of_checkStep hcheck).trans hrun,
        (step_of_checkStep hcheck').trans hrun'⟩
    · have hstep : s.session.step (causalServers κ blocks) args.inputs prompts hypoIds
          perLayerInputs attempts = _ := step_of_checkStep hcheck
      have hstep' : s.steady.step (causalServers κ blocks) args.inputs prompts hypoIds
          perLayerInputs steadyAttempts = _ := step_of_checkStep hcheck'
      by_cases hfails : FailsAtStartOnly s
          (.step args.inputs prompts hypoIds perLayerInputs attempts steadyAttempts)
      · obtain ⟨session', outputs, hrun, hend, hnum, hmax, -⟩ := hreturns hfails
        simp only [TwinSessions.perform, hstep, hstep', hrun, hrun'] at hs'
        obtain rfl := Option.some.inj hs'
        exact ⟨hnum.trans (hblocks.trans hblocks'.symm), hmax.trans (hlimit.trans hlimit'.symm), _,
          hend, hsteady'⟩
      · obtain ⟨hpos, hnot⟩ := not_or.mp hfails
        rw [hsession.position_eq] at hpos
        have hnone := hsession.runStep_fails (κ := κ) (Nat.pos_of_ne_zero hpos) hnot hshape hfits'
        simp only [TwinSessions.perform, hstep, hstep', hrun'] at hs'
        split at hs'
        · rename_i session outputs steady _ hrun _
          exact absurd hrun (hnone session outputs)
        · nomatch hs'

/-- **Failover is transparent exactly as long as it happens at position 0**, in every run of a new
    session whose servers recover. -/
theorem run_transparent_iff (blocks : CausalBlocks α) (batch features numBlocks : Nat)
    (maxRetries : Option Nat) (maxLength : Nat) (events : List (TwinEvent α))
    (hblocks : 0 < numBlocks)
    (hsurvivable : AllSteps (TwinSessions.perform (causalServers κ blocks))
      (Survivable κ blocks batch features)
      ⟨.new _ _ numBlocks maxRetries maxLength, .new _ _ numBlocks maxRetries maxLength⟩ events) :
    AllSteps (TwinSessions.perform (causalServers κ blocks)) (Transparent (causalServers κ blocks))
        ⟨.new _ _ numBlocks maxRetries maxLength, .new _ _ numBlocks maxRetries maxLength⟩ events ↔
      AllSteps (TwinSessions.perform (causalServers κ blocks)) FailsAtStartOnly
        ⟨.new _ _ numBlocks maxRetries maxLength, .new _ _ numBlocks maxRetries maxLength⟩
        events := by
  have hnew := causalSession_new blocks batch features hblocks maxRetries maxLength
  refine allSteps_congr_of_allSteps (P := Twins blocks batch features) ?_
    ⟨rfl, rfl, [], hnew, hnew⟩ hsurvivable
  exact fun s event hs hevent => hs.perform event hevent

end Runs

/-- A request to the only server, and it fails. -/
def lostAttempt : StepAttempt := { echoAttempt with failure := some .requestFailed }

/-- Two steps of a token each.  The second has a failure. -/
def failoverEvents : List (TwinEvent Int) :=
  [.step (Tensor.ofFn [1, 1, 1] fun _ => 7) none none none [echoAttempt] [echoAttempt],
    .step (Tensor.ofFn [1, 1, 1] fun _ => 7) none none none [lostAttempt, echoAttempt, echoAttempt]
      [echoAttempt]]

theorem failoverEvents_survivable :
    AllSteps (TwinSessions.perform (causalServers String lastBlocks))
      (Survivable String lastBlocks 1 1) ⟨.new _ _ 1 (some 3) 4, .new _ _ 1 (some 3) 4⟩
      failoverEvents := by
  have hroutes : HasRoutes 1 echoAttempt := by
    intro startIndex endIndex hlt hle
    obtain rfl : startIndex = 0 := by omega
    obtain rfl : endIndex = 1 := by omega
    exact ⟨_, rfl⟩
  have hecho : ∀ updates, StaysUp 1 updates echoAttempt :=
    fun _ => ⟨echoAttempt_findsPaths, rfl, fun _ => hroutes⟩
  refine ⟨⟨⟨1, rfl⟩, ⟨_, rfl⟩, .good (hecho _) (.finished _ _), swarmUp_new⟩, fun s hs => ?_⟩
  cases hs
  refine ⟨⟨⟨1, rfl⟩, ⟨_, rfl⟩, .bad echoAttempt_findsPaths ?_ (.good (hecho _) (.finished _ _)), ?_⟩,
    fun _ _ => trivial⟩
  · rintro m ⟨⟩
    exact Or.inr (by decide)
  · refine ⟨fun a ha => ?_, fun a ha => ?_, echoAttempt, [], _, rfl, rfl, Nat.le_refl 1⟩
    · rw [List.mem_singleton.mp ha]
      rfl
    · rw [List.mem_singleton.mp ha]
      exact echoAttempt_findsPaths

theorem run_transparent_iff_two :
    AllSteps (TwinSessions.perform (causalServers String lastBlocks))
        (Transparent (causalServers String lastBlocks))
        ⟨.new _ _ 1 (some 3) 4, .new _ _ 1 (some 3) 4⟩ failoverEvents ↔
      AllSteps (TwinSessions.perform (causalServers String lastBlocks)) FailsAtStartOnly
        ⟨.new _ _ 1 (some 3) 4, .new _ _ 1 (some 3) 4⟩ failoverEvents :=
  run_transparent_iff lastBlocks 1 1 1 (some 3) 4 failoverEvents Nat.zero_lt_one
    failoverEvents_survivable

/-- **A server fails at the second token**, and the others that stay up do not help: every retry
    finds its session at position 0. -/
theorem failover_raises :
    AllSteps (TwinSessions.perform (causalServers String lastBlocks))
        (Survivable String lastBlocks 1 1) ⟨.new _ _ 1 (some 3) 4, .new _ _ 1 (some 3) 4⟩
        failoverEvents ∧
      ¬ AllSteps (TwinSessions.perform (causalServers String lastBlocks))
        (Transparent (causalServers String lastBlocks))
        ⟨.new _ _ 1 (some 3) 4, .new _ _ 1 (some 3) 4⟩ failoverEvents := by
  refine ⟨failoverEvents_survivable, fun h => ?_⟩
  obtain ⟨session, steady, outputs, hstep, -⟩ := (h.2 _ rfl).1
  nomatch hstep

end Drift
