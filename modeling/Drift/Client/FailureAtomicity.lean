/-
  What a call of an `InferenceSession` leaves behind when it raises.

  The setter of `position` sets its own counter before the server sessions check the number, and a
  step moves one server session after the other and its own counter last.  So an exception may leave
  the session at one position and its server sessions at others, and then the assertion at the
  beginning of a request stops every step after it.

  A call that raises is harmless as long as it does not get that far (`HarmlessCall`): the arguments
  are rejected, no session could be opened at all, or the first server session refuses the inputs
  and there is no retry.  `run_failure_atomic` is about runs of such calls and of calls that do not
  raise.  Its invariant is `Even`, and `InPass` is what the loop of a step keeps on the way from one
  such state to the next, whatever fails in it.
-/
import Drift.Client.Failover
import Drift.Lib.Chunks

namespace Drift

open ServerInferenceSession InferenceSession Tensor

section Calls

variable {σ κ α : Type} [LinearOrder κ] [Zero α]

/-! ## The calls -/

/-- The server sessions are set in turn, up to the first that raises. -/
def assignServerSessions (start : Nat) : List (ServerInferenceSession σ α) →
    List (ServerInferenceSession σ α) × Option PyExc
  | [] => ([], none)
  | serverSession :: rest =>
    match serverSession.setPosition start with
    | .error exc => (serverSession :: rest, some exc)
    | .ok serverSession =>
      (serverSession :: (assignServerSessions start rest).1, (assignServerSessions start rest).2)

/-- `position = start`, with what it leaves behind when it raises. -/
def InferenceSession.assignPosition (session : InferenceSession σ α) (start : Nat) :
    InferenceSession σ α × Option PyExc :=
  ({ session with
      position := start
      serverSessions := (assignServerSessions start session.serverSessions).1 },
    (assignServerSessions start session.serverSessions).2)

/-- A call of a session. -/
inductive SessionCall (σ κ α : Type) where
  | step (servers : InferenceServers σ κ α) (inputs : Tensor α) (prompts : Option (Tensor α))
      (hypoIds : Option (List Int)) (perLayerInputs : Option (Tensor α))
      (attempts : List StepAttempt)
  | assign (start : Nat)

/-- The session after a call, and what the call returns or raises.  A step whose attempts never come
    to an end has no result. -/
def InferenceSession.call (session : InferenceSession σ α) : SessionCall σ κ α →
    Option (InferenceSession σ α × Except PyExc (Option (Tensor α)))
  | .step servers inputs prompts hypoIds perLayerInputs attempts =>
    (session.step servers inputs prompts hypoIds perLayerInputs attempts).map fun result =>
      (result.1, result.2.map some)
  | .assign start =>
    match session.assignPosition start with
    | (session, none) => some (session, .ok none)
    | (session, some exc) => some (session, .error exc)

/-- The caller catches what a call raises and goes on. -/
def InferenceSession.afterCall (session : InferenceSession σ α) (c : SessionCall σ κ α) :
    Option (InferenceSession σ α) :=
  (session.call c).map (·.1)

/-- The paths that a call gets are paths of the graph that is searched. -/
def SessionCall.FindsPaths : SessionCall σ κ α → Prop
  | .step _ _ _ _ _ attempts => ∀ attempt ∈ attempts, Drift.FindsPaths attempt
  | .assign _ => True

/-! ## What is to hold -/

/-- The tokens in the history of a server session. -/
def historyLength (serverSession : ServerInferenceSession σ α) : Nat :=
  serverSession.history.elim 0 (·.shape.getD 1 0)

/-- A server session at a position, with as many tokens in its history. -/
structure At (position : Nat) (serverSession : ServerInferenceSession σ α) : Prop where
  position_eq : serverSession.position = position
  historyLength_eq : historyLength serverSession = position

/-- Every server session is where the session is. -/
def InSync (session : InferenceSession σ α) : Prop :=
  ∀ serverSession ∈ session.serverSessions, At session.position serverSession

/-- **A call that raises leaves no trace**: the session and its server sessions are at the position
    at which they were, and another call does what it would have done, drawing the same ids. -/
def FailureAtomic (session : InferenceSession σ α) (c : SessionCall σ κ α) : Prop :=
  ∀ session' exc, session.call c = some (session', .error exc) →
    session'.position = session.position ∧ InSync session' ∧
      ∀ (uuids : Nat) (later : SessionCall σ κ α),
        InferenceSession.call { session' with uuids := uuids } later
          = InferenceSession.call { session with uuids := uuids } later

/-! ## The calls that raise in time -/

/-- There are no server sessions, and none can be opened before the retries are used up. -/
def NeverOpened (servers : InferenceServers σ κ α) (session : InferenceSession σ α)
    (attempts : List StepAttempt) : Prop :=
  session.serverSessions = [] ∧ ∃ m, session.maxRetries = some (m + 1) ∧
    ∀ attempt ∈ attempts.take (m + 1), ∃ exc, updatedSessions servers
      { session with uuids := session.uuids + 1 } 0 0 attempt = .error exc

/-- The inputs cannot be put behind the history of the first server session, and there is no
    retry. -/
def RefusedByFirst (session : InferenceSession σ α) (inputs : Tensor α) : Prop :=
  session.maxRetries = some 1 ∧ ∃ first rest exc, session.serverSessions = first :: rest ∧
    first.extendHistory inputs = .error exc

/-- `max_retries` attempts in a row fail at a server session of the step. -/
def UsesUpRetries (servers : InferenceServers σ κ α) (session : InferenceSession σ α)
    (args : StepArgs α) (attempts : List StepAttempt) : Prop :=
  ∃ s exc, retryLoop stepFinished (stepAttempt servers args session.uuids) session.maxRetries
    attempts 0 (session.startStep args) = some (s, some exc)

/-- A position is not assigned unless the server sessions have got there, and a step that is not
    rejected does not use up its retries unless nothing has been changed by then. -/
def HarmlessCall (session : InferenceSession σ α) : SessionCall σ κ α → Prop
  | .assign start => ∀ serverSession ∈ session.serverSessions, start ≤ serverSession.position
  | .step servers inputs prompts hypoIds perLayerInputs attempts =>
    ∀ args, session.checkStep inputs prompts hypoIds perLayerInputs = .ok args →
      UsesUpRetries servers session args attempts →
      NeverOpened servers session attempts ∨ RefusedByFirst session inputs

end Calls

/-! ## A server session -/

section ServerSessions

variable {σ κ α : Type} [LinearOrder κ] [Zero α] {servers : InferenceServers σ κ α}
  {failure : Option PyExc} {serverSession serverSession' : ServerInferenceSession σ α}
  {step : StepInputs κ α}

/-- Only a request takes a server session away from position 0. -/
def MovedByRequest (serverSession : ServerInferenceSession σ α) : Prop :=
  0 < serverSession.position → serverSession.stepped = true

/-- A request that is answered moves the session by the tokens that it was called with, and the
    history with it.  As many tokens come back, since a session sends others only at position 0, and
    there they are the same. -/
theorem step_at (hmoved : MovedByRequest serverSession) {outputs : Tensor α}
    {produced : List (κ × KVPair α)}
    (h : serverSession.step servers failure step = (serverSession', .ok (outputs, produced))) :
    At (serverSession.position + step.inputs.shape.getD 1 0) serverSession' ∧
      serverSession'.stepped = true ∧
      outputs.shape.getD 1 0 = step.inputs.shape.getD 1 0 := by
  cases failure with
  | some exc =>
    obtain ⟨failed, exc', hfailed⟩ := serverSession.step_failure servers exc step
    rw [hfailed] at h
    nomatch (Prod.ext_iff.mp h).2
  | none =>
    obtain ⟨history, sent, response, stream, hprepare, -, hreceive, rfl⟩ := step_eq_ok.mp h
    obtain ⟨history', -, -, hlength, hsame, rfl⟩ := prepare_eq_ok.mp hprepare
    obtain rfl : history = history' :=
      Option.some.inj (congrArg ServerInferenceSession.history hsame)
    obtain ⟨-, -, hshape, -⟩ := receive_eq_ok hreceive
    refine ⟨⟨rfl, hlength⟩, rfl, ?_⟩
    rw [hshape]
    unfold sentTokens
    by_cases hstepped : serverSession.stepped = true
    · rw [if_pos hstepped, lastTokens_self rfl]
    · have hzero : serverSession.position = 0 := by
        by_contra hne
        exact hstepped (hmoved (Nat.pos_of_ne_zero hne))
      rw [if_neg hstepped, hlength, hzero, Nat.zero_add]

/-- A request that is not answered does not move the session. -/
theorem step_error {exc : PyExc}
    (h : serverSession.step servers failure step = (serverSession', .error exc)) :
    serverSession'.position = serverSession.position ∧
      (serverSession.stepped = true → serverSession'.stepped = true) := by
  have hposition := (serverSession.prepare_fields step.inputs).2.1
  have hstepped : (serverSession.prepare step.inputs).1.stepped = serverSession.stepped := by
    unfold prepare
    split
    · rfl
    · cases serverSession.extendHistory step.inputs <;> rfl
  unfold ServerInferenceSession.step at h
  rcases hprepare : serverSession.prepare step.inputs with ⟨prepared, exc' | sent⟩ <;>
    rw [hprepare] at h hposition hstepped
  · obtain ⟨rfl, -⟩ := Prod.mk.inj h
    exact ⟨hposition, fun htrue => hstepped.trans htrue⟩
  · simp only at h
    unfold exchange at h
    split at h
    · obtain ⟨rfl, -⟩ := Prod.mk.inj h
      exact ⟨hposition, fun _ => rfl⟩
    · simp only at h
      split at h
      · obtain ⟨rfl, -⟩ := Prod.mk.inj h
        exact ⟨hposition, fun _ => rfl⟩
      · nomatch (Prod.ext_iff.mp h).2

theorem MovedByRequest.step_error (hmoved : MovedByRequest serverSession) {exc : PyExc}
    (h : serverSession.step servers failure step = (serverSession', .error exc)) :
    MovedByRequest serverSession' := by
  obtain ⟨hposition, hstepped⟩ := Drift.step_error h
  intro hpos
  rw [hposition] at hpos
  exact hstepped (hmoved hpos)

omit [LinearOrder κ] in
/-- A rollback cuts the history. -/
theorem At.setPosition {position start : Nat} (h : At position serverSession)
    (hstart : start ≤ serverSession.position) :
    ∃ serverSession', serverSession.setPosition start = .ok serverSession' ∧
      At start serverSession' ∧ serverSession'.span = serverSession.span ∧
      (MovedByRequest serverSession → MovedByRequest serverSession') := by
  obtain ⟨rfl, hlength⟩ := h
  unfold ServerInferenceSession.setPosition
  rw [if_pos hstart]
  refine ⟨_, rfl, ⟨rfl, ?_⟩, rfl, fun hmoved hpos => hmoved (Nat.lt_of_lt_of_le hpos hstart)⟩
  unfold historyLength at hlength ⊢
  simp only
  cases hhistory : serverSession.history with
  | none =>
    rw [hhistory] at hlength
    have hzero : 0 = serverSession.position := hlength
    show 0 = start
    omega
  | some history =>
    rw [hhistory] at hlength
    have htokens : history.shape.getD 1 0 = serverSession.position := hlength
    rw [Option.bind_some, if_pos (htokens ▸ hstart)]
    by_cases hpos : 0 < start
    · have haxis : 1 < history.shape.length := by
        by_contra hshort
        rw [List.getD_eq_default _ _ (Nat.le_of_not_lt hshort)] at htokens
        omega
      rw [if_pos hpos]
      have hcut : (history.slice 1 0 start).shape = history.shape.set 1 (start - 0) :=
        shape_slice_of_le (Nat.zero_le _) (htokens ▸ hstart)
      show (history.slice 1 0 start).shape.getD 1 0 = start
      rw [hcut, Nat.sub_zero]
      exact getD_set_self haxis start
    · rw [if_neg hpos]
      show 0 = start
      omega

omit [LinearOrder κ] in
theorem assignServerSessions_at {position start : Nat} :
    ∀ {sessions : List (ServerInferenceSession σ α)},
      (∀ serverSession ∈ sessions, At position serverSession) →
      (∀ serverSession ∈ sessions, start ≤ serverSession.position) →
      (∀ serverSession ∈ sessions, MovedByRequest serverSession) →
      ∃ sessions', assignServerSessions start sessions = (sessions', none) ∧
        (∀ serverSession ∈ sessions', At start serverSession) ∧
        sessions'.map ServerInferenceSession.span = sessions.map ServerInferenceSession.span ∧
        ∀ serverSession ∈ sessions', MovedByRequest serverSession
  | [], _, _, _ => ⟨[], rfl, List.forall_mem_nil _, rfl, List.forall_mem_nil _⟩
  | serverSession :: rest, hat, hstart, hmoved => by
    obtain ⟨first, hset, hfirst, hspan, hkept⟩ :=
      (hat _ List.mem_cons_self).setPosition (hstart _ List.mem_cons_self)
    obtain ⟨rest', hrest, hat', hspans, hmoved'⟩ := assignServerSessions_at
      (fun x hx => hat x (List.mem_cons_of_mem _ hx))
      (fun x hx => hstart x (List.mem_cons_of_mem _ hx))
      (fun x hx => hmoved x (List.mem_cons_of_mem _ hx))
    refine ⟨first :: rest', ?_, List.forall_mem_cons.mpr ⟨hfirst, hat'⟩, ?_,
      List.forall_mem_cons.mpr ⟨hkept (hmoved _ List.mem_cons_self), hmoved'⟩⟩
    · rw [assignServerSessions, hset, hrest]
    · rw [List.map_cons, List.map_cons, hspan, hspans]

end ServerSessions

section Loop

variable {σ κ α : Type} [LinearOrder κ] [Zero α]

/-! ## The loop of a step -/

/-- **Between two calls**: the server sessions are where the session is, if there are any they tile
    the model, and they got there by requests. -/
structure Even (session : InferenceSession σ α) : Prop where
  inSync : InSync session
  tiles : session.serverSessions ≠ [] → Tiles 0 (spansOf session) session.numBlocks
  moved : ∀ serverSession ∈ session.serverSessions, MovedByRequest serverSession

/-- Where an attempt of a step with `n` tokens begins.  Only the server sessions behind the front of
    the loop have moved. -/
structure InPass (session : InferenceSession σ α) (n : Nat) (s : StepState σ κ α) : Prop where
  same : ∃ sessions uuids,
    s.session = { session with serverSessions := sessions, uuids := uuids }
  inputs : s.inputs.shape.getD 1 0 = n
  tiles : s.session.serverSessions ≠ [] → Tiles 0 (spansOf s.session) session.numBlocks
  front : Tiles 0 ((spansOf s.session).take s.serverIdx) s.blockIdx
  idx : s.serverIdx ≤ s.session.serverSessions.length
  passed : ∀ serverSession ∈ s.session.serverSessions.take s.serverIdx,
    At (session.position + n) serverSession
  moved : ∀ serverSession ∈ s.session.serverSessions, MovedByRequest serverSession

variable {session : InferenceSession σ α} {n : Nat} {s s' : StepState σ κ α}
  {servers : InferenceServers σ κ α} {attempt : StepAttempt}

omit [LinearOrder κ] [Zero α] in
theorem InPass.numBlocks_eq (h : InPass session n s) :
    s.session.numBlocks = session.numBlocks := by
  obtain ⟨sessions, uuids, hsame⟩ := h.same
  rw [hsame]

omit [LinearOrder κ] [Zero α] in
/-- What `_update_sequence` puts in has not moved. -/
theorem updatedSessions_moved {serverIdx blockIdx : Nat}
    {updated : List (ServerInferenceSession σ α)}
    (h : updatedSessions servers session serverIdx blockIdx attempt = .ok updated) :
    ∀ serverSession ∈ updated, MovedByRequest serverSession := by
  obtain ⟨sessions, rfl, -, hnew⟩ := updatedSessions_new h
  have hmoved : ∀ serverSession ∈ sessions, MovedByRequest serverSession := by
    intro serverSession hmem hpos
    obtain ⟨span, uuid, stream, -, rfl⟩ := hnew serverSession hmem
    exact absurd hpos (Nat.lt_irrefl 0)
  cases sessions with
  | nil => exact fun _ h => nomatch h
  | cons first rest =>
    obtain ⟨hfirst, hrest⟩ := List.forall_mem_cons.mp hmoved
    cases session.serverSessions[serverIdx]? with
    | none => exact hmoved
    | some failed => exact List.forall_mem_cons.mpr ⟨hfirst, hrest⟩

omit [LinearOrder κ] [Zero α] in
/-- A failed session that is closed or replaced. -/
theorem InPass.update (h : InPass session n s) (hmore : stepFinished s = false)
    (hroutes : RoutesTile attempt) {session' : InferenceSession σ α} {result : Option PyExc}
    (hupdate : s.session.updateSequence servers s.serverIdx s.blockIdx attempt
      = (session', result)) :
    InPass session n { s with session := session' } ∧
      stepFinished { s with session := session' } = false ∧
      (result = none → session'.serverSessions ≠ []) := by
  have hlt : s.blockIdx < s.session.numBlocks := Nat.lt_of_not_le (of_decide_eq_false hmore)
  have hblocks := h.numBlocks_eq
  obtain ⟨⟨sessions, uuids, hsame'⟩, htiles, hidx, hfront, hne⟩ := updateSequence_tiles hroutes
    (by rw [hblocks]; exact h.tiles) h.idx h.front hlt hupdate
  obtain ⟨hpassed, hmoved⟩ : (∀ serverSession ∈ session'.serverSessions.take s.serverIdx,
      At (session.position + n) serverSession) ∧
      ∀ serverSession ∈ session'.serverSessions, MovedByRequest serverSession := by
    unfold InferenceSession.updateSequence at hupdate
    cases hupdated : updatedSessions servers s.session s.serverIdx s.blockIdx attempt with
    | error exc =>
      simp only [hupdated] at hupdate
      obtain ⟨rfl, -⟩ := Prod.mk.inj hupdate
      constructor
      · show ∀ serverSession ∈ (s.session.serverSessions.modify _ _).take _, _
        rw [List.take_modify, List.modify_eq_self (List.length_take_le _ _)]
        exact h.passed
      · exact forall_mem_modify (f := ({ · with closed := true })) (fun _ hmoved => hmoved) h.moved _
    | ok updated =>
      simp only [hupdated] at hupdate
      obtain ⟨rfl, -⟩ := Prod.mk.inj hupdate
      constructor
      · show ∀ serverSession ∈ (splice s.serverIdx updated s.session.serverSessions).take _, _
        rw [take_splice h.idx]
        exact h.passed
      · intro serverSession hmem
        rcases mem_splice hmem with hmem | hmem
        · exact updatedSessions_moved hupdated serverSession hmem
        · exact h.moved serverSession hmem
  refine ⟨⟨?_, h.inputs, ?_, ?_, hidx, hpassed, hmoved⟩, ?_, hne⟩
  · obtain ⟨sessions₀, uuids₀, hsame⟩ := h.same
    exact ⟨sessions, uuids, by rw [hsame', hsame]⟩
  · rw [← hblocks]
    exact htiles
  · show Tiles 0 ((spansOf session').take s.serverIdx) s.blockIdx
    rw [hfront]
    exact h.front
  · refine decide_eq_false ?_
    show ¬ session'.numBlocks ≤ s.blockIdx
    rw [hsame']
    exact Nat.not_le_of_lt hlt

/-- A request.  If it is answered then another server session has moved. -/
theorem InPass.request (h : InPass session n s) (hmore : stepFinished s = false)
    (hne : s.session.serverSessions ≠ []) {args : StepArgs α} {stepId : Nat}
    {failure result : Option PyExc}
    (hrequest : requestSpan servers args stepId failure s = (s', result)) :
    InPass session n s' := by
  have hlt : s.blockIdx < s.session.numBlocks := Nat.lt_of_not_le (of_decide_eq_false hmore)
  obtain ⟨serverSession, hget, hstart, hspanLt⟩ :=
    exists_current (h.tiles hne) h.front (h.numBlocks_eq ▸ hlt)
  obtain ⟨⟨sessions, uuids, hsame⟩, hinputs, htiles, hfront, hidx, hpassed, hmoved⟩ := h
  have hmem : serverSession ∈ s.session.serverSessions := List.mem_of_getElem? hget
  unfold requestSpan at hrequest
  simp only [hget] at hrequest
  by_cases hposition : serverSession.position = s.session.position
  · simp only [if_pos hposition] at hrequest
    have hspan := step_span servers failure serverSession
      (spanInputs args stepId serverSession.span s.inputs s.accumulatedSharedKv)
    have hid := step_sessionId servers failure serverSession
      (spanInputs args stepId serverSession.span s.inputs s.accumulatedSharedKv)
    rcases hstep : serverSession.step servers failure
      (spanInputs args stepId serverSession.span s.inputs s.accumulatedSharedKv)
      with ⟨serverSession', exc | ⟨outputs, produced⟩⟩ <;>
      rw [hstep] at hspan hid hrequest <;> have hspans := (fields_set hget hspan hid).1
    all_goals
      have hset : MovedByRequest serverSession' →
          ∀ x ∈ s.session.serverSessions.set s.serverIdx serverSession', MovedByRequest x := by
        intro hserver x hx
        rcases List.mem_or_eq_of_mem_set hx with hx | rfl
        · exact hmoved x hx
        · exact hserver
      have htiles' : Tiles 0 ((s.session.serverSessions.set s.serverIdx serverSession').map
          ServerInferenceSession.span) session.numBlocks := hspans ▸ htiles hne
    · -- the request fails
      obtain ⟨rfl, rfl⟩ := Prod.mk.inj hrequest
      refine ⟨⟨_, uuids, by rw [hsame]⟩, hinputs, fun _ => htiles', ?_, ?_, ?_,
        hset ((hmoved _ hmem).step_error hstep)⟩
      · show Tiles 0 (List.take _ (List.map _ _)) _
        rw [hspans]
        exact hfront
      · show s.serverIdx ≤ (s.session.serverSessions.set _ _).length
        rw [List.length_set]
        exact hidx
      · show ∀ x ∈ (s.session.serverSessions.set _ _).take _, _
        rw [List.take_set_of_le (Nat.le_refl _)]
        exact hpassed
    · -- the request is answered
      obtain ⟨rfl, rfl⟩ := Prod.mk.inj hrequest
      obtain ⟨hat, hstepped, hlength⟩ := step_at (hmoved _ hmem) hstep
      have hidxLt := (List.getElem?_eq_some_iff.mp hget).1
      refine ⟨⟨_, uuids, by rw [hsame]⟩, hlength.trans hinputs, fun _ => htiles', ?_, ?_, ?_,
        hset fun _ => hstepped⟩
      · show Tiles 0 (List.take (s.serverIdx + 1) (List.map _ _)) serverSession'.span.stop
        rw [hspans, List.take_add_one, List.getElem?_map, hget, hspan]
        exact tiles_concat.mpr ⟨hstart ▸ hfront, hspanLt, rfl⟩
      · show s.serverIdx + 1 ≤ (s.session.serverSessions.set _ _).length
        rw [List.length_set]
        exact hidxLt
      · show ∀ x ∈ (s.session.serverSessions.set s.serverIdx serverSession').take _, _
        rw [List.take_add_one, List.take_set_of_le (Nat.le_refl _),
          List.getElem?_set_self hidxLt]
        intro x hx
        rcases List.mem_append.mp hx with hx | hx
        · exact hpassed x hx
        · obtain rfl := List.mem_singleton.mp hx
          have hstart : serverSession.position = session.position := by
            rw [hposition, hsame]
          rw [← hstart, ← hinputs]
          exact hat
  · -- the positions differ, and nothing is sent
    simp only [if_neg hposition] at hrequest
    obtain ⟨rfl, rfl⟩ := Prod.mk.inj hrequest
    exact ⟨⟨sessions, uuids, hsame⟩, hinputs, htiles, hfront, hidx, hpassed, hmoved⟩

/-- One attempt, whether it fails or not. -/
theorem InPass.stepAttempt (h : InPass session n s) (hmore : stepFinished s = false)
    (hroutes : RoutesTile attempt) {args : StepArgs α} {stepId attemptNo : Nat}
    {result : Option PyExc}
    (hattempt : InferenceSession.stepAttempt servers args stepId attemptNo attempt s
      = some (s', result)) :
    InPass session n s' := by
  unfold InferenceSession.stepAttempt at hattempt
  split at hattempt
  · rcases hupdate : s.session.updateSequence servers s.serverIdx s.blockIdx attempt
      with ⟨session', _ | exc⟩ <;> rw [hupdate] at hattempt <;>
      obtain ⟨hpass, hmore', hne⟩ := h.update hmore hroutes hupdate
    · exact hpass.request hmore' (hne rfl) (Option.some.inj hattempt)
    · obtain ⟨rfl, -⟩ := Prod.mk.inj (Option.some.inj hattempt)
      exact hpass
  · rename_i hno
    refine h.request hmore (fun hnil => hno (Or.inl ?_)) (Option.some.inj hattempt)
    exact List.isEmpty_iff.mpr hnil

omit [LinearOrder κ] [Zero α] in
/-- At the end of the model there is no server session left that has not moved. -/
theorem InPass.passed_all (h : InPass session n s) (hdone : stepFinished s = true) :
    ∀ serverSession ∈ s.session.serverSessions, At (session.position + n) serverSession := by
  intro serverSession hmem
  have htiles := h.tiles (List.ne_nil_of_mem hmem)
  have hge : s.session.numBlocks ≤ s.blockIdx := of_decide_eq_true hdone
  rw [h.numBlocks_eq] at hge
  rw [← List.take_append_drop s.serverIdx (spansOf s.session)] at htiles
  obtain ⟨mid, hfront, hrest⟩ := tiles_append.mp htiles
  obtain rfl := hfront.unique h.front
  have hend : s.blockIdx = session.numBlocks := Nat.le_antisymm hrest.le hge
  rw [hend] at hrest
  have hlength : s.session.serverSessions.length ≤ s.serverIdx := by
    have hle := List.drop_eq_nil_iff.mp hrest.eq_nil
    rwa [spansOf, List.length_map] at hle
  refine h.passed serverSession ?_
  rw [List.take_of_length_le hlength]
  exact hmem

omit [LinearOrder κ] [Zero α] in
theorem Even.startStep (h : Even session) (args : StepArgs α) :
    InPass session (args.inputs.shape.getD 1 0) (session.startStep args : StepState σ κ α) :=
  ⟨⟨_, _, rfl⟩, rfl, h.tiles, rfl, Nat.zero_le _, fun _ hmem => (nomatch hmem), h.moved⟩

/-- Where the loop of a step ends. -/
theorem Even.loop (h : Even session) {args : StepArgs α} {attempts : List StepAttempt}
    (hroutes : ∀ attempt ∈ attempts, RoutesTile attempt) {result : Option PyExc}
    (hloop : retryLoop stepFinished (stepAttempt servers args session.uuids) session.maxRetries
      attempts 0 (session.startStep args) = some (s, result)) :
    InPass session (args.inputs.shape.getD 1 0) s ∧ (result = none → stepFinished s = true) :=
  retryLoop_invariant stepFinished (stepAttempt servers args session.uuids)
    (InPass session (args.inputs.shape.getD 1 0)) (Q := RoutesTile)
    (fun _ _ _ _ _ hinv hmore hroute hattempt => hinv.stepAttempt hmore hroute hattempt) hroutes
    (h.startStep args) hloop

omit [LinearOrder κ] in
/-- A step that returns. -/
theorem InPass.finishStep {args : StepArgs α} (h : InPass session (args.inputs.shape.getD 1 0) s)
    (hdone : stepFinished s = true) : Even (finishStep args s).1 := by
  have hpassed := h.passed_all hdone
  obtain ⟨sessions, uuids, hsame⟩ := h.same
  refine ⟨?_, fun hne => ?_, h.moved⟩
  · show ∀ serverSession ∈ s.session.serverSessions,
      At (s.session.position + args.inputs.shape.getD 1 0) serverSession
    rw [show s.session.position = session.position by rw [hsame]]
    exact hpassed
  · show Tiles 0 (spansOf s.session) s.session.numBlocks
    rw [h.numBlocks_eq]
    exact h.tiles hne

end Loop

/-! ## A call -/

section Call

variable {σ κ α : Type} [LinearOrder κ] [Zero α] {session session' : InferenceSession σ α}
  {c : SessionCall σ κ α}

/-- While no session can be opened, the attempts leave everything as it is. -/
theorem NeverOpened.unchanged {servers : InferenceServers σ κ α} {args : StepArgs α}
    {attempts : List StepAttempt} (h : NeverOpened servers session attempts)
    {s : StepState σ κ α} {exc : PyExc}
    (hloop : retryLoop stepFinished (stepAttempt servers args session.uuids) session.maxRetries
      attempts 0 (session.startStep args) = some (s, some exc)) :
    s = session.startStep args := by
  obtain ⟨hnone, m, hretries, hfail⟩ := h
  rw [hretries] at hloop
  refine retryLoop_idle (Nat.succ_pos m) (fun i attempt hi hlt => ?_) hloop
  obtain ⟨exc', hupdated⟩ := hfail attempt (List.mem_of_getElem? (i := i) (by
    rw [List.getElem?_take_of_lt (by omega)]
    exact hi))
  refine ⟨exc', ?_⟩
  unfold stepAttempt
  rw [if_pos (Or.inl (by rw [InferenceSession.startStep, hnone]; rfl))]
  unfold InferenceSession.updateSequence
  rw [hnone] at hupdated
  simp only [InferenceSession.startStep, hnone, hupdated, List.modify_nil]

/-- The first server session refuses the inputs before it does anything. -/
theorem RefusedByFirst.unchanged {servers : InferenceServers σ κ α} {args : StepArgs α}
    {attempts : List StepAttempt} (h : RefusedByFirst session args.inputs)
    {s : StepState σ κ α} {exc : PyExc}
    (hloop : retryLoop stepFinished (stepAttempt servers args session.uuids) session.maxRetries
      attempts 0 (session.startStep args) = some (s, some exc)) :
    s = session.startStep args := by
  obtain ⟨hretries, first, rest, exc', hsessions, hextend⟩ := h
  rw [hretries] at hloop
  refine retryLoop_idle Nat.zero_lt_one (fun i attempt hi hlt => ?_) hloop
  obtain rfl : i = 0 := by omega
  unfold stepAttempt
  rw [if_neg (by simp [InferenceSession.startStep, hsessions])]
  have hget : (session.startStep args : StepState σ κ α).session.serverSessions[
      (session.startStep args : StepState σ κ α).serverIdx]? = some first := by
    simp [InferenceSession.startStep, hsessions]
  have hstep : ∀ step : StepInputs κ α, step.inputs = args.inputs →
      ∃ exc, first.step servers attempt.failure step = (first, .error exc) := by
    intro step hinputs
    unfold ServerInferenceSession.step ServerInferenceSession.prepare
    rw [hinputs]
    cases first.closed with
    | true => exact ⟨_, rfl⟩
    | false => exact ⟨exc', by simp only [hextend]; rfl⟩
  unfold requestSpan
  simp only [hget]
  split
  · obtain ⟨exc'', hfirst⟩ := hstep (spanInputs args session.uuids first.span args.inputs ∅) rfl
    refine ⟨exc'', ?_⟩
    have hset : session.serverSessions.set 0 first = session.serverSessions := by
      rw [hsessions]
      rfl
    simp only [InferenceSession.startStep, hfirst, hset]
  · exact ⟨_, rfl⟩

/-- **A harmless call that raises** has only drawn an id. -/
theorem HarmlessCall.unchanged (hc : HarmlessCall session c) (h : Even session) {exc : PyExc}
    (hcall : session.call c = some (session', .error exc)) :
    ∃ uuids, session' = { session with uuids := uuids } := by
  cases c with
  | assign start =>
    obtain ⟨sessions, hassign, -⟩ := assignServerSessions_at h.inSync hc h.moved
    simp only [InferenceSession.call, InferenceSession.assignPosition, hassign] at hcall
    nomatch (Prod.mk.inj (Option.some.inj hcall)).2
  | step servers inputs prompts hypoIds perLayerInputs attempts =>
    obtain ⟨⟨final, result⟩, hstep, hresult⟩ := Option.map_eq_some_iff.mp hcall
    obtain ⟨rfl, hraised⟩ := Prod.mk.inj hresult
    unfold InferenceSession.step at hstep
    cases hcheck : session.checkStep inputs prompts hypoIds perLayerInputs with
    | error exc' =>
      -- the arguments are rejected
      simp only [hcheck] at hstep
      obtain ⟨rfl, -⟩ := Prod.mk.inj (Option.some.inj hstep)
      exact ⟨session.uuids, rfl⟩
    | ok args =>
      simp only [hcheck] at hstep
      unfold InferenceSession.runStep at hstep
      split at hstep
      · nomatch hstep
      · rename_i s exc' hloop
        obtain ⟨rfl, -⟩ := Prod.mk.inj (Option.some.inj hstep)
        have hsame : s = session.startStep args := by
          obtain hnever | hrefused := hc args hcheck ⟨s, exc', hloop⟩
          · exact hnever.unchanged hloop
          · rw [← (checkStep_spec hcheck).1] at hrefused
            exact hrefused.unchanged hloop
        rw [hsame]
        exact ⟨session.uuids + 1, rfl⟩
      · obtain ⟨-, rfl⟩ := Prod.mk.inj (Option.some.inj hstep)
        nomatch hraised

omit [Zero α] in
theorem Even.draw (h : Even session) (uuids : Nat) : Even { session with uuids := uuids } :=
  ⟨h.inSync, h.tiles, h.moved⟩

/-- A harmless call is failure-atomic. -/
theorem HarmlessCall.failureAtomic (hc : HarmlessCall session c) (h : Even session) :
    FailureAtomic session c := by
  intro session' exc hcall
  obtain ⟨uuids, rfl⟩ := hc.unchanged h hcall
  exact ⟨rfl, h.inSync, fun _ _ => rfl⟩

/-- **A harmless call** leaves the server sessions even, whether it raises or not. -/
theorem Even.afterCall (h : Even session) (hc : HarmlessCall session c) (hfind : c.FindsPaths)
    (hafter : session.afterCall c = some session') : Even session' := by
  obtain ⟨⟨final, exc | value⟩, hcall, rfl⟩ := Option.map_eq_some_iff.mp hafter
  · obtain ⟨uuids, rfl⟩ := hc.unchanged h hcall
    exact h.draw uuids
  cases c with
  | assign start =>
    obtain ⟨sessions, hassign, hat, hspans, hmoved⟩ :=
      assignServerSessions_at h.inSync hc h.moved
    simp only [InferenceSession.call, InferenceSession.assignPosition, hassign] at hcall
    obtain ⟨rfl, -⟩ := Prod.mk.inj (Option.some.inj hcall)
    refine ⟨hat, fun hne => ?_, hmoved⟩
    show Tiles 0 (sessions.map ServerInferenceSession.span) session.numBlocks
    rw [hspans]
    refine h.tiles fun hnil => hne ?_
    rw [hnil] at hspans
    exact List.map_eq_nil_iff.mp hspans
  | step servers inputs prompts hypoIds perLayerInputs attempts =>
    obtain ⟨⟨stepped, result⟩, hstep, hresult⟩ := Option.map_eq_some_iff.mp hcall
    obtain ⟨rfl, hvalue⟩ := Prod.mk.inj hresult
    unfold InferenceSession.step at hstep
    split at hstep
    · obtain ⟨-, rfl⟩ := Prod.mk.inj (Option.some.inj hstep)
      nomatch hvalue
    · unfold InferenceSession.runStep at hstep
      split at hstep
      · nomatch hstep
      · obtain ⟨-, rfl⟩ := Prod.mk.inj (Option.some.inj hstep)
        nomatch hvalue
      · rename_i s hloop
        obtain ⟨rfl, -⟩ := Prod.mk.inj (Option.some.inj hstep)
        obtain ⟨hpass, hdone⟩ := h.loop (fun a ha => (hfind a ha).routesTile) hloop
        exact hpass.finishStep (hdone rfl)

omit [Zero α] in
theorem even_new (numBlocks : Nat) (maxRetries : Option Nat) (maxLength : Nat) :
    Even (.new σ α numBlocks maxRetries maxLength) :=
  ⟨List.forall_mem_nil _, fun hne => absurd rfl hne, List.forall_mem_nil _⟩

/-- **Every run of calls that are harmless or do not raise**: the server sessions stay where the
    session is, and whatever raises leaves no trace. -/
theorem run_failure_atomic (numBlocks : Nat) (maxRetries : Option Nat) (maxLength : Nat)
    (calls : List (SessionCall σ κ α)) (hfind : ∀ c ∈ calls, c.FindsPaths)
    (hharmless : AllSteps InferenceSession.afterCall HarmlessCall
      (.new σ α numBlocks maxRetries maxLength) calls) :
    AllStates InferenceSession.afterCall InSync (.new σ α numBlocks maxRetries maxLength) calls ∧
      AllSteps InferenceSession.afterCall FailureAtomic
        (.new σ α numBlocks maxRetries maxLength) calls := by
  have hnew : Even (.new σ α numBlocks maxRetries maxLength) :=
    even_new numBlocks maxRetries maxLength
  have hall := hharmless.and (D := fun _ c => c.FindsPaths)
    (allSteps_of_forall_mem (fun c hc _ => hfind c hc) _)
  constructor
  · refine AllStates.imp (P := Even) (fun _ h => h.inSync) ?_
    exact allStates_of_allSteps (fun _ _ _ h hc hafter => h.afterCall hc.1 hc.2 hafter) hnew hall
  · refine allSteps_of_allSteps (P := Even) (fun session c h hc => ⟨hc.1.failureAtomic h, ?_⟩) hnew
      hall
    exact fun session' hafter => h.afterCall hc.1 hc.2 hafter

end Call

/-- A step of one token through a model of one block. -/
def tokenCall (attempt : StepAttempt) : SessionCall (CausalStream Int) String Int :=
  .step (causalServers String lastBlocks) (Tensor.ofFn [1, 1, 1] fun _ => 7) none none none [attempt]

/-- No route is found. -/
def lostRoute : StepAttempt := { echoAttempt with findPath := fun _ _ => .error (.missingBlocks []) }

/-- A step that cannot open a session, one that can, and a rollback. -/
theorem run_failure_atomic_three :
    let session := InferenceSession.new (CausalStream Int) Int 1 (some 1) 4
    let calls := [tokenCall lostRoute, tokenCall echoAttempt, .assign 0]
    AllStates InferenceSession.afterCall InSync session calls ∧
      AllSteps InferenceSession.afterCall FailureAtomic session calls := by
  intro session calls
  have hlost : FindsPaths lostRoute := fun _ _ _ h => nomatch h
  refine run_failure_atomic 1 (some 1) 4 calls ?_ ⟨?_, fun s hs => ⟨?_, fun s' hs' => ⟨?_, ?_⟩⟩⟩
  · intro c hc
    simp only [calls, List.mem_cons, List.not_mem_nil, or_false] at hc
    rcases hc with rfl | rfl | rfl
    · exact fun attempt h => List.mem_singleton.mp h ▸ hlost
    · exact fun attempt h => List.mem_singleton.mp h ▸ echoAttempt_findsPaths
    · trivial
  · refine fun args _ _ => Or.inl ⟨rfl, 0, rfl, fun attempt h => ?_⟩
    obtain rfl := List.mem_singleton.mp h
    exact ⟨_, rfl⟩
  · cases hs
    rintro args hargs ⟨s, exc, hloop⟩
    cases hargs
    nomatch hloop
  · exact fun serverSession _ => Nat.zero_le _
  · exact fun _ _ => trivial

/-- **An assignment that raises has moved the session**, and a request that fails without a retry
    has moved the history. -/
theorem calls_not_atomic :
    let session := InferenceSession.new (CausalStream Int) Int 1 (some 1) 4
    ¬ AllSteps InferenceSession.afterCall FailureAtomic session
        [tokenCall echoAttempt, .assign 5] ∧
      ¬ AllSteps InferenceSession.afterCall FailureAtomic session
        [tokenCall echoAttempt, tokenCall lostAttempt] := by
  refine ⟨fun h => ?_, fun h => ?_⟩
  · obtain ⟨hposition, -⟩ := (h.2 _ rfl).1 _ _ rfl
    nomatch hposition
  · obtain ⟨-, hinSync, -⟩ := (h.2 _ rfl).1 _ _ rfl
    nomatch (hinSync _ List.mem_cons_self).historyLength_eq

end Drift
