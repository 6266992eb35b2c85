/-
  Steps of an `InferenceSession` in which no attempt fails.

  Then the loop of `step` is a pass through the server sessions (`runSpans`): each gets what the one
  before it has returned, with the donors' keys and values of all before it.  If there are no server
  sessions yet, the first attempt opens them along a route (`opened`).

  `runStep_of_runSpans` takes the loop away: a step whose servers answer, one after the other,
  returns what the last of them returns.
-/
import Drift.Client.InferenceSession
import Drift.Lib.Run

namespace Drift

variable {σ κ α : Type}

/-! ## Routes -/

/-- A tiling that ends where it has to is not trimmed. -/
theorem trimLast_of_tiles : ∀ {spans : List RemoteSpanInfo} {lo hi : Nat}, Tiles lo spans hi →
    lo < hi → trimLast hi spans = some spans
  | [], _, _, h, hlt => absurd h (Nat.ne_of_lt hlt)
  | [span], _, hi, h, _ => by
    obtain ⟨-, -, rfl⟩ := h
    rw [trimLast, Nat.min_self]
  | span :: next :: spans, lo, hi, h, _ => by
    obtain ⟨rfl, hlt, hrest⟩ := h
    have hle : next.start < hi := by
      obtain ⟨-, hnext, hrest⟩ := hrest
      exact Nat.lt_of_lt_of_le hnext hrest.le
    have hstart : next.start = span.stop := hrest.1
    rw [trimLast, trimLast_of_tiles hrest (by omega)]
    rfl

theorem trimLast_ne_nil : ∀ {spans spans' : List RemoteSpanInfo} {hi : Nat},
    trimLast hi spans = some spans' → spans' ≠ []
  | [span], _, _, h => by
    obtain rfl := Option.some.inj h
    exact List.cons_ne_nil _ _
  | span :: next :: spans, _, _, h => by
    obtain ⟨rest, -, rfl⟩ := Option.map_eq_some_iff.mp h
    exact List.cons_ne_nil _ _

/-- The path finder returns paths of the graph that it is given. -/
def FindsPaths (attempt : StepAttempt) : Prop :=
  ∀ startIndex endIndex nodes, attempt.findPath startIndex endIndex = .ok nodes →
    IsPath attempt.spansContainingBlock startIndex endIndex nodes

theorem StepAttempt.makeSequence_tiles {attempt : StepAttempt} {startIndex endIndex : Nat}
    {spans : List RemoteSpanInfo} (hfind : FindsPaths attempt)
    (h : attempt.makeSequence startIndex endIndex = .ok spans) :
    Tiles startIndex spans endIndex :=
  makeSequenceMinLatency_tiles (hfind startIndex endIndex) h

/-- The way through a model of one block. -/
def echoAttempt : StepAttempt where
  spansContainingBlock := [[⟨0, 0, 1⟩]]
  findPath startIndex endIndex :=
    if startIndex = 0 ∧ endIndex = 1 then .ok [(0, 0), (0, 1)] else .error (.missingBlocks [])
  failure := none

theorem echoAttempt_findsPaths : FindsPaths echoAttempt := by
  intro startIndex endIndex nodes h
  simp only [echoAttempt] at h
  split at h
  · rename_i hends
    obtain ⟨rfl, rfl⟩ := hends
    cases h
    refine ⟨⟨0, rfl⟩, ⟨0, rfl⟩, List.isChain_pair.mpr ?_⟩
    exact @GraphEdge.compute _ 0 1 ⟨0, 0, 1⟩ 0 (Nat.le_refl 0) Nat.zero_lt_one List.mem_cons_self
  · nomatch h

namespace ServerInferenceSession

variable [LinearOrder κ] [Zero α]

theorem prepare_fields (session : ServerInferenceSession σ α) (inputs : Tensor α) :
    (session.prepare inputs).1.span = session.span ∧
      (session.prepare inputs).1.position = session.position ∧
      (session.prepare inputs).1.stream = session.stream := by
  unfold prepare
  split
  · exact ⟨rfl, rfl, rfl⟩
  · cases session.extendHistory inputs <;> exact ⟨rfl, rfl, rfl⟩

theorem step_span (servers : InferenceServers σ κ α) (failure : Option PyExc)
    (session : ServerInferenceSession σ α) (step : StepInputs κ α) :
    (session.step servers failure step).1.span = session.span := by
  have hspan := (session.prepare_fields step.inputs).1
  unfold ServerInferenceSession.step
  split
  · rename_i hprepare
    rw [hprepare] at hspan
    exact hspan
  · rename_i inputs hprepare
    rw [hprepare] at hspan
    unfold exchange
    split
    · exact hspan
    · simp only
      split <;> exact hspan

end ServerInferenceSession

namespace InferenceSession

variable [LinearOrder κ] [Zero α] (servers : InferenceServers σ κ α) (args : StepArgs α)
  (stepId : Nat)

/-! ## The pass through the server sessions -/

/-- The server sessions in turn, with the inputs and the donors' keys and values for the first of
    them: the sessions afterwards, and what comes out. -/
def runSpans (position : Nat) : List (ServerInferenceSession σ α) → Tensor α →
    SharedKvStates κ α →
    Except PyExc (List (ServerInferenceSession σ α) × Tensor α × SharedKvStates κ α)
  | [], inputs, shared => .ok ([], inputs, shared)
  | serverSession :: rest, inputs, shared =>
    if serverSession.position = position then
      match serverSession.step servers none
          (spanInputs args stepId serverSession.span inputs shared) with
      | (_, .error exc) => .error exc
      | (serverSession, .ok (outputs, produced)) => do
        let (rest, result) ← runSpans position rest outputs (updateShared shared produced)
        .ok (serverSession :: rest, result)
    else .error (.assertionError s!"{serverSession.position} and {position}")

/-- A session whose server answers, and the rest. -/
theorem runSpans_cons_eq_ok {position : Nat} {serverSession : ServerInferenceSession σ α}
    {rest sessions : List (ServerInferenceSession σ α)} {inputs : Tensor α}
    {shared : SharedKvStates κ α} {result : Tensor α × SharedKvStates κ α} :
    runSpans servers args stepId position (serverSession :: rest) inputs shared
        = .ok (sessions, result) ↔
      ∃ serverSession' outputs produced rest', serverSession.position = position ∧
        serverSession.step servers none (spanInputs args stepId serverSession.span inputs shared)
          = (serverSession', .ok (outputs, produced)) ∧
        runSpans servers args stepId position rest outputs (updateShared shared produced)
          = .ok (rest', result) ∧
        sessions = serverSession' :: rest' := by
  rw [runSpans]
  constructor
  · intro h
    split at h
    · rename_i hposition
      split at h
      · nomatch h
      · rename_i serverSession' outputs produced hstep
        obtain ⟨⟨rest', result'⟩, hrest, h⟩ := except_bind_eq_ok.mp h
        cases h
        exact ⟨serverSession', outputs, produced, rest', hposition, hstep, hrest, rfl⟩
    · nomatch h
  · rintro ⟨serverSession', outputs, produced, rest', hposition, hstep, hrest, rfl⟩
    rw [if_pos hposition]
    simp only [hstep]
    exact except_bind_eq_ok.mpr ⟨(rest', result), hrest, rfl⟩

/-- Attempts whose request does not fail on the way. -/
def Quiet (attempts : List StepAttempt) : Prop := ∀ attempt ∈ attempts, attempt.failure = none

/-- One attempt at a session whose server answers. -/
theorem requestSpan_ok {s : StepState σ κ α} {done rest : List (ServerInferenceSession σ α)}
    {serverSession serverSession' : ServerInferenceSession σ α} {outputs : Tensor α}
    {produced : List (κ × KVPair α)}
    (hsessions : s.session.serverSessions = done ++ serverSession :: rest)
    (hidx : s.serverIdx = done.length) (hposition : serverSession.position = s.session.position)
    (hstep : serverSession.step servers none
      (spanInputs args stepId serverSession.span s.inputs s.accumulatedSharedKv)
        = (serverSession', .ok (outputs, produced))) :
    requestSpan servers args stepId none s =
      ({ session := { s.session with serverSessions := (done ++ [serverSession']) ++ rest }
         serverIdx := (done ++ [serverSession']).length
         blockIdx := serverSession.span.stop
         inputs := outputs
         accumulatedSharedKv := updateShared s.accumulatedSharedKv produced }, none) := by
  have hget : s.session.serverSessions[s.serverIdx]? = some serverSession := by
    rw [hsessions, hidx, List.getElem?_append_right (Nat.le_refl _), Nat.sub_self]
    rfl
  have hspan : serverSession'.span = serverSession.span := by
    have h := ServerInferenceSession.step_span servers none serverSession
      (spanInputs args stepId serverSession.span s.inputs s.accumulatedSharedKv)
    rw [hstep] at h
    exact h
  have hset : s.session.serverSessions.set s.serverIdx serverSession'
      = done ++ [serverSession'] ++ rest := by
    rw [hsessions, hidx, List.set_append_right _ _ (Nat.le_refl _), Nat.sub_self,
      List.append_assoc]
    rfl
  unfold requestSpan
  simp only [hget, if_pos hposition, hstep, hset, hspan]
  rw [hidx, List.length_append]
  rfl

/-- **The loop** over sessions that tile the rest of the blocks, if their servers answer. -/
theorem loop_of_runSpans (maxRetries : Option Nat) :
    ∀ (todo done : List (ServerInferenceSession σ α)) (attempts : List StepAttempt)
      (s : StepState σ κ α) {sessions : List (ServerInferenceSession σ α)} {outputs : Tensor α}
      {shared : SharedKvStates κ α}, s.session.serverSessions = done ++ todo →
    s.session.serverSessions ≠ [] → s.serverIdx = done.length →
    Tiles s.blockIdx (todo.map ServerInferenceSession.span) s.session.numBlocks →
    Quiet attempts → todo.length ≤ attempts.length →
    runSpans servers args stepId s.session.position todo s.inputs s.accumulatedSharedKv
      = .ok (sessions, outputs, shared) →
    ∃ s', retryLoop stepFinished (stepAttempt servers args stepId) maxRetries attempts 0 s
        = some (s', none) ∧
      s'.session = { s.session with serverSessions := done ++ sessions } ∧ s'.inputs = outputs := by
  intro todo
  induction todo with
  | nil =>
    intro done attempts s sessions outputs shared hsessions _ _ htiles _ _ hrun
    cases hrun
    have hdone : stepFinished s = true := decide_eq_true (Nat.le_of_eq htiles.symm)
    refine ⟨s, ?_, ?_, rfl⟩
    · cases attempts <;> rw [retryLoop, if_pos hdone]
    · rw [List.append_nil] at hsessions ⊢
      rw [← hsessions]
  | cons serverSession rest ih =>
    intro done attempts s sessions outputs shared hsessions hne hidx htiles hquiet hlength hrun
    obtain ⟨serverSession', mid, produced, rest', hposition, hstep, hrest, rfl⟩ :=
      (runSpans_cons_eq_ok servers args stepId).mp hrun
    obtain ⟨hstart, hlt, htiles⟩ := htiles
    cases attempts with
    | nil => exact absurd hlength (Nat.not_succ_le_zero _)
    | cons attempt attempts =>
      have hgo : stepFinished s = false := by
        have hle := htiles.le
        exact decide_eq_false (by omega)
      have hattempt : stepAttempt servers args stepId 0 attempt s
          = some (requestSpan servers args stepId none s) := by
        unfold stepAttempt
        rw [if_neg (by simp [hne]), hquiet attempt List.mem_cons_self]
      rw [requestSpan_ok servers args stepId hsessions hidx hposition hstep] at hattempt
      rw [retryLoop, hgo]
      simp only [hattempt]
      obtain ⟨s', hloop, hsession, hinputs⟩ := ih (done ++ [serverSession']) attempts
        { session := { s.session with serverSessions := (done ++ [serverSession']) ++ rest }
          serverIdx := (done ++ [serverSession']).length
          blockIdx := serverSession.span.stop
          inputs := mid
          accumulatedSharedKv := updateShared s.accumulatedSharedKv produced }
        rfl (by simp) rfl htiles
        (fun a ha => hquiet a (List.mem_cons_of_mem _ ha))
        (Nat.le_of_succ_le_succ hlength) hrest
      refine ⟨s', hloop, ?_, hinputs⟩
      simp only [hsession, List.append_assoc, List.singleton_append]

/-! ## A whole step -/

/-- The session with its server sessions open: those it has, or new ones along a route. -/
def opened (session : InferenceSession σ α) (attempt : StepAttempt) :
    InferenceSession σ α × Option PyExc :=
  if session.serverSessions.isEmpty then session.updateSequence servers 0 0 attempt
  else (session, none)

/-- **No attempt fails**: the server sessions are there or can be opened, and every server answers
    in its turn. -/
def Answered (session : InferenceSession σ α) (attempts : List StepAttempt)
    (session' : InferenceSession σ α)
    (result : List (ServerInferenceSession σ α) × Tensor α × SharedKvStates κ α) : Prop :=
  Quiet attempts ∧ session'.serverSessions.length ≤ attempts.length ∧
    (∃ attempt rest, attempts = attempt :: rest ∧
      opened servers { session with uuids := session.uuids + 1 } attempt = (session', none)) ∧
    runSpans servers args session.uuids session.position session'.serverSessions args.inputs ∅
      = .ok result

section Opened

variable {servers} {args}

omit [LinearOrder κ] [Zero α] in
/-- Sessions that have just been opened, one for every span. -/
theorem enterServerSessions_spec {maxLength : Nat} : ∀ {spans : List RemoteSpanInfo} {uuid : Nat}
    {sessions : List (ServerInferenceSession σ α)},
    enterServerSessions servers maxLength uuid spans = .ok sessions →
    sessions.map ServerInferenceSession.span = spans ∧
      ∀ serverSession ∈ sessions, ∃ span uuid stream, servers.connect span = .ok stream ∧
        serverSession = .new span uuid maxLength stream := by
  intro spans
  induction spans with
  | nil =>
    intro uuid sessions h
    cases h
    exact ⟨rfl, fun _ h => nomatch h⟩
  | cons span spans ih =>
    intro uuid sessions h
    obtain ⟨stream, hconnect, h⟩ := except_bind_eq_ok.mp h
    obtain ⟨rest, hrest, h⟩ := except_bind_eq_ok.mp h
    cases h
    obtain ⟨hspans, hnew⟩ := ih hrest
    refine ⟨by rw [List.map_cons, hspans]; rfl, fun serverSession hmem => ?_⟩
    rcases List.mem_cons.mp hmem with rfl | hmem
    · exact ⟨span, uuid, stream, hconnect, rfl⟩
    · exact hnew serverSession hmem

omit [LinearOrder κ] [Zero α] in
/-- The server sessions that a first attempt opens tile the blocks, and nobody has used them. -/
theorem updateSequence_fresh {session session' : InferenceSession σ α} {attempt : StepAttempt}
    (hnone : session.serverSessions = []) (hblocks : 0 < session.numBlocks)
    (hfind : FindsPaths attempt)
    (h : session.updateSequence servers 0 0 attempt = (session', none)) :
    (∃ sessions uuids,
      session' = { session with serverSessions := sessions, uuids := uuids }) ∧
    Tiles 0 (session'.serverSessions.map ServerInferenceSession.span) session.numBlocks ∧
      ∀ serverSession ∈ session'.serverSessions, ∃ span uuid stream,
        servers.connect span = .ok stream ∧
        serverSession = .new span uuid session.maxLength stream := by
  unfold updateSequence at h
  split at h
  · cases h
  · rename_i updated hupdated
    unfold updatedSessions at hupdated
    rw [hnone] at hupdated
    obtain ⟨spans, hspans, hupdated⟩ := except_bind_eq_ok.mp hupdated
    have htiles : Tiles 0 spans session.numBlocks := StepAttempt.makeSequence_tiles hfind hspans
    obtain ⟨spans', htrim, hupdated⟩ := except_bind_eq_ok.mp hupdated
    have htrim' : trimLast session.numBlocks spans = some spans' := orRaise_eq_ok.mp htrim
    rw [trimLast_of_tiles htiles hblocks] at htrim'
    cases htrim'
    obtain ⟨sessions, henter, hupdated⟩ := except_bind_eq_ok.mp hupdated
    have hinherit : inheritHistory none sessions = sessions := by cases sessions <;> rfl
    obtain ⟨hmap, hnew⟩ := enterServerSessions_spec henter
    cases hupdated
    rw [hnone] at h
    cases h
    rw [show ([] : List (ServerInferenceSession σ α))[0]? = none from rfl, hinherit]
    refine ⟨⟨_, _, rfl⟩, ?_, ?_⟩
    · simpa [hmap] using htiles
    · simpa using hnew

omit [LinearOrder κ] [Zero α] in
theorem opened_of_ne_nil {session : InferenceSession σ α} {attempt : StepAttempt}
    (hne : session.serverSessions ≠ []) : opened servers session attempt = (session, none) := by
  unfold opened
  rw [if_neg (by simpa using hne)]

omit [LinearOrder κ] [Zero α] in
/-- Open server sessions are the session's, or new. -/
theorem opened_spec (session : InferenceSession σ α) {session' : InferenceSession σ α}
    {attempt : StepAttempt}
    (hblocks : 0 < session.numBlocks) (hfind : FindsPaths attempt)
    (hold : session.serverSessions = [] ∨
      Tiles 0 (session.serverSessions.map ServerInferenceSession.span) session.numBlocks)
    (h : opened servers session attempt = (session', none)) :
    (∃ sessions uuids,
      session' = { session with serverSessions := sessions, uuids := uuids }) ∧
    Tiles 0 (session'.serverSessions.map ServerInferenceSession.span) session.numBlocks ∧
      (session'.serverSessions = session.serverSessions ∨ session.serverSessions = [] ∧
        ∀ serverSession ∈ session'.serverSessions, ∃ span uuid stream,
          servers.connect span = .ok stream ∧
          serverSession = .new span uuid session.maxLength stream) := by
  unfold opened at h
  rcases hsessions : session.serverSessions with _ | ⟨first, rest⟩
  · rw [hsessions, List.isEmpty_nil, if_pos rfl] at h
    obtain ⟨hsame, htiles, hnew⟩ := updateSequence_fresh hsessions hblocks hfind h
    exact ⟨hsame, htiles, Or.inr ⟨rfl, hnew⟩⟩
  · rw [hsessions, List.isEmpty_cons, if_neg Bool.false_ne_true] at h
    cases h
    rcases hold with hnil | htiles
    · rw [hsessions] at hnil
      nomatch hnil
    · exact ⟨⟨_, _, rfl⟩, htiles, Or.inl hsessions⟩

/-- **A step whose servers answer**, one after the other, returns what the last of them returns. -/
theorem runStep_of_answered {session session' : InferenceSession σ α} {attempts : List StepAttempt}
    {sessions : List (ServerInferenceSession σ α)} {outputs : Tensor α}
    {shared : SharedKvStates κ α} (hblocks : 0 < session.numBlocks)
    (hfind : ∀ attempt ∈ attempts, FindsPaths attempt)
    (hold : session.serverSessions = [] ∨
      Tiles 0 (session.serverSessions.map ServerInferenceSession.span) session.numBlocks)
    (h : Answered servers args session attempts session' (sessions, outputs, shared)) :
    session.runStep servers args attempts = some
      ({ session' with
          serverSessions := sessions
          position := session.position + args.inputs.shape.getD 1 0 },
        .ok (outputs.lastTokens (args.inputs.shape.getD 1 0))) := by
  obtain ⟨hquiet, hlength, ⟨attempt, rest, rfl, hopen⟩, hrun⟩ := h
  obtain ⟨⟨opened', uuids, rfl⟩, htiles, -⟩ :=
    opened_spec { session with uuids := session.uuids + 1 } hblocks
      (hfind attempt List.mem_cons_self) hold hopen
  have hne : opened' ≠ [] := by
    rintro rfl
    exact absurd htiles (Nat.ne_of_lt hblocks)
  -- the state of the loop in which the server sessions are open already
  let s : StepState σ κ α :=
    { session.startStep args with
      session := { session with serverSessions := opened', uuids := uuids } }
  have hhead : stepAttempt servers args session.uuids 0 attempt (session.startStep args)
      = stepAttempt servers args session.uuids 0 attempt s := by
    unfold opened at hopen
    unfold stepAttempt
    rw [if_neg (show ¬ (s.session.serverSessions.isEmpty ∨ 1 ≤ 0) by simp [s, hne])]
    cases hsessions : session.serverSessions with
    | nil =>
      simp only [hsessions, List.isEmpty_nil, if_true] at hopen
      rw [if_pos (by simp [startStep, hsessions])]
      simp only [startStep, hsessions, hopen, s]
    | cons first rest' =>
      simp only [hsessions, List.isEmpty_cons] at hopen
      cases hopen
      rw [if_neg (by simp [startStep, hsessions])]
      simp only [startStep, s, hsessions]
  have hgo : stepFinished (session.startStep args : StepState σ κ α) = false :=
    decide_eq_false (Nat.not_le_of_lt hblocks)
  have hloop := retryLoop_congr_head session.maxRetries rest hgo
    (show stepFinished s = false from decide_eq_false (Nat.not_le_of_lt hblocks)) hhead
  obtain ⟨s', hs', hsession, hinputs⟩ := loop_of_runSpans servers args session.uuids
    session.maxRetries opened' [] (attempt :: rest) s rfl hne rfl htiles hquiet hlength hrun
  unfold runStep
  rw [hloop, hs']
  simp only [finishStep, hsession, hinputs]
  rfl

end Opened

end InferenceSession

end Drift
