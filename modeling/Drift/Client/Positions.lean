/-
  Positions of a session: the client's, those of its server sessions, the length of their histories,
  and the prefix of every server.

  A session steps and rolls back.  Beside it run the tokens that every server has been fed (`fed`),
  cut by a rollback and extended by a step.  As long as no server fails, the four counters are one
  number and the histories are these tokens (`positions_agree`).  Only behind a rollback is a server
  ahead; the next request takes it back.

  So the limit that the client checks before a step is the one that the servers check, and what they
  assert about the position holds.
-/
import Drift.Client.FailureFree
import Drift.Client.History
import Drift.Client.Swarm
import Drift.Server.MergedStep

namespace Drift

open ServerInferenceSession InferenceSession

variable {κ α : Type} [LinearOrder κ] [Zero α] [Add α] {cfg : PoolConfig}

/-! ## The run -/

/-- What a user does with a session. -/
inductive SessionEvent (α : Type) where
  | step (inputs : Tensor α) (prompts : Option (Tensor α)) (hypoIds : Option (List Int))
      (perLayerInputs : Option (Tensor α)) (attempts : List StepAttempt)
  | rollback (start : Nat)

/-- A session, and what its servers have been fed. -/
structure SessionRun (κ α : Type) (cfg : PoolConfig) where
  session : InferenceSession (HandlerState κ α cfg) α
  fed : List (List (Column α))

/-- The inputs of the server sessions in a pass through them. -/
def spanFeeds {σ : Type} (servers : InferenceServers σ κ α) (args : StepArgs α) (stepId : Nat) :
    List (ServerInferenceSession σ α) → Tensor α → SharedKvStates κ α → List (Tensor α)
  | [], _, _ => []
  | serverSession :: rest, inputs, shared =>
    inputs :: match (serverSession.step servers none
        (spanInputs args stepId serverSession.span inputs shared)).2 with
      | .error _ => []
      | .ok (outputs, produced) =>
        spanFeeds servers args stepId rest outputs (updateShared shared produced)

/-- The inputs of the server sessions in a step whose first attempt is given. -/
def stepFeeds {σ : Type} (servers : InferenceServers σ κ α) (session : InferenceSession σ α)
    (args : StepArgs α) (attempts : List StepAttempt) : List (Tensor α) :=
  match attempts with
  | [] => []
  | attempt :: _ =>
    spanFeeds servers args session.uuids
      (opened servers { session with uuids := session.uuids + 1 } attempt).1.serverSessions
      args.inputs ∅

/-- Tokens that were fed, with the next ones behind them. -/
def extendFed : List (List (Column α)) → List (Tensor α) → List (List (Column α))
  | _, [] => []
  | fed, inputs :: feeds => (fed.headD [] ++ inputs.columns) :: extendFed fed.tail feeds

/-- The session after an event. -/
def SessionRun.perform (peers : Nat → Except PyExc (InferenceServer κ α cfg))
    (s : SessionRun κ α cfg) : SessionEvent α → Option (SessionRun κ α cfg)
  | .rollback start =>
    match s.session.setPosition start with
    | .error _ => none
    | .ok session => some ⟨session, s.fed.map (·.take start)⟩
  | .step inputs prompts hypoIds perLayerInputs attempts =>
    match s.session.checkStep inputs prompts hypoIds perLayerInputs with
    | .error _ => some s
    | .ok args =>
      (s.session.step (rpcServers peers) inputs prompts hypoIds perLayerInputs attempts).map
        fun result => ⟨result.1,
          extendFed s.fed (stepFeeds (rpcServers peers) s.session args attempts)⟩

/-- **No server fails**, and a rollback does not go forward. -/
def FailureFree (peers : Nat → Except PyExc (InferenceServer κ α cfg)) (s : SessionRun κ α cfg) :
    SessionEvent α → Prop
  | .rollback start => start ≤ s.session.position
  | .step inputs prompts hypoIds perLayerInputs attempts =>
    inputs.shape.length = 3 ∧ (∀ attempt ∈ attempts, FindsPaths attempt) ∧
      ∀ args, s.session.checkStep inputs prompts hypoIds perLayerInputs = .ok args →
        ∃ session result, Answered (rpcServers peers) args s.session attempts session result

/-! ## What is to hold -/

/-- **Client and server sessions agree.** -/
def PositionsAgree (s : SessionRun κ α cfg) : Prop :=
  List.Forall₂ (fun serverSession tokens => serverSession.position = s.session.position ∧
      HoldsTokens s.session.position tokens serverSession.history)
    s.session.serverSessions s.fed

/-- The request passes the checks of its server on the position: what is asserted of
    `start_from_position`, and the limit of the caches. -/
def PassesChecks (handler : HandlerState κ α cfg) (request : ExpertRequest κ α) : Prop :=
  ∀ stream parsed, handlerStream handler request = .ok stream →
    obtainRequest stream request = .ok parsed →
    ∃ start, startPosition stream.prefixLength parsed = .ok start ∧
      start + parsed.lengthIncrement ≤ stream.span.maxLength

/-- **What passes the client's check passes the servers'**: for every step that the client accepts,
    whatever its server sessions get as inputs, hidden states of as many tokens. -/
def NeverRefused (peers : Nat → Except PyExc (InferenceServer κ α cfg)) (s : SessionRun κ α cfg) :
    Prop :=
  ∀ inputs prompts hypoIds perLayerInputs args attempt session,
    s.session.checkStep inputs prompts hypoIds perLayerInputs = .ok args → FindsPaths attempt →
    opened (rpcServers peers) { s.session with uuids := s.session.uuids + 1 } attempt
      = (session, none) →
    ∀ serverSession ∈ session.serverSessions, ∀ (step : StepInputs κ α) request sent,
      step.inputs.shape.getD 1 0 = inputs.shape.getD 1 0 →
      outgoing serverSession step = some (request, sent) →
      PassesChecks serverSession.stream request

/-- **The servers agree** after a step that the client accepts. -/
def PrefixesAgree (peers : Nat → Except PyExc (InferenceServer κ α cfg)) (s : SessionRun κ α cfg) :
    SessionEvent α → Prop
  | .rollback _ => True
  | .step inputs prompts hypoIds perLayerInputs attempts =>
    ∀ args s', s.session.checkStep inputs prompts hypoIds perLayerInputs = .ok args →
      s.perform peers (.step inputs prompts hypoIds perLayerInputs attempts) = some s' →
      ∀ serverSession ∈ s'.session.serverSessions, ∃ stream,
        serverSession.stream.stream = some stream ∧ stream.prefixLength = s'.session.position

/-! ## One server session -/

/-- The server session is at this position, and its server can go on from there. -/
structure InStep (maxLength position : Nat)
    (serverSession : ServerInferenceSession (HandlerState κ α cfg) α) (tokens : List (Column α)) :
    Prop where
  keeps : KeepsTokens maxLength position serverSession tokens
  unopened : serverSession.stream.stream = none → serverSession.stepped = false
  opened : ∀ stream, serverSession.stream.stream = some stream →
    (position : Int) ≤ stream.prefixLength ∧ stream.span.maxLength = maxLength ∧
      ∃ k, stream.firstRequest.metadata.argsStructure = some (List.range (3 + k))

section ServerSessions

variable {maxLength position : Nat} {tokens : List (Column α)}
  {serverSession serverSession' : ServerInferenceSession (HandlerState κ α cfg) α}

omit [LinearOrder κ] [Add α] in
theorem inStep_new (span : RemoteSpanInfo) (uuid maxLength : Nat) (server : InferenceServer κ α cfg) :
    InStep maxLength 0 (.new span uuid maxLength ⟨server, none⟩) [] where
  keeps := keepsTokens_new ..
  unopened _ := rfl
  opened _ h := nomatch h

omit [LinearOrder κ] [Add α] in
theorem InStep.setPosition (h : InStep maxLength position serverSession tokens) {start : Nat}
    (hstart : start ≤ position) :
    ∃ serverSession', serverSession.setPosition start = .ok serverSession' ∧
      InStep maxLength start serverSession' (tokens.take start) ∧
      serverSession'.span = serverSession.span := by
  obtain ⟨history, hset, hkeeps⟩ := h.keeps.setPosition hstart
  refine ⟨_, hset, ⟨hkeeps, h.unopened, fun stream hstream => ?_⟩, rfl⟩
  obtain ⟨hbehind, hlimit, hstructure⟩ := h.opened stream hstream
  exact ⟨by omega, hlimit, hstructure⟩

omit [Add α] in
/-- The stream that a request comes to. -/
theorem InStep.handlerStream (h : InStep maxLength position serverSession tokens)
    {sent : Tensor α} {step : StepInputs κ α} {stream : InferenceStream κ α cfg}
    (hstream : handlerStream serverSession.stream (serverSession.stepRequest sent step)
      = .ok stream) :
    (position : Int) ≤ stream.prefixLength ∧ stream.span.maxLength = maxLength ∧
      ∃ k, stream.firstRequest.metadata.argsStructure = some (List.range (3 + k)) := by
  unfold Drift.handlerStream at hstream
  cases hopened : serverSession.stream.stream with
  | some opened =>
    rw [hopened] at hstream
    cases hstream
    exact h.opened stream hopened
  | none =>
    rw [hopened] at hstream
    have hstepped := h.unopened hopened
    obtain ⟨rfl, -⟩ := h.keeps.unstepped hstepped
    obtain ⟨hfirst, hmaxLength, hbehind⟩ := openStream_spec hstream
    refine ⟨by rw [hbehind]; rfl, ?_, ?_⟩
    · have hasked : (serverSession.stepRequest sent step).metadata.maxLength
          = some serverSession.maxLength := by
        show (if serverSession.stepped then none else some serverSession.maxLength) = _
        rw [hstepped]
        rfl
      rw [hasked, h.keeps.maxLength_eq] at hmaxLength
      exact (Option.some.inj hmaxLength).symm
    · rw [hfirst]
      exact ⟨_, stepRequest_argsStructure ..⟩

omit [Add α] in
/-- **A request passes the checks** of its server if its tokens fit. -/
theorem InStep.passesChecks (h : InStep maxLength position serverSession tokens)
    {step : StepInputs κ α} {request : ExpertRequest κ α} {sent : List (WireTensor α)}
    (hfits : position + step.inputs.shape.getD 1 0 ≤ maxLength)
    (hsent : outgoing serverSession step = some (request, sent)) :
    PassesChecks serverSession.stream request := by
  unfold outgoing at hsent
  split at hsent
  · nomatch hsent
  · rename_i session inputs hprepare
    obtain ⟨history, -, -, -, hsession, -⟩ := prepare_eq_ok.mp hprepare
    obtain rfl := h.keeps.sent_eq hprepare
    cases hsent
    have hrequest : session.stepRequest step.inputs step
        = serverSession.stepRequest step.inputs step := by
      rw [hsession]
      rfl
    rw [hrequest]
    intro stream parsed hstream hparsed
    obtain ⟨hbehind, hlimit, k, hstructure⟩ := h.handlerStream hstream
    obtain ⟨hhidden, hstart⟩ := obtainRequest_spec hstructure hparsed
    rw [h.keeps.position_eq] at hstart
    refine ⟨position, startPosition_of_le hstart hbehind, ?_⟩
    rw [hlimit, InferenceRequest.lengthIncrement, hhidden]
    omega

/-- **A step of a server session** that is answered. -/
theorem InStep.step (h : InStep maxLength position serverSession tokens)
    {peers : Nat → Except PyExc (InferenceServer κ α cfg)} {step : StepInputs κ α}
    {outputs : Tensor α} {produced : List (κ × KVPair α)} {batch n features : Nat}
    (hshape : step.inputs.shape = [batch, n, features])
    (hstep : serverSession.step (rpcServers peers) none step
      = (serverSession', .ok (outputs, produced))) :
    InStep maxLength (position + n) serverSession' (tokens ++ step.inputs.columns) ∧
      (∃ stream, serverSession'.stream.stream = some stream ∧
        stream.prefixLength = (position + n : Nat)) ∧
      outputs.shape = [batch, n, features] := by
  obtain ⟨response, hanswer, hreceive, hkeeps, -⟩ := h.keeps.step hshape hstep
  obtain ⟨stream, served, stream', hstream, -, hnew, -, hafter⟩ := answer_eq_ok.mp hanswer
  obtain ⟨hbehind, hlimit, k, hstructure⟩ := h.handlerStream hstream
  obtain ⟨parsed, inference, prefixLength, store, hparsed, hturn, -, rfl⟩ := serveNew_eq_ok.mp hnew
  obtain ⟨hhidden, hstart⟩ := obtainRequest_spec hstructure hparsed
  -- the turn starts where the client says
  have hend : prefixLength = (position + n : Nat) := by
    obtain ⟨start, hstarts, rfl⟩ := iterateRpcInference_prefix hturn
    rw [h.keeps.position_eq] at hstart
    rw [startPosition_of_le hstart hbehind] at hstarts
    cases hstarts
    rw [InferenceRequest.lengthIncrement, hhidden, hshape]
    rfl
  obtain ⟨tensors, -, hout, -⟩ := receive_eq_ok hreceive
  refine ⟨⟨hkeeps, ?_, ?_⟩, ⟨_, by rw [hafter], hend⟩, hout.trans hshape⟩
  · rw [hafter]
    intro hnone
    nomatch hnone
  · rw [hafter]
    rintro stream'' ⟨⟩
    exact ⟨Int.le_of_eq hend.symm, hlimit, k, hstructure⟩

end ServerSessions

/-! ## All server sessions -/

omit [Add α] in
/-- Nothing has been fed yet. -/
theorem extendFed_replicate : ∀ (feeds : List (Tensor α)) (k : Nat),
    extendFed (List.replicate k []) feeds = extendFed [] feeds := by
  intro feeds
  induction feeds with
  | nil => exact fun _ => rfl
  | cons inputs feeds ih =>
    intro k
    have hhead : (List.replicate k ([] : List (Column α))).headD [] = [] := by cases k <;> rfl
    rw [extendFed, extendFed, hhead, List.tail_replicate, ih]
    rfl

/-- **A pass** through server sessions that are in step. -/
theorem runSpans_inStep {peers : Nat → Except PyExc (InferenceServer κ α cfg)} {args : StepArgs α}
    {stepId maxLength position batch n features : Nat}
    {todo : List (ServerInferenceSession (HandlerState κ α cfg) α)} {fed : List (List (Column α))}
    (h : List.Forall₂ (InStep maxLength position) todo fed) :
    ∀ {inputs : Tensor α} {shared : SharedKvStates κ α}
      {sessions : List (ServerInferenceSession (HandlerState κ α cfg) α)}
      {result : Tensor α × SharedKvStates κ α}, inputs.shape = [batch, n, features] →
      runSpans (rpcServers peers) args stepId position todo inputs shared
        = .ok (sessions, result) →
      List.Forall₂ (InStep maxLength (position + n)) sessions
          (extendFed fed (spanFeeds (rpcServers peers) args stepId todo inputs shared)) ∧
        (∀ serverSession ∈ sessions, ∃ stream, serverSession.stream.stream = some stream ∧
          stream.prefixLength = (position + n : Nat)) ∧
        sessions.map ServerInferenceSession.span = todo.map ServerInferenceSession.span := by
  induction h with
  | nil =>
    intro inputs shared sessions result _ hrun
    cases hrun
    exact ⟨.nil, fun _ h => (nomatch h), rfl⟩
  | @cons serverSession tokens rest fed hfirst _ ih =>
    intro inputs shared sessions result hshape hrun
    obtain ⟨serverSession', outputs, produced, rest', -, hstep, hrest, rfl⟩ :=
      (runSpans_cons_eq_ok (rpcServers peers) args stepId).mp hrun
    obtain ⟨hinStep, hbehind, hout⟩ := hfirst.step hshape hstep
    obtain ⟨hsessions, hprefixes, hspans⟩ := ih hout hrest
    have hspan := ServerInferenceSession.step_span (rpcServers peers) none serverSession
      (spanInputs args stepId serverSession.span inputs shared)
    rw [hstep] at hspan
    refine ⟨?_, ?_, ?_⟩
    · rw [spanFeeds, hstep]
      exact .cons hinStep hsessions
    · intro s hs
      rcases List.mem_cons.mp hs with rfl | hs
      · exact hbehind
      · exact hprefixes s hs
    · rw [List.map_cons, List.map_cons, hspans, hspan]

/-- **The invariant.** -/
structure Synced (s : SessionRun κ α cfg) : Prop where
  blocks : 0 < s.session.numBlocks
  tiles : s.session.serverSessions = [] ∨
    Tiles 0 (s.session.serverSessions.map ServerInferenceSession.span) s.session.numBlocks
  unopened : s.session.serverSessions = [] → s.session.position = 0
  inStep : List.Forall₂ (InStep s.session.maxLength s.session.position) s.session.serverSessions
    s.fed

section Invariant

variable {peers : Nat → Except PyExc (InferenceServer κ α cfg)} {s s' : SessionRun κ α cfg}

/-- The server sessions that a step meets are in step. -/
theorem Synced.opened (hs : Synced s) {uuids : Nat} {attempt : StepAttempt}
    {session : InferenceSession (HandlerState κ α cfg) α} (hfind : FindsPaths attempt)
    (h : opened (rpcServers peers) { s.session with uuids := uuids } attempt = (session, none)) :
    (∃ sessions uuids,
      session = { s.session with serverSessions := sessions, uuids := uuids }) ∧
    Tiles 0 (session.serverSessions.map ServerInferenceSession.span) s.session.numBlocks ∧
      ∃ fed, List.Forall₂ (InStep s.session.maxLength s.session.position)
          session.serverSessions fed ∧
        ∀ feeds, extendFed fed feeds = extendFed s.fed feeds := by
  obtain ⟨hsame, htiles, hsessions⟩ :=
    opened_spec { s.session with uuids := uuids } hs.blocks hfind hs.tiles h
  refine ⟨hsame, htiles, ?_⟩
  rcases hsessions with hold | ⟨hnone, hnew⟩
  · refine ⟨s.fed, ?_, fun _ => rfl⟩
    rw [hold]
    exact hs.inStep
  · have hfed : s.fed = [] := by
      have hinStep := hs.inStep
      rw [show s.session.serverSessions = [] from hnone] at hinStep
      exact List.forall₂_nil_left_iff.mp hinStep
    refine ⟨List.replicate session.serverSessions.length [], ?_, fun feeds => ?_⟩
    · rw [hs.unopened hnone]
      refine List.forall₂_iff_get.mpr ⟨by simp, fun i hi hi' => ?_⟩
      obtain ⟨span, uuid, stream, hconnect, heq⟩ := hnew _ (List.get_mem _ ⟨i, hi⟩)
      obtain ⟨server, -, rfl⟩ := except_map_eq_ok.mp hconnect
      rw [heq]
      simpa using inStep_new span uuid s.session.maxLength server
    · rw [extendFed_replicate, hfed]

omit [LinearOrder κ] [Add α] in
/-- A rollback of all server sessions. -/
theorem mapM_setPosition_inStep {maxLength position start : Nat} (hstart : start ≤ position)
    {sessions : List (ServerInferenceSession (HandlerState κ α cfg) α)}
    {fed : List (List (Column α))}
    (h : List.Forall₂ (InStep maxLength position) sessions fed) :
    ∃ sessions', sessions.mapM (·.setPosition start) = .ok sessions' ∧
      List.Forall₂ (InStep maxLength start) sessions' (fed.map (·.take start)) ∧
      sessions'.map ServerInferenceSession.span = sessions.map ServerInferenceSession.span := by
  induction h with
  | nil => exact ⟨[], rfl, .nil, rfl⟩
  | @cons serverSession tokens rest fed hfirst _ ih =>
    obtain ⟨serverSession', hset, hinStep, hspan⟩ := hfirst.setPosition hstart
    obtain ⟨rest', hrest, hinSteps, hspans⟩ := ih
    refine ⟨serverSession' :: rest', ?_, .cons hinStep hinSteps, ?_⟩
    · rw [List.mapM_cons, hset, hrest]
      rfl
    · rw [List.map_cons, List.map_cons, hspan, hspans]

theorem Synced.rollback (hs : Synced s) {start : Nat} (hstart : start ≤ s.session.position)
    (h : s.perform peers (.rollback start) = some s') : Synced s' := by
  obtain ⟨sessions, hset, hinStep, hspans⟩ := mapM_setPosition_inStep hstart hs.inStep
  have hsession : s.session.setPosition start
      = .ok { s.session with position := start, serverSessions := sessions } := by
    unfold InferenceSession.setPosition
    rw [hset]
    rfl
  simp only [SessionRun.perform, hsession, Option.some.injEq] at h
  subst h
  refine ⟨hs.blocks, ?_, ?_, hinStep⟩
  · rcases hs.tiles with hnone | htiles
    · left
      rw [hnone] at hspans
      exact List.map_eq_nil_iff.mp hspans
    · right
      show Tiles 0 (sessions.map _) _
      rw [hspans]
      exact htiles
  · rintro rfl
    rw [List.map_nil] at hspans
    have hzero := hs.unopened (List.map_eq_nil_iff.mp hspans.symm)
    show start = 0
    omega

/-- A step whose servers answer. -/
theorem Synced.answered (hs : Synced s) {inputs : Tensor α} {prompts : Option (Tensor α)}
    {hypoIds : Option (List Int)} {perLayerInputs : Option (Tensor α)}
    {attempts : List StepAttempt} {args : StepArgs α}
    (hff : FailureFree peers s (.step inputs prompts hypoIds perLayerInputs attempts))
    (hcheck : s.session.checkStep inputs prompts hypoIds perLayerInputs = .ok args)
    (h : s.perform peers (.step inputs prompts hypoIds perLayerInputs attempts) = some s') :
    Synced s' ∧ ∀ serverSession ∈ s'.session.serverSessions, ∃ stream,
      serverSession.stream.stream = some stream ∧ stream.prefixLength = s'.session.position := by
  obtain ⟨hdim, hfind, hall⟩ := hff
  obtain ⟨session, ⟨sessions, outputs, shared⟩, hanswered⟩ := hall args hcheck
  clear hall
  obtain ⟨rfl, -⟩ := checkStep_spec hcheck
  obtain ⟨batch, n, features, hshape⟩ := List.length_eq_three.mp hdim
  have hn : args.inputs.shape.getD 1 0 = n := by
    rw [hshape]
    rfl
  have hrun := runStep_of_answered hs.blocks hfind hs.tiles hanswered
  obtain ⟨-, -, ⟨attempt, rest, rfl, hopen⟩, hspans⟩ := hanswered
  obtain ⟨⟨opened', uuids, hsame⟩, htiles, fed, hinStep, hfed⟩ :=
    hs.opened (hfind attempt List.mem_cons_self) hopen
  obtain ⟨hinSteps, hprefixes, hmap⟩ := runSpans_inStep hinStep hshape hspans
  have hstep : s.session.step (rpcServers peers) args.inputs prompts hypoIds perLayerInputs
      (attempt :: rest) = s.session.runStep (rpcServers peers) args (attempt :: rest) :=
    step_of_checkStep hcheck
  have hfeeds : stepFeeds (rpcServers peers) s.session args (attempt :: rest)
      = spanFeeds (rpcServers peers) args s.session.uuids session.serverSessions args.inputs ∅ := by
    rw [stepFeeds, hopen]
  simp only [SessionRun.perform, hcheck, hstep, hrun, Option.map_some, Option.some.injEq, hn,
    hfeeds] at h
  subst h
  rw [hfed] at hinSteps
  rw [← hmap] at htiles
  obtain rfl := hsame
  have hne : sessions ≠ [] := by
    rintro rfl
    exact absurd htiles (Nat.ne_of_lt hs.blocks)
  exact ⟨⟨hs.blocks, Or.inr htiles, fun hnone => absurd hnone hne, hinSteps⟩, hprefixes⟩

/-- **One event.** -/
theorem Synced.perform (hs : Synced s) (event : SessionEvent α)
    (hff : FailureFree peers s event) :
    PrefixesAgree peers s event ∧ ∀ s', s.perform peers event = some s' → Synced s' := by
  cases event with
  | rollback start => exact ⟨trivial, fun s' h => hs.rollback hff h⟩
  | step inputs prompts hypoIds perLayerInputs attempts =>
    refine ⟨fun args s' hcheck h => (hs.answered hff hcheck h).2, fun s' h => ?_⟩
    cases hcheck : s.session.checkStep inputs prompts hypoIds perLayerInputs with
    | ok args => exact (hs.answered hff hcheck h).1
    | error exc =>
      -- the client refuses the step
      simp only [SessionRun.perform, hcheck, Option.some.injEq] at h
      exact h ▸ hs

omit [LinearOrder κ] [Add α] in
theorem Synced.positionsAgree (hs : Synced s) : PositionsAgree s :=
  hs.inStep.imp fun _ _ h => ⟨h.keeps.position_eq, h.keeps.history⟩

theorem Synced.neverRefused (hs : Synced s) : NeverRefused peers s := by
  intro inputs prompts hypoIds perLayerInputs args attempt session hcheck hfind hopen serverSession
    hmem step request sent hsame hsent
  obtain ⟨-, hfits⟩ := checkStep_spec hcheck
  obtain ⟨-, -, fed, hinStep, -⟩ := hs.opened hfind hopen
  obtain ⟨i, hi, rfl⟩ := List.getElem_of_mem hmem
  have hi' : i < fed.length := hinStep.length_eq ▸ hi
  exact (hinStep.get hi hi').passesChecks (by rw [hsame]; exact hfits) hsent

end Invariant

/-- **Client and servers agree on the position**, in every run of steps and rollbacks in which no
    server fails. -/
theorem positions_agree (peers : Nat → Except PyExc (InferenceServer κ α cfg)) (numBlocks : Nat)
    (maxRetries : Option Nat) (maxLength : Nat) (events : List (SessionEvent α))
    (hblocks : 0 < numBlocks)
    (hff : AllSteps (SessionRun.perform peers) (FailureFree peers)
      ⟨.new _ _ numBlocks maxRetries maxLength, []⟩ events) :
    AllStates (SessionRun.perform peers) (fun s => PositionsAgree s ∧ NeverRefused peers s)
        ⟨.new _ _ numBlocks maxRetries maxLength, []⟩ events ∧
      AllSteps (SessionRun.perform peers) (PrefixesAgree peers)
        ⟨.new _ _ numBlocks maxRetries maxLength, []⟩ events := by
  have hs : Synced (⟨.new _ _ numBlocks maxRetries maxLength, []⟩ : SessionRun κ α cfg) :=
    ⟨hblocks, Or.inl rfl, fun _ => rfl, .nil⟩
  constructor
  · refine AllStates.imp (fun s hs => ⟨Synced.positionsAgree hs, Synced.neverRefused hs⟩) ?_
    exact allStates_of_allSteps (fun s event s' hs hff h => (hs.perform event hff).2 s' h) hs hff
  · exact allSteps_of_allSteps (fun s event hs hff => hs.perform event hff) hs hff

/-- A server of one block. -/
def echoServer : InferenceServer String Int (PagedKVPool.tokenConfig 1) where
  moduleBackends i := if i = 0 then some (echoBackend .ordinary) else none
  inferenceMaxLength := 4
  mergeMaxTokens := 128
  maxBatchSize := 2048
  allocateCache _ _ _ := .ok ([0], echoStore 1)

/-- Two tokens, and back before the second. -/
def echoEvents : List (SessionEvent Int) :=
  [.step (Tensor.ofFn [1, 2, 1] fun _ => 7) none none none [echoAttempt], .rollback 1]

theorem positions_agree_example :
    AllStates (SessionRun.perform fun _ => .ok echoServer)
        (fun s => PositionsAgree s ∧ NeverRefused (fun _ => .ok echoServer) s)
        ⟨.new _ _ 1 none 4, []⟩ echoEvents ∧
      AllSteps (SessionRun.perform fun _ => .ok echoServer)
        (PrefixesAgree fun _ => .ok echoServer) ⟨.new _ _ 1 none 4, []⟩ echoEvents := by
  refine positions_agree (fun _ => .ok echoServer) 1 none 4 echoEvents Nat.zero_lt_one ⟨?_, ?_⟩
  · refine ⟨rfl, fun attempt hmem => ?_, fun args hargs => ?_⟩
    · rw [List.mem_singleton.mp hmem]
      exact echoAttempt_findsPaths
    · obtain rfl := Except.ok.inj hargs
      refine ⟨_, _, fun attempt hmem => ?_, ?_, ⟨echoAttempt, [], rfl, rfl⟩, rfl⟩
      · rw [List.mem_singleton.mp hmem]
        rfl
      · exact Nat.le_refl 1
  · intro s' h
    refine ⟨?_, fun _ _ => trivial⟩
    cases h
    show 1 ≤ 2
    exact Nat.le_succ 1

end Drift
