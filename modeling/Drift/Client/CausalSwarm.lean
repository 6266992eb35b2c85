/-
  Sessions with servers that compute a causal function of the tokens they are fed.

  A block puts at every position what it makes of the inputs up to there.  A server of a span keeps
  the inputs that it has been fed, cut where a request says that it starts, and answers with the
  outputs of the new ones: it is what a server with attention caches is for its clients.  Position
  and limit are checked by the rules of `iterate_rpc_inference`.  The blocks take neither prompts
  nor side inputs.

  Then a step of a session that has been fed `kept` is a step of the whole model: its outputs are
  those that all blocks make of `kept` and the new tokens (`step_causal`), and a rollback takes the
  session back to a prefix (`setPosition_causal`).  The route does not show.
-/
import Drift.Client.FailureFree
import Drift.Client.History
import Drift.Client.Swarm
import Drift.Lib.CausalMap

namespace Drift

open ServerInferenceSession InferenceSession Tensor

variable {κ α : Type} [LinearOrder κ] [Zero α]

/-- Blocks, as causal functions that keep the shape of a column. -/
structure CausalBlocks (α : Type) where
  run : Nat → List (Column α) → Column α
  shape_run : ∀ {batch features : Nat} (i : Nat) (columns : List (Column α)), columns ≠ [] →
    (∀ column ∈ columns, ColumnShape batch features column) →
    ColumnShape batch features (run i columns)

/-- What a server keeps for a stream: its span, the length that was asked for, and the inputs. -/
structure CausalStream (α : Type) where
  span : RemoteSpanInfo
  maxLength : Option Nat
  fed : List (Column α)

/-- One request to a server of causal blocks. -/
def CausalStream.answer (blocks : CausalBlocks α) (stream : CausalStream α)
    (request : ExpertRequest κ α) : Except PyExc (ExpertResponse κ α × CausalStream α) := do
  let parsed ← parseArgs request.metadata request.tensors
  let start ← startPosition stream.fed.length parsed
  let maxLength ← orRaise (.assertionError "rpc_inference metadata must contain int max_length")
    (stream.maxLength <|> request.metadata.maxLength)
  if maxLength < start + parsed.lengthIncrement then
    .error (.valueError "Maximum length exceeded")
  else
    let fed := stream.fed.take start.toNat ++ parsed.hiddenStates.columns
    let outputs := (layers blocks.run stream.span.start stream.span.stop fed).drop start.toNat
    .ok (⟨[ofColumns parsed.batchSize (parsed.hiddenStates.shape.getD 2 0) outputs], []⟩,
      { stream with maxLength := some maxLength, fed := fed })

/-- A swarm whose servers compute these blocks. -/
def causalServers (κ : Type) [LinearOrder κ] (blocks : CausalBlocks α) :
    InferenceServers (CausalStream α) κ α where
  connect span := .ok ⟨span, none, []⟩
  answer stream request := stream.answer blocks request

/-! ## One server session -/

/-- The server session stands behind `kept`, tokens of the whole session: its history and what its
    server keeps are what the blocks before its span make of them. -/
structure StandsBehind (blocks : CausalBlocks α) (batch features maxLength : Nat)
    (kept : List (Column α)) (serverSession : ServerInferenceSession (CausalStream α) α) : Prop where
  keeps : KeepsTokens maxLength kept.length serverSession
    (layers blocks.run 0 serverSession.span.start kept)
  isOpen : serverSession.closed = false
  shape : ∀ history, serverSession.history = some history →
    history.shape = [batch, kept.length, features]
  span_eq : serverSession.stream.span = serverSession.span
  maxLength_eq : serverSession.stream.maxLength
    = if serverSession.stepped then some maxLength else none
  fed : serverSession.stream.fed.take kept.length
    = layers blocks.run 0 serverSession.span.start kept

/-- The server goes on behind `kept`, whatever is in the history of the session. -/
structure StreamBehind (blocks : CausalBlocks α) (maxLength : Nat) (kept : List (Column α))
    (serverSession : ServerInferenceSession (CausalStream α) α) : Prop where
  position_eq : serverSession.position = kept.length
  limit_eq : serverSession.maxLength = maxLength
  span_eq : serverSession.stream.span = serverSession.span
  maxLength_eq : serverSession.stream.maxLength
    = if serverSession.stepped then some maxLength else none
  fed : serverSession.stream.fed.take kept.length
    = layers blocks.run 0 serverSession.span.start kept

section ServerSessions

variable {blocks : CausalBlocks α} {batch n features maxLength : Nat} {kept new : List (Column α)}
  {serverSession : ServerInferenceSession (CausalStream α) α}

theorem StandsBehind.streamBehind
    (h : StandsBehind blocks batch features maxLength kept serverSession) :
    StreamBehind blocks maxLength kept serverSession :=
  ⟨h.keeps.position_eq, h.keeps.maxLength_eq, h.span_eq, h.maxLength_eq, h.fed⟩

theorem standsBehind_new (span : RemoteSpanInfo) (uuid : Nat) :
    StandsBehind blocks batch features maxLength []
      (.new span uuid maxLength ⟨span, none, []⟩) where
  keeps := by
    rw [layers_nil]
    exact keepsTokens_new ..
  isOpen := rfl
  shape _ h := nomatch h
  span_eq := rfl
  maxLength_eq := rfl
  fed := (layers_nil ..).symm

omit [Zero α] in
theorem StreamBehind.length_le (h : StreamBehind blocks maxLength kept serverSession) :
    kept.length ≤ serverSession.stream.fed.length := by
  have hlength := congrArg List.length h.fed
  rw [List.length_take, length_layers] at hlength
  omega

/-- Back to a prefix. -/
theorem StandsBehind.setPosition
    (h : StandsBehind blocks batch features maxLength kept serverSession) {start : Nat}
    (hstart : start ≤ kept.length) :
    ∃ serverSession', serverSession.setPosition start = .ok serverSession' ∧
      StandsBehind blocks batch features maxLength (kept.take start) serverSession' := by
  have hlength : (kept.take start).length = start := by
    rw [List.length_take]
    omega
  obtain ⟨history, hset, hkeeps⟩ := h.keeps.setPosition hstart
  rw [take_layers] at hkeeps
  refine ⟨_, hset, ?_, h.isOpen, ?_, h.span_eq, h.maxLength_eq, ?_⟩
  · rw [hlength]
    exact hkeeps
  · rintro history' rfl
    rw [hlength]
    -- what is left of the history
    unfold ServerInferenceSession.setPosition at hset
    rw [if_pos (by rw [h.keeps.position_eq]; exact hstart)] at hset
    have hcut := congrArg ServerInferenceSession.history (Except.ok.inj hset)
    simp only at hcut
    obtain ⟨old, hold, hcut⟩ := Option.bind_eq_some_iff.mp hcut
    have hshape := h.shape old hold
    rw [if_pos (by rw [hshape]; exact hstart)] at hcut
    split at hcut
    · cases hcut
      exact shape_slice_first hshape hstart
    · nomatch hcut
  · rw [hlength, ← take_layers, ← h.fed, List.take_take, Nat.min_eq_left hstart]

/-- What a server of causal blocks answers. -/
theorem answer_stepRequest (step : StepInputs κ α) {sent : Tensor α}
    (h : StreamBehind blocks maxLength kept serverSession)
    (hshape : sent.shape = [batch, n, features]) (hfits : kept.length + n ≤ maxLength)
    (hsent : sent.columns
      = (layers blocks.run 0 serverSession.span.start (kept ++ new)).drop kept.length) :
    (causalServers κ blocks).answer serverSession.stream (serverSession.stepRequest sent step)
      = .ok (⟨[ofColumns batch features ((layers blocks.run serverSession.span.start
            serverSession.span.stop (layers blocks.run 0 serverSession.span.start
              (kept ++ new))).drop kept.length)], []⟩,
          ⟨serverSession.span, some maxLength,
            layers blocks.run 0 serverSession.span.start (kept ++ new)⟩) := by
  obtain ⟨parsed, hparsed, hhidden, hstart⟩ :=
    parseArgs_stepArgs (serverSession.stepRequest sent step).metadata sent step
  have hposition : startPosition serverSession.stream.fed.length parsed
      = .ok (kept.length : Int) := by
    refine startPosition_of_le ?_ (by exact_mod_cast h.length_le)
    rw [hstart]
    show some (serverSession.position : Int) = _
    rw [h.position_eq]
  have hlimit : (serverSession.stream.maxLength <|>
      (serverSession.stepRequest sent step).metadata.maxLength) = some maxLength := by
    rw [h.maxLength_eq]
    show _ = some maxLength
    cases hstepped : serverSession.stepped with
    | true => rfl
    | false =>
      show (none <|> if serverSession.stepped then none else some serverSession.maxLength) = _
      rw [hstepped, h.limit_eq]
      rfl
  have hincrement : parsed.lengthIncrement = n := by
    rw [InferenceRequest.lengthIncrement, hhidden, hshape]
    rfl
  have hbatch : parsed.batchSize = batch := by
    rw [InferenceRequest.batchSize, hhidden, hshape]
    rfl
  have hfeatures : parsed.hiddenStates.shape.getD 2 0 = features := by
    rw [hhidden, hshape]
    rfl
  -- what the server has been fed
  have hfed : serverSession.stream.fed.take kept.length ++ parsed.hiddenStates.columns
      = layers blocks.run 0 serverSession.span.start (kept ++ new) := by
    rw [h.fed, hhidden, hsent]
    exact (layers_append ..).symm
  show serverSession.stream.answer blocks _ = _
  unfold CausalStream.answer
  rw [stepRequest_tensors]
  refine except_bind_eq_ok.mpr ⟨parsed, hparsed, ?_⟩
  refine except_bind_eq_ok.mpr ⟨_, hposition, ?_⟩
  refine except_bind_eq_ok.mpr ⟨maxLength, by rw [hlimit]; rfl, ?_⟩
  rw [if_neg (by rw [hincrement]; omega), Int.toNat_natCast, hfed, hbatch, hfeatures, h.span_eq]

/-- The history can be extended. -/
theorem StandsBehind.extendHistory
    (h : StandsBehind blocks batch features maxLength kept serverSession) {inputs : Tensor α}
    (hshape : inputs.shape = [batch, n, features]) :
    ∃ history, serverSession.extendHistory inputs = .ok history ∧
      history.shape = [batch, kept.length + n, features] := by
  unfold ServerInferenceSession.extendHistory
  have hhistory := h.keeps.history
  cases hcase : serverSession.history with
  | none =>
    rw [hcase] at hhistory
    exact ⟨inputs, rfl, by rw [hshape, hhistory.1, Nat.zero_add]⟩
  | some old =>
    have hold := h.shape old hcase
    simp only
    rw [if_pos (by rw [hold, h.keeps.position_eq]; rfl), lastTokens_self rfl, catTokens,
      if_pos (by rw [hold, hshape]; rfl)]
    exact ⟨_, rfl, shape_cat_tokens hold hshape⟩

/-- **The request of a step**, once the inputs are prepared: the outputs of the span for the new
    tokens. -/
theorem StreamBehind.exchange (h : StreamBehind blocks maxLength kept serverSession)
    (step : StepInputs κ α) (hle : serverSession.span.start ≤ serverSession.span.stop)
    (hkept : ∀ column ∈ kept ++ new, ColumnShape batch features column) {history sent : Tensor α}
    (hprepare : serverSession.prepare step.inputs
      = ({ serverSession with history := some history }, .ok sent))
    (hn : step.inputs.shape.getD 1 0 = new.length)
    (hshape : sent.shape = [batch, new.length, features])
    (hfits : kept.length + new.length ≤ maxLength)
    (hsent : sent.columns
      = (layers blocks.run 0 serverSession.span.start (kept ++ new)).drop kept.length) :
    ∃ outputs,
      serverSession.step (causalServers κ blocks) none step
        = ({ serverSession with
            history := some history
            stepped := true
            stream := ⟨serverSession.span, some maxLength,
              layers blocks.run 0 serverSession.span.start (kept ++ new)⟩
            position := (kept ++ new).length }, .ok (outputs, [])) ∧
      outputs.shape = [batch, new.length, features] ∧
      outputs.columns
        = (layers blocks.run 0 serverSession.span.stop (kept ++ new)).drop kept.length := by
  have hanswer := answer_stepRequest step h hshape hfits hsent
  rw [layers_trans blocks.run (Nat.zero_le _) hle] at hanswer
  have hlength : ((layers blocks.run 0 serverSession.span.stop (kept ++ new)).drop
      kept.length).length = new.length := by
    rw [List.length_drop, length_layers, List.length_append]
    omega
  have hcolumns : ∀ column ∈
      (layers blocks.run 0 serverSession.span.stop (kept ++ new)).drop kept.length,
      ColumnShape batch features column := fun column hcolumn =>
    forall_layers blocks.run (fun i columns => blocks.shape_run i columns) 0 _ hkept column
      (List.mem_of_mem_drop hcolumn)
  have hout : (ofColumns batch features
      ((layers blocks.run 0 serverSession.span.stop (kept ++ new)).drop kept.length)).shape
      = [batch, new.length, features] := by
    rw [shape_ofColumns, hlength]
  have hreceive : receive sent (κ := κ) ⟨[ofColumns batch features
      ((layers blocks.run 0 serverSession.span.stop (kept ++ new)).drop kept.length)], []⟩
      = .ok (ofColumns batch features
        ((layers blocks.run 0 serverSession.span.stop (kept ++ new)).drop kept.length), []) := by
    unfold receive
    simp only
    rw [if_pos (hout.trans hshape.symm)]
    rfl
  have hend : serverSession.position + step.inputs.shape.getD 1 0 = (kept ++ new).length := by
    rw [h.position_eq, hn, List.length_append]
  have hstep := step_eq_ok.mpr ⟨history, sent, _, _, hprepare, hanswer, hreceive, rfl⟩
  rw [hend] at hstep
  exact ⟨_, hstep, hout, columns_ofColumns hcolumns⟩

/-- The inputs of a step are sent as they are. -/
theorem StandsBehind.prepare
    (h : StandsBehind blocks batch features maxLength kept serverSession) {inputs : Tensor α}
    (hshape : inputs.shape = [batch, n, features]) :
    ∃ history, serverSession.prepare inputs
        = ({ serverSession with history := some history }, .ok inputs) ∧
      history.shape = [batch, kept.length + n, features] := by
  obtain ⟨history, hextend, hhistory⟩ := h.extendHistory hshape
  have hok := prepare_eq_ok.mpr ⟨history, h.isOpen, hextend,
    by rw [hhistory, h.keeps.position_eq, hshape]; rfl, rfl, rfl⟩
  rw [h.keeps.sent_eq hok] at hok
  exact ⟨history, hok, hhistory⟩

/-- **A step of a server session**: the outputs of its span for the new tokens. -/
theorem StandsBehind.step (h : StandsBehind blocks batch features maxLength kept serverSession)
    (step : StepInputs κ α) (hle : serverSession.span.start ≤ serverSession.span.stop)
    (hkept : ∀ column ∈ kept ++ new, ColumnShape batch features column)
    (hshape : step.inputs.shape = [batch, new.length, features])
    (hfits : kept.length + new.length ≤ maxLength)
    (hinputs : step.inputs.columns
      = (layers blocks.run 0 serverSession.span.start (kept ++ new)).drop kept.length) :
    ∃ serverSession' outputs,
      serverSession.step (causalServers κ blocks) none step = (serverSession', .ok (outputs, [])) ∧
      StandsBehind blocks batch features maxLength (kept ++ new) serverSession' ∧
      serverSession'.span = serverSession.span ∧
      outputs.shape = [batch, new.length, features] ∧
      outputs.columns
        = (layers blocks.run 0 serverSession.span.stop (kept ++ new)).drop kept.length := by
  obtain ⟨history, hprepare, hhistory⟩ := h.prepare hshape
  obtain ⟨outputs, hstep, hout, hcolumns⟩ := h.streamBehind.exchange step hle hkept hprepare
    (by rw [hshape]; rfl) hshape hfits hinputs
  refine ⟨_, outputs, hstep, ?_, rfl, hout, hcolumns⟩
  obtain ⟨response, -, -, hkeeps, -⟩ := h.keeps.step hshape hstep
  have hlengthNew : (kept ++ new).length = kept.length + new.length := List.length_append
  refine ⟨?_, h.isOpen, ?_, rfl, rfl, ?_⟩
  · rw [hinputs, ← layers_append, ← hlengthNew] at hkeeps
    exact hkeeps
  · rintro history' ⟨⟩
    rw [hlengthNew]
    exact hhistory
  · rw [take_layers, List.take_length]

end ServerSessions

/-! ## The session -/

/-- A pass through server sessions that stand behind `kept`. -/
theorem runSpans_causal {blocks : CausalBlocks α} {batch features maxLength : Nat}
    {kept new : List (Column α)} (args : StepArgs α) (stepId : Nat) (shared : SharedKvStates κ α)
    (hkept : ∀ column ∈ kept ++ new, ColumnShape batch features column)
    (hfits : kept.length + new.length ≤ maxLength) :
    ∀ {todo : List (ServerInferenceSession (CausalStream α) α)} {lo hi : Nat} {inputs : Tensor α},
      (∀ serverSession ∈ todo, StandsBehind blocks batch features maxLength kept serverSession) →
      Tiles lo (todo.map ServerInferenceSession.span) hi →
      inputs.shape = [batch, new.length, features] →
      inputs.columns = (layers blocks.run 0 lo (kept ++ new)).drop kept.length →
      ∃ sessions outputs,
        runSpans (causalServers κ blocks) args stepId kept.length todo inputs shared
          = .ok (sessions, outputs, shared) ∧
        (∀ serverSession ∈ sessions,
          StandsBehind blocks batch features maxLength (kept ++ new) serverSession) ∧
        sessions.map ServerInferenceSession.span = todo.map ServerInferenceSession.span ∧
        outputs.shape = [batch, new.length, features] ∧
        outputs.columns = (layers blocks.run 0 hi (kept ++ new)).drop kept.length := by
  intro todo
  induction todo with
  | nil =>
    rintro lo hi inputs - htiles hshape hinputs
    obtain rfl : lo = hi := htiles
    exact ⟨[], inputs, rfl, fun _ h => (nomatch h), rfl, hshape, hinputs⟩
  | cons serverSession rest ih =>
    intro lo hi inputs hall htiles hshape hinputs
    obtain ⟨rfl, hlt, htiles⟩ := htiles
    have hfirst := hall serverSession List.mem_cons_self
    obtain ⟨serverSession', mid, hstep, hbehind, hspan, hmid, hcolumns⟩ :=
      hfirst.step (spanInputs args stepId serverSession.span inputs shared)
        (Nat.le_of_lt hlt) hkept hshape hfits hinputs
    obtain ⟨sessions, outputs, hrun, hbehinds, hspans, hout⟩ :=
      ih (fun s hs => hall s (List.mem_cons_of_mem _ hs)) htiles hmid hcolumns
    refine ⟨serverSession' :: sessions, outputs, ?_, ?_, ?_, hout⟩
    · refine (runSpans_cons_eq_ok (causalServers κ blocks) args stepId).mpr ?_
      exact ⟨serverSession', mid, [], sessions, hfirst.keeps.position_eq, hstep, hrun, rfl⟩
    · intro s hs
      rcases List.mem_cons.mp hs with rfl | hs
      · exact hbehind
      · exact hbehinds s hs
    · rw [List.map_cons, List.map_cons, hspan, hspans]

/-- The session stands behind `kept`: its tokens, after the rollbacks so far. -/
structure CausalSession (blocks : CausalBlocks α) (batch features : Nat) (kept : List (Column α))
    (session : InferenceSession (CausalStream α) α) : Prop where
  blocks_pos : 0 < session.numBlocks
  position_eq : session.position = kept.length
  shape : ∀ column ∈ kept, ColumnShape batch features column
  tiles : session.serverSessions = [] ∨
    Tiles 0 (session.serverSessions.map ServerInferenceSession.span) session.numBlocks
  unopened : session.serverSessions = [] → kept = []
  standsBehind : ∀ serverSession ∈ session.serverSessions,
    StandsBehind blocks batch features session.maxLength kept serverSession

/-- The swarm is up for a step: nothing gets lost on the way, and a route is found if there is none
    yet. -/
structure SwarmUp {σ : Type} (servers : InferenceServers σ κ α) (session : InferenceSession σ α)
    (attempts : List StepAttempt) : Prop where
  quiet : Quiet attempts
  finds : ∀ attempt ∈ attempts, FindsPaths attempt
  opens : ∃ attempt rest session', attempts = attempt :: rest ∧
    opened servers { session with uuids := session.uuids + 1 } attempt = (session', none) ∧
    session'.serverSessions.length ≤ attempts.length

section Sessions

variable {blocks : CausalBlocks α} {batch n features : Nat} {kept : List (Column α)}
  {session : InferenceSession (CausalStream α) α}

omit [LinearOrder κ] in
theorem causalSession_new (blocks : CausalBlocks α) (batch features : Nat) {numBlocks : Nat}
    (hblocks : 0 < numBlocks) (maxRetries : Option Nat) (maxLength : Nat) :
    CausalSession blocks batch features [] (.new _ _ numBlocks maxRetries maxLength) where
  blocks_pos := hblocks
  position_eq := rfl
  shape _ h := nomatch h
  tiles := Or.inl rfl
  unopened _ := rfl
  standsBehind _ h := nomatch h

omit [LinearOrder κ] in
/-- The tokens of a session, with new ones behind them. -/
theorem CausalSession.shape_append (h : CausalSession blocks batch features kept session)
    {inputs : Tensor α} (hshape : inputs.shape = [batch, n, features]) :
    ∀ column ∈ kept ++ inputs.columns, ColumnShape batch features column := by
  intro column hcolumn
  rcases List.mem_append.mp hcolumn with hold | hnew
  · exact h.shape column hold
  · exact columnShape_columns hshape column hnew

omit [LinearOrder κ] in
/-- The session behind a step, whatever its server sessions are now. -/
theorem CausalSession.stepped (h : CausalSession blocks batch features kept session)
    {inputs : Tensor α} (hshape : inputs.shape = [batch, n, features])
    {sessions : List (ServerInferenceSession (CausalStream α) α)} {uuids : Nat}
    (hbehind : ∀ serverSession ∈ sessions, StandsBehind blocks batch features session.maxLength
      (kept ++ inputs.columns) serverSession)
    (htiles : Tiles 0 (sessions.map ServerInferenceSession.span) session.numBlocks) :
    CausalSession blocks batch features (kept ++ inputs.columns)
      { session with
        serverSessions := sessions
        uuids := uuids
        position := session.position + inputs.shape.getD 1 0 } := by
  have hne : sessions ≠ [] := by
    rintro rfl
    exact absurd htiles (Nat.ne_of_lt h.blocks_pos)
  refine ⟨h.blocks_pos, ?_, h.shape_append hshape, Or.inr htiles, fun hnone => absurd hnone hne,
    hbehind⟩
  show session.position + inputs.shape.getD 1 0 = _
  rw [List.length_append, length_columns, h.position_eq]

/-- **A step of the session** behind its checks is a step of the model. -/
theorem CausalSession.runStep (h : CausalSession blocks batch features kept session)
    {args : StepArgs α} {attempts : List StepAttempt}
    (hup : SwarmUp (causalServers κ blocks) session attempts)
    (hshape : args.inputs.shape = [batch, n, features])
    (hfits : kept.length + n ≤ session.maxLength) :
    ∃ session' outputs,
      session.runStep (causalServers κ blocks) args attempts = some (session', .ok outputs) ∧
      CausalSession blocks batch features (kept ++ args.inputs.columns) session' ∧
      session'.numBlocks = session.numBlocks ∧ session'.maxLength = session.maxLength ∧
      outputs.shape = [batch, n, features] ∧
      outputs.columns
        = (layers blocks.run 0 session.numBlocks (kept ++ args.inputs.columns)).drop
          kept.length := by
  obtain ⟨attempt, rest, opened', rfl, hopen, hlength⟩ := hup.opens
  obtain ⟨⟨sessions, uuids, rfl⟩, htiles, hsessions⟩ :=
    opened_spec { session with uuids := session.uuids + 1 } h.blocks_pos
      (hup.finds attempt List.mem_cons_self) h.tiles hopen
  have hall : ∀ serverSession ∈ sessions,
      StandsBehind blocks batch features session.maxLength kept serverSession := by
    rcases hsessions with hold | ⟨hnone, hnew⟩
    · intro serverSession hmem
      exact h.standsBehind serverSession (hold ▸ hmem)
    · intro serverSession hmem
      obtain ⟨span, uuid, stream, hconnect, rfl⟩ := hnew serverSession hmem
      cases hconnect
      rw [h.unopened hnone]
      exact standsBehind_new span uuid
  have hn : args.inputs.columns.length = n := by
    rw [length_columns, hshape]
    rfl
  have hcolumns := h.shape_append hshape
  obtain ⟨sessions', outputs, hrun, hbehind, hspans, hout, houtputs⟩ :=
    runSpans_causal args session.uuids (∅ : SharedKvStates κ α) hcolumns
      (by rw [hn]; exact hfits) hall htiles (by rw [hn]; exact hshape)
      (by rw [layers_self, List.drop_left])
  rw [hn] at hout
  have hgetD : args.inputs.shape.getD 1 0 = n := by
    rw [hshape]
    rfl
  have hanswered : Answered (causalServers κ blocks) args session (attempt :: rest)
      { session with serverSessions := sessions, uuids := uuids } (sessions', outputs, ∅) :=
    ⟨hup.quiet, hlength, ⟨attempt, rest, rfl, hopen⟩, by rw [h.position_eq]; exact hrun⟩
  have hstep := runStep_of_answered h.blocks_pos hup.finds h.tiles hanswered
  rw [lastTokens_self (by rw [hout, hgetD]; rfl)] at hstep
  refine ⟨_, outputs, hstep, ?_, rfl, rfl, hout, houtputs⟩
  rw [← hspans] at htiles
  exact h.stepped hshape hbehind htiles

/-- **A step of the session** is a step of the model. -/
theorem CausalSession.step (h : CausalSession blocks batch features kept session)
    {inputs : Tensor α} {attempts : List StepAttempt}
    (hup : SwarmUp (causalServers κ blocks) session attempts)
    (hshape : inputs.shape = [batch, n, features])
    (hfits : kept.length + n ≤ session.maxLength) :
    ∃ session' outputs,
      session.step (causalServers κ blocks) inputs none none none attempts
        = some (session', .ok outputs) ∧
      CausalSession blocks batch features (kept ++ inputs.columns) session' ∧
      session'.numBlocks = session.numBlocks ∧ session'.maxLength = session.maxLength ∧
      outputs.shape = [batch, n, features] ∧
      outputs.columns
        = (layers blocks.run 0 session.numBlocks (kept ++ inputs.columns)).drop kept.length := by
  have hgetD : inputs.shape.getD 1 0 = n := by
    rw [hshape]
    rfl
  have hcheck : session.checkStep inputs none none none = .ok ⟨inputs, dummy, [], dummy⟩ := by
    show (if session.maxLength < session.position + inputs.shape.getD 1 0 then _ else _) = _
    rw [if_neg (by rw [h.position_eq, hgetD]; omega)]
  rw [step_of_checkStep hcheck]
  exact h.runStep hup hshape hfits

omit [LinearOrder κ] in
/-- **A rollback** takes the session back to a prefix. -/
theorem CausalSession.setPosition (h : CausalSession blocks batch features kept session)
    {start : Nat} (hstart : start ≤ kept.length) :
    ∃ session', session.setPosition start = .ok session' ∧
      CausalSession blocks batch features (kept.take start) session' ∧
      session'.numBlocks = session.numBlocks ∧ session'.maxLength = session.maxLength ∧
      session'.position = start ∧
      session'.serverSessions.length = session.serverSessions.length := by
  obtain ⟨sessions, hset⟩ : ∃ sessions,
      session.serverSessions.mapM (·.setPosition start) = .ok sessions :=
    exists_mapM_ok fun serverSession hmem => by
      obtain ⟨serverSession', hset, -⟩ := (h.standsBehind serverSession hmem).setPosition hstart
      exact ⟨serverSession', hset⟩
  have hspans : sessions.map ServerInferenceSession.span
      = session.serverSessions.map ServerInferenceSession.span :=
    map_eq_of_mapM (fun _ _ hset => (ServerInferenceSession.setPosition_fields hset).1) hset
  have hbehind : ∀ serverSession ∈ sessions,
      StandsBehind blocks batch features session.maxLength (kept.take start) serverSession := by
    intro serverSession hmem
    obtain ⟨before, hbefore, hset'⟩ := (mem_of_mapM hset).mp hmem
    obtain ⟨after, hafter, hbehind⟩ := (h.standsBehind before hbefore).setPosition hstart
    exact Except.ok.inj (hafter.symm.trans hset') ▸ hbehind
  refine ⟨{ session with position := start, serverSessions := sessions }, ?_,
    ⟨h.blocks_pos, ?_, ?_, ?_, ?_, hbehind⟩, rfl, rfl, rfl, ?_⟩
  · unfold InferenceSession.setPosition
    rw [hset]
    rfl
  · show start = _
    rw [List.length_take]
    omega
  · exact fun column hcolumn => h.shape column (List.mem_of_mem_take hcolumn)
  · rcases h.tiles with hnone | htiles
    · left
      rw [hnone] at hspans
      exact List.map_eq_nil_iff.mp hspans
    · right
      show Tiles 0 (sessions.map _) _
      rw [hspans]
      exact htiles
  · rintro rfl
    rw [List.map_nil] at hspans
    rw [h.unopened (List.map_eq_nil_iff.mp hspans.symm), List.take_nil]
  · have hlength := congrArg List.length hspans
    simpa using hlength

omit [LinearOrder κ] [Zero α] in
/-- A session with open server sessions needs no route. -/
theorem SwarmUp.of_length {σ : Type} {servers : InferenceServers σ κ α}
    {session session' : InferenceSession σ α} {attempts : List StepAttempt}
    (h : SwarmUp servers session attempts) (hne : session.serverSessions ≠ [])
    (hlength : session'.serverSessions.length = session.serverSessions.length) :
    SwarmUp servers session' attempts := by
  obtain ⟨attempt, rest, opened', rfl, hopened, hle⟩ := h.opens
  obtain ⟨rfl, -⟩ := Prod.mk.inj ((opened_of_ne_nil (by exact hne)).symm.trans hopened)
  have hne' : session'.serverSessions ≠ [] := by
    intro hnil
    rw [hnil] at hlength
    exact hne (List.length_eq_zero_iff.mp hlength.symm)
  exact ⟨h.quiet, h.finds, attempt, rest, _, rfl, opened_of_ne_nil hne', hlength ▸ hle⟩

end Sessions

/-- A block that passes its inputs on. -/
def lastBlocks : CausalBlocks Int where
  run _ columns := columns.getLast?.getD []
  shape_run _ columns hne h := by
    rw [List.getLast?_eq_some_getLast hne]
    exact h _ (List.getLast_mem hne)

theorem swarmUp_new {maxRetries : Option Nat} {maxLength : Nat} :
    SwarmUp (causalServers String lastBlocks) (.new _ _ 1 maxRetries maxLength) [echoAttempt] where
  quiet attempt hmem := by
    rw [List.mem_singleton.mp hmem]
    rfl
  finds attempt hmem := by
    rw [List.mem_singleton.mp hmem]
    exact echoAttempt_findsPaths
  opens := ⟨echoAttempt, [], _, rfl, rfl, Nat.le_refl 1⟩

end Drift
