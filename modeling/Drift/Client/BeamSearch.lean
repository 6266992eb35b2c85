/-
  Beam search over a swarm.

  A step may bring hypo ids: row `i` of the batch goes on with what row `ids[i]` has been so far.
  The client only passes the ids on; every server reorders the caches of its blocks before it looks
  at the new tokens.  A step without tokens reorders nothing.

  A server session `HoldsBeams` if the caches of its server hold what the blocks have made of the
  hypotheses, as they stand.  A step keeps this for the hypotheses that it goes on with
  (`HoldsBeams.step`), since the blocks treat every row by itself.

  So in every run of steps and rollbacks in which no request fails, each row gets what the model
  makes of its own hypothesis (`beams_compute`).
-/
import Drift.Client.Failover
import Drift.Client.ServedSwarm

namespace Drift

open Tensor

variable {κ α : Type} [LinearOrder κ] [Zero α]

/-! ## What is asked for, and what the model makes of it -/

/-- What a user does with a session: a step with the hypotheses that its rows go on with, or a
    rollback. -/
inductive BeamEvent (α : Type) where
  | step (inputs : Tensor α) (hypoIds : Option (List Int)) (attempts : List StepAttempt)
  | rollback (start : Nat)

/-- The session after an event, and the outputs of a step that does not raise. -/
def InferenceSession.performBeams {σ : Type} (servers : InferenceServers σ κ α)
    (session : InferenceSession σ α) :
    BeamEvent α → Option (InferenceSession σ α × Option (Tensor α))
  | .step inputs hypoIds attempts =>
    (session.step servers inputs none hypoIds none attempts).map fun r => (r.1, r.2.toOption)
  | .rollback start =>
    match session.setPosition start with
    | .error _ => none
    | .ok session => some (session, none)

/-- What the model returns, when the rows have been `kept` so far: a step chooses the rows that go
    on and puts the new tokens behind them. -/
def beamTrace (blocks : CausalBlocks α) (batch features numBlocks : Nat) :
    List (Column α) → List (BeamEvent α) → List (Option (Tensor α))
  | _, [] => []
  | kept, .step inputs hypoIds _ :: events =>
    let hypotheses := goingOnWith (hypoIds.getD []) inputs.columns kept
    some (ofColumns batch features
        ((layers blocks.run 0 numBlocks (hypotheses ++ inputs.columns)).drop kept.length)) ::
      beamTrace blocks batch features numBlocks (hypotheses ++ inputs.columns) events
  | kept, .rollback start :: events =>
    none :: beamTrace blocks batch features numBlocks (kept.take start) events

/-- The events of a run without failures, from a position on: a step fits, its ids are rows of the
    batch, and there are attempts enough, of which the first finds a route along `Hosted` spans if
    there is none yet.  A rollback does not go forwards. -/
def RunsThrough (batch features numBlocks maxLength : Nat) (Hosted : RemoteSpanInfo → Prop) :
    Nat → List (BeamEvent α) → Prop
  | _, [] => True
  | position, .step inputs hypoIds attempts :: events =>
    (∃ n, inputs.shape = [batch, n, features]) ∧ ValidIds batch (hypoIds.getD []) ∧
      position + inputs.shape.getD 1 0 ≤ maxLength ∧ InferenceSession.Quiet attempts ∧
      numBlocks ≤ attempts.length ∧
      (∀ attempt ∈ attempts, FindsPaths attempt ∧ HasRoutes numBlocks attempt ∧
        RoutesHosted Hosted attempt) ∧
      RunsThrough batch features numBlocks maxLength Hosted
        (position + inputs.shape.getD 1 0) events
  | position, .rollback start :: events =>
    start ≤ position ∧ RunsThrough batch features numBlocks maxLength Hosted start events

open ServerInferenceSession InferenceSession

/-! ## Hypotheses and blocks -/

section Hypotheses

variable {batch features : Nat} {ids : List Int} {new kept : List (Column α)}

omit [Zero α] in
/-- Of the new tokens only whether there are any counts. -/
theorem goingOnWith_congr {new' : List (Column α)} (h : new.length = new'.length) :
    goingOnWith ids new kept = goingOnWith ids new' kept := by
  have hnil : new = [] ↔ new' = [] := by
    rw [← List.length_eq_zero_iff, ← List.length_eq_zero_iff, h]
  simp only [goingOnWith, hnil]

omit [Zero α] in
/-- **What the blocks make of the hypotheses**: it does not matter where the rows are chosen. -/
theorem layers_goingOnWith (specs : Nat → CausalSpec α) (hids : ValidIds batch ids)
    (hkept : ∀ column ∈ kept, ColumnShape batch features column) (start stop : Nat) :
    layers (causalBlocks specs).run start stop (goingOnWith ids new kept)
      = goingOnWith ids new (layers (causalBlocks specs).run start stop kept) := by
  unfold goingOnWith
  split
  · rfl
  · refine layers_map _ (Q := fun columns => ∀ column ∈ columns, ColumnShape batch features column)
      (fun i columns h => ?_) (fun i columns h => ?_) start stop hkept
    · have hlayer := forall_layers (causalBlocks specs).run
        (fun i columns => (causalBlocks specs).shape_run i columns) i (i + 1) h
      have hone : layers (causalBlocks specs).run i (i + 1) columns
          = causalMap ((causalBlocks specs).run i) columns := by
        have hsucc := layers_succ (causalBlocks specs).run i 0 columns
        rw [Nat.add_zero] at hsucc
        rw [hsucc, layers_self]
      rw [hone] at hlayer
      exact hlayer
    · exact causalMap_selectRows (specs i) hids h

end Hypotheses

/-! ## One server session -/

variable {cfg : PoolConfig}

/-- The server session goes on with the hypotheses `kept`: if its stream is open, the caches hold
    what the blocks before and of its span have made of them.  It has seen step ids below
    `bound`. -/
structure HoldsBeams (specs : Nat → CausalSpec α) (batch features maxLength bound : Nat)
    (kept : List (Column α)) (session : ServerInferenceSession (HandlerState κ α cfg) α) :
    Prop where
  isOpen : session.closed = false
  position_eq : session.position = kept.length
  limit_eq : session.maxLength = maxLength
  hosts : HostsSpan specs batch features maxLength session.stream.server session.span
  history : ∀ history, session.history = some history →
    history.shape = [batch, kept.length, features]
  noHistory : session.history = none → kept = []
  unopened : session.stream.stream = none → session.stepped = false ∧ session.history = none
  opened : ∀ stream, session.stream.stream = some stream → session.stepped = true ∧
    ∃ fed, StreamReady specs batch features maxLength bound session.span fed stream ∧
      fed.take kept.length = layers (causalBlocks specs).run 0 session.span.start kept

section ServerSessions

variable {specs : Nat → CausalSpec α} {batch features maxLength bound : Nat}
  {kept new : List (Column α)} {session : ServerInferenceSession (HandlerState κ α cfg) α}

theorem holdsBeams_new {server : InferenceServer κ α cfg} {span : RemoteSpanInfo}
    (h : HostsSpan specs batch features maxLength server span) (uuid : Nat) :
    HoldsBeams specs batch features maxLength bound [] (.new span uuid maxLength ⟨server, none⟩) where
  isOpen := rfl
  position_eq := rfl
  limit_eq := rfl
  hosts := h
  history _ h := by cases h
  noHistory _ := rfl
  unopened _ := ⟨rfl, rfl⟩
  opened _ h := by cases h

theorem HoldsBeams.mono (h : HoldsBeams specs batch features maxLength bound kept session)
    {bound' : Nat} (hle : bound ≤ bound') :
    HoldsBeams specs batch features maxLength bound' kept session := by
  refine { h with opened := fun stream hstream => ?_ }
  obtain ⟨hstepped, fed, hready, hfed⟩ := h.opened stream hstream
  exact ⟨hstepped, fed, { hready with
    seen := fun stepId hmem => Nat.lt_of_lt_of_le (hready.seen stepId hmem) hle }, hfed⟩

/-- Back to a prefix. -/
theorem HoldsBeams.setPosition (h : HoldsBeams specs batch features maxLength bound kept session)
    {start : Nat} (hstart : start ≤ kept.length) :
    ∃ session', session.setPosition start = .ok session' ∧ session'.span = session.span ∧
      HoldsBeams specs batch features maxLength bound (kept.take start) session' := by
  have hlength : (kept.take start).length = start := by
    rw [List.length_take]
    omega
  unfold ServerInferenceSession.setPosition
  rw [if_pos (by rw [h.position_eq]; exact hstart)]
  refine ⟨_, rfl, rfl, h.isOpen, hlength.symm, h.limit_eq, h.hosts, ?_, ?_, ?_, ?_⟩
  · intro history hhistory
    obtain ⟨old, hold, hcut⟩ := Option.bind_eq_some_iff.mp hhistory
    have hshape := h.history old hold
    rw [if_pos (by rw [hshape]; exact hstart)] at hcut
    split at hcut
    · cases hcut
      rw [hlength]
      exact shape_slice_first hshape hstart
    · cases hcut
  · intro hnone
    cases hcase : session.history with
    | none => rw [h.noHistory hcase, List.take_nil]
    | some old =>
      have hshape := h.history old hcase
      simp only [hcase, Option.bind_some] at hnone
      rw [if_pos (by rw [hshape]; exact hstart)] at hnone
      split at hnone
      · cases hnone
      · rename_i hzero
        obtain rfl : start = 0 := by omega
        rfl
  · intro hnone
    obtain ⟨hstepped, hhistory⟩ := h.unopened hnone
    refine ⟨hstepped, ?_⟩
    show session.history.bind _ = none
    rw [hhistory]
    rfl
  · intro stream hstream
    obtain ⟨hstepped, fed, hready, hfed⟩ := h.opened stream hstream
    refine ⟨hstepped, fed, hready, ?_⟩
    rw [hlength, ← take_layers, ← hfed, List.take_take, Nat.min_eq_left hstart]

/-- What is sent are the inputs of the step, and they are put behind the history. -/
theorem HoldsBeams.prepare (h : HoldsBeams specs batch features maxLength bound kept session)
    {inputs : Tensor α} {n : Nat} (hshape : inputs.shape = [batch, n, features]) :
    ∃ history, session.prepare inputs = ({ session with history := some history }, .ok inputs) ∧
      history.shape = [batch, kept.length + n, features] := by
  have hextend : ∃ history, session.extendHistory inputs = .ok history ∧
      history.shape = [batch, kept.length + n, features] ∧
      (session.history = none → history = inputs) := by
    unfold ServerInferenceSession.extendHistory
    cases hcase : session.history with
    | none =>
      refine ⟨inputs, rfl, ?_, fun _ => rfl⟩
      rw [hshape, h.noHistory hcase, List.length_nil, Nat.zero_add]
    | some old =>
      have hold := h.history old hcase
      simp only
      rw [if_pos (by rw [hold, h.position_eq]; rfl), lastTokens_self rfl, catTokens,
        if_pos (by rw [hold, hshape]; rfl)]
      exact ⟨_, rfl, shape_cat_tokens hold hshape, fun hnone => by cases hnone⟩
  obtain ⟨history, hextend, hhistory, hfirst⟩ := hextend
  refine ⟨history, prepare_eq_ok.mpr ⟨history, h.isOpen, hextend, ?_, rfl, ?_⟩, hhistory⟩
  · rw [hhistory, h.position_eq, hshape]
    rfl
  · unfold sentTokens
    cases hstepped : session.stepped with
    | true => exact (lastTokens_self rfl).symm
    | false =>
      -- a session that has not stepped has no history
      refine (hfirst ?_).symm
      cases hstream : session.stream.stream with
      | none => exact (h.unopened hstream).2
      | some stream =>
        have hopened := (h.opened stream hstream).1
        rw [hstepped] at hopened
        cases hopened

/-- The stream that a step comes to: an open one, or a new one. -/
theorem HoldsBeams.handlerStream
    (h : HoldsBeams specs batch features maxLength bound kept session) {step : StepInputs κ α}
    (htokens : TokensOnly batch step) {sent : Tensor α} {m : Nat}
    (hsent : sent.shape = [batch, m, features]) :
    ∃ stream fed, Drift.handlerStream session.stream (session.stepRequest sent step) = .ok stream ∧
      StreamReady specs batch features maxLength bound session.span fed stream ∧
      fed.take kept.length = layers (causalBlocks specs).run 0 session.span.start kept := by
  unfold Drift.handlerStream
  cases hstream : session.stream.stream with
  | some stream =>
    obtain ⟨-, fed, hready, hfed⟩ := h.opened stream hstream
    exact ⟨stream, fed, rfl, hready, hfed⟩
  | none =>
    obtain ⟨hstepped, hhistory⟩ := h.unopened hstream
    obtain ⟨stream, hopen, hready⟩ : ∃ stream,
        openStream session.stream.server (session.stepRequest sent step) = .ok stream ∧
        StreamReady specs batch features maxLength bound session.span [] stream :=
      h.hosts.openStream rfl hstepped h.limit_eq htokens hsent
    refine ⟨stream, [], hopen, hready, ?_⟩
    rw [h.noHistory hhistory, layers_nil]
    rfl

variable [Add α]

/-- **A step of a server session**: the outputs of its span for the new tokens, behind the
    hypotheses that the rows go on with. -/
theorem HoldsBeams.step (h : HoldsBeams specs batch features maxLength bound kept session)
    (peers : Nat → Except PyExc (InferenceServer κ α cfg)) (hbatch : 0 < batch)
    {step : StepInputs κ α} (htokens : TokensOnly batch step) (hbound : bound ≤ step.stepId)
    (hkept : ∀ column ∈ kept, ColumnShape batch features column)
    (hnew : ∀ column ∈ new, ColumnShape batch features column)
    (hshape : step.inputs.shape = [batch, new.length, features])
    (hfits : kept.length + new.length ≤ maxLength)
    (hinputs : step.inputs.columns = (layers (causalBlocks specs).run 0 session.span.start
      (goingOnWith step.hypoIds new kept ++ new)).drop kept.length) :
    ∃ session' outputs,
      session.step (rpcServers peers) none step = (session', .ok (outputs, [])) ∧
      HoldsBeams specs batch features maxLength (step.stepId + 1)
        (goingOnWith step.hypoIds new kept ++ new) session' ∧
      session'.span = session.span ∧ outputs.shape = [batch, new.length, features] ∧
      outputs.columns = (layers (causalBlocks specs).run 0 session.span.stop
        (goingOnWith step.hypoIds new kept ++ new)).drop kept.length := by
  have hlt := h.hosts.lt
  have hgoing : (goingOnWith step.hypoIds new kept).length = kept.length := length_goingOnWith ..
  obtain ⟨history, hprepare, hhistory⟩ := h.prepare hshape
  obtain ⟨stream, fed, hstream, hready, hfed⟩ := h.handlerStream htokens hshape
  have hp : session.position ≤ fed.length := by
    have hlength := congrArg List.length hfed
    rw [List.length_take, length_layers] at hlength
    rw [h.position_eq]
    omega
  obtain ⟨served, stream', hserve, hresponse, hready'⟩ :=
    hready.serveNew hbatch hlt htokens hshape hbound hp
      (by rw [h.position_eq]; exact hfits)
  -- what the blocks of the span are fed
  have hnow : (goingOnWith step.hypoIds step.inputs.columns fed).take session.position ++
      step.inputs.columns = layers (causalBlocks specs).run 0 session.span.start
        (goingOnWith step.hypoIds new kept ++ new) := by
    have hcount : step.inputs.columns.length = new.length := by
      rw [length_columns, hshape]
      rfl
    rw [h.position_eq, goingOnWith_congr hcount, take_goingOnWith, hfed,
      ← layers_goingOnWith specs htokens.hypoIds hkept, hinputs, ← hgoing]
    exact (layers_append ..).symm
  rw [hnow] at hready'
  rw [hnow, layers_trans _ (Nat.zero_le _) (Nat.le_of_lt hlt), h.position_eq] at hresponse
  have hcolumns : ∀ column ∈ (layers (causalBlocks specs).run 0 session.span.stop
      (goingOnWith step.hypoIds new kept ++ new)).drop kept.length,
      ColumnShape batch features column := by
    intro column hmem
    refine forall_layers _ (fun i columns => (causalBlocks specs).shape_run i columns) 0 _ ?_ column
      (List.mem_of_mem_drop hmem)
    intro column hmem
    rcases List.mem_append.mp hmem with hold | hmem
    · exact shape_goingOnWith htokens.hypoIds hkept column hold
    · exact hnew column hmem
  have hlength : ((layers (causalBlocks specs).run 0 session.span.stop
      (goingOnWith step.hypoIds new kept ++ new)).drop kept.length).length = new.length := by
    rw [List.length_drop, length_layers, List.length_append, hgoing]
    omega
  have hfresh : stream.processed (session.stepRequest step.inputs step) = false := by
    rw [Bool.eq_false_iff]
    intro hprocessed
    have hmem : step.stepId ∈ stream.processedStepIds := by
      simpa [InferenceStream.processed, stepRequest] using hprocessed
    exact absurd (hready.seen _ hmem) (Nat.not_lt.mpr hbound)
  have hanswer : (rpcServers peers).answer session.stream (session.stepRequest step.inputs step)
      = .ok (served.response, ⟨session.stream.server, some stream'⟩) :=
    answer_eq_ok.mpr ⟨stream, served, stream', hstream, hfresh, hserve, rfl, rfl⟩
  have hout : (ofColumns batch features ((layers (causalBlocks specs).run 0 session.span.stop
      (goingOnWith step.hypoIds new kept ++ new)).drop kept.length)).shape
        = [batch, new.length, features] := by
    rw [shape_ofColumns, hlength]
  have hreceive : receive step.inputs served.response = .ok (ofColumns batch features
      ((layers (causalBlocks specs).run 0 session.span.stop
        (goingOnWith step.hypoIds new kept ++ new)).drop kept.length), []) := by
    rw [hresponse]
    unfold receive
    simp only
    rw [if_pos (hout.trans hshape.symm)]
    rfl
  refine ⟨_, _, step_eq_ok.mpr ⟨history, step.inputs, _, _, hprepare, hanswer, hreceive, rfl⟩, ?_,
    rfl, hout, columns_ofColumns hcolumns⟩
  have htotal : (goingOnWith step.hypoIds new kept ++ new).length = kept.length + new.length := by
    rw [List.length_append, hgoing]
  refine ⟨h.isOpen, ?_, h.limit_eq, h.hosts, ?_, (fun hnone => by cases hnone),
    (fun hnone => by cases hnone), ?_⟩
  · show session.position + step.inputs.shape.getD 1 0 = _
    rw [htotal, h.position_eq, hshape]
    rfl
  · rintro history' ⟨⟩
    rw [htotal]
    exact hhistory
  · rintro stream'' ⟨⟩
    refine ⟨rfl, _, hready', ?_⟩
    rw [take_layers, List.take_length]

end ServerSessions

/-! ## The server sessions of a route -/

/-- Arguments of a step of tokens. -/
structure TokenArgs (batch : Nat) (args : StepArgs α) : Prop where
  prompts : args.prompts.shape.getD 0 0 = 0
  hypoIds : ValidIds batch args.hypoIds
  perLayerInputs : isDummy args.perLayerInputs = true

omit [LinearOrder κ] in
theorem TokenArgs.spanInputs {batch : Nat} {args : StepArgs α} (h : TokenArgs batch args)
    (stepId : Nat) (span : RemoteSpanInfo) (inputs : Tensor α) :
    TokensOnly batch
      (InferenceSession.spanInputs args stepId span inputs (∅ : SharedKvStates κ α)) := by
  have hplain : PlainArgs { args with hypoIds := [] } := ⟨h.prompts, rfl, h.perLayerInputs⟩
  obtain ⟨hprompts, -, hperLayer, hshared⟩ := hplain.spanInputs (κ := κ) stepId span inputs
  exact ⟨hprompts, h.hypoIds, hperLayer, hshared⟩

omit [LinearOrder κ] [Zero α] in
/-- New server sessions along hosted spans. -/
theorem exists_enterServerSessions {σ : Type} {servers : InferenceServers σ κ α}
    {Hosted : RemoteSpanInfo → Prop} (maxLength : Nat)
    (hconnect : ∀ span, Hosted span → ∃ stream, servers.connect span = .ok stream) :
    ∀ {spans : List RemoteSpanInfo} (uuid : Nat), (∀ span ∈ spans, Hosted span) →
      ∃ sessions, enterServerSessions servers maxLength uuid spans = .ok sessions ∧
        sessions.map ServerInferenceSession.span = spans ∧
        ∀ serverSession ∈ sessions, ∃ span uuid stream, Hosted span ∧
          servers.connect span = .ok stream ∧ serverSession = .new span uuid maxLength stream := by
  intro spans
  induction spans with
  | nil => exact fun _ _ => ⟨[], rfl, rfl, (fun _ h => by cases h)⟩
  | cons span spans ih =>
    intro uuid hhosted
    obtain ⟨hspan, hrest⟩ := List.forall_mem_cons.mp hhosted
    obtain ⟨stream, hstream⟩ := hconnect span hspan
    obtain ⟨sessions, hsessions, hspans, hnew⟩ := ih (uuid + 1) hrest
    refine ⟨_, except_bind_eq_ok.mpr ⟨stream, hstream,
      except_bind_eq_ok.mpr ⟨sessions, hsessions, rfl⟩⟩, ?_, ?_⟩
    · rw [List.map_cons, hspans]
      rfl
    · intro serverSession hmem
      rcases List.mem_cons.mp hmem with rfl | hmem
      · exact ⟨span, uuid, stream, hspan, hstream, rfl⟩
      · exact hnew serverSession hmem

omit [LinearOrder κ] [Zero α] in
/-- The first attempt of a session opens server sessions along its route. -/
theorem opened_fresh {σ : Type} {servers : InferenceServers σ κ α}
    {Hosted : RemoteSpanInfo → Prop}
    (hconnect : ∀ span, Hosted span → ∃ stream, servers.connect span = .ok stream)
    (session : InferenceSession σ α) (hnone : session.serverSessions = [])
    (hblocks : 0 < session.numBlocks) {attempt : StepAttempt} (hfind : FindsPaths attempt)
    (hroutes : HasRoutes session.numBlocks attempt) (hhosted : RoutesHosted Hosted attempt) :
    ∃ sessions uuids,
      opened servers session attempt
        = ({ session with serverSessions := sessions, uuids := uuids }, none) ∧
      session.uuids ≤ uuids ∧
      Tiles 0 (sessions.map ServerInferenceSession.span) session.numBlocks ∧
      ∀ serverSession ∈ sessions, ∃ span uuid stream, Hosted span ∧
        servers.connect span = .ok stream ∧
        serverSession = .new span uuid session.maxLength stream := by
  obtain ⟨spans, hspans⟩ := hroutes 0 session.numBlocks hblocks (Nat.le_refl _)
  have htiles : Tiles 0 spans session.numBlocks := StepAttempt.makeSequence_tiles hfind hspans
  have htrim := trimLast_of_tiles htiles hblocks
  obtain ⟨sessions, henter, hmap, hnew⟩ := exists_enterServerSessions session.maxLength hconnect
    session.uuids (hhosted 0 session.numBlocks spans spans hspans htrim)
  have hinherit : inheritHistory (none : Option (ServerInferenceSession σ α)) sessions = sessions := by
    cases sessions <;> rfl
  have hupdated : updatedSessions servers session 0 0 attempt = .ok sessions := by
    unfold updatedSessions
    rw [hnone]
    refine except_bind_eq_ok.mpr ⟨spans, hspans, except_bind_eq_ok.mpr ⟨spans,
      orRaise_eq_ok.mpr htrim, except_bind_eq_ok.mpr ⟨sessions, henter, ?_⟩⟩⟩
    exact congrArg Except.ok hinherit
  refine ⟨sessions, session.uuids + sessions.length, ?_, Nat.le_add_right _ _, hmap ▸ htiles, hnew⟩
  unfold opened updateSequence
  rw [hnone, List.isEmpty_nil, if_pos rfl, hupdated]
  simp

variable [Add α]

/-- **A pass** through server sessions that go on with the hypotheses `kept`. -/
theorem runSpans_beams {specs : Nat → CausalSpec α} {batch features maxLength bound : Nat}
    (peers : Nat → Except PyExc (InferenceServer κ α cfg)) (hbatch : 0 < batch)
    (args : StepArgs α) (hargs : TokenArgs batch args) {stepId : Nat} (hbound : bound ≤ stepId)
    {kept new : List (Column α)} (hkept : ∀ column ∈ kept, ColumnShape batch features column)
    (hnew : ∀ column ∈ new, ColumnShape batch features column)
    (hfits : kept.length + new.length ≤ maxLength) :
    ∀ {todo : List (ServerInferenceSession (HandlerState κ α cfg) α)} {lo hi : Nat}
      {inputs : Tensor α},
      (∀ serverSession ∈ todo,
        HoldsBeams specs batch features maxLength bound kept serverSession) →
      Tiles lo (todo.map ServerInferenceSession.span) hi →
      inputs.shape = [batch, new.length, features] →
      inputs.columns = (layers (causalBlocks specs).run 0 lo
        (goingOnWith args.hypoIds new kept ++ new)).drop kept.length →
      ∃ sessions outputs,
        runSpans (rpcServers peers) args stepId kept.length todo inputs ∅
          = .ok (sessions, outputs, ∅) ∧
        (∀ serverSession ∈ sessions, HoldsBeams specs batch features maxLength (stepId + 1)
          (goingOnWith args.hypoIds new kept ++ new) serverSession) ∧
        sessions.map ServerInferenceSession.span = todo.map ServerInferenceSession.span ∧
        outputs.shape = [batch, new.length, features] ∧
        outputs.columns = (layers (causalBlocks specs).run 0 hi
          (goingOnWith args.hypoIds new kept ++ new)).drop kept.length := by
  intro todo
  induction todo with
  | nil =>
    rintro lo hi inputs - htiles hshape hinputs
    obtain rfl : lo = hi := htiles
    exact ⟨[], inputs, rfl, (fun _ h => by cases h), rfl, hshape, hinputs⟩
  | cons serverSession rest ih =>
    intro lo hi inputs hall htiles hshape hinputs
    obtain ⟨rfl, -, htiles⟩ := htiles
    have hfirst := hall serverSession List.mem_cons_self
    obtain ⟨serverSession', mid, hstep, hholds, hspan, hmid, hcolumns⟩ :=
      hfirst.step peers hbatch (hargs.spanInputs stepId serverSession.span inputs) hbound hkept hnew
        hshape hfits hinputs
    obtain ⟨sessions, outputs, hrun, hrest, hspans, hout⟩ :=
      ih (fun s hs => hall s (List.mem_cons_of_mem _ hs)) htiles hmid hcolumns
    refine ⟨serverSession' :: sessions, outputs, ?_, ?_, ?_, hout⟩
    · refine (runSpans_cons_eq_ok (rpcServers peers) args stepId).mpr ?_
      exact ⟨serverSession', mid, [], sessions, hfirst.position_eq, hstep, hrun, rfl⟩
    · intro s hs
      rcases List.mem_cons.mp hs with rfl | hs
      · exact hholds
      · exact hrest s hs
    · rw [List.map_cons, List.map_cons, hspan, hspans]

/-! ## The session -/

/-- The session goes on with the hypotheses `kept`. -/
structure BeamSession (specs : Nat → CausalSpec α) (batch features : Nat) (kept : List (Column α))
    (session : InferenceSession (HandlerState κ α cfg) α) : Prop where
  blocks_pos : 0 < session.numBlocks
  position_eq : session.position = kept.length
  shape : ∀ column ∈ kept, ColumnShape batch features column
  tiles : session.serverSessions = [] ∨
    Tiles 0 (session.serverSessions.map ServerInferenceSession.span) session.numBlocks
  unopened : session.serverSessions = [] → kept = []
  holds : ∀ serverSession ∈ session.serverSessions,
    HoldsBeams specs batch features session.maxLength session.uuids kept serverSession

section Sessions

variable {specs : Nat → CausalSpec α} {batch features n : Nat} {kept : List (Column α)}
  {session : InferenceSession (HandlerState κ α cfg) α}
  {peers : Nat → Except PyExc (InferenceServer κ α cfg)}

/-- What the first attempt of a step finds: server sessions that go on with the hypotheses. -/
theorem BeamSession.opened (h : BeamSession specs batch features kept session)
    {attempt : StepAttempt} (hfind : FindsPaths attempt)
    (hroutes : HasRoutes session.numBlocks attempt)
    (hhosted : RoutesHosted (Reachable peers specs batch features session.maxLength) attempt) :
    ∃ sessions uuids,
      InferenceSession.opened (rpcServers peers) { session with uuids := session.uuids + 1 } attempt
        = ({ session with serverSessions := sessions, uuids := uuids }, none) ∧
      session.uuids < uuids ∧
      Tiles 0 (sessions.map ServerInferenceSession.span) session.numBlocks ∧
      ∀ serverSession ∈ sessions,
        HoldsBeams specs batch features session.maxLength session.uuids kept serverSession := by
  by_cases hnone : session.serverSessions = []
  · have hconnect : ∀ span, Reachable peers specs batch features session.maxLength span →
        ∃ stream, (rpcServers peers).connect span = .ok stream := by
      rintro span ⟨server, hpeer, -⟩
      refine ⟨⟨server, none⟩, ?_⟩
      show (peers span.peerId).map _ = _
      rw [hpeer]
      rfl
    obtain ⟨sessions, uuids, hopened, hle, htiles, hnew⟩ := opened_fresh hconnect
      { session with uuids := session.uuids + 1 } hnone h.blocks_pos hfind hroutes
      hhosted
    refine ⟨sessions, uuids, hopened, hle, htiles, fun serverSession hmem => ?_⟩
    obtain ⟨span, uuid, stream, ⟨server, hpeer, hhosts⟩, hstream, rfl⟩ := hnew serverSession hmem
    have hsame : (peers span.peerId).map (fun server => (⟨server, none⟩ : HandlerState κ α cfg))
        = .ok stream := hstream
    rw [hpeer] at hsame
    cases hsame
    rw [h.unopened hnone]
    exact holdsBeams_new hhosts uuid
  · exact ⟨session.serverSessions, session.uuids + 1, opened_of_ne_nil hnone, Nat.lt_succ_self _,
      h.tiles.resolve_left hnone, h.holds⟩

/-- **A step** returns what the model makes of the hypotheses that the rows go on with. -/
theorem BeamSession.step (h : BeamSession specs batch features kept session) (hbatch : 0 < batch)
    {inputs : Tensor α} {hypoIds : Option (List Int)} {attempts : List StepAttempt}
    (hshape : inputs.shape = [batch, n, features]) (hids : ValidIds batch (hypoIds.getD []))
    (hfits : kept.length + n ≤ session.maxLength) (hquiet : Quiet attempts)
    (hlength : session.numBlocks ≤ attempts.length)
    (hattempts : ∀ attempt ∈ attempts, FindsPaths attempt ∧ HasRoutes session.numBlocks attempt ∧
      RoutesHosted (Reachable peers specs batch features session.maxLength) attempt) :
    ∃ session', session.step (rpcServers peers) inputs none hypoIds none attempts
        = some (session', .ok (ofColumns batch features
          ((layers (causalBlocks specs).run 0 session.numBlocks
            (goingOnWith (hypoIds.getD []) inputs.columns kept ++ inputs.columns)).drop
              kept.length))) ∧
      BeamSession specs batch features
        (goingOnWith (hypoIds.getD []) inputs.columns kept ++ inputs.columns) session' ∧
      session'.numBlocks = session.numBlocks ∧ session'.maxLength = session.maxLength := by
  have hn : inputs.columns.length = n := by
    rw [length_columns, hshape]
    rfl
  have hgetD : inputs.shape.getD 1 0 = n := by
    rw [hshape]
    rfl
  have hcheckIds : checkHypoIds inputs hypoIds = .ok (hypoIds.getD []) := by
    cases hypoIds with
    | none => rfl
    | some ids =>
      rw [checkHypoIds, if_pos]
      · rfl
      · rw [hshape]
        exact hids.imp_right And.left
  have hcheck : session.checkStep inputs none hypoIds none
      = .ok ⟨inputs, dummy, hypoIds.getD [], dummy⟩ := by
    unfold checkStep
    rw [hcheckIds]
    show (if session.maxLength < session.position + inputs.shape.getD 1 0 then _ else _) = _
    rw [if_neg (by rw [h.position_eq, hgetD]; omega)]
  rw [step_of_checkStep hcheck]
  have hpos := h.blocks_pos
  obtain ⟨attempt, rest, rfl⟩ := List.exists_cons_of_length_pos (Nat.lt_of_lt_of_le hpos hlength)
  obtain ⟨hfind, hroutes, hhosted⟩ := hattempts attempt List.mem_cons_self
  obtain ⟨sessions, uuids, hopened, huuids, htiles, hholds⟩ := h.opened hfind hroutes hhosted
  have hnew : ∀ column ∈ inputs.columns, ColumnShape batch features column :=
    columnShape_columns hshape
  have hgoing : (goingOnWith (hypoIds.getD []) inputs.columns kept).length = kept.length :=
    length_goingOnWith ..
  obtain ⟨sessions', outputs, hrun, hholds', hspans, hout, hcolumns⟩ :=
    runSpans_beams peers hbatch ⟨inputs, dummy, hypoIds.getD [], dummy⟩ ⟨rfl, hids, rfl⟩
      (Nat.le_refl session.uuids) h.shape hnew (by rw [hn]; exact hfits) hholds htiles
      (by rw [hn]; exact hshape) (by rw [layers_self, ← hgoing, List.drop_left])
  rw [hn] at hout
  have hsessions : sessions.length ≤ (attempt :: rest).length := by
    have hle := htiles.length_le
    rw [List.length_map] at hle
    omega
  have hanswered : Answered (rpcServers peers) ⟨inputs, dummy, hypoIds.getD [], dummy⟩ session
      (attempt :: rest) { session with serverSessions := sessions, uuids := uuids }
      (sessions', outputs, ∅) :=
    ⟨hquiet, hsessions, ⟨attempt, rest, rfl, hopened⟩, by rw [h.position_eq]; exact hrun⟩
  have hstep := runStep_of_answered hpos (fun a ha => (hattempts a ha).1) h.tiles hanswered
  rw [lastTokens_self (by rw [hout, hgetD]; rfl)] at hstep
  have houtputs : outputs = ofColumns batch features ((layers (causalBlocks specs).run 0
      session.numBlocks (goingOnWith (hypoIds.getD []) inputs.columns kept ++
        inputs.columns)).drop kept.length) := by
    refine columns_inj hout ?_ ?_
    · rw [shape_ofColumns, ← hcolumns, length_columns, hout]
      rfl
    · rw [← hcolumns, columns_ofColumns (columnShape_columns hout)]
  rw [← houtputs]
  refine ⟨_, hstep, ⟨hpos, ?_, ?_, .inr ?_, fun hnil => ?_, ?_⟩, rfl, rfl⟩
  · show session.position + inputs.shape.getD 1 0 = _
    rw [List.length_append, hgoing, length_columns, h.position_eq]
  · intro column hmem
    rcases List.mem_append.mp hmem with hold | hmem
    · exact shape_goingOnWith hids h.shape column hold
    · exact hnew column hmem
  · show Tiles 0 (sessions'.map _) _
    rw [hspans]
    exact htiles
  · have hnone : sessions' = [] := hnil
    rw [hnone, List.map_nil] at hspans
    rw [← hspans] at htiles
    exact absurd htiles (Nat.ne_of_lt hpos)
  · exact fun serverSession hmem => (hholds' serverSession hmem).mono huuids

omit [Add α] in
/-- **A rollback** takes the session back to a prefix. -/
theorem BeamSession.setPosition (h : BeamSession specs batch features kept session) {start : Nat}
    (hstart : start ≤ kept.length) :
    ∃ session', session.setPosition start = .ok session' ∧
      BeamSession specs batch features (kept.take start) session' ∧
      session'.numBlocks = session.numBlocks ∧ session'.maxLength = session.maxLength := by
  obtain ⟨sessions, hset⟩ : ∃ sessions,
      session.serverSessions.mapM (·.setPosition start) = .ok sessions :=
    exists_mapM_ok fun serverSession hmem => by
      obtain ⟨serverSession', hset, -⟩ := (h.holds serverSession hmem).setPosition hstart
      exact ⟨serverSession', hset⟩
  have hspans : sessions.map ServerInferenceSession.span
      = session.serverSessions.map ServerInferenceSession.span :=
    map_eq_of_mapM (fun _ _ hset => (ServerInferenceSession.setPosition_fields hset).1) hset
  refine ⟨{ session with position := start, serverSessions := sessions }, ?_,
    ⟨h.blocks_pos, ?_, ?_, ?_, ?_, ?_⟩, rfl, rfl⟩
  · unfold InferenceSession.setPosition
    rw [hset]
    rfl
  · show start = _
    rw [List.length_take]
    omega
  · exact fun column hmem => h.shape column (List.mem_of_mem_take hmem)
  · refine h.tiles.imp (fun hnone => ?_) fun htiles => ?_
    · rw [hnone] at hspans
      exact List.map_eq_nil_iff.mp hspans
    · show Tiles 0 (sessions.map _) _
      rw [hspans]
      exact htiles
  · rintro rfl
    rw [List.map_nil] at hspans
    rw [h.unopened (List.map_eq_nil_iff.mp hspans.symm), List.take_nil]
  · intro serverSession hmem
    obtain ⟨before, hbefore, hset'⟩ := (mem_of_mapM hset).mp hmem
    obtain ⟨after, hafter, -, hholds⟩ := (h.holds before hbefore).setPosition hstart
    exact Except.ok.inj (hafter.symm.trans hset') ▸ hholds

/-! ## Runs -/

theorem trace_beams {numBlocks maxLength : Nat} (hbatch : 0 < batch) :
    ∀ {events : List (BeamEvent α)} {kept : List (Column α)}
      {session : InferenceSession (HandlerState κ α cfg) α},
      BeamSession specs batch features kept session → session.numBlocks = numBlocks →
      session.maxLength = maxLength →
      RunsThrough batch features numBlocks maxLength
        (Reachable peers specs batch features maxLength) kept.length events →
      trace (InferenceSession.performBeams (rpcServers peers)) session events
        = beamTrace (causalBlocks specs) batch features numBlocks kept events := by
  intro events
  induction events with
  | nil => exact fun _ _ _ _ => rfl
  | cons event events ih =>
    intro kept session hsession hnum hmax hruns
    cases event with
    | step inputs hypoIds attempts =>
      obtain ⟨⟨n, hshape⟩, hids, hfits, hquiet, hlength, hattempts, hruns⟩ := hruns
      have hn : inputs.shape.getD 1 0 = n := by
        rw [hshape]
        rfl
      subst hnum hmax
      obtain ⟨session', hstep, hsession', hnum', hmax'⟩ :=
        hsession.step hbatch hshape hids (hn ▸ hfits) hquiet hlength hattempts
      have hlength' : (goingOnWith (hypoIds.getD []) inputs.columns kept ++ inputs.columns).length
          = kept.length + inputs.shape.getD 1 0 := by
        rw [List.length_append, length_goingOnWith, length_columns]
      rw [trace, beamTrace, InferenceSession.performBeams, hstep]
      refine congrArg (some _ :: ·) (ih hsession' hnum' hmax' ?_)
      rw [hlength']
      exact hruns
    | rollback start =>
      obtain ⟨hstart, hruns⟩ := hruns
      obtain ⟨session', hset, hsession', hnum', hmax'⟩ := hsession.setPosition hstart
      have hlength : (kept.take start).length = start := by
        rw [List.length_take, Nat.min_eq_left hstart]
      rw [trace, beamTrace, InferenceSession.performBeams, hset]
      refine congrArg (none :: ·) (ih hsession' (hnum'.trans hnum) (hmax'.trans hmax) ?_)
      rw [hlength]
      exact hruns

end Sessions

/-- **Beam search over a swarm**: in every run of steps with hypo ids and rollbacks in which no
    request fails, each step returns what all blocks make of the hypotheses that its rows go on with
    and the new tokens, at the positions of these. -/
theorem beams_compute (peers : Nat → Except PyExc (InferenceServer κ α cfg))
    (specs : Nat → CausalSpec α) (batch features maxLength numBlocks : Nat)
    (maxRetries : Option Nat) (events : List (BeamEvent α)) (hbatch : 0 < batch)
    (hblocks : 0 < numBlocks)
    (hruns : RunsThrough batch features numBlocks maxLength
      (Reachable peers specs batch features maxLength) 0 events) :
    trace (InferenceSession.performBeams (rpcServers peers))
        (.new (HandlerState κ α cfg) α numBlocks maxRetries maxLength) events
      = beamTrace (causalBlocks specs) batch features numBlocks [] events := by
  refine trace_beams hbatch ⟨hblocks, rfl, ?_, .inl rfl, fun _ => rfl, ?_⟩ rfl rfl hruns
  · exact fun _ h => by cases h
  · exact fun _ h => by cases h

/-- Two rows; both go on with the second one; back to its first token, and on with new ones. -/
def beamEvents : List (BeamEvent Int) :=
  [.step (Tensor.ofFn [2, 1, 1] fun ix => 7 + ix.getD 0 0) none [echoAttempt],
    .step (Tensor.ofFn [2, 1, 1] fun _ => 1) (some [1, 1]) [echoAttempt], .rollback 1,
    .step (Tensor.ofFn [2, 1, 1] fun _ => 2) (some [0, 1]) [echoAttempt]]

theorem beamEvents_runThrough : RunsThrough 2 1 1 4
    (Reachable (fun _ => .ok firstTokenPeer) (fun _ => FirstToken.spec) 2 1 4) 0 beamEvents := by
  have hquiet : Quiet [echoAttempt] := by
    intro attempt hmem
    rw [List.mem_singleton.mp hmem]
    rfl
  have hattempts : ∀ attempt ∈ [echoAttempt], FindsPaths attempt ∧ HasRoutes 1 attempt ∧
      RoutesHosted (Reachable (fun _ => .ok firstTokenPeer) (fun _ => FirstToken.spec) 2 1 4)
        attempt := by
    intro attempt hmem
    rw [List.mem_singleton.mp hmem]
    refine ⟨echoAttempt_findsPaths, ?_, routesHosted_echo (by decide) rfl rfl⟩
    intro startIndex endIndex hlt hle
    obtain rfl : startIndex = 0 := by omega
    obtain rfl : endIndex = 1 := by omega
    exact ⟨_, rfl⟩
  refine ⟨⟨1, rfl⟩, by decide, by decide, hquiet, by decide, hattempts, ⟨1, rfl⟩, by decide,
    by decide, hquiet, by decide, hattempts, by decide, ⟨1, rfl⟩, by decide, by decide, hquiet,
    by decide, hattempts, trivial⟩

theorem beams_compute_two :
    trace (InferenceSession.performBeams (rpcServers fun _ => .ok firstTokenPeer))
        (.new _ Int 1 (some 3) 4) beamEvents
      = beamTrace (causalBlocks fun _ => FirstToken.spec) 2 1 1 [] beamEvents :=
  beams_compute (fun _ => .ok firstTokenPeer) (fun _ => FirstToken.spec) 2 1 4 1 (some 3) beamEvents
    (by decide) Nat.one_pos beamEvents_runThrough

end Drift
