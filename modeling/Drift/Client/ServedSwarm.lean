/-
  The servers of a swarm compute causal functions of the tokens that they are fed.

  `causalServers` is what a server with attention caches is for its clients.  `rpcServers` are the
  handlers: they open a stream with its first request, allocate caches, unpack every request, run
  the blocks over the caches and skip the steps that they have served.  A handler `Backs` a causal
  stream if its caches hold what the blocks have made of the tokens of that stream.

  Then the handlers simulate the causal servers (`rpcServers_simulates`), and a session shows the
  same with both (`session_refines`).
-/
import Drift.Client.CausalSwarm
import Drift.Client.SwarmSimulation
import Drift.Server.SpanServing

namespace Drift

open ServerInferenceSession Tensor

variable {κ α : Type} [LinearOrder κ] [Zero α]

/-- The blocks that these specifications describe. -/
def causalBlocks (specs : Nat → CausalSpec α) : CausalBlocks α where
  run block := (specs block).run
  shape_run block _ hne h := (specs block).shape_run hne h

variable {cfg : PoolConfig}

/-! ## Servers and streams -/

/-- A server that hosts a span: the blocks that are specified, with room for `batch` rows of
    `maxLength` tokens.  What is allocated are caches of the right sizes, with any contents. -/
structure HostsSpan (specs : Nat → CausalSpec α) (batch features maxLength : Nat)
    (server : InferenceServer κ α cfg) (span : RemoteSpanInfo) : Prop where
  lt : span.start < span.stop
  length : maxLength ≤ server.inferenceMaxLength
  size : batch * maxLength ≤ server.maxBatchSize
  blocks : ∃ backends handles cacheTensors,
    requestedBackends server span.start span.stop = .ok backends ∧
    CausalBackends specs features span.start backends ∧
    server.allocateCache backends batch maxLength = .ok (handles, .contiguous cacheTensors) ∧
    handles.length = backends.length ∧ handles.Nodup ∧
    SpanHolds specs batch maxLength 0 cacheTensors span.start [] handles

/-- The handler's end of an open stream holds what the blocks have made of the tokens that it was
    fed. -/
structure StreamReady (specs : Nat → CausalSpec α) (batch features maxLength bound : Nat)
    (span : RemoteSpanInfo) (fed : List (Column α)) (stream : InferenceStream κ α cfg) : Prop where
  ready : SpanReady specs batch features span.start stream.span fed stream.store
  stop : span.start + stream.span.blocks.length = span.stop
  maxLength_eq : stream.span.maxLength = maxLength
  position : stream.prefixLength = fed.length
  structure_eq : stream.firstRequest.metadata.argsStructure = some (List.range 3)
  seen : ∀ stepId ∈ stream.processedStepIds, stepId < bound

/-- The handler backs a causal stream: it is not open yet, or ready. -/
structure Backs (specs : Nat → CausalSpec α) (batch features maxLength : Nat)
    (span : RemoteSpanInfo) (bound : Nat) (handler : HandlerState κ α cfg)
    (stream : CausalStream α) : Prop where
  hosts : HostsSpan specs batch features maxLength handler.server span
  span_eq : stream.span = span
  unopened : handler.stream = none → stream.maxLength = none ∧ stream.fed = []
  opened : ∀ s, handler.stream = some s → stream.maxLength = some maxLength ∧
    StreamReady specs batch features maxLength bound span stream.fed s

/-! ## Requests -/

section Requests

variable {σ : Type} {session : ServerInferenceSession σ α} {sent : Tensor α} {step : StepInputs κ α}

/-- A step of tokens, with hypo ids for the rows of a batch or without. -/
structure TokensOnly (batch : Nat) (step : StepInputs κ α) : Prop where
  prompts : step.prompts.shape.getD 0 0 = 0
  hypoIds : ValidIds batch step.hypoIds
  perLayerInputs : isDummy step.perLayerInputs = true
  shared : step.sharedKvStates = ∅

omit [LinearOrder κ] [Zero α] in
theorem PlainStep.tokensOnly (h : PlainStep step) (batch : Nat) : TokensOnly batch step :=
  ⟨h.prompts, .inl h.hypoIds, h.perLayerInputs, h.shared⟩

/-- What the server makes of a step of tokens. -/
theorem TokensOnly.parseArgs {batch : Nat} (htokens : TokensOnly batch step) (sent : Tensor α)
    (metadata : RequestMetadata κ) :
    ∃ parsed, Drift.parseArgs metadata (stepArgs sent step) = .ok parsed ∧
      parsed.hiddenStates = sent ∧ parsed.prompts = [] ∧ parsed.hypoIds = step.hypoIds ∧
      parsed.perLayerInputs = [] ∧ parsed.sharedKvKeys = metadata.sharedKvKeys ∧
      parsed.startFromPosition = metadata.startFromPosition := by
  have hextra : extraTensors step = [] := by
    rw [extraTensors, htokens.perLayerInputs, htokens.shared]
    rfl
  have hprompts : step.prompts.splitFirst = [] := by
    rw [Tensor.splitFirst, htokens.prompts]
    rfl
  rw [stepArgs, hextra]
  exact ⟨_, rfl, rfl, hprompts, rfl, rfl, rfl, rfl⟩

omit [LinearOrder κ] [Zero α] in
theorem TokensOnly.numExtraTensors_eq {batch : Nat} (htokens : TokensOnly batch step) :
    numExtraTensors step = 0 := by
  rw [numExtraTensors, htokens.perLayerInputs, htokens.shared]
  rfl

/-- The arguments of a request, if there are no others in the first one of its stream. -/
theorem TokensOnly.obtainRequest {batch m features : Nat} (htokens : TokensOnly batch step)
    (session : ServerInferenceSession σ α) {stream : InferenceStream κ α cfg}
    (hstructure : stream.firstRequest.metadata.argsStructure = some (List.range 3))
    (hsent : sent.shape = [batch, m, features]) :
    ∃ parsed, Drift.obtainRequest stream (session.stepRequest sent step) = .ok parsed ∧
      parsed.hiddenStates = sent ∧ parsed.hypoIds = step.hypoIds ∧
      TokenRequest batch m features session.position parsed := by
  obtain ⟨parsed, hparsed, hhidden, hprompts, hids, hinputs, hkeys, hstart⟩ :=
    htokens.parseArgs sent (session.stepRequest sent step).metadata
  refine ⟨parsed, ?_, hhidden, hids, hhidden ▸ hsent, hprompts, hids ▸ htokens.hypoIds, hinputs, ?_,
    hstart⟩
  · unfold Drift.obtainRequest
    rw [hstructure, stepRequest_tensors]
    refine except_bind_eq_ok.mpr ⟨_, ?_, hparsed⟩
    exact (unpackArgs_range_iff _ 3).mpr (by rw [length_stepArgs, htokens.numExtraTensors_eq])
  · rw [hkeys]
    show (flattenSharedKv step.sharedKvStates).1 = []
    rw [htokens.shared]
    rfl

end Requests

/-! ## Answers -/

section Answers

variable {specs : Nat → CausalSpec α} {batch features maxLength bound m limit : Nat}
  {span : RemoteSpanInfo} {σ : Type} {session : ServerInferenceSession σ α} {sent : Tensor α}
  {step : StepInputs κ α} {stream : CausalStream α}

/-- What a causal stream makes of a step. -/
theorem causal_answer (blocks : CausalBlocks α) (hplain : PlainStep step)
    (hsent : sent.shape = [batch, m, features])
    (hlimit : (stream.maxLength <|> (session.stepRequest sent step).metadata.maxLength)
      = some limit) (hp : session.position ≤ stream.fed.length)
    (hend : session.position + m ≤ limit) :
    stream.answer blocks (session.stepRequest sent step) =
      .ok (⟨[ofColumns batch features ((layers blocks.run stream.span.start stream.span.stop
          (stream.fed.take session.position ++ sent.columns)).drop session.position)], []⟩,
        { stream with
          maxLength := some limit
          fed := stream.fed.take session.position ++ sent.columns }) := by
  obtain ⟨parsed, hparsed, hhidden, -, -, -, -, hstart⟩ :=
    (hplain.tokensOnly batch).parseArgs sent (session.stepRequest sent step).metadata
  have hposition : startPosition stream.fed.length parsed = .ok (session.position : Int) :=
    startPosition_of_le hstart (by exact_mod_cast hp)
  have hincrement : parsed.lengthIncrement = m := by
    rw [InferenceRequest.lengthIncrement, hhidden, hsent]
    rfl
  have hbatch : parsed.batchSize = batch := by
    rw [InferenceRequest.batchSize, hhidden, hsent]
    rfl
  have hfeatures : parsed.hiddenStates.shape.getD 2 0 = features := by
    rw [hhidden, hsent]
    rfl
  unfold CausalStream.answer
  rw [stepRequest_tensors]
  refine except_bind_eq_ok.mpr ⟨parsed, hparsed, ?_⟩
  refine except_bind_eq_ok.mpr ⟨_, hposition, ?_⟩
  refine except_bind_eq_ok.mpr ⟨limit, by rw [hlimit]; rfl, ?_⟩
  rw [if_neg (by rw [hincrement]; omega), Int.toNat_natCast, hbatch, hfeatures, hhidden]

/-- A step that is not answered. -/
theorem causal_answer_error (blocks : CausalBlocks α) (hplain : PlainStep step)
    (hsent : sent.shape = [batch, m, features])
    (hbad : (stream.maxLength <|> (session.stepRequest sent step).metadata.maxLength) = none ∨
      ∃ limit, (stream.maxLength <|> (session.stepRequest sent step).metadata.maxLength)
        = some limit ∧ ¬ (session.position ≤ stream.fed.length ∧ session.position + m ≤ limit)) :
    ∃ exc, stream.answer blocks (session.stepRequest sent step) = .error exc := by
  obtain ⟨parsed, hparsed, hhidden, -, -, -, -, hstart⟩ :=
    (hplain.tokensOnly batch).parseArgs sent (session.stepRequest sent step).metadata
  have hincrement : parsed.lengthIncrement = m := by
    rw [InferenceRequest.lengthIncrement, hhidden, hsent]
    rfl
  cases hanswer : stream.answer blocks (session.stepRequest sent step) with
  | error exc => exact ⟨exc, rfl⟩
  | ok result =>
    exfalso
    unfold CausalStream.answer at hanswer
    rw [stepRequest_tensors] at hanswer
    obtain ⟨parsed', hparsed', hanswer⟩ := except_bind_eq_ok.mp hanswer
    obtain rfl := Except.ok.inj (hparsed.symm.trans hparsed')
    obtain ⟨start, hposition, hanswer⟩ := except_bind_eq_ok.mp hanswer
    obtain ⟨limit, hlimit, hanswer⟩ := except_bind_eq_ok.mp hanswer
    have hpos : parsed.startFromPosition = some (session.position : Int) := hstart
    rw [startPosition, hpos] at hposition
    simp only at hposition
    split at hposition
    · rename_i hle
      cases hposition
      rw [orRaise_eq_ok] at hlimit
      split at hanswer
      · cases hanswer
      · rename_i hfits
        rcases hbad with hnone | ⟨limit', hlimit', hbad⟩
        · rw [hnone] at hlimit
          cases hlimit
        · obtain rfl := Option.some.inj (hlimit.symm.trans hlimit')
          rw [hincrement] at hfits
          exact hbad ⟨by exact_mod_cast hle, by exact_mod_cast (not_lt.mp hfits)⟩
    · cases hposition

theorem SpanReady.features_pos {start : Nat} {inferenceSpan : InferenceSpan κ α}
    {fed : List (Column α)} {store : KVStore α cfg}
    (h : SpanReady specs batch features start inferenceSpan fed store)
    (hlength : 0 < inferenceSpan.blocks.length) : 0 < features := by
  have hbackends := h.backends
  obtain ⟨first, rest, hblocks⟩ := List.exists_cons_of_ne_nil (List.ne_nil_of_length_pos hlength)
  rw [hblocks] at hbackends
  obtain ⟨-, rfl, -⟩ := hbackends
  exact (specs start).hiddenSize_pos

variable [Add α] {fed : List (Column α)} {s : InferenceStream κ α cfg}

/-- **What the handler makes of a step** that its caches have room for. -/
theorem StreamReady.serveNew (h : StreamReady specs batch features maxLength bound span fed s)
    (hbatch : 0 < batch) (hlt : span.start < span.stop) (htokens : TokensOnly batch step)
    (hsent : sent.shape = [batch, m, features]) (hbound : bound ≤ step.stepId)
    (hp : session.position ≤ fed.length) (hend : session.position + m ≤ maxLength) :
    ∃ served s', Drift.serveNew s (session.stepRequest sent step) = .ok (served, s') ∧
      served.response = ⟨[ofColumns batch features ((layers (causalBlocks specs).run span.start
        span.stop ((goingOnWith step.hypoIds sent.columns fed).take session.position ++
          sent.columns)).drop session.position)], []⟩ ∧
      StreamReady specs batch features maxLength (step.stepId + 1) span
        ((goingOnWith step.hypoIds sent.columns fed).take session.position ++ sent.columns) s' := by
  obtain ⟨parsed, hparsed, hhidden, hids, hrequest⟩ :=
    htokens.obtainRequest session h.structure_eq hsent
  have hlength : ((goingOnWith step.hypoIds sent.columns fed).take session.position ++
      sent.columns).length = session.position + m := by
    rw [List.length_append, List.length_take, length_goingOnWith, length_columns, hsent]
    show min session.position fed.length + m = _
    omega
  obtain ⟨response, store', hturn, hkeys, htensors, hout, hready⟩ :=
    iterateRpcInference_span h.ready hrequest hbatch (h.ready.features_pos (by have := h.stop; omega))
      hp (h.maxLength_eq ▸ hend)
  rw [hhidden, hids] at hout hready
  refine ⟨_, _, serveNew_eq_ok.mpr ⟨parsed, response, _, store', hparsed,
    by rw [h.position]; exact hturn, rfl, rfl⟩, ?_, ?_⟩
  · show (⟨response.hiddenStates :: response.sharedKvTensors, response.sharedKvKeys⟩ :
      ExpertResponse κ α) = _
    rw [hkeys, htensors, hout, h.stop]
    rfl
  · refine ⟨hready, h.stop, h.maxLength_eq, ?_, h.structure_eq, fun stepId hmem => ?_⟩
    · rw [hlength]
    · rcases List.mem_append.mp hmem with hold | hnew
      · exact Nat.lt_succ_of_lt (Nat.lt_of_lt_of_le (h.seen stepId hold) hbound)
      · obtain rfl : stepId = step.stepId := by simpa [stepRequest] using hnew
        exact Nat.lt_succ_self _

/-- A step that is not served. -/
theorem StreamReady.serveNew_error
    (h : StreamReady specs batch features maxLength bound span fed s)
    (htokens : TokensOnly batch step)
    (hsent : sent.shape = [batch, m, features])
    (hbad : ¬ (session.position ≤ fed.length ∧ session.position + m ≤ maxLength)) :
    ∃ exc, Drift.serveNew s (session.stepRequest sent step) = .error exc := by
  obtain ⟨parsed, hparsed, -, -, hrequest⟩ := htokens.obtainRequest session h.structure_eq hsent
  obtain ⟨exc, hexc⟩ : ∃ exc, Drift.parseRequest s.span fed.length parsed = .error exc :=
    hrequest.parseRequest_error (by rw [h.maxLength_eq]; omega)
  cases hserve : Drift.serveNew s (session.stepRequest sent step) with
  | error exc => exact ⟨exc, rfl⟩
  | ok result =>
    exfalso
    obtain ⟨parsed', response, prefixLength, store, hparsed', hturn, -⟩ :=
      serveNew_eq_ok.mp hserve
    obtain rfl := Except.ok.inj (hparsed.symm.trans hparsed')
    obtain ⟨_, _, _, _, _, hparse, -⟩ := serveStep_ok.mp hturn
    rw [h.position, hexc] at hparse
    cases hparse

omit [Add α] in
/-- **The first request** opens a stream that is ready. -/
theorem HostsSpan.openStream {server : InferenceServer κ α cfg}
    (h : HostsSpan specs batch features maxLength server span) (hspan : session.span = span)
    (hstepped : session.stepped = false) (hmax : session.maxLength = maxLength)
    (htokens : TokensOnly batch step) (hsent : sent.shape = [batch, m, features]) :
    ∃ s, Drift.openStream server (session.stepRequest sent step) = .ok s ∧
      StreamReady specs batch features maxLength bound span [] s := by
  subst hspan hmax
  obtain ⟨backends, handles, cacheTensors, hbackends, hcausal, hallocate, hlength, hnodup, hholds⟩ :=
    h.blocks
  have hnumber : backends.length = session.span.stop - session.span.start := by
    rw [length_of_mapM hbackends, List.length_range']
  have hlt := h.lt
  have hne : backends ≠ [] := by
    rintro rfl
    rw [List.length_nil] at hnumber
    omega
  have hbatch : requestBatchSize (session.stepRequest sent step) = batch := by
    rw [requestBatchSize, stepRequest_tensors]
    show sent.shape.getD 0 0 = batch
    rw [hsent]
    rfl
  have hlimit : (session.stepRequest sent step).metadata.maxLength = some session.maxLength := by
    show (if session.stepped then none else some session.maxLength) = _
    rw [hstepped]
    rfl
  refine ⟨{ firstRequest := session.stepRequest sent step
            span := ⟨backends.zip handles, session.maxLength, server.mergeMaxTokens,
              server.maxBatchSize⟩
            prefixLength := 0
            processedStepIds := []
            store := .contiguous cacheTensors }, ?_, ?_⟩
  · unfold Drift.openStream
    refine except_bind_eq_ok.mpr ⟨backends, hbackends, ?_⟩
    rw [if_neg hne, hlimit]
    simp only
    rw [if_neg (Nat.not_lt.mpr h.length), hbatch]
    refine except_bind_eq_ok.mpr ⟨_, hallocate, ?_⟩
    simp only
    rw [if_pos hlength]
  · have hfst : (backends.zip handles).map Prod.fst = backends := List.map_fst_zip (by omega)
    have hsnd : (backends.zip handles).map Prod.snd = handles := List.map_snd_zip (by omega)
    refine ⟨⟨hfst.symm ▸ hcausal, hsnd.symm ▸ hnodup, h.size, Nat.zero_le _, (fun _ h => by nomatch h),
      cacheTensors, rfl, hsnd.symm ▸ hholds⟩, ?_, rfl, rfl, ?_, (fun _ h => by nomatch h)⟩
    · show session.span.start + (backends.zip handles).length = session.span.stop
      rw [List.length_zip, hlength, Nat.min_self, hnumber]
      omega
    · rw [stepRequest_argsStructure, htokens.numExtraTensors_eq]

/-- **A request** to both servers. -/
theorem Backs.answer {peers : Nat → Except PyExc (InferenceServer κ α cfg)}
    {handler : HandlerState κ α cfg}
    (h : Backs specs batch features maxLength session.span bound handler stream)
    (hbatch : 0 < batch) (hmax : session.maxLength = maxLength) (hplain : PlainStep step)
    (hsent : sent.shape = [batch, m, features]) (hbound : bound ≤ step.stepId) :
    Alike (fun x y => x.1 = y.1 ∧ x.1.sharedKvKeys = [] ∧
        Backs specs batch features maxLength session.span (step.stepId + 1) x.2 y.2)
      ((rpcServers peers).answer handler (session.stepRequest sent step))
      (stream.answer (causalBlocks specs) (session.stepRequest sent step)) := by
  have hlt := h.hosts.lt
  -- once the stream is open, both look at the position and at the limit
  have hopen : ∀ s, handlerStream handler (session.stepRequest sent step) = .ok s →
      StreamReady specs batch features maxLength bound session.span stream.fed s →
      (stream.maxLength <|> (session.stepRequest sent step).metadata.maxLength)
        = some maxLength →
      Alike (fun x y => x.1 = y.1 ∧ x.1.sharedKvKeys = [] ∧
          Backs specs batch features maxLength session.span (step.stepId + 1) x.2 y.2)
        ((rpcServers peers).answer handler (session.stepRequest sent step))
        (stream.answer (causalBlocks specs) (session.stepRequest sent step)) := by
    intro s hs hready hlimit
    by_cases hgood : session.position ≤ stream.fed.length ∧ session.position + m ≤ maxLength
    · obtain ⟨served, s', hserve, hresponse, hready'⟩ :=
        hready.serveNew hbatch hlt (hplain.tokensOnly batch) hsent hbound hgood.1 hgood.2
      rw [hplain.hypoIds, goingOnWith_nil] at hresponse hready'
      have hnew : s.processed (session.stepRequest sent step) = false := by
        rw [Bool.eq_false_iff]
        intro hprocessed
        have hmem : step.stepId ∈ s.processedStepIds := by
          simpa [InferenceStream.processed, stepRequest] using hprocessed
        exact absurd (hready.seen _ hmem) (Nat.not_lt.mpr hbound)
      rw [answer_eq_ok.mpr ⟨s, served, s', hs, hnew, hserve, rfl, rfl⟩,
        causal_answer (causalBlocks specs) hplain hsent hlimit hgood.1 hgood.2, h.span_eq, hresponse]
      refine .ok ⟨rfl, rfl, h.hosts, rfl, (fun hnone => by nomatch hnone), ?_⟩
      rintro s₁ ⟨⟩
      exact ⟨rfl, hready'⟩
    · obtain ⟨exc, hexc⟩ := hready.serveNew_error (hplain.tokensOnly batch) hsent hgood
      obtain ⟨exc', hexc'⟩ := causal_answer_error (causalBlocks specs) hplain hsent
        (.inr ⟨maxLength, hlimit, hgood⟩)
      rw [hexc']
      cases hanswer : (rpcServers peers).answer handler (session.stepRequest sent step) with
      | error exc => exact .error exc exc'
      | ok result =>
        exfalso
        obtain ⟨s₁, served, s', hs₁, -, hserve, -⟩ := answer_eq_ok.mp hanswer
        obtain rfl := Except.ok.inj (hs.symm.trans hs₁)
        rw [hexc] at hserve
        cases hserve
  obtain ⟨server, handlerStream⟩ := handler
  cases handlerStream with
  | some s =>
    obtain ⟨hlimit, hready⟩ := h.opened s rfl
    exact hopen s rfl hready (by rw [hlimit]; rfl)
  | none =>
    obtain ⟨hnone, hfed⟩ := h.unopened rfl
    cases hstepped : session.stepped with
    | false =>
      obtain ⟨s, hs, hready⟩ := h.hosts.openStream rfl hstepped hmax (hplain.tokensOnly batch) hsent
      refine hopen s hs (hfed ▸ hready) ?_
      rw [hnone]
      show (if session.stepped then none else some session.maxLength) = _
      rw [hstepped, hmax]
      rfl
    | true =>
      -- only the first request says how long the caches have to be
      have hlimit : (session.stepRequest sent step).metadata.maxLength = none := by
        show (if session.stepped then none else some session.maxLength) = _
        rw [hstepped]
        rfl
      obtain ⟨exc', hexc'⟩ := causal_answer_error (causalBlocks specs) hplain hsent
        (.inl (by rw [hnone, hlimit]; rfl))
      rw [hexc']
      cases hanswer : (rpcServers peers).answer ⟨server, none⟩ (session.stepRequest sent step) with
      | error exc => exact .error exc exc'
      | ok result =>
        exfalso
        obtain ⟨s, -, -, hs, -⟩ := answer_eq_ok.mp hanswer
        have hspec := (openStream_spec hs).2.1
        rw [hlimit] at hspec
        cases hspec

end Answers

/-! ## Sessions -/

section Sessions

variable [Add α]

/-- A span whose peer can be reached and hosts it. -/
def Reachable (peers : Nat → Except PyExc (InferenceServer κ α cfg)) (specs : Nat → CausalSpec α)
    (batch features maxLength : Nat) (span : RemoteSpanInfo) : Prop :=
  ∃ server, peers span.peerId = .ok server ∧ HostsSpan specs batch features maxLength server span

/-- **The handlers simulate the causal servers.** -/
theorem rpcServers_simulates {batch : Nat} (hbatch : 0 < batch)
    (peers : Nat → Except PyExc (InferenceServer κ α cfg)) (specs : Nat → CausalSpec α)
    (features maxLength : Nat) :
    SimulatesServers (rpcServers peers) (causalServers κ (causalBlocks specs)) batch features
      maxLength (Reachable peers specs batch features maxLength)
      (Backs specs batch features maxLength) where
  mono h hle := ⟨h.hosts, h.span_eq, h.unopened, fun s hs => by
    obtain ⟨hlimit, hready⟩ := h.opened s hs
    exact ⟨hlimit, { hready with
      seen := fun stepId hmem => Nat.lt_of_lt_of_le (hready.seen stepId hmem) hle }⟩⟩
  connect h := by
    obtain ⟨server, hpeer, hhosts⟩ := h
    show Alike _ ((peers _).map _) _
    rw [hpeer]
    exact .ok ⟨hhosts, rfl, fun _ => ⟨rfl, rfl⟩, fun s hs => by nomatch hs⟩
  answer h hmax hsent hplain hbound := h.answer hbatch hmax hplain hsent hbound

/-- **Refinement.**  A session with the handlers of `rpc_inference` shows what it would show with
    servers that compute causal functions: every step returns the same outputs or raises in both,
    for all steps and rollbacks, whatever requests fail on the way. -/
theorem session_refines (peers : Nat → Except PyExc (InferenceServer κ α cfg))
    (specs : Nat → CausalSpec α) (batch features maxLength numBlocks : Nat)
    (maxRetries : Option Nat) (events : List (UserEvent α)) (hbatch : 0 < batch)
    (hevents : ∀ event ∈ events,
      PlainEvent batch features (Reachable peers specs batch features maxLength) event) :
    trace (InferenceSession.perform (rpcServers peers))
        (.new (HandlerState κ α cfg) α numBlocks maxRetries maxLength) events
      = trace (InferenceSession.perform (causalServers κ (causalBlocks specs)))
        (.new (CausalStream α) α numBlocks maxRetries maxLength) events :=
  trace_simulates (rpcServers_simulates hbatch peers specs features maxLength) numBlocks maxRetries
    hevents

end Sessions

/-- A server of one block that attends to the first token. -/
def firstTokenPeer : InferenceServer String Int (PagedKVPool.tokenConfig 1) where
  moduleBackends _ := some firstTokenServer.backend
  inferenceMaxLength := 4
  mergeMaxTokens := 128
  maxBatchSize := 2048
  allocateCache _ batch maxLength := .ok ([0], .contiguous (AList.insert 0
    [(Tensor.zeros [batch, 1, 1, maxLength], Tensor.zeros [batch, 1, maxLength, 1])] ∅))

/-- It hosts any one block, since all of them are the same. -/
theorem firstTokenPeer_hosts {batch peerId b : Nat} (h : batch * 4 ≤ 2048) :
    HostsSpan (fun _ => FirstToken.spec) batch 1 4 firstTokenPeer ⟨peerId, b, b + 1⟩ where
  lt := Nat.lt_succ_self b
  length := Nat.le_refl 4
  size := h
  blocks := by
    have hbackends : requestedBackends firstTokenPeer b (b + 1)
        = .ok [firstTokenServer.backend] := by
      rw [requestedBackends, Nat.add_sub_cancel_left]
      rfl
    refine ⟨[firstTokenServer.backend], [0], _, hbackends,
      ⟨rfl, rfl, FirstToken.isCausal, trivial⟩, rfl, rfl, List.nodup_singleton 0,
      ⟨_, AList.lookup_insert _, .cons ⟨rfl, rfl, ?_, ?_⟩ .nil⟩, trivial⟩
    · exact fun _ _ _ _ _ _ _ h => absurd h (Nat.not_lt_zero _)
    · exact fun _ _ _ _ _ _ _ h => absurd h (Nat.not_lt_zero _)

/-- The routes of a client that knows one server of one block. -/
theorem routesHosted_echo {batch : Nat} (h : batch * 4 ≤ 2048) {attempt : StepAttempt}
    (hfind : attempt.findPath = echoAttempt.findPath)
    (hspans : attempt.spansContainingBlock = echoAttempt.spansContainingBlock) :
    RoutesHosted (Reachable (fun _ => .ok firstTokenPeer) (fun _ => FirstToken.spec) batch 1 4)
      attempt := by
  intro startIndex endIndex spans spans' hspans' htrim span hmem
  rw [StepAttempt.makeSequence, hfind, hspans] at hspans'
  by_cases hsame : startIndex = endIndex
  · rw [makeSequenceMinLatency, if_pos hsame] at hspans'
    cases hspans'
    cases htrim
  · by_cases hends : startIndex = 0 ∧ endIndex = 1
    · obtain ⟨rfl, rfl⟩ := hends
      cases hspans'
      cases htrim
      obtain rfl := List.mem_singleton.mp hmem
      exact ⟨firstTokenPeer, rfl, firstTokenPeer_hosts h⟩
    · rw [makeSequenceMinLatency, if_neg hsame] at hspans'
      simp only [echoAttempt, if_neg hends] at hspans'
      split at hspans' <;> cases hspans'

/-- The peers of two blocks: the first one is at peer 7, the second one at the peers 8 and 9. -/
def relayPeers (peerId : Nat) :
    Except PyExc (InferenceServer String Int (PagedKVPool.tokenConfig 1)) :=
  match peerId with
  | 7 | 8 | 9 => .ok firstTokenPeer
  | _ => .error .requestFailed

/-- An attempt that knows one server of each block. -/
def relayAttempt (second : Nat) : StepAttempt where
  spansContainingBlock := [[⟨7, 0, 1⟩], [⟨second, 1, 2⟩]]
  findPath startIndex endIndex :=
    if startIndex = 0 ∧ endIndex = 1 then .ok [(7, 0), (7, 1)]
    else if startIndex = 1 ∧ endIndex = 2 then .ok [(second, 1), (second, 2)]
    else if startIndex = 0 ∧ endIndex = 2 then
      .ok [(7, 0), (7, 1), (second, 1), (second, 2)]
    else .error (.missingBlocks [])
  failure := none

/-- Two tokens, with a request that gets lost; back to the first of them; another one.  The retry
    goes on with the other server of the second block. -/
def servedEvents : List (UserEvent Int) :=
  [.step (Tensor.ofFn [1, 2, 1] fun ix => 7 + ix.getD 1 0)
      [relayAttempt 8, { relayAttempt 8 with failure := some .requestFailed }, relayAttempt 9],
    .rollback 1, .step (Tensor.ofFn [1, 1, 1] fun _ => 9) [relayAttempt 9, relayAttempt 9]]

/-- Whatever range is asked for, its routes end at peers that host their block. -/
theorem routesHosted_relay {second : Nat} (h : second = 8 ∨ second = 9) {attempt : StepAttempt}
    (hfind : attempt.findPath = (relayAttempt second).findPath)
    (hspans : attempt.spansContainingBlock = (relayAttempt second).spansContainingBlock) :
    RoutesHosted (Reachable relayPeers (fun _ => FirstToken.spec) 1 1 4) attempt := by
  have hreach : ∀ peerId b, peerId = 7 ∨ peerId = 8 ∨ peerId = 9 →
      Reachable relayPeers (fun _ => FirstToken.spec) 1 1 4 ⟨peerId, b, b + 1⟩ := by
    rintro peerId b (rfl | rfl | rfl) <;>
      exact ⟨firstTokenPeer, rfl, firstTokenPeer_hosts (by decide)⟩
  intro startIndex endIndex spans spans' hspans' htrim span hmem
  rw [StepAttempt.makeSequence, hfind, hspans] at hspans'
  by_cases hsame : startIndex = endIndex
  · rw [makeSequenceMinLatency, if_pos hsame] at hspans'
    cases hspans'
    cases htrim
  · by_cases hends : (startIndex = 0 ∧ endIndex = 1) ∨ (startIndex = 1 ∧ endIndex = 2) ∨
        (startIndex = 0 ∧ endIndex = 2)
    · have hcases : spans' = [⟨7, 0, 1⟩] ∨ spans' = [⟨second, 1, 2⟩] ∨
          spans' = [⟨7, 0, 1⟩, ⟨second, 1, 2⟩] := by
        rcases h with rfl | rfl <;> rcases hends with ⟨rfl, rfl⟩ | ⟨rfl, rfl⟩ | ⟨rfl, rfl⟩ <;>
          cases hspans' <;> cases htrim <;> simp
      rcases hcases with rfl | rfl | rfl
      · obtain rfl := List.mem_singleton.mp hmem
        exact hreach 7 0 (.inl rfl)
      · obtain rfl := List.mem_singleton.mp hmem
        exact hreach second 1 (.inr h)
      · rcases List.mem_pair.mp hmem with rfl | rfl
        · exact hreach 7 0 (.inl rfl)
        · exact hreach second 1 (.inr h)
    · obtain ⟨h01, h12, h02⟩ : ¬ (startIndex = 0 ∧ endIndex = 1) ∧
          ¬ (startIndex = 1 ∧ endIndex = 2) ∧ ¬ (startIndex = 0 ∧ endIndex = 2) := by
        simpa only [not_or] using hends
      rw [makeSequenceMinLatency, if_neg hsame] at hspans'
      simp only [relayAttempt, if_neg h01, if_neg h12, if_neg h02] at hspans'
      split at hspans' <;> cases hspans'

theorem servedEvents_plain : ∀ event ∈ servedEvents, PlainEvent 1 1
    (Reachable relayPeers (fun _ => FirstToken.spec) 1 1 4) event := by
  intro event hmem
  simp only [servedEvents, List.mem_cons, List.not_mem_nil, or_false] at hmem
  rcases hmem with rfl | rfl | rfl
  · refine ⟨⟨2, rfl⟩, fun attempt hattempt => ?_⟩
    simp only [List.mem_cons, List.not_mem_nil, or_false] at hattempt
    rcases hattempt with rfl | rfl | rfl
    · exact routesHosted_relay (.inl rfl) rfl rfl
    · exact routesHosted_relay (.inl rfl) rfl rfl
    · exact routesHosted_relay (.inr rfl) rfl rfl
  · trivial
  · refine ⟨⟨1, rfl⟩, fun attempt hattempt => ?_⟩
    rcases List.mem_pair.mp hattempt with rfl | rfl <;> exact routesHosted_relay (.inr rfl) rfl rfl

theorem session_refines_example :
    trace (InferenceSession.perform (rpcServers relayPeers)) (.new _ Int 2 (some 3) 4) servedEvents
      = trace (InferenceSession.perform (causalServers String (causalBlocks fun _ => FirstToken.spec)))
        (.new _ Int 2 (some 3) 4) servedEvents :=
  session_refines relayPeers (fun _ => FirstToken.spec) 1 1 4 2 (some 3) servedEvents Nat.one_pos
    servedEvents_plain

end Drift
