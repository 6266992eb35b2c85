/-
  Swarms that a session cannot tell apart.

  One swarm simulates another if its servers answer the requests of a session alike, when the
  streams are related: both with the same response, or both with an exception (`SimulatesServers`).
  Then a session shows the same with both, whatever attempts fail on the way and however it is
  rolled back (`trace_simulates`).

  A server skips a step that it has served before, so what relates the streams depends on the step
  ids that they may have seen: all are below a bound.  The ids of later steps are larger, and within
  a step no stream gets a second request, since a server session that has failed is replaced.

  The steps have neither prompts, hypo ids nor side inputs.
-/
import Drift.Client.FailureFree
import Drift.Lib.Simulation

namespace Drift

open ServerInferenceSession Tensor

variable {σ τ κ α : Type} [LinearOrder κ] [Zero α]

/-- A step with nothing beside its tokens. -/
structure PlainStep (step : StepInputs κ α) : Prop where
  prompts : step.prompts.shape.getD 0 0 = 0
  hypoIds : step.hypoIds = []
  perLayerInputs : isDummy step.perLayerInputs = true
  shared : step.sharedKvStates = ∅

/-- **The servers answer alike**, on the spans that are `Hosted`: `R span bound` relates streams to
    a span that have seen step ids below `bound` only. -/
structure SimulatesServers (servers : InferenceServers σ κ α) (servers' : InferenceServers τ κ α)
    (batch features maxLength : Nat) (Hosted : RemoteSpanInfo → Prop)
    (R : RemoteSpanInfo → Nat → σ → τ → Prop) : Prop where
  mono : ∀ {span bound bound' s t}, R span bound s t → bound ≤ bound' → R span bound' s t
  connect : ∀ {span}, Hosted span → Alike (R span 0) (servers.connect span) (servers'.connect span)
  answer : ∀ {bound s t m} {session : ServerInferenceSession τ α} {sent : Tensor α}
    {step : StepInputs κ α}, R session.span bound s t → session.maxLength = maxLength →
    sent.shape = [batch, m, features] → PlainStep step → bound ≤ step.stepId →
    Alike (fun x y => x.1 = y.1 ∧ x.1.sharedKvKeys = [] ∧ R session.span (step.stepId + 1) x.2 y.2)
      (servers.answer s (session.stepRequest sent step))
      (servers'.answer t (session.stepRequest sent step))

/-! ## One server session -/

/-- The session with another stream. -/
def ServerInferenceSession.withStream (session : ServerInferenceSession τ α) (stream : σ) :
    ServerInferenceSession σ α where
  span := session.span
  sessionId := session.sessionId
  maxLength := session.maxLength
  stepped := session.stepped
  closed := session.closed
  position := session.position
  history := session.history
  stream := stream

/-- The sessions differ in their streams only, and these are related. -/
structure AlikeServerSessions (R : RemoteSpanInfo → Nat → σ → τ → Prop)
    (batch features maxLength bound : Nat) (a : ServerInferenceSession σ α)
    (b : ServerInferenceSession τ α) : Prop where
  same : a = b.withStream a.stream
  related : R b.span bound a.stream b.stream
  limit : b.maxLength = maxLength
  shape : ∀ history, b.history = some history → ∃ n, history.shape = [batch, n, features]

section ServerSessions

theorem prepare_withStream (session : ServerInferenceSession τ α) (stream : σ) (inputs : Tensor α) :
    (session.withStream stream).prepare inputs
      = ((session.prepare inputs).1.withStream stream, (session.prepare inputs).2) := by
  have hextend : (session.withStream stream).extendHistory inputs = session.extendHistory inputs :=
    rfl
  unfold prepare
  rw [hextend]
  show (if session.closed = true then _ else _) = _
  split
  · rfl
  · cases session.extendHistory inputs <;> rfl

/-- What the history becomes has as many rows and features. -/
theorem extendHistory_shape {batch n features : Nat} {session : ServerInferenceSession τ α}
    {inputs history : Tensor α} (hinputs : inputs.shape = [batch, n, features])
    (hold : ∀ history, session.history = some history → ∃ k, history.shape = [batch, k, features])
    (h : session.extendHistory inputs = .ok history) :
    ∃ k, history.shape = [batch, k, features] := by
  unfold extendHistory at h
  split at h
  · cases h
    exact ⟨n, hinputs⟩
  · rename_i old hcase
    obtain ⟨k, hk⟩ := hold old hcase
    split at h
    · rw [lastTokens_self rfl, catTokens] at h
      split at h
      · cases h
        exact ⟨_, shape_cat_tokens hk hinputs⟩
      · cases h
    · cases h
      exact ⟨k, hk⟩

/-- Neither the preparation of a step nor what is sent has another shape. -/
theorem prepare_shape {batch n features : Nat} {session : ServerInferenceSession τ α}
    {inputs : Tensor α} (hinputs : inputs.shape = [batch, n, features])
    (hold : ∀ history, session.history = some history → ∃ k, history.shape = [batch, k, features]) :
    (∀ history, (session.prepare inputs).1.history = some history →
      ∃ k, history.shape = [batch, k, features]) ∧
    (session.prepare inputs).1.maxLength = session.maxLength ∧
    ∀ sent, (session.prepare inputs).2 = .ok sent → ∃ k, sent.shape = [batch, k, features] := by
  unfold prepare
  split
  · exact ⟨hold, rfl, fun sent h => by nomatch h⟩
  · cases hextend : session.extendHistory inputs with
    | error exc => exact ⟨hold, rfl, fun sent h => by nomatch h⟩
    | ok history =>
      have hshape := extendHistory_shape hinputs hold hextend
      refine ⟨fun history' h => Option.some.inj h ▸ hshape, rfl, fun sent h => ?_⟩
      simp only at h
      split at h
      · cases h
        split
        · rw [lastTokens_self rfl]
          exact ⟨n, hinputs⟩
        · exact hshape
      · cases h

variable {servers : InferenceServers σ κ α} {servers' : InferenceServers τ κ α}
  {batch features maxLength bound : Nat} {Hosted : RemoteSpanInfo → Prop}
  {R : RemoteSpanInfo → Nat → σ → τ → Prop} {a : ServerInferenceSession σ α}
  {b : ServerInferenceSession τ α}

theorem AlikeServerSessions.mono (hsim : SimulatesServers servers servers' batch features maxLength
      Hosted R) (h : AlikeServerSessions R batch features maxLength bound a b) {bound' : Nat}
    (hle : bound ≤ bound') : AlikeServerSessions R batch features maxLength bound' a b :=
  ⟨h.same, hsim.mono h.related hle, h.limit, h.shape⟩

omit [LinearOrder κ] [Zero α] in
/-- What the client receives. -/
theorem receive_plain {sent : Tensor α} {response : ExpertResponse κ α}
    (hkeys : response.sharedKvKeys = []) {result : Tensor α × List (κ × KVPair α)}
    (h : receive sent response = .ok result) : result.2 = [] ∧ result.1.shape = sent.shape := by
  obtain ⟨outputs, produced⟩ := result
  obtain ⟨tensors, -, hshape, hitems⟩ := receive_eq_ok h
  rw [hkeys] at hitems
  cases hitems
  exact ⟨rfl, hshape⟩

/-- The request of a step, from sessions that have prepared it. -/
theorem exchange_alike
    (hsim : SimulatesServers servers servers' batch features maxLength Hosted R)
    {session : ServerInferenceSession τ α} {stream : σ}
    (h : AlikeServerSessions R batch features maxLength bound (session.withStream stream) session)
    {step : StepInputs κ α} (hplain : PlainStep step) (hbound : bound ≤ step.stepId) {k : Nat}
    {sent : Tensor α} (hsent : sent.shape = [batch, k, features]) (failure : Option PyExc) :
    AlikeServerSessions R batch features maxLength (step.stepId + 1)
        ((session.withStream stream).exchange servers failure sent step).1
        (session.exchange servers' failure sent step).1 ∧
      Alike (fun x y => x = y ∧ x.2 = [] ∧ ∃ k, x.1.shape = [batch, k, features])
        ((session.withStream stream).exchange servers failure sent step).2
        (session.exchange servers' failure sent step).2 := by
  have hanswer := hsim.answer h.related h.limit hsent hplain hbound
  have hseen := hsim.mono h.related (Nat.le_succ_of_le hbound)
  have hrequest : (session.withStream stream).stepRequest sent step = session.stepRequest sent step :=
    rfl
  have hstream : (session.withStream stream).stream = stream := rfl
  unfold exchange remoteCall
  cases failure with
  | some exc => exact ⟨⟨rfl, hseen, h.limit, h.shape⟩, .error exc exc⟩
  | none =>
    rw [hrequest]
    simp only [hstream] at hanswer ⊢
    generalize servers.answer stream (session.stepRequest sent step) = x at hanswer ⊢
    generalize servers'.answer session.stream (session.stepRequest sent step) = y at hanswer ⊢
    cases hanswer with
    | error exc exc' => exact ⟨⟨rfl, hseen, h.limit, h.shape⟩, .error exc exc'⟩
    | @ok x y hok =>
      obtain ⟨response, stream'⟩ := x
      obtain ⟨_, stream''⟩ := y
      obtain ⟨rfl, hkeys, hnext⟩ := hok
      simp only
      cases hreceive : receive sent response with
      | error exc => exact ⟨⟨rfl, hnext, h.limit, h.shape⟩, .error exc exc⟩
      | ok result =>
        obtain ⟨hnone, hshape⟩ := receive_plain hkeys hreceive
        exact ⟨⟨rfl, hnext, h.limit, h.shape⟩, .ok ⟨rfl, hnone, k, hshape.trans hsent⟩⟩

/-- **A step of both**: they are alike again, and return the same or both raise. -/
theorem AlikeServerSessions.step
    (hsim : SimulatesServers servers servers' batch features maxLength Hosted R)
    (h : AlikeServerSessions R batch features maxLength bound a b) {step : StepInputs κ α}
    (hplain : PlainStep step) (hbound : bound ≤ step.stepId) {n : Nat}
    (hinputs : step.inputs.shape = [batch, n, features]) (failure : Option PyExc) :
    AlikeServerSessions R batch features maxLength (step.stepId + 1)
        (a.step servers failure step).1 (b.step servers' failure step).1 ∧
      Alike (fun x y => x = y ∧ x.2 = [] ∧ ∃ k, x.1.shape = [batch, k, features])
        (a.step servers failure step).2 (b.step servers' failure step).2 := by
  obtain ⟨hsame, hrelated, hlimit, hshape⟩ := h
  generalize a.stream = stream at hsame hrelated
  subst hsame
  obtain ⟨hhistory, hmax, hsent⟩ := prepare_shape hinputs hshape
  obtain ⟨hspan, -, hstream⟩ := b.prepare_fields step.inputs
  unfold ServerInferenceSession.step
  rw [prepare_withStream]
  generalize b.prepare step.inputs = prepared at hhistory hmax hsent hspan hstream
  obtain ⟨b₁, result⟩ := prepared
  have halike : AlikeServerSessions R batch features maxLength bound (b₁.withStream stream) b₁ := by
    refine ⟨rfl, ?_, hmax.trans hlimit, hhistory⟩
    show R b₁.span bound stream b₁.stream
    rw [show b₁.span = b.span from hspan, show b₁.stream = b.stream from hstream]
    exact hrelated
  cases result with
  | error exc => exact ⟨halike.mono hsim (Nat.le_succ_of_le hbound), .error exc exc⟩
  | ok sent =>
    obtain ⟨k, hk⟩ := hsent sent rfl
    exact exchange_alike hsim halike hplain hbound hk failure

/-- A rollback of both. -/
theorem AlikeServerSessions.setPosition
    (h : AlikeServerSessions R batch features maxLength bound a b) (start : Nat) :
    Alike (AlikeServerSessions R batch features maxLength bound) (a.setPosition start)
      (b.setPosition start) := by
  obtain ⟨hsame, hrelated, hlimit, hshape⟩ := h
  generalize a.stream = stream at hsame hrelated
  subst hsame
  unfold ServerInferenceSession.setPosition
  show Alike _ (if start ≤ b.position then _ else _) _
  split
  · refine .ok ⟨rfl, hrelated, hlimit, fun history hhistory => ?_⟩
    obtain ⟨old, hold, hcut⟩ := Option.bind_eq_some_iff.mp hhistory
    obtain ⟨n, hn⟩ := hshape old hold
    split at hcut
    · rename_i hle
      split at hcut
      · cases hcut
        exact ⟨start, shape_slice_first hn (by rw [hn] at hle; exact hle)⟩
      · cases hcut
    · cases hcut
      exact ⟨n, hn⟩
  · exact .error _ _

end ServerSessions

/-! ## The sessions of a route -/

section Routes

variable {servers : InferenceServers σ κ α} {servers' : InferenceServers τ κ α}
  {batch features maxLength bound : Nat} {Hosted : RemoteSpanInfo → Prop}
  {R : RemoteSpanInfo → Nat → σ → τ → Prop}

/-- New sessions along the spans of a route. -/
theorem enterServerSessions_alike
    (hsim : SimulatesServers servers servers' batch features maxLength Hosted R) :
    ∀ {spans : List RemoteSpanInfo} (uuid : Nat), (∀ span ∈ spans, Hosted span) →
      Alike (List.Forall₂ (AlikeServerSessions R batch features maxLength 0))
        (InferenceSession.enterServerSessions servers maxLength uuid spans)
        (InferenceSession.enterServerSessions servers' maxLength uuid spans) := by
  intro spans
  induction spans with
  | nil => exact fun _ _ => .ok .nil
  | cons span spans ih =>
    intro uuid hhosted
    obtain ⟨hspan, hrest⟩ := List.forall_mem_cons.mp hhosted
    refine (hsim.connect hspan).bind fun s t hR => ?_
    refine (ih (uuid + 1) hrest).bind fun as bs hall => .ok (.cons ?_ hall)
    exact ⟨rfl, hR, rfl, fun _ h => by nomatch h⟩

omit [Zero α] in
/-- The first of them inherits a history. -/
theorem inheritHistory_alike {failed : Option (ServerInferenceSession σ α)}
    {failed' : Option (ServerInferenceSession τ α)}
    (hfailed : Option.Rel (AlikeServerSessions R batch features maxLength bound) failed failed')
    {as : List (ServerInferenceSession σ α)} {bs : List (ServerInferenceSession τ α)}
    (h : List.Forall₂ (AlikeServerSessions R batch features maxLength 0) as bs) :
    List.Forall₂ (AlikeServerSessions R batch features maxLength 0)
      (InferenceSession.inheritHistory failed as) (InferenceSession.inheritHistory failed' bs) := by
  cases h with
  | nil => exact .nil
  | @cons a b as bs hab hrest =>
    cases hfailed with
    | none => exact .cons hab hrest
    | @some x y hxy =>
      refine .cons ⟨?_, hab.related, hab.limit, hxy.shape⟩ hrest
      have hhistory : x.history = y.history := by
        rw [hxy.same]
        rfl
      obtain ⟨hsame, -, -, -⟩ := hab
      generalize a.stream = stream at hsame
      subst hsame
      show ServerInferenceSession.mk _ _ _ _ _ _ x.history _
        = ServerInferenceSession.mk _ _ _ _ _ _ y.history _
      rw [hhistory]
      rfl

end Routes

/-! ## The session -/

/-- The sessions differ in the streams of their server sessions only. -/
structure AlikeSessions (R : RemoteSpanInfo → Nat → σ → τ → Prop) (batch features bound : Nat)
    (a : InferenceSession σ α) (b : InferenceSession τ α) : Prop where
  numBlocks_eq : a.numBlocks = b.numBlocks
  maxRetries_eq : a.maxRetries = b.maxRetries
  maxLength_eq : a.maxLength = b.maxLength
  position_eq : a.position = b.position
  uuids_eq : a.uuids = b.uuids
  sessions : List.Forall₂ (AlikeServerSessions R batch features b.maxLength bound)
    a.serverSessions b.serverSessions

/-- The spans of every route that an attempt may take are hosted. -/
def RoutesHosted (Hosted : RemoteSpanInfo → Prop) (attempt : StepAttempt) : Prop :=
  ∀ startIndex endIndex spans spans', attempt.makeSequence startIndex endIndex = .ok spans →
    trimLast endIndex spans = some spans' → ∀ span ∈ spans', Hosted span

/-- The states of two loops before an attempt.  The server sessions from the next one on have not
    seen the step yet, a failed one apart. -/
structure AlikeStates (R : RemoteSpanInfo → Nat → σ → τ → Prop) (batch features stepId : Nat)
    (attemptNo : Nat) (s : StepState σ κ α) (t : StepState τ κ α) : Prop where
  session : AlikeSessions R batch features (stepId + 1) s.session t.session
  drawn : stepId < t.session.uuids
  todo : List.Forall₂ (AlikeServerSessions R batch features t.session.maxLength stepId)
    (s.session.serverSessions.drop (t.serverIdx + min attemptNo 1))
    (t.session.serverSessions.drop (t.serverIdx + min attemptNo 1))
  serverIdx_eq : s.serverIdx = t.serverIdx
  blockIdx_eq : s.blockIdx = t.blockIdx
  inputs_eq : s.inputs = t.inputs
  shape : ∃ n, t.inputs.shape = [batch, n, features]
  shared_eq : s.accumulatedSharedKv = ∅ ∧ t.accumulatedSharedKv = ∅

section Sessions

variable {servers : InferenceServers σ κ α} {servers' : InferenceServers τ κ α}
  {batch features maxLength bound : Nat} {Hosted : RemoteSpanInfo → Prop}
  {R : RemoteSpanInfo → Nat → σ → τ → Prop} {a : InferenceSession σ α} {b : InferenceSession τ α}

/-- The new sessions of an update. -/
theorem updatedSessions_alike
    (hsim : SimulatesServers servers servers' batch features b.maxLength Hosted R)
    (h : AlikeSessions R batch features bound a b) (serverIdx blockIdx : Nat)
    {attempt : StepAttempt} (hroutes : RoutesHosted Hosted attempt) :
    Alike (List.Forall₂ (AlikeServerSessions R batch features b.maxLength 0))
      (InferenceSession.updatedSessions servers a serverIdx blockIdx attempt)
      (InferenceSession.updatedSessions servers' b serverIdx blockIdx attempt) := by
  have hfailed := forall₂_getElem? h.sessions serverIdx
  unfold InferenceSession.updatedSessions
  simp only [h.maxLength_eq, h.uuids_eq, h.numBlocks_eq]
  generalize a.serverSessions[serverIdx]? = failed at hfailed ⊢
  generalize b.serverSessions[serverIdx]? = failed' at hfailed ⊢
  have hend : failed.elim b.numBlocks (·.span.stop) = failed'.elim b.numBlocks (·.span.stop) := by
    cases hfailed with
    | none => rfl
    | some hxy =>
      rw [hxy.same]
      rfl
  rw [hend]
  generalize failed'.elim b.numBlocks (·.span.stop) = updateEnd
  cases hspans : attempt.makeSequence blockIdx updateEnd with
  | error exc => exact .error exc exc
  | ok spans =>
    show Alike _ (orRaise _ (trimLast updateEnd spans) >>= _)
      (orRaise _ (trimLast updateEnd spans) >>= _)
    cases htrim : trimLast updateEnd spans with
    | none => exact .error _ _
    | some spans' =>
      refine (enterServerSessions_alike hsim b.uuids
        (hroutes blockIdx updateEnd spans spans' hspans htrim)).bind fun as bs hall => ?_
      exact .ok (inheritHistory_alike hfailed hall)

omit [LinearOrder κ] [Zero α] in
theorem drop_take_append {β : Type} (n : Nat) (xs ys : List β) :
    (xs.take n ++ ys).drop n = ys.drop (n - (xs.take n).length) := by
  rw [List.drop_append, List.drop_of_length_le (by rw [List.length_take]; omega), List.nil_append]

/-- **An update of both**: where it succeeds, the sessions from the place of the failed one on have
    not seen the step. -/
theorem updateSequence_alike {stepId : Nat}
    (hsim : SimulatesServers servers servers' batch features b.maxLength Hosted R)
    (h : AlikeSessions R batch features bound a b) (serverIdx blockIdx : Nat)
    {attempt : StepAttempt} (hroutes : RoutesHosted Hosted attempt)
    (hrest : List.Forall₂ (AlikeServerSessions R batch features b.maxLength stepId)
      (a.serverSessions.drop (serverIdx + 1)) (b.serverSessions.drop (serverIdx + 1))) :
    ∃ a' b', AlikeSessions R batch features bound a' b' ∧ b'.maxLength = b.maxLength ∧
      b.uuids ≤ b'.uuids ∧
      ((a.updateSequence servers serverIdx blockIdx attempt = (a', none) ∧
        b.updateSequence servers' serverIdx blockIdx attempt = (b', none) ∧
        List.Forall₂ (AlikeServerSessions R batch features b.maxLength stepId)
          (a'.serverSessions.drop serverIdx) (b'.serverSessions.drop serverIdx)) ∨
      (∃ exc exc', a.updateSequence servers serverIdx blockIdx attempt = (a', some exc) ∧
        b.updateSequence servers' serverIdx blockIdx attempt = (b', some exc') ∧
        a'.serverSessions.drop (serverIdx + 1) = a.serverSessions.drop (serverIdx + 1) ∧
        b'.serverSessions.drop (serverIdx + 1) = b.serverSessions.drop (serverIdx + 1))) := by
  have hupdated := updatedSessions_alike hsim h serverIdx blockIdx hroutes
  unfold InferenceSession.updateSequence
  generalize InferenceSession.updatedSessions servers a serverIdx blockIdx attempt = x at hupdated ⊢
  generalize InferenceSession.updatedSessions servers' b serverIdx blockIdx attempt = y at hupdated ⊢
  cases hupdated with
  | error exc exc' =>
    refine ⟨_, _, ?_, ?_, ?_, .inr ⟨exc, exc', rfl, rfl, ?_, ?_⟩⟩
    · refine ⟨h.numBlocks_eq, h.maxRetries_eq, h.maxLength_eq, h.position_eq, h.uuids_eq, ?_⟩
      exact forall₂_modify (fun x y hxy => ⟨by rw [hxy.same]; rfl, hxy.related, hxy.limit,
        hxy.shape⟩) h.sessions serverIdx
    · rfl
    · exact Nat.le_refl _
    · exact List.drop_modify_of_lt _ _ _ _ (Nat.lt_succ_self _)
    · exact List.drop_modify_of_lt _ _ _ _ (Nat.lt_succ_self _)
  | @ok as bs hnew =>
    have hall : ∀ k, List.Forall₂ (AlikeServerSessions R batch features b.maxLength k) as bs :=
      fun k => hnew.imp fun x y hxy => hxy.mono hsim (Nat.zero_le k)
    have hfirst := List.forall₂_take serverIdx h.sessions
    refine ⟨_, _, ?_, ?_, ?_, .inl ⟨rfl, rfl, ?_⟩⟩
    · refine ⟨h.numBlocks_eq, h.maxRetries_eq, h.maxLength_eq, h.position_eq, ?_, ?_⟩
      · show a.uuids + as.length = b.uuids + bs.length
        rw [h.uuids_eq, hnew.length_eq]
      · exact List.rel_append (List.rel_append hfirst (hall bound))
          (List.forall₂_drop (serverIdx + 1) h.sessions)
    · rfl
    · exact Nat.le_add_right _ _
    · show List.Forall₂ _ ((a.serverSessions.take serverIdx ++ as ++ _).drop serverIdx)
        ((b.serverSessions.take serverIdx ++ bs ++ _).drop serverIdx)
      rw [List.append_assoc, List.append_assoc, drop_take_append, drop_take_append,
        hfirst.length_eq]
      exact List.forall₂_drop _ (List.rel_append (hall stepId) hrest)

/-- Arguments of a step with nothing beside the tokens. -/
structure PlainArgs (args : StepArgs α) : Prop where
  prompts : args.prompts.shape.getD 0 0 = 0
  hypoIds : args.hypoIds = []
  perLayerInputs : isDummy args.perLayerInputs = true

omit [LinearOrder κ] in
theorem PlainArgs.spanInputs {args : StepArgs α} (h : PlainArgs args) (stepId : Nat)
    (span : RemoteSpanInfo) (inputs : Tensor α) :
    PlainStep (InferenceSession.spanInputs args stepId span inputs (∅ : SharedKvStates κ α)) where
  prompts := by
    show (args.prompts.slice 0 span.start span.stop).shape.getD 0 0 = 0
    rw [shape_slice, h.prompts, List.getD_eq_getElem?_getD, List.getElem?_set]
    split
    · have hstop := clampIndex_le 0 (span.stop : Int)
      split
      · show clampIndex 0 span.stop - clampIndex 0 span.start = 0
        omega
      · rfl
    · contradiction
  hypoIds := h.hypoIds
  perLayerInputs := by
    show isDummy (if isDummy args.perLayerInputs then _ else _) = true
    rw [if_pos h.perLayerInputs]
    exact h.perLayerInputs
  shared := rfl

/-- **The request of an attempt**, to sessions that have not seen the step. -/
theorem requestSpan_alike {stepId : Nat} {args : StepArgs α} (hargs : PlainArgs args)
    {s : StepState σ κ α} {t : StepState τ κ α}
    (hsim : SimulatesServers servers servers' batch features t.session.maxLength Hosted R)
    (h : AlikeStates R batch features stepId 0 s t) (failure : Option PyExc) (attemptNo : Nat) :
    ∃ s' t' result result',
      InferenceSession.requestSpan servers args stepId failure s = (s', result) ∧
      InferenceSession.requestSpan servers' args stepId failure t = (t', result') ∧
      result.isNone = result'.isNone ∧ t'.session.maxLength = t.session.maxLength ∧
      AlikeStates R batch features stepId (if result.isNone then 0 else attemptNo + 1) s' t' := by
  obtain ⟨⟨hnum, hretries, hmax, hposition, huuids, hsessions⟩, hdrawn, htodo, hidx, hblock, hinputs,
    ⟨n, hshape⟩, hshared, hshared'⟩ := h
  have hnext := forall₂_getElem? htodo 0
  rw [List.getElem?_drop, List.getElem?_drop, Nat.zero_min, Nat.add_zero] at hnext
  have hlater : List.Forall₂ (AlikeServerSessions R batch features t.session.maxLength stepId)
      (s.session.serverSessions.drop (t.serverIdx + 1))
      (t.session.serverSessions.drop (t.serverIdx + 1)) := by
    have hdrop := List.forall₂_drop 1 htodo
    rw [List.drop_drop, List.drop_drop] at hdrop
    exact hdrop
  unfold InferenceSession.requestSpan
  rw [hidx, hinputs, hshared, hshared', hposition]
  have hnoNext : ∀ exc exc' : PyExc, ∃ s' t' result result',
      (s, some exc) = (s', result) ∧ (t, some exc') = (t', result') ∧
      result.isNone = result'.isNone ∧ t'.session.maxLength = t.session.maxLength ∧
      AlikeStates R batch features stepId (if result.isNone then 0 else attemptNo + 1) s' t' := by
    intro exc exc'
    refine ⟨_, _, _, _, rfl, rfl, rfl, rfl, ⟨hnum, hretries, hmax, hposition, huuids, hsessions⟩,
      hdrawn, ?_, hidx, hblock, hinputs, ⟨n, hshape⟩, hshared, hshared'⟩
    show List.Forall₂ _ (s.session.serverSessions.drop (t.serverIdx + min (attemptNo + 1) 1))
      (t.session.serverSessions.drop (t.serverIdx + min (attemptNo + 1) 1))
    rw [Nat.min_eq_right (Nat.le_add_left 1 attemptNo)]
    exact hlater
  generalize s.session.serverSessions[t.serverIdx]? = x at hnext ⊢
  generalize t.session.serverSessions[t.serverIdx]? = y at hnext ⊢
  cases hnext with
  | none => exact hnoNext _ _
  | @some a b hab =>
    have hspan : a.span = b.span := by
      rw [hab.same]
      rfl
    have hpos : a.position = b.position := by
      rw [hab.same]
      rfl
    obtain ⟨hstep, hresult⟩ := hab.step hsim (hargs.spanInputs stepId b.span t.inputs)
      (Nat.le_refl stepId) hshape failure
    have hspan' := step_span servers' failure b
      (InferenceSession.spanInputs args stepId b.span t.inputs (∅ : SharedKvStates κ α))
    simp only [hspan, hpos]
    by_cases hhere : b.position = t.session.position
    · rw [if_pos hhere, if_pos hhere]
      generalize a.step servers failure _ = x at hstep hresult ⊢
      generalize b.step servers' failure _ = y at hstep hresult hspan' ⊢
      obtain ⟨a', x⟩ := x
      obtain ⟨b', y⟩ := y
      simp only at hstep hresult hspan' ⊢
      have hset := forall₂_set hstep hsessions t.serverIdx
      have hbehind : List.Forall₂ (AlikeServerSessions R batch features t.session.maxLength stepId)
          ((s.session.serverSessions.set t.serverIdx a').drop (t.serverIdx + 1))
          ((t.session.serverSessions.set t.serverIdx b').drop (t.serverIdx + 1)) := by
        rw [List.drop_set_of_lt (Nat.lt_succ_self _), List.drop_set_of_lt (Nat.lt_succ_self _)]
        exact hlater
      cases hresult with
      | error exc exc' =>
        refine ⟨_, _, _, _, rfl, rfl, rfl, rfl, ⟨hnum, hretries, hmax, hposition, huuids, hset⟩,
          hdrawn, ?_, rfl, hblock, rfl, ⟨n, hshape⟩, rfl, rfl⟩
        show List.Forall₂ _ (List.drop (t.serverIdx + min (attemptNo + 1) 1) _)
          (List.drop (t.serverIdx + min (attemptNo + 1) 1) _)
        rw [Nat.min_eq_right (Nat.le_add_left 1 attemptNo)]
        exact hbehind
      | @ok u v huv =>
        obtain ⟨rfl, hnone, hshape'⟩ := huv
        have hspanStop : a'.span.stop = b'.span.stop := by
          rw [hstep.same]
          rfl
        obtain ⟨outputs, produced⟩ := u
        simp only at hnone
        subst hnone
        exact ⟨_, _, _, _, rfl, rfl, rfl, rfl, ⟨hnum, hretries, hmax, hposition, huuids, hset⟩,
          hdrawn, hbehind, rfl, hspanStop, rfl, hshape', rfl, rfl⟩
    · rw [if_neg hhere, if_neg hhere]
      exact hnoNext _ _

/-- **An attempt of both.** -/
theorem stepAttempt_alike {stepId : Nat} {args : StepArgs α} (hargs : PlainArgs args)
    {attempt : StepAttempt} (hroutes : RoutesHosted Hosted attempt) {s : StepState σ κ α}
    {t : StepState τ κ α} {attemptNo : Nat}
    (hsim : SimulatesServers servers servers' batch features t.session.maxLength Hosted R)
    (h : AlikeStates R batch features stepId attemptNo s t) :
    ∃ s' t' result result',
      InferenceSession.stepAttempt servers args stepId attemptNo attempt s = some (s', result) ∧
      InferenceSession.stepAttempt servers' args stepId attemptNo attempt t = some (t', result') ∧
      result.isNone = result'.isNone ∧ t'.session.maxLength = t.session.maxLength ∧
      AlikeStates R batch features stepId (if result.isNone then 0 else attemptNo + 1) s' t' := by
  have hempty : s.session.serverSessions.isEmpty = t.session.serverSessions.isEmpty := by
    have hlength := h.session.sessions.length_eq
    cases hs : s.session.serverSessions <;> cases ht : t.session.serverSessions <;>
      simp_all
  unfold InferenceSession.stepAttempt
  simp only [hempty, h.serverIdx_eq, h.blockIdx_eq]
  by_cases hupdate : t.session.serverSessions.isEmpty = true ∨ 1 ≤ attemptNo
  · rw [if_pos hupdate, if_pos hupdate]
    -- the sessions behind the one that is replaced
    have hrest : List.Forall₂ (AlikeServerSessions R batch features t.session.maxLength stepId)
        (s.session.serverSessions.drop (t.serverIdx + 1))
        (t.session.serverSessions.drop (t.serverIdx + 1)) := by
      have hdrop := List.forall₂_drop (1 - min attemptNo 1) h.todo
      rw [List.drop_drop, List.drop_drop,
        show t.serverIdx + min attemptNo 1 + (1 - min attemptNo 1) = t.serverIdx + 1 by omega]
        at hdrop
      exact hdrop
    obtain ⟨a', b', halike, hmax, huuids,
        ⟨hleft, hright, htodo⟩ | ⟨exc, exc', hleft, hright, hsame, hsame'⟩⟩ :=
      updateSequence_alike hsim h.session t.serverIdx t.blockIdx hroutes hrest
    · rw [hleft, hright]
      have hstates : AlikeStates R batch features stepId 0
          { s with session := a', serverIdx := t.serverIdx, blockIdx := t.blockIdx }
          { t with session := b' } :=
        ⟨halike, Nat.lt_of_lt_of_le h.drawn huuids, hmax ▸ htodo, rfl, rfl, h.inputs_eq, h.shape,
          h.shared_eq⟩
      have hsim' : SimulatesServers servers servers' batch features b'.maxLength Hosted R :=
        hmax ▸ hsim
      obtain ⟨s', t', result, result', hs', ht', hresult, hmax', hnext⟩ :=
        requestSpan_alike hargs hsim' hstates attempt.failure attemptNo
      exact ⟨s', t', result, result', congrArg some hs', congrArg some ht', hresult,
        hmax'.trans hmax, hnext⟩
    · rw [hleft, hright]
      refine ⟨_, _, _, _, rfl, rfl, rfl, hmax, halike, Nat.lt_of_lt_of_le h.drawn huuids, ?_, rfl, rfl,
        h.inputs_eq, h.shape, h.shared_eq⟩
      show List.Forall₂ (AlikeServerSessions R batch features b'.maxLength stepId)
        (a'.serverSessions.drop (t.serverIdx + min (attemptNo + 1) 1))
        (b'.serverSessions.drop (t.serverIdx + min (attemptNo + 1) 1))
      rw [Nat.min_eq_right (Nat.le_add_left 1 attemptNo), hsame, hsame', hmax]
      exact hrest
  · rw [if_neg hupdate, if_neg hupdate]
    obtain rfl : attemptNo = 0 := by
      have hnot := (not_or.mp hupdate).2
      omega
    obtain ⟨s', t', result, result', hs', ht', hrest⟩ :=
      requestSpan_alike hargs hsim h attempt.failure 0
    exact ⟨s', t', result, result', congrArg some hs', congrArg some ht', hrest⟩

/-- **A step of both sessions**: they are alike again, and it returns the same or raises in both, or
    ends in neither. -/
theorem runStep_alike {args : StepArgs α} (hargs : PlainArgs args)
    (hsim : SimulatesServers servers servers' batch features b.maxLength Hosted R)
    (h : AlikeSessions R batch features b.uuids a b) {n : Nat}
    (hshape : args.inputs.shape = [batch, n, features]) {attempts : List StepAttempt}
    (hroutes : ∀ attempt ∈ attempts, RoutesHosted Hosted attempt) :
    Option.Rel (fun x y => AlikeSessions R batch features y.1.uuids x.1 y.1 ∧
        y.1.maxLength = b.maxLength ∧ Alike Eq x.2 y.2)
      (a.runStep servers args attempts) (b.runStep servers' args attempts) := by
  have hstart : AlikeStates R batch features b.uuids 0 (a.startStep args : StepState σ κ α)
      (b.startStep args) := by
    refine ⟨⟨h.numBlocks_eq, h.maxRetries_eq, h.maxLength_eq, h.position_eq, ?_, ?_⟩,
      Nat.lt_succ_self _, h.sessions, rfl, rfl, rfl, ⟨n, hshape⟩, rfl, rfl⟩
    · exact congrArg (· + 1) h.uuids_eq
    · exact h.sessions.imp fun x y hxy => hxy.mono hsim (Nat.le_succ _)
  let Related : Nat → StepState σ κ α → StepState τ κ α → Prop := fun attemptNo s t =>
    AlikeStates R batch features b.uuids attemptNo s t ∧ t.session.maxLength = b.maxLength
  have hloop : EndAlike (fun _ s t => ∃ attemptNo, Related attemptNo s t)
      (retryLoop InferenceSession.stepFinished (InferenceSession.stepAttempt servers args b.uuids)
        b.maxRetries attempts 0 (a.startStep args))
      (retryLoop InferenceSession.stepFinished (InferenceSession.stepAttempt servers' args b.uuids)
        b.maxRetries attempts 0 (b.startStep args)) := by
    refine retryLoop_simulates Related ?_ ?_ hroutes ⟨hstart, rfl⟩
    · rintro attemptNo s t ⟨hst, -⟩
      show decide (s.session.numBlocks ≤ s.blockIdx) = decide (t.session.numBlocks ≤ t.blockIdx)
      rw [hst.session.numBlocks_eq, hst.blockIdx_eq]
    · rintro attemptNo attempt s t ⟨hst, hmax⟩ hroute
      obtain ⟨s', t', result, result', hs', ht', hresult, hmax', hnext⟩ :=
        stepAttempt_alike hargs hroute (hmax ▸ hsim) hst
      rw [hs', ht']
      exact .some ⟨hresult, hnext, hmax'.trans hmax⟩
  unfold InferenceSession.runStep
  rw [h.uuids_eq, h.maxRetries_eq]
  generalize retryLoop InferenceSession.stepFinished _ _ attempts 0 (a.startStep args) = x at hloop ⊢
  generalize retryLoop InferenceSession.stepFinished _ _ attempts 0 (b.startStep args) = y at hloop ⊢
  cases hloop with
  | none => exact .none
  | @some u v huv =>
    obtain ⟨s, result⟩ := u
    obtain ⟨t, result'⟩ := v
    obtain ⟨hresult, attemptNo, hstates, hmax⟩ := huv
    have hsessions : AlikeSessions R batch features t.session.uuids s.session t.session := by
      refine ⟨hstates.session.numBlocks_eq, hstates.session.maxRetries_eq,
        hstates.session.maxLength_eq, hstates.session.position_eq, hstates.session.uuids_eq, ?_⟩
      exact hstates.session.sessions.imp fun x y hxy => hxy.mono (hmax ▸ hsim) hstates.drawn
    cases result with
    | some exc =>
      cases result' with
      | none => cases hresult
      | some exc' => exact .some ⟨hsessions, hmax, .error exc exc'⟩
    | none =>
      cases result' with
      | some exc' => cases hresult
      | none =>
        refine .some ⟨⟨hsessions.numBlocks_eq, hsessions.maxRetries_eq, hsessions.maxLength_eq, ?_,
          hsessions.uuids_eq, hsessions.sessions⟩, hmax, .ok ?_⟩
        · exact congrArg (· + args.inputs.shape.getD 1 0) hsessions.position_eq
        · exact congrArg (Tensor.lastTokens _) hstates.inputs_eq

/-- A rollback of both sessions. -/
theorem setPosition_alike (h : AlikeSessions R batch features b.uuids a b) (start : Nat) :
    Alike (fun a' b' => AlikeSessions R batch features b'.uuids a' b' ∧ b'.maxLength = b.maxLength)
      (a.setPosition start) (b.setPosition start) := by
  unfold InferenceSession.setPosition
  refine (Alike.mapM (fun x y hxy => hxy.setPosition start) h.sessions).bind fun as bs hall => ?_
  exact .ok ⟨⟨h.numBlocks_eq, h.maxRetries_eq, h.maxLength_eq, rfl, h.uuids_eq, hall⟩, rfl⟩

end Sessions

/-! ## Runs -/

/-- What a user does with a session: a step with what its attempts meet, or a rollback. -/
inductive UserEvent (α : Type) where
  | step (inputs : Tensor α) (attempts : List StepAttempt)
  | rollback (start : Nat)

/-- The session after an event, and the outputs of a step that does not raise.  A step that does not
    end leaves nothing, and neither does a rollback that raises. -/
def InferenceSession.perform (servers : InferenceServers σ κ α) (session : InferenceSession σ α) :
    UserEvent α → Option (InferenceSession σ α × Option (Tensor α))
  | .step inputs attempts =>
    (session.step servers inputs none none none attempts).map fun r => (r.1, r.2.toOption)
  | .rollback start =>
    match session.setPosition start with
    | .error _ => none
    | .ok session => some (session, none)

/-- The inputs of a step are hidden states, and its attempts take routes along servers that are
    hosted. -/
def PlainEvent (batch features : Nat) (Hosted : RemoteSpanInfo → Prop) : UserEvent α → Prop
  | .step inputs attempts => (∃ n, inputs.shape = [batch, n, features]) ∧
      ∀ attempt ∈ attempts, RoutesHosted Hosted attempt
  | .rollback _ => True

section Runs

variable {servers : InferenceServers σ κ α} {servers' : InferenceServers τ κ α}
  {batch features maxLength : Nat} {Hosted : RemoteSpanInfo → Prop}
  {R : RemoteSpanInfo → Nat → σ → τ → Prop}

/-- One event. -/
theorem perform_alike {a : InferenceSession σ α} {b : InferenceSession τ α}
    (hsim : SimulatesServers servers servers' batch features maxLength Hosted R)
    (h : AlikeSessions R batch features b.uuids a b) (hmax : b.maxLength = maxLength)
    {event : UserEvent α} (hevent : PlainEvent batch features Hosted event) :
    Option.Rel (fun x y => (AlikeSessions R batch features y.1.uuids x.1 y.1 ∧
        y.1.maxLength = maxLength) ∧ x.2 = y.2)
      (a.perform servers event) (b.perform servers' event) := by
  subst hmax
  cases event with
  | step inputs attempts =>
    obtain ⟨⟨n, hshape⟩, hroutes⟩ := hevent
    have hcheck : ∀ {ρ : Type} (session : InferenceSession ρ α), session.maxLength = b.maxLength →
        session.position = b.position →
        session.checkStep inputs none none none = b.checkStep inputs none none none := by
      intro ρ session hmax hposition
      show (if session.maxLength < session.position + inputs.shape.getD 1 0 then _ else _) = _
      rw [hmax, hposition]
      rfl
    have hchecked := hcheck a h.maxLength_eq h.position_eq
    show Option.Rel _ ((a.step servers inputs none none none attempts).map _)
      ((b.step servers' inputs none none none attempts).map _)
    unfold InferenceSession.step
    rw [hchecked]
    cases hargs : b.checkStep inputs none none none with
    | error exc => exact .some ⟨⟨h, rfl⟩, rfl⟩
    | ok args =>
      obtain ⟨hinputs, -⟩ := InferenceSession.checkStep_spec hargs
      have hplain : PlainArgs args := by
        have hsplit : (if b.maxLength < b.position + inputs.shape.getD 1 0 then _ else
          (.ok ⟨inputs, dummy, [], dummy⟩ : Except PyExc (StepArgs α))) = .ok args := hargs
        split at hsplit
        · cases hsplit
        · cases hsplit
          exact ⟨rfl, rfl, rfl⟩
      have hrun := runStep_alike hplain hsim h (hinputs ▸ hshape) hroutes
      simp only
      generalize a.runStep servers args attempts = x at hrun ⊢
      generalize b.runStep servers' args attempts = y at hrun ⊢
      cases hrun with
      | none => exact .none
      | @some u v huv =>
        obtain ⟨hsessions, hmax, houtputs⟩ := huv
        refine .some ⟨⟨hsessions, hmax⟩, ?_⟩
        show u.2.toOption = v.2.toOption
        generalize u.2 = x at houtputs ⊢
        generalize v.2 = y at houtputs ⊢
        cases houtputs with
        | ok heq => rw [heq]
        | error e e' => rfl
  | rollback start =>
    have hset := setPosition_alike h start
    unfold InferenceSession.perform
    simp only
    generalize a.setPosition start = x at hset ⊢
    generalize b.setPosition start = y at hset ⊢
    cases hset with
    | ok hab => exact .some ⟨hab, rfl⟩
    | error e e' => exact .none

/-- **A session cannot tell the swarms apart**: for all steps and rollbacks, whatever fails on the
    way. -/
theorem trace_simulates
    (hsim : SimulatesServers servers servers' batch features maxLength Hosted R) (numBlocks : Nat)
    (maxRetries : Option Nat) {events : List (UserEvent α)}
    (hevents : ∀ event ∈ events, PlainEvent batch features Hosted event) :
    trace (InferenceSession.perform servers) (.new σ α numBlocks maxRetries maxLength) events
      = trace (InferenceSession.perform servers') (.new τ α numBlocks maxRetries maxLength) events :=
  trace_eq_of_simulates
    (fun a b => AlikeSessions R batch features b.uuids a b ∧ b.maxLength = maxLength)
    (fun _ _ _ hab hevent => perform_alike hsim hab.1 hab.2 hevent) hevents
    ⟨⟨rfl, rfl, rfl, rfl, rfl, .nil⟩, rfl⟩

end Runs

end Drift
