/-
  A session with the handlers of a swarm computes the model.

  The refinement of `ServedSwarm` is used here: with causal servers a session returns, for the new
  tokens of a step, what all blocks make of the tokens that it keeps, as long as no request fails
  behind position 0.  So it does with the handlers (`session_computes`), for any steps and
  rollbacks: `modelTrace` is computed from the blocks alone, and the routes, the retries and the
  caches of the servers do not show.
-/
import Drift.Client.Failover
import Drift.Client.ServedSwarm

namespace Drift

open Tensor

variable {κ α : Type} [LinearOrder κ] [Zero α]

/-- What the model returns, with the tokens `kept` behind the steps and rollbacks so far. -/
def modelTrace (blocks : CausalBlocks α) (batch features numBlocks : Nat) :
    List (Column α) → List (UserEvent α) → List (Option (Tensor α))
  | _, [] => []
  | kept, .step inputs _ :: events =>
    some (ofColumns batch features
        ((layers blocks.run 0 numBlocks (kept ++ inputs.columns)).drop kept.length)) ::
      modelTrace blocks batch features numBlocks (kept ++ inputs.columns) events
  | kept, .rollback start :: events =>
    none :: modelTrace blocks batch features numBlocks (kept.take start) events

/-- The events of a session that survives, from a position on: a step fits, and attempts on servers
    that stay up come before the retries are used up; behind position 0 no request fails.  A
    rollback does not go forwards. -/
def Survives (numBlocks maxLength : Nat) (maxRetries : Option Nat) :
    Nat → List (UserEvent α) → Prop
  | _, [] => True
  | position, .step inputs attempts :: events =>
    position + inputs.shape.getD 1 0 ≤ maxLength ∧
      Recovers (fun streak attempt => StaysUp numBlocks (position = 0 ∨ streak ≠ 0) attempt)
        (fun _ attempt => FindsPaths attempt) maxRetries numBlocks 0 attempts ∧
      (position = 0 ∨ InferenceSession.Quiet (attempts.take numBlocks)) ∧
      Survives numBlocks maxLength maxRetries (position + inputs.shape.getD 1 0) events
  | position, .rollback start :: events =>
    start ≤ position ∧ Survives numBlocks maxLength maxRetries start events

/-! ## What a step leaves alone -/

namespace InferenceSession

variable {σ : Type} {servers : InferenceServers σ κ α}

theorem requestSpan_maxRetries (servers : InferenceServers σ κ α) (args : StepArgs α)
    (stepId : Nat) (failure : Option PyExc) (s : StepState σ κ α) :
    (requestSpan servers args stepId failure s).1.session.maxRetries = s.session.maxRetries := by
  unfold requestSpan
  split
  · rfl
  · split
    · simp only
      split <;> rfl
    · rfl

omit [LinearOrder κ] [Zero α] in
theorem updateSequence_maxRetries (servers : InferenceServers σ κ α)
    (session : InferenceSession σ α) (serverIdx blockIdx : Nat) (attempt : StepAttempt) :
    (session.updateSequence servers serverIdx blockIdx attempt).1.maxRetries
      = session.maxRetries := by
  unfold updateSequence
  split <;> rfl

theorem runStep_maxRetries {session session' : InferenceSession σ α} {args : StepArgs α}
    {attempts : List StepAttempt} {result : Except PyExc (Tensor α)}
    (h : session.runStep servers args attempts = some (session', result)) :
    session'.maxRetries = session.maxRetries := by
  have hstep : ∀ (s : StepState σ κ α) (attemptNo : Nat) (attempt : StepAttempt)
      (s' : StepState σ κ α) (exc : Option PyExc), s.session.maxRetries = session.maxRetries →
      stepFinished s = false → True →
      stepAttempt servers args session.uuids attemptNo attempt s = some (s', exc) →
      s'.session.maxRetries = session.maxRetries := by
    intro s attemptNo attempt s' exc hs _ _ hattempt
    have hupdate := updateSequence_maxRetries servers s.session s.serverIdx s.blockIdx
      attempt
    unfold stepAttempt at hattempt
    split at hattempt
    · split at hattempt
      · rename_i updated exc' heq
        rw [heq] at hupdate
        cases hattempt
        exact hupdate.trans hs
      · rename_i updated heq
        rw [heq] at hupdate
        have hrequest := requestSpan_maxRetries servers args session.uuids
          attempt.failure { s with session := updated }
        rw [Option.some.inj hattempt] at hrequest
        exact hrequest.trans (hupdate.trans hs)
    · have hrequest := requestSpan_maxRetries servers args session.uuids
        attempt.failure s
      rw [Option.some.inj hattempt] at hrequest
      exact hrequest.trans hs
  unfold runStep at h
  cases hloop : retryLoop stepFinished (stepAttempt servers args session.uuids)
      session.maxRetries attempts 0 (session.startStep args) with
  | none =>
    rw [hloop] at h
    cases h
  | some final =>
    obtain ⟨s, exc⟩ := final
    have hinv := (retryLoop_invariant stepFinished _ _ hstep (fun _ _ => trivial) rfl hloop).1
    rw [hloop] at h
    cases exc <;> cases h <;> exact hinv

end InferenceSession

/-! ## With causal servers -/

section Runs

variable {blocks : CausalBlocks α} {batch features numBlocks maxLength : Nat}
  {maxRetries : Option Nat}

/-- **A session with causal servers** returns what the model does. -/
theorem trace_causalServers : ∀ {events : List (UserEvent α)} {kept : List (Column α)}
    {session : InferenceSession (CausalStream α) α},
    CausalSession blocks batch features kept session → session.numBlocks = numBlocks →
    session.maxLength = maxLength → session.maxRetries = maxRetries →
    (∀ inputs attempts, .step inputs attempts ∈ events → ∃ n, inputs.shape = [batch, n, features]) →
    Survives numBlocks maxLength maxRetries kept.length events →
    trace (InferenceSession.perform (causalServers κ blocks)) session events
      = modelTrace blocks batch features numBlocks kept events := by
  intro events
  induction events with
  | nil => exact fun _ _ _ _ _ _ => rfl
  | cons event events ih =>
    intro kept session hsession hnum hmax hretries hshapes hsurvives
    have hrest : ∀ inputs attempts, .step inputs attempts ∈ events →
        ∃ n, inputs.shape = [batch, n, features] :=
      fun inputs attempts hmem => hshapes inputs attempts (List.mem_cons_of_mem _ hmem)
    cases event with
    | rollback start =>
      obtain ⟨hstart, hsurvives⟩ := hsurvives
      obtain ⟨session', hset, hsession', hnum', hmax', -⟩ := hsession.setPosition hstart
      have hretries' : session'.maxRetries = session.maxRetries := by
        unfold InferenceSession.setPosition at hset
        obtain ⟨sessions, -, hset⟩ := except_bind_eq_ok.mp hset
        cases hset
        rfl
      have hlength : (kept.take start).length = start := by
        rw [List.length_take, Nat.min_eq_left hstart]
      rw [trace, modelTrace, InferenceSession.perform, hset]
      exact congrArg (none :: ·) (ih hsession' (hnum'.trans hnum) (hmax'.trans hmax)
        (hretries'.trans hretries) hrest (hlength.symm ▸ hsurvives))
    | step inputs attempts =>
      obtain ⟨hfits, hrecovers, hquiet, hsurvives⟩ := hsurvives
      obtain ⟨n, hshape⟩ := hshapes inputs attempts List.mem_cons_self
      have hn : inputs.shape.getD 1 0 = n := by
        rw [hshape]
        rfl
      rw [hn] at hfits hsurvives
      have hcheck : session.checkStep inputs none none none = .ok ⟨inputs, dummy, [], dummy⟩ := by
        show (if session.maxLength < session.position + inputs.shape.getD 1 0 then _ else _) = _
        rw [if_neg (by rw [hsession.position_eq, hn, hmax]; omega)]
      have hrecovers' : StepRecovers session attempts := by
        subst hnum hretries
        refine hrecovers.imp (fun streak attempt hup => ⟨hup.1, hup.2.1, fun hneeds => ?_⟩)
          fun _ _ hends => hends
        refine hup.2.2 (hneeds.imp_left fun hnone => ?_)
        rw [hsession.unopened hnone]
        rfl
      obtain ⟨session', outputs, hrun, hsession', hnum', hmax', hout, hcolumns⟩ :
          ∃ session' outputs,
            session.runStep (causalServers κ blocks) ⟨inputs, dummy, [], dummy⟩ attempts
              = some (session', .ok outputs) ∧
            CausalSession blocks batch features (kept ++ inputs.columns) session' ∧
            session'.numBlocks = session.numBlocks ∧ session'.maxLength = session.maxLength ∧
            outputs.shape = [batch, n, features] ∧
            outputs.columns = (layers blocks.run 0 session.numBlocks
              (kept ++ inputs.columns)).drop kept.length := by
        rcases Nat.eq_zero_or_pos kept.length with hzero | hpos
        · obtain rfl := List.length_eq_zero_iff.mp hzero
          exact hsession.runStep_atStart hrecovers' hshape (by rw [hmax]; simpa using hfits)
        · refine hsession.runStep_quiet hpos hrecovers' ?_ hshape (hmax ▸ hfits)
          have hopen : session.serverSessions ≠ [] := fun hnil => by
            rw [hsession.unopened hnil] at hpos
            exact Nat.lt_irrefl 0 hpos
          have hle : session.serverSessions.length ≤ numBlocks := by
            have hlength := (hsession.tiles.resolve_left hopen).length_le
            rw [List.length_map] at hlength
            omega
          exact fun attempt hmem => hquiet.resolve_left (Nat.pos_iff_ne_zero.mp hpos) attempt
            (List.take_subset_take_left _ hle hmem)
      have hlength : (kept ++ inputs.columns).length = kept.length + n := by
        rw [List.length_append, length_columns, hn]
      have houtputs : outputs = ofColumns batch features
          ((layers blocks.run 0 numBlocks (kept ++ inputs.columns)).drop kept.length) := by
        rw [hnum] at hcolumns
        refine columns_inj hout ?_ ?_
        · rw [shape_ofColumns, ← hcolumns, length_columns, hout]
          rfl
        · rw [← hcolumns, columns_ofColumns (columnShape_columns hout)]
      rw [trace, modelTrace, InferenceSession.perform, InferenceSession.step_of_checkStep hcheck, hrun,
        ← houtputs]
      exact congrArg (some outputs :: ·) (ih hsession' (hnum'.trans hnum) (hmax'.trans hmax)
        ((InferenceSession.runStep_maxRetries hrun).trans hretries) hrest (hlength.symm ▸ hsurvives))

end Runs

/-! ## With the handlers -/

variable [Add α] {cfg : PoolConfig}

/-- **A session with the handlers of a swarm computes the model**, in every run of steps and
    rollbacks that it survives: each step returns what all blocks make of the tokens that are kept
    and the new ones, at the positions of the new ones. -/
theorem session_computes (peers : Nat → Except PyExc (InferenceServer κ α cfg))
    (specs : Nat → CausalSpec α) (batch features maxLength numBlocks : Nat)
    (maxRetries : Option Nat) (events : List (UserEvent α)) (hbatch : 0 < batch)
    (hblocks : 0 < numBlocks)
    (hevents : ∀ event ∈ events,
      PlainEvent batch features (Reachable peers specs batch features maxLength) event)
    (hsurvives : Survives numBlocks maxLength maxRetries 0 events) :
    trace (InferenceSession.perform (rpcServers peers))
        (.new (HandlerState κ α cfg) α numBlocks maxRetries maxLength) events
      = modelTrace (causalBlocks specs) batch features numBlocks [] events := by
  have hshapes : ∀ inputs attempts, .step inputs attempts ∈ events →
      ∃ n, inputs.shape = [batch, n, features] :=
    fun inputs attempts hmem => (hevents _ hmem).1
  rw [trace_simulates (rpcServers_simulates hbatch peers specs features maxLength) numBlocks
    maxRetries hevents]
  exact trace_causalServers (causalSession_new _ batch features hblocks maxRetries maxLength) rfl rfl
    rfl hshapes hsurvives

/-- The path over the two peers is one of the table's graph. -/
theorem relayAttempt_findsPaths (second : Nat) : FindsPaths (relayAttempt second) := by
  have hfirst : ∀ {endIndex}, 0 < endIndex →
      GraphEdge (relayAttempt second).spansContainingBlock 0 endIndex (7, 0) (7, 1) :=
    fun hlt => @GraphEdge.compute _ 0 _ ⟨7, 0, 1⟩ 0 (Nat.le_refl 0) hlt List.mem_cons_self
  have hsecond : ∀ {startIndex}, startIndex ≤ 1 →
      GraphEdge (relayAttempt second).spansContainingBlock startIndex 2 (second, 1) (second, 2) :=
    fun hle => @GraphEdge.compute _ _ 2 ⟨second, 1, 2⟩ 1 hle Nat.one_lt_two List.mem_cons_self
  have hswitch : GraphEdge (relayAttempt second).spansContainingBlock 0 2 (7, 1) (second, 1) :=
    @GraphEdge.switch _ 0 2 ⟨7, 0, 1⟩ ⟨second, 1, 2⟩ 1 Nat.one_pos Nat.one_lt_two List.mem_cons_self
      rfl List.mem_cons_self
  intro startIndex endIndex nodes h
  simp only [relayAttempt] at h
  split_ifs at h with h01 h12 h02 <;> cases h
  · obtain ⟨rfl, rfl⟩ := h01
    exact ⟨⟨7, rfl⟩, ⟨7, rfl⟩, List.isChain_pair.mpr (hfirst Nat.one_pos)⟩
  · obtain ⟨rfl, rfl⟩ := h12
    exact ⟨⟨second, rfl⟩, ⟨second, rfl⟩, List.isChain_pair.mpr (hsecond (Nat.le_refl 1))⟩
  · obtain ⟨rfl, rfl⟩ := h02
    exact ⟨⟨7, rfl⟩, ⟨second, rfl⟩, .cons_cons (hfirst Nat.two_pos)
      (.cons_cons hswitch (List.isChain_pair.mpr (hsecond (Nat.zero_le 1))))⟩

/-- Both blocks are listed, so there is a route for any of them. -/
theorem relayAttempt_hasRoutes {second : Nat} (h : second = 8 ∨ second = 9) :
    HasRoutes 2 (relayAttempt second) := by
  intro startIndex endIndex hlt hle
  have hends : (startIndex = 0 ∧ endIndex = 1) ∨ (startIndex = 1 ∧ endIndex = 2) ∨
      (startIndex = 0 ∧ endIndex = 2) := by omega
  rcases h with rfl | rfl <;> rcases hends with ⟨rfl, rfl⟩ | ⟨rfl, rfl⟩ | ⟨rfl, rfl⟩ <;>
    exact ⟨_, rfl⟩

theorem servedEvents_survives : Survives 2 4 (some 3) 0 servedEvents := by
  have hup : ∀ {second : Nat} (updates : Prop), second = 8 ∨ second = 9 →
      StaysUp 2 updates (relayAttempt second) :=
    fun _ h => ⟨relayAttempt_findsPaths _, rfl, fun _ => relayAttempt_hasRoutes h⟩
  refine ⟨by decide,
    .good (hup _ (.inl rfl)) (.bad (relayAttempt_findsPaths 8) ?_
      (.good (hup _ (.inr rfl)) (.finished _ _))),
    .inl rfl, by decide, by decide,
    .good (hup _ (.inr rfl)) (.good (hup _ (.inr rfl)) (.finished _ _)), .inr ?_, trivial⟩
  · rintro m ⟨⟩
    exact .inr (by decide)
  · intro attempt hmem
    simp only [List.take, List.mem_cons, List.not_mem_nil, or_false] at hmem
    rcases hmem with rfl | rfl <;> rfl

theorem session_computes_example :
    trace (InferenceSession.perform (rpcServers relayPeers)) (.new _ Int 2 (some 3) 4) servedEvents
      = modelTrace (causalBlocks fun _ => FirstToken.spec) 1 1 2 [] servedEvents :=
  session_computes relayPeers (fun _ => FirstToken.spec) 1 1 4 2 (some 3) servedEvents Nat.one_pos
    Nat.two_pos servedEvents_plain servedEvents_survives

end Drift
