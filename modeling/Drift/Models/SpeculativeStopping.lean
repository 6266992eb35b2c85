/-
  Where `DistributedLlamaForSpeculativeGeneration._sample` of `models/llama/speculative_model.py`
  stops.

  An iteration appends several tokens, and the stopping criteria are asked once, about all of them.
  `transformers` passes the criteria for the end tokens, which looks at the last token, and the one
  for the length.  Greedy decoding asks them behind every token.  So both return the same tokens
  exactly if no iteration accepts its draft past a token that stops (`sample_stops_iff`): past an
  end token, or past the length if the session has room for more.

  The loop ends, because an iteration appends a token at least.
-/
import Drift.Models.SpeculativeContext

namespace Drift

variable {σ κ α β : Type} [LinearOrder κ] [Zero α]

/-! ## The source -/

/-- `EosTokenCriteria`. -/
def eosTokenCriteria (eosTokenId inputIds : List Int) : Bool :=
  inputIds.getLast?.any fun token => decide (token ∈ eosTokenId)

/-- `MaxLengthCriteria`. -/
def maxLengthCriteria (maxLength : Nat) (inputIds : List Int) : Bool :=
  decide (maxLength ≤ inputIds.length)

/-- What `generate` calls `_sample` with.  Without end tokens there is no criterion for them. -/
def SampleConfig.generation (eosTokenId : List Int) (padTokenId : Option Int) (maxLength : Nat)
    (pads : eosTokenId ≠ [] → padTokenId.isSome = true) : SampleConfig where
  stoppingCriteria inputIds :=
    maxLengthCriteria maxLength inputIds || eosTokenCriteria eosTokenId inputIds
  hasEosStoppingCriteria := decide (eosTokenId ≠ [])
  padTokenId := padTokenId
  pads h := pads (of_decide_eq_true h)

/-- The loop of `_sample`: the tokens that it returns, or `none` if an iteration raises.  There are
    to be enough attempts. -/
def SampleState.sample [LinearOrder β] (servers : InferenceServers σ κ α)
    (model : SpeculativeModel α β) (draft : Draft) (config : SampleConfig) :
    List (List StepAttempt) → SampleState σ α → Option (List Int)
  | [], s => if s.unfinished then none else some s.inputIds
  | attempts :: rest, s =>
    if s.unfinished then
      (s.iterate servers model draft config attempts).bind
        (SampleState.sample servers model draft config rest)
    else some s.inputIds

/-! ## What is to hold -/

/-- Greedy decoding of the distributed model, one token at a time. -/
def SpeculativeModel.greedyDecode [LinearOrder β] (blocks : CausalBlocks α) (numBlocks : Nat)
    (model : SpeculativeModel α β) (config : SampleConfig) (maxNewTokens : Nat)
    (inputIds : List Int) : List Int :=
  writeUntil (model.nextToken blocks numBlocks) config.stoppingCriteria (max 1 maxNewTokens) inputIds

/-- No criterion stops behind a beginning of the draft if greedy decoding goes on with the draft
    there. -/
def NotPastStop [LinearOrder β] (blocks : CausalBlocks α) (model : SpeculativeModel α β)
    (draft : Draft) (config : SampleConfig) (s : SampleState (CausalStream α) α)
    (_ : List StepAttempt) : Prop :=
  s.unfinished = true → ∀ tokens, s.speculativeTokens draft = .ok tokens →
    ∀ j, 0 < j → j < tokens.length →
      Follows (model.nextToken blocks s.session.numBlocks) s.inputIds (tokens.take (j + 1)) →
      config.stoppingCriteria (s.inputIds ++ tokens.take j) = false

/-- The swarm is up. -/
def SwarmIsUp (κ : Type) [LinearOrder κ] (blocks : CausalBlocks α)
    (s : SampleState (CausalStream α) α) (attempts : List StepAttempt) : Prop :=
  s.unfinished = true → SwarmUp (causalServers κ blocks) s.session attempts

/-! ## An iteration -/

section Iteration

variable [LinearOrder β] {blocks : CausalBlocks α} {model : SpeculativeModel α β} {draft : Draft}
  {config : SampleConfig} {s : SampleState (CausalStream α) α}
  {v : Validation (CausalStream α) α β}

/-- Before its last token, what comes out is the draft. -/
theorem Verified.take_tokens (h : Verified blocks model draft s v) {j : Nat}
    (hj : j < v.tokens.length) :
    j < v.speculativeTokens.length ∧ v.tokens.take j = v.speculativeTokens.take j := by
  have hlength := h.ofDraft.length_le
  rw [List.length_dropLast, List.length_dropLast] at hlength
  have hpos := List.length_pos_iff.mpr h.draft_ne_nil
  refine ⟨by omega, ?_⟩
  have htake : v.tokens.dropLast.take j = v.speculativeTokens.dropLast.take j := by
    obtain ⟨rest, hrest⟩ := h.ofDraft
    rw [← hrest, List.take_append_of_le_length (by rw [List.length_dropLast]; omega)]
  rw [List.dropLast_eq_take, List.dropLast_eq_take, List.take_take, List.take_take,
    Nat.min_eq_left (by omega), Nat.min_eq_left (by omega)] at htake
  exact htake

/-- The condition says it of the tokens that are appended. -/
theorem Verified.notPastStop_iff (h : Verified blocks model draft s v)
    (hunfinished : s.unfinished = true)
    (attempts : List StepAttempt) :
    NotPastStop blocks model draft config s attempts ↔
      GoesOn config.stoppingCriteria s.inputIds v.tokens := by
  constructor
  · intro hpast j hj hlt
    obtain ⟨hlt', htake⟩ := h.take_tokens hlt
    rw [htake]
    exact hpast hunfinished _ h.drafted j hj hlt' ((h.accepts j hj hlt').mp hlt)
  · intro hgoes _ tokens hdraft j hj hlt hfollows
    obtain rfl := Except.ok.inj (h.drafted.symm.trans hdraft)
    have haccepted := (h.accepts j hj hlt).mpr hfollows
    rw [← (h.take_tokens haccepted).2]
    exact hgoes j hj haccepted

end Iteration

/-! ## The loop -/

section Loop

variable [LinearOrder β] {servers : InferenceServers σ κ α} {blocks : CausalBlocks α}
  {model : SpeculativeModel α β} {draft : Draft} {config : SampleConfig}

theorem sample_finished {s : SampleState σ α} (hfinished : s.unfinished = false)
    (attempts : List (List StepAttempt)) :
    s.sample servers model draft config attempts = some s.inputIds := by
  cases attempts <;> simp [SampleState.sample, hfinished]

/-- Behind the last iteration there are no steps. -/
theorem allSteps_finished {C : SampleState σ α → List StepAttempt → Prop}
    {s : SampleState σ α} (hfinished : s.unfinished = false)
    (hC : ∀ attempts, C s attempts) (attempts : List (List StepAttempt)) :
    AllSteps (SampleState.iterate servers model draft config) C s attempts := by
  cases attempts with
  | nil => trivial
  | cons first rest =>
    refine ⟨hC first, fun s' hs' => ?_⟩
    rw [SampleState.iterate, hfinished] at hs'
    cases hs'

/-- **The loop returns** when a length stops it, for which there are attempts enough and room in the
    session.  What it appends is of `nextToken` and stops, and no beginning of it does exactly if
    the condition holds of all iterations. -/
theorem Validated.sample (hptune : model.ptune = none) {limit : Nat}
    (hstops : ∀ inputIds, config.stoppingCriteria inputIds = false → inputIds.length < limit) :
    ∀ {attempts : List (List StepAttempt)} {s : SampleState (CausalStream α) α}
      {kept : List (Column α)}, Validated blocks model s kept → s.unfinished = true →
      limit ≤ s.session.maxLength → s.inputIds.length < s.session.maxLength → attempts ≠ [] →
      limit ≤ s.inputIds.length + attempts.length →
      AllSteps (SampleState.iterate (causalServers κ blocks) model draft config)
        (SwarmIsUp κ blocks) s attempts →
      ∃ rest, s.sample (causalServers κ blocks) model draft config attempts
          = some (s.inputIds ++ rest) ∧ rest ≠ [] ∧
        Follows (model.nextToken blocks s.session.numBlocks) s.inputIds rest ∧
        config.stoppingCriteria (s.inputIds ++ rest) = true ∧
        (AllSteps (SampleState.iterate (causalServers κ blocks) model draft config)
            (NotPastStop blocks model draft config) s attempts ↔
          GoesOn config.stoppingCriteria s.inputIds rest) := by
  intro attempts
  induction attempts with
  | nil => exact fun _ _ _ _ hne => absurd rfl hne
  | cons first others ih =>
    intro s kept h hunfinished hlimit hlt _ hfuel hup
    obtain ⟨v, hv, hverified⟩ := h.validate hptune draft (hup.1 hunfinished) hlt
    have hids := inputIds_extend config v hunfinished
    have hstep : s.iterate (causalServers κ blocks) model draft config first
        = some (s.extend config v) := by
      rw [SampleState.iterate, if_pos hunfinished, hv]
    have hsample : s.sample (causalServers κ blocks) model draft config (first :: others)
        = (s.extend config v).sample (causalServers κ blocks) model draft config others := by
      rw [SampleState.sample, if_pos hunfinished, hstep, Option.bind_some]
    have hunfinished' := unfinished_extend config v hunfinished
    have hpos := List.length_pos_iff.mpr hverified.tokens_ne_nil
    have hcondition : AllSteps (SampleState.iterate (causalServers κ blocks) model draft config)
          (NotPastStop blocks model draft config) s (first :: others) ↔
        GoesOn config.stoppingCriteria s.inputIds v.tokens ∧
        AllSteps (SampleState.iterate (causalServers κ blocks) model draft config)
          (NotPastStop blocks model draft config) (s.extend config v) others := by
      refine and_congr (hverified.notPastStop_iff hunfinished first) ⟨fun hall => hall _ hstep, ?_⟩
      intro hall s' hs'
      obtain rfl := Option.some.inj (hstep.symm.trans hs')
      exact hall
    cases hstop : config.stoppingCriteria (s.inputIds ++ v.tokens) with
    | true =>
      -- the iteration is the last one
      have hfinished : (s.extend config v).unfinished = false := by
        rw [hunfinished', hstop]
        exact rfl
      refine ⟨v.tokens, ?_, hverified.tokens_ne_nil, hverified.follows, hstop, ?_⟩
      · rw [hsample, sample_finished hfinished, hids]
      · rw [hcondition]
        refine and_iff_left (allSteps_finished hfinished (fun _ hunfinished => ?_) others)
        cases hfinished.symm.trans hunfinished
    | false =>
      have hmore : (s.extend config v).unfinished = true := by
        rw [hunfinished', hstop]
        exact rfl
      obtain ⟨kept', h'⟩ := h.extend config hverified hunfinished
      have hlength := hstops _ hstop
      have hcount : (s.extend config v).inputIds.length = s.inputIds.length + v.tokens.length := by
        rw [hids, List.length_append]
      rw [List.length_append] at hlength
      rw [List.length_cons] at hfuel
      have hmaxLength : (s.extend config v).session.maxLength = s.session.maxLength :=
        hverified.maxLength
      have hnumBlocks : (s.extend config v).session.numBlocks = s.session.numBlocks :=
        hverified.numBlocks
      obtain ⟨rest, hresult, hne, hfollows, hend, hiff⟩ := ih h' hmore (by omega) (by omega)
        (List.ne_nil_of_length_pos (by omega)) (by omega) (hup.2 _ hstep)
      rw [hids, List.append_assoc] at hresult hend
      rw [hids, hnumBlocks] at hfollows
      refine ⟨v.tokens ++ rest, hsample.trans hresult, List.append_ne_nil_of_left_ne_nil
        hverified.tokens_ne_nil _, follows_append.mpr ⟨hverified.follows, hfollows⟩, hend, ?_⟩
      rw [hcondition, hiff, hids, goesOn_append hverified.tokens_ne_nil hne]
      exact and_congr_right fun _ => (and_iff_right hstop).symm

end Loop

/-- A length stops generation. -/
theorem length_lt_of_goes {eosTokenId inputIds : List Int} {padTokenId : Option Int}
    {maxLength : Nat} {hpads : eosTokenId ≠ [] → padTokenId.isSome = true}
    (h : (SampleConfig.generation eosTokenId padTokenId maxLength hpads).stoppingCriteria inputIds
      = false) :
    inputIds.length < maxLength := by
  obtain ⟨hlength, -⟩ := Bool.or_eq_false_iff.mp h
  exact Nat.lt_of_not_le (of_decide_eq_false hlength)

/-- **Where speculative decoding stops**: for every model without soft prompts, every draft, prompt,
    iteration size, end tokens with a padding token and number of new tokens, in a session with room
    for these, while the swarm is up.  The loop returns, and what it returns is what greedy decoding
    returns exactly if the condition holds of all iterations. -/
theorem sample_stops_iff [LinearOrder β] (blocks : CausalBlocks α) (model : SpeculativeModel α β)
    (draft : Draft) (eosTokenId : List Int) (padTokenId : Option Int) (maxNewTokens numBlocks : Nat)
    (maxRetries : Option Nat) (maxLength : Nat) (prompt : List Int) (iterationSize : Nat)
    (attempts : List (List StepAttempt)) (hblocks : 0 < numBlocks) (hprompt : prompt ≠ [])
    (hpads : eosTokenId ≠ [] → padTokenId.isSome = true) (hsize : 0 < iterationSize)
    (hptune : model.ptune = none)
    (hlength : prompt.length + max 1 maxNewTokens ≤ maxLength)
    (hattempts : max 1 maxNewTokens ≤ attempts.length)
    (hup : AllSteps (SampleState.iterate (causalServers κ blocks) model draft
        (.generation eosTokenId padTokenId (prompt.length + maxNewTokens) hpads))
      (SwarmIsUp κ blocks) (.new _ _ numBlocks maxRetries maxLength prompt iterationSize)
      attempts) :
    ∃ result, SampleState.sample (causalServers κ blocks) model draft
        (.generation eosTokenId padTokenId (prompt.length + maxNewTokens) hpads) attempts
        (.new _ _ numBlocks maxRetries maxLength prompt iterationSize) = some result ∧
      (result = model.greedyDecode blocks numBlocks
          (.generation eosTokenId padTokenId (prompt.length + maxNewTokens) hpads) maxNewTokens
          prompt ↔
        AllSteps (SampleState.iterate (causalServers κ blocks) model draft
            (.generation eosTokenId padTokenId (prompt.length + maxNewTokens) hpads))
          (NotPastStop blocks model draft
            (.generation eosTokenId padTokenId (prompt.length + maxNewTokens) hpads))
          (.new _ _ numBlocks maxRetries maxLength prompt iterationSize) attempts) := by
  have hnew := validated_new blocks model hblocks maxRetries maxLength hprompt hsize
  have hpos : 0 < max 1 maxNewTokens := by omega
  obtain ⟨rest, hresult, hne, hfollows, hstop, hiff⟩ := Validated.sample hptune
    (fun inputIds => length_lt_of_goes) hnew rfl
    (show prompt.length + maxNewTokens ≤ maxLength by omega)
    (show prompt.length < maxLength by omega)
    (List.ne_nil_of_length_pos (by omega))
    (show prompt.length + maxNewTokens ≤ prompt.length + attempts.length by omega) hup
  refine ⟨prompt ++ rest, hresult, ?_⟩
  rw [hiff]
  constructor
  · intro heq j hj hlt
    by_contra hstops
    -- greedy decoding stops there, and is shorter
    have hle : (model.greedyDecode blocks numBlocks
        (.generation eosTokenId padTokenId (prompt.length + maxNewTokens) hpads) maxNewTokens
        prompt).length ≤ prompt.length + j :=
      length_writeUntil_le hfollows hj (Nat.le_of_lt hlt) (eq_true_of_ne_false hstops)
    rw [← heq, List.length_append] at hle
    omega
  · intro hgoes
    refine (writeUntil_eq hne hfollows hstop hgoes (Nat.le_of_not_lt fun hlong => ?_)).symm
    have hlast : (prompt ++ rest.take (rest.length - 1)).length < prompt.length + maxNewTokens :=
      length_lt_of_goes (hgoes (rest.length - 1) (by omega) (by omega))
    rw [List.length_append, List.length_take] at hlast
    omega

/-- One end token, and padding with the token 0. -/
abbrev zeroPadded (eosTokenId : Int) (maxLength : Nat) : SampleConfig :=
  .generation [eosTokenId] (some 0) maxLength fun _ => rfl

/-- Both tokens of the draft are accepted, and the last one stops generation. -/
theorem sample_stops_iff_two :
    ∃ result, SampleState.sample (causalServers String lastBlocks) (oneTokenModel none) zeroDraft
        (zeroPadded 5 4) [[echoAttempt], [echoAttempt]] (.new _ _ 1 none 4 [1, 1] 2) = some result ∧
      (result = (oneTokenModel none).greedyDecode lastBlocks 1 (zeroPadded 5 4) 2 [1, 1] ↔
        AllSteps (SampleState.iterate (causalServers String lastBlocks) (oneTokenModel none) zeroDraft
            (zeroPadded 5 4))
          (NotPastStop lastBlocks (oneTokenModel none) zeroDraft (zeroPadded 5 4))
          (.new _ _ 1 none 4 [1, 1] 2) [[echoAttempt], [echoAttempt]]) := by
  refine sample_stops_iff lastBlocks (oneTokenModel none) zeroDraft [5] (some 0) 2 1 none 4 [1, 1] 2
    _ Nat.zero_lt_one (List.cons_ne_nil _ _) (fun _ => rfl) Nat.zero_lt_two rfl (by decide) (by decide)
    ⟨fun _ => swarmUp_new, fun s' hs' => ⟨fun hunfinished => ?_, fun _ _ => trivial⟩⟩
  -- there is no second iteration
  have hstep : ∃ s, SampleState.iterate (causalServers String lastBlocks) (oneTokenModel none)
      zeroDraft (zeroPadded 5 4) (.new _ _ 1 none 4 [1, 1] 2) [echoAttempt] = some s ∧
      s.unfinished = false := ⟨_, rfl, rfl⟩
  obtain ⟨s, hs, hfinished⟩ := hstep
  obtain rfl := Option.some.inj (hs.symm.trans hs')
  exact absurd (hfinished.symm.trans hunfinished) Bool.false_ne_true

/-- **An end token in the middle of the draft** is passed over: the iteration appends both tokens of
    the draft, and greedy decoding stops behind the first. -/
theorem sample_passes_end_token :
    ¬ ∃ result, SampleState.sample (causalServers String lastBlocks) (oneTokenModel none) zeroDraft
        (zeroPadded 0 7) (List.replicate 5 [echoAttempt]) (.new _ _ 1 none 7 [1, 1] 2)
          = some result ∧
      result = (oneTokenModel none).greedyDecode lastBlocks 1 (zeroPadded 0 7) 5 [1, 1] := by
  rintro ⟨result, hresult, hgreedy⟩
  have hsample : SampleState.sample (causalServers String lastBlocks) (oneTokenModel none) zeroDraft
      (zeroPadded 0 7) (List.replicate 5 [echoAttempt]) (.new _ _ 1 none 7 [1, 1] 2)
        = some [1, 1, 0, 0] := rfl
  have hdecode : (oneTokenModel none).greedyDecode lastBlocks 1 (zeroPadded 0 7) 5 [1, 1]
      = [1, 1, 0] := rfl
  rw [hgreedy, hdecode] at hresult
  nomatch hsample.symm.trans hresult

end Drift
