/-
  `DistributedLlamaForSpeculativeGeneration._sample` of `models/llama/speculative_model.py` with a
  logits processor.

  A processor looks at the tokens so far: a repetition penalty, say, or a list of forbidden words.
  `_sample` cuts these tokens from the end of `input_for_validation` by a negative index.  Behind
  the first iteration the buffer begins with the last token, and the others are not there; and the
  index of the last row of an iteration is zero, so that nothing is left.  So a processor is called
  with the tokens so far exactly in the first iteration, for all rows but the last (`run_sees_iff`).

  Without a processor this is the loop of `Models/Speculative` (`validateProcessed_id`).
-/
import Drift.Models.SpeculativeContext

namespace Drift

open Tensor

/-- `logits_processor`: the tokens so far, and the logits behind them. -/
abbrev LogitsProcessor (β : Type) := List Int → List β → List β

variable {σ κ α β : Type} [LinearOrder κ] [Zero α] [LinearOrder β]

/-! ## The source -/

/-- `input_for_validation[:, : -speculative_inference_iteration_size + 1 + i]`. -/
def seenTokens (inputForValidation : List Int) (iterationSize : Int) (i : Nat) : List Int :=
  pyTake inputForValidation (-iterationSize + 1 + i)

/-- `valid_token` of row `i`. -/
def rowToken (logitsProcessor : LogitsProcessor β) (inputForValidation : List Int)
    (iterationSize : Int) (i : Nat) (tokenLogits : List β) : Int :=
  argmax (logitsProcessor (seenTokens inputForValidation iterationSize i) tokenLogits)

/-- What the loop over the rows finds: `all_valid_tokens`, `first_token`, and beside them the tokens
    that the processor was called with, row by row. -/
structure Scored where
  allValidTokens : List Int
  firstToken : Option Int
  calls : List (List Int)

/-- The loop over the rows of `full_token_logits`, from row `i` on. -/
def scoreLoop (logitsProcessor : LogitsProcessor β) (inputForValidation : List Int)
    (iterationSize : Int) : Nat → List (List β) → List Int → Except PyExc Scored
  | _, _, [] => .ok ⟨[], none, []⟩
  | _, [], _ :: _ => .error .indexError
  | i, tokenLogits :: rows, speculativeToken :: speculativeTokens =>
    let seen := seenTokens inputForValidation iterationSize i
    let validToken := rowToken logitsProcessor inputForValidation iterationSize i tokenLogits
    if validToken = speculativeToken then do
      let scored ← scoreLoop logitsProcessor inputForValidation iterationSize (i + 1) rows
        speculativeTokens
      .ok ⟨validToken :: scored.allValidTokens, some validToken, seen :: scored.calls⟩
    else .ok ⟨[], some validToken, [seen]⟩

/-- `all_valid_tokens` behind the loop. -/
def Scored.tokens (scored : Scored) : Except PyExc (List Int) :=
  if scored.allValidTokens = [] then
    orRaise (.runtimeError "torch.cat(): expected a non-empty list of Tensors")
      (scored.firstToken.map fun token => [token])
  else .ok scored.allValidTokens

/-- What an iteration goes through, and what its processor is called with. -/
structure ProcessedValidation (σ α β : Type) extends Validation σ α β where
  calls : List (List Int)

/-- The body of the loop up to `all_valid_tokens`. -/
def SampleState.validateProcessed (servers : InferenceServers σ κ α)
    (model : SpeculativeModel α β) (draft : Draft) (logitsProcessor : LogitsProcessor β)
    (s : SampleState σ α) (attempts : List StepAttempt) :
    Option (Except PyExc (ProcessedValidation σ α β)) :=
  match s.speculativeTokens draft with
  | .error exc => some (.error exc)
  | .ok speculativeTokens =>
    match s.inputForValidation speculativeTokens with
    | .error exc => some (.error exc)
    | .ok (before, input) =>
      (model.forward servers before input attempts).map fun (after, result) => do
        let logits ← result
        let fullTokenLogits := pyFrom logits (-s.nextSize)
        let scored ← scoreLoop logitsProcessor input s.nextSize 0 fullTokenLogits speculativeTokens
        let tokens ← scored.tokens
        .ok ⟨⟨speculativeTokens, before, input, after, fullTokenLogits, tokens⟩, scored.calls⟩

/-- One turn of the loop of `_sample`; one that raises ends it. -/
def SampleState.iterateProcessed (servers : InferenceServers σ κ α) (model : SpeculativeModel α β)
    (draft : Draft) (config : SampleConfig) (logitsProcessor : LogitsProcessor β)
    (s : SampleState σ α) (attempts : List StepAttempt) : Option (SampleState σ α) :=
  if s.unfinished then
    match s.validateProcessed servers model draft logitsProcessor attempts with
    | some (.ok v) => some (s.extend config v.toValidation)
    | _ => none
  else none

/-! ## Without a processor -/

omit [LinearOrder κ] [Zero α] in
theorem scoreLoop_id (inputForValidation : List Int) (iterationSize : Int) :
    ∀ (tokens : List Int) (rows : List (List β)) (i : Nat),
      (scoreLoop (fun _ logits => logits) inputForValidation iterationSize i rows tokens).map
          (fun scored => (scored.allValidTokens, scored.firstToken))
        = validateLoop rows tokens := by
  intro tokens
  induction tokens with
  | nil =>
    intro rows i
    cases rows <;> rfl
  | cons token tokens ih =>
    intro rows i
    cases rows with
    | nil => rfl
    | cons row rows =>
      rw [scoreLoop, validateLoop, ← ih rows (i + 1)]
      show (if (argmax row : Int) = token then _ else _ : Except PyExc Scored).map _ = _
      by_cases htoken : (argmax row : Int) = token
      · rw [if_pos htoken, if_pos htoken]
        cases scoreLoop (fun _ logits => logits) inputForValidation iterationSize (i + 1) rows tokens
          <;> rfl
      · rw [if_neg htoken, if_neg htoken]
        exact rfl

/-- A processor that changes nothing. -/
theorem SampleState.validateProcessed_id (servers : InferenceServers σ κ α)
    (model : SpeculativeModel α β) (draft : Draft) (s : SampleState σ α)
    (attempts : List StepAttempt) :
    (s.validateProcessed servers model draft (fun _ logits => logits) attempts).map
        (Except.map ProcessedValidation.toValidation)
      = s.validate servers model draft attempts := by
  unfold SampleState.validateProcessed SampleState.validate
  cases s.speculativeTokens draft with
  | error exc => rfl
  | ok speculativeTokens =>
    cases hinput : s.inputForValidation speculativeTokens with
    | error exc => simp only [hinput, Option.map_some, Except.map]
    | ok validation =>
      obtain ⟨before, input⟩ := validation
      simp only [hinput, Option.map_map]
      congr 1
      funext ⟨after, result⟩
      cases result with
      | error exc => rfl
      | ok logits =>
        have hloop := scoreLoop_id input s.nextSize speculativeTokens
          (pyFrom logits (-s.nextSize)) 0
        simp only [Function.comp, bind, Except.bind, validTokens, ← hloop]
        cases scoreLoop (fun _ logits => logits) input s.nextSize 0 (pyFrom logits (-s.nextSize))
          speculativeTokens with
        | error exc => rfl
        | ok scored =>
          simp only [Except.map, Scored.tokens]
          by_cases hempty : scored.allValidTokens = []
          · simp only [if_pos hempty]
            cases scored.firstToken <;> rfl
          · simp only [if_neg hempty]

/-! ## What is to hold -/

/-- The token that greedy decoding with the processor writes behind these. -/
def SpeculativeModel.nextProcessed (blocks : CausalBlocks α) (numBlocks : Nat)
    (model : SpeculativeModel α β) (logitsProcessor : LogitsProcessor β) (inputIds : List Int) :
    Int :=
  argmax (logitsProcessor inputIds (model.nextLogits blocks numBlocks inputIds))

/-- **The processor sees all tokens so far**, whichever rows are looked at, and so what is accepted
    is what greedy decoding with the processor writes. -/
def SeesTokens (κ : Type) [LinearOrder κ] (blocks : CausalBlocks α) (model : SpeculativeModel α β)
    (draft : Draft) (logitsProcessor : LogitsProcessor β) (s : SampleState (CausalStream α) α)
    (attempts : List StepAttempt) : Prop :=
  s.unfinished = true →
    ∃ v, s.validateProcessed (causalServers κ blocks) model draft logitsProcessor attempts
        = some (.ok v) ∧
      v.calls = (List.range v.calls.length).map (fun i => s.inputIds ++ v.speculativeTokens.take i) ∧
      Follows (model.nextProcessed blocks s.session.numBlocks logitsProcessor) s.inputIds v.tokens

/-- The iteration is the first one, and greedy decoding leaves the draft before its last token. -/
def LeavesDraft (blocks : CausalBlocks α) (model : SpeculativeModel α β) (draft : Draft)
    (logitsProcessor : LogitsProcessor β) (s : SampleState (CausalStream α) α)
    (_ : List StepAttempt) : Prop :=
  s.unfinished = true → s.firsts = true ∧ ∀ tokens, s.speculativeTokens draft = .ok tokens →
    ¬ Follows (model.nextProcessed blocks s.session.numBlocks logitsProcessor) s.inputIds
      tokens.dropLast

/-! ## The loop over the rows -/

section Loop

variable (logitsProcessor : LogitsProcessor β) (inputForValidation : List Int)
  (iterationSize : Int)

omit [LinearOrder κ] [Zero α] in
/-- The loop accepts a beginning of the draft, and looks at one row more if there is one. -/
theorem scoreLoop_spec : ∀ (tokens : List Int) (rows : List (List β)) (i : Nat),
    rows.length = tokens.length →
    ∃ n ≤ tokens.length,
      scoreLoop logitsProcessor inputForValidation iterationSize i rows tokens
        = .ok ⟨tokens.take n, rows.head?.map (rowToken logitsProcessor inputForValidation
              iterationSize i),
            (List.range (min (n + 1) tokens.length)).map fun j =>
              seenTokens inputForValidation iterationSize (i + j)⟩ ∧
      (∀ j < n, tokens[j]?
        = rows[j]?.map (rowToken logitsProcessor inputForValidation iterationSize (i + j))) ∧
      (n < tokens.length → tokens[n]?
        ≠ rows[n]?.map (rowToken logitsProcessor inputForValidation iterationSize (i + n))) := by
  intro tokens
  induction tokens with
  | nil =>
    intro rows i hlength
    obtain rfl := List.length_eq_zero_iff.mp hlength
    exact ⟨0, Nat.le_refl _, rfl, fun j hj => absurd hj (Nat.not_lt_zero j),
      fun h => absurd h (Nat.not_lt_zero 0)⟩
  | cons token tokens ih =>
    intro rows i hlength
    cases rows with
    | nil => nomatch hlength
    | cons row rows =>
      by_cases htoken : rowToken logitsProcessor inputForValidation iterationSize i row = token
      · obtain ⟨n, hn, hloop, haccepted, hrejected⟩ := ih rows (i + 1) (Nat.succ.inj hlength)
        refine ⟨n + 1, Nat.succ_le_succ hn, ?_, fun j hj => ?_, fun hlt => ?_⟩
        · have hcalls : min (n + 1 + 1) (token :: tokens).length
              = min (n + 1) tokens.length + 1 := by
            rw [List.length_cons]
            omega
          rw [scoreLoop, if_pos htoken, hloop, hcalls, List.range_succ_eq_map, List.map_cons,
            List.map_map, List.take_succ_cons]
          simp only [bind, Except.bind, Except.ok.injEq, Scored.mk.injEq]
          refine ⟨congrArg (· :: tokens.take n) htoken, rfl, congrArg (_ :: ·) ?_⟩
          exact List.map_congr_left fun j _ => by
            rw [Function.comp, Nat.add_right_comm, Nat.add_assoc]
        · cases j with
          | zero => exact congrArg some htoken.symm
          | succ j =>
            have hj := haccepted j (Nat.lt_of_succ_lt_succ hj)
            rw [Nat.add_assoc, Nat.add_comm 1] at hj
            exact hj
        · have hne := hrejected (Nat.lt_of_succ_lt_succ hlt)
          rw [Nat.add_assoc, Nat.add_comm 1] at hne
          exact hne
      · refine ⟨0, Nat.zero_le _, ?_, fun j hj => absurd hj (Nat.not_lt_zero j),
          fun _ heq => htoken (Option.some.inj heq).symm⟩
        rw [scoreLoop, if_neg htoken]
        have hcalls : min (0 + 1) (token :: tokens).length = 1 := by
          rw [List.length_cons]
          omega
        rw [hcalls]
        exact rfl

omit [LinearOrder κ] [Zero α] in
/-- What comes out of the loop over some rows. -/
theorem Scored.tokens_ok (n : Nat) {tokens : List Int} (row : List β) (rows : List (List β))
    (calls : List (List Int)) (htokens : tokens ≠ []) :
    ∃ valid, (⟨tokens.take n, (row :: rows).head?.map (rowToken logitsProcessor inputForValidation
        iterationSize 0), calls⟩ : Scored).tokens = .ok valid ∧
      (n = 0 → valid = [rowToken logitsProcessor inputForValidation iterationSize 0 row]) ∧
      (0 < n → valid = tokens.take n) := by
  rcases Nat.eq_zero_or_pos n with rfl | hpos
  · exact ⟨_, rfl, fun _ => rfl, fun h => absurd h (Nat.lt_irrefl 0)⟩
  · have hne : tokens.take n ≠ [] := by
      intro hnil
      rcases List.take_eq_nil_iff.mp hnil with hzero | hnil
      · omega
      · exact htokens hnil
    exact ⟨_, if_neg hne, fun h => absurd h (by omega), fun _ => rfl⟩

omit [LinearOrder κ] [Zero α] [LinearOrder β] in
theorem Scored.tokens_ne_nil {scored : Scored} {valid : List Int}
    (h : scored.tokens = .ok valid) : valid ≠ [] := by
  unfold Scored.tokens at h
  split at h
  · cases hfirst : scored.firstToken with
    | none =>
      rw [hfirst] at h
      nomatch h
    | some token =>
      rw [hfirst] at h
      rw [← Except.ok.inj h]
      exact List.cons_ne_nil _ _
  · rename_i hne
    exact Except.ok.inj h ▸ hne

omit [LinearOrder κ] [Zero α] in
/-- The loop over rows of which all but the last score what `next` writes: it leaves the draft
    before the last row exactly if `next` does, and then all that comes out is of `next`. -/
theorem scoreLoop_follows (next : List Int → Int) (inputIds : List Int) {tokens : List Int}
    (rows : List (List β)) (htokens : tokens ≠ []) (hlength : rows.length = tokens.length)
    (hrow : ∀ j, j + 1 < tokens.length →
      rows[j]?.map (rowToken logitsProcessor inputForValidation iterationSize j)
        = some (next (inputIds ++ tokens.take j))) :
    ∃ scored valid n, scoreLoop logitsProcessor inputForValidation iterationSize 0 rows tokens
        = .ok scored ∧ scored.tokens = .ok valid ∧
      scored.calls = (List.range (min (n + 1) tokens.length)).map
        (seenTokens inputForValidation iterationSize) ∧
      (n + 1 < tokens.length ↔ ¬ Follows next inputIds tokens.dropLast) ∧
      (n + 1 < tokens.length → Follows next inputIds valid) := by
  have hpos := List.length_pos_iff.mpr htokens
  obtain ⟨n, hn, hloop, haccepted, hrejected⟩ :=
    scoreLoop_spec logitsProcessor inputForValidation iterationSize tokens rows 0 hlength
  simp only [Nat.zero_add] at hloop haccepted hrejected
  have hrows : rows ≠ [] := List.ne_nil_of_length_pos (hlength ▸ hpos)
  obtain ⟨row, rest, rfl⟩ := List.exists_cons_of_ne_nil hrows
  obtain ⟨valid, hvalid, hzero, haccept⟩ :=
    Scored.tokens_ok logitsProcessor inputForValidation iterationSize n row rest
      ((List.range (min (n + 1) tokens.length)).map (seenTokens inputForValidation iterationSize))
      htokens
  refine ⟨_, valid, n, hloop, hvalid, rfl, ⟨fun hlt hfollows => ?_, fun hleaves => ?_⟩,
    fun hlt => ?_⟩
  · -- the token that was not accepted
    rw [List.dropLast_eq_take, follows_take_iff (by omega)] at hfollows
    exact hrejected (by omega) ((hfollows n (by omega)).trans (hrow n hlt).symm)
  · by_contra hlt
    refine hleaves ?_
    rw [List.dropLast_eq_take, follows_take_iff (by omega)]
    exact fun j hj => (haccepted j (by omega)).trans (hrow j (by omega))
  · rcases Nat.eq_zero_or_pos n with rfl | hn
    · have hfirst := hrow 0 hlt
      rw [List.getElem?_cons_zero, Option.map_some, List.take_zero, List.append_nil] at hfirst
      rw [hzero rfl]
      exact follows_cons.mpr ⟨Option.some.inj hfirst, follows_nil next _⟩
    · rw [haccept hn, follows_take_iff (by omega)]
      exact fun j hj => (haccepted j hj).trans (hrow j (by omega))

end Loop

/-! ## What the processor sees -/

section Seen

variable {inputIds tokens : List Int} {i : Nat}

/-- In the first iteration, of all rows but the last: the tokens so far. -/
theorem seenTokens_first (hi : i + 1 < tokens.length) :
    seenTokens (inputIds ++ tokens).dropLast tokens.length i = inputIds ++ tokens.take i := by
  have hstop : (-(tokens.length : Int) + 1 + i + ((inputIds ++ tokens).dropLast.length : Int)).toNat
      = inputIds.length + i := by
    rw [List.length_dropLast, List.length_append]
    omega
  rw [seenTokens, pyTake, if_neg (by omega), hstop, List.dropLast_eq_take, List.take_take,
    List.length_append, Nat.min_eq_left (by omega), List.take_length_add_append]

/-- Of the last row: nothing. -/
theorem seenTokens_last (inputForValidation : List Int) (hi : i + 1 = tokens.length) :
    seenTokens inputForValidation tokens.length i = [] := by
  have hstop : -(tokens.length : Int) + 1 + i = 0 := by omega
  rw [seenTokens, hstop, pyTake, if_pos (Int.le_refl 0)]
  exact List.take_zero

/-- Behind the first iteration: one token at most, of the first row. -/
theorem length_seenTokens_later {iterationSize : Nat} {inputForValidation : List Int}
    (hpos : 0 < iterationSize) (hlength : inputForValidation.length ≤ iterationSize) :
    (seenTokens inputForValidation iterationSize 0).length ≤ 1 := by
  rw [seenTokens, pyTake]
  split <;> rw [List.length_take] <;> omega

end Seen

/-! ## An iteration -/

section Iteration

variable {blocks : CausalBlocks α} {model : SpeculativeModel α β} {draft : Draft}
  {logitsProcessor : LogitsProcessor β} {s : SampleState (CausalStream α) α}
  {attempts : List StepAttempt}

variable (draft) (logitsProcessor) in
/-- The first iteration: the loop accepts `n` tokens of the draft, and it leaves the draft before
    its last row exactly if greedy decoding does. -/
theorem Validated.validateProcessed (h : Validated blocks model s []) (hfirst : s.firsts = true)
    (hptune : model.ptune = none) (hup : SwarmUp (causalServers κ blocks) s.session attempts)
    (hlt : s.inputIds.length < s.session.maxLength) :
    ∃ v n, s.validateProcessed (causalServers κ blocks) model draft logitsProcessor attempts
        = some (.ok v) ∧
      s.speculativeTokens draft = .ok v.speculativeTokens ∧ v.speculativeTokens ≠ [] ∧
      v.calls = (List.range (min (n + 1) v.speculativeTokens.length)).map
        (seenTokens (s.inputIds ++ v.speculativeTokens).dropLast v.speculativeTokens.length) ∧
      (n + 1 < v.speculativeTokens.length ↔
        ¬ Follows (model.nextProcessed blocks s.session.numBlocks logitsProcessor) s.inputIds
          v.speculativeTokens.dropLast) ∧
      (n + 1 < v.speculativeTokens.length →
        Follows (model.nextProcessed blocks s.session.numBlocks logitsProcessor) s.inputIds
          v.tokens) := by
  obtain ⟨k, hsize, hk, hfits⟩ := nextSize_pos h.size hlt
  obtain ⟨tokens, hdraft, htokens⟩ := speculativeTokens_ok draft hsize hk
  have hne : tokens ≠ [] := List.ne_nil_of_length_pos (by omega)
  have hcount : s.nextSize = tokens.length := by rw [hsize, htokens]
  have hinput : s.inputForValidation tokens = .ok (s.session, (s.inputIds ++ tokens).dropLast) := by
    rw [SampleState.inputForValidation, hfirst]
    exact rfl
  have hlength : (s.inputIds ++ tokens).dropLast.length ≤ s.session.maxLength := by
    rw [List.length_dropLast, List.length_append]
    omega
  obtain ⟨after, hforward, -⟩ := forward_causal hptune h.session hup
    (show 0 + (s.inputIds ++ tokens).dropLast.length ≤ s.session.maxLength by omega)
  rw [List.nil_append, List.length_nil] at hforward
  have hrows := fullTokenLogits_eq blocks hptune s.session.numBlocks h.tokens
    (List.length_pos_iff.mpr hne) (Nat.zero_le (s.inputIds.length - 1))
  obtain ⟨scored, valid, n, hloop, hvalid, hcalls, hleaves, hfollows⟩ :=
    scoreLoop_follows logitsProcessor (s.inputIds ++ tokens).dropLast tokens.length
      (model.nextProcessed blocks s.session.numBlocks logitsProcessor) s.inputIds
      ((List.range tokens.length).map fun i =>
        model.nextLogits blocks s.session.numBlocks (s.inputIds ++ tokens.take i))
      hne (by rw [List.length_map, List.length_range]) fun j hj => by
        rw [List.getElem?_map, List.getElem?_range (by omega), Option.map_some, Option.map_some,
          rowToken, seenTokens_first hj]
        exact rfl
  refine ⟨⟨⟨tokens, s.session, (s.inputIds ++ tokens).dropLast, after,
    (List.range tokens.length).map fun i =>
      model.nextLogits blocks s.session.numBlocks (s.inputIds ++ tokens.take i), valid⟩,
    scored.calls⟩, n, ?_, hdraft, hne, hcalls, hleaves, hfollows⟩
  unfold SampleState.validateProcessed
  simp only [hdraft, hinput, hforward, Option.map_some]
  refine congrArg some (except_bind_eq_ok.mpr ⟨_, rfl, ?_⟩)
  rw [hcount, hrows]
  exact except_bind_eq_ok.mpr ⟨scored, hloop, except_bind_eq_ok.mpr ⟨valid, hvalid, rfl⟩⟩

/-- **The first iteration**: the processor sees the tokens so far exactly if the loop never gets to
    the last row. -/
theorem Validated.seesTokens_iff (h : Validated blocks model s []) (hfirst : s.firsts = true)
    (hptune : model.ptune = none) (hroom : SwarmHasRoom κ blocks s attempts) :
    SeesTokens κ blocks model draft logitsProcessor s attempts ↔
      LeavesDraft blocks model draft logitsProcessor s attempts := by
  refine imp_congr_right fun hunfinished => ?_
  obtain ⟨hup, hlt⟩ := hroom hunfinished
  obtain ⟨v, n, hv, hdraft, hne, hcalls, hleaves, hfollows⟩ :=
    h.validateProcessed draft logitsProcessor hfirst hptune hup hlt
  have hpos := List.length_pos_iff.mpr hne
  constructor
  · rintro ⟨v', hv', hsees, -⟩
    obtain rfl := Except.ok.inj (Option.some.inj (hv.symm.trans hv'))
    refine ⟨hfirst, fun tokens htokens => ?_⟩
    obtain rfl := Except.ok.inj (hdraft.symm.trans htokens)
    refine hleaves.mp (Nat.lt_of_not_le fun hle => ?_)
    -- the last row is looked at, with nothing in front of it
    have hlength : v.calls.length = v.speculativeTokens.length := by
      rw [hcalls, List.length_map, List.length_range]
      omega
    have hlast : v.calls[v.speculativeTokens.length - 1]? = some [] := by
      rw [hcalls, List.getElem?_map, List.getElem?_range (by omega), Option.map_some,
        seenTokens_last _ (by omega)]
    rw [hsees, List.getElem?_map, List.getElem?_range (by omega), Option.map_some] at hlast
    exact h.tokens (List.append_eq_nil_iff.mp (Option.some.inj hlast)).1
  · rintro ⟨-, hleave⟩
    have hlt := hleaves.mpr (hleave _ hdraft)
    have hcount : min (n + 1) v.speculativeTokens.length = n + 1 := by omega
    refine ⟨v, hv, ?_, hfollows hlt⟩
    rw [hcalls, hcount, List.length_map, List.length_range]
    refine List.map_congr_left fun i hi => ?_
    have hi := List.mem_range.mp hi
    exact seenTokens_first (by omega)

/-! ## Behind the first iteration -/

omit [LinearOrder κ] [Zero α] in
/-- What comes out of the loop comes from the first row at least. -/
theorem head?_calls {inputForValidation : List Int} {iterationSize : Int} {rows : List (List β)}
    {tokens valid : List Int} {scored : Scored}
    (hloop : scoreLoop logitsProcessor inputForValidation iterationSize 0 rows tokens = .ok scored)
    (hvalid : scored.tokens = .ok valid) :
    tokens ≠ [] ∧ scored.calls.head? = some (seenTokens inputForValidation iterationSize 0) := by
  cases tokens with
  | nil =>
    obtain rfl : (⟨[], none, []⟩ : Scored) = scored := by
      cases rows <;> exact Except.ok.inj hloop
    nomatch hvalid
  | cons token tokens =>
    refine ⟨List.cons_ne_nil _ _, ?_⟩
    cases rows with
    | nil => nomatch hloop
    | cons row rows =>
      rw [scoreLoop] at hloop
      split at hloop
      · obtain ⟨_, -, hscored⟩ := except_bind_eq_ok.mp hloop
        rw [← Except.ok.inj hscored]
        exact rfl
      · rw [← Except.ok.inj hloop]
        exact rfl

/-- What an iteration that does not raise goes through. -/
theorem validateProcessed_ok {σ : Type} {servers : InferenceServers σ κ α} {s : SampleState σ α}
    {v : ProcessedValidation σ α β}
    (hv : s.validateProcessed servers model draft logitsProcessor attempts = some (.ok v)) :
    s.speculativeTokens draft = .ok v.speculativeTokens ∧
      s.inputForValidation v.speculativeTokens = .ok (v.before, v.input) ∧
      ∃ scored, scoreLoop logitsProcessor v.input s.nextSize 0 v.fullTokenLogits
          v.speculativeTokens = .ok scored ∧
        scored.tokens = .ok v.tokens ∧ v.calls = scored.calls := by
  unfold SampleState.validateProcessed at hv
  split at hv
  · nomatch hv
  · rename_i tokens hdraft
    split at hv
    · nomatch hv
    · rename_i before input hinput
      obtain ⟨⟨after, result⟩, -, hv⟩ := Option.map_eq_some_iff.mp hv
      obtain ⟨logits, -, hv⟩ := except_bind_eq_ok.mp hv
      obtain ⟨scored, hloop, hv⟩ := except_bind_eq_ok.mp hv
      obtain ⟨tokens, htokens, hv⟩ := except_bind_eq_ok.mp hv
      cases hv
      exact ⟨hdraft, hinput, scored, hloop, htokens, rfl⟩

omit [Zero α] in
/-- The draft is as long as the loop counts. -/
theorem length_speculativeTokens {σ : Type} {s : SampleState σ α} {tokens : List Int}
    (hdraft : s.speculativeTokens draft = .ok tokens) : s.nextSize = tokens.length := by
  obtain ⟨outputs, -, hcheck⟩ := except_bind_eq_ok.mp hdraft
  simp only at hcheck
  split at hcheck
  · rename_i hlength
    rw [← Except.ok.inj hcheck]
    rw [List.length_append] at hlength
    omega
  · nomatch hcheck

/-- Behind the first iteration **the processor never sees the tokens so far** of the first row. -/
theorem not_seesTokens_later (hunfinished : s.unfinished = true) (hfirsts : s.firsts = false)
    (hids : 2 ≤ s.inputIds.length) :
    ¬ SeesTokens κ blocks model draft logitsProcessor s attempts := by
  intro h
  obtain ⟨v, hv, hsees, -⟩ := h hunfinished
  obtain ⟨hdraft, hinput, scored, hloop, hvalid, hcalls⟩ := validateProcessed_ok hv
  have hsize := length_speculativeTokens hdraft
  obtain ⟨hne, hhead⟩ := head?_calls hloop hvalid
  have hpos := List.length_pos_iff.mpr hne
  -- the buffer begins with the last token
  have hlength : v.input.length ≤ v.speculativeTokens.length := by
    have hneg : -s.nextSize - 1 = -((v.speculativeTokens.length + 1 : Nat) : Int) := by
      rw [hsize]
      omega
    unfold SampleState.inputForValidation at hinput
    simp only [hfirsts, Bool.false_eq_true, if_false] at hinput
    obtain ⟨session, -, hinput⟩ := except_map_eq_ok.mp hinput
    rw [← (Prod.mk.inj hinput).2, hneg,
      pyFrom_neg (Nat.succ_pos _) (by rw [List.length_append]; omega), List.length_dropLast,
      List.length_drop, List.length_append]
    omega
  have hfirst : v.calls.head? = some s.inputIds := by
    obtain ⟨call, calls, hcons⟩ := List.exists_cons_of_ne_nil
      (fun hnil : v.calls = [] => by rw [← hcalls, hnil] at hhead; nomatch hhead)
    rw [hsees, hcons, List.length_cons, List.range_succ_eq_map, List.map_cons, List.head?_cons,
      List.take_zero, List.append_nil]
  have hle := length_seenTokens_later hpos hlength
  rw [← hcalls, hfirst, hsize] at hhead
  rw [← Option.some.inj hhead] at hle
  omega

/-- **The invariant**: the session is fresh before the first iteration, and there are two tokens
    behind it. -/
structure FirstOrLater (blocks : CausalBlocks α) (model : SpeculativeModel α β)
    (s : SampleState (CausalStream α) α) : Prop where
  first : s.firsts = true → Validated blocks model s []
  later : s.firsts = false → 2 ≤ s.inputIds.length

/-- An iteration appends a token at least. -/
theorem FirstOrLater.iterateProcessed (h : FirstOrLater blocks model s) {config : SampleConfig}
    {s' : SampleState (CausalStream α) α}
    (hs' : s.iterateProcessed (causalServers κ blocks) model draft config logitsProcessor attempts
      = some s') : FirstOrLater blocks model s' := by
  unfold SampleState.iterateProcessed at hs'
  split at hs'
  case isFalse => nomatch hs'
  rename_i hunfinished
  split at hs'
  case h_2 => nomatch hs'
  rename_i v hv
  cases hs'
  obtain ⟨-, -, scored, -, hvalid, -⟩ := validateProcessed_ok hv
  refine ⟨fun hfirst => (nomatch hfirst), fun _ => ?_⟩
  rw [inputIds_extend config v.toValidation hunfinished, List.length_append]
  have hne : v.tokens ≠ [] := Scored.tokens_ne_nil hvalid
  have hpos := List.length_pos_iff.mpr hne
  cases hfirsts : s.firsts with
  | true =>
    have hids := List.length_pos_iff.mpr (h.first hfirsts).tokens
    omega
  | false =>
    have hids := h.later hfirsts
    omega

/-- **One iteration.** -/
theorem FirstOrLater.seesTokens_iff (h : FirstOrLater blocks model s) (hptune : model.ptune = none)
    (hroom : SwarmHasRoom κ blocks s attempts) :
    SeesTokens κ blocks model draft logitsProcessor s attempts ↔
      LeavesDraft blocks model draft logitsProcessor s attempts := by
  cases hfirsts : s.firsts with
  | true => exact (h.first hfirsts).seesTokens_iff hfirsts hptune hroom
  | false =>
    cases hunfinished : s.unfinished with
    | true =>
      refine iff_of_false (not_seesTokens_later hunfinished hfirsts (h.later hfirsts))
        fun hleaves => ?_
      exact Bool.false_ne_true (hfirsts.symm.trans (hleaves hunfinished).1)
    | false =>
      have hnot : ¬ s.unfinished = true := fun h => Bool.false_ne_true (hunfinished.symm.trans h)
      exact iff_of_true (fun h => absurd h hnot) (fun h => absurd h hnot)

end Iteration

/-- **When the processor sees the tokens so far**, in every run of `_sample` in which the swarm is
    up and the session has room for a token: the run ends with its first iteration, and greedy
    decoding with the processor leaves the draft before its last token. -/
theorem run_sees_iff (blocks : CausalBlocks α) (model : SpeculativeModel α β) (draft : Draft)
    (config : SampleConfig) (logitsProcessor : LogitsProcessor β) (numBlocks : Nat)
    (maxRetries : Option Nat) (maxLength : Nat) (prompt : List Int) (iterationSize : Nat)
    (attempts : List (List StepAttempt)) (hblocks : 0 < numBlocks) (hprompt : prompt ≠ [])
    (hsize : 0 < iterationSize) (hptune : model.ptune = none)
    (hroom : AllSteps
      (SampleState.iterateProcessed (causalServers κ blocks) model draft config logitsProcessor)
      (SwarmHasRoom κ blocks) (.new _ _ numBlocks maxRetries maxLength prompt iterationSize)
      attempts) :
    AllSteps
        (SampleState.iterateProcessed (causalServers κ blocks) model draft config logitsProcessor)
        (SeesTokens κ blocks model draft logitsProcessor)
        (.new _ _ numBlocks maxRetries maxLength prompt iterationSize) attempts ↔
      AllSteps
        (SampleState.iterateProcessed (causalServers κ blocks) model draft config logitsProcessor)
        (LeavesDraft blocks model draft logitsProcessor)
        (.new _ _ numBlocks maxRetries maxLength prompt iterationSize) attempts := by
  refine allSteps_congr_of_allSteps (P := FirstOrLater blocks model)
    (fun s attempts h hroom => ⟨h.seesTokens_iff hptune hroom, fun s' hs' => ?_⟩) ?_ hroom
  · exact h.iterateProcessed hs'
  · exact ⟨fun _ => validated_new blocks model hblocks maxRetries maxLength hprompt hsize,
      fun hlater => (nomatch hlater)⟩

/-- A model that would write a 1 behind everything. -/
def twoTokenModel : SpeculativeModel Int Int where
  hiddenSize := 1
  embedTokens token := [token]
  length_embedTokens := @List.length_singleton Int
  lmHead _ := [0, 1]
  ptune := none

/-- A processor that forbids to write a token twice in a row. -/
def noRepeat : LogitsProcessor Int :=
  fun inputIds logits =>
    match inputIds.getLast? with
    | some token => logits.set token.toNat (-1)
    | none => logits

/-- A draft of 1s. -/
def oneDraft : Draft where
  generate inputIds k := .ok (inputIds ++ List.replicate k.toNat 1)
  supplies inputIds k _ := ⟨_, rfl, by simp⟩

/-- Two tokens are drafted, and the first is not what greedy decoding writes. -/
theorem run_sees_iff_two :
    AllSteps (SampleState.iterateProcessed (causalServers String lastBlocks) twoTokenModel
        oneDraft endless noRepeat)
      (SeesTokens String lastBlocks twoTokenModel oneDraft noRepeat)
      (.new _ _ 1 none 7 [1, 1] 2) [[echoAttempt]] := by
  refine (run_sees_iff lastBlocks twoTokenModel oneDraft endless noRepeat 1 none 7 [1, 1] 2
    [[echoAttempt]] Nat.zero_lt_one (List.cons_ne_nil _ _) Nat.zero_lt_two rfl
    ⟨fun _ => ⟨swarmUp_new, ?_⟩, fun _ _ => trivial⟩).mpr ⟨fun _ => ⟨rfl, ?_⟩, fun _ _ => trivial⟩
  · show 2 < 7
    omega
  · intro tokens hdraft hfollows
    obtain rfl : [1, 1] = tokens := Except.ok.inj hdraft
    exact absurd (hfollows 0 (Nat.succ_pos 0)) (by decide)

/-- **One token is drafted**, and the processor is called with nothing in front of it: it takes the
    token for a first one, and a token is written twice in a row. -/
theorem processor_sees_nothing :
    ¬ AllSteps (SampleState.iterateProcessed (causalServers String lastBlocks) twoTokenModel
        oneDraft endless noRepeat)
      (SeesTokens String lastBlocks twoTokenModel oneDraft noRepeat)
      (.new _ _ 1 none 7 [1, 1] 1) [[echoAttempt]] := by
  intro h
  obtain ⟨v, hv, hsees, -⟩ := h.1 rfl
  have hcalls : v.calls = [[]] := by
    have hrun : ∃ v', SampleState.validateProcessed (causalServers String lastBlocks) twoTokenModel
        oneDraft noRepeat (.new _ _ 1 none 7 [1, 1] 1) [echoAttempt]
          = some (.ok v') ∧ v'.calls = [[]] := ⟨_, rfl, rfl⟩
    obtain ⟨v', hv', hcalls⟩ := hrun
    obtain rfl := Except.ok.inj (Option.some.inj (hv'.symm.trans hv))
    exact hcalls
  rw [hcalls] at hsees
  exact absurd hsees (by simp [SampleState.new])

end Drift
