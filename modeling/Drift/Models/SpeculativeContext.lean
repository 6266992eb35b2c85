/-
  What speculative decoding verifies against.

  The distributed model is a swarm of causal blocks.  Without soft prompts every iteration of
  `_sample` is right (`sample_verifies`): the rollback leaves the servers with all tokens but the
  last, the rows that are read are the logits behind the tokens and the beginnings of the draft, and
  every token that is appended is the one that the model writes there.

  With soft prompts the position of the session counts them, and `len(input_ids) - 1` does not: the
  rollback cuts off tokens that were accepted (`soft_prompts_lose_tokens`).
-/
import Drift.Client.CausalSwarm
import Drift.Models.Speculative
import Mathlib.Data.String.Basic

namespace Drift

open Tensor

variable {κ α β : Type} [LinearOrder κ] [Zero α]

/-! ## The model without a session -/

/-- What stands in front of the first token. -/
def SpeculativeModel.softPrompts (model : SpeculativeModel α β) : List (Column α) :=
  match model.ptune with
  | none => []
  | some ptune => ptune.prompts.map fun prompt => [prompt]

/-- The inputs of the first block for these tokens. -/
def SpeculativeModel.context (model : SpeculativeModel α β) (inputIds : List Int) :
    List (Column α) :=
  model.softPrompts ++ model.embed inputIds

/-- The logits behind these tokens. -/
def SpeculativeModel.nextLogits (blocks : CausalBlocks α) (numBlocks : Nat)
    (model : SpeculativeModel α β) (inputIds : List Int) : List β :=
  model.lmHead (((layers blocks.run 0 numBlocks (model.context inputIds)).getLast?.getD []).headD [])

/-- The token that the model writes behind these. -/
def SpeculativeModel.nextToken [LinearOrder β] (blocks : CausalBlocks α) (numBlocks : Nat)
    (model : SpeculativeModel α β) (inputIds : List Int) : Int :=
  argmax (model.nextLogits blocks numBlocks inputIds)

/-! ## What is to hold of an iteration -/

/-- The servers keep these tokens, as what the blocks before their spans make of them. -/
def KeepsPrefix (blocks : CausalBlocks α) (model : SpeculativeModel α β) (inputIds : List Int)
    (session : InferenceSession (CausalStream α) α) : Prop :=
  ∀ serverSession ∈ session.serverSessions,
    serverSession.stream.fed.take session.position
      = layers blocks.run 0 serverSession.span.start (model.context inputIds)

/-- **Verified against the right context.** -/
def Verifies (κ : Type) [LinearOrder κ] [LinearOrder β] (blocks : CausalBlocks α)
    (model : SpeculativeModel α β) (draft : Draft) (config : SampleConfig)
    (s : SampleState (CausalStream α) α) (attempts : List StepAttempt) : Prop :=
  s.unfinished = true →
    ∃ v, s.validate (causalServers κ blocks) model draft attempts = some (.ok v) ∧
      (s.firsts = false → s.session.setPosition (s.inputIds.length - 1) = .ok v.before ∧
        KeepsPrefix blocks model s.inputIds.dropLast v.before) ∧
      (v.speculativeTokens.length : Int) = s.nextSize ∧
      v.fullTokenLogits = (List.range v.speculativeTokens.length).map (fun i =>
        model.nextLogits blocks s.session.numBlocks (s.inputIds ++ v.speculativeTokens.take i)) ∧
      ∃ tokens, (s.extend config v).inputIds = s.inputIds ++ tokens ∧ tokens ≠ [] ∧
        Follows (model.nextToken blocks s.session.numBlocks) s.inputIds tokens

/-- The swarm is up, and the session has room for a token. -/
def SwarmHasRoom (κ : Type) [LinearOrder κ] (blocks : CausalBlocks α)
    (s : SampleState (CausalStream α) α) (attempts : List StepAttempt) : Prop :=
  s.unfinished = true →
    SwarmUp (causalServers κ blocks) s.session attempts ∧ s.inputIds.length < s.session.maxLength

/-! ## The parts of an iteration -/

section Parts

omit [Zero α] in
theorem length_embed (model : SpeculativeModel α β) (inputIds : List Int) :
    (model.embed inputIds).length = inputIds.length := by
  rw [SpeculativeModel.embed, List.length_map]

omit [Zero α] in
theorem embed_append (model : SpeculativeModel α β) (xs ys : List Int) :
    model.embed (xs ++ ys) = model.embed xs ++ model.embed ys := List.map_append

omit [Zero α] in
theorem take_embed (model : SpeculativeModel α β) (xs : List Int) (n : Nat) :
    (model.embed xs).take n = model.embed (xs.take n) := by
  rw [SpeculativeModel.embed, SpeculativeModel.embed, List.map_take]

omit [Zero α] in
theorem columnShape_embed (model : SpeculativeModel α β) (inputIds : List Int) :
    ∀ column ∈ model.embed inputIds, ColumnShape 1 model.hiddenSize column := by
  intro column hcolumn
  obtain ⟨token, -, rfl⟩ := List.mem_map.mp hcolumn
  refine ⟨rfl, fun row hrow => ?_⟩
  rw [List.mem_singleton.mp hrow]
  exact model.length_embedTokens token

omit [Zero α] in
/-- The draft supplies the tokens. -/
theorem speculativeTokens_ok {σ : Type} (draft : Draft) {s : SampleState σ α} {k : Nat}
    (hsize : s.nextSize = k) (hk : 0 < k) :
    ∃ tokens, s.speculativeTokens draft = .ok tokens ∧ tokens.length = k := by
  obtain ⟨tokens, hgenerate, hlength⟩ := draft.supplies s.inputIds k hk
  refine ⟨tokens, except_bind_eq_ok.mpr ⟨s.inputIds ++ tokens, hsize ▸ hgenerate, ?_⟩, hlength⟩
  have hfrom : pyFrom (s.inputIds ++ tokens) (-s.nextSize) = tokens := by
    rw [hsize, pyFrom_neg hk (by rw [List.length_append]; omega), List.length_append, hlength,
      Nat.add_sub_cancel, List.drop_left]
  simp only [hfrom]
  rw [if_pos (by rw [List.length_append, hlength, hsize]; omega)]

/-- **The forward pass** of a model without soft prompts. -/
theorem forward_causal {blocks : CausalBlocks α} {model : SpeculativeModel α β}
    (hptune : model.ptune = none) {session : InferenceSession (CausalStream α) α}
    {kept : List (Column α)} (h : CausalSession blocks 1 model.hiddenSize kept session)
    {input : List Int} {attempts : List StepAttempt}
    (hup : SwarmUp (causalServers κ blocks) session attempts)
    (hfits : kept.length + input.length ≤ session.maxLength) :
    ∃ session', model.forward (causalServers κ blocks) session input attempts
        = some (session', .ok (model.logits ((layers blocks.run 0 session.numBlocks
            (kept ++ model.embed input)).drop kept.length))) ∧
      CausalSession blocks 1 model.hiddenSize (kept ++ model.embed input) session' ∧
      session'.numBlocks = session.numBlocks ∧ session'.maxLength = session.maxLength := by
  have hcolumns := columns_ofColumns (columnShape_embed model input)
  have hshape : (ofColumns 1 model.hiddenSize (model.embed input)).shape
      = [1, input.length, model.hiddenSize] := by
    rw [shape_ofColumns, length_embed]
  obtain ⟨session', outputs, hstep, hcausal, hblocks, hlength, -, houtputs⟩ :=
    h.step hup hshape hfits
  rw [hcolumns] at hcausal houtputs
  refine ⟨session', ?_, hcausal, hblocks, hlength⟩
  unfold SpeculativeModel.forward
  simp only [hptune, ite_self, hstep, Option.map_some, Except.map, houtputs]

omit [Zero α] in
theorem context_eq_embed {model : SpeculativeModel α β} (hptune : model.ptune = none)
    (inputIds : List Int) : model.context inputIds = model.embed inputIds := by
  rw [SpeculativeModel.context, SpeculativeModel.softPrompts, hptune]
  rfl

omit [Zero α] in
/-- **The rows that are read**, of a forward pass behind some of the tokens but the last. -/
theorem fullTokenLogits_eq (blocks : CausalBlocks α) {model : SpeculativeModel α β}
    (hptune : model.ptune = none) (numBlocks : Nat) {inputIds tokens : List Int} {start : Nat}
    (hids : inputIds ≠ []) (htokens : 0 < tokens.length) (hstart : start ≤ inputIds.length - 1) :
    pyFrom (model.logits ((layers blocks.run 0 numBlocks
        (model.embed (inputIds ++ tokens).dropLast)).drop start)) (-(tokens.length : Int))
      = (List.range tokens.length).map fun i =>
        model.nextLogits blocks numBlocks (inputIds ++ tokens.take i) := by
  have hpos := List.length_pos_iff.mpr hids
  have hfull : (inputIds ++ tokens).dropLast.length = inputIds.length + tokens.length - 1 := by
    rw [List.length_dropLast, List.length_append]
  have hrows : (model.logits ((layers blocks.run 0 numBlocks
      (model.embed (inputIds ++ tokens).dropLast)).drop start)).length
      = inputIds.length + tokens.length - 1 - start := by
    rw [SpeculativeModel.logits, List.length_map, List.length_drop, length_layers, length_embed,
      hfull]
  rw [pyFrom_neg htokens (by rw [hrows]; omega), hrows]
  refine List.ext_getElem ?_ fun i hi hi' => ?_
  · rw [List.length_drop, hrows, List.length_map, List.length_range]
    omega
  rw [List.length_map, List.length_range] at hi'
  -- the row of the token behind the first `i` of the draft
  have hindex : start + (inputIds.length + tokens.length - 1 - start - tokens.length + i)
      = inputIds.length - 1 + i := by omega
  have hlt : inputIds.length - 1 + i < (model.embed (inputIds ++ tokens).dropLast).length := by
    rw [length_embed, hfull]
    omega
  have htake : (model.embed (inputIds ++ tokens).dropLast).take (inputIds.length - 1 + i + 1)
      = model.embed (inputIds ++ tokens.take i) := by
    have hcount : inputIds.length - 1 + i + 1 = inputIds.length + i := by omega
    rw [take_embed, hcount, List.dropLast_eq_take, List.take_take, List.length_append,
      Nat.min_eq_left (by omega), List.take_length_add_append]
  have hlast := getLast?_layers_take blocks.run 0 numBlocks hlt
  rw [htake, List.getElem?_eq_getElem (by rw [length_layers]; exact hlt)] at hlast
  simp only [SpeculativeModel.logits, List.getElem_drop, List.getElem_map, List.getElem_range,
    SpeculativeModel.nextLogits, context_eq_embed hptune, hlast, Option.getD_some, hindex]

omit [LinearOrder κ] [Zero α] in
/-- The loop over the rows accepts a beginning of the draft, and no longer one could be accepted. -/
theorem validateLoop_spec [LinearOrder β] {next : List Int → Int} : ∀ (tokens : List Int)
    (rows : List (List β)) (inputIds : List Int), rows.length = tokens.length →
    (∀ i (h : i < rows.length), (argmax rows[i] : Int) = next (inputIds ++ tokens.take i)) →
    ∃ n firstToken, validateLoop rows tokens = .ok (tokens.take n, firstToken) ∧
      Follows next inputIds (tokens.take n) ∧
      (∀ j, j ≤ tokens.length → Follows next inputIds (tokens.take j) → j ≤ n) ∧
      (tokens ≠ [] → firstToken = some (next inputIds)) := by
  intro tokens
  induction tokens with
  | nil =>
    intro rows inputIds hlength _
    exact ⟨0, none, by cases rows <;> rfl, follows_nil next inputIds, fun j hj _ => hj,
      fun h => absurd rfl h⟩
  | cons token tokens ih =>
    intro rows inputIds hlength hrows
    cases rows with
    | nil => nomatch hlength
    | cons row rows =>
      have hfirst : (argmax row : Int) = next inputIds := by
        simpa using hrows 0 (Nat.succ_pos _)
      by_cases htoken : (argmax row : Int) = token
      · obtain ⟨n, firstToken, hloop, hfollows, hlongest, -⟩ :=
          ih rows (inputIds ++ [token]) (Nat.succ.inj hlength)
            fun i hi => by simpa using hrows (i + 1) (Nat.succ_lt_succ hi)
        refine ⟨n + 1, some (argmax row : Int), ?_, ?_, fun j hj hj' => ?_,
          fun _ => congrArg some hfirst⟩
        · rw [validateLoop, if_pos htoken, hloop, htoken]
          exact rfl
        · rw [List.take_succ_cons]
          exact follows_cons.mpr ⟨htoken ▸ hfirst, hfollows⟩
        · cases j with
          | zero => exact Nat.zero_le _
          | succ j =>
            rw [List.take_succ_cons] at hj'
            exact Nat.succ_le_succ
              (hlongest j (Nat.le_of_succ_le_succ hj) (follows_cons.mp hj').2)
      · refine ⟨0, some (argmax row : Int), ?_, follows_nil next inputIds, fun j _ hj' => ?_,
          fun _ => congrArg some hfirst⟩
        · rw [validateLoop, if_neg htoken]
          exact rfl
        · cases j with
          | zero => exact Nat.le_refl 0
          | succ j =>
            rw [List.take_succ_cons] at hj'
            exact absurd (hfirst.trans (follows_cons.mp hj').1.symm) htoken

omit [LinearOrder κ] [Zero α] in
/-- **What is appended**: at least one token, and all but the last are of the draft.  Behind the
    first it is what could be accepted of the draft. -/
theorem validTokens_spec [LinearOrder β] (next : List Int → Int) {tokens : List Int}
    (rows : List (List β)) (inputIds : List Int) (htokens : tokens ≠ [])
    (hlength : rows.length = tokens.length)
    (hrows : ∀ i (h : i < rows.length), (argmax rows[i] : Int) = next (inputIds ++ tokens.take i)) :
    ∃ valid, validTokens rows tokens = .ok valid ∧ valid ≠ [] ∧ Follows next inputIds valid ∧
      valid.dropLast <+: tokens.dropLast ∧
      ∀ j, 0 < j → j < tokens.length →
        (j < valid.length ↔ Follows next inputIds (tokens.take (j + 1))) := by
  obtain ⟨n, firstToken, hloop, hfollows, hlongest, hfirst⟩ :=
    validateLoop_spec tokens rows inputIds hlength hrows
  by_cases hempty : tokens.take n = []
  · refine ⟨[next inputIds], except_bind_eq_ok.mpr ⟨_, hloop, ?_⟩, List.cons_ne_nil _ _, ?_, ?_,
      fun j hj hlt => iff_of_false (Nat.not_lt_of_le hj) fun hj' => ?_⟩
    · simp only [hempty, hfirst htokens]
      exact rfl
    · exact follows_cons.mpr ⟨rfl, follows_nil next _⟩
    · exact List.nil_prefix
    · have hle := hlongest (j + 1) hlt hj'
      rcases List.take_eq_nil_iff.mp hempty with hzero | hnil
      · omega
      · exact htokens hnil
  · refine ⟨tokens.take n, except_bind_eq_ok.mpr ⟨_, hloop, if_neg hempty⟩, hempty, hfollows, ?_,
      fun j hj hlt => ?_⟩
    · rw [List.dropLast_eq_take, List.dropLast_eq_take, List.take_take, List.length_take]
      exact List.take_prefix_take_left (by omega)
    · rw [List.length_take]
      constructor
      · intro hj'
        have hbeginning := hfollows.take (j + 1)
        rw [List.take_take, Nat.min_eq_left (by omega)] at hbeginning
        exact hbeginning
      · intro hj'
        have hle := hlongest (j + 1) hlt hj'
        omega

end Parts

/-! ## An iteration -/

/-- **The invariant**: the session stands behind all tokens but the last, and perhaps behind more of
    the last draft. -/
structure Validated (blocks : CausalBlocks α) (model : SpeculativeModel α β)
    (s : SampleState (CausalStream α) α) (kept : List (Column α)) : Prop where
  session : CausalSession blocks 1 model.hiddenSize kept s.session
  size : 0 < s.iterationSize
  tokens : s.inputIds ≠ []
  first : s.firsts = true → kept = []
  later : s.firsts = false → kept ≠ [] ∧ model.embed s.inputIds.dropLast <+: kept

theorem validated_new (blocks : CausalBlocks α) (model : SpeculativeModel α β) {numBlocks : Nat}
    (hblocks : 0 < numBlocks) (maxRetries : Option Nat) (maxLength : Nat) {prompt : List Int}
    (hprompt : prompt ≠ []) {iterationSize : Nat} (hsize : 0 < iterationSize) :
    Validated blocks model (.new _ _ numBlocks maxRetries maxLength prompt iterationSize) [] where
  session := causalSession_new blocks 1 model.hiddenSize hblocks maxRetries maxLength
  size := Int.natCast_pos.mpr hsize
  tokens := hprompt
  first := fun _ => rfl
  later := fun hlater => nomatch hlater

section Iteration

variable {blocks : CausalBlocks α} {model : SpeculativeModel α β}
  {s : SampleState (CausalStream α) α} {kept : List (Column α)} {attempts : List StepAttempt}

/-- What the forward pass is given: a session behind some of the tokens but the last, and the rest
    of the tokens and the draft up to its last token. -/
theorem Validated.inputForValidation (h : Validated blocks model s kept) {k : Nat}
    (hsize : s.nextSize = k) (hup : SwarmUp (causalServers κ blocks) s.session attempts)
    {tokens : List Int} (htokens : tokens.length = k) (hk : 0 < k) :
    ∃ before input kept', s.inputForValidation tokens = .ok (before, input) ∧
      CausalSession blocks 1 model.hiddenSize kept' before ∧
      SwarmUp (causalServers κ blocks) before attempts ∧
      before.numBlocks = s.session.numBlocks ∧ before.maxLength = s.session.maxLength ∧
      kept' ++ model.embed input = model.embed (s.inputIds ++ tokens).dropLast ∧
      kept'.length ≤ s.inputIds.length - 1 ∧
      (s.firsts = false → s.session.setPosition (s.inputIds.length - 1) = .ok before ∧
        kept' = model.embed s.inputIds.dropLast ∧ before.position = kept'.length) := by
  cases hfirsts : s.firsts with
  | true =>
    have hkept := h.first hfirsts
    subst hkept
    refine ⟨s.session, (s.inputIds ++ tokens).dropLast, [], ?_, h.session, hup, rfl, rfl, rfl,
      Nat.zero_le _, fun hlater => (nomatch hlater)⟩
    rw [SampleState.inputForValidation, hfirsts]
    rfl
  | false =>
    obtain ⟨hne, suffix, hbehind⟩ := h.later hfirsts
    have hdropLast : (model.embed s.inputIds.dropLast).length = s.inputIds.length - 1 := by
      rw [length_embed, List.length_dropLast]
    have htake : kept.take (s.inputIds.length - 1) = model.embed s.inputIds.dropLast := by
      rw [← hbehind, ← hdropLast, List.take_left]
    have hle : s.inputIds.length - 1 ≤ kept.length := by
      rw [← hbehind, List.length_append]
      omega
    obtain ⟨before, hset, hbefore, hblocks, hmaxLength, hposition, hlength⟩ :=
      h.session.setPosition hle
    rw [htake] at hbefore
    have hopen : s.session.serverSessions ≠ [] := fun hnil => hne (h.session.unopened hnil)
    have hfull : s.inputIds ++ tokens ≠ [] := by simp [h.tokens]
    have hpos := List.length_pos_iff.mpr h.tokens
    -- the last token and the draft
    have hfrom : pyFrom (s.inputIds ++ tokens) (-s.nextSize - 1)
        = (s.inputIds ++ tokens).drop (s.inputIds.length - 1) := by
      have hneg : -s.nextSize - 1 = -((k + 1 : Nat) : Int) := by
        rw [hsize]
        omega
      rw [hneg, pyFrom_neg (Nat.succ_pos k) (by rw [List.length_append]; omega),
        List.length_append, htokens]
      congr 1
      omega
    refine ⟨before, ((s.inputIds ++ tokens).drop (s.inputIds.length - 1)).dropLast, _, ?_, hbefore,
      hup.of_length hopen hlength, hblocks, hmaxLength, ?_, Nat.le_of_eq hdropLast,
      fun _ => ⟨hset, rfl, hposition.trans hdropLast.symm⟩⟩
    · rw [SampleState.inputForValidation, hfirsts, hset, hfrom]
      rfl
    · have hhead : s.inputIds.dropLast = (s.inputIds ++ tokens).take (s.inputIds.length - 1) := by
        rw [List.dropLast_eq_take, List.take_append_of_le_length (Nat.sub_le _ _)]
      have hrest : (s.inputIds ++ tokens).drop (s.inputIds.length - 1) ≠ [] := by
        refine List.ne_nil_of_length_pos ?_
        rw [List.length_drop, List.length_append]
        omega
      rw [← embed_append, hhead, ← List.dropLast_append_of_ne_nil hrest, List.take_append_drop]

omit [Zero α] in
/-- The size of the next draft. -/
theorem nextSize_pos {σ : Type} {s : SampleState σ α} (hsize : 0 < s.iterationSize)
    (hlt : s.inputIds.length < s.session.maxLength) :
    ∃ k : Nat, s.nextSize = k ∧ 0 < k ∧ s.inputIds.length + k ≤ s.session.maxLength := by
  have hpos : 0 < s.nextSize := by
    unfold SampleState.nextSize
    omega
  have hle : s.nextSize ≤ s.session.maxLength - s.inputIds.length := by
    unfold SampleState.nextSize
    omega
  exact ⟨s.nextSize.toNat, by omega, by omega, by omega⟩

/-- What an iteration does: it runs behind the right tokens, reads the right rows, and appends what
    `nextToken` writes, as much of the draft as it can. -/
structure Verified [LinearOrder β] (blocks : CausalBlocks α) (model : SpeculativeModel α β)
    (draft : Draft) (s : SampleState (CausalStream α) α)
    (v : Validation (CausalStream α) α β) : Prop where
  drafted : s.speculativeTokens draft = .ok v.speculativeTokens
  rolledBack : s.firsts = false → s.session.setPosition (s.inputIds.length - 1) = .ok v.before ∧
    KeepsPrefix blocks model s.inputIds.dropLast v.before
  count : (v.speculativeTokens.length : Int) = s.nextSize
  draft_ne_nil : v.speculativeTokens ≠ []
  rows : v.fullTokenLogits = (List.range v.speculativeTokens.length).map (fun i =>
    model.nextLogits blocks s.session.numBlocks (s.inputIds ++ v.speculativeTokens.take i))
  tokens_ne_nil : v.tokens ≠ []
  follows : Follows (model.nextToken blocks s.session.numBlocks) s.inputIds v.tokens
  ofDraft : v.tokens.dropLast <+: v.speculativeTokens.dropLast
  accepts : ∀ j, 0 < j → j < v.speculativeTokens.length →
    (j < v.tokens.length ↔ Follows (model.nextToken blocks s.session.numBlocks) s.inputIds
      (v.speculativeTokens.take (j + 1)))
  after : CausalSession blocks 1 model.hiddenSize
    (model.embed (s.inputIds ++ v.speculativeTokens).dropLast) v.after
  numBlocks : v.after.numBlocks = s.session.numBlocks
  maxLength : v.after.maxLength = s.session.maxLength

/-- An iteration up to the tokens that come out. -/
theorem Validated.validate [LinearOrder β] (h : Validated blocks model s kept)
    (hptune : model.ptune = none) (draft : Draft)
    (hup : SwarmUp (causalServers κ blocks) s.session attempts)
    (hlt : s.inputIds.length < s.session.maxLength) :
    ∃ v, s.validate (causalServers κ blocks) model draft attempts = some (.ok v) ∧
      Verified blocks model draft s v := by
  obtain ⟨k, hsize, hk, hfits⟩ := nextSize_pos h.size hlt
  obtain ⟨tokens, hdraft, htokens⟩ := speculativeTokens_ok draft hsize hk
  obtain ⟨before, input, kept', hinput, hbefore, hupBefore, hblocks, hmaxLength, hfed, hkept',
    hlater⟩ := h.inputForValidation hsize hup htokens hk
  have hlength : kept'.length + input.length = s.inputIds.length + k - 1 := by
    have hcount := congrArg List.length hfed
    rw [List.length_append, length_embed, length_embed, List.length_dropLast, List.length_append,
      htokens] at hcount
    exact hcount
  obtain ⟨after, hforward, hafter, hblocks', hmaxLength'⟩ :=
    forward_causal hptune hbefore hupBefore
      (show kept'.length + input.length ≤ before.maxLength by omega)
  rw [hfed, hblocks] at hforward
  rw [hfed] at hafter
  have hne : tokens ≠ [] := List.ne_nil_of_length_pos (by omega)
  have hcount : (tokens.length : Int) = s.nextSize := by rw [htokens, hsize]
  have hrows := fullTokenLogits_eq blocks hptune s.session.numBlocks h.tokens (htokens.symm ▸ hk)
    hkept'
  rw [hcount] at hrows
  obtain ⟨valid, hvalid, hvalidNe, hfollows, hbehind, haccepts⟩ :=
    validTokens_spec (model.nextToken blocks s.session.numBlocks)
      ((List.range tokens.length).map fun i =>
        model.nextLogits blocks s.session.numBlocks (s.inputIds ++ tokens.take i))
      s.inputIds hne (by rw [List.length_map, List.length_range])
      (fun i hi => by simp [SpeculativeModel.nextToken])
  refine ⟨⟨tokens, before, input, after, (List.range tokens.length).map fun i =>
      model.nextLogits blocks s.session.numBlocks (s.inputIds ++ tokens.take i), valid⟩, ?_,
    { drafted := hdraft, rolledBack := ?_, count := hcount, draft_ne_nil := hne, rows := rfl,
      tokens_ne_nil := hvalidNe, follows := hfollows, ofDraft := hbehind, accepts := haccepts,
      after := hafter, numBlocks := hblocks'.trans hblocks,
      maxLength := hmaxLength'.trans hmaxLength }⟩
  · unfold SampleState.validate
    simp only [hdraft, hinput, hforward, Option.map_some]
    refine congrArg some (except_bind_eq_ok.mpr ⟨_, rfl, ?_⟩)
    rw [hrows]
    exact except_bind_eq_ok.mpr ⟨valid, hvalid, rfl⟩
  · intro hfirsts
    obtain ⟨hset, rfl, hposition⟩ := hlater hfirsts
    refine ⟨hset, fun serverSession hmem => ?_⟩
    rw [hposition, context_eq_embed hptune]
    exact (hbefore.standsBehind serverSession hmem).fed

omit [Zero α] in
/-- A row that is not finished gets the tokens as they are. -/
theorem inputIds_extend {σ : Type} {s : SampleState σ α} (config : SampleConfig)
    (v : Validation σ α β) (hunfinished : s.unfinished = true) :
    (s.extend config v).inputIds = s.inputIds ++ v.tokens := by
  unfold SampleState.extend
  by_cases heos : config.hasEosStoppingCriteria = true
  · simp only [dif_pos heos, if_pos hunfinished, List.map_id']
  · simp only [dif_neg heos]

omit [Zero α] in
/-- And it is finished when the criterion stops it. -/
theorem unfinished_extend {σ : Type} {s : SampleState σ α} (config : SampleConfig)
    (v : Validation σ α β) (hunfinished : s.unfinished = true) :
    (s.extend config v).unfinished = !config.stoppingCriteria (s.inputIds ++ v.tokens) := by
  rw [← inputIds_extend config v hunfinished]
  show (s.unfinished && !config.stoppingCriteria (s.extend config v).inputIds) = _
  rw [hunfinished, Bool.true_and]

/-- The invariant behind an iteration. -/
theorem Validated.extend [LinearOrder β] (h : Validated blocks model s kept) {draft : Draft}
    (config : SampleConfig) {v : Validation (CausalStream α) α β}
    (hv : Verified blocks model draft s v) (hunfinished : s.unfinished = true) :
    ∃ kept', Validated blocks model (s.extend config v) kept' := by
  have hids := inputIds_extend config v hunfinished
  have hdraftPos := List.length_pos_iff.mpr hv.draft_ne_nil
  refine ⟨_, hv.after, ?_, ?_, fun hfirst => (nomatch hfirst), fun _ => ⟨?_, ?_⟩⟩
  · show 0 < s.nextSize
    have hcount := hv.count
    omega
  · rw [hids]
    exact List.append_ne_nil_of_left_ne_nil h.tokens _
  · refine List.ne_nil_of_length_pos ?_
    have hpos := List.length_pos_iff.mpr h.tokens
    rw [length_embed, List.length_dropLast, List.length_append]
    omega
  · rw [hids, List.dropLast_append_of_ne_nil hv.tokens_ne_nil,
      List.dropLast_append_of_ne_nil hv.draft_ne_nil, embed_append, embed_append]
    obtain ⟨rest, hrest⟩ := hv.ofDraft
    refine ⟨model.embed rest, ?_⟩
    rw [List.append_assoc, ← embed_append, hrest]

/-- **One iteration** verifies, and leaves a session to go on with. -/
theorem Validated.iterate [LinearOrder β] (h : Validated blocks model s kept)
    (hptune : model.ptune = none) (draft : Draft) (config : SampleConfig)
    (hroom : SwarmHasRoom κ blocks s attempts) :
    Verifies κ blocks model draft config s attempts ∧
      ∀ s', s.iterate (causalServers κ blocks) model draft config attempts = some s' →
        ∃ kept', Validated blocks model s' kept' := by
  cases hunfinished : s.unfinished with
  | false =>
    refine ⟨fun h => (nomatch hunfinished.symm.trans h), fun s' hs' => ?_⟩
    rw [SampleState.iterate, hunfinished] at hs'
    nomatch hs'
  | true =>
    obtain ⟨hup, hlt⟩ := hroom hunfinished
    obtain ⟨v, hv, hverified⟩ := h.validate hptune draft hup hlt
    refine ⟨fun _ => ⟨v, hv, hverified.rolledBack, hverified.count, hverified.rows, v.tokens,
      inputIds_extend config v hunfinished, hverified.tokens_ne_nil, hverified.follows⟩,
      fun s' hs' => ?_⟩
    rw [SampleState.iterate, hunfinished, hv] at hs'
    cases hs'
    exact h.extend config hverified hunfinished

end Iteration

/-- **Every iteration verifies against the right context** if the model has no soft prompts: in
    every run in which the swarm is up and the session has room for a token. -/
theorem sample_verifies [LinearOrder β] (blocks : CausalBlocks α) (model : SpeculativeModel α β)
    (draft : Draft) (config : SampleConfig) (numBlocks : Nat) (maxRetries : Option Nat)
    (maxLength : Nat) (prompt : List Int) (iterationSize : Nat) (attempts : List (List StepAttempt))
    (hblocks : 0 < numBlocks) (hprompt : prompt ≠ []) (hsize : 0 < iterationSize)
    (hptune : model.ptune = none)
    (hroom : AllSteps (SampleState.iterate (causalServers κ blocks) model draft config)
      (SwarmHasRoom κ blocks) (.new _ _ numBlocks maxRetries maxLength prompt iterationSize)
      attempts) :
    AllSteps (SampleState.iterate (causalServers κ blocks) model draft config)
      (Verifies κ blocks model draft config)
      (.new _ _ numBlocks maxRetries maxLength prompt iterationSize) attempts := by
  refine allSteps_of_allSteps (P := fun s => ∃ kept, Validated blocks model s kept) ?_ ?_ hroom
  · rintro s attempts ⟨kept, h⟩ hroom
    exact h.iterate hptune draft config hroom
  · exact ⟨[], validated_new blocks model hblocks maxRetries maxLength hprompt hsize⟩

/-- A model that knows one token. -/
def oneTokenModel (ptune : Option (PTune Int)) : SpeculativeModel Int Int where
  hiddenSize := 1
  embedTokens token := [token]
  length_embedTokens := @List.length_singleton Int
  lmHead _ := [0]
  ptune := ptune

/-- A draft of this token. -/
def zeroDraft : Draft where
  generate inputIds k := .ok (inputIds ++ List.replicate k.toNat 0)
  supplies inputIds k _ := ⟨_, rfl, by simp⟩

/-- Generation that does not stop. -/
def endless : SampleConfig where
  stoppingCriteria _ := false
  hasEosStoppingCriteria := false
  padTokenId := none
  pads h := nomatch h

/-- The swarm stays up for a session that is open on one server. -/
theorem swarmUp_open {session : InferenceSession (CausalStream Int) Int}
    (hlength : session.serverSessions.length = 1) :
    SwarmUp (causalServers String lastBlocks) session [echoAttempt] := by
  have hnew : SwarmUp (causalServers String lastBlocks) (.new _ _ 1 none 7) [echoAttempt] :=
    swarmUp_new
  have hne : session.serverSessions ≠ [] := List.ne_nil_of_length_pos (by omega)
  exact ⟨hnew.quiet, hnew.finds, echoAttempt, [], _, rfl, InferenceSession.opened_of_ne_nil hne,
    Nat.le_of_eq hlength⟩

/-- Two iterations: the second one takes the session back by a token first. -/
theorem sample_verifies_example :
    AllSteps (SampleState.iterate (causalServers String lastBlocks) (oneTokenModel none) zeroDraft
        endless)
      (Verifies String lastBlocks (oneTokenModel none) zeroDraft endless)
      (.new _ _ 1 none 7 [1, 1] 2) [[echoAttempt], [echoAttempt]] := by
  have hstep : ∃ s, SampleState.iterate (causalServers String lastBlocks) (oneTokenModel none)
      zeroDraft endless (.new _ _ 1 none 7 [1, 1] 2) [echoAttempt] = some s ∧
      s.session.serverSessions.length = 1 ∧ s.inputIds.length < s.session.maxLength :=
    ⟨_, rfl, rfl, by decide⟩
  obtain ⟨s, hs, hlength, hroom⟩ := hstep
  refine sample_verifies lastBlocks (oneTokenModel none) zeroDraft endless 1 none 7 [1, 1] 2 _
    Nat.zero_lt_one (List.cons_ne_nil _ _) Nat.zero_lt_two rfl
    ⟨fun _ => ⟨swarmUp_new, by decide⟩, fun s' hs' => ⟨fun _ => ?_, fun _ _ => trivial⟩⟩
  obtain rfl := Option.some.inj (hs.symm.trans hs')
  exact ⟨swarmUp_open hlength, hroom⟩

/-! ## Soft prompts -/

/-- Behind the first iteration the servers never keep the right prefix. -/
theorem soft_prompts_lose_tokens [LinearOrder β] {blocks : CausalBlocks α}
    {model : SpeculativeModel α β} {draft : Draft} {config : SampleConfig}
    {s : SampleState (CausalStream α) α} {attempts : List StepAttempt}
    (hunfinished : s.unfinished = true) (hfirsts : s.firsts = false)
    (hopen : s.session.serverSessions ≠ []) (hprompts : model.softPrompts ≠ []) :
    ¬ Verifies κ blocks model draft config s attempts := by
  intro h
  obtain ⟨v, -, hkeeps, -⟩ := h hunfinished
  obtain ⟨hset, hbehind⟩ := hkeeps hfirsts
  obtain ⟨sessions, hsessions, hset⟩ := except_bind_eq_ok.mp hset
  have hbefore := Except.ok.inj hset
  rcases hall : s.session.serverSessions with _ | ⟨first, rest⟩
  · exact hopen hall
  rw [hall, List.mapM_cons] at hsessions
  obtain ⟨first', -, hsessions⟩ := except_bind_eq_ok.mp hsessions
  obtain ⟨rest', -, hsessions⟩ := except_bind_eq_ok.mp hsessions
  cases hsessions
  have hfirst := hbehind first' (by rw [← hbefore]; exact List.mem_cons_self)
  have hlength := congrArg List.length hfirst
  rw [length_layers, List.length_take, ← hbefore, SpeculativeModel.context, List.length_append,
    length_embed, List.length_dropLast] at hlength
  have hpos := List.length_pos_iff.mpr hprompts
  -- the kept prefix is shorter than the prompts and the tokens
  have hle : min (s.inputIds.length - 1) first'.stream.fed.length ≤ s.inputIds.length - 1 :=
    Nat.min_le_left _ _
  simp only at hlength
  omega

/-- **Two soft prompts**: the second iteration takes the session back to three positions, of which
    two are the prompts'. -/
theorem soft_prompts_break_verification :
    ¬ AllSteps (SampleState.iterate (causalServers String lastBlocks)
          (oneTokenModel (some ⟨[[5], [6]], dummy⟩)) zeroDraft endless)
        (Verifies String lastBlocks (oneTokenModel (some ⟨[[5], [6]], dummy⟩)) zeroDraft endless)
        (.new _ _ 1 none 7 [1, 1] 2) [[echoAttempt], [echoAttempt]] := by
  intro h
  have hstep : ∃ s, SampleState.iterate (causalServers String lastBlocks)
      (oneTokenModel (some ⟨[[5], [6]], dummy⟩)) zeroDraft endless (.new _ _ 1 none 7 [1, 1] 2)
        [echoAttempt] = some s ∧ s.unfinished = true ∧ s.firsts = false ∧
      s.session.serverSessions.length = 1 := ⟨_, rfl, rfl, rfl, rfl⟩
  obtain ⟨s, hstep, hunfinished, hfirsts, hlength⟩ := hstep
  refine absurd (h.2 s hstep).1 (soft_prompts_lose_tokens hunfinished hfirsts ?_ ?_)
  · exact List.ne_nil_of_length_pos (by omega)
  · exact List.cons_ne_nil _ _

end Drift
