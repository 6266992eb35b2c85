/-
  The ranks of a head-parallel block, as threads that share one `AllReduce`.

  `_create_collective_ops` makes one collective for all rules that say `"sum"`, so that the output
  projection of the attention and that of the MLP use the same object: the calls of a rank are, in
  turn, those of the attention and of the MLP, forward after forward.  What a rank calls with
  depends on what its calls have returned, the sum behind the attention going into the MLP.

  Whatever the order of the steps, every rank computes the block (`headParallel_threads`).
-/
import Drift.Lib.Effect
import Drift.Utils.AllReduceTensors

namespace Drift.TensorParallel

open Tensor

variable {K P : Type} [Field K]

/-! ## The program of a rank -/

/-- `t + u`. -/
def plus (t u : Tensor K) : Tensor K := Tensor.ofFn t.shape fun ix => t.get ix + u.get ix

/-- What a block consists of besides its parameters: the two norms, the attention of one head, the
    activation and the router. -/
structure LayerFunctions (K P : Type) where
  inputNorm : Tensor K → Tensor K
  postAttentionNorm : Tensor K → Tensor K
  attend : Option P → Tensor K → Tensor K → Tensor K → Tensor K
  act : K → K
  route : Tensor K → Tensor K → Tensor K

/-- A decoder layer: attention and MLP behind their norms, each added to what goes in. -/
def TransformerBlock.forward (block : TransformerBlock K) (f : LayerFunctions K P)
    (layerPast : List P) (x : Tensor K) : Tensor K :=
  let h := plus x (block.selfAttn.forward f.attend layerPast (f.inputNorm x))
  plus h (block.mlp.forward f.act f.route (f.postAttentionNorm h))

/-- What a rank calls the collective with, when its calls have returned `returned`: in forward `j`
    its part of the attention and then its part of the MLP.  A rank that has got an exception does
    not go on; it is given something to call with. -/
def rankProgram (config : ModelConfig) (worldSize : Nat) (shards : Nat → TransformerBlock K)
    (f : LayerFunctions K P) (pasts : Nat → List P) (inputs : Nat → Tensor K) (rank : Nat)
    (returned : List (Option (Tensor K))) : Tensor K :=
  let j := returned.length / 2
  if returned.length % 2 = 0 then
    (shards rank).selfAttn.forward f.attend (config.pastOf worldSize rank (pasts j))
      (f.inputNorm (inputs j))
  else
    let h := plus (inputs j) ((returned.getLast?.join).getD (Tensor.zeros []))
    (shards rank).mlp.forward f.act f.route (f.postAttentionNorm h)

/-- What a rank returns from forward `j`. -/
def rankOutput (inputs : Nat → Tensor K) (returned : List (Option (Tensor K))) (j : Nat) :
    Option (Tensor K) := do
  let attention ← returned[2 * j]?.join
  let mlp ← returned[2 * j + 1]?.join
  pure (plus (plus (inputs j) attention) mlp)

/-! ## The sums -/

section Sums

variable {worldSize : Nat} {xs : Nat → List (Option (Tensor K)) → Tensor K}

theorem length_sums : ∀ round, (sums worldSize xs round).length = round
  | 0 => rfl
  | round + 1 => by
    rw [sums, List.length_append, length_sums round]
    rfl

/-- Later calls leave the earlier sums. -/
theorem getElem?_sums {round k : Nat} (hk : k < round) : (sums worldSize xs round)[k]?
    = some (some (reduceAdd ((List.range worldSize).map fun rank =>
        xs rank (sums worldSize xs k)))) := by
  induction round with
  | zero => omega
  | succ round ih =>
    rw [sums]
    rcases Nat.lt_or_eq_of_le (Nat.le_of_lt_succ hk) with hlt | rfl
    · rw [List.getElem?_append_left (by rw [length_sums]; exact hlt)]
      exact ih hlt
    · rw [List.getElem?_append_right (by rw [length_sums]), length_sums, Nat.sub_self]
      rfl

theorem getLast?_sums (round : Nat) : (sums worldSize xs (round + 1)).getLast?
    = some (some (reduceAdd ((List.range worldSize).map fun rank =>
        xs rank (sums worldSize xs round)))) := by
  rw [sums, List.getLast?_append]
  rfl

end Sums

variable {config : ModelConfig} {worldSize : Nat} {block : TransformerBlock K}
  {shards : Nat → TransformerBlock K}

theorem getD_set_ne {shape : List Nat} {axis i m : Nat} (h : axis ≠ i) :
    (shape.set axis m).getD i 0 = shape.getD i 0 := by
  rw [List.getD_eq_getElem?_getD, List.getElem?_set_ne h, ← List.getD_eq_getElem?_getD]

/-- Every part of the attention has the outputs of the whole. -/
theorem shape_attention_shard {rank : Nat} {attn attn' : GQAttention K}
    (hshard : AttentionShard config worldSize rank attn attn')
    (attend : Option P → Tensor K → Tensor K → Tensor K → Tensor K) (past past' : List P)
    (x : Tensor K) : (attn'.forward attend past' x).shape = (attn.forward attend past x).shape := by
  show [x.shape.getD 0 0, attn'.oProj.weight.shape.getD 0 0]
    = [x.shape.getD 0 0, attn.oProj.weight.shape.getD 0 0]
  rw [hshard.oProj.weight, shape_slice, getD_set_ne Nat.one_ne_zero]

theorem weight_of_shard {rules : StateRules} {rank : Nat} {name : Leaf → ParamName}
    {l l' : Linear K} (h : l.shard rules worldSize rank name = .ok l') :
    processState rules worldSize rank (name .weight) l.weight = .ok l'.weight := by
  obtain ⟨weight, hweight, h⟩ := except_bind_eq_ok.mp h
  rw [hweight]
  cases hbias : l.bias with
  | none =>
    rw [hbias] at h
    cases h
    rfl
  | some bias =>
    rw [hbias] at h
    obtain ⟨bias', -, h⟩ := except_bind_eq_ok.mp h
    cases h
    rfl

/-- Every part of the MLP has the outputs of the whole. -/
theorem shape_mlp_shard {rank : Nat} {mlp mlp' : Mlp K}
    (hshard : mlp.shard (rulesOf config mlp) worldSize rank = .ok mlp') (act : K → K)
    (route : Tensor K → Tensor K → Tensor K) (x : Tensor K) :
    (mlp'.forward act route x).shape = (mlp.forward act route x).shape := by
  cases mlp with
  | llama gateProj upProj downProj =>
    obtain ⟨gate', -, hshard⟩ := except_bind_eq_ok.mp hshard
    obtain ⟨up', -, hshard⟩ := except_bind_eq_ok.mp hshard
    obtain ⟨down', hdown, hshard⟩ := except_bind_eq_ok.mp hshard
    cases hshard
    have hweight : down'.weight = downProj.weight.tensorSplit 1 worldSize rank :=
      (Except.ok.inj (weight_of_shard hdown)).symm
    show [x.shape.getD 0 0, down'.weight.shape.getD 0 0]
      = [x.shape.getD 0 0, downProj.weight.shape.getD 0 0]
    rw [hweight, tensorSplit, shape_slice, getD_set_ne Nat.one_ne_zero]
  | mixtral gate gateUpProj downProj =>
    obtain ⟨gate', -, hshard⟩ := except_bind_eq_ok.mp hshard
    obtain ⟨gateUp', -, hshard⟩ := except_bind_eq_ok.mp hshard
    obtain ⟨down', hdown, hshard⟩ := except_bind_eq_ok.mp hshard
    cases hshard
    cases hdown
    show [x.shape.getD 0 0, (downProj.tensorSplit 2 worldSize rank).shape.getD 1 0]
      = [x.shape.getD 0 0, downProj.shape.getD 1 0]
    rw [tensorSplit, shape_slice, getD_set_ne (by decide)]

/-! ## The calls -/

section Calls

variable (f : LayerFunctions K P) (pasts : Nat → List P) (inputs : Nat → Tensor K)

/-- What is between the attention and the MLP of forward `j`. -/
def middle (block : TransformerBlock K) (j : Nat) : Tensor K :=
  plus (inputs j) (block.selfAttn.forward f.attend (pasts j) (f.inputNorm (inputs j)))

/-- The call for the attention of forward `j`. -/
theorem reduceAdd_attention [CharZero K] (hconfig : config.Geometry) (hfits : block.Fits config)
    (hw : 0 < worldSize)
    (hattn : ∀ rank < worldSize,
      AttentionShard config worldSize rank block.selfAttn (shards rank).selfAttn) (j : Nat) :
    reduceAdd ((List.range worldSize).map fun rank =>
        rankProgram config worldSize shards f pasts inputs rank
          (sums worldSize (rankProgram config worldSize shards f pasts inputs) (2 * j)))
      = block.selfAttn.forward f.attend (pasts j) (f.inputNorm (inputs j)) := by
  have hcalls : ∀ rank, rankProgram config worldSize shards f pasts inputs rank
        (sums worldSize (rankProgram config worldSize shards f pasts inputs) (2 * j))
      = (shards rank).selfAttn.forward f.attend (config.pastOf worldSize rank (pasts j))
          (f.inputNorm (inputs j)) := by
    intro rank
    simp only [rankProgram, length_sums]
    rw [if_pos (by omega), show 2 * j / 2 = j by omega]
  simp only [hcalls]
  exact attention_sum hconfig hfits.selfAttn hw hattn f.attend (pasts j) _

/-- The call for the MLP of forward `j`. -/
theorem reduceAdd_mlp [CharZero K] (hconfig : config.Geometry) (hfits : block.Fits config)
    (hw : 0 < worldSize)
    (hattn : ∀ rank < worldSize,
      AttentionShard config worldSize rank block.selfAttn (shards rank).selfAttn)
    (hmlp : ∀ act route x,
      reduceAdd ((List.range worldSize).map fun rank => (shards rank).mlp.forward act route x)
        = block.mlp.forward act route x) (j : Nat) :
    reduceAdd ((List.range worldSize).map fun rank =>
        rankProgram config worldSize shards f pasts inputs rank
          (sums worldSize (rankProgram config worldSize shards f pasts inputs) (2 * j + 1)))
      = block.mlp.forward f.act f.route (f.postAttentionNorm (middle f pasts inputs block j)) := by
  have hcalls : ∀ rank, rankProgram config worldSize shards f pasts inputs rank
        (sums worldSize (rankProgram config worldSize shards f pasts inputs) (2 * j + 1))
      = (shards rank).mlp.forward f.act f.route
          (f.postAttentionNorm (middle f pasts inputs block j)) := by
    intro rank
    simp only [rankProgram, length_sums]
    rw [if_neg (by omega), show (2 * j + 1) / 2 = j by omega, getLast?_sums,
      reduceAdd_attention f pasts inputs hconfig hfits hw hattn j]
    rfl
  simp only [hcalls]
  exact hmlp f.act f.route _

/-- The parts of one call have one shape. -/
theorem shape_rankProgram
    (hattn : ∀ rank < worldSize,
      AttentionShard config worldSize rank block.selfAttn (shards rank).selfAttn)
    (hmake : ∀ rank < worldSize,
      block.mlp.shard (rulesOf config block.mlp) worldSize rank = .ok (shards rank).mlp)
    (returned : List (Option (Tensor K))) {rank r : Nat} (hrank : rank < worldSize)
    (hr : r < worldSize) :
    (rankProgram config worldSize shards f pasts inputs rank returned).shape
      = (rankProgram config worldSize shards f pasts inputs r returned).shape := by
  unfold rankProgram
  simp only
  split
  · rw [shape_attention_shard (hattn rank hrank) _ [], shape_attention_shard (hattn r hr) _ []]
  · rw [shape_mlp_shard (hmake rank hrank), shape_mlp_shard (hmake r hr)]

end Calls

omit [Field K] in
/-- The rules, if the assertion about the kv heads holds. -/
theorem rules_eq {rules : StateRules} (h : stateRules config worldSize block = .ok rules) :
    rules = rulesOf config block.mlp := by
  obtain ⟨_, -, h⟩ := except_bind_eq_ok.mp h
  cases hmlp : block.mlp <;> rw [hmlp] at h <;> cases h <;> rfl

/-- **The threads compute the block.**  The shards that `make_shard` makes of a block, one thread
    each with one collective between them, give on every rank the outputs of the block, forward
    after forward, in whatever order they take their steps (without a late set); and somebody can go
    on. -/
theorem headParallel_threads [CharZero K] {rules : StateRules} (hconfig : config.Geometry)
    (hfits : block.Fits config) (hw : 0 < worldSize)
    (hrules : stateRules config worldSize block = .ok rules)
    (hmake : ∀ rank < worldSize, makeShard rules worldSize rank block = .ok (shards rank))
    (f : LayerFunctions K P) (pasts : Nat → List P) (inputs : Nat → Tensor K)
    (schedule : List Nat) (s : AllReduce.State (Tensor K) (Option (Tensor K)))
    (hexec : exec ((sumOf K worldSize).step
      (rankProgram config worldSize shards f pasts inputs)) {} schedule = some s)
    (hlate : AllSteps ((sumOf K worldSize).step
      (rankProgram config worldSize shards f pasts inputs))
      (fun s rank => AllReduce.lateSet s rank = false) {} schedule) :
    (∀ rank < worldSize, ∀ j, 2 * j + 2 ≤ (s.ranks rank).round →
      rankOutput inputs (s.ranks rank).returned j
        = some (block.forward f (pasts j) (inputs j))) ∧
    ∃ rank < worldSize, ((sumOf K worldSize).step
      (rankProgram config worldSize shards f pasts inputs) s rank).isSome = true := by
  obtain rfl := rules_eq hrules
  obtain ⟨shards', hmake', hattn', hsum'⟩ := exists_shards hconfig hfits
  have hsame : ∀ rank < worldSize, shards' rank = shards rank := fun rank hrank =>
    Except.ok.inj ((hmake' rank hrank).symm.trans (hmake rank hrank))
  have hattn : ∀ rank < worldSize,
      AttentionShard config worldSize rank block.selfAttn (shards rank).selfAttn :=
    fun rank hrank => hsame rank hrank ▸ hattn' rank hrank
  have hsum : ∀ act route x,
      reduceAdd ((List.range worldSize).map fun rank => (shards rank).mlp.forward act route x)
        = block.mlp.forward act route x := by
    intro act route x
    rw [← hsum' hw act route x]
    refine congrArg reduceAdd (List.map_congr_left fun rank hrank => ?_)
    rw [hsame rank (List.mem_range.mp hrank)]
  have hmlps : ∀ rank < worldSize,
      block.mlp.shard (rulesOf config block.mlp) worldSize rank = .ok (shards rank).mlp := by
    intro rank hrank
    obtain ⟨attn', -, hrest⟩ := except_bind_eq_ok.mp (hmake rank hrank)
    obtain ⟨mlp', hmlp', hrest⟩ := except_bind_eq_ok.mp hrest
    rw [hmlp', ← Except.ok.inj hrest]
  have hshape : ∀ round, ∀ rank < worldSize,
      (rankProgram config worldSize shards f pasts inputs rank
        (sums worldSize (rankProgram config worldSize shards f pasts inputs) round)).shape
      = (rankProgram config worldSize shards f pasts inputs 0
        (sums worldSize (rankProgram config worldSize shards f pasts inputs) round)).shape :=
    fun round rank hrank => shape_rankProgram f pasts inputs hattn hmlps _ hrank hw
  obtain ⟨hreturned, hgoes⟩ := AllReduce.rounds_exact (sumOf K worldSize) _
    (reducesParts_sumOf hshape) schedule s hexec hlate
  refine ⟨fun rank hrank j hj => ?_, hgoes hw⟩
  rw [(hreturned rank hrank).1, history_eq_sums hshape _ rank hrank]
  unfold rankOutput
  rw [getElem?_sums (by omega), getElem?_sums (by omega),
    reduceAdd_attention f pasts inputs hconfig hfits hw hattn j,
    reduceAdd_mlp f pasts inputs hconfig hfits hw hattn hsum j]
  rfl

/-! ## Two ranks -/

/-- Heads that return their queries, and experts that all count once. -/
def plainLayer : LayerFunctions ℚ Unit where
  inputNorm := id
  postAttentionNorm := id
  attend _ q _ _ := q
  act := id
  route gate x := Tensor.ofFn [x.shape.getD 0 0, gate.shape.getD 0 0] fun _ => 1

/-- The shards of the block with six heads. -/
def sixHeadShards (rank : Nat) : TransformerBlock ℚ :=
  (makeShard (mixtralStateRules sixHeads) 2 rank sixHeadBlock).toOption.getD sixHeadBlock

theorem sixHeadShards_made : ∀ rank < 2,
    makeShard (mixtralStateRules sixHeads) 2 rank sixHeadBlock = .ok (sixHeadShards rank) := by
  intro rank hrank
  obtain ⟨shards, hmake, -⟩ := exists_shards sixHeads_geometry sixHeadBlock_fits
  have hok := hmake rank hrank
  show makeShard (rulesOf sixHeads sixHeadBlock.mlp) 2 rank sixHeadBlock = .ok
    ((makeShard (rulesOf sixHeads sixHeadBlock.mlp) 2 rank sixHeadBlock).toOption.getD sixHeadBlock)
  rw [hok]
  rfl

/-- Both ranks take two calls, one after the other. -/
def forwardSchedule : List Nat :=
  List.replicate 4 0 ++ List.replicate 16 1 ++ List.replicate 18 0 ++ List.replicate 4 1 ++
    List.replicate 4 0 ++ List.replicate 16 1 ++ List.replicate 18 0 ++ List.replicate 4 1

theorem headParallel_threads_six : ∃ s : AllReduce.State (Tensor ℚ) (Option (Tensor ℚ)),
    exec ((sumOf ℚ 2).step (rankProgram sixHeads 2 sixHeadShards plainLayer (fun _ => [])
      fun _ => ramp [1, 6])) {} forwardSchedule = some s ∧
    (∀ rank < 2, ∀ j, 2 * j + 2 ≤ (s.ranks rank).round →
      rankOutput (fun _ => ramp [1, 6]) (s.ranks rank).returned j
        = some (sixHeadBlock.forward plainLayer [] (ramp [1, 6]))) ∧
    ∃ rank < 2, ((sumOf ℚ 2).step (rankProgram sixHeads 2 sixHeadShards plainLayer (fun _ => [])
      fun _ => ramp [1, 6]) s rank).isSome = true := by
  obtain ⟨s, hs⟩ := Option.isSome_iff_exists.mp (show (exec ((sumOf ℚ 2).step (rankProgram sixHeads
    2 sixHeadShards plainLayer (fun _ => []) fun _ => ramp [1, 6])) {} forwardSchedule).isSome
      = true by decide +kernel)
  exact ⟨s, hs, headParallel_threads sixHeads_geometry sixHeadBlock_fits Nat.two_pos
    (stateRules_eq (by decide)) sixHeadShards_made plainLayer (fun _ => []) (fun _ => ramp [1, 6])
    forwardSchedule s hs (by decide +kernel)⟩

end Drift.TensorParallel
