/-
  `utils/tensor_parallel`: the state rules of `configs.py` for Llama and Mixtral blocks, and how
  `slicer.py` makes the shard of a rank with them.

  A shard is a deep copy of the block in which every parameter is replaced by what the rule for its
  name makes of it.  The attributes of its modules are those of the block: no rule of the two
  configs changes one, so a linear layer of a shard has the `out_features` of the whole layer,
  whatever its weight has.  `get_num_attention_heads` counts the heads of a shard by it.

  The names of parameters are what the patterns of the rules tell apart.  What is not a linear layer
  of the attention or the MLP is the same in every shard, and left out; so are the devices.
-/
import Drift.Lib.Chunks
import Drift.Lib.Partition
import Drift.Python
import Mathlib.Algebra.Field.Defs
import Mathlib.Algebra.BigOperators.Group.Finset.Basic
import Mathlib.Tactic.Ring

namespace Drift

variable {α : Type}

/-! ## Cutting a tensor -/

namespace Tensor

variable [Zero α]

/-- `torch.tensor_split(t, world_size, dim)[rank]`. -/
def tensorSplit (axis worldSize rank : Nat) (t : Tensor α) : Tensor α :=
  let n := t.shape.getD axis 0
  t.slice axis (splitStart n worldSize rank) (splitStart n worldSize (rank + 1))

/-- `t.flatten(dim, dim + 1)`. -/
def flatten (dim : Nat) (t : Tensor α) : Option (Tensor α) :=
  let merged := t.shape.getD dim 0 * t.shape.getD (dim + 1) 0
  t.reshape ((t.shape.take dim ++ merged :: t.shape.drop (dim + 2)).map Nat.cast)

/-- `t[i]`. -/
def select (i : Nat) (t : Tensor α) : Tensor α := ofFn t.shape.tail fun ix => t.get (i :: ix)

end Tensor

namespace TensorParallel

section Split

variable [Zero α]

/-- `split_heads`, for dimensions that are not negative. -/
def splitHeads (dim headDim worldSize rank : Nat) (t : Tensor α) : Except PyExc (Tensor α) :=
  let n := t.shape.getD dim 0
  if headDim = 0 then .error .zeroDivisionError
  else if n % headDim ≠ 0 then .error (.assertionError s!"torch.Size({t.shape})")
  else do
    let shape := (t.shape.set dim (n / headDim)).insertIdx (dim + 1) headDim
    let heads ← orRaise (.runtimeError "shape is invalid for input")
      (t.reshape (shape.map Nat.cast))
    orRaise (.runtimeError "shape is invalid for input")
      ((heads.tensorSplit dim worldSize rank).flatten dim)

/-- `split_gate_up_experts`. -/
def splitGateUpExperts (worldSize rank : Nat) (t : Tensor α) : Except PyExc (Tensor α) :=
  match t.shape with
  | [numExperts, twoIntermediate, hidden] => do
    let reshaped ← orRaise (.runtimeError "shape is invalid for input")
      (t.reshape ([numExperts, 2, twoIntermediate / 2, hidden].map Nat.cast))
    orRaise (.runtimeError "shape is invalid for input")
      ((reshaped.tensorSplit 2 worldSize rank).reshape [numExperts, -1, hidden])
  | _ => .error (.valueError "not enough values to unpack (expected 3)")

end Split

/-! ## Rules -/

/-- What a rule does with a parameter: a `partial` of one of the functions above, `"split d"` or
    `"scale"`. -/
inductive Action where
  | split (dim : Nat)
  | scale
  | splitHeads (dim headDim : Nat)
  | splitGateUpExperts

/-- `weight` or `bias`. -/
inductive Leaf where
  | weight
  | bias

/-- The parameters of a block, as the patterns of the rules tell them apart. -/
inductive ParamName where
  | qProj (leaf : Leaf)
  | kProj (leaf : Leaf)
  | vProj (leaf : Leaf)
  | oProj (leaf : Leaf)
  | gateProj (leaf : Leaf)
  | upProj (leaf : Leaf)
  | downProj (leaf : Leaf)
  | gateUpExperts
  | downExperts
  /-- `mlp.gate.weight`. -/
  | router

abbrev StateRules := ParamName → Option Action

/-- What the rules read of the config. -/
structure ModelConfig where
  numAttentionHeads : Nat
  numKeyValueHeads : Option Nat
  headDim : Option Nat
  hiddenSize : Nat

/-- `value or default`. -/
def pyOr : Option Nat → Nat → Nat
  | some (n + 1), _ => n + 1
  | _, default => default

namespace ModelConfig

/-- `num_kv_heads` of `_gqa_head_dims`. -/
def numKvHeads (config : ModelConfig) : Nat :=
  pyOr config.numKeyValueHeads config.numAttentionHeads

/-- `head_dim`. -/
def headWidth (config : ModelConfig) : Nat :=
  pyOr config.headDim (config.hiddenSize / config.numAttentionHeads)

/-- `groups`: the query heads for each kv head. -/
def groups (config : ModelConfig) : Nat := config.numAttentionHeads / config.numKvHeads

end ModelConfig

/-- `_gqa_attention_state_rules`. -/
def gqaAttentionStateRules (headDim groups : Nat) : StateRules
  | .qProj _ => some (.splitHeads 0 (groups * headDim))
  | .kProj _ => some (.splitHeads 0 headDim)
  | .vProj _ => some (.splitHeads 0 headDim)
  | .oProj .weight => some (.splitHeads 1 (groups * headDim))
  | .oProj .bias => some .scale
  | _ => none

/-- The assertion of both configs. -/
def checkKvHeads (config : ModelConfig) (worldSize : Nat) : Except PyExc Unit :=
  if worldSize ≤ config.numKvHeads then .ok ()
  else .error (.assertionError (s!"Cannot tensor-parallelize {config.numKvHeads} kv heads " ++
    s!"across {worldSize} devices; need at least one kv head per device"))

/-- The `state_rules` of `get_llama_config`. -/
def llamaStateRules (config : ModelConfig) : StateRules
  | .gateProj _ => some (.split 0)
  | .upProj _ => some (.split 0)
  | .downProj .weight => some (.split 1)
  | .downProj .bias => some .scale
  | name => gqaAttentionStateRules config.headWidth config.groups name

/-- The `state_rules` of `get_mixtral_config`. -/
def mixtralStateRules (config : ModelConfig) : StateRules
  | .gateUpExperts => some .splitGateUpExperts
  | .downExperts => some (.split 2)
  | name => gqaAttentionStateRules config.headWidth config.groups name

/-! ## Blocks -/

/-- `nn.Linear`.  `outFeatures` is an attribute of the module, apart from the weight. -/
structure Linear (K : Type) where
  weight : Tensor K
  bias : Option (Tensor K)
  outFeatures : Nat

/-- The attention module.  `numHeads` is an attribute that some versions have. -/
structure GQAttention (K : Type) where
  numHeads : Option Nat
  headDim : Nat
  numKeyValueGroups : Nat
  qProj : Linear K
  kProj : Linear K
  vProj : Linear K
  oProj : Linear K

/-- The MLP of a Llama block, or the experts of a Mixtral block with their router. -/
inductive Mlp (K : Type) where
  | llama (gateProj upProj downProj : Linear K)
  | mixtral (gate gateUpProj downProj : Tensor K)

structure TransformerBlock (K : Type) where
  selfAttn : GQAttention K
  mlp : Mlp K

/-- `state_rules` of the config for the block's architecture. -/
def stateRules {K : Type} (config : ModelConfig) (worldSize : Nat) (block : TransformerBlock K) :
    Except PyExc StateRules := do
  checkKvHeads config worldSize
  match block.mlp with
  | .llama _ _ _ => .ok (llamaStateRules config)
  | .mixtral _ _ _ => .ok (mixtralStateRules config)

/-- `get_num_attention_heads`. -/
def GQAttention.numAttentionHeads {K : Type} (attn : GQAttention K) : Nat :=
  match attn.numHeads with
  | some numHeads => numHeads
  | none => attn.qProj.outFeatures / attn.headDim

/-- `num_kv_heads` of `StandardGQACache.get_cache_descriptors`, for a shard with `num_heads`. -/
def cacheKvHeads (numHeads numKeyValueGroups : Nat) : Nat := numHeads / numKeyValueGroups

/-! ## Shards -/

section Shards

variable {K : Type} [Field K]

/-- `apply_action`. -/
def applyAction (worldSize rank : Nat) (t : Tensor K) : Action → Except PyExc (Tensor K)
  | .split dim => .ok (t.tensorSplit dim worldSize rank)
  | .scale => .ok (Tensor.ofFn t.shape fun ix => t.get ix / worldSize)
  | .splitHeads dim headDim => splitHeads dim headDim worldSize rank t
  | .splitGateUpExperts => splitGateUpExperts worldSize rank t

/-- `process_state_` on one parameter: without a rule it is copied. -/
def processState (rules : StateRules) (worldSize rank : Nat) (name : ParamName) (t : Tensor K) :
    Except PyExc (Tensor K) :=
  match rules name with
  | some action => applyAction worldSize rank t action
  | none => .ok t

/-- The shard of a linear layer, a copy with other parameters. -/
def Linear.shard (rules : StateRules) (worldSize rank : Nat) (name : Leaf → ParamName)
    (l : Linear K) : Except PyExc (Linear K) := do
  let weight ← processState rules worldSize rank (name .weight) l.weight
  let bias ← match l.bias with
    | none => pure none
    | some bias => some <$> processState rules worldSize rank (name .bias) bias
  .ok { l with weight := weight, bias := bias }

def GQAttention.shard (rules : StateRules) (worldSize rank : Nat) (attn : GQAttention K) :
    Except PyExc (GQAttention K) := do
  let qProj ← attn.qProj.shard rules worldSize rank .qProj
  let kProj ← attn.kProj.shard rules worldSize rank .kProj
  let vProj ← attn.vProj.shard rules worldSize rank .vProj
  let oProj ← attn.oProj.shard rules worldSize rank .oProj
  .ok { attn with qProj := qProj, kProj := kProj, vProj := vProj, oProj := oProj }

def Mlp.shard (rules : StateRules) (worldSize rank : Nat) : Mlp K → Except PyExc (Mlp K)
  | .llama gateProj upProj downProj => do
    let gateProj ← gateProj.shard rules worldSize rank .gateProj
    let upProj ← upProj.shard rules worldSize rank .upProj
    let downProj ← downProj.shard rules worldSize rank .downProj
    .ok (.llama gateProj upProj downProj)
  | .mixtral gate gateUpProj downProj => do
    let gate ← processState rules worldSize rank .router gate
    let gateUpProj ← processState rules worldSize rank .gateUpExperts gateUpProj
    let downProj ← processState rules worldSize rank .downExperts downProj
    .ok (.mixtral gate gateUpProj downProj)

/-- `make_shard`. -/
def makeShard (rules : StateRules) (worldSize rank : Nat) (block : TransformerBlock K) :
    Except PyExc (TransformerBlock K) := do
  let selfAttn ← block.selfAttn.shard rules worldSize rank
  let mlp ← block.mlp.shard rules worldSize rank
  .ok ⟨selfAttn, mlp⟩

/-- `TensorParallel(block, devices, config).module_shards`: on one device it is the block. -/
def moduleShards (rules : StateRules) (worldSize : Nat) (block : TransformerBlock K) :
    Except PyExc (List (TransformerBlock K)) :=
  if worldSize ≤ 1 then .ok [block]
  else (List.range worldSize).mapM fun rank => makeShard rules worldSize rank block

/-- `make_tensor_parallel`, with its assertion about the heads of the shards. -/
def makeTensorParallel (config : ModelConfig) (worldSize : Nat) (block : TransformerBlock K) :
    Except PyExc (List (TransformerBlock K)) := do
  let rules ← stateRules config worldSize block
  let shards ← moduleShards rules worldSize block
  let totalHeads := (shards.map fun shard => shard.selfAttn.numAttentionHeads).sum
  if totalHeads = config.numAttentionHeads then .ok shards
  else .error (.assertionError (s!"Tensor-parallel head split is inconsistent: counted " ++
    s!"{totalHeads} query heads across {shards.length} shard(s), " ++
    s!"expected {config.numAttentionHeads}"))

end Shards

/-! ## What the cuts are -/

section Cuts

variable [Zero α] {n b worldSize rank : Nat} {outer rest : List Nat} {t : Tensor α}

theorem splitStart_bounds (hrank : rank < worldSize) :
    splitStart n worldSize rank ≤ splitStart n worldSize (rank + 1) ∧
      splitStart n worldSize (rank + 1) ≤ n :=
  ⟨splitStart_mono n worldSize (Nat.le_succ rank),
    splitStart_le hrank (Nat.lt_of_le_of_lt (Nat.zero_le _) hrank)⟩

theorem orRaise_some_bind {β γ : Type} {exc : PyExc} {o : Option β} {x : β}
    {f : β → Except PyExc γ} (ho : o = some x) : (orRaise exc o >>= f) = f x := by
  rw [ho]
  rfl

/-- The axis behind `outer`. -/
theorem getD_middle (outer rest : List Nat) (n : Nat) :
    (outer ++ n :: rest).getD outer.length 0 = n := by
  simp [List.getD_eq_getElem?_getD]

theorem set_middle (outer rest : List Nat) (n n' : Nat) :
    (outer ++ n :: rest).set outer.length n' = outer ++ n' :: rest := by
  simp

theorem modify_middle (pre post : List Nat) (i : Nat) (f : Nat → Nat) :
    (pre ++ i :: post).modify pre.length f = pre ++ f i :: post := by
  induction pre with
  | nil => rfl
  | cons x pre ih => exact congrArg (x :: ·) ih

theorem insertIdx_middle (outer rest : List Nat) (n b : Nat) :
    (outer ++ n :: rest).insertIdx (outer.length + 1) b = outer ++ n :: b :: rest := by
  induction outer with
  | nil => rfl
  | cons x outer ih =>
    rw [List.cons_append, List.length_cons, List.insertIdx_succ_cons, ih]
    rfl

theorem inBounds_append : ∀ {outer shape ix : List Nat}, InBounds (outer ++ shape) ix →
    ∃ pre post, ix = pre ++ post ∧ pre.length = outer.length ∧ InBounds shape post ∧
      ∀ {shape' post'}, InBounds shape' post' → InBounds (outer ++ shape') (pre ++ post')
  | [], _, ix, h => ⟨[], ix, rfl, rfl, h, id⟩
  | x :: outer, _, ix, h => by
    obtain ⟨i, ix, rfl, hi, hrest⟩ := h.exists_cons
    obtain ⟨pre, post, rfl, hlength, hpost, hback⟩ := inBounds_append hrest
    exact ⟨i :: pre, post, rfl, congrArg Nat.succ hlength, hpost, fun h' => ⟨hi, hback h'⟩⟩

theorem ravel_append_congr {shape shape' post post' : List Nat}
    (hprod : shape.prod = shape'.prod) (hravel : ravel shape post = ravel shape' post') :
    ∀ {outer pre : List Nat}, pre.length = outer.length →
      ravel (outer ++ shape) (pre ++ post) = ravel (outer ++ shape') (pre ++ post')
  | [], [], _ => hravel
  | x :: outer, i :: pre, hlength => by
    refine ravel_cons_congr ?_ (ravel_append_congr hprod hravel (Nat.succ.inj hlength))
    show (outer ++ shape).prod = (outer ++ shape').prod
    rw [List.prod_append, List.prod_append, hprod]

/-- The offset inside blocks of `b`, when the blocks before it are cut off. -/
theorem ravel_block (i lo n n' : Nat) (rest ix : List Nat) (hb : 0 < b) :
    ravel (n' * b :: rest) ((i + lo * b) :: ix)
      = ravel (n :: b :: rest) ((i / b + lo) :: i % b :: ix) := by
  have hdiv : (i + lo * b) / b = i / b + lo := Nat.add_mul_div_right i lo hb
  have hmod : (i + lo * b) % b = i % b := Nat.add_mul_mod_self_right i lo b
  rw [ravel_split n' b, hdiv, hmod]
  rfl

theorem prod_block (n b : Nat) (outer rest : List Nat) :
    (outer ++ n :: b :: rest).prod = (outer ++ n * b :: rest).prod := by
  rw [List.prod_append, List.prod_append, List.prod_cons, List.prod_cons, List.prod_cons,
    Nat.mul_assoc]

/-- **`split_heads` cuts between heads.** -/
theorem splitHeads_eq (outer : List Nat) (ht : t.shape = outer ++ n * b :: rest) (hb : 0 < b)
    (hrank : rank < worldSize) :
    splitHeads outer.length b worldSize rank t
      = .ok (t.slice outer.length (splitStart n worldSize rank * b : Nat)
          (splitStart n worldSize (rank + 1) * b : Nat)) := by
  obtain ⟨hlo, hhi⟩ := splitStart_bounds (n := n) hrank
  generalize hloDef : splitStart n worldSize rank = lo at hlo ⊢
  generalize hhiDef : splitStart n worldSize (rank + 1) = hi at hlo hhi ⊢
  have hn : t.shape.getD outer.length 0 = n * b := by rw [ht, getD_middle]
  have hsize : (outer ++ n :: b :: rest).prod = t.shape.prod := by rw [ht, prod_block]
  have hshape : (t.shape.set outer.length (n * b / b)).insertIdx (outer.length + 1) b
      = outer ++ n :: b :: rest := by
    rw [ht, Nat.mul_div_cancel n hb, set_middle, insertIdx_middle]
  -- the heads, and the part of them
  generalize hheads : t.withShape (outer ++ n :: b :: rest) hsize = heads
  have hheadsShape : heads.shape = outer ++ n :: b :: rest := by rw [← hheads]; rfl
  have hheadsN : heads.shape.getD outer.length 0 = n := by rw [hheadsShape, getD_middle]
  have hpart : heads.tensorSplit outer.length worldSize rank = heads.slice outer.length lo hi := by
    show Tensor.slice _ (splitStart (heads.shape.getD _ 0) _ _) _ _ = _
    rw [hheadsN, hloDef, hhiDef]
  have hpartShape : (heads.slice outer.length lo hi).shape = outer ++ (hi - lo) :: b :: rest := by
    rw [Tensor.shape_slice_of_le hlo (hheadsN ▸ hhi), hheadsShape, set_middle]
  have hmerge : (outer ++ (hi - lo) * b :: rest).prod
      = (heads.slice outer.length lo hi).shape.prod := by rw [hpartShape, prod_block]
  have hflatten : (heads.slice outer.length lo hi).flatten outer.length
      = some ((heads.slice outer.length lo hi).withShape (outer ++ (hi - lo) * b :: rest)
          hmerge) := by
    have hdims : (heads.slice outer.length lo hi).shape.take outer.length ++
        (heads.slice outer.length lo hi).shape.getD outer.length 0 *
          (heads.slice outer.length lo hi).shape.getD (outer.length + 1) 0 ::
        (heads.slice outer.length lo hi).shape.drop (outer.length + 2)
        = outer ++ (hi - lo) * b :: rest := by
      rw [hpartShape]
      simp [List.getD_eq_getElem?_getD]
    rw [Tensor.flatten]
    simp only [hdims]
    exact Tensor.reshape_natCast hmerge
  have hmod : ¬ n * b % b ≠ 0 := fun hne => hne (Nat.mul_mod_left n b)
  rw [splitHeads, hn, if_neg hb.ne', if_neg hmod]
  simp only [hshape]
  rw [orRaise_some_bind (Tensor.reshape_natCast hsize), hheads, hpart, hflatten]
  refine congrArg Except.ok ?_
  have hloMul : lo * b ≤ hi * b := Nat.mul_le_mul_right b hlo
  have hhiMul : hi * b ≤ t.shape.getD outer.length 0 := hn ▸ Nat.mul_le_mul_right b hhi
  have hwhole : t.shape.set outer.length (hi * b - lo * b) = outer ++ (hi - lo) * b :: rest := by
    rw [ht, set_middle, ← Nat.sub_mul]
  refine Tensor.ext_get ?_ fun ix hix => ?_
  · rw [Tensor.shape_slice_of_le hloMul hhiMul, hwhole]
    rfl
  obtain ⟨pre, post, rfl, hlength, hpost, hback⟩ := inBounds_append hix
  obtain ⟨i, post, rfl, hi', hrest⟩ := hpost.exists_cons
  have hdiv : i / b < hi - lo := Nat.div_lt_of_lt_mul (Nat.mul_comm b _ ▸ hi')
  have hinside : InBounds (heads.shape.set outer.length (hi - lo))
      (pre ++ i / b :: i % b :: post) := by
    rw [hheadsShape, set_middle]
    exact hback ⟨hdiv, Nat.mod_lt i hb, hrest⟩
  calc ((heads.slice outer.length lo hi).withShape _ hmerge).get (pre ++ i :: post)
      = (heads.slice outer.length lo hi).get (pre ++ i / b :: i % b :: post) := by
        refine Tensor.get_withShape hmerge ?_
        rw [hpartShape]
        exact ravel_append_congr (by rw [List.prod_cons, List.prod_cons, List.prod_cons,
          Nat.mul_assoc]) (ravel_split _ _ _ _ _) hlength
    _ = heads.get (pre ++ (i / b + lo) :: i % b :: post) := by
        rw [Tensor.get_slice _ hlo (hheadsN ▸ hhi) hinside, ← hlength, modify_middle]
    _ = t.get (pre ++ (i + lo * b) :: post) := by
        rw [← hheads]
        refine Tensor.get_withShape hsize ?_
        rw [ht]
        exact ravel_append_congr (by rw [List.prod_cons, List.prod_cons, List.prod_cons,
          Nat.mul_assoc]) (ravel_block i lo n n rest post hb).symm hlength
    _ = (t.slice outer.length (lo * b : Nat) (hi * b : Nat)).get (pre ++ i :: post) := by
        rw [Tensor.get_slice _ hloMul hhiMul (by rw [hwhole]; exact hback ⟨hi', hrest⟩), ← hlength,
          modify_middle]

omit [Zero α] in
/-- The size that is left open is inferred. -/
theorem reshape_infer {a c d : Nat} (ha : 0 < a) (hd : 0 < d) (ht : t.shape.prod = a * (c * d)) :
    ∃ hsize : [a, c, d].prod = t.shape.prod,
      t.reshape [(a : Int), -1, (d : Int)] = some (t.withShape [a, c, d] hsize) := by
  have hsize : [a, c, d].prod = t.shape.prod := by
    rw [ht, List.prod_cons, List.prod_cons, List.prod_singleton]
  have hgiven : ([(a : Int), -1, (d : Int)].filter (· ≠ -1)).map Int.toNat = [a, d] := by
    have ha' : (a : Int) ≠ -1 := by omega
    have hd' : (d : Int) ≠ -1 := by omega
    simp [ha', hd']
  have hprod : [a, d].prod = a * d := by simp
  have hdvd : a * d ∣ t.shape.prod := ⟨c, by rw [ht]; ring⟩
  have hdiv : t.shape.prod / (a * d) = c := by
    rw [ht, show a * (c * d) = c * (a * d) by ring]
    exact Nat.mul_div_cancel c (Nat.mul_pos ha hd)
  have hdims : Tensor.resolveDims t.numel [(a : Int), -1, (d : Int)] = some [a, c, d] := by
    have hany : [(a : Int), -1, (d : Int)].any (· < -1) = false := by
      have ha' : ¬ (a : Int) < -1 := by omega
      have hd' : ¬ (d : Int) < -1 := by omega
      simp [ha', hd']
    have hcount : [(a : Int), -1, (d : Int)].count (-1) = 1 := by
      have ha' : (a : Int) ≠ -1 := by omega
      simp [ha']
    rw [Tensor.resolveDims]
    simp only [hgiven, hprod, hany, hcount]
    rw [if_neg Bool.false_ne_true, if_neg (by decide),
      if_pos ⟨trivial, Nat.mul_pos ha hd, hdvd⟩]
    have ha' : (a : Int) ≠ -1 := by omega
    have hd' : (d : Int) ≠ -1 := by omega
    simp [ha', hd', Tensor.numel, hdiv]
  refine ⟨hsize, ?_⟩
  rw [Tensor.reshape, hdims]
  exact dif_pos hsize

/-- **`split_gate_up_experts` cuts both halves alike.** -/
theorem splitGateUpExperts_spec {numExperts hidden : Nat}
    (ht : t.shape = [numExperts, 2 * n, hidden]) (hexperts : 0 < numExperts) (hhidden : 0 < hidden)
    (hrank : rank < worldSize) :
    ∃ part, splitGateUpExperts worldSize rank t = .ok part ∧
      part.shape = [numExperts, 2 * splitSize n worldSize rank, hidden] ∧
      ∀ e half i h, e < numExperts → half < 2 → i < splitSize n worldSize rank → h < hidden →
        part.get [e, half * splitSize n worldSize rank + i, h]
          = t.get [e, half * n + (splitStart n worldSize rank + i), h] := by
  obtain ⟨hlo, hhi⟩ := splitStart_bounds (n := n) hrank
  rw [← splitStart_sub]
  generalize hloDef : splitStart n worldSize rank = lo at hlo ⊢
  generalize hhiDef : splitStart n worldSize (rank + 1) = hi at hlo hhi ⊢
  have hsize : [numExperts, 2, n, hidden].prod = t.shape.prod := by
    rw [ht]
    simp only [List.prod_cons, List.prod_nil]
    ring
  generalize hhalves : t.withShape [numExperts, 2, n, hidden] hsize = halves
  have hshape : halves.shape = [numExperts, 2, n, hidden] := by rw [← hhalves]; rfl
  have hn : halves.shape.getD 2 0 = n := by rw [hshape]; rfl
  have hcut : halves.tensorSplit 2 worldSize rank = halves.slice 2 lo hi := by
    show Tensor.slice 2 (splitStart (halves.shape.getD 2 0) _ _) _ _ = _
    rw [hn, hloDef, hhiDef]
  have hcutShape : (halves.slice 2 lo hi).shape = [numExperts, 2, hi - lo, hidden] := by
    rw [Tensor.shape_slice_of_le hlo (hn ▸ hhi), hshape]
    rfl
  obtain ⟨hmerge, hreshape⟩ := reshape_infer (t := halves.slice 2 lo hi) (c := 2 * (hi - lo))
    hexperts hhidden (by
      rw [hcutShape]
      simp only [List.prod_cons, List.prod_nil]
      ring)
  refine ⟨(halves.slice 2 lo hi).withShape [numExperts, 2 * (hi - lo), hidden] hmerge, ?_, rfl, ?_⟩
  · rw [splitGateUpExperts, ht]
    have hhalf : 2 * n / 2 = n := Nat.mul_div_cancel_left n (by decide)
    simp only [hhalf]
    rw [orRaise_some_bind (Tensor.reshape_natCast hsize), hhalves, hcut, hreshape]
    rfl
  · intro e half i h he hhalf hi' hh
    have hinside : InBounds (halves.shape.set 2 (hi - lo)) [e, half, i, h] := by
      rw [hshape]
      exact ⟨he, hhalf, hi', hh, trivial⟩
    calc ((halves.slice 2 lo hi).withShape _ hmerge).get [e, half * (hi - lo) + i, h]
        = (halves.slice 2 lo hi).get [e, half, i, h] := by
          refine Tensor.get_withShape hmerge ?_
          rw [hcutShape]
          simp only [ravel, List.prod_cons, List.prod_nil]
          ring
      _ = halves.get [e, half, i + lo, h] := Tensor.get_slice _ hlo (hn ▸ hhi) hinside
      _ = t.get [e, half * n + (lo + i), h] := by
          rw [← hhalves]
          refine Tensor.get_withShape hsize ?_
          rw [ht]
          simp only [ravel, List.prod_cons, List.prod_nil]
          ring

end Cuts

end TensorParallel

end Drift
