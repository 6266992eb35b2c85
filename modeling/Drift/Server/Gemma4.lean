/-
  The Gemma 4 block wrappers, `models/gemma4/block.py` and `models/gemma4_unified/block.py`, and
  the absolute positions they use when `_forward_chunked` cuts their input.

  An ordinary block reads the number of past tokens off its own cache.  A KV-sharing consumer has no
  cache and takes the length of the donor's keys minus the length of its input.  The donor has
  stored the keys of the whole step before the consumer runs, so this is the number of past tokens
  if the input is the whole step; for a chunk of it, it is the position of the LAST tokens of the
  step, whichever chunk it is.

  The stock decoder layer and the mask functions are parameters: `StockCausal` says what is
  relied on of the layer, that it is causal when it is handed the positions that follow its cache.
-/
import Drift.Cache.BloomLayout
import Drift.Server.CausalCache
import Mathlib.Data.String.Basic

namespace Drift

/-- Which of the two wrappers: one takes per-layer inputs of a width, the other none. -/
inductive GemmaVariant where
  | gemma4 (hiddenSizePerLayerInput : Nat)
  | gemma4Unified

/-- The call of the stock decoder layer.  `past_key_values` is `None` for a sharing layer, and else
    a cache with at most one layer in it. -/
structure DecoderCall (α μ : Type) where
  hiddenStates : Tensor α
  perLayerInput : Option (Tensor α)
  sharedKvStates : SharedKvStates String α
  cachePosition : List Int
  attentionMask : μ
  pastKeyValues : Option (Option (KVPair α))

/-- A wrapped block: what the stock attention says about its layer, the mask functions, and the
    stock layer, which returns its output, its cache and the dict as it leaves them. -/
structure WrappedGemma4Block (α μ : Type) where
  variant : GemmaVariant
  isKvSharedLayer : Bool
  layerType : String
  createCausalMask : Tensor α → Option (KVPair α) → List Int → μ
  createSlidingWindowCausalMask : Tensor α → Option (KVPair α) → List Int → μ
  decoderLayer : DecoderCall α μ →
    Except PyExc (Tensor α × Option (KVPair α) × SharedKvStates String α)

namespace WrappedGemma4Block

variable {α μ : Type} [Zero α]

/-- The per-layer input that reaches the stock layer: zeros where none is given, and none in the
    wrapper that does not know them. -/
def sideInput (block : WrappedGemma4Block α μ) (hiddenStates : Tensor α)
    (perLayerInput : Option (Tensor α)) : Option (Tensor α) :=
  match block.variant with
  | .gemma4Unified => none
  | .gemma4 hiddenSizePerLayerInput =>
    if perLayerInput.isNone ∧ hiddenSizePerLayerInput ≠ 0 then
      some (Tensor.zeros [hiddenStates.shape.getD 0 0, hiddenStates.shape.getD 1 0,
        hiddenSizePerLayerInput])
    else perLayerInput

/-- `past_length`, `mask_cache` and `past_key_values`. -/
structure CacheView (α : Type) where
  pastLength : Int
  maskCache : Option (KVPair α)
  pastKeyValues : Option (Option (KVPair α))

/-- The past of a sharing layer is what the donor's keys are longer than the input; another layer
    has its own. -/
def cacheView (block : WrappedGemma4Block α μ) (hiddenStates : Tensor α)
    (layerPast : LayerPast α) (shared : SharedKvStates String α) : Except PyExc (CacheView α) :=
  if block.isKvSharedLayer then
    match shared.lookup block.layerType with
    | none => .error .keyError
    | some (donorKey, _) =>
      let pastLength : Int := donorKey.shape.getD 2 0 - (hiddenStates.shape.getD 1 0 : Nat)
      let past := donorKey.slice 2 0 pastLength
      .ok ⟨pastLength, if 0 < pastLength then some (past, past) else none, none⟩
  else
    match layerPast with
    | none => .ok ⟨0, none, some none⟩
    | some [] => .error .indexError
    | some (kv :: _) =>
      if isDummy kv.1 then .ok ⟨0, none, some none⟩
      else (orRaise (.runtimeError "shape is invalid for input")
          (reorderCacheFromBloom kv (hiddenStates.shape.getD 0 0))).map fun past =>
        ⟨past.1.shape.getD 2 0, some past, some (some past)⟩

/-- `cache_position` for a past of this length. -/
def positionsFrom (pastLength : Int) (hiddenStates : Tensor α) : List Int :=
  pyRange pastLength (pastLength + (hiddenStates.shape.getD 1 0 : Nat))

/-- `cache_position`: the absolute positions of the input. -/
def cachePosition (block : WrappedGemma4Block α μ) (hiddenStates : Tensor α)
    (layerPast : LayerPast α) (shared : SharedKvStates String α) : Except PyExc (List Int) :=
  (block.cacheView hiddenStates layerPast shared).map fun view =>
    positionsFrom view.pastLength hiddenStates

/-- `mask_fn`. -/
def maskFn (block : WrappedGemma4Block α μ) :
    Tensor α → Option (KVPair α) → List Int → μ :=
  if block.layerType = "sliding_attention" then block.createSlidingWindowCausalMask
  else block.createCausalMask

/-- `forward(..., use_cache=True)` with the per-layer input that reaches the stock layer. -/
def forwardWith (block : WrappedGemma4Block α μ) :
    ModuleForward (SharedKvStates String α) α :=
  fun hiddenStates layerPast perLayerInput shared => do
    let view ← block.cacheView hiddenStates layerPast shared
    let cachePosition := positionsFrom view.pastLength hiddenStates
    let (output, present, shared) ← block.decoderLayer
      { hiddenStates := hiddenStates
        perLayerInput := perLayerInput
        sharedKvStates := shared
        cachePosition := cachePosition
        attentionMask := block.maskFn hiddenStates view.maskCache cachePosition
        pastKeyValues := view.pastKeyValues }
    if block.isKvSharedLayer then pure (output, none, shared)
    else
      let present ← orRaise .indexError present
      let newKvs ← orRaise (.runtimeError "shape is invalid for input")
        (reorderCacheToBloom present (hiddenStates.shape.getD 0 0))
      pure (output, some [newKvs], shared)

/-- `WrappedGemma4Block.forward` and `WrappedGemma4UnifiedBlock.forward`. -/
def forward (block : WrappedGemma4Block α μ) : ModuleForward (SharedKvStates String α) α :=
  fun hiddenStates layerPast perLayerInput shared =>
    block.forwardWith hiddenStates layerPast (block.sideInput hiddenStates perLayerInput) shared

/-- A forward that also writes down the positions it uses. -/
def recording (block : WrappedGemma4Block α μ)
    (forward : ModuleForward (SharedKvStates String α) α) :
    ModuleForward (SharedKvStates String α × List Int) α :=
  fun hiddenStates layerPast perLayerInput (shared, positions) => do
    let cachePosition ← block.cachePosition hiddenStates layerPast shared
    let (output, newKvs, shared) ← forward hiddenStates layerPast perLayerInput shared
    pure (output, newKvs, shared, positions ++ cachePosition)

end WrappedGemma4Block

/-! ## The two cache layouts -/

section Layouts

variable {α : Type} [Zero α] {rows : History α} {batch n : Nat} {shard : ShardSpec α}
  {kv : KVPair α}

/-- Keys and values of the first `n` tokens as the stock layer keeps them:
    `[batch, kv_heads, seq, head_dim]`. -/
structure HoldsStock (rows : History α) (batch n : Nat) (shard : ShardSpec α) (kv : KVPair α) :
    Prop where
  key_shape : kv.1.shape = [batch, shard.kvHeads, n, shard.keyDim]
  value_shape : kv.2.shape = [batch, shard.kvHeads, n, shard.valueDim]
  key_get : ∀ i g t d, i < batch → g < shard.kvHeads → t < n → d < shard.keyDim →
    kv.1.get [i, g, t, d] = shard.keyAt ((rows i).take (t + 1)) g d
  value_get : ∀ i g t d, i < batch → g < shard.kvHeads → t < n → d < shard.valueDim →
    kv.2.get [i, g, t, d] = shard.valueAt ((rows i).take (t + 1)) g d

/-- The widths of a shard, and what the rows of a history put in its cache. -/
def ShardSpec.dims (shard : ShardSpec α) : HeadDims :=
  ⟨shard.kvHeads, shard.keyDim, shard.valueDim⟩

def ShardSpec.content (shard : ShardSpec α) (rows : History α) : KVContent α where
  key c := shard.keyAt ((rows c.row).take (c.position + 1)) c.head c.channel
  value c := shard.valueAt ((rows c.row).take (c.position + 1)) c.head c.channel

theorem HoldsPast.holds (h : HoldsPast rows batch n shard kv) :
    (bloomLayout batch n shard.dims).Holds kv (shard.content rows) := by
  refine ⟨⟨h.key_shape, fun c hc => ?_⟩, h.value_shape, fun c hc => ?_⟩
  all_goals
    obtain ⟨hrow, hhead, hposition, hchannel⟩ := hc
    have hdiv : (c.row * shard.kvHeads + c.head) / shard.kvHeads = c.row := mul_add_div_eq hhead
    have hmod : (c.row * shard.kvHeads + c.head) % shard.kvHeads = c.head := mul_add_mod_eq hhead
  · refine (h.key_get _ _ _ (mul_add_lt hrow hhead) hchannel hposition).trans ?_
    rw [hdiv, hmod]
    rfl
  · refine (h.value_get _ _ _ (mul_add_lt hrow hhead) hchannel hposition).trans ?_
    rw [hdiv, hmod]
    rfl

theorem holdsPast_of_holds (h : (bloomLayout batch n shard.dims).Holds kv (shard.content rows)) :
    HoldsPast rows batch n shard kv := by
  refine ⟨h.key.shape, h.value.shape, fun r d t hr hd ht => ?_, fun r d t hr hd ht => ?_⟩
  · have hget := h.key.get ⟨r / shard.kvHeads, r % shard.kvHeads, t, d⟩
      ⟨row_lt hr, head_lt hr, ht, hd⟩
    change kv.1.get [r / shard.kvHeads * shard.kvHeads + r % shard.kvHeads, d, t] = _ at hget
    rwa [Nat.div_add_mod'] at hget
  · have hget := h.value.get ⟨r / shard.kvHeads, r % shard.kvHeads, t, d⟩
      ⟨row_lt hr, head_lt hr, ht, hd⟩
    change kv.2.get [r / shard.kvHeads * shard.kvHeads + r % shard.kvHeads, t, d] = _ at hget
    rwa [Nat.div_add_mod'] at hget

theorem holdsStock_iff : HoldsStock rows batch n shard kv ↔
    (stockLayout batch n shard.dims).Holds kv (shard.content rows) := by
  constructor
  · intro h
    exact ⟨⟨h.key_shape, fun c hc => h.key_get _ _ _ _ hc.1 hc.2.1 hc.2.2.1 hc.2.2.2⟩,
      h.value_shape, fun c hc => h.value_get _ _ _ _ hc.1 hc.2.1 hc.2.2.1 hc.2.2.2⟩
  · intro h
    exact ⟨h.key.shape, h.value.shape,
      fun i g t d hi hg ht hd => h.key.get ⟨i, g, t, d⟩ ⟨hi, hg, ht, hd⟩,
      fun i g t d hi hg ht hd => h.value.get ⟨i, g, t, d⟩ ⟨hi, hg, ht, hd⟩⟩

theorem HoldsPast.fromBloom (h : HoldsPast rows batch n shard kv) (hbatch : 0 < batch) :
    ∃ past, reorderCacheFromBloom kv batch = some past ∧ HoldsStock rows batch n shard past := by
  obtain ⟨past, hfrom, hholds⟩ := reorderCacheFromBloom_holds hbatch h.holds
  exact ⟨past, hfrom, holdsStock_iff.mpr hholds⟩

theorem HoldsStock.toBloom (h : HoldsStock rows batch n shard kv) :
    ∃ newKvs, reorderCacheToBloom kv batch = some newKvs ∧ HoldsPast rows batch n shard newKvs := by
  obtain ⟨newKvs, hto, hholds⟩ := reorderCacheToBloom_holds (holdsStock_iff.mp h)
  exact ⟨newKvs, hto, holdsPast_of_holds hholds⟩

end Layouts

end Drift
