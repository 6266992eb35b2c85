/-
  The bytes of the attention cache, as four places of the code count them: `Server.__init__` for the
  budget, `ModuleAnnouncerThread` for the tokens that it announces, `_has_cache_for` of the client's
  `RemoteSequenceManager`, and the descriptors of `KVCacheStrategy.get_cache_descriptors`, which are
  what a session allocates.

  The descriptors know the head dimensions: an explicit `head_dim`, that of the attention module, or
  the ones of MLA.  The server and the announcer take `hidden_size` for all heads together.  So the
  four agree exactly when the heads of a block together are not wider than that
  (`cacheBytes_agree_iff`).
-/
import Drift.Cache.Allocation
import Drift.Client.InferenceGraph
import Mathlib.Tactic.Ring

namespace Drift

/-- Which `KVCacheStrategy` the config of a model names. -/
inductive CacheStrategy where
  | standardGQA
  /-- `MLACache`, with the config's head dimensions. -/
  | mla (qkNopeHeadDim qkRopeHeadDim vHeadDim : Nat)

/-- The block config.  The counts are divisors in `Server.__init__` and in the derivation of the
    head dimension, which raise when one is zero. -/
structure BlockConfig where
  hiddenSize : Nat
  numAttentionHeads : Nat
  headDim : Option Nat
  numKeyValueGroups : Nat
  kvCacheStrategy : CacheStrategy
  numAttentionHeads_pos : 0 < numAttentionHeads
  numKeyValueGroups_pos : 0 < numKeyValueGroups

/-- What a backend reads off its attention module: `cache_head_dim` and `cache_kv_groups`. -/
structure BlockGeometry where
  cacheHeadDim : Option Nat
  cacheKvGroups : Option Nat
  cacheKvGroups_pos : ∀ groups ∈ cacheKvGroups, 0 < groups

/-- A server on a single device, with the blocks it hosts. -/
structure HostedBlocks where
  config : BlockConfig
  /-- `get_size_in_bytes(torch_dtype)`. -/
  dtypeBytes : Nat
  blocks : List BlockGeometry

/-! ## The four places -/

namespace BlockConfig

/-- `self.config.head_dim or self.config.hidden_size // self.config.num_attention_heads`. -/
def derivedHeadDim (config : BlockConfig) : Nat :=
  match config.headDim with
  | some (headDim + 1) => headDim + 1
  | _ => config.hiddenSize / config.numAttentionHeads

/-- `get_cache_descriptors` of the strategy, for the only shard. -/
def getCacheDescriptors (config : BlockConfig) (dtypeBytes batchSize maxLength : Nat)
    (block : BlockGeometry) : List TensorDescriptor :=
  match config.kvCacheStrategy with
  | .standardGQA =>
    let headDim := block.cacheHeadDim.getD config.derivedHeadDim
    let groups := block.cacheKvGroups.getD config.numKeyValueGroups
    let numKvHeads := config.numAttentionHeads / groups
    [⟨[batchSize, numKvHeads, headDim, maxLength], dtypeBytes, 0⟩,
      ⟨[batchSize, numKvHeads, maxLength, headDim], dtypeBytes, 0⟩]
  | .mla qkNopeHeadDim qkRopeHeadDim vHeadDim =>
    let numKvHeads := config.numAttentionHeads / config.numKeyValueGroups
    [⟨[batchSize, numKvHeads, qkNopeHeadDim + qkRopeHeadDim, maxLength], dtypeBytes, 0⟩,
      ⟨[batchSize, numKvHeads, maxLength, vHeadDim], dtypeBytes, 0⟩]

end BlockConfig

namespace HostedBlocks

/-- `_cache_bytes_per_block`. -/
def cacheBytesPerBlock (server : HostedBlocks) (attnCacheTokens : Nat) : Nat :=
  2 * server.config.hiddenSize * attnCacheTokens / server.config.numKeyValueGroups
    * server.dtypeBytes

/-- `attn_cache_bytes`. -/
def attnCacheBytes (server : HostedBlocks) (attnCacheTokens : Nat) : Nat :=
  server.cacheBytesPerBlock attnCacheTokens * server.blocks.length

/-- `ModuleAnnouncerThread.bytes_per_token`. -/
def bytesPerToken (server : HostedBlocks) : Nat :=
  server.config.hiddenSize * server.dtypeBytes / server.config.numKeyValueGroups

/-- `bytes_left // bytes_per_token`. -/
def cacheTokensLeft (server : HostedBlocks) (bytesLeft : Int) : Except PyExc Int :=
  if server.bytesPerToken = 0 then .error .zeroDivisionError
  else .ok (bytesLeft / server.bytesPerToken)

/-- The descriptors of a session on all blocks. -/
def descriptors (server : HostedBlocks) (batchSize maxLength : Nat) : List TensorDescriptor :=
  server.blocks.flatMap
    (server.config.getCacheDescriptors server.dtypeBytes batchSize maxLength)

/-- The bytes of a session on all blocks. -/
def sessionBytes (server : HostedBlocks) (batchSize maxLength : Nat) : Nat :=
  ((server.descriptors batchSize maxLength).map TensorDescriptor.bytes).sum

/-- The four places agree: a session that the client takes to have room for (its span is all the
    blocks) fits, and the budget has room for as many tokens as it is made for. -/
structure Agree (server : HostedBlocks) : Prop where
  announced : ∀ bytesLeft cacheTokensLeft n, server.cacheTokensLeft bytesLeft = .ok cacheTokensLeft →
    hasCacheFor server.blocks.length (some cacheTokensLeft) (some n) = true →
      (server.sessionBytes 1 n : Int) ≤ bytesLeft
  budget : ∀ attnCacheTokens,
    server.sessionBytes 1 attnCacheTokens ≤ server.attnCacheBytes attnCacheTokens

/-! ## The width of the heads -/

/-- The key and value entries of a token in a block. -/
def tokenValues (server : HostedBlocks) (block : BlockGeometry) : Nat :=
  match server.config.kvCacheStrategy with
  | .standardGQA =>
    server.config.numAttentionHeads / block.cacheKvGroups.getD server.config.numKeyValueGroups
      * (2 * block.cacheHeadDim.getD server.config.derivedHeadDim)
  | .mla qkNopeHeadDim qkRopeHeadDim vHeadDim =>
    server.config.numAttentionHeads / server.config.numKeyValueGroups
      * (qkNopeHeadDim + qkRopeHeadDim + vHeadDim)

/-- The entries of a token in all blocks. -/
def allTokenValues (server : HostedBlocks) : Nat := (server.blocks.map server.tokenValues).sum

theorem sessionBytes_eq (server : HostedBlocks) (n : Nat) :
    server.sessionBytes 1 n = n * (server.allTokenValues * server.dtypeBytes) := by
  have hblock : ∀ block, ((server.config.getCacheDescriptors server.dtypeBytes 1 n block).map
      TensorDescriptor.bytes).sum = n * (server.tokenValues block * server.dtypeBytes) := by
    intro block
    rw [BlockConfig.getCacheDescriptors, tokenValues]
    cases server.config.kvCacheStrategy with
    | standardGQA =>
      simp only [List.map_cons, List.map_nil, List.sum_cons, List.sum_nil, TensorDescriptor.bytes,
        List.prod_cons, List.prod_nil]
      ring
    | mla qkNopeHeadDim qkRopeHeadDim vHeadDim =>
      simp only [List.map_cons, List.map_nil, List.sum_cons, List.sum_nil, TensorDescriptor.bytes,
        List.prod_cons, List.prod_nil]
      ring
  rw [sessionBytes, descriptors, allTokenValues]
  induction server.blocks with
  | nil => simp
  | cons block blocks ih =>
    rw [List.flatMap_cons, List.map_append, List.sum_append, hblock, ih, List.map_cons,
      List.sum_cons]
    ring

/-- The heads are not wider than the server takes them to be: in the tokens that are announced and
    in the budget. -/
structure Narrow (server : HostedBlocks) : Prop where
  announced : server.bytesPerToken ≠ 0 →
    server.allTokenValues * server.dtypeBytes ≤ 2 * server.blocks.length * server.bytesPerToken
  budget : server.allTokenValues * server.dtypeBytes
    ≤ 2 * server.config.hiddenSize / server.config.numKeyValueGroups * server.dtypeBytes
      * server.blocks.length

/-- **The four places agree** exactly when the heads are narrow enough. -/
theorem agree_iff (server : HostedBlocks) : server.Agree ↔ server.Narrow := by
  constructor
  · intro h
    constructor
    · intro hpos
      -- one token, and just so many bytes left
      have hleft : server.cacheTokensLeft (2 * server.blocks.length * server.bytesPerToken : Nat)
          = .ok (2 * server.blocks.length : Nat) := by
        rw [cacheTokensLeft, if_neg hpos, Int.natCast_mul, Int.mul_ediv_cancel _ (by omega)]
      have hone := h.announced _ _ 1 hleft (by simp [hasCacheFor])
      rw [sessionBytes_eq, one_mul] at hone
      exact Int.ofNat_le.mp hone
    · have hone := h.budget 1
      rw [sessionBytes_eq, one_mul, attnCacheBytes, cacheBytesPerBlock, mul_one] at hone
      exact hone
  · intro h
    constructor
    · intro bytesLeft left n hleft hcache
      rw [cacheTokensLeft] at hleft
      split at hleft
      · nomatch hleft
      · rename_i hpos
        obtain rfl := Except.ok.inj hleft
        have hle : (n * 2 * server.blocks.length : Int) ≤ bytesLeft / server.bytesPerToken := by
          simpa [hasCacheFor] using hcache
        rw [Int.le_ediv_iff_mul_le (by omega)] at hle
        have hsession : n * (server.allTokenValues * server.dtypeBytes)
            ≤ n * (2 * server.blocks.length * server.bytesPerToken) :=
          Nat.mul_le_mul_left n (h.announced hpos)
        rw [sessionBytes_eq]
        refine (Int.ofNat_le.mpr hsession).trans (le_trans (le_of_eq ?_) hle)
        push_cast
        ring
    · intro attnCacheTokens
      rw [sessionBytes_eq, attnCacheBytes, cacheBytesPerBlock]
      calc attnCacheTokens * (server.allTokenValues * server.dtypeBytes)
          ≤ attnCacheTokens * (2 * server.config.hiddenSize / server.config.numKeyValueGroups
              * server.dtypeBytes * server.blocks.length) :=
            Nat.mul_le_mul_left _ h.budget
        _ = attnCacheTokens * (2 * server.config.hiddenSize / server.config.numKeyValueGroups)
              * server.dtypeBytes * server.blocks.length := by ring
        _ ≤ attnCacheTokens * (2 * server.config.hiddenSize) / server.config.numKeyValueGroups
              * server.dtypeBytes * server.blocks.length := by
            gcongr
            exact Nat.mul_div_le_mul_div_assoc _ _ _
        _ = 2 * server.config.hiddenSize * attnCacheTokens / server.config.numKeyValueGroups
              * server.dtypeBytes * server.blocks.length := by
            rw [Nat.mul_comm attnCacheTokens]

/-- Heads that divide the hidden size among them are narrow enough. -/
theorem narrow_of_derived {server : HostedBlocks}
    (hstrategy : server.config.kvCacheStrategy = .standardGQA) (hdim : server.config.headDim = none)
    (hblocks : ∀ block ∈ server.blocks, block.cacheHeadDim = none ∧ block.cacheKvGroups = none) :
    server.Narrow := by
  let config := server.config
  let headValues := config.numAttentionHeads / config.numKeyValueGroups
    * (config.hiddenSize / config.numAttentionHeads)
  have hwidth : headValues * config.numKeyValueGroups ≤ config.hiddenSize := by
    calc headValues * config.numKeyValueGroups
        = config.numAttentionHeads / config.numKeyValueGroups * config.numKeyValueGroups
            * (config.hiddenSize / config.numAttentionHeads) := by ring
      _ ≤ config.numAttentionHeads * (config.hiddenSize / config.numAttentionHeads) :=
          Nat.mul_le_mul_right _ (Nat.div_mul_le_self _ _)
      _ ≤ config.hiddenSize := Nat.mul_div_le _ _
  have hall : server.allTokenValues = server.blocks.length * (2 * headValues) := by
    have hblock : ∀ block ∈ server.blocks, server.tokenValues block = 2 * headValues := by
      intro block hmem
      obtain ⟨hhead, hgroups⟩ := hblocks block hmem
      rw [tokenValues, hstrategy]
      simp only [hhead, hgroups, Option.getD_none, BlockConfig.derivedHeadDim, hdim, headValues,
        config]
      ring
    rw [allTokenValues, List.map_congr_left hblock, List.map_const', List.sum_replicate_nat]
  constructor
  · intro _
    have htoken : headValues * server.dtypeBytes ≤ server.bytesPerToken := by
      rw [bytesPerToken, Nat.le_div_iff_mul_le config.numKeyValueGroups_pos]
      calc headValues * server.dtypeBytes * config.numKeyValueGroups
          = headValues * config.numKeyValueGroups * server.dtypeBytes := by ring
        _ ≤ config.hiddenSize * server.dtypeBytes := Nat.mul_le_mul_right _ hwidth
    calc server.allTokenValues * server.dtypeBytes
        = 2 * server.blocks.length * (headValues * server.dtypeBytes) := by
          rw [hall]
          ring
      _ ≤ 2 * server.blocks.length * server.bytesPerToken := Nat.mul_le_mul_left _ htoken
  · have hvalues : 2 * headValues ≤ 2 * config.hiddenSize / config.numKeyValueGroups := by
      rw [Nat.le_div_iff_mul_le config.numKeyValueGroups_pos, Nat.mul_assoc]
      exact Nat.mul_le_mul_left 2 hwidth
    calc server.allTokenValues * server.dtypeBytes
        = 2 * headValues * server.dtypeBytes * server.blocks.length := by
          rw [hall]
          ring
      _ ≤ 2 * config.hiddenSize / config.numKeyValueGroups * server.dtypeBytes
            * server.blocks.length :=
          Nat.mul_le_mul_right _ (Nat.mul_le_mul_right _ hvalues)

/-- A block of 1024 features with 16 heads of 128, two for each key, in half precision. -/
def wideHeads : HostedBlocks where
  config := ⟨1024, 16, some 128, 2, .standardGQA, by decide, Nat.two_pos⟩
  dtypeBytes := 2
  blocks := [⟨none, none, by simp⟩]

/-- **Wide heads**: with 2048 bytes left two tokens are announced, and a session of one token takes
    4096 bytes. -/
theorem wideHeads_disagree : ¬ wideHeads.Agree := by
  rw [agree_iff]
  intro h
  exact absurd (h.announced (by decide)) (by decide)

end HostedBlocks

end Drift
