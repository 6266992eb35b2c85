/-
  The contiguous cache of a causal block.

  `CacheHolds` says that a pair of cache tensors holds the keys and values of the first `n` tokens
  of every row; what stands behind them is not looked at.  Reading a prefix, reordering the rows and
  writing back the tokens behind the prefix each keep it, for the rows as the operation leaves them.
-/
import Drift.Server.CausalBlock

namespace Drift

variable {α : Type} [Zero α]

/-- Cache tensors that hold the keys and values of the first `n` tokens of the rows. -/
structure CacheHolds (rows : History α) (batch maxLength n : Nat) (shard : ShardSpec α)
    (kv : KVPair α) : Prop where
  key_shape : kv.1.shape = [batch, shard.kvHeads, shard.keyDim, maxLength]
  value_shape : kv.2.shape = [batch, shard.kvHeads, maxLength, shard.valueDim]
  key_get : ∀ i g d t, i < batch → g < shard.kvHeads → d < shard.keyDim → t < n →
    kv.1.get [i, g, d, t] = shard.keyAt ((rows i).take (t + 1)) g d
  value_get : ∀ i g d t, i < batch → g < shard.kvHeads → d < shard.valueDim → t < n →
    kv.2.get [i, g, t, d] = shard.valueAt ((rows i).take (t + 1)) g d

/-- Row `i` becomes row `ids[i]`; dummy ids ask for nothing. -/
def History.permute (ids : List Int) (rows : History α) : History α :=
  if ids = [] then rows else fun i => rows ((ids.map Int.toNat).getD i 0)

/-- The ids of a step: none, or one for every row. -/
def ValidIds (batch : Nat) (ids : List Int) : Prop :=
  ids = [] ∨ (ids.length = batch ∧ ∀ id ∈ ids, 0 ≤ id ∧ id < batch)

instance (batch : Nat) (ids : List Int) : Decidable (ValidIds batch ids) :=
  inferInstanceAs (Decidable (_ ∨ _))

/-! ## One shard -/

section OneShard

variable {rows rows' : History α} {batch maxLength p n : Nat} {shard : ShardSpec α}
  {kv new : KVPair α}

/-- Only the tokens up to `n` count. -/
theorem CacheHolds.congr (h : CacheHolds rows batch maxLength n shard kv) (hp : p ≤ n)
    (hrows : ∀ i, i < batch → ∀ t, t < p → (rows' i).take (t + 1) = (rows i).take (t + 1)) :
    CacheHolds rows' batch maxLength p shard kv where
  key_shape := h.key_shape
  value_shape := h.value_shape
  key_get i g d t hi hg hd ht := by
    rw [h.key_get i g d t hi hg hd (by omega), hrows i hi t ht]
  value_get i g d t hi hg hd ht := by
    rw [h.value_get i g d t hi hg hd (by omega), hrows i hi t ht]

/-- `select_layer_past`. -/
theorem CacheHolds.select (h : CacheHolds rows batch maxLength n shard kv) (hn : n ≤ maxLength) :
    HoldsPast rows batch n shard (StandardGQACache.selectShard n kv) := by
  obtain ⟨hkey, hkeyGet⟩ := StandardGQACache.selectShard_key h.key_shape hn
  obtain ⟨hvalue, hvalueGet⟩ := StandardGQACache.selectShard_value h.value_shape hn
  refine ⟨hkey, hvalue, fun r d t hr hd ht => ?_, fun r d t hr hd ht => ?_⟩
  · rw [hkeyGet r d t hr hd ht]
    exact h.key_get _ _ d t (row_lt hr) (head_lt hr) hd ht
  · rw [hvalueGet r d t hr hd ht]
    exact h.value_get _ _ d t (row_lt hr) (head_lt hr) hd ht

/-- The in-place reorder. -/
theorem CacheHolds.reorder {ids : List Int} (h : CacheHolds rows batch maxLength n shard kv)
    (hn : n ≤ maxLength) (hlen : ids.length = batch) (hids : ∀ id ∈ ids, 0 ≤ id ∧ id < batch) :
    ∃ kv', StandardGQACache.reorderShard ids kv = some kv' ∧
      CacheHolds (fun i => rows ((ids.map Int.toNat).getD i 0)) batch maxLength n shard kv' := by
  obtain ⟨key, hkey, hkeyShape, hkeyGet⟩ :=
    StandardGQACache.reorderTensor_spec h.key_shape hlen hids
  obtain ⟨value, hvalue, hvalueShape, hvalueGet⟩ :=
    StandardGQACache.reorderTensor_spec h.value_shape hlen hids
  have hsource : ∀ {i}, i < batch → (ids.map Int.toNat).getD i 0 < batch := by
    intro i hi
    have hi' : i < ids.length := by omega
    rw [List.getD_eq_getElem?_getD, List.getElem?_map, List.getElem?_eq_getElem hi']
    have hid := hids _ (List.getElem_mem hi')
    show (ids[i]).toNat < batch
    omega
  refine ⟨(key, value), ?_, hkeyShape.trans h.key_shape, hvalueShape.trans h.value_shape,
    fun i g d t hi hg hd ht => ?_, fun i g d t hi hg hd ht => ?_⟩
  · rw [StandardGQACache.reorderShard, hkey, hvalue]
    rfl
  · rw [hkeyGet i _ (by rw [h.key_shape]; exact ⟨hi, hg, hd, by omega, trivial⟩)]
    exact h.key_get _ g d t (hsource hi) hg hd ht
  · rw [hvalueGet i _ (by rw [h.value_shape]; exact ⟨hi, hg, by omega, hd, trivial⟩)]
    exact h.value_get _ g d t (hsource hi) hg hd ht

/-- Splitting the row-and-head axis of new keys or values. -/
theorem get_split_heads {t : Tensor α} {a b x y : Nat} (hshape : t.shape = [a * b, x, y])
    (hsize : [a, b, x, y].prod = t.shape.prod) {i g : Nat} (hg : g < b) (k l : Nat) :
    (t.withShape [a, b, x, y] hsize).get [i, g, k, l] = t.get [i * b + g, k, l] := by
  refine Tensor.get_withShape hsize ?_
  rw [hshape, ravel_split, mul_add_div_eq hg, mul_add_mod_eq hg]

/-- `update_cache`: the tokens from the prefix on are the new ones. -/
theorem CacheHolds.update (h : CacheHolds rows batch maxLength p shard kv)
    (hnew : HoldsPast rows batch n shard new) (hp : p ≤ n) (hn : n ≤ maxLength) :
    ∃ kv', StandardGQACache.updateShard n p kv new = some kv' ∧
      CacheHolds rows batch maxLength n shard kv' := by
  have hkeySize : [batch, shard.kvHeads, shard.keyDim, n].prod = new.1.shape.prod := by
    rw [hnew.key_shape]
    simp [Nat.mul_assoc]
  have hvalueSize : [batch, shard.kvHeads, n, shard.valueDim].prod = new.2.shape.prod := by
    rw [hnew.value_shape]
    simp [Nat.mul_assoc]
  obtain ⟨key, hkey, hkeyShape, hkeyGet⟩ :=
    StandardGQACache.updateKey_spec h.key_shape hkeySize hp hn
  obtain ⟨value, hvalue, hvalueShape, hvalueGet⟩ :=
    StandardGQACache.updateValue_spec h.value_shape hvalueSize hp hn
  refine ⟨(key, value), ?_, hkeyShape.trans h.key_shape, hvalueShape.trans h.value_shape,
    fun i g d t hi hg hd ht => ?_, fun i g d t hi hg hd ht => ?_⟩
  · rw [StandardGQACache.updateShard, hkey, hvalue]
    rfl
  · rw [hkeyGet i g d t (by rw [h.key_shape]; exact ⟨hi, hg, hd, by omega, trivial⟩)]
    split
    · rw [get_split_heads hnew.key_shape hkeySize hg,
        hnew.key_get _ d t (mul_add_lt hi hg) hd ht, mul_add_div_eq hg, mul_add_mod_eq hg]
    · exact h.key_get i g d t hi hg hd (by omega)
  · rw [hvalueGet i g t d (by rw [h.value_shape]; exact ⟨hi, hg, by omega, hd, trivial⟩)]
    split
    · rw [get_split_heads hnew.value_shape hvalueSize hg,
        hnew.value_get _ d t (mul_add_lt hi hg) hd ht, mul_add_div_eq hg, mul_add_mod_eq hg]
    · exact h.value_get i g d t hi hg hd (by omega)

end OneShard

/-! ## All shards of a block -/

section AllShards

variable {rows rows' : History α} {batch maxLength p n : Nat} {shards : List (ShardSpec α)}
  {cache new : List (KVPair α)}

theorem select_holds (h : List.Forall₂ (CacheHolds rows batch maxLength n) shards cache)
    (hn : n ≤ maxLength) :
    List.Forall₂ (HoldsPast rows batch n) shards (StandardGQACache.selectLayerPast cache n) := by
  rw [StandardGQACache.selectLayerPast, List.forall₂_map_right_iff]
  exact h.imp fun _ _ hkv => hkv.select hn

theorem reorderCacheInplace_holds {ids : List Int}
    (h : List.Forall₂ (CacheHolds rows batch maxLength n) shards cache) (hn : n ≤ maxLength)
    (hids : ValidIds batch ids) :
    ∃ cache', TransformerBackend.reorderCacheInplace cache ids = .ok cache' ∧
      List.Forall₂ (CacheHolds (rows.permute ids) batch maxLength n) shards cache' := by
  rw [TransformerBackend.reorderCacheInplace, History.permute]
  by_cases hdummy : ids = []
  · rw [if_pos hdummy, if_pos hdummy]
    exact ⟨cache, rfl, h⟩
  · rw [if_neg hdummy, if_neg hdummy]
    obtain ⟨hlen, hids⟩ := hids.resolve_left hdummy
    suffices hsome : ∃ cache', StandardGQACache.reorderCache ids cache = some cache' ∧
        List.Forall₂ (CacheHolds (fun i => rows ((ids.map Int.toNat).getD i 0)) batch maxLength n)
          shards cache' by
      obtain ⟨cache', hreorder, hholds⟩ := hsome
      exact ⟨cache', by rw [hreorder]; rfl, hholds⟩
    induction h with
    | nil => exact ⟨[], rfl, .nil⟩
    | cons hkv _ ih =>
      obtain ⟨kv', hkv', hholds⟩ := hkv.reorder hn hlen hids
      obtain ⟨rest, hrest, hholdsRest⟩ := ih
      refine ⟨kv' :: rest, ?_, .cons hholds hholdsRest⟩
      rw [StandardGQACache.reorderCache, List.mapM_cons, hkv']
      show (StandardGQACache.reorderCache ids _).bind _ = _
      rw [hrest]
      rfl

theorem updateShards_holds (h : List.Forall₂ (CacheHolds rows batch maxLength p) shards cache)
    (hnew : List.Forall₂ (HoldsPast rows batch n) shards new) (hp : p ≤ n) (hn : n ≤ maxLength) :
    ∃ cache', StandardGQACache.updateShards n p cache new = some cache' ∧
      List.Forall₂ (CacheHolds rows batch maxLength n) shards cache' := by
  induction h generalizing new with
  | nil =>
    cases hnew
    exact ⟨[], rfl, .nil⟩
  | cons hkv _ ih =>
    cases hnew with
    | cons hkvNew hrestNew =>
      obtain ⟨kv', hkv', hholds⟩ := hkv.update hkvNew hp hn
      obtain ⟨rest, hrest, hholdsRest⟩ := ih hrestNew
      refine ⟨kv' :: rest, ?_, .cons hholds hholdsRest⟩
      rw [StandardGQACache.updateShards, hkv', hrest]
      rfl

theorem writeBack_holds (hne : shards ≠ [])
    (h : List.Forall₂ (CacheHolds rows batch maxLength p) shards cache)
    (hnew : List.Forall₂ (HoldsPast rows batch n) shards new) (hp : p ≤ n) (hn : n ≤ maxLength) :
    ∃ cache', TransformerBackend.writeBack cache (some new) p = .ok cache' ∧
      List.Forall₂ (CacheHolds rows batch maxLength n) shards cache' := by
  obtain ⟨cache', hupdate, hholds⟩ := updateShards_holds h hnew hp hn
  refine ⟨cache', ?_, hholds⟩
  cases hnew with
  | nil => exact absurd rfl hne
  | cons hkv hrest =>
    have hlast := congrArg List.getLast? hkv.key_shape
    simp only [TransformerBackend.writeBack, StandardGQACache.updateCache]
    rw [hlast]
    show orRaise _ (StandardGQACache.updateShards n p cache _) = _
    rw [hupdate]
    rfl

end AllShards

end Drift
