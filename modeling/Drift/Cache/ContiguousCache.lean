/-
  The contiguous attention cache: `StandardGQACache` of `utils/kv_cache.py` and the in-place
  reorder of `server/backend.py`.

  A cache holds one pair of tensors per tensor-parallel shard, keys `[batch, kv_heads, head_dim,
  max_length]` and values `[batch, kv_heads, max_length, head_dim]` (`cache_tensors[0::2]` and
  `cache_tensors[1::2]` in the source).  Reading cuts every tensor to the prefix, writing puts the
  new tokens behind it; what stands past the new length is never cleared.

  `view` is `reshape` here: which of the two applies is a matter of strides, not of values.
-/
import Drift.Lib.Tensor
import Drift.Python

namespace Drift

/-- The key and the value tensor of one tensor-parallel shard. -/
abbrev KVPair (α : Type) := Tensor α × Tensor α

/-! ## Rows and heads in one axis -/

/-- The row of the batch that a row of the BLOOM layout is of, -/
theorem row_lt {r batch kvHeads : Nat} (hr : r < batch * kvHeads) : r / kvHeads < batch :=
  Nat.div_lt_of_lt_mul (by rwa [Nat.mul_comm])

/-- and its head. -/
theorem head_lt {r batch kvHeads : Nat} (hr : r < batch * kvHeads) : r % kvHeads < kvHeads := by
  refine Nat.mod_lt _ (Nat.pos_of_ne_zero fun h0 => ?_)
  rw [h0, Nat.mul_zero] at hr
  exact absurd hr (Nat.not_lt_zero r)

/-- The row of a head of a row. -/
theorem mul_add_lt {i g batch kvHeads : Nat} (hi : i < batch) (hg : g < kvHeads) :
    i * kvHeads + g < batch * kvHeads :=
  calc i * kvHeads + g < i * kvHeads + kvHeads := Nat.add_lt_add_left hg _
    _ = (i + 1) * kvHeads := (Nat.succ_mul i kvHeads).symm
    _ ≤ batch * kvHeads := Nat.mul_le_mul_right _ hi

theorem mul_add_div_eq {i g kvHeads : Nat} (hg : g < kvHeads) : (i * kvHeads + g) / kvHeads = i := by
  rw [Nat.add_comm, Nat.add_mul_div_right _ _ (by omega), Nat.div_eq_of_lt hg, Nat.zero_add]

theorem mul_add_mod_eq {i g kvHeads : Nat} (hg : g < kvHeads) :
    (i * kvHeads + g) % kvHeads = g := by
  rw [Nat.add_comm, Nat.add_mul_mod_self_right, Nat.mod_eq_of_lt hg]

namespace Tensor

variable {α : Type}

/-- `t.flatten(0, 1)`. -/
def flattenFirst (t : Tensor α) : Tensor α :=
  match h : t.shape with
  | a :: b :: shape => t.withShape (a * b :: shape) (by simp [h, Nat.mul_assoc])
  | _ => t

/-- The first two axes become one. -/
theorem shape_flattenFirst {t : Tensor α} {a b : Nat} {shape : List Nat}
    (h : t.shape = a :: b :: shape) : t.flattenFirst.shape = a * b :: shape := by
  rw [flattenFirst]
  split
  · rename_i a' b' shape' h'
    rw [h] at h'
    simp only [List.cons.injEq] at h'
    obtain ⟨rfl, rfl, rfl⟩ := h'
    rfl
  · rename_i hne
    exact absurd h (hne a b shape)

variable [Zero α]

/-- Where an entry comes from, by division with remainder. -/
theorem get_flattenFirst {t : Tensor α} {a b : Nat} {shape : List Nat}
    (h : t.shape = a :: b :: shape) (r : Nat) (ix : List Nat) :
    t.flattenFirst.get (r :: ix) = t.get (r / b :: r % b :: ix) := by
  rw [flattenFirst]
  split
  · rename_i a' b' shape' h'
    rw [h] at h'
    simp only [List.cons.injEq] at h'
    obtain ⟨rfl, rfl, rfl⟩ := h'
    refine get_withShape _ ?_
    rw [ravel_split, h]
  · rename_i hne
    exact absurd h (hne a b shape)

/-- `t[ids]` along the first axis; `none` is an `IndexError`. -/
def takeRows (ids : List Int) (t : Tensor α) : Option (Tensor α) :=
  (ids.mapM (pyIndex (List.range (t.shape.headD 0)))).map fun rows => t.indexRows rows

/-- `t[...] = src`; `none` when `src` does not broadcast to the shape of `t`. -/
def assignAll (src t : Tensor α) : Option (Tensor α) :=
  if broadcasts src.shape t.shape then
    some (t.patch fun ix => some (src.get (broadcastIndex src.shape ix)))
  else none

/-- Ids in range select their rows. -/
theorem mapM_pyIndex_range {n : Nat} : ∀ {ids : List Int}, (∀ id ∈ ids, 0 ≤ id ∧ id < n) →
    ids.mapM (pyIndex (List.range n)) = some (ids.map Int.toNat)
  | [], _ => rfl
  | id :: ids, h => by
    obtain ⟨k, rfl⟩ := Int.eq_ofNat_of_zero_le (h id List.mem_cons_self).1
    have hk : k < n := by exact_mod_cast (h k List.mem_cons_self).2
    rw [List.mapM_cons, pyIndex_natCast, List.getElem?_range hk,
      mapM_pyIndex_range fun id hid => h id (List.mem_cons_of_mem _ hid)]
    rfl

/-- An assignment of the same shape copies every entry. -/
theorem get_assignAll {src t : Tensor α} (h : src.shape = t.shape) :
    ∃ t', assignAll src t = some t' ∧ t'.shape = t.shape ∧
      ∀ ix, InBounds t.shape ix → t'.get ix = src.get ix := by
  have hfits : broadcasts src.shape t.shape = true := h ▸ broadcasts_self _
  rw [assignAll, if_pos hfits]
  refine ⟨_, rfl, rfl, fun ix hix => ?_⟩
  rw [get_patch _ hix, Option.getD_some, h, broadcastIndex_self hix]

end Tensor

namespace StandardGQACache

variable {α : Type} [Zero α]

/-! ## The operations -/

/-- One shard of `select_layer_past`. -/
def selectShard (prefixLength : Int) (kv : KVPair α) : KVPair α :=
  (kv.1.flattenFirst.slice 2 0 prefixLength, kv.2.flattenFirst.slice 1 0 prefixLength)

/-- `select_layer_past`. -/
def selectLayerPast (cacheTensors : List (KVPair α)) (prefixLength : Int) : List (KVPair α) :=
  cacheTensors.map (selectShard prefixLength)

/-- The key half of `update_cache`. -/
def updateKey (newLength : Nat) (prefixLength : Int) (cacheKey newKey : Tensor α) :
    Option (Tensor α) :=
  (newKey.reshape ((cacheKey.shape.take 3 ++ [newLength]).map Nat.cast)).bind fun newKey =>
    Tensor.assignSlice 3 prefixLength newLength (newKey.slice 3 prefixLength newLength) cacheKey

/-- The value half of `update_cache`: the head dim comes from the value cache itself. -/
def updateValue (newLength : Nat) (prefixLength : Int) (cacheValue newValue : Tensor α) :
    Option (Tensor α) :=
  (newValue.reshape ((cacheValue.shape.take 2 ++ [newLength, cacheValue.shape.getD 3 0]).map
    Nat.cast)).bind fun newValue =>
    Tensor.assignSlice 2 prefixLength newLength (newValue.slice 2 prefixLength newLength) cacheValue

/-- `update_cache` on one shard. -/
def updateShard (newLength : Nat) (prefixLength : Int) (cache new : KVPair α) :
    Option (KVPair α) := do
  let key ← updateKey newLength prefixLength cache.1 new.1
  let value ← updateValue newLength prefixLength cache.2 new.2
  some (key, value)

/-- The shards of `update_cache`, paired by `zip`. -/
def updateShards (newLength : Nat) (prefixLength : Int) :
    List (KVPair α) → List (KVPair α) → Option (List (KVPair α))
  | cache :: cacheTensors, new :: newKvs => do
    let cache ← updateShard newLength prefixLength cache new
    let cacheTensors ← updateShards newLength prefixLength cacheTensors newKvs
    some (cache :: cacheTensors)
  | cacheTensors, _ => some cacheTensors

/-- `update_cache`; `none` when it raises. -/
def updateCache (cacheTensors newKvs : List (KVPair α)) (prefixLength : Int) :
    Option (List (KVPair α)) :=
  match newKvs with
  | [] => none
  | (key, _) :: _ => key.shape.getLast?.bind fun newLength =>
    updateShards newLength prefixLength cacheTensors newKvs

/-- `cache_tensor[...] = cache_tensor[hypo_ids]`. -/
def reorderTensor (hypoIds : List Int) (cacheTensor : Tensor α) : Option (Tensor α) :=
  (cacheTensor.takeRows hypoIds).bind fun rows => Tensor.assignAll rows cacheTensor

/-- The in-place reorder of one shard. -/
def reorderShard (hypoIds : List Int) (cache : KVPair α) : Option (KVPair α) := do
  let key ← reorderTensor hypoIds cache.1
  let value ← reorderTensor hypoIds cache.2
  some (key, value)

/-- The in-place reorder of all cache tensors. -/
def reorderCache (hypoIds : List Int) (cacheTensors : List (KVPair α)) :
    Option (List (KVPair α)) :=
  cacheTensors.mapM (reorderShard hypoIds)

/-! ## What they read and write -/

/-- The keys that are read are those before the position, with the channels first. -/
theorem selectShard_key {kv : KVPair α} {batch kvHeads headDim maxLength p : Nat}
    (h : kv.1.shape = [batch, kvHeads, headDim, maxLength]) (hp : p ≤ maxLength) :
    (selectShard p kv).1.shape = [batch * kvHeads, headDim, p] ∧
    ∀ r d t, r < batch * kvHeads → d < headDim → t < p →
      (selectShard p kv).1.get [r, d, t] = kv.1.get [r / kvHeads, r % kvHeads, d, t] := by
  have hflat := Tensor.shape_flattenFirst h
  have haxis : p ≤ kv.1.flattenFirst.shape.getD 2 0 := by
    rw [hflat]
    exact hp
  have hshape : (kv.1.flattenFirst.slice 2 0 p).shape = [batch * kvHeads, headDim, p] := by
    rw [show (0 : Int) = ((0 : Nat) : Int) from rfl,
      Tensor.shape_slice_of_le (Nat.zero_le p) haxis, hflat]
    rfl
  refine ⟨hshape, fun r d t hr hd ht => ?_⟩
  have hslice := Tensor.get_slice [r, d, t] (Nat.zero_le p) haxis
    (by rw [hflat]; exact ⟨hr, hd, ht, trivial⟩)
  exact hslice.trans (Tensor.get_flattenFirst h r [d, t])

/-- The values that are read are those before the position. -/
theorem selectShard_value {kv : KVPair α} {batch kvHeads headDim maxLength p : Nat}
    (h : kv.2.shape = [batch, kvHeads, maxLength, headDim]) (hp : p ≤ maxLength) :
    (selectShard p kv).2.shape = [batch * kvHeads, p, headDim] ∧
    ∀ r d t, r < batch * kvHeads → d < headDim → t < p →
      (selectShard p kv).2.get [r, t, d] = kv.2.get [r / kvHeads, r % kvHeads, t, d] := by
  have hflat := Tensor.shape_flattenFirst h
  have haxis : p ≤ kv.2.flattenFirst.shape.getD 1 0 := by
    rw [hflat]
    exact hp
  have hshape : (kv.2.flattenFirst.slice 1 0 p).shape = [batch * kvHeads, p, headDim] := by
    rw [show (0 : Int) = ((0 : Nat) : Int) from rfl,
      Tensor.shape_slice_of_le (Nat.zero_le p) haxis, hflat]
    rfl
  refine ⟨hshape, fun r d t hr hd ht => ?_⟩
  have hslice := Tensor.get_slice [r, t, d] (Nat.zero_le p) haxis
    (by rw [hflat]; exact ⟨hr, ht, hd, trivial⟩)
  exact hslice.trans (Tensor.get_flattenFirst h r [t, d])

/-- A reorder with batch-many ids in range: row `i` becomes row `ids[i]`. -/
theorem reorderTensor_spec {t : Tensor α} {batch : Nat} {shape : List Nat} {hypoIds : List Int}
    (h : t.shape = batch :: shape) (hlen : hypoIds.length = batch)
    (hids : ∀ id ∈ hypoIds, 0 ≤ id ∧ id < batch) :
    ∃ t', reorderTensor hypoIds t = some t' ∧ t'.shape = t.shape ∧
      ∀ i ix, InBounds t.shape (i :: ix) →
        t'.get (i :: ix) = t.get ((hypoIds.map Int.toNat).getD i 0 :: ix) := by
  have hrows : t.takeRows hypoIds = some (t.indexRows (hypoIds.map Int.toNat)) := by
    rw [Tensor.takeRows, h, List.headD_cons, Tensor.mapM_pyIndex_range hids]
    rfl
  have hshape : (t.indexRows (hypoIds.map Int.toNat)).shape = t.shape := by
    simp [Tensor.indexRows, h, hlen]
  obtain ⟨t', hassign, hshape', hget⟩ := Tensor.get_assignAll hshape
  refine ⟨t', ?_, hshape', fun i ix hix => ?_⟩
  · rw [reorderTensor, hrows]
    exact hassign
  · rw [hget _ hix]
    exact Tensor.get_ofFn _ (hshape ▸ hix)

/-- On a server without tensor parallelism there is one shard to reorder, -/
theorem reorderCache_single {hypoIds : List Int} {cache : KVPair α} :
    reorderCache hypoIds [cache] = (reorderShard hypoIds cache).map fun cache => [cache] := by
  rw [reorderCache, List.mapM_cons]
  cases reorderShard hypoIds cache <;> rfl

/-- and one to update. -/
theorem updateCache_single {cache new : KVPair α} {prefixLength : Int} :
    updateCache [cache] [new] prefixLength = new.1.shape.getLast?.bind fun newLength =>
      (updateShard newLength prefixLength cache new).map fun cache => [cache] := by
  rw [updateCache]
  cases new.1.shape.getLast? with
  | none => rfl
  | some n =>
    simp only [Option.bind_some, updateShards]
    cases updateShard n prefixLength cache new <;> rfl

/-- An update without new tokens changes nothing. -/
theorem updateShard_empty {cache cache' new : KVPair α} {n p : Nat} (hle : n ≤ p)
    (h : updateShard n p cache new = some cache') :
    (cache'.1.shape = cache.1.shape ∧
      ∀ ix, InBounds cache.1.shape ix → cache'.1.get ix = cache.1.get ix) ∧
    (cache'.2.shape = cache.2.shape ∧
      ∀ ix, InBounds cache.2.shape ix → cache'.2.get ix = cache.2.get ix) := by
  obtain ⟨key, hkey, h⟩ := Option.bind_eq_some_iff.mp h
  obtain ⟨value, hvalue, h⟩ := Option.bind_eq_some_iff.mp h
  obtain rfl := Option.some.inj h
  obtain ⟨_, _, hkey⟩ := Option.bind_eq_some_iff.mp hkey
  obtain ⟨_, _, hvalue⟩ := Option.bind_eq_some_iff.mp hvalue
  exact ⟨Tensor.assignSlice_empty hle hkey, Tensor.assignSlice_empty hle hvalue⟩

/-- An update of the keys: the tokens from the prefix on are the new ones. -/
theorem updateKey_spec {cacheKey newKey : Tensor α} {batch kvHeads headDim maxLength n p : Nat}
    (h : cacheKey.shape = [batch, kvHeads, headDim, maxLength])
    (hsize : [batch, kvHeads, headDim, n].prod = newKey.shape.prod) (hp : p ≤ n)
    (hn : n ≤ maxLength) :
    ∃ key, updateKey n p cacheKey newKey = some key ∧ key.shape = cacheKey.shape ∧
      ∀ i g d t, InBounds cacheKey.shape [i, g, d, t] → key.get [i, g, d, t] =
        if p ≤ t ∧ t < n then (newKey.withShape [batch, kvHeads, headDim, n] hsize).get [i, g, d, t]
        else cacheKey.get [i, g, d, t] := by
  have hview : newKey.reshape ((cacheKey.shape.take 3 ++ [n]).map Nat.cast)
      = some (newKey.withShape [batch, kvHeads, headDim, n] hsize) := by
    rw [h]
    exact Tensor.reshape_natCast hsize
  obtain ⟨key, hassign, hshape, hget⟩ := Tensor.assignStretch_spec
    (newKey.withShape [batch, kvHeads, headDim, n] hsize) cacheKey 3 hp
    (by rw [h]; exact hn) (by rw [h]; exact Nat.lt_add_one 3) (by rw [h]; rfl)
  refine ⟨key, ?_, hshape, fun i g d t hix => hget _ hix⟩
  rw [updateKey, hview]
  exact hassign

/-- An update of the values. -/
theorem updateValue_spec {cacheValue newValue : Tensor α}
    {batch kvHeads headDim maxLength n p : Nat}
    (h : cacheValue.shape = [batch, kvHeads, maxLength, headDim])
    (hsize : [batch, kvHeads, n, headDim].prod = newValue.shape.prod) (hp : p ≤ n)
    (hn : n ≤ maxLength) :
    ∃ value, updateValue n p cacheValue newValue = some value ∧ value.shape = cacheValue.shape ∧
      ∀ i g t d, InBounds cacheValue.shape [i, g, t, d] → value.get [i, g, t, d] =
        if p ≤ t ∧ t < n
        then (newValue.withShape [batch, kvHeads, n, headDim] hsize).get [i, g, t, d]
        else cacheValue.get [i, g, t, d] := by
  have hview : newValue.reshape ((cacheValue.shape.take 2 ++
      [n, cacheValue.shape.getD 3 0]).map Nat.cast)
      = some (newValue.withShape [batch, kvHeads, n, headDim] hsize) := by
    rw [h]
    exact Tensor.reshape_natCast hsize
  obtain ⟨value, hassign, hshape, hget⟩ := Tensor.assignStretch_spec
    (newValue.withShape [batch, kvHeads, n, headDim] hsize) cacheValue 2 hp
    (by rw [h]; exact hn) (by rw [h]; exact Nat.lt_of_sub_eq_succ rfl) (by rw [h]; rfl)
  refine ⟨value, ?_, hshape, fun i g t d hix => hget _ hix⟩
  rw [updateValue, hview]
  exact hassign

end StandardGQACache

end Drift
