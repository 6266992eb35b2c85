/-
  The two layouts of a block's keys and values, `BloomLayoutCacheMixin` of `models/_gqa_block.py`,
  and the layout of the attention cache.

  A number of the cache belongs to a batch row, a key/value head, a token position and a channel of
  the head (`Coord`).  The stock attention wants it at `[row, head, position, channel]`; the blocks
  are handed and return the BLOOM layout, where rows and heads are one axis, `row * kv_heads +
  head`, and the channels of a key stand before its positions; the attention cache keeps rows and
  heads apart, and the keys the way BLOOM does.

  Every operation is said to carry a content from one layout to another: the two conversions, and
  `select_layer_past` and `update_cache` between the cache and the BLOOM layout.  That the
  conversions undo each other follows, because a content has one tensor in a layout.
-/
import Drift.Lib.Layout
import Drift.Cache.ContiguousCache

namespace Drift

variable {α : Type} [Zero α]

/-! ## The conversions -/

/-- `_reorder_cache_from_bloom`. -/
def reorderCacheFromBloom (kv : KVPair α) (batchSize : Nat) : Option (KVPair α) := do
  let seqLength := kv.2.shape.getD 1 0
  let vHeadDim := kv.2.shape.getD 2 0
  let kvHeads := kv.2.shape.getD 0 0 / batchSize
  let kHeadDim := kv.1.shape.getD 1 0
  let key ← (kv.1.permute [0, 2, 1]).reshape [(batchSize : Int), kvHeads, seqLength, kHeadDim]
  let value ← kv.2.reshape [(batchSize : Int), kvHeads, seqLength, vHeadDim]
  some (key, value)

/-- `_reorder_cache_to_bloom`. -/
def reorderCacheToBloom (kv : KVPair α) (batchSize : Nat) : Option (KVPair α) := do
  let kvHeads := kv.1.shape.getD 1 0
  let seqLength := kv.1.shape.getD 2 0
  let value ← kv.2.reshape
    [((batchSize * kvHeads : Nat) : Int), seqLength, (kv.2.shape.getD 3 0 : Nat)]
  let key ← kv.1.reshape
    [((batchSize * kvHeads : Nat) : Int), seqLength, (kv.1.shape.getD 3 0 : Nat)]
  some (key.permute [0, 2, 1], value)

/-! ## The layouts -/

/-- A number of the cache: its batch row, key/value head, token position and channel. -/
structure Coord where
  row : Nat
  head : Nat
  position : Nat
  channel : Nat

/-- The coordinates of this many rows, heads, positions and channels. -/
def Coord.Within (batch kvHeads seq dim : Nat) (c : Coord) : Prop :=
  c.row < batch ∧ c.head < kvHeads ∧ c.position < seq ∧ c.channel < dim

instance (batch kvHeads seq dim : Nat) (c : Coord) :
    Decidable (c.Within batch kvHeads seq dim) :=
  inferInstanceAs (Decidable (_ ∧ _))

/-- The same coordinate among fewer or more positions. -/
theorem Coord.Within.of_position {batch kvHeads seq p dim : Nat} {c : Coord}
    (h : c.Within batch kvHeads seq dim) (hp : c.position < p) : c.Within batch kvHeads p dim :=
  ⟨h.1, h.2.1, hp, h.2.2.2⟩

section Layouts

variable (batch kvHeads seq dim : Nat)

/-- `[batch, kv_heads, seq, head_dim]`: the stock attention, and the values of the cache. -/
def headsFirst : Layout (Coord.Within batch kvHeads seq dim) where
  shape := [batch, kvHeads, seq, dim]
  index c := [c.row, c.head, c.position, c.channel]
  inBounds_iff ix := by
    constructor
    · intro hix
      obtain ⟨i, g, t, d, rfl, hi, hg, ht, hd⟩ := hix.exists_four
      exact ⟨⟨i, g, t, d⟩, ⟨hi, hg, ht, hd⟩, rfl⟩
    · rintro ⟨c, ⟨hrow, hhead, hposition, hchannel⟩, rfl⟩
      exact ⟨hrow, hhead, hposition, hchannel, trivial⟩

/-- `[batch, kv_heads, head_dim, seq]`: the keys of the cache. -/
def channelsFirst : Layout (Coord.Within batch kvHeads seq dim) where
  shape := [batch, kvHeads, dim, seq]
  index c := [c.row, c.head, c.channel, c.position]
  inBounds_iff ix := by
    constructor
    · intro hix
      obtain ⟨i, g, d, t, rfl, hi, hg, hd, ht⟩ := hix.exists_four
      exact ⟨⟨i, g, t, d⟩, ⟨hi, hg, ht, hd⟩, rfl⟩
    · rintro ⟨c, ⟨hrow, hhead, hposition, hchannel⟩, rfl⟩
      exact ⟨hrow, hhead, hchannel, hposition, trivial⟩

/-- `[batch * kv_heads, seq, head_dim]`: the values of the BLOOM layout. -/
def joinedHeads : Layout (Coord.Within batch kvHeads seq dim) where
  shape := [batch * kvHeads, seq, dim]
  index c := [c.row * kvHeads + c.head, c.position, c.channel]
  inBounds_iff ix := by
    constructor
    · intro hix
      obtain ⟨r, t, d, rfl, hr, ht, hd⟩ := hix.exists_three
      refine ⟨⟨r / kvHeads, r % kvHeads, t, d⟩, ⟨row_lt hr, head_lt hr, ht, hd⟩, ?_⟩
      simp only [Nat.div_add_mod']
    · rintro ⟨c, ⟨hrow, hhead, hposition, hchannel⟩, rfl⟩
      exact ⟨mul_add_lt hrow hhead, hposition, hchannel, trivial⟩

/-- `[batch * kv_heads, head_dim, seq]`: the keys of the BLOOM layout. -/
def joinedChannelsFirst : Layout (Coord.Within batch kvHeads seq dim) where
  shape := [batch * kvHeads, dim, seq]
  index c := [c.row * kvHeads + c.head, c.channel, c.position]
  inBounds_iff ix := by
    constructor
    · intro hix
      obtain ⟨r, d, t, rfl, hr, hd, ht⟩ := hix.exists_three
      refine ⟨⟨r / kvHeads, r % kvHeads, t, d⟩, ⟨row_lt hr, head_lt hr, ht, hd⟩, ?_⟩
      simp only [Nat.div_add_mod']
    · rintro ⟨c, ⟨hrow, hhead, hposition, hchannel⟩, rfl⟩
      exact ⟨mul_add_lt hrow hhead, hchannel, hposition, trivial⟩

end Layouts

/-- Splitting the joined axis leaves every offset where it was. -/
theorem ravel_joined {a b i g : Nat} (hg : g < b) (shape ix : List Nat) :
    ravel (a * b :: shape) ((i * b + g) :: ix) = ravel (a :: b :: shape) (i :: g :: ix) := by
  rw [ravel_split, mul_add_div_eq hg, mul_add_mod_eq hg]

/-! ## The pairs -/

/-- The heads of a shard, and how wide their keys and values are. -/
structure HeadDims where
  kvHeads : Nat
  keyDim : Nat
  valueDim : Nat

/-- The numbers of the keys and of the values. -/
structure KVContent (α : Type) where
  key : Coord → α
  value : Coord → α

/-- A layout of the keys and one of the values. -/
structure KVLayout (batch seq : Nat) (dims : HeadDims) where
  key : Layout (Coord.Within batch dims.kvHeads seq dims.keyDim)
  value : Layout (Coord.Within batch dims.kvHeads seq dims.valueDim)

/-- What the stock attention keeps. -/
def stockLayout (batch seq : Nat) (dims : HeadDims) : KVLayout batch seq dims where
  key := headsFirst batch dims.kvHeads seq dims.keyDim
  value := headsFirst batch dims.kvHeads seq dims.valueDim

/-- What a block is handed as `layer_past` and returns. -/
def bloomLayout (batch seq : Nat) (dims : HeadDims) : KVLayout batch seq dims where
  key := joinedChannelsFirst batch dims.kvHeads seq dims.keyDim
  value := joinedHeads batch dims.kvHeads seq dims.valueDim

/-- What the attention cache of a server keeps. -/
def cacheLayout (batch seq : Nat) (dims : HeadDims) : KVLayout batch seq dims where
  key := channelsFirst batch dims.kvHeads seq dims.keyDim
  value := headsFirst batch dims.kvHeads seq dims.valueDim

namespace KVLayout

variable {batch seq : Nat} {dims : HeadDims} {L : KVLayout batch seq dims}

/-- The pair has the shapes of the layout. -/
structure Fits (L : KVLayout batch seq dims) (kv : KVPair α) : Prop where
  key : kv.1.shape = L.key.shape
  value : kv.2.shape = L.value.shape

/-- The pair holds this content. -/
structure Holds (L : KVLayout batch seq dims) (kv : KVPair α) (content : KVContent α) : Prop where
  key : L.key.Holds kv.1 content.key
  value : L.value.Holds kv.2 content.value

/-- What a pair has at every coordinate. -/
def content (L : KVLayout batch seq dims) (kv : KVPair α) : KVContent α :=
  ⟨L.key.content kv.1, L.value.content kv.2⟩

theorem Fits.holds {kv : KVPair α} (h : L.Fits kv) : L.Holds kv (L.content kv) :=
  ⟨Layout.holds_content h.key, Layout.holds_content h.value⟩

theorem Holds.unique {kv kv' : KVPair α} {content : KVContent α} (h : L.Holds kv content)
    (h' : L.Holds kv' content) : kv = kv' :=
  Prod.ext (h.key.unique h'.key) (h.value.unique h'.value)

end KVLayout

section Conversions

variable {batch seq : Nat} {dims : HeadDims} {kv : KVPair α} {content : KVContent α}

theorem reorderCacheToBloom_holds (h : (stockLayout batch seq dims).Holds kv content) :
    ∃ bloom, reorderCacheToBloom kv batch = some bloom ∧
      (bloomLayout batch seq dims).Holds bloom content := by
  have hkeyShape : kv.1.shape = [batch, dims.kvHeads, seq, dims.keyDim] := h.key.shape
  have hvalueShape : kv.2.shape = [batch, dims.kvHeads, seq, dims.valueDim] := h.value.shape
  obtain ⟨value, hvalue, hvalueHolds⟩ := h.value.reshape
    (M := joinedHeads batch dims.kvHeads seq dims.valueDim)
    (by simp [joinedHeads, stockLayout, headsFirst, Nat.mul_assoc])
    (fun c hc => ravel_joined hc.2.1 _ _)
  obtain ⟨key, hkey, hkeyHolds⟩ := h.key.reshape
    (M := joinedHeads batch dims.kvHeads seq dims.keyDim)
    (by simp [joinedHeads, stockLayout, headsFirst, Nat.mul_assoc])
    (fun c hc => ravel_joined hc.2.1 _ _)
  refine ⟨(key.permute [0, 2, 1], value), ?_, ?_, hvalueHolds⟩
  · simp only [reorderCacheToBloom, hkeyShape, hvalueShape]
    exact Option.bind_eq_some_iff.mpr ⟨value, hvalue, Option.bind_eq_some_iff.mpr ⟨key, hkey, rfl⟩⟩
  · exact hkeyHolds.permute [0, 2, 1] rfl fun c _ => rfl

theorem reorderCacheFromBloom_holds (hbatch : 0 < batch)
    (h : (bloomLayout batch seq dims).Holds kv content) :
    ∃ stock, reorderCacheFromBloom kv batch = some stock ∧
      (stockLayout batch seq dims).Holds stock content := by
  have hkeyShape : kv.1.shape = [batch * dims.kvHeads, dims.keyDim, seq] := h.key.shape
  have hvalueShape : kv.2.shape = [batch * dims.kvHeads, seq, dims.valueDim] := h.value.shape
  have hheads : batch * dims.kvHeads / batch = dims.kvHeads := Nat.mul_div_cancel_left _ hbatch
  have hpermute : (joinedHeads batch dims.kvHeads seq dims.keyDim).Holds
      (kv.1.permute [0, 2, 1]) content.key := h.key.permute [0, 2, 1] rfl fun c _ => rfl
  obtain ⟨key, hkey, hkeyHolds⟩ := hpermute.reshape
    (M := headsFirst batch dims.kvHeads seq dims.keyDim)
    (by simp [joinedHeads, headsFirst, Nat.mul_assoc])
    (fun c hc => (ravel_joined hc.2.1 _ _).symm)
  obtain ⟨value, hvalue, hvalueHolds⟩ := h.value.reshape
    (M := headsFirst batch dims.kvHeads seq dims.valueDim)
    (by simp [joinedHeads, bloomLayout, headsFirst, Nat.mul_assoc])
    (fun c hc => (ravel_joined hc.2.1 _ _).symm)
  refine ⟨(key, value), ?_, hkeyHolds, hvalueHolds⟩
  simp only [reorderCacheFromBloom, hkeyShape, hvalueShape, List.getD_cons_zero,
    List.getD_cons_succ, hheads]
  exact Option.bind_eq_some_iff.mpr ⟨key, hkey, Option.bind_eq_some_iff.mpr ⟨value, hvalue, rfl⟩⟩

end Conversions

/-! ## The cache -/

/-- The content with the positions from `p` to `n` taken from another one. -/
def KVContent.overwrite (p n : Nat) (old new : KVContent α) : KVContent α where
  key c := if p ≤ c.position ∧ c.position < n then new.key c else old.key c
  value c := if p ≤ c.position ∧ c.position < n then new.value c else old.value c

section Cache

variable {batch maxLength p n : Nat} {dims : HeadDims} {cache new : KVPair α}
  {old content : KVContent α}

/-- `select_layer_past` reads the cache out in the BLOOM layout. -/
theorem selectShard_holds (h : (cacheLayout batch maxLength dims).Holds cache content)
    (hp : p ≤ maxLength) :
    (bloomLayout batch p dims).Holds (StandardGQACache.selectShard p cache) content := by
  obtain ⟨hkeyShape, hkeyGet⟩ := StandardGQACache.selectShard_key h.key.shape hp
  obtain ⟨hvalueShape, hvalueGet⟩ := StandardGQACache.selectShard_value h.value.shape hp
  refine ⟨⟨hkeyShape, fun c hc => ?_⟩, hvalueShape, fun c hc => ?_⟩
  · have hin := h.key.get c (hc.of_position (Nat.lt_of_lt_of_le hc.2.2.1 hp))
    obtain ⟨hrow, hhead, hposition, hchannel⟩ := hc
    refine (hkeyGet _ _ _ (mul_add_lt hrow hhead) hchannel hposition).trans ?_
    rw [mul_add_div_eq hhead, mul_add_mod_eq hhead]
    exact hin
  · have hin := h.value.get c (hc.of_position (Nat.lt_of_lt_of_le hc.2.2.1 hp))
    obtain ⟨hrow, hhead, hposition, hchannel⟩ := hc
    refine (hvalueGet _ _ _ (mul_add_lt hrow hhead) hchannel hposition).trans ?_
    rw [mul_add_div_eq hhead, mul_add_mod_eq hhead]
    exact hin

/-- `update_cache` writes a pair of the BLOOM layout into the cache. -/
theorem updateShard_holds (h : (cacheLayout batch maxLength dims).Holds cache old)
    (hnew : (bloomLayout batch n dims).Holds new content) (hp : p ≤ n) (hn : n ≤ maxLength) :
    ∃ cache', StandardGQACache.updateShard n p cache new = some cache' ∧
      (cacheLayout batch maxLength dims).Holds cache' (old.overwrite p n content) := by
  have hkeySize : (channelsFirst batch dims.kvHeads n dims.keyDim).shape.prod
      = new.1.shape.prod := by
    rw [hnew.key.shape]
    simp [channelsFirst, bloomLayout, joinedChannelsFirst, Nat.mul_assoc]
  have hvalueSize : (headsFirst batch dims.kvHeads n dims.valueDim).shape.prod
      = new.2.shape.prod := by
    rw [hnew.value.shape]
    simp [headsFirst, bloomLayout, joinedHeads, Nat.mul_assoc]
  have hkeyView := hnew.key.withShape hkeySize fun c hc => (ravel_joined hc.2.1 _ _).symm
  have hvalueView := hnew.value.withShape hvalueSize fun c hc => (ravel_joined hc.2.1 _ _).symm
  obtain ⟨key, hkey, hkeyShape, hkeyGet⟩ :=
    StandardGQACache.updateKey_spec h.key.shape hkeySize hp hn
  obtain ⟨value, hvalue, hvalueShape, hvalueGet⟩ :=
    StandardGQACache.updateValue_spec h.value.shape hvalueSize hp hn
  refine ⟨(key, value), ?_, ⟨hkeyShape.trans h.key.shape, fun c hc => ?_⟩,
    hvalueShape.trans h.value.shape, fun c hc => ?_⟩
  · rw [StandardGQACache.updateShard, hkey, hvalue]
    rfl
  · refine (hkeyGet _ _ _ _ (h.key.inBounds hc)).trans ?_
    show _ = if _ then _ else _
    split
    · rename_i hin
      exact hkeyView.get c (hc.of_position hin.2)
    · exact h.key.get c hc
  · refine (hvalueGet _ _ _ _ (h.value.inBounds hc)).trans ?_
    show _ = if _ then _ else _
    split
    · rename_i hin
      exact hvalueView.get c (hc.of_position hin.2)
    · exact h.value.get c hc

end Cache

/-- A shard in an update: its cache tensors, and what the block has returned for it. -/
structure ShardUpdate (α : Type) where
  dims : HeadDims
  cache : KVPair α
  new : KVPair α

namespace ShardUpdate

variable {batch maxLength p n : Nat} {shards : List (ShardUpdate α)}

/-- A cache for `maxLength` tokens, and a pair of `n` tokens. -/
structure Fits (batch maxLength n : Nat) (shard : ShardUpdate α) : Prop where
  cache : (cacheLayout batch maxLength shard.dims).Fits shard.cache
  new : (bloomLayout batch n shard.dims).Fits shard.new

/-- What the cache holds after the update. -/
def written (batch maxLength p n : Nat) (shard : ShardUpdate α) : KVContent α :=
  ((cacheLayout batch maxLength shard.dims).content shard.cache).overwrite p n
    ((bloomLayout batch n shard.dims).content shard.new)

theorem updateShards_holds : ∀ {shards : List (ShardUpdate α)},
    (∀ shard ∈ shards, shard.Fits batch maxLength n) → p ≤ n → n ≤ maxLength →
    ∃ cacheTensors, StandardGQACache.updateShards n p (shards.map cache) (shards.map new)
        = some cacheTensors ∧
      List.Forall₂ (fun shard cache => (cacheLayout batch maxLength shard.dims).Holds cache
        (shard.written batch maxLength p n)) shards cacheTensors
  | [], _, _, _ => ⟨[], rfl, .nil⟩
  | shard :: shards, h, hp, hn => by
    have hfits := h shard List.mem_cons_self
    obtain ⟨cache, hupdate, hholds⟩ :=
      updateShard_holds hfits.cache.holds hfits.new.holds hp hn
    obtain ⟨rest, hrest, hholdsRest⟩ :=
      updateShards_holds (fun s hs => h s (List.mem_cons_of_mem _ hs)) hp hn
    refine ⟨cache :: rest, ?_, .cons hholds hholdsRest⟩
    rw [List.map_cons, List.map_cons, StandardGQACache.updateShards, hupdate, hrest]
    rfl

/-- `update_cache` writes the pairs of all shards. -/
theorem updateCache_holds (hne : shards ≠ []) (h : ∀ shard ∈ shards, shard.Fits batch maxLength n)
    (hp : p ≤ n) (hn : n ≤ maxLength) :
    ∃ cacheTensors, StandardGQACache.updateCache (shards.map cache) (shards.map new) p
        = some cacheTensors ∧
      List.Forall₂ (fun shard cache => (cacheLayout batch maxLength shard.dims).Holds cache
        (shard.written batch maxLength p n)) shards cacheTensors := by
  obtain ⟨cacheTensors, hupdate, hholds⟩ := updateShards_holds h hp hn
  refine ⟨cacheTensors, ?_, hholds⟩
  cases shards with
  | nil => exact absurd rfl hne
  | cons shard shards =>
    -- `new_length` is read off the keys of the first shard
    have hlast : shard.new.1.shape.getLast? = some n := by
      rw [(h shard List.mem_cons_self).new.key]
      rfl
    show shard.new.1.shape.getLast?.bind _ = _
    rw [hlast]
    exact hupdate

end ShardUpdate

/-! ## Conversions and cache together -/

/-- **The layouts agree.** The two conversions undo each other on all pairs of their layouts, and
    each number stays with its row, head, position and channel: in the BLOOM layout at row
    `row * kv_heads + head`, where `select_layer_past` reads it from the cache and `update_cache`
    writes it into the cache. -/
theorem bloom_layout_inverse {batch : Nat} (hbatch : 1 ≤ batch) :
    (∀ (seq : Nat) (dims : HeadDims) (stock : KVPair α), (stockLayout batch seq dims).Fits stock →
      ∃ bloom, reorderCacheToBloom stock batch = some bloom ∧
        reorderCacheFromBloom bloom batch = some stock ∧
        (bloomLayout batch seq dims).Holds bloom ((stockLayout batch seq dims).content stock)) ∧
    (∀ (seq : Nat) (dims : HeadDims) (bloom : KVPair α), (bloomLayout batch seq dims).Fits bloom →
      ∃ stock, reorderCacheFromBloom bloom batch = some stock ∧
        reorderCacheToBloom stock batch = some bloom ∧
        (stockLayout batch seq dims).Holds stock ((bloomLayout batch seq dims).content bloom)) ∧
    (∀ (maxLength p : Nat) (shards : List (HeadDims × KVPair α)),
      (∀ shard ∈ shards, (cacheLayout batch maxLength shard.1).Fits shard.2) → p ≤ maxLength →
      List.Forall₂ (fun shard past => (bloomLayout batch p shard.1).Holds past
          ((cacheLayout batch maxLength shard.1).content shard.2)) shards
        (StandardGQACache.selectLayerPast (shards.map fun shard => shard.2) p)) ∧
    (∀ (maxLength p n : Nat) (shards : List (ShardUpdate α)), shards ≠ [] →
      (∀ shard ∈ shards, shard.Fits batch maxLength n) → p ≤ n → n ≤ maxLength →
      ∃ cacheTensors, StandardGQACache.updateCache (shards.map ShardUpdate.cache)
          (shards.map ShardUpdate.new) p = some cacheTensors ∧
        List.Forall₂ (fun shard cache => (cacheLayout batch maxLength shard.dims).Holds cache
          (shard.written batch maxLength p n)) shards cacheTensors) := by
  refine ⟨fun seq dims stock hstock => ?_, fun seq dims bloom hbloom => ?_,
    fun maxLength p shards hshards hp => ?_, fun maxLength p n shards hne hshards hp hn =>
      ShardUpdate.updateCache_holds hne hshards hp hn⟩
  · obtain ⟨bloom, hto, hholds⟩ := reorderCacheToBloom_holds hstock.holds
    obtain ⟨stock', hfrom, hholds'⟩ := reorderCacheFromBloom_holds hbatch hholds
    obtain rfl := hholds'.unique hstock.holds
    exact ⟨bloom, hto, hfrom, hholds⟩
  · obtain ⟨stock, hfrom, hholds⟩ := reorderCacheFromBloom_holds hbatch hbloom.holds
    obtain ⟨bloom', hto, hholds'⟩ := reorderCacheToBloom_holds hholds
    obtain rfl := hholds'.unique hbloom.holds
    exact ⟨stock, hfrom, hto, hholds⟩
  · rw [StandardGQACache.selectLayerPast, List.forall₂_map_right_iff, List.forall₂_map_right_iff,
      List.forall₂_same]
    exact fun shard hshard => selectShard_holds (hshards shard hshard).holds hp

/-- Two rows of two heads, three positions, the numbers in the order of the stock layout. -/
def rampStock : KVPair Nat :=
  (Tensor.ofFn [2, 2, 3, 2] (ravel [2, 2, 3, 2]), Tensor.ofFn [2, 2, 3, 1] (ravel [2, 2, 3, 1]))

theorem bloom_layout_inverse_two : ∃ bloom, reorderCacheToBloom rampStock 2 = some bloom ∧
    reorderCacheFromBloom bloom 2 = some rampStock ∧ bloom.1.get [3, 1, 2] = 23 ∧
    ∃ cacheTensors, StandardGQACache.updateCache
        [(Tensor.zeros [2, 2, 2, 4], Tensor.zeros [2, 2, 4, 1])] [bloom] 1 = some cacheTensors ∧
      cacheTensors.map (fun cache => cache.1.get [1, 1, 1, 2]) = [23] := by
  obtain ⟨hstock, -, -, hcache⟩ := @bloom_layout_inverse Nat _ 2 (by decide)
  obtain ⟨bloom, hto, hfrom, hholds⟩ := hstock 3 ⟨2, 2, 1⟩ rampStock ⟨rfl, rfl⟩
  obtain ⟨cacheTensors, hupdate, hcache⟩ := hcache 4 1 3
    [⟨⟨2, 2, 1⟩, (Tensor.zeros [2, 2, 2, 4], Tensor.zeros [2, 2, 4, 1]), bloom⟩]
    (List.cons_ne_nil _ _)
    (fun shard hshard => by
      obtain rfl := List.mem_singleton.mp hshard
      exact ⟨⟨rfl, rfl⟩, hholds.key.shape, hholds.value.shape⟩)
    (by decide) (by decide)
  have hlast : bloom.1.get [3, 1, 2] = 23 :=
    hholds.key.get ⟨1, 1, 2, 1⟩ (by decide)
  obtain ⟨cache, _, hwritten, hnil, rfl⟩ := List.forall₂_cons_left_iff.mp hcache
  cases hnil
  have hin : Coord.Within 2 2 4 2 ⟨1, 1, 2, 1⟩ := by decide
  have hget : cache.1.get [1, 1, 1, 2] = bloom.1.get [3, 1, 2] := hwritten.key.get _ hin
  exact ⟨bloom, hto, hfrom, hlast, _, hupdate, congrArg (fun x => [x]) (hget.trans hlast)⟩

section ReadBack

variable {batch maxLength seq p n : Nat} {dims : HeadDims}

/-- The first positions of a stock pair. -/
theorem slice_holds {stock : KVPair α} {content : KVContent α}
    (h : (stockLayout batch seq dims).Holds stock content) (hp : p ≤ seq) :
    (stockLayout batch p dims).Holds (stock.1.slice 2 0 p, stock.2.slice 2 0 p) content := by
  have hhalf : ∀ {t : Tensor α} {dim : Nat} {f : Coord → α},
      (headsFirst batch dims.kvHeads seq dim).Holds t f →
      (headsFirst batch dims.kvHeads p dim).Holds (t.slice 2 0 p) f := by
    intro t dim f ht
    have hshape : t.shape = [batch, dims.kvHeads, seq, dim] := ht.shape
    have haxis : p ≤ t.shape.getD 2 0 := by
      rw [hshape]
      exact hp
    have hslice : (t.slice 2 0 p).shape = t.shape.set 2 p :=
      Tensor.shape_slice_of_le (Nat.zero_le p) haxis
    refine ⟨by rw [hslice, hshape]; rfl, fun c hc => ?_⟩
    have hix : InBounds (t.shape.set 2 (p - 0)) [c.row, c.head, c.position, c.channel] := by
      rw [hshape]
      exact (headsFirst batch dims.kvHeads p dim).inBounds hc
    refine (Tensor.get_slice _ (Nat.zero_le p) haxis hix).trans ?_
    exact ht.get c (hc.of_position (Nat.lt_of_lt_of_le hc.2.2.1 hp))
  exact ⟨hhalf h.key, hhalf h.value⟩

/-- **A step is read back.** Let the stock attention return the pair it was handed, the first `p`
    positions of the cache, with new positions behind.  Written to the cache and read out for the
    next step, it is the pair that the attention has returned. -/
theorem stock_read_back {cache past stock : KVPair α} (hbatch : 0 < batch)
    (hcache : (cacheLayout batch maxLength dims).Fits cache)
    (hstock : (stockLayout batch n dims).Fits stock) (hp : p ≤ n) (hn : n ≤ maxLength)
    (hpast : reorderCacheFromBloom (StandardGQACache.selectShard p cache) batch = some past)
    (hkept : (stock.1.slice 2 0 p, stock.2.slice 2 0 p) = past) :
    ∃ bloom cache', reorderCacheToBloom stock batch = some bloom ∧
      StandardGQACache.updateShard n p cache bloom = some cache' ∧
      reorderCacheFromBloom (StandardGQACache.selectShard n cache') batch = some stock := by
  obtain ⟨past', hpast', hold⟩ := reorderCacheFromBloom_holds hbatch
    (selectShard_holds hcache.holds (Nat.le_trans hp hn))
  obtain rfl : past' = past := Option.some.inj (hpast'.symm.trans hpast)
  have hbegin := slice_holds hstock.holds hp
  rw [hkept] at hbegin
  obtain ⟨bloom, hto, hbloom⟩ := reorderCacheToBloom_holds hstock.holds
  obtain ⟨cache', hupdate, hcache'⟩ := updateShard_holds hcache.holds hbloom hp hn
  -- what the update has left of the cache is the beginning of the stock pair
  have hselect : (bloomLayout batch n dims).Holds (StandardGQACache.selectShard n cache')
      ((stockLayout batch n dims).content stock) := by
    have hholds := selectShard_holds hcache' hn
    refine ⟨hholds.key.congr fun c hc => ?_, hholds.value.congr fun c hc => ?_⟩
    · show (if _ then _ else _) = _
      split
      · rfl
      · rename_i hout
        have hposition := hc.2.2.1
        have hc' := hc.of_position (show c.position < p by omega)
        exact (hold.key.get c hc').symm.trans (hbegin.key.get c hc')
    · show (if _ then _ else _) = _
      split
      · rfl
      · rename_i hout
        have hposition := hc.2.2.1
        have hc' := hc.of_position (show c.position < p by omega)
        exact (hold.value.get c hc').symm.trans (hbegin.value.get c hc')
  obtain ⟨stock', hfrom, hstock'⟩ := reorderCacheFromBloom_holds hbatch hselect
  obtain rfl := hstock'.unique hstock.holds
  exact ⟨bloom, cache', hto, hupdate, hfrom⟩

end ReadBack

end Drift
