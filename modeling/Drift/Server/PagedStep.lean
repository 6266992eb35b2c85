/-
  `inference_step` of a server with `--cache paged`, against the same step on contiguous caches.

  The two are separate code paths.  `_paged_inference_step` hands the block its hidden states and
  its past and nothing else: the per-layer input and the dict of shared keys and values stay behind,
  and what a donor stores is not returned.  So it does what the other path does exactly when there
  is no per-layer input, no donor of a layer type that is not seeded yet, and no consumer; a
  consumer raises before it computes anything.  Besides, pages may run out when the new tokens are
  written (`PagedFaithful`, `pagedStep_agrees_iff`).

  The comparison is for one step on caches that hold the same (`SameCaches`), of a request that the
  session may send (`StepFits`).
-/
import Drift.Cache.PagedRefinement
import Drift.Cache.PagedRoom
import Drift.Server.CausalBlock
import Drift.Server.SharedKv

namespace Drift

open PagedKVPool StandardGQACache

variable {κ α : Type} {cfg : PoolConfig}

/-! ## The two layouts -/

/-- The keys and values of `p` past tokens on a single device. -/
def PastShape (cfg : PoolConfig) (batch p : Nat) (layerPast : LayerPast α) : Prop :=
  ∃ key value, layerPast = some [(key, value)] ∧
    key.shape = [batch * cfg.numKvHeads, cfg.kHeadDim, p] ∧
    value.shape = [batch * cfg.numKvHeads, p, cfg.vHeadDim]

/-- A block with a cache returns the past and the chunk behind each other. -/
def BlockModule.Lengthens (cfg : PoolConfig) (block : BlockModule κ α) : Prop :=
  ∀ hiddenStates layerPast perLayerInput r batch p n width,
    hiddenStates.shape = [batch, n, width] → PastShape cfg batch p layerPast →
    block.run none hiddenStates layerPast perLayerInput = .ok r → PastShape cfg batch (p + n) r.2.1

/-- A request to a slot: its batch, ids of its rows, and tokens that start inside of what was
    written and end before the maximum length. -/
structure StepFits (maxLength : Nat) (slot : ContiguousSlot α) (hiddenStates : Tensor α)
    (hypoIds : List Int) (info : InferenceMetadata α) (p n : Nat) : Prop where
  shape : ∃ width, hiddenStates.shape = [slot.batchSize, n, width]
  tokens : isDummy hiddenStates = false
  perLayerInput : ∀ t, info.perLayerInput = some t → t.shape.getD 1 0 = n
  prefixLength : info.prefixLength = p
  le_length : p ≤ slot.length
  fits : p + n ≤ maxLength
  hypoIds : hypoIds = [] ∨
    hypoIds.length = slot.batchSize ∧ ∀ id ∈ hypoIds, 0 ≤ id ∧ id < slot.batchSize

variable [Zero α]

/-- The cache handles of a server point to the same contents in both layouts. -/
structure SameCaches (maxLength : Nat) (pool : PagedKVPool α cfg)
    (cacheTensors : AList fun _ : Nat => List (KVPair α)) (slots : ContiguousSlots α) : Prop where
  represents : Represents maxLength pool slots
  lookup : ∀ handle, cacheTensors.lookup handle = (slots handle).map ContiguousSlot.cacheTensors

/-- The reorder that the paged step begins with. -/
def reorderSlot (slotId : Nat) (hypoIds : List Int) : PoolM α cfg Unit :=
  if hypoIds = [] then pure () else PagedKVPool.reorder slotId hypoIds

section Sides

variable {maxLength p n : Nat} {pool pool₁ : PagedKVPool α cfg} {slots : ContiguousSlots α}
  {slot : ContiguousSlot α} {handle : Nat}

/-- **The reorder** does the same on both sides, where the pages do not run out. -/
theorem reorder_sides {hypoIds : List Int} (hrep : Represents maxLength pool slots)
    (hslot : slots handle = some slot)
    (hids : hypoIds = [] ∨
      hypoIds.length = slot.batchSize ∧ ∀ id ∈ hypoIds, 0 ≤ id ∧ id < slot.batchSize) :
    ∃ key value,
      TransformerBackend.reorderCacheInplace slot.cacheTensors hypoIds = .ok [(key, value)] ∧
      key.shape = [slot.batchSize, cfg.numKvHeads, cfg.kHeadDim, maxLength] ∧
      value.shape = [slot.batchSize, cfg.numKvHeads, maxLength, cfg.vHeadDim] ∧
      ∀ pool₁, reorderSlot handle hypoIds pool = .ok () pool₁ →
        Represents maxLength pool₁
          (Function.update slots handle (some { slot with cacheTensors := [(key, value)] })) := by
  obtain ⟨table, key, value, -, hh⟩ := hrep.exists_table hslot
  have hkshape := hh.key_shape
  have hvshape := hh.value_shape
  rw [hh.length_table] at hkshape hvshape
  by_cases hnil : hypoIds = []
  · refine ⟨key, value, ?_, hkshape, hvshape, fun pool₁ hreorder => ?_⟩
    · rw [TransformerBackend.reorderCacheInplace, if_pos hnil, hh.cacheTensors]
    · rw [reorderSlot, if_pos hnil] at hreorder
      obtain ⟨-, rfl⟩ := EStateM.Result.ok.inj hreorder
      rw [← hh.cacheTensors, ← hslot, Function.update_eq_self]
      exact hrep
  · obtain ⟨hlen, hrange⟩ := hids.resolve_left hnil
    obtain ⟨key', hkey', hkshape', -⟩ := reorderTensor_spec hkshape hlen hrange
    obtain ⟨value', hvalue', hvshape', -⟩ := reorderTensor_spec hvshape hlen hrange
    have hcache : reorderCache hypoIds slot.cacheTensors = some [(key', value')] := by
      rw [hh.cacheTensors, reorderCache_single, reorderShard, hkey', hvalue']
      rfl
    refine ⟨key', value', ?_, hkshape'.trans hkshape, hvshape'.trans hvshape,
      fun pool₁ hreorder => ?_⟩
    · rw [TransformerBackend.reorderCacheInplace, if_neg hnil, hcache]
      rfl
    · rw [reorderSlot, if_neg hnil] at hreorder
      refine reorder_represents hrep (fun slot' hslot' => ?_) hreorder ?_
      · obtain rfl := Option.some.inj (hslot.symm.trans hslot')
        exact ⟨hlen, hrange⟩
      · simp only [performContiguous, hslot, hcache, Option.bind_eq_bind, Option.bind_some]

/-- **The past** is the same on both sides. -/
theorem past_sides (hrep : Represents maxLength pool slots) (hslot : slots handle = some slot)
    (hp : p ≤ slot.length) :
    ∃ past, pool.gather handle p = .ok past ∧ selectLayerPast slot.cacheTensors p = [past] := by
  obtain ⟨table, key, value, ht, hh⟩ := hrep.exists_table hslot
  refine ⟨selectShard p (key, value), gather_of_holds ht hh hp, ?_⟩
  rw [hh.cacheTensors]
  rfl

/-- The pages that the tokens up to `newLength` need are there. -/
def HasRoom (handle newLength : Nat) (pool : PagedKVPool α cfg) : Prop :=
  ∀ table, pool.blockTables.lookup handle = some table →
    pagesShort pool table ((newLength + cfg.pageSize - 1) / cfg.pageSize) ≤ pool.freePages.length

/-- **The write-back** does the same on both sides if there is room, and raises in the pages if
    there is none. -/
theorem write_sides {newKvs : LayerPast α} (hrep : Represents maxLength pool slots)
    (hslot : slots handle = some slot) (hbatch : 0 < slot.batchSize) (hn : 0 < n)
    (hp : p ≤ slot.length) (hfits : p + n ≤ maxLength)
    (hkvs : PastShape cfg slot.batchSize (p + n) newKvs) :
    ∃ cache, TransformerBackend.writeBack slot.cacheTensors newKvs p = .ok cache ∧
      ((HasRoom handle (p + n) pool ∧ ∃ pool' slots',
          TransformerBackend.writeBackPaged handle newKvs p pool = .ok () pool' ∧
          Represents maxLength pool' slots' ∧
          slots' = Function.update slots handle (some { slot with
            length := p + n
            cacheTensors := cache })) ∨
        (¬ HasRoom handle (p + n) pool ∧ ∃ pool',
          TransformerBackend.writeBackPaged handle newKvs p pool = .error poolFull pool')) := by
  obtain ⟨table, key, value, ht, hh⟩ := hrep.exists_table hslot
  obtain ⟨newKey, newValue, rfl, hkey, hvalue⟩ := hkvs
  have htable : table.length = slot.batchSize := hh.length_table
  have hpn : p < p + n := Nat.lt_add_of_pos_right hn
  have hk : [table.length, cfg.numKvHeads, cfg.kHeadDim, p + n].prod = newKey.shape.prod := by
    rw [hkey, htable]
    simp [Nat.mul_assoc]
  have hv : [table.length, cfg.numKvHeads, p + n, cfg.vHeadDim].prod = newValue.shape.prod := by
    rw [hvalue, htable]
    simp [Nat.mul_assoc]
  have hlast : newKey.shape.getLast? = some (p + n) := by
    rw [hkey]
    rfl
  obtain ⟨key', hkey', -⟩ := updateKey_spec hh.key_shape hk (Nat.le_of_lt hpn) hfits
  obtain ⟨value', hvalue', -⟩ := updateValue_spec hh.value_shape hv (Nat.le_of_lt hpn) hfits
  have hcache : updateCache slot.cacheTensors [(newKey, newValue)] p = some [(key', value')] := by
    rw [hh.cacheTensors, updateCache_single]
    simp only [hlast, Option.bind_some, updateShard, hkey', hvalue', Option.bind_eq_bind,
      Option.map_some]
  have hne : table ≠ [] := by
    rintro rfl
    rw [← htable] at hbatch
    exact Nat.lt_irrefl 0 hbatch
  refine ⟨[(key', value')], ?_, ?_⟩
  · rw [TransformerBackend.writeBack, hcache]
    rfl
  rcases scatter_cases (newKey, newValue) hrep.sound ht hne hlast hpn hk hv with
    ⟨hroom, pool', hscatter⟩ | ⟨hshort, pool', hscatter⟩
  · refine Or.inl ⟨fun table' ht' => ?_, pool', _, hscatter, ?_, rfl⟩
    · obtain rfl := Option.some.inj (ht.symm.trans ht')
      exact hroom
    · refine scatter_represents hrep (fun slot' hslot' => ?_) hscatter ?_
      · obtain rfl := Option.some.inj (hslot.symm.trans hslot')
        refine ⟨Int.natCast_nonneg p, by exact_mod_cast hp, fun newLength hnew => ?_⟩
        obtain rfl := Option.some.inj (hlast.symm.trans hnew)
        exact hfits
      · have hlonger : ¬ ((p + n : Nat) : Int) ≤ (p : Int) := by omega
        simp only [performContiguous, hslot, hlast, hcache, Option.bind_eq_bind, Option.bind_some,
          if_neg hlonger]
  · exact Or.inr ⟨fun hroom => absurd (hroom table ht) (by omega), pool', hscatter⟩

end Sides

/-! ## The chunk loop on both sides -/

section Chunks

variable {δ : Type} {forward : ModuleForward δ α} {hiddenStates : Tensor α}
  {perLayerInput : Option (Tensor α)} {batch p seqLen width maxChunkLength : Nat}

/-- A call that lengthens the past, in a loop over chunks: the past ends up with all tokens. -/
theorem forwardChunks_lengthens (hhidden : hiddenStates.shape = [batch, seqLen, width])
    (hpos : 0 < maxChunkLength)
    (hforward : ∀ chunk layerPast perLayerInput shared r q n, chunk.shape = [batch, n, width] →
      PastShape cfg batch q layerPast → forward chunk layerPast perLayerInput shared = .ok r →
      PastShape cfg batch (q + n) r.2.1) :
    ∀ (m k : Nat) {output : Tensor α} {layerPast : LayerPast α} {shared : δ}
      {r : Tensor α × LayerPast α × δ}, k + m = (seqLen + maxChunkLength - 1) / maxChunkLength →
      PastShape cfg batch (p + min (k * maxChunkLength) seqLen) layerPast →
      forwardChunks forward hiddenStates perLayerInput seqLen maxChunkLength
        (List.range' (k * maxChunkLength) m maxChunkLength) output layerPast shared = .ok r →
      PastShape cfg batch (p + seqLen) r.2.1
  | 0, k, output, layerPast, shared, r, hk, hpast, h => by
    have hle := le_ceilDiv_mul hpos seqLen
    rw [← hk, Nat.add_zero] at hle
    rw [Nat.min_eq_right hle] at hpast
    obtain rfl := Except.ok.inj h
    exact hpast
  | m + 1, k, output, layerPast, shared, r, hk, hpast, h => by
    have hlt : k * maxChunkLength < seqLen := (lt_ceilDiv_iff hpos seqLen k).mp (by omega)
    have hnext : k * maxChunkLength + maxChunkLength = (k + 1) * maxChunkLength :=
      (Nat.succ_mul k maxChunkLength).symm
    rw [List.range'_succ, hnext, forwardChunks] at h
    obtain ⟨⟨chunk, newKvs, shared'⟩, hchunk, h⟩ := except_bind_eq_ok.mp h
    obtain ⟨output', -, h⟩ := except_bind_eq_ok.mp h
    rw [hnext] at hchunk
    obtain ⟨hi, hhi⟩ : ∃ hi, hi = min ((k + 1) * maxChunkLength) seqLen := ⟨_, rfl⟩
    have hcut : hiddenStates.slice 1 (k * maxChunkLength : Nat) ((k + 1) * maxChunkLength : Nat)
        = hiddenStates.slice 1 (k * maxChunkLength : Nat) hi := by
      rw [Tensor.slice_min, hhi, hhidden]
      rfl
    have hshape : (hiddenStates.slice 1 (k * maxChunkLength : Nat)
        ((k + 1) * maxChunkLength : Nat)).shape = [batch, hi - k * maxChunkLength, width] := by
      rw [hcut]
      exact shape_slice_tokens hhidden (by omega) (by omega)
    rw [Nat.min_eq_left (Nat.le_of_lt hlt)] at hpast
    have hnew := hforward _ _ _ _ _ _ _ hshape hpast hchunk
    have hend : p + k * maxChunkLength + (hi - k * maxChunkLength)
        = p + min ((k + 1) * maxChunkLength) seqLen := by omega
    rw [hend] at hnew
    exact forwardChunks_lengthens hhidden hpos hforward m (k + 1) (by omega) hnew h

theorem forwardChunked_lengthens (hhidden : hiddenStates.shape = [batch, seqLen, width])
    (hpos : 0 < maxChunkLength)
    (hforward : ∀ chunk layerPast perLayerInput shared r q n, chunk.shape = [batch, n, width] →
      PastShape cfg batch q layerPast → forward chunk layerPast perLayerInput shared = .ok r →
      PastShape cfg batch (q + n) r.2.1) {layerPast : LayerPast α} {shared : δ}
    {r : Tensor α × LayerPast α × δ} (hpast : PastShape cfg batch p layerPast)
    (h : forwardChunked forward hiddenStates layerPast maxChunkLength perLayerInput shared = .ok r) :
    PastShape cfg batch (p + seqLen) r.2.1 := by
  have hseq : hiddenStates.shape.getD 1 0 = seqLen := by
    rw [hhidden]
    rfl
  simp only [forwardChunked, hseq] at h
  split at h
  · cases h
  · rw [pyRangeStep, show 0 = 0 * maxChunkLength by omega] at h
    exact forwardChunks_lengthens hhidden hpos hforward _ 0 (Nat.zero_add _)
      (by rw [Nat.zero_mul, Nat.zero_min]; exact hpast) h

end Chunks

section Blocks

variable [LinearOrder κ] {backend : TransformerBackend κ α}

/-- A block that reads from the dict. -/
def KVRole.isConsumer (role : KVRole κ) : Prop := ∃ layerType, role = .consumer layerType

omit [Zero α] in
/-- A block that is no consumer returns what it runs. -/
theorem forward_of_run (block : BlockModule κ α) (hrole : ¬ block.role.isConsumer)
    (hiddenStates : Tensor α) (layerPast : LayerPast α) (perLayerInput : Option (Tensor α))
    (shared : SharedKvStates κ α) :
    block.forward hiddenStates layerPast perLayerInput shared =
      (block.run none hiddenStates layerPast perLayerInput).map fun r =>
        (r.1, r.2.1, block.role.write (some r.2.2) shared) := by
  rw [BlockModule.forward]
  cases hr : block.role with
  | ordinary => cases block.run none hiddenStates layerPast perLayerInput <;> rfl
  | donor layerType => cases block.run none hiddenStates layerPast perLayerInput <;> rfl
  | consumer layerType => exact absurd ⟨layerType, hr⟩ hrole

omit [Zero α] in
theorem forwardAlone_of_run (hrole : ¬ backend.module.role.isConsumer) (hiddenStates : Tensor α)
    (layerPast : LayerPast α) (perLayerInput : Option (Tensor α)) :
    backend.forwardAlone hiddenStates layerPast perLayerInput () =
      (backend.module.run none hiddenStates layerPast perLayerInput).map fun r =>
        (r.1, r.2.1, ()) := by
  rw [TransformerBackend.forwardAlone, forward_of_run _ hrole]
  cases backend.module.run none hiddenStates layerPast perLayerInput <;> rfl

omit [Zero α] in
theorem forward_lengthens {block : BlockModule κ α} (hrole : ¬ block.role.isConsumer)
    (hblock : block.Lengthens cfg) {chunk : Tensor α} {layerPast : LayerPast α}
    {perLayerInput : Option (Tensor α)} {shared : SharedKvStates κ α}
    {r : Tensor α × LayerPast α × SharedKvStates κ α} {batch width q n : Nat}
    (hshape : chunk.shape = [batch, n, width]) (hpast : PastShape cfg batch q layerPast)
    (h : block.forward chunk layerPast perLayerInput shared = .ok r) :
    PastShape cfg batch (q + n) r.2.1 := by
  rw [forward_of_run _ hrole] at h
  cases hrun : block.run none chunk layerPast perLayerInput with
  | error exc =>
    rw [hrun] at h
    nomatch h
  | ok result =>
    rw [hrun] at h
    obtain rfl := Except.ok.inj h
    exact hblock _ _ _ _ _ _ _ _ hshape hpast hrun

/-- **Without side inputs** the paged step runs what the other step runs. -/
theorem forwardChunks_alone (hrole : ¬ backend.module.role.isConsumer) (hiddenStates : Tensor α)
    (seqLen maxChunkLength : Nat) : ∀ (offsets : List Nat) (output : Tensor α)
      (layerPast : LayerPast α) (shared : SharedKvStates κ α),
      forwardChunks backend.forwardAlone hiddenStates none seqLen maxChunkLength offsets output
          layerPast () =
        (forwardChunks backend.module.forward hiddenStates none seqLen maxChunkLength offsets output
          layerPast shared).map fun r => (r.1, r.2.1, ())
  | [], _, _, _ => rfl
  | offset :: offsets, output, layerPast, shared => by
    rw [forwardChunks, forwardChunks, Option.map_none, forwardAlone_of_run hrole,
      forward_of_run _ hrole]
    cases backend.module.run none (hiddenStates.slice 1 offset ((offset + maxChunkLength : Nat) : Int))
      layerPast none with
    | error exc => rfl
    | ok r =>
      show (storeChunk seqLen maxChunkLength offset r.1 output >>= fun output =>
          forwardChunks backend.forwardAlone hiddenStates none seqLen maxChunkLength offsets output
            r.2.1 ()) =
        (storeChunk seqLen maxChunkLength offset r.1 output >>= fun output =>
          forwardChunks backend.module.forward hiddenStates none seqLen maxChunkLength offsets
            output r.2.1 (backend.module.role.write (some r.2.2) shared)).map
          fun r => (r.1, r.2.1, ())
      cases storeChunk seqLen maxChunkLength offset r.1 output with
      | error exc => rfl
      | ok output =>
        exact forwardChunks_alone hrole hiddenStates seqLen maxChunkLength offsets output r.2.1 _

theorem forwardChunked_alone (backend : TransformerBackend κ α)
    (hrole : ¬ backend.module.role.isConsumer) (hiddenStates : Tensor α)
    (layerPast : LayerPast α) (maxChunkLength : Nat) (shared : SharedKvStates κ α) :
    forwardChunked backend.forwardAlone hiddenStates layerPast maxChunkLength none () =
      (forwardChunked backend.module.forward hiddenStates layerPast maxChunkLength none shared).map
        fun r => (r.1, r.2.1, ()) := by
  simp only [forwardChunked]
  split
  · rfl
  · exact forwardChunks_alone hrole hiddenStates _ _ _ _ _ shared

end Blocks

/-! ## One step on both sides -/

section Step

variable [LinearOrder κ] {backend : TransformerBackend κ α} {maxLength p n : Nat}
  {pool : PagedKVPool α cfg} {cacheTensors : AList fun _ : Nat => List (KVPair α)}
  {slots : ContiguousSlots α} {slot : ContiguousSlot α} {hiddenStates : Tensor α}
  {hypoIds : List Int} {info : InferenceMetadata α} {shared : SharedKvStates κ α}

/-- The same backend around another block. -/
def TransformerBackend.withModule (backend : TransformerBackend κ α) (block : BlockModule κ α) :
    TransformerBackend κ α :=
  { backend with module := block }

/-- The paged step raises before it computes anything: whatever the block function is, it raises
    this. -/
def RaisesFirst (backend : TransformerBackend κ α) (hiddenStates : Tensor α) (hypoIds : List Int)
    (info : InferenceMetadata α) (shared : SharedKvStates κ α) (pool : PagedKVPool α cfg) : Prop :=
  ∃ exc, ∀ block : BlockModule κ α, block.role = backend.module.role → ∃ pool',
    (backend.withModule block).inferenceStep hiddenStates hypoIds info shared (.paged pool)
      = .error exc (.paged pool')

/-- **Switching to pages does not change the result** of a step: where the step on contiguous
    caches returns, the paged one returns the same tensors and leaves the same caches, or raises
    before it computes anything; where it raises, the paged one raises. -/
def PagedAgrees (maxLength : Nat) (backend : TransformerBackend κ α) (hiddenStates : Tensor α)
    (hypoIds : List Int) (info : InferenceMetadata α) (shared : SharedKvStates κ α)
    (pool : PagedKVPool α cfg) (cacheTensors : AList fun _ : Nat => List (KVPair α)) : Prop :=
  let contiguous : KVStore α cfg := .contiguous cacheTensors
  (∀ output produced shared' cacheTensors',
    backend.inferenceStep hiddenStates hypoIds info shared contiguous
      = .ok (output, produced, shared') (.contiguous cacheTensors') →
    (∃ shared'' pool' slots', backend.inferenceStep hiddenStates hypoIds info shared (.paged pool)
        = .ok (output, produced, shared'') (.paged pool') ∧
      SameCaches maxLength pool' cacheTensors' slots') ∨
    RaisesFirst backend hiddenStates hypoIds info shared pool) ∧
  ∀ exc store', backend.inferenceStep hiddenStates hypoIds info shared contiguous
      = .error exc store' →
    ∃ exc' store'', backend.inferenceStep hiddenStates hypoIds info shared (.paged pool)
      = .error exc' store''

/-- The steps that pages serve as contiguous caches do: unless the block is a consumer, or the
    reorder runs out of pages, there is no per-layer input, no layer type is donated that is not
    seeded, and the pool has room for the new tokens. -/
def PagedFaithful (role : KVRole κ) (hypoIds : List Int) (info : InferenceMetadata α)
    (shared : SharedKvStates κ α) (newLength : Nat) (pool : PagedKVPool α cfg) : Prop :=
  ∀ pool₁, reorderSlot info.cacheHandle hypoIds pool = .ok () pool₁ → role.isConsumer ∨
    info.perLayerInput = none ∧ (∀ layerType, role = .donor layerType → layerType ∈ shared) ∧
      HasRoom info.cacheHandle newLength pool₁

/-- The paged step behind its reorder. -/
theorem pagedInferenceStep_of (backend : TransformerBackend κ α) {pool₁ : PagedKVPool α cfg}
    {maxChunkLength : Nat} {past : KVPair α}
    (hreorder : reorderSlot info.cacheHandle hypoIds pool = .ok () pool₁)
    (hchunk : backend.estimateMaxChunkLength hiddenStates info.prefixLength = .ok maxChunkLength)
    (hpast : pool₁.gather info.cacheHandle info.prefixLength = .ok past) :
    backend.pagedInferenceStep hiddenStates hypoIds info pool =
      (liftExcept (forwardChunked backend.forwardAlone hiddenStates (some [past]) maxChunkLength
          none ()) >>= fun r =>
        TransformerBackend.writeBackPaged info.cacheHandle r.2.1 info.prefixLength >>= fun _ =>
          pure r.1) pool₁ := by
  have hfirst : ∀ rest : Unit → PoolM α cfg (Tensor α),
      ((if hypoIds = [] then pure () else PagedKVPool.reorder info.cacheHandle hypoIds) >>= rest)
        pool = rest () pool₁ := fun rest => bind_of_ok hreorder
  rw [TransformerBackend.pagedInferenceStep]
  have hlift : ∀ {β : Type} (b : β), (liftExcept (.ok b) : PoolM α cfg β) pool₁ = .ok b pool₁ :=
    fun _ => rfl
  rw [hfirst, hchunk, bind_of_ok (hlift maxChunkLength), bind_get, hpast, bind_of_ok (hlift past)]

/-- The paged step whose reorder raises. -/
theorem pagedInferenceStep_of_error {pool₁ : PagedKVPool α cfg} {exc : PyExc}
    (hreorder : reorderSlot info.cacheHandle hypoIds pool = .error exc pool₁) :
    backend.pagedInferenceStep hiddenStates hypoIds info pool = .error exc pool₁ := by
  have hfirst : ∀ rest : Unit → PoolM α cfg (Tensor α),
      ((if hypoIds = [] then pure () else PagedKVPool.reorder info.cacheHandle hypoIds) >>= rest)
        pool = .error exc pool₁ := fun rest => bind_of_error hreorder
  rw [TransformerBackend.pagedInferenceStep]
  exact hfirst _

omit [Zero α] in
/-- A request has rows, tokens and features. -/
theorem StepFits.sizes_pos {width : Nat}
    (hfits : StepFits maxLength slot hiddenStates hypoIds info p n)
    (hshape : hiddenStates.shape = [slot.batchSize, n, width]) :
    0 < slot.batchSize ∧ 0 < n ∧ 0 < width := by
  have hnumel : hiddenStates.numel ≠ 0 := of_decide_eq_false hfits.tokens
  rw [Tensor.numel, hshape] at hnumel
  refine ⟨Nat.pos_of_ne_zero fun h => hnumel ?_, Nat.pos_of_ne_zero fun h => hnumel ?_,
    Nat.pos_of_ne_zero fun h => hnumel ?_⟩
  · rw [h]
    simp
  · rw [h]
    simp
  · rw [h]
    simp

omit [Zero α] in
theorem StepFits.pos (hfits : StepFits maxLength slot hiddenStates hypoIds info p n) :
    0 < slot.batchSize ∧ 0 < n := by
  obtain ⟨width, hshape⟩ := hfits.shape
  obtain ⟨hbatch, hn, -⟩ := hfits.sizes_pos hshape
  exact ⟨hbatch, hn⟩

/-- What both steps do before the block runs: the reordered caches, the chunk length and the
    past. -/
structure Prepared (maxLength : Nat) (backend : TransformerBackend κ α) (hiddenStates : Tensor α)
    (hypoIds : List Int) (info : InferenceMetadata α) (slot : ContiguousSlot α)
    (pool : PagedKVPool α cfg) (slots : ContiguousSlots α) (cache : List (KVPair α))
    (maxChunkLength : Nat) (past : KVPair α) : Prop where
  reorder : TransformerBackend.reorderCacheInplace slot.cacheTensors hypoIds = .ok cache
  estimate : backend.estimateMaxChunkLength hiddenStates info.prefixLength = .ok maxChunkLength
  select : selectLayerPast cache info.prefixLength = [past]
  represents : ∀ pool₁, reorderSlot info.cacheHandle hypoIds pool = .ok () pool₁ →
    Represents maxLength pool₁
        (Function.update slots info.cacheHandle (some { slot with cacheTensors := cache })) ∧
      pool₁.gather info.cacheHandle info.prefixLength = .ok past

omit [LinearOrder κ] in
theorem exists_prepared (hsame : SameCaches maxLength pool cacheTensors slots)
    (hslot : slots info.cacheHandle = some slot)
    (hfits : StepFits maxLength slot hiddenStates hypoIds info p n)
    (backend : TransformerBackend κ α) :
    ∃ cache maxChunkLength past,
      Prepared maxLength backend hiddenStates hypoIds info slot pool slots cache maxChunkLength
        past ∧ PastShape cfg slot.batchSize p (some [past]) := by
  obtain ⟨hbatch, hn⟩ := hfits.pos
  obtain ⟨width, hshape⟩ := hfits.shape
  obtain ⟨key, value, hreorder, hkey, hvalue, hrep⟩ :=
    reorder_sides hsame.represents hslot hfits.hypoIds
  obtain ⟨maxChunkLength, hestimate⟩ :=
    backend.estimateMaxChunkLength_ok p hshape hbatch hn
  have hpL : p ≤ maxLength := by
    have := hfits.fits
    omega
  refine ⟨_, maxChunkLength, selectShard p (key, value), ⟨hreorder, ?_, ?_, fun pool₁ h => ?_⟩,
    _, _, rfl, (selectShard_key (show (key, value).1.shape = _ from hkey) hpL).1,
    (selectShard_value (show (key, value).2.shape = _ from hvalue) hpL).1⟩
  · rw [hfits.prefixLength]
    exact hestimate
  · rw [hfits.prefixLength]
    rfl
  · obtain ⟨past, hgather, hselect⟩ := past_sides (hrep pool₁ h)
      (Function.update_self _ _ _) (p := p) hfits.le_length
    obtain rfl := (List.cons.inj hselect).1
    rw [hfits.prefixLength]
    exact ⟨hrep pool₁ h, hgather⟩

variable {cache : List (KVPair α)} {maxChunkLength : Nat} {past : KVPair α}

/-- The step on contiguous caches behind its preparation. -/
theorem contiguousInferenceStep_of
    (hprep : Prepared maxLength backend hiddenStates hypoIds info slot pool slots cache
      maxChunkLength past) :
    backend.contiguousInferenceStep hiddenStates hypoIds info shared slot.cacheTensors =
      (forwardChunked backend.module.forward hiddenStates (some [past]) maxChunkLength
          info.perLayerInput shared >>= fun r =>
        (TransformerBackend.writeBack cache r.2.1 info.prefixLength).map fun cache =>
          (r.1, r.2.2, cache)) := by
  rw [TransformerBackend.contiguousInferenceStep, hprep.reorder, hprep.estimate]
  show (forwardChunked backend.module.forward hiddenStates
    (some (selectLayerPast cache info.prefixLength)) maxChunkLength info.perLayerInput shared
      >>= fun r => _) = _
  rw [hprep.select]
  congr 1

/-- The first chunk of a block that raises. -/
theorem forwardChunked_error {δ : Type} {forward : ModuleForward δ α} {d : δ} {exc : PyExc}
    (hraise : ∀ hiddenStates layerPast perLayerInput,
      forward hiddenStates layerPast perLayerInput d = .error exc)
    (hseq : 0 < hiddenStates.shape.getD 1 0) (hpos : 0 < maxChunkLength) (layerPast : LayerPast α)
    (perLayerInput : Option (Tensor α)) :
    forwardChunked forward hiddenStates layerPast maxChunkLength perLayerInput d = .error exc := by
  simp only [forwardChunked]
  rw [if_neg (Nat.ne_of_gt hseq)]
  cases hoffsets : pyRangeStep (hiddenStates.shape.getD 1 0) maxChunkLength with
  | nil => exact absurd hoffsets (pyRangeStep_ne_nil hseq hpos)
  | cons offset offsets =>
    rw [forwardChunks, hraise]
    rfl

theorem inferenceStep_paged (hndim : hiddenStates.shape.length = 3)
    (backend : TransformerBackend κ α) :
    backend.inferenceStep hiddenStates hypoIds info shared (.paged pool) =
      match backend.pagedInferenceStep hiddenStates hypoIds info pool with
      | .ok output pool => .ok (output, [], shared) (.paged pool)
      | .error e pool => .error e (.paged pool) := by
  unfold TransformerBackend.inferenceStep
  exact if_neg (not_not.mpr hndim)

/-- A reorder that raises does so before the block runs. -/
theorem raisesFirst_of_reorder {pool₁ : PagedKVPool α cfg} {exc : PyExc}
    (hndim : hiddenStates.shape.length = 3)
    (hreorder : reorderSlot info.cacheHandle hypoIds pool = .error exc pool₁) :
    RaisesFirst backend hiddenStates hypoIds info shared pool := by
  refine ⟨exc, fun block _ => ⟨pool₁, ?_⟩⟩
  rw [inferenceStep_paged hndim, pagedInferenceStep_of_error hreorder]

/-- A consumer finds no dict. -/
theorem raisesFirst_of_consumer {pool₁ : PagedKVPool α cfg}
    (hfits : StepFits maxLength slot hiddenStates hypoIds info p n)
    (hprep : Prepared maxLength backend hiddenStates hypoIds info slot pool slots cache
      maxChunkLength past)
    (hreorder : reorderSlot info.cacheHandle hypoIds pool = .ok () pool₁)
    (hrole : backend.module.role.isConsumer) :
    RaisesFirst backend hiddenStates hypoIds info shared pool := by
  obtain ⟨layerType, hconsumer⟩ := hrole
  obtain ⟨width, hshape⟩ := hfits.shape
  obtain ⟨-, hn⟩ := hfits.pos
  obtain ⟨-, hgather⟩ := hprep.represents pool₁ hreorder
  refine ⟨.keyError, fun block hblock => ⟨pool₁, ?_⟩⟩
  have hraise : ∀ hiddenStates layerPast perLayerInput,
      (backend.withModule block).forwardAlone hiddenStates layerPast perLayerInput ()
        = .error .keyError := by
    intro hiddenStates layerPast perLayerInput
    rw [TransformerBackend.forwardAlone, TransformerBackend.forward_of_missing
      (hblock.trans hconsumer) rfl]
    rfl
  have hloop : forwardChunked (backend.withModule block).forwardAlone hiddenStates (some [past])
      maxChunkLength none () = .error .keyError :=
    forwardChunked_error hraise (by rw [hshape]; exact hn)
      (TransformerBackend.estimateMaxChunkLength_pos hprep.estimate) _ _
  rw [inferenceStep_paged (by rw [hshape]; rfl),
    pagedInferenceStep_of (backend.withModule block) hreorder hprep.estimate hgather,
    hloop]
  rfl

/-- What the step on contiguous caches returns. -/
theorem inferenceStep_contiguous {store' : KVStore α cfg} {output : Tensor α}
    {produced : List (Tensor α)} {shared' : SharedKvStates κ α}
    (hsame : SameCaches maxLength pool cacheTensors slots)
    (hslot : slots info.cacheHandle = some slot)
    (hfits : StepFits maxLength slot hiddenStates hypoIds info p n) :
    backend.inferenceStep hiddenStates hypoIds info shared (.contiguous cacheTensors)
        = .ok (output, produced, shared') store' ↔
      ∃ cache', backend.contiguousInferenceStep hiddenStates hypoIds info shared slot.cacheTensors
          = .ok (output, shared', cache') ∧
        produced = extractProducedSharedKv shared' shared.keys ∧
        store' = .contiguous (cacheTensors.insert info.cacheHandle cache') := by
  obtain ⟨width, hshape⟩ := hfits.shape
  have hndim : hiddenStates.shape.length = 3 := by rw [hshape]; rfl
  have hlookup : cacheTensors.lookup info.cacheHandle = some slot.cacheTensors := by
    rw [hsame.lookup, hslot]
    rfl
  rw [TransformerBackend.inferenceStep, if_neg (not_not.mpr hndim)]
  simp only [hlookup]
  cases backend.contiguousInferenceStep hiddenStates hypoIds info shared slot.cacheTensors with
  | error exc =>
    constructor
    · intro h
      nomatch h
    · rintro ⟨_, h, -⟩
      nomatch h
  | ok r =>
    obtain ⟨output₁, shared₁, cache₁⟩ := r
    constructor
    · intro h
      cases h
      exact ⟨cache₁, rfl, rfl, rfl⟩
    · rintro ⟨cache', h, rfl, rfl⟩
      cases h
      rfl

/-- The caches after the step hold the same again. -/
theorem SameCaches.update {cache' : List (KVPair α)} {pool' : PagedKVPool α cfg} {length : Nat}
    (hsame : SameCaches maxLength pool cacheTensors slots)
    (hrep : Represents maxLength pool' (Function.update
      (Function.update slots info.cacheHandle (some { slot with cacheTensors := cache }))
      info.cacheHandle (some ⟨slot.batchSize, length, cache'⟩))) :
    SameCaches maxLength pool' (cacheTensors.insert info.cacheHandle cache') (Function.update
      (Function.update slots info.cacheHandle (some { slot with cacheTensors := cache }))
      info.cacheHandle (some ⟨slot.batchSize, length, cache'⟩)) := by
  refine ⟨hrep, fun handle => ?_⟩
  by_cases hne : handle = info.cacheHandle
  · subst hne
    rw [AList.lookup_insert, Function.update_self]
    rfl
  · rw [AList.lookup_insert_ne hne, Function.update_of_ne hne, Function.update_of_ne hne,
      hsame.lookup]

omit [Zero α] in
/-- A step returns no donor tensors if its donors are seeded. -/
theorem extractProducedSharedKv_write {role : KVRole κ} {kv : Option (KVPair α)}
    (hdonor : ∀ layerType, role = .donor layerType → layerType ∈ shared) :
    extractProducedSharedKv (role.write kv shared) shared.keys = [] := by
  rcases kv with _ | kv
  · rw [KVRole.write_none, extractProducedSharedKv_self]
  cases role with
  | ordinary => exact extractProducedSharedKv_self shared
  | consumer layerType => exact extractProducedSharedKv_self shared
  | donor layerType =>
    show extractProducedSharedKv (shared.insert layerType kv) shared.keys = []
    rw [extractProducedSharedKv_insert, if_pos (hdonor layerType rfl)]

/-- **A faithful step**, behind a reorder that had its pages: it returns the same and leaves the
    same, and it raises where the other raises. -/
theorem pagedAgrees_of_reorder {pool₁ : PagedKVPool α cfg}
    (hsame : SameCaches maxLength pool cacheTensors slots)
    (hslot : slots info.cacheHandle = some slot)
    (hfits : StepFits maxLength slot hiddenStates hypoIds info p n)
    (hblock : backend.module.Lengthens cfg) (hrole : ¬ backend.module.role.isConsumer)
    (hreorder : reorderSlot info.cacheHandle hypoIds pool = .ok () pool₁)
    (hinput : info.perLayerInput = none)
    (hdonor : ∀ layerType, backend.module.role = .donor layerType → layerType ∈ shared)
    (hroom : HasRoom info.cacheHandle (p + n) pool₁) :
    PagedAgrees maxLength backend hiddenStates hypoIds info shared pool cacheTensors := by
  obtain ⟨cache, maxChunkLength, past, hprep, hpast⟩ := exists_prepared hsame hslot hfits backend
  obtain ⟨width, hshape⟩ := hfits.shape
  obtain ⟨hbatch, hn⟩ := hfits.pos
  have hndim : hiddenStates.shape.length = 3 := by rw [hshape]; rfl
  obtain ⟨hrep, hgather⟩ := hprep.represents pool₁ hreorder
  have hpaged := pagedInferenceStep_of backend hreorder hprep.estimate hgather
  rw [forwardChunked_alone backend hrole _ _ _ shared] at hpaged
  have hcontiguous : backend.contiguousInferenceStep hiddenStates hypoIds info shared
      slot.cacheTensors = _ := contiguousInferenceStep_of hprep
  rw [hinput] at hcontiguous
  cases hrun : forwardChunked backend.module.forward hiddenStates (some [past]) maxChunkLength none
    shared with
  | error exc =>
    rw [hrun] at hpaged hcontiguous
    refine ⟨fun output produced shared' cacheTensors' h => ?_, fun _ _ _ => ⟨exc, .paged pool₁, ?_⟩⟩
    · obtain ⟨cache', hstep, -⟩ := (inferenceStep_contiguous hsame hslot hfits).mp h
      rw [hcontiguous] at hstep
      nomatch hstep
    · rw [inferenceStep_paged hndim, hpaged]
      rfl
  | ok r =>
    have hkvs : PastShape cfg slot.batchSize (p + n) r.2.1 :=
      forwardChunked_lengthens hshape (TransformerBackend.estimateMaxChunkLength_pos hprep.estimate)
        (fun _ _ _ _ _ _ _ hchunk hlayerPast h => forward_lengthens hrole hblock hchunk hlayerPast h)
        hpast hrun
    obtain ⟨cache₂, hwrite, hpages⟩ := write_sides hrep (Function.update_self _ _ _) hbatch hn
      hfits.le_length hfits.fits hkvs
    obtain ⟨-, pool₂, slots₂, hwritePaged, hrep₂, rfl⟩ :=
      hpages.resolve_right fun hno => hno.1 hroom
    rw [hrun] at hpaged hcontiguous
    have hcontiguous : backend.contiguousInferenceStep hiddenStates hypoIds info shared
        slot.cacheTensors = .ok (r.1, r.2.2, cache₂) := by
      rw [hcontiguous, hfits.prefixLength]
      show (TransformerBackend.writeBack cache r.2.1 p).map _ = _
      rw [hwrite]
      rfl
    have hpaged : backend.pagedInferenceStep hiddenStates hypoIds info pool = .ok r.1 pool₂ := by
      rw [hpaged, hfits.prefixLength]
      exact bind_of_ok hwritePaged
    refine ⟨fun output produced shared' cacheTensors' h => Or.inl ?_, fun exc store' h => ?_⟩
    · obtain ⟨cache', hstep, rfl, hstore⟩ := (inferenceStep_contiguous hsame hslot hfits).mp h
      obtain rfl := KVStore.contiguous.inj hstore
      obtain ⟨kv, hshared, -⟩ := TransformerBackend.contiguousInferenceStep_transfer rfl hstep
      rw [hcontiguous] at hstep
      cases hstep
      refine ⟨shared, pool₂, _, ?_, hsame.update hrep₂⟩
      rw [inferenceStep_paged hndim, hpaged, hshared, extractProducedSharedKv_write hdonor]
    · rw [(inferenceStep_contiguous hsame hslot hfits).mpr ⟨_, hcontiguous, rfl, rfl⟩] at h
      nomatch h

theorem pagedAgrees_of_faithful (hsame : SameCaches maxLength pool cacheTensors slots)
    (hslot : slots info.cacheHandle = some slot)
    (hfits : StepFits maxLength slot hiddenStates hypoIds info p n)
    (hblock : backend.module.Lengthens cfg)
    (hfaithful : PagedFaithful backend.module.role hypoIds info shared (p + n) pool) :
    PagedAgrees maxLength backend hiddenStates hypoIds info shared pool cacheTensors := by
  have hfirst : RaisesFirst backend hiddenStates hypoIds info shared pool →
      PagedAgrees maxLength backend hiddenStates hypoIds info shared pool cacheTensors := by
    rintro ⟨exc, hraise⟩
    refine ⟨fun _ _ _ _ _ => Or.inr ⟨exc, hraise⟩, fun _ _ _ => ?_⟩
    obtain ⟨pool', hpool'⟩ := hraise backend.module rfl
    exact ⟨exc, _, hpool'⟩
  cases hreorder : reorderSlot info.cacheHandle hypoIds pool with
  | error exc pool₁ =>
    obtain ⟨width, hshape⟩ := hfits.shape
    exact hfirst (raisesFirst_of_reorder (by rw [hshape]; rfl) hreorder)
  | ok u pool₁ =>
    by_cases hrole : backend.module.role.isConsumer
    · obtain ⟨cache, maxChunkLength, past, hprep, -⟩ := exists_prepared hsame hslot hfits backend
      exact hfirst (raisesFirst_of_consumer hfits hprep hreorder hrole)
    · obtain ⟨hinput, hdonor, hroom⟩ := (hfaithful pool₁ hreorder).resolve_left hrole
      exact pagedAgrees_of_reorder hsame hslot hfits hblock hrole hreorder hinput hdonor hroom

end Step

end Drift
