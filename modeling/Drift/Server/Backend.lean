/-
  `TransformerBackend` of `server/backend.py`: one transformer block of a server, the attention
  cache it reads and writes, and the step that serves tokens with it.

  The block itself is a module of the deep-learning library, so it stays a parameter: `run` takes
  a chunk of hidden states, the past keys and values and the side inputs, and returns the outputs
  with the keys and values of past and chunk together.  What the backend relies on beside the values
  is how a block takes part in KV sharing: a donor writes its keys and values into
  `shared_kv_states` under its layer type, a consumer reads the entry of its layer type and keeps no
  cache.

  A cache handle names the cache tensors of one block, or its slot in the page pool.  Moves between
  devices and dtypes do not appear, and what a step that raises leaves in its cache tensors is not
  kept: the exception ends the session, which frees them.
-/
import Drift.Cache.ContiguousCache
import Drift.Cache.PagedKVPool
import Mathlib.Data.List.Sort

namespace Drift

/-- `shared_kv_states`: keys and values of the donors, by layer type. -/
abbrev SharedKvStates (κ α : Type) := AList fun _ : κ => KVPair α

/-- `layer_past` and `new_kvs`, one pair per shard; `none` is what a block without a cache
    returns. -/
abbrev LayerPast (α : Type) := Option (List (KVPair α))

/-- `module.forward` on hidden states, `layer_past`, `per_layer_input` and a mutable object that it
    is handed by reference. -/
abbrev ModuleForward (δ α : Type) :=
  Tensor α → LayerPast α → Option (Tensor α) → δ → Except PyExc (Tensor α × LayerPast α × δ)

/-- `is_dummy`. -/
def isDummy {α : Type} (t : Tensor α) : Bool := t.numel = 0

/-- The part of a block in KV sharing: `store_full_length_kv` and `is_kv_shared_layer`, with
    the layer type. -/
inductive KVRole (κ : Type) where
  | ordinary
  | donor (layerType : κ)
  | consumer (layerType : κ)
deriving DecidableEq

/-- A transformer block.  `run` is given the donor's keys and values if the block is a consumer,
    and returns, after the outputs and the new cache, the keys and values that a donor stores. -/
structure BlockModule (κ α : Type) where
  role : KVRole κ
  run : Option (KVPair α) → Tensor α → LayerPast α → Option (Tensor α) →
    Except PyExc (Tensor α × LayerPast α × KVPair α)
  shape_run : ∀ donorKv hiddenStates layerPast perLayerInput r,
    run donorKv hiddenStates layerPast perLayerInput = .ok r → r.1.shape = hiddenStates.shape

namespace BlockModule

variable {κ α : Type} [DecidableEq κ]

/-- `module.forward(..., use_cache=True)`. -/
def forward (block : BlockModule κ α) : ModuleForward (SharedKvStates κ α) α :=
  fun hiddenStates layerPast perLayerInput shared =>
    match block.role with
    | .ordinary => do
      let (output, newKvs, _) ← block.run none hiddenStates layerPast perLayerInput
      pure (output, newKvs, shared)
    | .donor layerType => do
      let (output, newKvs, kv) ← block.run none hiddenStates layerPast perLayerInput
      pure (output, newKvs, shared.insert layerType kv)
    | .consumer layerType =>
      match shared.lookup layerType with
      | none => .error .keyError
      | some kv => do
        let (output, _, _) ← block.run (some kv) hiddenStates layerPast perLayerInput
        pure (output, none, shared)

end BlockModule

/-! ## Chunks -/

section Chunks

variable {α δ : Type} [Zero α]

/-- `output_hidden_states[:, offset:stop] = chunk`, or the chunk itself when there is only one. -/
def storeChunk (seqLen maxChunkLength offset : Nat) (chunk output : Tensor α) :
    Except PyExc (Tensor α) :=
  if maxChunkLength < seqLen then
    orRaise (.runtimeError "shape mismatch")
      (Tensor.assignSlice 1 offset ((offset + maxChunkLength : Nat) : Int) chunk output)
  else .ok chunk

/-- The loop of `_forward_chunked`: the new keys and values of a chunk are the past of the next. -/
def forwardChunks (forward : ModuleForward δ α) (hiddenStates : Tensor α)
    (perLayerInput : Option (Tensor α)) (seqLen maxChunkLength : Nat) :
    List Nat → Tensor α → LayerPast α → δ → Except PyExc (Tensor α × LayerPast α × δ)
  | [], output, layerPast, shared => .ok (output, layerPast, shared)
  | offset :: offsets, output, layerPast, shared => do
    let cut := Tensor.slice 1 offset ((offset + maxChunkLength : Nat) : Int)
    let (chunk, newKvs, shared) ←
      forward (cut hiddenStates) layerPast (perLayerInput.map cut) shared
    let output ← storeChunk seqLen maxChunkLength offset chunk output
    forwardChunks forward hiddenStates perLayerInput seqLen maxChunkLength offsets output newKvs
      shared

/-- `_forward_chunked`; without a token there is no `new_kvs` to return.  The output starts as
    `empty_like`, every element of which is written. -/
def forwardChunked (forward : ModuleForward δ α) (hiddenStates : Tensor α)
    (layerPast : LayerPast α) (maxChunkLength : Nat) (perLayerInput : Option (Tensor α))
    (shared : δ) : Except PyExc (Tensor α × LayerPast α × δ) :=
  let seqLen := hiddenStates.shape.getD 1 0
  if seqLen = 0 then .error .unboundLocalError
  else forwardChunks forward hiddenStates perLayerInput seqLen maxChunkLength
    (pyRangeStep seqLen maxChunkLength) (Tensor.zeros hiddenStates.shape) layerPast shared

end Chunks

/-! ## The backend -/

/-- A block with what its chunk length is computed from. -/
structure TransformerBackend (κ α : Type) where
  module : BlockModule κ α
  shardNumHeads : List Nat
  dtypeBytes : Nat
  maxChunkSizeBytes : Nat
  numHeads_pos : 0 < shardNumHeads.foldl max 0
  dtypeBytes_pos : 0 < dtypeBytes

/-- `InferenceMetadata`.  Its `shared_kv_states` is passed beside it: all blocks of one task hold
    the same dict object. -/
structure InferenceMetadata (α : Type) where
  prefixLength : Int
  cacheHandle : Nat
  perLayerInput : Option (Tensor α)

/-- What the cache handles of a server point to: tensors per block, or slots of the page pool. -/
inductive KVStore (α : Type) (cfg : PoolConfig) where
  | contiguous (cacheTensors : AList fun _ : Nat => List (KVPair α))
  | paged (pool : PagedKVPool α cfg)

/-- Code of the runtime process, which owns the caches. -/
abbrev RuntimeM (α : Type) (cfg : PoolConfig) (β : Type) := EStateM PyExc (KVStore α cfg) β

section Produced

variable {κ α : Type} [LinearOrder κ]

/-- Keys are compared by their equality. -/
instance lawfulBEq_key : LawfulBEq κ := inferInstance

/-- `(k0, v0, k1, v1, …)` of the given layer types. -/
def kvTensors (shared : SharedKvStates κ α) (layerTypes : List κ) : List (Tensor α) :=
  (layerTypes.filterMap shared.lookup).flatMap fun kv => [kv.1, kv.2]

/-- `_extract_produced_shared_kv`. -/
def extractProducedSharedKv (shared : SharedKvStates κ α) (seededKeys : List κ) :
    List (Tensor α) :=
  kvTensors shared (pySorted (shared.keys.filter (· ∉ seededKeys)))

end Produced

namespace TransformerBackend

variable {κ α : Type} [LinearOrder κ] [Zero α] {cfg : PoolConfig}

/-- `donor_layer_types`: a block donates no layer type or one. -/
def donorLayerTypes (backend : TransformerBackend κ α) : List κ :=
  match backend.module.role with
  | .donor layerType => [layerType]
  | _ => []

/-- `_estimate_max_chunk_length`. -/
def estimateMaxChunkLength (backend : TransformerBackend κ α) (hiddenStates : Tensor α)
    (prefixLength : Int) : Except PyExc Nat :=
  let batchSize := hiddenStates.shape.getD 0 0
  let seqLength := hiddenStates.shape.getD 1 0
  let attnBytesPerToken : Int :=
    (backend.shardNumHeads.foldl max 0 * batchSize * backend.dtypeBytes : Nat) *
      (prefixLength + seqLength)
  if attnBytesPerToken = 0 then .error .zeroDivisionError
  else .ok (max 1 (Int.fdiv backend.maxChunkSizeBytes attnBytesPerToken)).toNat

/-- `_reorder_cache_inplace`: dummy hypo ids ask for nothing. -/
def reorderCacheInplace (cacheTensors : List (KVPair α)) (hypoIds : List Int) :
    Except PyExc (List (KVPair α)) :=
  if hypoIds = [] then .ok cacheTensors
  else orRaise .indexError (StandardGQACache.reorderCache hypoIds cacheTensors)

/-- The write-back: a consumer returned no keys and values. -/
def writeBack (cacheTensors : List (KVPair α)) (newKvs : LayerPast α) (prefixLength : Int) :
    Except PyExc (List (KVPair α)) :=
  match newKvs with
  | none => .ok cacheTensors
  | some newKvs => orRaise (.runtimeError "shape mismatch")
    (StandardGQACache.updateCache cacheTensors newKvs prefixLength)

/-- The body of `inference_step` under `use_cache`. -/
def contiguousInferenceStep (backend : TransformerBackend κ α) (hiddenStates : Tensor α)
    (hypoIds : List Int) (info : InferenceMetadata α) (shared : SharedKvStates κ α)
    (cacheTensors : List (KVPair α)) :
    Except PyExc (Tensor α × SharedKvStates κ α × List (KVPair α)) := do
  let cacheTensors ← reorderCacheInplace cacheTensors hypoIds
  let maxChunkLength ← backend.estimateMaxChunkLength hiddenStates info.prefixLength
  let layerPast := StandardGQACache.selectLayerPast cacheTensors info.prefixLength
  let (output, newKvs, shared) ← forwardChunked backend.module.forward hiddenStates
    (some layerPast) maxChunkLength info.perLayerInput shared
  let cacheTensors ← writeBack cacheTensors newKvs info.prefixLength
  pure (output, shared, cacheTensors)

/-- `module.forward` without `shared_kv_states`: a dict of its own for every call. -/
def forwardAlone (backend : TransformerBackend κ α) : ModuleForward Unit α :=
  fun hiddenStates layerPast perLayerInput _ => do
    let (output, newKvs, _) ← backend.module.forward hiddenStates layerPast perLayerInput ∅
    pure (output, newKvs, ())

/-- The write-back into the pages. -/
def writeBackPaged (slotId : Nat) (newKvs : LayerPast α) (prefixLength : Int) :
    PoolM α cfg Unit :=
  match newKvs with
  | some [newKvs] => PagedKVPool.scatter slotId newKvs prefixLength
  | _ => throw .typeError

/-- `_paged_inference_step`: neither per-layer inputs nor shared K/V reach the block. -/
def pagedInferenceStep (backend : TransformerBackend κ α) (hiddenStates : Tensor α)
    (hypoIds : List Int) (info : InferenceMetadata α) : PoolM α cfg (Tensor α) := do
  let slotId := info.cacheHandle
  (if hypoIds = [] then pure () else PagedKVPool.reorder slotId hypoIds)
  let maxChunkLength ← liftExcept (backend.estimateMaxChunkLength hiddenStates info.prefixLength)
  let pool ← get
  let layerPast ← liftExcept (pool.gather slotId info.prefixLength)
  let (output, newKvs, _) ← liftExcept
    (forwardChunked backend.forwardAlone hiddenStates (some [layerPast]) maxChunkLength none ())
  writeBackPaged slotId newKvs info.prefixLength
  pure output

/-- `inference_step`: the outputs, the donor keys and values that it newly wrote, and the dict as it
    leaves it. -/
def inferenceStep (backend : TransformerBackend κ α) (hiddenStates : Tensor α)
    (hypoIds : List Int) (info : InferenceMetadata α) (shared : SharedKvStates κ α) :
    RuntimeM α cfg (Tensor α × List (Tensor α) × SharedKvStates κ α) := fun store =>
  if hiddenStates.shape.length ≠ 3 then
    .error (.assertionError "expected hidden states to be 3-dimensional") store
  else match store with
    | .paged pool =>
      match backend.pagedInferenceStep hiddenStates hypoIds info pool with
      | .ok output pool => .ok (output, [], shared) (.paged pool)
      | .error e pool => .error e (.paged pool)
    | .contiguous cacheTensors =>
      match cacheTensors.lookup info.cacheHandle with
      | none => .error .keyError store
      | some cache =>
        match backend.contiguousInferenceStep hiddenStates hypoIds info shared cache with
        | .ok (output, shared', cache) =>
          .ok (output, extractProducedSharedKv shared' shared.keys, shared')
            (.contiguous (cacheTensors.insert info.cacheHandle cache))
        | .error e => .error e store

end TransformerBackend

end Drift
