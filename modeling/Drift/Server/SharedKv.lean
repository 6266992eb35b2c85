/-
  How a step touches `shared_kv_states`.

  A block reads at most one entry of the dict (`KVRole.read`) and writes at most one
  (`KVRole.write`), whatever the chunking of its input.  So what a step does on one dict says what
  it does on every other dict with the same entry to read (`inferenceStep_transfer`): the two
  branches of a step, which hand the blocks different dicts, are compared with this one lemma.
-/
import Drift.Server.BlockFunctions

namespace Drift

/-! ## The dict as a finite map -/

section Dict

variable {κ α : Type} [LinearOrder κ]

theorem mem_keys_congr {shared shared' : SharedKvStates κ α}
    (h : ∀ k, shared.lookup k = shared'.lookup k) (k : κ) :
    k ∈ shared.keys ↔ k ∈ shared'.keys := by
  rw [← AList.mem_keys, ← AList.mem_keys, ← AList.lookup_isSome, ← AList.lookup_isSome, h]

/-- Equal dicts are sent as equal messages. -/
theorem flattenSharedKv_congr {shared shared' : SharedKvStates κ α}
    (h : ∀ k, shared.lookup k = shared'.lookup k) :
    flattenSharedKv shared = flattenSharedKv shared' := by
  have hkeys : pySorted shared.keys = pySorted shared'.keys :=
    pySorted_congr shared.keys_nodup shared'.keys_nodup (mem_keys_congr h)
  rw [flattenSharedKv, flattenSharedKv, hkeys, kvTensors, kvTensors, funext h]

theorem isEmpty_keys_congr {shared shared' : SharedKvStates κ α}
    (h : ∀ k, shared.lookup k = shared'.lookup k) :
    shared.keys.isEmpty = shared'.keys.isEmpty :=
  ((List.perm_ext_iff_of_nodup shared.keys_nodup shared'.keys_nodup).mpr
    (mem_keys_congr h)).isEmpty_eq

omit [LinearOrder κ] in
theorem pairTensors_flatMap : ∀ kvs : List (KVPair α),
    pairTensors (kvs.flatMap fun kv => [kv.1, kv.2]) = kvs
  | [] => rfl
  | kv :: kvs => congrArg (kv :: ·) (pairTensors_flatMap kvs)

/-- A dict has nothing new over itself. -/
theorem extractProducedSharedKv_self (shared : SharedKvStates κ α) :
    extractProducedSharedKv shared shared.keys = [] := by
  have hnone : shared.keys.filter (· ∉ shared.keys) = [] :=
    List.filter_eq_nil_iff.mpr fun k hk => by simpa using hk
  rw [extractProducedSharedKv, hnone]
  rfl

/-- What a dict with one more entry has over itself. -/
theorem extractProducedSharedKv_insert (shared : SharedKvStates κ α) (layerType : κ)
    (kv : KVPair α) :
    extractProducedSharedKv (shared.insert layerType kv) shared.keys =
      if layerType ∈ shared then [] else [kv.1, kv.2] := by
  have hrest : (shared.keys.erase layerType).filter (· ∉ shared.keys) = [] :=
    List.filter_eq_nil_iff.mpr fun k hk => by simpa using List.mem_of_mem_erase hk
  rw [extractProducedSharedKv, AList.keys_insert, List.filter_cons, hrest]
  by_cases hmem : layerType ∈ shared
  · rw [if_pos hmem, if_neg (by simpa using AList.mem_keys.mp hmem)]
    rfl
  · rw [if_neg hmem, if_pos (by simpa using fun hk => hmem (AList.mem_keys.mpr hk))]
    have hone : pySorted [layerType] = [layerType] := rfl
    rw [hone, kvTensors, List.filterMap_cons, AList.lookup_insert]
    rfl

/-- Items that agree with a dict on their keys, put into another one. -/
theorem lookup_updateShared {source : SharedKvStates κ α} :
    ∀ {items : List (κ × KVPair α)} {shared : SharedKvStates κ α},
      (∀ item ∈ items, source.lookup item.1 = some item.2) → ∀ k,
      (updateShared shared items).lookup k =
        if k ∈ items.map Prod.fst then source.lookup k else shared.lookup k
  | [], _, _, k => by simp [updateShared]
  | item :: items, shared, h, k => by
    have hitem : source.lookup item.1 = some item.2 := h item List.mem_cons_self
    have hrec : (updateShared (shared.insert item.1 item.2) items).lookup k =
        if k ∈ items.map Prod.fst then source.lookup k
        else (shared.insert item.1 item.2).lookup k :=
      lookup_updateShared (fun item hi => h item (List.mem_cons_of_mem _ hi)) k
    rw [updateShared, List.foldl_cons, ← updateShared, hrec]
    by_cases hmem : k ∈ items.map Prod.fst
    · rw [if_pos hmem, List.map_cons, if_pos (List.mem_cons_of_mem _ hmem)]
    · rw [if_neg hmem, List.map_cons]
      by_cases hk : k = item.1
      · rw [hk, AList.lookup_insert, if_pos List.mem_cons_self, hitem]
      · have hnot : k ∉ item.1 :: items.map Prod.fst := by simp [hk, hmem]
        rw [if_neg hnot, AList.lookup_insert_ne hk]

/-- The keys and values of keys of the dict, paired again. -/
theorem zip_pairTensors_kvTensors {shared : SharedKvStates κ α} :
    ∀ {keys : List κ}, (∀ k ∈ keys, k ∈ shared) →
      (kvTensors shared keys).length = 2 * keys.length ∧
      (keys.zip (pairTensors (kvTensors shared keys))).map Prod.fst = keys ∧
      ∀ item ∈ keys.zip (pairTensors (kvTensors shared keys)), shared.lookup item.1 = some item.2
  | [], _ => ⟨rfl, rfl, fun _ h => nomatch h⟩
  | k :: keys, h => by
    have hkeys : ∀ k ∈ keys, k ∈ shared := fun k hk => h k (List.mem_cons_of_mem _ hk)
    obtain ⟨hlen, hkeys, hitems⟩ := zip_pairTensors_kvTensors hkeys
    obtain ⟨kv, hkv⟩ := Option.isSome_iff_exists.mp
      (AList.lookup_isSome.mpr (h k List.mem_cons_self))
    have htensors : kvTensors shared (k :: keys) = kv.1 :: kv.2 :: kvTensors shared keys := by
      rw [kvTensors, List.filterMap_cons, hkv]
      rfl
    rw [htensors]
    refine ⟨?_, ?_, fun item hitem => ?_⟩
    · rw [List.length_cons, List.length_cons, hlen, List.length_cons]
      omega
    · rw [pairTensors, List.zip_cons_cons, List.map_cons, hkeys]
    · rw [pairTensors, List.zip_cons_cons] at hitem
      rcases List.mem_cons.mp hitem with rfl | hitem
      · exact hkv
      · exact hitems item hitem

end Dict

/-! ## One block and the dict -/

namespace KVRole

variable {κ α : Type} [DecidableEq κ]

/-- The entry that a block reads. -/
def read (role : KVRole κ) (shared : SharedKvStates κ α) : Option (KVPair α) :=
  match role with
  | .consumer layerType => shared.lookup layerType
  | _ => none

/-- The dict after a block has stored `kv`. -/
def write (role : KVRole κ) (kv : Option (KVPair α)) (shared : SharedKvStates κ α) :
    SharedKvStates κ α :=
  match role, kv with
  | .donor layerType, some kv => shared.insert layerType kv
  | _, _ => shared

/-- A donor that has run has stored its keys and values. -/
def Stored (role : KVRole κ) (kv : Option (KVPair α)) : Prop :=
  ∀ layerType, role = .donor layerType → kv.isSome

@[simp] theorem write_none (role : KVRole κ) (shared : SharedKvStates κ α) :
    role.write none shared = shared := by
  cases role <;> rfl

end KVRole

section Transfer

variable {κ α : Type}

/-- One call of a block, on two dicts with the same entry to read. -/
theorem forward_transfer [DecidableEq κ] {block : BlockModule κ α} {shared₁ shared₂ :
    SharedKvStates κ α} {stored : Option (KVPair α)}
    (hread : block.role.read shared₁ = block.role.read shared₂)
    {hiddenStates output : Tensor α} {layerPast newKvs : LayerPast α}
    {perLayerInput : Option (Tensor α)} {shared : SharedKvStates κ α}
    (h : block.forward hiddenStates layerPast perLayerInput (block.role.write stored shared₁)
      = .ok (output, newKvs, shared)) :
    ∃ kv, shared = block.role.write kv shared₁ ∧ block.role.Stored kv ∧
      output.shape = hiddenStates.shape ∧
      block.forward hiddenStates layerPast perLayerInput (block.role.write stored shared₂)
        = .ok (output, newKvs, block.role.write kv shared₂) := by
  unfold BlockModule.forward at h ⊢
  cases hrole : block.role with
  | ordinary =>
    simp only [hrole] at h ⊢
    obtain ⟨r, hr, h⟩ := except_bind_eq_ok.mp h
    cases h
    refine ⟨none, rfl, fun _ he => (nomatch he), block.shape_run _ _ _ _ _ hr, ?_⟩
    rw [hr]
    rfl
  | donor layerType =>
    simp only [hrole] at h ⊢
    obtain ⟨r, hr, h⟩ := except_bind_eq_ok.mp h
    cases h
    have hinsert : ∀ shared : SharedKvStates κ α,
        (KVRole.write (.donor layerType) stored shared).insert layerType r.2.2 =
          KVRole.write (.donor layerType) (some r.2.2) shared := by
      intro shared
      cases stored with
      | none => rfl
      | some kv => exact AList.insert_insert shared
    refine ⟨some r.2.2, hinsert shared₁, fun _ _ => rfl, block.shape_run _ _ _ _ _ hr, ?_⟩
    rw [hr, ← hinsert]
    rfl
  | consumer layerType =>
    have hlookup : shared₁.lookup layerType = shared₂.lookup layerType := by
      simpa only [KVRole.read, hrole] using hread
    simp only [hrole, KVRole.write] at h ⊢
    rw [← hlookup]
    cases hkv : shared₁.lookup layerType with
    | none =>
      simp only [hkv] at h
      nomatch h
    | some kv =>
      simp only [hkv] at h ⊢
      obtain ⟨r, hr, h⟩ := except_bind_eq_ok.mp h
      cases h
      refine ⟨none, rfl, fun _ he => (nomatch he), block.shape_run _ _ _ _ _ hr, ?_⟩
      rw [hr]
      rfl

/-- The chunk loop, on two dicts with the same entry to read. -/
theorem forwardChunks_transfer [DecidableEq κ] [Zero α] {block : BlockModule κ α}
    {shared₁ shared₂ : SharedKvStates κ α}
    (hread : block.role.read shared₁ = block.role.read shared₂) {hiddenStates result : Tensor α}
    {perLayerInput : Option (Tensor α)} {seqLen maxChunkLength : Nat} {newKvs : LayerPast α}
    {shared : SharedKvStates κ α} :
    ∀ {offsets : List Nat} {output : Tensor α} {layerPast : LayerPast α}
      {stored : Option (KVPair α)}, offsets ≠ [] ∨ block.role.Stored stored →
      forwardChunks block.forward hiddenStates perLayerInput seqLen maxChunkLength offsets output
        layerPast (block.role.write stored shared₁) = .ok (result, newKvs, shared) →
      ∃ kv, shared = block.role.write kv shared₁ ∧ block.role.Stored kv ∧
        forwardChunks block.forward hiddenStates perLayerInput seqLen maxChunkLength offsets output
          layerPast (block.role.write stored shared₂)
          = .ok (result, newKvs, block.role.write kv shared₂)
  | [], output, layerPast, stored, hstored, h => by
    cases h
    exact ⟨stored, rfl, hstored.resolve_left (fun hne => hne rfl), rfl⟩
  | offset :: offsets, output, layerPast, stored, _, h => by
    obtain ⟨⟨chunk, kvs, shared'⟩, hchunk, h⟩ := except_bind_eq_ok.mp h
    obtain ⟨output', hstore, h⟩ := except_bind_eq_ok.mp h
    obtain ⟨kv, rfl, hkv, _, hchunk₂⟩ := forward_transfer hread hchunk
    obtain ⟨kv', hshared, hkv', hrest⟩ := forwardChunks_transfer hread (.inr hkv) h
    refine ⟨kv', hshared, hkv', ?_⟩
    rw [forwardChunks]
    exact except_bind_eq_ok.mpr ⟨_, hchunk₂, except_bind_eq_ok.mpr ⟨output', hstore, hrest⟩⟩

theorem shape_storeChunk [Zero α] {seqLen maxChunkLength offset : Nat}
    {chunk output output' : Tensor α} (hlt : maxChunkLength < seqLen)
    (h : storeChunk seqLen maxChunkLength offset chunk output = .ok output') :
    output'.shape = output.shape := by
  rw [storeChunk, if_pos hlt] at h
  cases hassign : Tensor.assignSlice 1 offset ((offset + maxChunkLength : Nat) : Int) chunk output with
  | none =>
    rw [hassign] at h
    nomatch h
  | some t =>
    rw [hassign] at h
    cases h
    exact Tensor.shape_assignSlice hassign

/-- The chunked forward pass keeps the shape of the hidden states. -/
theorem shape_forwardChunks [Zero α] {δ : Type} {forward : ModuleForward δ α}
    {hiddenStates : Tensor α} {perLayerInput : Option (Tensor α)} {seqLen maxChunkLength : Nat}
    (hlt : maxChunkLength < seqLen) : ∀ {offsets : List Nat} {output : Tensor α}
      {layerPast : LayerPast α} {shared : δ} {r : Tensor α × LayerPast α × δ},
      forwardChunks forward hiddenStates perLayerInput seqLen maxChunkLength offsets output
        layerPast shared = .ok r → r.1.shape = output.shape
  | [], _, _, _, _, h => by
    cases h
    rfl
  | offset :: offsets, output, _, _, _, h => by
    obtain ⟨⟨chunk, kvs, shared'⟩, _, h⟩ := except_bind_eq_ok.mp h
    obtain ⟨output', hstore, h⟩ := except_bind_eq_ok.mp h
    exact (shape_forwardChunks hlt h).trans (shape_storeChunk hlt hstore)

/-- Chunked or not, a block whose outputs are of the shape of its inputs stays one. -/
theorem shape_forwardChunked [Zero α] {δ : Type} {forward : ModuleForward δ α}
    (hshape : ∀ hiddenStates layerPast perLayerInput shared r,
      forward hiddenStates layerPast perLayerInput shared = .ok r → r.1.shape = hiddenStates.shape)
    {hiddenStates : Tensor α} {layerPast : LayerPast α} {perLayerInput : Option (Tensor α)}
    {maxChunkLength : Nat} {shared : δ} {r : Tensor α × LayerPast α × δ}
    (h : forwardChunked forward hiddenStates layerPast maxChunkLength perLayerInput shared = .ok r) :
    r.1.shape = hiddenStates.shape := by
  simp only [forwardChunked] at h
  split at h
  · nomatch h
  · rename_i hpos
    by_cases hlt : maxChunkLength < hiddenStates.shape.getD 1 0
    · exact (shape_forwardChunks hlt h).trans (Tensor.shape_zeros _)
    · rw [pyRangeStep_of_le (by omega) (by omega)] at h
      obtain ⟨⟨chunk, kvs, shared'⟩, hchunk, h⟩ := except_bind_eq_ok.mp h
      obtain ⟨output', hstore, h⟩ := except_bind_eq_ok.mp h
      cases h
      rw [storeChunk, if_neg hlt] at hstore
      cases hstore
      have hone := hshape _ _ _ _ _ hchunk
      rw [hone]
      exact Tensor.shape_slice_all (by omega)

/-- A block that raises on every chunk raises on the whole input. -/
theorem forwardChunked_ne_ok [Zero α] {δ : Type} {forward : ModuleForward δ α} {shared : δ}
    (hraise : ∀ hiddenStates layerPast perLayerInput r,
      forward hiddenStates layerPast perLayerInput shared ≠ .ok r)
    {hiddenStates : Tensor α} {layerPast : LayerPast α} {perLayerInput : Option (Tensor α)}
    {maxChunkLength : Nat} (hpos : 0 < maxChunkLength) (r : Tensor α × LayerPast α × δ) :
    forwardChunked forward hiddenStates layerPast maxChunkLength perLayerInput shared ≠ .ok r := by
  intro h
  simp only [forwardChunked] at h
  split at h
  · nomatch h
  · rename_i hne
    cases hoffsets : pyRangeStep (hiddenStates.shape.getD 1 0) maxChunkLength with
    | nil => exact pyRangeStep_ne_nil (by omega) hpos hoffsets
    | cons offset offsets =>
      rw [hoffsets] at h
      obtain ⟨_, hchunk, _⟩ := except_bind_eq_ok.mp h
      exact hraise _ _ _ _ hchunk

end Transfer

/-! ## One step of a block and the dict -/

/-- The server keeps its caches in pages. -/
def KVStore.isPaged {α : Type} {cfg : PoolConfig} : KVStore α cfg → Bool
  | .contiguous _ => false
  | .paged _ => true

namespace TransformerBackend

variable {κ α : Type} [LinearOrder κ] [Zero α] {cfg : PoolConfig}
  {backend : TransformerBackend κ α} {hiddenStates output : Tensor α} {hypoIds : List Int}
  {info : InferenceMetadata α} {shared shared₁ shared₂ : SharedKvStates κ α}

omit [LinearOrder κ] [Zero α] in
/-- A chunk has at least one token, so the loop over chunks moves on. -/
theorem estimateMaxChunkLength_pos {n : Nat} {prefixLength : Int}
    (h : backend.estimateMaxChunkLength hiddenStates prefixLength = .ok n) : 0 < n := by
  simp only [estimateMaxChunkLength] at h
  split at h
  · nomatch h
  · cases h
    omega

omit [LinearOrder κ] [Zero α] in
theorem estimateMaxChunkLength_ok (backend : TransformerBackend κ α) {hiddenStates : Tensor α}
    {batch length width : Nat} (start : Nat) (hshape : hiddenStates.shape = [batch, length, width])
    (hbatch : 0 < batch) (hlength : 0 < length) :
    ∃ c, backend.estimateMaxChunkLength hiddenStates start = .ok c := by
  have hheads := backend.numHeads_pos
  have hbytes := backend.dtypeBytes_pos
  have hper : 0 < backend.shardNumHeads.foldl max 0 * batch * backend.dtypeBytes :=
    Nat.mul_pos (Nat.mul_pos hheads hbatch) hbytes
  simp only [TransformerBackend.estimateMaxChunkLength, hshape]
  rw [if_neg]
  · exact ⟨_, rfl⟩
  · refine Int.ne_of_gt (Int.mul_pos (by exact_mod_cast hper) ?_)
    show (0 : Int) < (start : Int) + (length : Int)
    omega

omit [Zero α] in
theorem shape_forward {newKvs layerPast : LayerPast α} {perLayerInput : Option (Tensor α)}
    (h : backend.module.forward hiddenStates layerPast perLayerInput shared₁
      = .ok (output, newKvs, shared)) : output.shape = hiddenStates.shape := by
  rw [← KVRole.write_none backend.module.role shared₁] at h
  obtain ⟨_, _, _, hshape, _⟩ := forward_transfer rfl h
  exact hshape

omit [Zero α] in
/-- A consumer whose donor's entry is missing raises. -/
theorem forward_of_missing {layerType : κ} (hrole : backend.module.role = .consumer layerType)
    (hmissing : shared.lookup layerType = none) (layerPast : LayerPast α)
    (perLayerInput : Option (Tensor α)) :
    backend.module.forward hiddenStates layerPast perLayerInput shared = .error .keyError := by
  rw [BlockModule.forward]
  simp only [hrole, hmissing]

/-- The step on contiguous caches, on two dicts with the same entry to read. -/
theorem contiguousInferenceStep_transfer {cache cache' : List (KVPair α)}
    (hread : backend.module.role.read shared₁ = backend.module.role.read shared₂)
    (h : backend.contiguousInferenceStep hiddenStates hypoIds info shared₁ cache
      = .ok (output, shared, cache')) :
    ∃ kv, shared = backend.module.role.write kv shared₁ ∧ backend.module.role.Stored kv ∧
      output.shape = hiddenStates.shape ∧
      backend.contiguousInferenceStep hiddenStates hypoIds info shared₂ cache
        = .ok (output, backend.module.role.write kv shared₂, cache') := by
  obtain ⟨cache₁, hreorder, h⟩ := except_bind_eq_ok.mp h
  obtain ⟨n, hn, h⟩ := except_bind_eq_ok.mp h
  obtain ⟨⟨o, newKvs, d⟩, hforward, h⟩ := except_bind_eq_ok.mp h
  obtain ⟨cache₂, hwrite, h⟩ := except_bind_eq_ok.mp h
  cases h
  have hshape := shape_forwardChunked
    (fun _ _ _ _ ⟨_, _, _⟩ hr => shape_forward hr) hforward
  have hpos := estimateMaxChunkLength_pos hn
  simp only [forwardChunked] at hforward
  split at hforward
  · nomatch hforward
  · rename_i hne
    rw [← KVRole.write_none backend.module.role shared₁] at hforward
    obtain ⟨kv, hkv, hstored, hforward₂⟩ :=
      forwardChunks_transfer hread (.inl (pyRangeStep_ne_nil (by omega) hpos)) hforward
    refine ⟨kv, hkv, hstored, hshape, ?_⟩
    rw [KVRole.write_none] at hforward₂
    rw [contiguousInferenceStep]
    refine except_bind_eq_ok.mpr ⟨cache₁, hreorder, except_bind_eq_ok.mpr ⟨n, hn,
      except_bind_eq_ok.mpr ⟨(output, newKvs, _), ?_, except_bind_eq_ok.mpr ⟨cache', hwrite, rfl⟩⟩⟩⟩
    rw [forwardChunked, if_neg hne]
    exact hforward₂

/-- In pages a block runs without the dict. -/
theorem pagedInferenceStep_ok {pool pool' : PagedKVPool α cfg}
    (h : backend.pagedInferenceStep hiddenStates hypoIds info pool = .ok output pool') :
    ∃ n layerPast newKvs, 0 < n ∧
      forwardChunked backend.forwardAlone hiddenStates layerPast n none ()
        = .ok (output, newKvs, ()) := by
  obtain ⟨_, _, _, h⟩ := bind_eq_ok.mp h
  obtain ⟨n, _, hn, h⟩ := bind_eq_ok.mp h
  obtain ⟨_, _, _, h⟩ := bind_eq_ok.mp h
  obtain ⟨layerPast, _, _, h⟩ := bind_eq_ok.mp h
  obtain ⟨⟨o, newKvs, _⟩, _, hforward, h⟩ := bind_eq_ok.mp h
  obtain ⟨_, _, _, h⟩ := bind_eq_ok.mp h
  cases h
  exact ⟨n, _, newKvs, estimateMaxChunkLength_pos (liftExcept_eq_ok.mp hn).1,
    (liftExcept_eq_ok.mp hforward).1⟩

omit [Zero α] in
theorem shape_forwardAlone {layerPast : LayerPast α} {perLayerInput : Option (Tensor α)}
    {r : Tensor α × LayerPast α × Unit}
    (h : backend.forwardAlone hiddenStates layerPast perLayerInput () = .ok r) :
    r.1.shape = hiddenStates.shape := by
  obtain ⟨⟨o, newKvs, d⟩, hforward, h⟩ := except_bind_eq_ok.mp h
  cases h
  exact shape_forward hforward

/-- **One step, on two dicts with the same entry to read**: the same outputs and caches, and
    the same entry written. -/
theorem inferenceStep_transfer {store store' : KVStore α cfg} {produced : List (Tensor α)}
    (hread : backend.module.role.read shared₁ = backend.module.role.read shared₂)
    (h : backend.inferenceStep hiddenStates hypoIds info shared₁ store
      = .ok (output, produced, shared) store') :
    ∃ kv, shared = backend.module.role.write kv shared₁ ∧
      (store.isPaged = false → backend.module.role.Stored kv) ∧
      (store.isPaged = true → kv = none) ∧ store'.isPaged = store.isPaged ∧
      output.shape = hiddenStates.shape ∧
      backend.inferenceStep hiddenStates hypoIds info shared₂ store =
        .ok (output, extractProducedSharedKv (backend.module.role.write kv shared₂) shared₂.keys,
          backend.module.role.write kv shared₂) store' := by
  unfold inferenceStep at h ⊢
  split at h
  · nomatch h
  · rename_i hndim
    rw [if_neg hndim]
    cases store with
    | paged pool =>
      cases hstep : backend.pagedInferenceStep hiddenStates hypoIds info pool with
      | error e pool' =>
        simp only [hstep] at h
        nomatch h
      | ok o pool' =>
        simp only [hstep] at h ⊢
        cases h
        obtain ⟨n, layerPast, newKvs, _, hforward⟩ := pagedInferenceStep_ok hstep
        have hshape := shape_forwardChunked (fun _ _ _ _ r hr => shape_forwardAlone hr) hforward
        refine ⟨none, (KVRole.write_none _ _).symm, fun hp => (nomatch hp), fun _ => rfl, rfl,
          hshape, ?_⟩
        rw [KVRole.write_none, extractProducedSharedKv_self]
    | contiguous cacheTensors =>
      cases hlookup : cacheTensors.lookup info.cacheHandle with
      | none =>
        simp only [hlookup] at h
        nomatch h
      | some cache =>
        cases hstep : backend.contiguousInferenceStep hiddenStates hypoIds info shared₁ cache with
        | error e =>
          simp only [hlookup, hstep] at h
          nomatch h
        | ok r =>
          simp only [hlookup, hstep] at h ⊢
          cases h
          obtain ⟨kv, hkv, hstored, hshape, hstep₂⟩ := contiguousInferenceStep_transfer hread hstep
          refine ⟨kv, hkv, fun _ => hstored, fun hp => (nomatch hp), rfl, hshape, ?_⟩
          rw [hstep₂]

/-- A consumer whose donor's entry is missing raises in any cache. -/
theorem inferenceStep_of_missing {layerType : κ}
    (hrole : backend.module.role = .consumer layerType)
    (hmissing : shared.lookup layerType = none) {store store' : KVStore α cfg}
    (r : Tensor α × List (Tensor α) × SharedKvStates κ α) :
    backend.inferenceStep hiddenStates hypoIds info shared store ≠ .ok r store' := by
  intro h
  unfold inferenceStep at h
  split at h
  · nomatch h
  · cases store with
    | paged pool =>
      cases hstep : backend.pagedInferenceStep hiddenStates hypoIds info pool with
      | error e pool' =>
        simp only [hstep] at h
        nomatch h
      | ok o pool' =>
        obtain ⟨n, layerPast, newKvs, hpos, hforward⟩ := pagedInferenceStep_ok hstep
        refine forwardChunked_ne_ok (fun _ _ _ r hr => ?_) hpos _ hforward
        obtain ⟨_, hmodule, _⟩ := except_bind_eq_ok.mp hr
        rw [forward_of_missing hrole rfl] at hmodule
        nomatch hmodule
    | contiguous cacheTensors =>
      cases hlookup : cacheTensors.lookup info.cacheHandle with
      | none =>
        simp only [hlookup] at h
        nomatch h
      | some cache =>
        cases hstep : backend.contiguousInferenceStep hiddenStates hypoIds info shared cache with
        | error e =>
          simp only [hlookup, hstep] at h
          nomatch h
        | ok r =>
          obtain ⟨_, _, hstep⟩ := except_bind_eq_ok.mp hstep
          obtain ⟨n, hn, hstep⟩ := except_bind_eq_ok.mp hstep
          obtain ⟨_, hforward, _⟩ := except_bind_eq_ok.mp hstep
          refine forwardChunked_ne_ok (fun _ _ _ r hr => ?_) (estimateMaxChunkLength_pos hn) _
            hforward
          rw [forward_of_missing hrole hmissing] at hr
          nomatch hr

end TransformerBackend

end Drift
