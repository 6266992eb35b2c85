/-
  Incremental serving against one-shot computation.

  The generator of `iterate_rpc_inference` serves one causal block on a contiguous cache.  Beside
  its state runs the history: the tokens of every row as they stand after the rollbacks and
  reorderings so far.  After every step the cache holds the keys and values of the history
  (`Serves.Holds`), so the outputs of a step are the last positions of what the block computes
  when it is given the whole history at once.

  A step without tokens runs no block: it moves the position, and its hypo ids are not applied.
-/
import Drift.Lib.Run
import Drift.Server.CausalCache
import Drift.Server.MergedStep

namespace Drift

/-- A step of the client: tokens, hypo ids and a rollback. -/
structure TokenStep (α : Type) where
  hiddenStates : Tensor α
  hypoIds : List Int
  startFromPosition : Option Int

/-- The message of a step: no prompts and no side inputs. -/
def TokenStep.request {κ α : Type} (step : TokenStep α) : InferenceRequest κ α where
  hiddenStates := step.hiddenStates
  prompts := []
  hypoIds := step.hypoIds
  perLayerInputs := []
  sharedKvInputTensors := []
  sharedKvKeys := []
  startFromPosition := step.startFromPosition

/-- How many tokens the step has. -/
def TokenStep.length {α : Type} (step : TokenStep α) : Nat := step.hiddenStates.shape.getD 1 0

/-- A server of one causal block: the block with what it computes, the batch size and the limits of
    the session. -/
structure CausalServer (κ α : Type) [LinearOrder κ] [Zero α] where
  backend : TransformerBackend κ α
  spec : CausalSpec α
  causal : IsCausal spec backend.module.forward
  batch : Nat
  maxLength : Nat
  mergeMaxTokens : Nat
  maxBatchSize : Nat
  batch_pos : 0 < batch

variable {κ α : Type} [LinearOrder κ] [Zero α] [Add α] {cfg : PoolConfig}

/-! ## The history -/

/-- The rows after a step: cut at its start, and its tokens behind them. -/
def History.extend (rows : History α) (start : Nat) (hiddenStates : Tensor α) : History α :=
  fun i => (rows i).take start ++
    (List.range (hiddenStates.shape.getD 1 0)).map (hiddenStates.token i)

/-- The position a step starts at. -/
def TokenStep.start (step : TokenStep α) (prefixLength : Int) : Nat :=
  (step.startFromPosition.getD prefixLength).toNat

/-- The history after a step that applies its hypo ids. -/
def TokenStep.permuting (step : TokenStep α) (prefixLength : Int) (rows : History α) : History α :=
  (rows.permute step.hypoIds).extend (step.start prefixLength) step.hiddenStates

/-- The history after a step of the server: hypo ids count only beside tokens. -/
def TokenStep.serving (step : TokenStep α) (prefixLength : Int) (rows : History α) : History α :=
  if step.length = 0 then rows.extend (step.start prefixLength) step.hiddenStates
  else step.permuting prefixLength rows

/-- `n` tokens of every row as hidden states. -/
def History.hiddenStates (rows : History α) (batch n hiddenSize : Nat) : Tensor α :=
  Tensor.ofFn [batch, n, hiddenSize] fun ix =>
    ((rows (ix.getD 0 0)).getD (ix.getD 1 0) []).getD (ix.getD 2 0) 0

namespace CausalServer

/-- The span the generator is called with. -/
def span (server : CausalServer κ α) : InferenceSpan κ α where
  blocks := [(server.backend, 0)]
  maxLength := server.maxLength
  mergeMaxTokens := server.mergeMaxTokens
  maxBatchSize := server.maxBatchSize

/-- The past of a block that has seen nothing. -/
def emptyPast (server : CausalServer κ α) : List (KVPair α) :=
  server.spec.shards.map fun shard =>
    (Tensor.zeros [server.batch * shard.kvHeads, shard.keyDim, 0],
      Tensor.zeros [server.batch * shard.kvHeads, 0, shard.valueDim])

/-- The block applied once to the first `n` tokens of the rows. -/
def oneShot (server : CausalServer κ α) (rows : History α) (n : Nat) :
    Except PyExc (Tensor α) := do
  let hiddenStates := rows.hiddenStates server.batch n server.spec.hiddenSize
  let (output, _, _) ← server.backend.module.forward hiddenStates (some server.emptyPast) none ∅
  pure output

/-- The positions from `start` on of the block applied once to the first `n` tokens. -/
def lastPositions (server : CausalServer κ α) (rows : History α) (start n : Nat) :
    Option (Tensor α) :=
  if n = 0 then some (Tensor.zeros [server.batch, 0, server.spec.hiddenSize])
  else match server.oneShot rows n with
    | .ok full => some (full.slice 1 start n)
    | .error _ => none

end CausalServer

/-! ## The run -/

/-- The generator, the caches, and the history. -/
structure Serving (α : Type) (cfg : PoolConfig) where
  prefixLength : Int
  store : KVStore α cfg
  history : History α

/-- One turn of the generator. -/
def CausalServer.turn (server : CausalServer κ α) (s : Serving α cfg) (step : TokenStep α) :
    EStateM.Result PyExc (KVStore α cfg) (InferenceResponse κ α × Int) :=
  iterateRpcInference server.span s.prefixLength step.request s.store

/-- One turn, with the history moved along by `next`; a turn that raises ends the session. -/
def CausalServer.serve (server : CausalServer κ α)
    (next : TokenStep α → Int → History α → History α) (s : Serving α cfg)
    (step : TokenStep α) : Option (Serving α cfg) :=
  match server.turn s step with
  | .ok (_, prefixLength) store =>
    some ⟨prefixLength, store, next step s.prefixLength s.history⟩
  | .error _ _ => none

/-- What a session may be asked for: tokens for the rows of the cache, a rollback to a position it
    has reached, ids for its rows, no more than what was allocated and what a task may hold. -/
structure Accepted (server : CausalServer κ α) (s : Serving α cfg) (step : TokenStep α) :
    Prop where
  shape : step.hiddenStates.shape = [server.batch, step.length, server.spec.hiddenSize]
  ids : ValidIds server.batch step.hypoIds
  start : ∀ start, step.startFromPosition = some start → 0 ≤ start ∧ start ≤ s.prefixLength
  length : step.start s.prefixLength + step.length ≤ server.maxLength
  size : server.batch * step.length ≤ server.maxBatchSize

/-- The turn returns the last positions of the block applied once to the history after the step. -/
def ServesLast (server : CausalServer κ α) (next : TokenStep α → Int → History α → History α)
    (s : Serving α cfg) (step : TokenStep α) : Prop :=
  match server.turn s step with
  | .ok (response, _) _ =>
    some response.hiddenStates = server.lastPositions (next step s.prefixLength s.history)
      (step.start s.prefixLength) (step.start s.prefixLength + step.length)
  | .error _ _ => False

instance (server : CausalServer κ α) (s : Serving α cfg) (step : TokenStep α) :
    Decidable (Accepted server s step) :=
  decidable_of_iff (step.hiddenStates.shape = [server.batch, step.length, server.spec.hiddenSize] ∧
      ValidIds server.batch step.hypoIds ∧
      (∀ start, step.startFromPosition = some start → 0 ≤ start ∧ start ≤ s.prefixLength) ∧
      step.start s.prefixLength + step.length ≤ server.maxLength ∧
      server.batch * step.length ≤ server.maxBatchSize)
    ⟨fun ⟨h₁, h₂, h₃, h₄, h₅⟩ => ⟨h₁, h₂, h₃, h₄, h₅⟩,
      fun ⟨h₁, h₂, h₃, h₄, h₅⟩ => ⟨h₁, h₂, h₃, h₄, h₅⟩⟩

instance [DecidableEq α] (server : CausalServer κ α)
    (next : TokenStep α → Int → History α → History α) (s : Serving α cfg) (step : TokenStep α) :
    Decidable (ServesLast server next s step) :=
  match h : server.turn s step with
  | .ok (response, _) _ =>
    decidable_of_iff (some response.hiddenStates =
        server.lastPositions (next step s.prefixLength s.history) (step.start s.prefixLength)
          (step.start s.prefixLength + step.length)) (by rw [ServesLast, h])
  | .error _ _ => isFalse (by rw [ServesLast, h]; exact id)

/-- The cache holds the history, and the position is its length. -/
structure Serving.Holds (server : CausalServer κ α) (s : Serving α cfg) (n : Nat) : Prop where
  position : s.prefixLength = n
  le_maxLength : n ≤ server.maxLength
  length : ∀ i, i < server.batch → (s.history i).length = n
  width : ∀ i, i < server.batch → ∀ token ∈ s.history i, token.length = server.spec.hiddenSize
  cache : ∃ cacheTensors cache, s.store = .contiguous cacheTensors ∧
    cacheTensors.lookup 0 = some cache ∧
    List.Forall₂ (CacheHolds s.history server.batch server.maxLength n) server.spec.shards cache

/-! ## Histories -/

section Histories

variable {rows : History α} {batch start n width : Nat} {ids : List Int} {hiddenStates : Tensor α}

omit [Add α] [Zero α] in
/-- A row of the permuted history is a row of the history. -/
theorem History.permute_row (rows : History α) (hids : ValidIds batch ids) {i : Nat} (hi : i < batch) :
    ∃ i', i' < batch ∧ rows.permute ids i = rows i' := by
  rw [History.permute]
  rcases hids with rfl | ⟨hlen, hids⟩
  · exact ⟨i, hi, by rw [if_pos rfl]⟩
  · have hne : ids ≠ [] := List.ne_nil_of_length_pos (by omega)
    have hi' : i < ids.length := by omega
    refine ⟨(ids[i]).toNat, ?_, ?_⟩
    · have hid := hids _ (List.getElem_mem hi')
      omega
    · rw [if_neg hne, List.getD_eq_getElem?_getD, List.getElem?_map, List.getElem?_eq_getElem hi']
      rfl

omit [Add α] in
theorem History.length_extend {i : Nat} (h : start ≤ (rows i).length) :
    (rows.extend start hiddenStates i).length = start + hiddenStates.shape.getD 1 0 := by
  rw [History.extend, List.length_append, List.length_take, Nat.min_eq_left h, List.length_map,
    List.length_range]

omit [Add α] in
/-- The tokens before the start stay. -/
theorem History.take_extend {i t : Nat} (h : start ≤ (rows i).length) (ht : t < start) :
    (rows.extend start hiddenStates i).take (t + 1) = (rows i).take (t + 1) := by
  have hle : t + 1 ≤ ((rows i).take start).length := by
    rw [List.length_take]
    omega
  rw [History.extend, List.take_append_of_le_length hle, List.take_take]
  congr 1
  omega

omit [Add α] in
/-- The new tokens are those of the step. -/
theorem History.continues_extend (hshape : hiddenStates.shape = [batch, n, width])
    (hlen : ∀ i, i < batch → start ≤ (rows i).length) :
    Continues (rows.extend start hiddenStates) batch start n width hiddenStates none where
  shape := hshape
  input_shape _ h := nomatch h
  token i j hi hj := by
    have hn : hiddenStates.shape.getD 1 0 = n := by
      rw [hshape]
      rfl
    have htake : ((rows i).take start).length = start := by
      rw [List.length_take, Nat.min_eq_left (hlen i hi)]
    rw [History.extend, hn, List.getElem?_append_right (by omega), htake, Nat.add_sub_cancel_left,
      List.getElem?_map, List.getElem?_range hj, inputToken]
    exact congrArg some (List.append_nil _).symm

omit [Add α] in
theorem History.width_extend {i : Nat} (hshape : hiddenStates.shape = [batch, n, width])
    (h : ∀ token ∈ rows i, token.length = width) :
    ∀ token ∈ rows.extend start hiddenStates i, token.length = width := by
  intro token htoken
  rcases List.mem_append.mp htoken with hold | hnew
  · exact h token (List.mem_of_mem_take hold)
  · obtain ⟨j, _, rfl⟩ := List.mem_map.mp hnew
    rw [Tensor.token, List.length_map, List.length_range, hshape]
    rfl

omit [Add α] in
/-- The history as one input. -/
theorem History.continues_hiddenStates (hlen : ∀ i, i < batch → (rows i).length = n)
    (hwidth : ∀ i, i < batch → ∀ token ∈ rows i, token.length = width) :
    Continues rows batch 0 n width (rows.hiddenStates batch n width) none where
  shape := Tensor.shape_ofFn _ _
  input_shape _ h := nomatch h
  token i j hi hj := by
    have hj' : j < (rows i).length := by rw [hlen i hi]; exact hj
    have htoken : (rows.hiddenStates batch n width).token i j = (rows i)[j] := by
      refine List.ext_getElem ?_ fun h hh hh' => ?_
      · rw [Tensor.token, List.length_map, List.length_range,
          hwidth i hi _ (List.getElem_mem hj')]
        rfl
      · have hh'' : h < width := hwidth i hi _ (List.getElem_mem hj') ▸ hh'
        simp only [Tensor.token, List.getElem_map, List.getElem_range]
        have hix : InBounds [batch, n, width] [i, j, h] := ⟨hi, hj, hh'', trivial⟩
        rw [History.hiddenStates, Tensor.get_ofFn _ hix]
        show ((rows i).getD j []).getD h 0 = _
        rw [List.getD_eq_getElem _ _ hj', List.getD_eq_getElem _ _ hh']
    rw [Nat.zero_add, List.getElem?_eq_getElem hj', inputToken, htoken]
    exact congrArg some (List.append_nil _).symm

end Histories

/-! ## One-shot computation -/

namespace CausalServer

variable {server : CausalServer κ α} {rows : History α} {n : Nat}

omit [Add α] in
theorem emptyPast_holds (server : CausalServer κ α) (rows : History α) :
    List.Forall₂ (HoldsPast rows server.batch 0) server.spec.shards server.emptyPast := by
  rw [emptyPast, List.forall₂_map_right_iff, List.forall₂_same]
  exact fun shard _ => ⟨rfl, rfl, fun _ _ _ _ _ h => absurd h (Nat.not_lt_zero _),
    fun _ _ _ _ _ h => absurd h (Nat.not_lt_zero _)⟩

omit [Add α] in
/-- Given the whole history, the block computes what its specification says. -/
theorem oneShot_computes (hn : 0 < n) (hlen : ∀ i, i < server.batch → (rows i).length = n)
    (hwidth : ∀ i, i < server.batch → ∀ token ∈ rows i, token.length = server.spec.hiddenSize) :
    ∃ full newKvs, server.oneShot rows n = .ok full ∧
      Computes server.spec rows server.batch 0 n full newKvs := by
  obtain ⟨full, newKvs, shared, hforward, hcomputes, _⟩ := server.causal rows server.batch 0 n _
    none server.emptyPast ∅ server.batch_pos hn (History.continues_hiddenStates hlen hwidth)
    (server.emptyPast_holds rows) trivial
  exact ⟨full, newKvs, except_bind_eq_ok.mpr ⟨_, hforward, rfl⟩, hcomputes⟩

omit [Add α] in
/-- The outputs for the tokens from `start` on are the last positions of the whole. -/
theorem lastPositions_of_computes {start length : Nat} {output : Tensor α}
    {newKvs : List (KVPair α)} (hlength : 0 < length)
    (hlen : ∀ i, i < server.batch → (rows i).length = start + length)
    (hwidth : ∀ i, i < server.batch → ∀ token ∈ rows i, token.length = server.spec.hiddenSize)
    (h : Computes server.spec rows server.batch start length output newKvs) :
    some output = server.lastPositions rows start (start + length) := by
  obtain ⟨full, _, hfull, hcomputes⟩ := oneShot_computes (by omega) hlen hwidth
  have hshape := shape_slice_tokens hcomputes.shape (Nat.le_add_right start length) (Nat.le_refl _)
  rw [Nat.add_sub_cancel_left] at hshape
  rw [lastPositions, if_neg (by omega), hfull]
  refine congrArg some (Tensor.ext_get (h.shape.trans hshape.symm) fun ix hix => ?_)
  rw [h.shape] at hix
  obtain ⟨i, j, f, rfl, hi, hj, hf⟩ := hix.exists_three
  rw [h.output_get i j f hi hj hf, get_slice_tokens hcomputes.shape (Nat.le_add_right start length)
    (Nat.le_refl _) hi (by omega) hf, hcomputes.output_get i _ f hi (by omega) hf, Nat.zero_add]

/-! ## One turn -/

omit [Add α] in
/-- One step of the block on a cache that holds the history. -/
theorem contiguousInferenceStep_computes {ids : List Int} {hiddenStates : Tensor α}
    {cache : List (KVPair α)} {start length : Nat} (hstart : start ≤ n)
    (hn : n ≤ server.maxLength) (hend : start + length ≤ server.maxLength) (hlength : 0 < length)
    (hshape : hiddenStates.shape = [server.batch, length, server.spec.hiddenSize])
    (hids : ValidIds server.batch ids) (hlen : ∀ i, i < server.batch → (rows i).length = n)
    (hcache : List.Forall₂ (CacheHolds rows server.batch server.maxLength n) server.spec.shards
      cache) :
    ∃ output newKvs shared cache', server.backend.contiguousInferenceStep hiddenStates ids
        ⟨start, 0, none⟩ ∅ cache = .ok (output, shared, cache') ∧
      Computes server.spec ((rows.permute ids).extend start hiddenStates) server.batch start length
        output newKvs ∧
      List.Forall₂ (CacheHolds ((rows.permute ids).extend start hiddenStates) server.batch
        server.maxLength (start + length)) server.spec.shards cache' := by
  have hlen' : ∀ i, i < server.batch → start ≤ (rows.permute ids i).length := by
    intro i hi
    obtain ⟨i', hi', hrow⟩ := History.permute_row rows hids hi
    rw [hrow, hlen i' hi']
    exact hstart
  obtain ⟨cache₁, hreorder, hcache₁⟩ := reorderCacheInplace_holds hcache hn hids
  have hbehind : List.Forall₂ (CacheHolds ((rows.permute ids).extend start hiddenStates)
      server.batch server.maxLength start) server.spec.shards cache₁ :=
    hcache₁.imp fun _ _ hkv => hkv.congr hstart fun i hi t ht => History.take_extend (hlen' i hi) ht
  obtain ⟨c, hc⟩ := server.backend.estimateMaxChunkLength_ok start hshape server.batch_pos hlength
  obtain ⟨output, newKvs, shared, hforward, hcomputes, _⟩ := forwardChunked_causal server.causal
    (TransformerBackend.estimateMaxChunkLength_pos hc) server.batch_pos hlength
    (History.continues_extend hshape hlen') (select_holds hbehind (by omega)) trivial
  obtain ⟨cache₂, hwrite, hcache₂⟩ := writeBack_holds server.spec.shards_ne_nil hbehind
    hcomputes.holds (Nat.le_add_right start length) hend
  refine ⟨output, newKvs, shared, cache₂, ?_, hcomputes, hcache₂⟩
  rw [TransformerBackend.contiguousInferenceStep]
  exact except_bind_eq_ok.mpr ⟨cache₁, hreorder, except_bind_eq_ok.mpr ⟨c, hc,
    except_bind_eq_ok.mpr ⟨_, hforward, except_bind_eq_ok.mpr ⟨cache₂, hwrite, rfl⟩⟩⟩⟩

omit [Add α] in
/-- There are no positions from the end on. -/
theorem lastPositions_of_no_tokens {start length : Nat} {hiddenStates : Tensor α}
    (hlength : length = 0)
    (hshape : hiddenStates.shape = [server.batch, length, server.spec.hiddenSize])
    (hlen : ∀ i, i < server.batch → (rows i).length = start + length)
    (hwidth : ∀ i, i < server.batch → ∀ token ∈ rows i, token.length = server.spec.hiddenSize) :
    some hiddenStates = server.lastPositions rows start (start + length) := by
  subst hlength
  have hempty : ∀ {t : Tensor α}, t.shape = [server.batch, 0, server.spec.hiddenSize] →
      hiddenStates = t := by
    intro t ht
    refine Tensor.ext_get (hshape.trans ht.symm) fun ix hix => ?_
    rw [hshape] at hix
    obtain ⟨_, _, _, _, _, hj, _⟩ := hix.exists_three
    exact absurd hj (Nat.not_lt_zero _)
  rw [lastPositions]
  split
  · exact congrArg some (hempty (Tensor.shape_zeros _))
  · obtain ⟨full, _, hfull, hcomputes⟩ := oneShot_computes (by omega) hlen hwidth
    have hslice := shape_slice_tokens hcomputes.shape (Nat.le_add_right start 0) (Nat.le_refl _)
    rw [Nat.add_sub_cancel_left] at hslice
    rw [hfull]
    exact congrArg some (hempty hslice)

end CausalServer

/-- A span of one block that serves its task serves the step, whichever branch is taken. -/
theorem runSpan_single {merge : Bool} {maxBatchSize : Nat} {ids : List Int}
    {backend : TransformerBackend κ α} {info : InferenceMetadata α}
    {hiddenStates output : Tensor α} {produced : List (Tensor α)} {shared : SharedKvStates κ α}
    {store store' : KVStore α cfg} (hdummy : isDummy hiddenStates = false)
    (hsize : getTaskSize hiddenStates ≤ maxBatchSize) (hstore : store.isPaged = false)
    (hstep : backend.inferenceStep hiddenStates ids info ∅ store
      = .ok (output, produced, shared) store') :
    ∃ producedKv, runSpan merge maxBatchSize ids [⟨backend, info, none⟩] ∅ hiddenStates store
      = .ok (output, producedKv) store' := by
  let task : BlockTask κ α := ⟨backend, info, none⟩
  obtain ⟨kv, rfl, hstored, _⟩ := TransformerBackend.inferenceStep_transfer rfl hstep
  have hsome : ∀ layerType, backend.module.role = .donor layerType →
      layerType ∉ (∅ : SharedKvStates κ α) → kv.isSome :=
    fun layerType hrole _ => hstored hstore layerType hrole
  obtain ⟨items, hitems, _⟩ := unflattenSharedKv_of_write hsome
  have htask : submitTask maxBatchSize (mergedInferenceStep ids [task] ∅) hiddenStates store =
      .ok (output, extractProducedSharedKv (backend.module.role.write kv ∅)
        (∅ : SharedKvStates κ α).keys) store' := by
    rw [submitTask, if_neg (by omega)]
    exact mergedInferenceStep_single rfl hstep
  have htypes : newDonorTypes [task] (∅ : SharedKvStates κ α).keys =
      backend.donorLayerTypes.filter (· ∉ (∅ : SharedKvStates κ α).keys) := by
    rw [newDonorTypes]
    show pySorted ((backend.donorLayerTypes ++ []).dedup.filter _) = _
    rw [TransformerBackend.donorLayerTypes]
    cases backend.module.role <;> rfl
  rw [runSpan, if_neg (by simp [hdummy])]
  cases merge with
  | true =>
    rw [if_pos rfl]
    refine ⟨updateShared ∅ items, bind_eq_ok.mpr ⟨_, store', htask, bind_eq_ok.mpr
      ⟨items, store', liftExcept_eq_ok.mpr ⟨?_, rfl⟩, rfl⟩⟩⟩
    rw [htypes]
    exact hitems
  | false =>
    rw [if_neg Bool.false_ne_true]
    exact ⟨updateShared ∅ items, bind_eq_ok.mpr ⟨_, store', htask, bind_eq_ok.mpr
      ⟨items, store', liftExcept_eq_ok.mpr ⟨hitems, rfl⟩, rfl⟩⟩⟩

section Turn

variable {server : CausalServer κ α} {s : Serving α cfg} {step : TokenStep α} {n : Nat}

omit [Add α] in
theorem Accepted.start_le (haccepted : Accepted server s step) (hn : s.prefixLength = n) :
    step.start s.prefixLength ≤ n := by
  rw [TokenStep.start]
  cases hstart : step.startFromPosition with
  | none =>
    rw [Option.getD_none, hn]
    exact Nat.le_refl n
  | some start =>
    have hle := (haccepted.start start hstart).2
    rw [Option.getD_some]
    omega

omit [Add α] in
/-- An accepted message asks for the one block, at the start of the step. -/
theorem Accepted.parseRequest (haccepted : Accepted server s step) (hn : s.prefixLength = n) :
    Drift.parseRequest server.span s.prefixLength step.request =
      .ok (step.start s.prefixLength,
        [⟨server.backend, ⟨step.start s.prefixLength, 0, none⟩, none⟩], ∅) := by
  have hposition : startPosition s.prefixLength (step.request : InferenceRequest κ α)
      = .ok ((step.start s.prefixLength : Nat) : Int) := by
    rw [startPosition, TokenStep.start]
    cases hstart : step.startFromPosition with
    | none =>
      simp only [TokenStep.request, hstart, Option.getD_none, hn]
      rfl
    | some start =>
      obtain ⟨hpos, hle⟩ := haccepted.start start hstart
      simp only [TokenStep.request, hstart, Option.getD_some, if_pos hle]
      rw [Int.toNat_of_nonneg hpos]
  rw [Drift.parseRequest, hposition]
  have hlength := haccepted.length
  have hfits : ¬ ((server.span.maxLength : Nat) : Int) < ((step.start s.prefixLength : Nat) : Int) +
      ((step.request : InferenceRequest κ α).lengthIncrement : Int) := by
    show ¬ ((server.maxLength : Nat) : Int) <
      ((step.start s.prefixLength : Nat) : Int) + ((step.length : Nat) : Int)
    omega
  show (if _ then _ else _) = _
  rw [if_neg hfits]
  rfl

omit [Add α] in
theorem Accepted.isDummy (haccepted : Accepted server s step) :
    Drift.isDummy step.hiddenStates = true ↔ step.length = 0 := by
  have hbatch := server.batch_pos
  have hsize := server.spec.hiddenSize_pos
  rw [Drift.isDummy, Tensor.numel, haccepted.shape]
  simp only [List.prod_cons, List.prod_nil, Nat.mul_one, Nat.mul_eq_zero, decide_eq_true_eq]
  omega

/-- What one turn is to do, for a session that holds `n` tokens. -/
structure TurnSpec (server : CausalServer κ α) (s : Serving α cfg) (step : TokenStep α)
    (response : InferenceResponse κ α) (position : Int) (store : KVStore α cfg) : Prop where
  output : some response.hiddenStates = server.lastPositions
    (step.serving s.prefixLength s.history) (step.start s.prefixLength)
    (step.start s.prefixLength + step.length)
  holds : Serving.Holds server
    ⟨position, store, step.serving s.prefixLength s.history⟩
    (step.start s.prefixLength + step.length)

omit [Add α] in
theorem Serving.Holds.length_extend {ids : List Int} (hids : ValidIds server.batch ids)
    (hholds : s.Holds server n) {start : Nat} (hstart : start ≤ n) {i : Nat}
    (hi : i < server.batch) :
    ((s.history.permute ids).extend start step.hiddenStates i).length = start + step.length := by
  obtain ⟨i', hi', hrow⟩ := History.permute_row s.history hids hi
  rw [History.length_extend (by rw [hrow, hholds.length i' hi']; exact hstart)]
  rfl

omit [Add α] in
theorem Serving.Holds.width_extend {ids : List Int} (hids : ValidIds server.batch ids)
    (hholds : s.Holds server n) (haccepted : Accepted server s step) {start : Nat} {i : Nat}
    (hi : i < server.batch) : ∀ token ∈ (s.history.permute ids).extend start step.hiddenStates i,
      token.length = server.spec.hiddenSize := by
  obtain ⟨i', hi', hrow⟩ := History.permute_row s.history hids hi
  exact History.width_extend haccepted.shape (by rw [hrow]; exact hholds.width i' hi')

/-- A turn with tokens. -/
theorem turn_of_tokens (hholds : s.Holds server n) (haccepted : Accepted server s step)
    (hlength : 0 < step.length) :
    ∃ response position store, server.turn s step = .ok (response, position) store ∧
      TurnSpec server s step response position store := by
  obtain ⟨cacheTensors, cache, hstore, hlookup, hcache⟩ := hholds.cache
  have hstart := haccepted.start_le hholds.position
  have hend := haccepted.length
  have hserving : step.serving s.prefixLength s.history =
      (s.history.permute step.hypoIds).extend (step.start s.prefixLength) step.hiddenStates := by
    rw [TokenStep.serving, if_neg (by omega), TokenStep.permuting]
  obtain ⟨output, newKvs, shared, cache', hstep, hcomputes, hcache'⟩ :=
    CausalServer.contiguousInferenceStep_computes hstart hholds.le_maxLength hend hlength
      haccepted.shape haccepted.ids hholds.length hcache
  have hinference : server.backend.inferenceStep step.hiddenStates step.hypoIds
      ⟨step.start s.prefixLength, 0, none⟩ ∅ s.store =
        .ok (output, extractProducedSharedKv shared (∅ : SharedKvStates κ α).keys, shared)
          (.contiguous (cacheTensors.insert 0 cache')) := by
    unfold TransformerBackend.inferenceStep
    rw [if_neg (by rw [haccepted.shape]; simp), hstore]
    simp only [hlookup, hstep]
  have hdummy : isDummy step.hiddenStates = false := by
    rw [Bool.eq_false_iff, Ne, haccepted.isDummy]
    omega
  have hsize : getTaskSize step.hiddenStates ≤ server.span.maxBatchSize := by
    rw [getTaskSize, haccepted.shape]
    exact haccepted.size
  have hcontiguous : s.store.isPaged = false := by
    rw [hstore]
    rfl
  obtain ⟨produced, hrun⟩ := runSpan_single hdummy hsize hcontiguous hinference
  refine ⟨_, _, _, serveStep_ok.mpr ⟨_, _, _, output, produced,
    haccepted.parseRequest hholds.position, hrun, rfl, rfl⟩, ?_, ?_⟩
  · rw [hserving]
    exact CausalServer.lastPositions_of_computes hlength
      (fun i hi => hholds.length_extend haccepted.ids hstart hi)
      (fun i hi => hholds.width_extend haccepted.ids haccepted hi) hcomputes
  · rw [hserving]
    exact ⟨rfl, hend, fun i hi => hholds.length_extend haccepted.ids hstart hi,
      fun i hi => hholds.width_extend haccepted.ids haccepted hi,
      cacheTensors.insert 0 cache', cache', rfl, AList.lookup_insert _, hcache'⟩

/-- A turn without tokens: the position moves, and the rows are cut there. -/
theorem turn_of_no_tokens (hholds : s.Holds server n) (haccepted : Accepted server s step)
    (hlength : step.length = 0) :
    ∃ response position store, server.turn s step = .ok (response, position) store ∧
      TurnSpec server s step response position store := by
  obtain ⟨cacheTensors, cache, hstore, hlookup, hcache⟩ := hholds.cache
  have hstart := haccepted.start_le hholds.position
  have hend := haccepted.length
  have hserving : step.serving s.prefixLength s.history =
      (s.history.permute []).extend (step.start s.prefixLength) step.hiddenStates := by
    rw [TokenStep.serving, if_pos hlength]
    rfl
  have hrun : ∀ merge, runSpan merge server.span.maxBatchSize step.hypoIds
      [⟨server.backend, ⟨step.start s.prefixLength, 0, none⟩, none⟩] ∅ step.hiddenStates s.store
      = .ok (step.hiddenStates, ∅) s.store := by
    intro merge
    rw [runSpan, if_pos (haccepted.isDummy.mpr hlength)]
    rfl
  have hlen : ∀ i, i < server.batch →
      (step.serving s.prefixLength s.history i).length = step.start s.prefixLength + step.length := by
    intro i hi
    rw [hserving]
    exact hholds.length_extend (.inl rfl) hstart hi
  have hwidth : ∀ i, i < server.batch → ∀ token ∈ step.serving s.prefixLength s.history i,
      token.length = server.spec.hiddenSize := by
    intro i hi
    rw [hserving]
    exact hholds.width_extend (.inl rfl) haccepted hi
  refine ⟨_, _, _, serveStep_ok.mpr ⟨_, _, _, step.hiddenStates, ∅,
    haccepted.parseRequest hholds.position, hrun _, rfl, rfl⟩, ?_, rfl, hend, hlen, hwidth,
    cacheTensors, cache, hstore, hlookup, ?_⟩
  · exact CausalServer.lastPositions_of_no_tokens hlength haccepted.shape hlen hwidth
  · refine hcache.imp fun _ _ hkv => hkv.congr (by omega) fun i hi t ht => ?_
    rw [hserving]
    exact History.take_extend (by rw [History.permute, if_pos rfl, hholds.length i hi]; exact hstart)
      (by omega)

/-- **One turn**: an accepted step is served, and the cache follows the history. -/
theorem turn_spec (hholds : s.Holds server n) (haccepted : Accepted server s step) :
    ∃ response position store, server.turn s step = .ok (response, position) store ∧
      TurnSpec server s step response position store := by
  rcases Nat.eq_zero_or_pos step.length with hlength | hlength
  · exact turn_of_no_tokens hholds haccepted hlength
  · exact turn_of_tokens hholds haccepted hlength

end Turn

/-! ## Every turn of every session -/

/-- A session that has not begun, on cache tensors of the block's sizes. -/
def Serving.new (cache : List (KVPair α)) : Serving α cfg where
  prefixLength := 0
  store := .contiguous (AList.insert 0 cache ∅)
  history := fun _ => []

/-- Cache tensors as they are allocated: of the right sizes, with any contents. -/
def CausalServer.Allocated (server : CausalServer κ α) (cache : List (KVPair α)) : Prop :=
  List.Forall₂ (fun shard kv =>
    kv.1.shape = [server.batch, shard.kvHeads, shard.keyDim, server.maxLength] ∧
    kv.2.shape = [server.batch, shard.kvHeads, server.maxLength, shard.valueDim])
    server.spec.shards cache

omit [Add α] in
theorem Serving.holds_new {server : CausalServer κ α} {cache : List (KVPair α)}
    (hcache : server.Allocated cache) :
    Serving.Holds server (Serving.new cache : Serving α cfg) 0 where
  position := rfl
  le_maxLength := Nat.zero_le _
  length _ _ := rfl
  width _ _ _ h := nomatch h
  cache := ⟨_, cache, rfl, AList.lookup_insert _, hcache.imp fun _ _ hkv =>
    ⟨hkv.1, hkv.2, fun _ _ _ _ _ _ _ h => absurd h (Nat.not_lt_zero _),
      fun _ _ _ _ _ _ _ h => absurd h (Nat.not_lt_zero _)⟩⟩

/-- **Incremental serving equals one-shot computation.** In every session of accepted steps, every
    step returns the last positions of the block applied once to the history: the rows as the hypo
    ids of the steps with tokens have permuted them, cut at the rollbacks and extended by the
    tokens. -/
theorem serves_lastPositions (server : CausalServer κ α) (cache : List (KVPair α))
    (steps : List (TokenStep α)) (hcache : server.Allocated cache)
    (haccepted : AllSteps (server.serve TokenStep.serving) (Accepted server)
      (Serving.new cache : Serving α cfg) steps) :
    AllSteps (server.serve TokenStep.serving) (ServesLast server TokenStep.serving)
      (Serving.new cache : Serving α cfg) steps := by
  refine allSteps_of_allSteps (P := fun s => ∃ n, Serving.Holds server s n) ?_
    ⟨0, Serving.holds_new hcache⟩ haccepted
  rintro s step ⟨n, hholds⟩ haccepted
  obtain ⟨response, position, store, hturn, hspec⟩ := turn_spec hholds haccepted
  constructor
  · rw [ServesLast, hturn]
    exact hspec.output
  · intro s' hs'
    rw [CausalServer.serve, hturn] at hs'
    obtain rfl := Option.some.inj hs'
    exact ⟨_, hspec.holds⟩

/-! ## Ids without tokens -/

/-- Two rows, four tokens a row. -/
def firstTokenServer : CausalServer String Int where
  backend :=
    { module := FirstToken.block
      shardNumHeads := [1]
      dtypeBytes := 2
      maxChunkSizeBytes := 1024
      numHeads_pos := Nat.one_pos
      dtypeBytes_pos := Nat.two_pos }
  spec := FirstToken.spec
  causal := FirstToken.isCausal
  batch := 2
  maxLength := 4
  mergeMaxTokens := 128
  maxBatchSize := 2048
  batch_pos := Nat.two_pos

/-- Cache tensors with something in them. -/
def firstTokenCache : List (KVPair Int) :=
  [(Tensor.ofFn [2, 1, 1, 4] fun _ => 5, Tensor.ofFn [2, 1, 4, 1] fun _ => 6)]

/-- A token for each row, given ids without tokens, and a token for each row. -/
def swapBetween (ids : List Int) : List (TokenStep Int) :=
  [⟨Tensor.ofFn [2, 1, 1] fun ix => 10 + ix.getD 0 0, [], none⟩,
    ⟨Tensor.zeros [2, 0, 1], ids, none⟩,
    ⟨Tensor.ofFn [2, 1, 1] fun _ => 30, [], none⟩]

theorem serves_lastPositions_example :
    AllSteps (firstTokenServer.serve TokenStep.serving)
      (ServesLast firstTokenServer TokenStep.serving)
      (Serving.new firstTokenCache : Serving Int (PagedKVPool.tokenConfig 1)) (swapBetween [1, 0]) :=
  serves_lastPositions firstTokenServer firstTokenCache (swapBetween [1, 0])
    (.cons ⟨rfl, rfl⟩ .nil) (by decide +kernel)

/-- Hypo ids that come without tokens are not applied: the next step is served from the rows as they
    were. -/
theorem ids_without_tokens_not_applied :
    AllSteps (firstTokenServer.serve TokenStep.permuting) (Accepted firstTokenServer)
      (Serving.new firstTokenCache : Serving Int (PagedKVPool.tokenConfig 1))
      (swapBetween [1, 0]) ∧
    ¬ AllSteps (firstTokenServer.serve TokenStep.permuting)
      (ServesLast firstTokenServer TokenStep.permuting)
      (Serving.new firstTokenCache : Serving Int (PagedKVPool.tokenConfig 1))
      (swapBetween [1, 0]) := by
  constructor <;> decide +kernel

end Drift
