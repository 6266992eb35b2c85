/-
  The position an inference step works at, against the length that was allocated.

  `iterate_rpc_inference` carries `prefix_length` from step to step.  A client may set it back with
  `start_from_position`, which is checked from above only (`prefix_length >= start_from_position`);
  the length check that follows bounds the end of the step.  A slice of the cache does not raise
  when it is out of range: a negative bound counts from the end.  So the place where
  `select_layer_past` and `update_cache` work is right exactly for a prefix in range
  (`addressesExactly`), and the generator submits none other as long as no step asks for a negative
  position (`run_prefix_in_bounds_iff`).
-/
import Drift.Lib.Run
import Drift.Server.Serving

namespace Drift

variable {κ α : Type} [LinearOrder κ]

/-! ## What a step addresses -/

/-- The sizes of one shard of a cache, its length apart. -/
structure ShardSizes where
  batch : Nat
  kvHeads : Nat
  keyDim : Nat
  valueDim : Nat

/-- The cache tensors of a shard. -/
def ShardSizes.Cache (sizes : ShardSizes) (maxLength : Nat) (cache : KVPair α) : Prop :=
  cache.1.shape = [sizes.batch, sizes.kvHeads, sizes.keyDim, maxLength] ∧
  cache.2.shape = [sizes.batch, sizes.kvHeads, maxLength, sizes.valueDim]

/-- The keys and values of `length` tokens, as a block returns them. -/
def ShardSizes.Kvs (sizes : ShardSizes) (length : Nat) (kvs : KVPair α) : Prop :=
  kvs.1.shape = [sizes.batch * sizes.kvHeads, sizes.keyDim, length] ∧
  kvs.2.shape = [sizes.batch * sizes.kvHeads, length, sizes.valueDim]

/-- A cell of the shard at position `t`: row, head and features of key and value. -/
def ShardSizes.Cell (sizes : ShardSizes) (i g d e : Nat) : Prop :=
  i < sizes.batch ∧ g < sizes.kvHeads ∧ d < sizes.keyDim ∧ e < sizes.valueDim

/-- `select_layer_past` returns the positions before `prefixLength` of every cache, and
    `update_cache` writes the `n` positions from there on, and no other, from keys and values of
    past and step together. -/
structure AddressesExactly (α : Type) [Zero α] (maxLength : Nat) (prefixLength : Int) (n : Nat) :
    Prop where
  select : ∀ (sizes : ShardSizes) (cache : KVPair α), sizes.Cache maxLength cache →
    sizes.Kvs prefixLength.toNat (StandardGQACache.selectShard prefixLength cache) ∧
    ∀ i g d e t, sizes.Cell i g d e → t < prefixLength.toNat →
      (StandardGQACache.selectShard prefixLength cache).1.get [i * sizes.kvHeads + g, d, t]
        = cache.1.get [i, g, d, t] ∧
      (StandardGQACache.selectShard prefixLength cache).2.get [i * sizes.kvHeads + g, t, e]
        = cache.2.get [i, g, t, e]
  update : ∀ (sizes : ShardSizes) (cache new : KVPair α), sizes.Cache maxLength cache →
    sizes.Kvs (prefixLength.toNat + n) new →
    ∃ cache', StandardGQACache.updateShard (prefixLength.toNat + n) prefixLength cache new
        = some cache' ∧ sizes.Cache maxLength cache' ∧
      ∀ i g d e t, sizes.Cell i g d e → t < maxLength →
        cache'.1.get [i, g, d, t] =
          (if prefixLength ≤ t ∧ t < prefixLength + n then new.1.get [i * sizes.kvHeads + g, d, t]
          else cache.1.get [i, g, d, t]) ∧
        cache'.2.get [i, g, t, e] =
          (if prefixLength ≤ t ∧ t < prefixLength + n then new.2.get [i * sizes.kvHeads + g, t, e]
          else cache.2.get [i, g, t, e])

section Addresses

variable [Zero α] {maxLength p n : Nat} {sizes : ShardSizes} {cache new : KVPair α}

/-- `select_layer_past` inside the cache. -/
theorem selectShard_cells (hcache : sizes.Cache maxLength cache) (hp : p ≤ maxLength) :
    sizes.Kvs p (StandardGQACache.selectShard p cache) ∧
    ∀ i g d e t, sizes.Cell i g d e → t < p →
      (StandardGQACache.selectShard p cache).1.get [i * sizes.kvHeads + g, d, t]
        = cache.1.get [i, g, d, t] ∧
      (StandardGQACache.selectShard p cache).2.get [i * sizes.kvHeads + g, t, e]
        = cache.2.get [i, g, t, e] := by
  obtain ⟨hkey, hkeyGet⟩ := StandardGQACache.selectShard_key hcache.1 hp
  obtain ⟨hvalue, hvalueGet⟩ := StandardGQACache.selectShard_value hcache.2 hp
  refine ⟨⟨hkey, hvalue⟩, ?_⟩
  rintro i g d e t ⟨hi, hg, hd, he⟩ ht
  have hkeyCell := hkeyGet _ d t (mul_add_lt hi hg) hd ht
  have hvalueCell := hvalueGet _ e t (mul_add_lt hi hg) he ht
  rw [mul_add_div_eq hg, mul_add_mod_eq hg] at hkeyCell hvalueCell
  exact ⟨hkeyCell, hvalueCell⟩

/-- `update_cache` inside the cache. -/
theorem updateShard_cells (hcache : sizes.Cache maxLength cache) (hnew : sizes.Kvs n new)
    (hp : p ≤ n) (hn : n ≤ maxLength) :
    ∃ cache', StandardGQACache.updateShard n p cache new = some cache' ∧
      sizes.Cache maxLength cache' ∧
      ∀ i g d e t, sizes.Cell i g d e → t < maxLength →
        cache'.1.get [i, g, d, t] =
          (if p ≤ t ∧ t < n then new.1.get [i * sizes.kvHeads + g, d, t]
          else cache.1.get [i, g, d, t]) ∧
        cache'.2.get [i, g, t, e] =
          (if p ≤ t ∧ t < n then new.2.get [i * sizes.kvHeads + g, t, e]
          else cache.2.get [i, g, t, e]) := by
  have hkeySize : [sizes.batch, sizes.kvHeads, sizes.keyDim, n].prod = new.1.shape.prod := by
    rw [hnew.1]
    simp [Nat.mul_assoc]
  have hvalueSize : [sizes.batch, sizes.kvHeads, n, sizes.valueDim].prod = new.2.shape.prod := by
    rw [hnew.2]
    simp [Nat.mul_assoc]
  obtain ⟨key, hkey, hkeyShape, hkeyGet⟩ :=
    StandardGQACache.updateKey_spec hcache.1 hkeySize hp hn
  obtain ⟨value, hvalue, hvalueShape, hvalueGet⟩ :=
    StandardGQACache.updateValue_spec hcache.2 hvalueSize hp hn
  refine ⟨(key, value), ?_, ⟨hkeyShape.trans hcache.1, hvalueShape.trans hcache.2⟩, ?_⟩
  · rw [StandardGQACache.updateShard, hkey, hvalue]
    rfl
  rintro i g d e t ⟨hi, hg, hd, he⟩ ht
  have hkeyCell := hkeyGet i g d t (by rw [hcache.1]; exact ⟨hi, hg, hd, ht, trivial⟩)
  have hvalueCell := hvalueGet i g t e (by rw [hcache.2]; exact ⟨hi, hg, ht, he, trivial⟩)
  rw [get_split_heads hnew.1 hkeySize hg] at hkeyCell
  rw [get_split_heads hnew.2 hvalueSize hg] at hvalueCell
  exact ⟨hkeyCell, hvalueCell⟩

/-- **A prefix in range addresses the positions it names.** -/
theorem addressesExactly {prefixLength : Int} (hnonneg : 0 ≤ prefixLength)
    (hmax : prefixLength + n ≤ maxLength) : AddressesExactly α maxLength prefixLength n := by
  obtain ⟨p, rfl⟩ := Int.eq_ofNat_of_zero_le hnonneg
  constructor
  · intro sizes cache hcache
    exact selectShard_cells hcache (by omega)
  · intro sizes cache new hcache hnew
    have hcells := updateShard_cells hcache hnew (Nat.le_add_right p n) (by omega)
    simp only [← Int.natCast_add, Int.ofNat_le, Int.ofNat_lt]
    exact hcells

end Addresses

/-! ## What a step submits -/

/-- The metadata of the tasks that a step submits, first to last; a step that raises before, has no
    tokens, or is too long for a task of the pool submits none. -/
def submittedInfos (span : InferenceSpan κ α) (prefixLength : Int)
    (request : InferenceRequest κ α) : List (InferenceMetadata α) :=
  match parseRequest span prefixLength request with
  | .ok (_, tasks, _) =>
    if isDummy request.hiddenStates ∨ span.maxBatchSize < getTaskSize request.hiddenStates then []
    else tasks.map (·.info)
  | .error _ => []

/-- The position that a request asks for. -/
def InferenceRequest.start (request : InferenceRequest κ α) (prefixLength : Int) : Int :=
  request.startFromPosition.getD prefixLength

/-- The request does not ask for a position before the first. -/
def InferenceRequest.StartsInside (request : InferenceRequest κ α) : Prop :=
  ∀ start, request.startFromPosition = some start → 0 ≤ start

/-- Everything the step submits works at a prefix in range. -/
def SubmitsInBounds [Zero α] (span : InferenceSpan κ α) (prefixLength : Int)
    (request : InferenceRequest κ α) : Prop :=
  ∀ info ∈ submittedInfos span prefixLength request,
    0 ≤ info.prefixLength ∧ info.prefixLength + request.lengthIncrement ≤ span.maxLength ∧
    AddressesExactly α span.maxLength info.prefixLength request.lengthIncrement

section Submitted

variable {span : InferenceSpan κ α} {prefixLength : Int} {request : InferenceRequest κ α}

omit [LinearOrder κ] in
theorem startPosition_eq_ok {start : Int} (h : startPosition prefixLength request = .ok start) :
    start = request.start prefixLength ∧
      ∀ asked, request.startFromPosition = some asked → asked ≤ prefixLength := by
  rw [startPosition] at h
  rw [InferenceRequest.start]
  cases hstart : request.startFromPosition with
  | none =>
    rw [hstart] at h
    exact ⟨(Except.ok.inj h).symm, fun _ h => by cases h⟩
  | some asked =>
    rw [hstart] at h
    dsimp only at h
    split at h
    · rename_i hle
      refine ⟨(Except.ok.inj h).symm, fun asked' hasked => ?_⟩
      obtain rfl := Option.some.inj hasked
      exact hle
    · cases h

/-- What a parsed request starts at, and how far it goes. -/
theorem parseRequest_eq_ok {start : Int} {tasks : List (BlockTask κ α)}
    {shared : SharedKvStates κ α}
    (h : parseRequest span prefixLength request = .ok (start, tasks, shared)) :
    start = request.start prefixLength ∧ start + request.lengthIncrement ≤ span.maxLength ∧
      ∃ prompts inputs, tasks = blockTasks start span.blocks prompts inputs := by
  obtain ⟨start', hstart, h⟩ := except_bind_eq_ok.mp h
  obtain ⟨prompts, _, h⟩ := except_bind_eq_ok.mp h
  obtain ⟨inputs, _, h⟩ := except_bind_eq_ok.mp h
  obtain ⟨shared', _, h⟩ := except_bind_eq_ok.mp h
  split at h
  · nomatch h
  · rename_i hlen
    obtain ⟨rfl, rfl, rfl⟩ : start' = start ∧ _ = tasks ∧ shared' = shared := by
      simpa only [Except.ok.injEq, Prod.mk.injEq] using h
    exact ⟨(startPosition_eq_ok hstart).1, by omega, prompts, inputs, rfl⟩

omit [LinearOrder κ] in
theorem prefixLength_blockTasks {task : BlockTask κ α} : ∀ {blocks : List _}
    {prompts inputs : List (Option (Tensor α))},
    task ∈ blockTasks prefixLength blocks prompts inputs → task.info.prefixLength = prefixLength
  | [], _, _, h => nomatch h
  | _ :: _, [], _, h => nomatch h
  | _ :: _, _ :: _, [], h => nomatch h
  | _ :: blocks, _ :: prompts, _ :: inputs, h => by
    rcases List.mem_cons.mp h with rfl | h
    · rfl
    · exact prefixLength_blockTasks h

/-- **Every task of a step works at the position the request asks for**, and ends inside the
    allocated length. -/
theorem submittedInfos_spec {info : InferenceMetadata α}
    (h : info ∈ submittedInfos span prefixLength request) :
    info.prefixLength = request.start prefixLength ∧
      info.prefixLength + request.lengthIncrement ≤ span.maxLength := by
  rw [submittedInfos] at h
  split at h
  · rename_i start tasks shared hparse
    obtain ⟨hstart, hmax, prompts, inputs, rfl⟩ := parseRequest_eq_ok hparse
    split at h
    · nomatch h
    · obtain ⟨task, htask, rfl⟩ := List.mem_map.mp h
      rw [prefixLength_blockTasks htask]
      exact ⟨hstart, hmax⟩
  · nomatch h

end Submitted

/-! ## The generator -/

section Generator

variable [Zero α] [Add α] {cfg : PoolConfig} {span : InferenceSpan κ α}

/-- One turn of the generator with the caches of the server; a turn that raises is the last. -/
def generatorTurn (span : InferenceSpan κ α) (s : Int × KVStore α cfg)
    (request : InferenceRequest κ α) : Option (Int × KVStore α cfg) :=
  match iterateRpcInference span s.1 request s.2 with
  | .ok (_, prefixLength) store => some (prefixLength, store)
  | .error _ _ => none

omit [Zero α] [Add α] in
/-- A task that is too long is refused before the runtime sees it. -/
theorem submitTask_too_long {β : Type} {maxBatchSize : Nat} {hiddenStates : Tensor α}
    (run : Tensor α → RuntimeM α cfg β) (h : maxBatchSize < getTaskSize hiddenStates)
    (store : KVStore α cfg) :
    ∃ e, submitTask maxBatchSize run hiddenStates store = .error e store := by
  rw [submitTask, if_pos h]
  exact ⟨_, rfl⟩

/-- Without a task to run, the step on the caches is none. -/
theorem finalState_runSpan {merge : Bool} {maxBatchSize : Nat} {hypoIds : List Int}
    {tasks : List (BlockTask κ α)} {shared : SharedKvStates κ α} {hiddenStates : Tensor α}
    (h : (isDummy hiddenStates ∨ maxBatchSize < getTaskSize hiddenStates) ∨ tasks = [])
    (store : KVStore α cfg) :
    finalState (runSpan merge maxBatchSize hypoIds tasks shared hiddenStates store) = store := by
  rw [runSpan]
  split
  · rfl
  rename_i hdummy
  rcases h with h | rfl
  · have hlong := h.resolve_left hdummy
    split
    · obtain ⟨e, he⟩ := submitTask_too_long (mergedInferenceStep hypoIds tasks shared) hlong
        store
      rw [mergedBranch, bind_of_error he]
      rfl
    · cases tasks with
      | nil => rfl
      | cons task tasks =>
        obtain ⟨e, he⟩ := submitTask_too_long (mergedInferenceStep hypoIds [task] shared) hlong
          store
        rw [perBlockBranch, bind_of_error he]
        rfl
  · split
    · refine keeps_bind_at (R := fun s s' => s' = s) (fun _ _ _ hab hbc => hbc.trans hab) ?_ ?_
      · rw [submitTask]
        split <;> rfl
      · rintro ⟨output, produced⟩ store' -
        dsimp only
        cases unflattenSharedKv (newDonorTypes [] shared.keys) produced <;> rfl
    · rfl

/-- A step that submits no task leaves the caches as they are. -/
theorem finalState_of_not_submitted {prefixLength : Int} {request : InferenceRequest κ α}
    (h : submittedInfos span prefixLength request = []) (store : KVStore α cfg) :
    finalState (iterateRpcInference span prefixLength request store) = store := by
  rw [iterateRpcInference, serveStep]
  rw [submittedInfos] at h
  cases hparse : parseRequest span prefixLength request with
  | error e => rfl
  | ok parsed =>
    obtain ⟨start, tasks, shared⟩ := parsed
    rw [hparse] at h
    have hidle : (isDummy request.hiddenStates ∨
        span.maxBatchSize < getTaskSize request.hiddenStates) ∨ tasks = [] := by
      dsimp only at h
      split at h
      · exact .inl ‹_›
      · exact .inr (List.map_eq_nil_iff.mp h)
    have hlift : (liftExcept (.ok (start, tasks, shared)) : RuntimeM α cfg _) store
        = .ok (start, tasks, shared) store := rfl
    rw [bind_of_ok hlift]
    refine keeps_bind_at (R := fun s s' => s' = s) (fun _ _ _ hab hbc => hbc.trans hab)
      (finalState_runSpan hidle store) ?_
    exact fun _ _ _ => rfl

/-- The position after a turn. -/
theorem generatorTurn_prefixLength {s s' : Int × KVStore α cfg} {request : InferenceRequest κ α}
    (h : generatorTurn span s request = some s') :
    s'.1 = request.start s.1 + request.lengthIncrement := by
  rw [generatorTurn] at h
  split at h
  · rename_i response prefixLength store hturn
    obtain rfl := Option.some.inj h
    obtain ⟨⟨start, tasks, shared⟩, store₁, hparse, hturn⟩ := bind_eq_ok.mp hturn
    obtain ⟨⟨output, produced⟩, store₂, _, hturn⟩ := bind_eq_ok.mp hturn
    obtain ⟨hparse, _⟩ := liftExcept_eq_ok.mp hparse
    obtain ⟨hstart, _⟩ := parseRequest_eq_ok hparse
    cases hturn
    rw [hstart]
  · nomatch h

omit [Add α] in
/-- A step is in range exactly if it does not start at a negative position. -/
theorem submitsInBounds_iff {prefixLength : Int} {request : InferenceRequest κ α} :
    SubmitsInBounds span prefixLength request ↔
      (submittedInfos span prefixLength request ≠ [] → 0 ≤ request.start prefixLength) := by
  constructor
  · intro h hsubmits
    obtain ⟨info, hinfo⟩ := List.exists_mem_of_ne_nil _ hsubmits
    rw [← (submittedInfos_spec hinfo).1]
    exact (h info hinfo).1
  · intro h info hinfo
    obtain ⟨hstart, hmax⟩ := submittedInfos_spec hinfo
    have hnonneg : 0 ≤ info.prefixLength := hstart ▸ h (List.ne_nil_of_mem hinfo)
    exact ⟨hnonneg, hmax, addressesExactly hnonneg hmax⟩

omit [LinearOrder κ] [Zero α] [Add α] in
theorem InferenceRequest.StartsInside.start_nonneg {prefixLength : Int}
    {request : InferenceRequest κ α} (h : request.StartsInside) (hlength : 0 ≤ prefixLength) :
    0 ≤ request.start prefixLength := by
  rw [InferenceRequest.start]
  cases hstart : request.startFromPosition with
  | none => exact hlength
  | some start => exact h start hstart

/-- **The prefix stays in range exactly while no step that submits a task starts at a negative
    position**, given or carried; and none does when no request of the session asks for one. -/
theorem run_prefix_in_bounds_iff (span : InferenceSpan κ α) (store : KVStore α cfg)
    (requests : List (InferenceRequest κ α)) :
    (AllSteps (generatorTurn span) (fun s request => SubmitsInBounds span s.1 request) (0, store)
        requests ↔
      AllSteps (generatorTurn span) (fun s request =>
        submittedInfos span s.1 request ≠ [] → 0 ≤ request.start s.1) (0, store) requests) ∧
    ((∀ request ∈ requests, request.StartsInside) →
      AllSteps (generatorTurn span) (fun s request => SubmitsInBounds span s.1 request) (0, store)
        requests) := by
  have hiff : AllSteps (generatorTurn span) (fun s request => SubmitsInBounds span s.1 request)
        (0, store) requests ↔
      AllSteps (generatorTurn span) (fun s request =>
        submittedInfos span s.1 request ≠ [] → 0 ≤ request.start s.1) (0, store) requests :=
    allSteps_congr (P := fun _ => True) (fun _ _ _ => ⟨submitsInBounds_iff, fun _ _ => trivial⟩)
      trivial
  refine ⟨hiff, fun hinside => hiff.mpr ?_⟩
  -- the carried prefix never gets negative
  refine allSteps_of_allSteps (P := fun s => 0 ≤ s.1) (C := fun _ request => request.StartsInside)
    ?_ (le_refl 0) (allSteps_of_forall_mem (fun request hrequest _ => hinside request hrequest) _)
  intro s request hlength hrequest
  have hstart := hrequest.start_nonneg hlength
  refine ⟨fun _ => hstart, fun s' hs' => ?_⟩
  rw [generatorTurn_prefixLength hs']
  omega

end Generator

/-- Two tokens for each of two rows, at position -1. -/
def tokensBeforeStart : InferenceRequest String Int :=
  TokenStep.request ⟨Tensor.ofFn [2, 2, 1] fun ix => 10 + ix.getD 0 0, [], some (-1)⟩

/-- A request for two positions and then one more, none of them negative. -/
theorem run_prefix_in_bounds_iff_rollback :
    AllSteps (generatorTurn firstTokenServer.span)
      (fun s request => SubmitsInBounds firstTokenServer.span s.1 request)
      (0, (Serving.new firstTokenCache : Serving Int (PagedKVPool.tokenConfig 1)).store)
      [TokenStep.request ⟨Tensor.ofFn [2, 2, 1] fun _ => 10, [], none⟩,
        TokenStep.request ⟨Tensor.ofFn [2, 1, 1] fun _ => 20, [], some 1⟩] :=
  (run_prefix_in_bounds_iff _ _ _).2 (by
    simp [TokenStep.request, InferenceRequest.StartsInside])

/-- The step at position -1 of a fresh session is served: it reads all positions but the last of a
    cache that holds nothing, and writes the last. -/
theorem negative_start_submitted :
    (generatorTurn firstTokenServer.span
      (0, (Serving.new firstTokenCache : Serving Int (PagedKVPool.tokenConfig 1)).store)
      tokensBeforeStart).isSome ∧
    (submittedInfos firstTokenServer.span 0 tokensBeforeStart).map (·.prefixLength) = [-1] ∧
    ¬ AllSteps (generatorTurn firstTokenServer.span)
      (fun s request => SubmitsInBounds firstTokenServer.span s.1 request)
      (0, (Serving.new firstTokenCache : Serving Int (PagedKVPool.tokenConfig 1)).store)
      [tokensBeforeStart] := by
  have hsubmitted : (submittedInfos firstTokenServer.span 0 tokensBeforeStart).map (·.prefixLength)
      = [-1] := by decide +kernel
  refine ⟨by decide +kernel, hsubmitted, fun h => ?_⟩
  obtain ⟨info, hinfo, hlength⟩ : ∃ info ∈ submittedInfos firstTokenServer.span 0 tokensBeforeStart,
      info.prefixLength = -1 := by
    refine List.mem_map.mp ?_
    rw [hsubmitted]
    exact List.mem_singleton_self _
  have hnonneg := (h.1 info hinfo).1
  omega

end Drift
