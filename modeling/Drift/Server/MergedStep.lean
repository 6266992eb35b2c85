/-
  The two branches of an inference step: one task for the whole span, or one task per block.

  Both run the same blocks in the same order on the same caches; they differ in the dict that a
  block is handed.  In the one task all blocks work on one dict.  In the task of its own every block
  gets a copy of the handler's dict, which holds what the client seeded and nothing else: the keys
  and values of a donor that ran earlier in the span come back to the handler and are put into
  `produced_shared_kv`, but never into the dict that the next task takes along.

  So the branches agree as long as every consumer reads what was seeded (`ReadsSeeded`), and a
  consumer behind a donor of its layer type raises `KeyError` in the long step.
-/
import Drift.Server.SharedKv
import Mathlib.Data.List.Dedup
import Mathlib.Data.String.Basic

namespace Drift

/-- `earlier` stores the entry that `later` reads. -/
def Feeds {κ : Type} (earlier later : KVRole κ) : Prop :=
  ∃ layerType, earlier = .donor layerType ∧ later = .consumer layerType

/-- No consumer of the span comes after a donor of its layer type. -/
def ReadsSeeded {κ : Type} (roles : List (KVRole κ)) : Prop :=
  roles.Pairwise fun earlier later => ¬ Feeds earlier later

/-- The part of a block of a task. -/
def BlockTask.role {κ α : Type} (task : BlockTask κ α) : KVRole κ := task.backend.module.role

/-- The parts of the blocks of a span. -/
def InferenceSpan.roles {κ α : Type} (span : InferenceSpan κ α) : List (KVRole κ) :=
  span.blocks.map fun block => block.1.module.role

variable {κ α : Type} [LinearOrder κ]

/-- `produced` holds what the dict holds beyond the seeded entries. -/
def ProducedOver (seeded shared produced : SharedKvStates κ α) : Prop :=
  ∀ layerType, produced.lookup layerType =
    if layerType ∈ seeded then none else shared.lookup layerType

theorem producedOver_empty (seeded : SharedKvStates κ α) : ProducedOver seeded seeded ∅ := by
  intro layerType
  split
  · rfl
  · rename_i hnot
    exact (AList.lookup_eq_none.mpr hnot).symm

/-- What a dict holds beyond the seeded entries is the same however it was collected. -/
theorem ProducedOver.lookup_eq {seeded shared produced produced' : SharedKvStates κ α}
    (h : ProducedOver seeded shared produced) (h' : ProducedOver seeded shared produced')
    (layerType : κ) : produced.lookup layerType = produced'.lookup layerType :=
  (h layerType).trans (h' layerType).symm

/-! ## One block -/

omit [LinearOrder κ] in
theorem mem_donorLayerTypes {backend : TransformerBackend κ α} {layerType : κ} :
    layerType ∈ backend.donorLayerTypes ↔ backend.module.role = .donor layerType := by
  rw [TransformerBackend.donorLayerTypes]
  cases backend.module.role <;> simp [eq_comm]

/-- A block that does not feed a consumer cannot change what the consumer reads. -/
theorem read_write_of_not_feeds {role role' : KVRole κ} (h : ¬ Feeds role role')
    (kv : Option (KVPair α)) (shared : SharedKvStates κ α) :
    role'.read (role.write kv shared) = role'.read shared := by
  cases role' with
  | ordinary => rfl
  | donor layerType => rfl
  | consumer layerType' =>
    cases role with
    | ordinary => rfl
    | consumer layerType => rfl
    | donor layerType =>
      cases kv with
      | none => rfl
      | some kv =>
        have hne : layerType' ≠ layerType := by
          rintro rfl
          exact h ⟨_, rfl, rfl⟩
        exact AList.lookup_insert_ne hne

/-- What the handler adds to `produced_shared_kv` after the task of one block. -/
theorem unflattenSharedKv_of_write {backend : TransformerBackend κ α} {kv : Option (KVPair α)}
    {seeded : SharedKvStates κ α}
    (hkv : ∀ layerType, backend.module.role = .donor layerType → layerType ∉ seeded → kv.isSome) :
    ∃ items, unflattenSharedKv (backend.donorLayerTypes.filter (· ∉ seeded.keys))
        (extractProducedSharedKv (backend.module.role.write kv seeded) seeded.keys) = .ok items ∧
      ∀ {shared produced : SharedKvStates κ α}, ProducedOver seeded shared produced →
        ProducedOver seeded (backend.module.role.write kv shared) (updateShared produced items) := by
  have hsame : ∀ types : List κ, types = [] →
      unflattenSharedKv types (extractProducedSharedKv seeded seeded.keys) = .ok [] := by
    rintro _ rfl
    rw [extractProducedSharedKv_self]
    rfl
  rw [TransformerBackend.donorLayerTypes]
  cases hrole : backend.module.role with
  | ordinary => exact ⟨[], hsame _ rfl, fun h => h⟩
  | consumer layerType => exact ⟨[], hsame _ rfl, fun h => h⟩
  | donor layerType =>
    cases kv with
    | none =>
      have hmem : layerType ∈ seeded := by
        by_contra hnot
        exact absurd (hkv layerType hrole hnot) (by simp)
      refine ⟨[], hsame _ ?_, fun h => h⟩
      exact List.filter_eq_nil_iff.mpr fun k hk => by
        simpa [List.mem_singleton.mp hk] using AList.mem_keys.mp hmem
    | some kv =>
      simp only [KVRole.write, extractProducedSharedKv_insert]
      by_cases hmem : layerType ∈ seeded
      · have htypes : [layerType].filter (· ∉ seeded.keys) = [] :=
          List.filter_eq_nil_iff.mpr fun k hk => by
            simpa [List.mem_singleton.mp hk] using AList.mem_keys.mp hmem
        rw [htypes, if_pos hmem]
        refine ⟨[], rfl, fun h k => ?_⟩
        -- a seeded entry is never counted as produced
        by_cases hk : k ∈ seeded
        · rw [if_pos hk, updateShared, List.foldl_nil, h k, if_pos hk]
        · have hne : k ≠ layerType := fun he => hk (he ▸ hmem)
          rw [if_neg hk, AList.lookup_insert_ne hne, updateShared, List.foldl_nil, h k, if_neg hk]
      · have htypes : [layerType].filter (· ∉ seeded.keys) = [layerType] :=
          List.filter_eq_self.mpr fun k hk => by
            simpa [List.mem_singleton.mp hk] using fun hm => hmem (AList.mem_keys.mpr hm)
        rw [htypes, if_neg hmem]
        refine ⟨[(layerType, kv)], rfl, fun h k => ?_⟩
        rw [updateShared, List.foldl_cons, List.foldl_nil]
        by_cases hk : k = layerType
        · subst hk
          rw [if_neg hmem, AList.lookup_insert, AList.lookup_insert]
        · rw [AList.lookup_insert_ne hk, AList.lookup_insert_ne hk, h k]

/-! ## The loops -/

section Loops

variable [Zero α] [Add α] {cfg : PoolConfig} {hypoIds : List Int} {maxBatchSize : Nat}

omit [LinearOrder κ] [Zero α] [Add α] in
theorem getTaskSize_congr {t u : Tensor α} (h : t.shape = u.shape) :
    getTaskSize t = getTaskSize u := by
  rw [getTaskSize, getTaskSize, h]

omit [LinearOrder κ] in
theorem shape_addPrompt {prompt : Option (Tensor α)} {t u : Tensor α}
    (h : addPrompt prompt t = .ok u) : u.shape = t.shape := by
  cases prompt with
  | none =>
    cases h
    rfl
  | some prompt =>
    simp only [addPrompt] at h
    split at h
    · cases h
      rfl
    · nomatch h

/-- A turn of the loop of `_MergedInferenceStep`. -/
theorem mergedLoop_cons {task : BlockTask κ α} {tasks : List (BlockTask κ α)}
    {hiddenStates hiddenStates' : Tensor α} {shared shared' : SharedKvStates κ α}
    {store store' : KVStore α cfg}
    (h : mergedLoop hypoIds (task :: tasks) hiddenStates shared store
      = .ok (hiddenStates', shared') store') :
    ∃ input output produced shared₁ store₁, addPrompt task.prompt hiddenStates = .ok input ∧
      task.backend.inferenceStep input hypoIds task.info shared store
        = .ok (output, produced, shared₁) store₁ ∧
      mergedLoop hypoIds tasks output shared₁ store₁ = .ok (hiddenStates', shared') store' := by
  obtain ⟨input, _, hlift, hrest⟩ := bind_eq_ok.mp h
  obtain ⟨hinput, rfl⟩ := liftExcept_eq_ok.mp hlift
  obtain ⟨⟨output, produced, shared₁⟩, store₁, hstep, hloop⟩ := bind_eq_ok.mp hrest
  exact ⟨input, output, produced, shared₁, store₁, hinput, hstep, hloop⟩

/-- The task of a single block. -/
theorem mergedInferenceStep_single {task : BlockTask κ α} {hiddenStates input output : Tensor α}
    {produced : List (Tensor α)} {shared shared' : SharedKvStates κ α}
    {store store' : KVStore α cfg} (hinput : addPrompt task.prompt hiddenStates = .ok input)
    (hstep : task.backend.inferenceStep input hypoIds task.info shared store
      = .ok (output, produced, shared') store') :
    mergedInferenceStep hypoIds [task] shared hiddenStates store
      = .ok (output, extractProducedSharedKv shared' shared.keys) store' := by
  refine bind_eq_ok.mpr ⟨(output, shared'), store', ?_, rfl⟩
  exact bind_eq_ok.mpr ⟨input, store, liftExcept_eq_ok.mpr ⟨hinput, rfl⟩,
    bind_eq_ok.mpr ⟨(output, produced, shared'), store', hstep, rfl⟩⟩

/-- **Task by task.** Where every consumer reads what was seeded, the tasks of the single blocks do
    what the one task does. -/
theorem perBlockBranch_of_mergedLoop {seeded : SharedKvStates κ α} :
    ∀ {tasks : List (BlockTask κ α)} {hiddenStates hiddenStates' : Tensor α}
      {shared shared' produced : SharedKvStates κ α} {store store' : KVStore α cfg},
      ReadsSeeded (tasks.map BlockTask.role) →
      (∀ task ∈ tasks, task.role.read shared = task.role.read seeded) →
      (store.isPaged = true → ∀ task ∈ tasks, ∀ layerType, task.role = .donor layerType →
        layerType ∈ seeded) →
      getTaskSize hiddenStates ≤ maxBatchSize → ProducedOver seeded shared produced →
      mergedLoop hypoIds tasks hiddenStates shared store
        = .ok (hiddenStates', shared') store' →
      ∃ produced', perBlockBranch maxBatchSize hypoIds seeded tasks hiddenStates produced store
          = .ok (hiddenStates', produced') store' ∧ ProducedOver seeded shared' produced'
  | [], hiddenStates, _, shared, _, produced, store, _, _, _, _, _, hproduced, h => by
    cases h
    exact ⟨produced, rfl, hproduced⟩
  | task :: tasks, hiddenStates, hiddenStates', shared, shared', produced, store, store',
      hseeded, hread, hpaged, hsize, hproduced, h => by
    obtain ⟨input, output, _, shared₁, store₁, hinput, hstep, h⟩ := mergedLoop_cons h
    obtain ⟨hfeeds, hseeded⟩ := List.pairwise_cons.mp hseeded
    obtain ⟨kv, rfl, hstored, _, hkind, hshape, hstep₂⟩ :=
      TransformerBackend.inferenceStep_transfer (hread task List.mem_cons_self) hstep
    have hsome : ∀ layerType, task.role = .donor layerType → layerType ∉ seeded →
        kv.isSome := by
      intro layerType hrole hnot
      cases hkind : store.isPaged with
      | false => exact hstored hkind layerType hrole
      | true => exact absurd (hpaged hkind task List.mem_cons_self layerType hrole) hnot
    obtain ⟨items, hitems, hover⟩ := unflattenSharedKv_of_write hsome
    have hread' : ∀ later ∈ tasks,
        later.role.read (task.role.write kv shared) = later.role.read seeded := by
      intro later hlater
      rw [read_write_of_not_feeds (hfeeds _ (List.mem_map_of_mem hlater))]
      exact hread later (List.mem_cons_of_mem _ hlater)
    have hsize' : getTaskSize output ≤ maxBatchSize := by
      rw [getTaskSize_congr (hshape.trans (shape_addPrompt hinput))]
      exact hsize
    obtain ⟨produced', hrest, hproduced'⟩ := perBlockBranch_of_mergedLoop hseeded hread'
      (fun hp later hlater => hpaged (hkind ▸ hp) later (List.mem_cons_of_mem _ hlater)) hsize'
      (hover hproduced) h
    refine ⟨produced', ?_, hproduced'⟩
    have htask : submitTask maxBatchSize (mergedInferenceStep hypoIds [task] seeded) hiddenStates
        store = .ok (output, extractProducedSharedKv (task.role.write kv seeded) seeded.keys)
          store₁ := by
      rw [submitTask, if_neg (by omega)]
      exact mergedInferenceStep_single hinput hstep₂
    exact bind_eq_ok.mpr ⟨_, store₁, htask, bind_eq_ok.mpr ⟨items, store₁,
      liftExcept_eq_ok.mpr ⟨hitems, rfl⟩, hrest⟩⟩

/-- A consumer whose entry was not seeded stops the tasks of the single blocks. -/
theorem perBlockBranch_ne_ok {seeded : SharedKvStates κ α} {task : BlockTask κ α}
    {layerType : κ} (hrole : task.role = .consumer layerType) (hmissing : layerType ∉ seeded) :
    ∀ {tasks : List (BlockTask κ α)} {hiddenStates : Tensor α} {produced : SharedKvStates κ α}
      {store store' : KVStore α cfg} (r : Tensor α × SharedKvStates κ α), task ∈ tasks →
      perBlockBranch maxBatchSize hypoIds seeded tasks hiddenStates produced store ≠ .ok r store'
  | first :: tasks, hiddenStates, produced, store, store', r, hmem, h => by
    obtain ⟨⟨output, tensors⟩, store₁, htask, h⟩ := bind_eq_ok.mp h
    obtain ⟨items, _, _, h⟩ := bind_eq_ok.mp h
    rcases List.mem_cons.mp hmem with rfl | hmem
    · rw [submitTask] at htask
      split at htask
      · nomatch htask
      · obtain ⟨_, _, hloop, _⟩ := bind_eq_ok.mp htask
        obtain ⟨_, _, _, _, _, _, hstep, _⟩ := mergedLoop_cons hloop
        exact TransformerBackend.inferenceStep_of_missing hrole
          (AList.lookup_eq_none.mpr hmissing) _ hstep
    · exact perBlockBranch_ne_ok hrole hmissing r hmem h

/-- What the dict holds after the one task: what it held, and the entries of the donors. -/
theorem mem_of_mergedLoop : ∀ {tasks : List (BlockTask κ α)} {hiddenStates hiddenStates' : Tensor α}
    {shared shared' : SharedKvStates κ α} {store store' : KVStore α cfg},
    mergedLoop hypoIds tasks hiddenStates shared store = .ok (hiddenStates', shared') store' →
    ∀ layerType, layerType ∈ shared' ↔ layerType ∈ shared ∨
      (store.isPaged = false ∧ ∃ task ∈ tasks, task.role = .donor layerType)
  | [], _, _, _, _, _, _, h, layerType => by
    cases h
    simp
  | task :: tasks, _, _, shared, _, store, _, h, layerType => by
    obtain ⟨input, output, _, shared₁, store₁, _, hstep, h⟩ := mergedLoop_cons h
    obtain ⟨kv, rfl, hstored, hnone, hkind, _, _⟩ :=
      TransformerBackend.inferenceStep_transfer rfl hstep
    have hwrite : layerType ∈ task.role.write kv shared ↔
        layerType ∈ shared ∨ (store.isPaged = false ∧ task.role = .donor layerType) := by
      cases hpaged : store.isPaged with
      | true =>
        rw [hnone hpaged, KVRole.write_none]
        simp
      | false =>
        cases hrole : task.role with
        | ordinary => simp [KVRole.write]
        | consumer layerType' => simp [KVRole.write]
        | donor layerType' =>
          obtain ⟨kv, rfl⟩ := Option.isSome_iff_exists.mp (hstored hpaged layerType' hrole)
          simp only [KVRole.write, AList.mem_insert, true_and, KVRole.donor.injEq]
          constructor
          · rintro (rfl | h)
            · exact .inr rfl
            · exact .inl h
          · rintro (h | rfl)
            · exact .inr h
            · exact .inl rfl
    rw [mem_of_mergedLoop h layerType]
    show layerType ∈ task.role.write kv shared ∨ _ ↔ _
    rw [hwrite, hkind]
    simp only [List.mem_cons, exists_eq_or_imp]
    tauto

/-- The entries that the one task returns: those of the dict that were not seeded. -/
def producedKeys (seeded shared : SharedKvStates κ α) : List κ :=
  pySorted (shared.keys.filter (· ∉ seeded.keys))

omit [Zero α] [Add α] in
/-- What a task sends back are the keys that were not seeded. -/
theorem mem_producedKeys {seeded shared : SharedKvStates κ α} {layerType : κ} :
    layerType ∈ producedKeys seeded shared ↔ layerType ∈ shared ∧ layerType ∉ seeded := by
  simp only [producedKeys, mem_pySorted, List.mem_filter, decide_eq_true_eq, ← AList.mem_keys]

omit [Zero α] [Add α] in
/-- The layer types a merged task adds are those of its donors that were not seeded. -/
theorem mem_newDonorTypes {tasks : List (BlockTask κ α)} {seeded : SharedKvStates κ α}
    {layerType : κ} : layerType ∈ newDonorTypes tasks seeded.keys ↔
      (∃ task ∈ tasks, task.role = .donor layerType) ∧ layerType ∉ seeded := by
  rw [newDonorTypes, mem_pySorted]
  simp only [List.mem_filter, List.mem_dedup, List.mem_flatMap, decide_eq_true_eq,
    ← AList.mem_keys, mem_donorLayerTypes]
  rfl

/-- The handler pairs the tensors with the layer types that the runtime has sorted them by. -/
theorem newDonorTypes_eq_producedKeys {tasks : List (BlockTask κ α)}
    {hiddenStates hiddenStates' : Tensor α} {seeded shared : SharedKvStates κ α}
    {store store' : KVStore α cfg}
    (hloop : mergedLoop hypoIds tasks hiddenStates seeded store
      = .ok (hiddenStates', shared) store')
    (hlen : (newDonorTypes tasks seeded.keys).length = (producedKeys seeded shared).length) :
    newDonorTypes tasks seeded.keys = producedKeys seeded shared := by
  have hmem := mem_of_mergedLoop hloop
  cases hpaged : store.isPaged with
  | false =>
    refine pySorted_congr ((List.nodup_dedup _).filter _) (shared.keys_nodup.filter _) fun k => ?_
    rw [mem_pySorted.symm.trans mem_newDonorTypes, mem_pySorted.symm.trans mem_producedKeys, hmem]
    simp only [hpaged, true_and]
    tauto
  | true =>
    have hnil : producedKeys seeded shared = [] := by
      refine List.eq_nil_iff_forall_not_mem.mpr fun k hk => ?_
      obtain ⟨hk, hnot⟩ := mem_producedKeys.mp hk
      rcases (hmem k).mp hk with hk | ⟨hp, _⟩
      · exact hnot hk
      · exact nomatch hpaged.symm.trans hp
    rw [hnil] at hlen ⊢
    exact List.eq_nil_of_length_eq_zero hlen

/-- What the handler makes of the tensors of the one task. -/
theorem mergedBranch_ok {tasks : List (BlockTask κ α)} {hiddenStates hiddenStates' : Tensor α}
    {seeded produced : SharedKvStates κ α} {store store' : KVStore α cfg}
    (h : mergedBranch maxBatchSize hypoIds tasks seeded hiddenStates store
      = .ok (hiddenStates', produced) store') :
    ∃ shared, mergedLoop hypoIds tasks hiddenStates seeded store
        = .ok (hiddenStates', shared) store' ∧
      getTaskSize hiddenStates ≤ maxBatchSize ∧ ProducedOver seeded shared produced ∧
      newDonorTypes tasks seeded.keys = producedKeys seeded shared := by
  obtain ⟨⟨output, tensors⟩, store₁, htask, hrest⟩ := bind_eq_ok.mp h
  obtain ⟨items, store₂, hlift, hret⟩ := bind_eq_ok.mp hrest
  obtain ⟨hitems, rfl⟩ := liftExcept_eq_ok.mp hlift
  cases hret
  rw [submitTask] at htask
  split at htask
  · nomatch htask
  rename_i hsize
  obtain ⟨⟨o, shared⟩, store₃, hloop, htask⟩ := bind_eq_ok.mp htask
  cases htask
  obtain ⟨hlen, hfst, hlookup⟩ := zip_pairTensors_kvTensors
    fun k (hk : k ∈ producedKeys seeded shared) => (mem_producedKeys.mp hk).1
  rw [unflattenSharedKv] at hitems
  split at hitems
  · rename_i hcount
    have hsame := newDonorTypes_eq_producedKeys hloop (by
      have hdouble := hlen.symm.trans hcount
      omega)
    cases hitems
    refine ⟨shared, hloop, by omega, fun k => ?_, hsame⟩
    rw [hsame]
    show (updateShared ∅ ((producedKeys seeded shared).zip
      (pairTensors (kvTensors shared (producedKeys seeded shared))))).lookup k = _
    rw [lookup_updateShared hlookup k, hfst]
    by_cases hk : k ∈ seeded
    · rw [if_pos hk, if_neg fun hin => (mem_producedKeys.mp hin).2 hk]
      rfl
    · rw [if_neg hk]
      split
      · rfl
      · rename_i hnot
        exact (AList.lookup_eq_none.mpr fun hin =>
          hnot (mem_producedKeys.mpr ⟨hin, hk⟩)).symm
  · nomatch hitems

/-- In pages no donor's entry comes back, so the one task returns only if all were seeded. -/
theorem donors_seeded_of_paged {tasks : List (BlockTask κ α)}
    {hiddenStates hiddenStates' : Tensor α} {seeded shared : SharedKvStates κ α}
    {store store' : KVStore α cfg}
    (hloop : mergedLoop hypoIds tasks hiddenStates seeded store
      = .ok (hiddenStates', shared) store')
    (hsame : newDonorTypes tasks seeded.keys = producedKeys seeded shared)
    (hpaged : store.isPaged = true) {task : BlockTask κ α} (htask : task ∈ tasks) {layerType : κ}
    (hrole : task.role = .donor layerType) : layerType ∈ seeded := by
  by_contra hnot
  have hin : layerType ∈ producedKeys seeded shared :=
    hsame ▸ mem_newDonorTypes.mpr ⟨⟨task, htask, hrole⟩, hnot⟩
  rcases (mem_of_mergedLoop hloop layerType).mp (mem_producedKeys.mp hin).1 with hk | ⟨hp, _⟩
  · exact hnot hk
  · exact nomatch hpaged.symm.trans hp

/-- Where the one task returns and every consumer reads what was seeded, the tasks of the single
    blocks return the same. -/
theorem perBlockBranch_of_mergedBranch {tasks : List (BlockTask κ α)}
    {hiddenStates hiddenStates' : Tensor α} {seeded produced : SharedKvStates κ α}
    {store store' : KVStore α cfg} (hreads : ReadsSeeded (tasks.map BlockTask.role))
    (h : mergedBranch maxBatchSize hypoIds tasks seeded hiddenStates store
      = .ok (hiddenStates', produced) store') :
    ∃ produced', perBlockBranch maxBatchSize hypoIds seeded tasks hiddenStates ∅ store
        = .ok (hiddenStates', produced') store' ∧
      ∀ layerType, produced'.lookup layerType = produced.lookup layerType := by
  obtain ⟨shared, hloop, hsize, hproduced, hsame⟩ := mergedBranch_ok h
  obtain ⟨produced', hbranch, hproduced'⟩ := perBlockBranch_of_mergedLoop hreads
    (fun _ _ => rfl)
    (fun hpaged task htask layerType hrole =>
      donors_seeded_of_paged hloop hsame hpaged htask hrole)
    hsize (producedOver_empty seeded) hloop
  exact ⟨produced', hbranch, hproduced'.lookup_eq hproduced⟩

/-- Where the tasks of the single blocks return, no consumer waits for a donor of the span. -/
theorem readsSeeded_of_perBlockBranch {tasks : List (BlockTask κ α)} {hiddenStates : Tensor α}
    {seeded produced : SharedKvStates κ α} {store store' : KVStore α cfg}
    {r : Tensor α × SharedKvStates κ α}
    (hseeded : (tasks.map BlockTask.role).Pairwise fun earlier later =>
      ∀ layerType, earlier = .donor layerType → later = .consumer layerType → layerType ∉ seeded)
    (h : perBlockBranch maxBatchSize hypoIds seeded tasks hiddenStates produced store
      = .ok r store') : ReadsSeeded (tasks.map BlockTask.role) := by
  refine hseeded.imp_of_mem fun {earlier later} _ hlater hnot => ?_
  rintro ⟨layerType, hearlier, hlater'⟩
  obtain ⟨task, htask, rfl⟩ := List.mem_map.mp hlater
  exact perBlockBranch_ne_ok hlater' (hnot layerType hearlier hlater') r htask h

end Loops

/-! ## The message -/

section Message

theorem mem_updateShared : ∀ {items : List (κ × KVPair α)} {shared : SharedKvStates κ α}
    {layerType : κ}, layerType ∈ updateShared shared items ↔
      layerType ∈ items.map Prod.fst ∨ layerType ∈ shared
  | [], _, _ => by simp [updateShared]
  | item :: items, shared, layerType => by
    rw [updateShared, List.foldl_cons, ← updateShared, mem_updateShared, AList.mem_insert,
      List.map_cons, List.mem_cons]
    tauto

omit [LinearOrder κ] in
theorem length_pairTensors : ∀ {n : Nat} {tensors : List (Tensor α)}, tensors.length = 2 * n →
    (pairTensors tensors).length = n
  | 0, [], _ => rfl
  | 0, _ :: _, h => by simp at h
  | n + 1, [], h => by simp at h
  | n + 1, [_], h => by
    simp only [List.length_cons, List.length_nil] at h
    omega
  | n + 1, key :: value :: tensors, h => by
    have hlen : tensors.length = 2 * n := by
      simp only [List.length_cons] at h
      omega
    rw [pairTensors, List.length_cons, length_pairTensors hlen]

/-- The dict holds exactly the layer types that the client names. -/
theorem mem_parseSharedKv {keys : List κ} {tensors : List (Tensor α)}
    {shared : SharedKvStates κ α} (h : parseSharedKv keys tensors = .ok shared) (layerType : κ) :
    layerType ∈ shared ↔ layerType ∈ keys := by
  rw [parseSharedKv] at h
  split at h
  · rename_i hnil
    cases h
    simp [hnil]
  · rw [unflattenSharedKv] at h
    split at h
    · rename_i hlen
      cases h
      have hfst : (keys.zip (pairTensors tensors)).map Prod.fst = keys :=
        List.map_fst_zip (by rw [length_pairTensors hlen])
      rw [mem_updateShared, hfst]
      simp
    · nomatch h

omit [LinearOrder κ] in
theorem map_role_blockTasks (prefixLength : Int) :
    ∀ {blocks : List (TransformerBackend κ α × Nat)} {prompts inputs : List (Option (Tensor α))},
      prompts.length = blocks.length → inputs.length = blocks.length →
      (blockTasks prefixLength blocks prompts inputs).map BlockTask.role =
        blocks.map fun block => block.1.module.role
  | [], _, _, _, _ => by simp [blockTasks]
  | _ :: _, [], _, h, _ => by simp at h
  | _ :: _, _ :: _, [], _, h => by simp at h
  | (backend, handle) :: blocks, prompt :: prompts, input :: inputs, h, h' => by
    have hrec := map_role_blockTasks prefixLength (Nat.succ.inj h) (Nat.succ.inj h')
    rw [blockTasks, List.map_cons, List.map_cons, hrec]
    rfl

omit [LinearOrder κ] in
theorem length_parsePrompts {n : Nat} {prompts : List (Tensor α)}
    {parsed : List (Option (Tensor α))} (h : parsePrompts n prompts = .ok parsed) :
    parsed.length = n := by
  rw [parsePrompts] at h
  split at h
  · cases h
    exact List.length_replicate
  · split at h
    · rename_i hlen
      cases h
      rw [List.length_map, hlen]
    · nomatch h

omit [LinearOrder κ] in
theorem length_parsePerLayerInputs {n : Nat} {inputs : List (Tensor α)}
    {parsed : List (Option (Tensor α))} (h : parsePerLayerInputs n inputs = .ok parsed) :
    parsed.length = n := by
  rw [parsePerLayerInputs] at h
  split at h
  · cases h
    exact List.length_replicate
  · split at h
    · rename_i hlen
      cases h
      rw [List.length_map, hlen]
    · nomatch h

/-- The blocks to run are those of the span, and the dict names the layer types of the message. -/
theorem parseRequest_ok {span : InferenceSpan κ α} {prefixLength start : Int}
    {request : InferenceRequest κ α} {tasks : List (BlockTask κ α)} {shared : SharedKvStates κ α}
    (h : parseRequest span prefixLength request = .ok (start, tasks, shared)) :
    tasks.map BlockTask.role = span.roles ∧
      ∀ layerType, layerType ∈ shared ↔ layerType ∈ request.sharedKvKeys := by
  obtain ⟨_, _, h⟩ := except_bind_eq_ok.mp h
  obtain ⟨prompts, hprompts, h⟩ := except_bind_eq_ok.mp h
  obtain ⟨inputs, hinputs, h⟩ := except_bind_eq_ok.mp h
  obtain ⟨shared', hshared, h⟩ := except_bind_eq_ok.mp h
  split at h
  · nomatch h
  · cases h
    exact ⟨map_role_blockTasks _ (length_parsePrompts hprompts) (length_parsePerLayerInputs hinputs),
      mem_parseSharedKv hshared⟩

variable [Zero α] [Add α] {cfg : PoolConfig}

/-- A step on parsed arguments. -/
theorem serveStep_ok {merge : Bool} {span : InferenceSpan κ α} {prefixLength position : Int}
    {request : InferenceRequest κ α} {response : InferenceResponse κ α}
    {store store' : KVStore α cfg} :
    serveStep merge span prefixLength request store = .ok (response, position) store' ↔
      ∃ start tasks shared hiddenStates produced,
        parseRequest span prefixLength request = .ok (start, tasks, shared) ∧
        runSpan merge span.maxBatchSize request.hypoIds tasks shared request.hiddenStates store
          = .ok (hiddenStates, produced) store' ∧
        response = respond request shared hiddenStates produced ∧
        position = start + request.lengthIncrement := by
  constructor
  · intro h
    obtain ⟨⟨start, tasks, shared⟩, _, hlift, hrest⟩ := bind_eq_ok.mp h
    obtain ⟨hparse, rfl⟩ := liftExcept_eq_ok.mp hlift
    obtain ⟨⟨hiddenStates, produced⟩, _, hrun, hret⟩ := bind_eq_ok.mp hrest
    cases hret
    exact ⟨start, tasks, shared, hiddenStates, produced, hparse, hrun, rfl, rfl⟩
  · rintro ⟨start, tasks, shared, hiddenStates, produced, hparse, hrun, rfl, rfl⟩
    exact bind_eq_ok.mpr ⟨_, store, liftExcept_eq_ok.mpr ⟨hparse, rfl⟩,
      bind_eq_ok.mpr ⟨_, store', hrun, rfl⟩⟩

omit [Zero α] [Add α] in
/-- Equal dicts are answered with equal messages. -/
theorem respond_congr {request : InferenceRequest κ α} {shared produced produced' :
    SharedKvStates κ α} {hiddenStates : Tensor α}
    (h : ∀ layerType, produced.lookup layerType = produced'.lookup layerType) :
    respond request shared hiddenStates produced = respond request shared hiddenStates produced' := by
  rw [respond, respond, flattenSharedKv_congr h, isEmpty_keys_congr h]

/-- **The short and the long step.** Let the step return as one task.  Task by task it yields the
    same message and leaves the same caches exactly if it has no tokens or every consumer of the
    span reads what was seeded. -/
theorem serveStep_branches_agree_iff (span : InferenceSpan κ α) (prefixLength position : Int)
    (request : InferenceRequest κ α) (response : InferenceResponse κ α)
    (store store' : KVStore α cfg)
    (hseeded : span.roles.Pairwise fun earlier later => ∀ layerType,
      earlier = .donor layerType → later = .consumer layerType → layerType ∉ request.sharedKvKeys)
    (hmerged : serveStep true span prefixLength request store
      = .ok (response, position) store') :
    serveStep false span prefixLength request store = .ok (response, position) store' ↔
      isDummy request.hiddenStates = true ∨ ReadsSeeded span.roles := by
  obtain ⟨start, tasks, shared, hiddenStates, produced, hparse, hrun, rfl, rfl⟩ :=
    serveStep_ok.mp hmerged
  obtain ⟨hroles, hkeys⟩ := parseRequest_ok hparse
  rw [← hroles] at hseeded ⊢
  have hseeded' := hseeded.imp fun h layerType hearlier hlater hmem =>
    h layerType hearlier hlater ((hkeys layerType).mp hmem)
  by_cases hdummy : isDummy request.hiddenStates = true
  · -- nothing is run
    refine iff_of_true (serveStep_ok.mpr
      ⟨start, tasks, shared, hiddenStates, produced, hparse, ?_, rfl, rfl⟩) (.inl hdummy)
    rw [runSpan, if_pos hdummy] at hrun ⊢
    exact hrun
  · rw [runSpan, if_neg hdummy, if_pos rfl] at hrun
    constructor
    · intro h
      obtain ⟨_, _, _, _, _, hparse', hrun', _⟩ := serveStep_ok.mp h
      rw [hparse] at hparse'
      cases hparse'
      rw [runSpan, if_neg hdummy, if_neg Bool.false_ne_true] at hrun'
      exact .inr (readsSeeded_of_perBlockBranch hseeded' hrun')
    · rintro (hd | hreads)
      · exact absurd hd hdummy
      · obtain ⟨produced', hrun', hlookup⟩ := perBlockBranch_of_mergedBranch hreads hrun
        refine serveStep_ok.mpr ⟨start, tasks, shared, hiddenStates, produced', hparse, ?_,
          respond_congr fun layerType => (hlookup layerType).symm, rfl⟩
        rw [runSpan, if_neg hdummy, if_neg Bool.false_ne_true]
        exact hrun'

end Message

/-! ## A donor and its consumer in one span -/

/-- A block that passes its input on and stores it as its keys and values. -/
def echoBackend (role : KVRole String) : TransformerBackend String Int where
  module :=
    { role := role
      run := fun _ hiddenStates layerPast _ =>
        .ok (hiddenStates, layerPast, hiddenStates, hiddenStates)
      shape_run := fun _ _ _ _ _ h => by cases h; rfl }
  shardNumHeads := [1]
  dtypeBytes := 2
  maxChunkSizeBytes := 1024
  numHeads_pos := Nat.one_pos
  dtypeBytes_pos := Nat.two_pos

def echoSpan (roles : List (KVRole String)) : InferenceSpan String Int where
  blocks := roles.mapIdx fun i role => (echoBackend role, i)
  maxLength := 4
  mergeMaxTokens := 128
  maxBatchSize := 2048

/-- One token for one row. -/
def echoRequest (sharedKvKeys : List String) (sharedKvTensors : List (Tensor Int)) :
    InferenceRequest String Int where
  hiddenStates := Tensor.ofFn [1, 1, 1] fun _ => 7
  prompts := []
  hypoIds := []
  perLayerInputs := []
  sharedKvInputTensors := sharedKvTensors
  sharedKvKeys := sharedKvKeys
  startFromPosition := none

def echoStore (numBlocks : Nat) : KVStore Int (PagedKVPool.tokenConfig 1) :=
  .contiguous ((List.range numBlocks).foldl (fun store handle =>
    store.insert handle [(Tensor.zeros [1, 1, 1, 4], Tensor.zeros [1, 1, 4, 1])]) ∅)

/-- A consumer that is seeded: a span for which the two branches agree. -/
theorem serveStep_branches_agree_iff_example :
    ∃ response position store',
      serveStep true (echoSpan [.ordinary, .consumer "full_attention"]) 0
        (echoRequest ["full_attention"] [Tensor.zeros [1], Tensor.zeros [1]]) (echoStore 2)
        = .ok (response, position) store' ∧
      serveStep false (echoSpan [.ordinary, .consumer "full_attention"]) 0
        (echoRequest ["full_attention"] [Tensor.zeros [1], Tensor.zeros [1]]) (echoStore 2)
        = .ok (response, position) store' := by
  obtain ⟨⟨response, position⟩, store', h⟩ := exists_of_returns
    (show returns (serveStep true (echoSpan [.ordinary, .consumer "full_attention"]) 0
      (echoRequest ["full_attention"] [Tensor.zeros [1], Tensor.zeros [1]]) (echoStore 2)) = true
      by decide +kernel)
  refine ⟨response, position, store', h, ?_⟩
  refine (serveStep_branches_agree_iff _ _ _ _ _ _ _ ?_ h).mpr (.inr ?_)
  · simp [InferenceSpan.roles, echoSpan, echoBackend]
  · simp [ReadsSeeded, InferenceSpan.roles, echoSpan, echoBackend, Feeds]

/-- A donor and behind it a consumer of its layer type: one task serves the step, a task per block
    does not. -/
theorem consumer_behind_donor_diverges :
    (∃ result store', serveStep true
      (echoSpan [.donor "full_attention", .consumer "full_attention"]) 0 (echoRequest [] [])
      (echoStore 2) = .ok result store') ∧
    ¬ ∃ result store', serveStep false
      (echoSpan [.donor "full_attention", .consumer "full_attention"]) 0 (echoRequest [] [])
      (echoStore 2) = .ok result store' := by
  constructor
  · exact exists_of_returns (by decide +kernel)
  · rintro ⟨result, store', h⟩
    exact absurd (returns_of_eq_ok h) (by decide +kernel)

end Drift
