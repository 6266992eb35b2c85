/-
  What the paged step leaves behind is seen in what it returns: a block that tells whether it has a
  per-layer input, and that keeps a cache as every block does, gives different results in pages as
  soon as there is a per-layer input, or a donor whose layer type is not seeded.  So
  `PagedFaithful` is not only enough for every block function, no weaker condition is.
-/
import Drift.Server.PagedStep
import Mathlib.Data.String.Basic

namespace Drift

open PagedKVPool StandardGQACache

variable {κ α : Type} {cfg : PoolConfig} [Zero α]

/-! ## Two blocks -/

/-- A block that returns `a` if it has a per-layer input and zeros if it has none, with a past that
    is as long as it has to be. -/
def inputProbe (role : KVRole κ) (a : α) : BlockModule κ α where
  role := role
  run := fun _ hiddenStates layerPast perLayerInput =>
    match layerPast with
    | some [(key, value)] =>
      let n := hiddenStates.shape.getD 1 0
      let newKvs : KVPair α := (Tensor.zeros (key.shape.set 2 (key.shape.getD 2 0 + n)),
        Tensor.zeros (value.shape.set 1 (value.shape.getD 1 0 + n)))
      .ok (Tensor.ofFn hiddenStates.shape fun _ => if perLayerInput.isSome then a else 0,
        some [newKvs], newKvs)
    | _ => .error .typeError
  shape_run := by
    intro _ hiddenStates layerPast perLayerInput r h
    dsimp only at h
    split at h
    · cases h
      rfl
    · nomatch h

/-- A block that raises. -/
def raisingBlock (role : KVRole κ) (exc : PyExc) : BlockModule κ α where
  role := role
  run := fun _ _ _ _ => .error exc
  shape_run := by
    intro _ _ _ _ r h
    nomatch h

/-- What the probe returns on a past of `p` tokens. -/
theorem inputProbe_run (role : KVRole κ) (a : α) (donorKv : Option (KVPair α))
    {hiddenStates : Tensor α} {layerPast : LayerPast α} {batch p n width : Nat}
    (hshape : hiddenStates.shape = [batch, n, width]) (hpast : PastShape cfg batch p layerPast)
    (perLayerInput : Option (Tensor α)) :
    ∃ newKvs kv, (inputProbe role a).run donorKv hiddenStates layerPast perLayerInput =
        .ok (Tensor.ofFn hiddenStates.shape fun _ => if perLayerInput.isSome then a else 0,
          newKvs, kv) ∧
      PastShape cfg batch (p + n) newKvs := by
  obtain ⟨key, value, rfl, hkey, hvalue⟩ := hpast
  refine ⟨_, _, rfl, _, _, rfl, ?_, ?_⟩
  · rw [Tensor.shape_zeros, hkey, hshape]
    rfl
  · rw [Tensor.shape_zeros, hvalue, hshape]
    rfl

theorem inputProbe_lengthens (role : KVRole κ) (a : α) :
    (inputProbe role a).Lengthens cfg := by
  intro hiddenStates layerPast perLayerInput r batch p n width hshape hpast h
  obtain ⟨newKvs, kv, hrun, hkvs⟩ := inputProbe_run role a none hshape hpast perLayerInput
  rw [hrun] at h
  cases h
  exact hkvs

variable [LinearOrder κ] {backend : TransformerBackend κ α} {maxLength p n : Nat}
  {pool : PagedKVPool α cfg} {cacheTensors : AList fun _ : Nat => List (KVPair α)}
  {slots : ContiguousSlots α} {slot : ContiguousSlot α} {hiddenStates : Tensor α}
  {hypoIds : List Int} {info : InferenceMetadata α} {shared : SharedKvStates κ α}

omit [Zero α] in
theorem raisingBlock_forwardAlone (hrole : ¬ backend.module.role.isConsumer) (exc : PyExc)
    (hiddenStates : Tensor α) (layerPast : LayerPast α) (perLayerInput : Option (Tensor α)) :
    (backend.withModule (raisingBlock backend.module.role exc)).forwardAlone hiddenStates layerPast
      perLayerInput () = .error exc := by
  rw [TransformerBackend.forwardAlone]
  show ((raisingBlock backend.module.role exc).forward _ _ _ _ >>= _) = _
  rw [forward_of_run (raisingBlock backend.module.role exc) hrole]
  rfl

/-- The probe in a loop over chunks: all elements of the output say whether there was a per-layer
    input. -/
theorem inputProbe_forwardChunked (a : α) (shared : SharedKvStates κ α)
    {batch width maxChunkLength : Nat} {layerPast : LayerPast α}
    (perLayerInput : Option (Tensor α)) (hrole : ¬ backend.module.role.isConsumer)
    (hshape : hiddenStates.shape = [batch, n, width]) (hn : 0 < n) (hpos : 0 < maxChunkLength)
    (hinput : ∀ t, perLayerInput = some t → t.shape.getD 1 0 = n)
    (hpast : PastShape cfg batch p layerPast) :
    ∃ output newKvs shared', forwardChunked (inputProbe backend.module.role a).forward hiddenStates
        layerPast maxChunkLength perLayerInput shared = .ok (output, newKvs, shared') ∧
      PastShape cfg batch (p + n) newKvs ∧
      ∀ i j h, i < batch → j < n → h < width →
        output.get [i, j, h] = if perLayerInput.isSome then a else 0 := by
  have hstep : ∀ lo hi layerPast (shared : SharedKvStates κ α), lo < hi → hi ≤ n →
      PastShape cfg batch (p + lo) layerPast →
      ∃ chunk newKvs shared', (inputProbe backend.module.role a).forward (hiddenStates.slice 1 lo hi)
          layerPast (perLayerInput.map (Tensor.slice 1 lo hi)) shared
          = .ok (chunk, newKvs, shared') ∧ chunk.shape = [batch, hi - lo, width] ∧
        (∀ i j h, i < batch → j < hi - lo → h < width →
          chunk.get [i, j, h] = if perLayerInput.isSome then a else 0) ∧
        PastShape cfg batch (p + hi) newKvs := by
    intro lo hi layerPast shared hlt hle hpast
    have hcut := shape_slice_tokens hshape (Nat.le_of_lt hlt) hle
    obtain ⟨newKvs, kv, hrun, hkvs⟩ := inputProbe_run backend.module.role a none hcut hpast
      (perLayerInput.map (Tensor.slice 1 lo hi))
    have hforward : (inputProbe backend.module.role a).forward (hiddenStates.slice 1 lo hi)
        layerPast (perLayerInput.map (Tensor.slice 1 lo hi)) shared = _ :=
      forward_of_run (inputProbe _ a) hrole ..
    rw [hrun] at hforward
    refine ⟨_, newKvs, _, hforward, hcut, fun i j h hi' hj hh => ?_, ?_⟩
    · rw [Option.isSome_map, Tensor.get_ofFn _ (by rw [hcut]; exact ⟨hi', hj, hh, trivial⟩)]
    · have hend : p + lo + (hi - lo) = p + hi := by omega
      rw [hend] at hkvs
      exact hkvs
  obtain ⟨output, newKvs, shared', hresult, -, hget, hkvs⟩ := forwardChunked_rule
    (fun lo layerPast _ => PastShape cfg batch (p + lo) layerPast)
    (fun _ _ _ => if perLayerInput.isSome then a else 0) hshape hinput hn hpos hstep hpast
  exact ⟨output, newKvs, shared', hresult, hkvs, hget⟩

/-! ## No weaker condition -/

/-- Behind a reorder that had its pages, the paged step of a block that is no consumer raises what
    the block raises. -/
theorem not_raisesFirst {pool₁ : PagedKVPool α cfg}
    (hsame : SameCaches maxLength pool cacheTensors slots)
    (hslot : slots info.cacheHandle = some slot)
    (hfits : StepFits maxLength slot hiddenStates hypoIds info p n)
    (hreorder : reorderSlot info.cacheHandle hypoIds pool = .ok () pool₁)
    (hrole : ¬ backend.module.role.isConsumer) :
    ¬ RaisesFirst backend hiddenStates hypoIds info shared pool := by
  rintro ⟨exc, hraise⟩
  obtain ⟨cache, maxChunkLength, past, hprep, -⟩ := exists_prepared hsame hslot hfits backend
  obtain ⟨width, hshape⟩ := hfits.shape
  obtain ⟨-, hn⟩ := hfits.pos
  obtain ⟨-, hgather⟩ := hprep.represents pool₁ hreorder
  have hexc : ∀ exc', exc' = exc := by
    intro exc'
    obtain ⟨pool', hpool'⟩ := hraise (raisingBlock backend.module.role exc') rfl
    rw [inferenceStep_paged (by rw [hshape]; rfl),
      pagedInferenceStep_of (backend.withModule (raisingBlock backend.module.role exc')) hreorder
        hprep.estimate hgather, forwardChunked_error (raisingBlock_forwardAlone hrole exc')
        (by rw [hshape]; exact hn)
        (TransformerBackend.estimateMaxChunkLength_pos hprep.estimate)] at hpool'
    cases hpool'
    rfl
  exact absurd ((hexc .keyError).trans (hexc .indexError).symm) (by decide)

/-- What the probe returns on contiguous caches: outputs that tell of the per-layer input, and a
    donor's keys and values. -/
theorem inputProbe_contiguous (a : α) (shared : SharedKvStates κ α) {pool₁ : PagedKVPool α cfg}
    (hsame : SameCaches maxLength pool cacheTensors slots)
    (hslot : slots info.cacheHandle = some slot)
    (hfits : StepFits maxLength slot hiddenStates hypoIds info p n)
    (hreorder : reorderSlot info.cacheHandle hypoIds pool = .ok () pool₁)
    (hrole : ¬ backend.module.role.isConsumer) :
    ∃ output kv cacheTensors',
      (backend.withModule (inputProbe backend.module.role a)).inferenceStep hiddenStates hypoIds info
          shared (.contiguous cacheTensors) = .ok (output,
            extractProducedSharedKv (backend.module.role.write kv shared) shared.keys,
            backend.module.role.write kv shared) (.contiguous cacheTensors' : KVStore α cfg) ∧
      backend.module.role.Stored kv ∧
      output.get [0, 0, 0] = if info.perLayerInput.isSome then a else 0 := by
  obtain ⟨cache, maxChunkLength, past, hprep, hpast⟩ := exists_prepared hsame hslot hfits
    (backend.withModule (inputProbe backend.module.role a))
  obtain ⟨width, hshape⟩ := hfits.shape
  obtain ⟨hbatch, hn⟩ := hfits.pos
  obtain ⟨output, newKvs, shared', hrun, hkvs, hget⟩ := inputProbe_forwardChunked a shared
    info.perLayerInput hrole hshape hn
    (TransformerBackend.estimateMaxChunkLength_pos hprep.estimate) hfits.perLayerInput hpast
  obtain ⟨cache', hwrite, -⟩ := write_sides (hprep.represents pool₁ hreorder).1
    (Function.update_self _ _ _) hbatch hn hfits.le_length hfits.fits hkvs
  have hstep : (backend.withModule (inputProbe backend.module.role a)).contiguousInferenceStep
      hiddenStates hypoIds info shared slot.cacheTensors = .ok (output, shared', cache') := by
    rw [contiguousInferenceStep_of hprep]
    show (forwardChunked (inputProbe backend.module.role a).forward hiddenStates _ _ _ _ >>= _) = _
    rw [hrun, hfits.prefixLength]
    show (TransformerBackend.writeBack cache newKvs p).map _ = _
    rw [hwrite]
    rfl
  obtain ⟨kv, rfl, hstored, -⟩ := TransformerBackend.contiguousInferenceStep_transfer rfl hstep
  exact ⟨output, kv, _,
    (inferenceStep_contiguous hsame hslot hfits).mpr ⟨cache', hstep, rfl, rfl⟩, hstored,
    hget 0 0 0 hbatch hn (hfits.sizes_pos hshape).2.2⟩

/-- What the probe returns in pages, if it returns: zeros, and there was room. -/
theorem inputProbe_paged {a : α} {pool₁ : PagedKVPool α cfg} {output : Tensor α}
    {produced : List (Tensor α)} {shared' : SharedKvStates κ α} {store' : KVStore α cfg}
    (hsame : SameCaches maxLength pool cacheTensors slots)
    (hslot : slots info.cacheHandle = some slot)
    (hfits : StepFits maxLength slot hiddenStates hypoIds info p n)
    (hreorder : reorderSlot info.cacheHandle hypoIds pool = .ok () pool₁)
    (hrole : ¬ backend.module.role.isConsumer)
    (h : (backend.withModule (inputProbe backend.module.role a)).inferenceStep hiddenStates hypoIds
      info shared (.paged pool) = .ok (output, produced, shared') store') :
    output.get [0, 0, 0] = 0 ∧ produced = [] ∧ HasRoom info.cacheHandle (p + n) pool₁ := by
  obtain ⟨cache, maxChunkLength, past, hprep, hpast⟩ := exists_prepared hsame hslot hfits
    (backend.withModule (inputProbe backend.module.role a))
  obtain ⟨width, hshape⟩ := hfits.shape
  obtain ⟨hbatch, hn⟩ := hfits.pos
  obtain ⟨hrep, hgather⟩ := hprep.represents pool₁ hreorder
  obtain ⟨result, newKvs, shared'', hrun, hkvs, hget⟩ := inputProbe_forwardChunked a shared none
    hrole hshape hn (TransformerBackend.estimateMaxChunkLength_pos hprep.estimate)
    (fun _ h => (nomatch h)) hpast
  have hloop : forwardChunked (backend.withModule (inputProbe backend.module.role a)).forwardAlone
      hiddenStates (some [past]) maxChunkLength none () = .ok (result, newKvs, ()) := by
    rw [forwardChunked_alone (backend.withModule (inputProbe backend.module.role a)) hrole _ _ _
      shared]
    show (forwardChunked (inputProbe backend.module.role a).forward _ _ _ _ _).map _ = _
    rw [hrun]
    rfl
  rw [inferenceStep_paged (by rw [hshape]; rfl), pagedInferenceStep_of _ hreorder hprep.estimate
    hgather, hloop, hfits.prefixLength] at h
  obtain ⟨cache', -, hpages⟩ := write_sides hrep (Function.update_self _ _ _) hbatch hn
    hfits.le_length hfits.fits hkvs
  have hbind : ∀ rest : Tensor α × LayerPast α × Unit → PoolM α cfg (Tensor α),
      ((liftExcept (.ok (result, newKvs, ())) : PoolM α cfg _) >>= rest) pool₁
        = rest (result, newKvs, ()) pool₁ := fun _ => rfl
  rw [hbind] at h
  rcases hpages with ⟨hroom, pool₂, slots₂, hwrite, -⟩ | ⟨-, pool₂, hwrite⟩
  · rw [bind_of_ok hwrite] at h
    cases h
    exact ⟨hget 0 0 0 hbatch hn (hfits.sizes_pos hshape).2.2, rfl, hroom⟩
  · rw [bind_of_error hwrite] at h
    nomatch h

/-- If pages serve the probe, the step is faithful. -/
theorem faithful_of_probe {a : α} (ha : a ≠ 0)
    (hsame : SameCaches maxLength pool cacheTensors slots)
    (hslot : slots info.cacheHandle = some slot)
    (hfits : StepFits maxLength slot hiddenStates hypoIds info p n)
    (hagrees : PagedAgrees maxLength (backend.withModule (inputProbe backend.module.role a))
      hiddenStates hypoIds info shared pool cacheTensors) :
    PagedFaithful backend.module.role hypoIds info shared (p + n) pool := by
  intro pool₁ hreorder
  by_cases hrole : backend.module.role.isConsumer
  · exact Or.inl hrole
  obtain ⟨output, kv, cacheTensors', hcontiguous, hstored, houtput⟩ :=
    inputProbe_contiguous a shared hsame hslot hfits hreorder hrole
  rcases hagrees.1 _ _ _ _ hcontiguous with ⟨shared'', pool', slots', hpaged, -⟩ | hraises
  · obtain ⟨hzero, hproduced, hroom⟩ := inputProbe_paged hsame hslot hfits hreorder hrole hpaged
    refine Or.inr ⟨?_, fun layerType hdonor => ?_, hroom⟩
    · rw [houtput] at hzero
      cases hinput : info.perLayerInput with
      | none => rfl
      | some t =>
        rw [hinput, Option.isSome_some, if_pos rfl] at hzero
        exact absurd hzero ha
    · obtain ⟨kv, rfl⟩ := Option.isSome_iff_exists.mp (hstored layerType hdonor)
      rw [hdonor] at hproduced
      by_contra hmissing
      have hinsert := extractProducedSharedKv_insert shared layerType kv
      rw [if_neg hmissing] at hinsert
      exact absurd (hinsert.symm.trans hproduced) (by simp)
  · exact absurd hraises (not_raisesFirst hsame hslot hfits hreorder hrole)

/-- **When pages serve as contiguous caches do**: for caches that hold the same, every block of a
    role and every request that the session may send. -/
theorem pagedStep_agrees_iff [Nontrivial α] (backend : TransformerBackend κ α)
    (shared : SharedKvStates κ α) (hsame : SameCaches maxLength pool cacheTensors slots)
    (hslot : slots info.cacheHandle = some slot)
    (hfits : StepFits maxLength slot hiddenStates hypoIds info p n) :
    (∀ block : BlockModule κ α, block.role = backend.module.role → block.Lengthens cfg →
        PagedAgrees maxLength (backend.withModule block) hiddenStates hypoIds info shared pool
          cacheTensors) ↔
      PagedFaithful backend.module.role hypoIds info shared (p + n) pool := by
  constructor
  · intro hagrees
    obtain ⟨a, ha⟩ := exists_ne (0 : α)
    exact faithful_of_probe ha hsame hslot hfits
      (hagrees _ rfl (inputProbe_lengthens backend.module.role a))
  · intro hfaithful block hrole hblock
    refine pagedAgrees_of_faithful hsame hslot hfits hblock ?_
    show PagedFaithful block.role hypoIds info shared (p + n) pool
    rw [hrole]
    exact hfaithful

/-! ## The first request of a session -/

/-- A session that has just been opened has the same caches in both layouts. -/
theorem sameCaches_opened (maxLength handle batchSize : Nat) :
    SameCaches maxLength (registerSlot handle batchSize (new cfg) : PagedKVPool α cfg)
      ((∅ : AList fun _ : Nat => List (KVPair α)).insert handle
        (ContiguousSlot.new cfg maxLength batchSize).cacheTensors)
      (Function.update (fun _ => none) handle
        (some (ContiguousSlot.new cfg maxLength batchSize))) := by
  refine ⟨registerSlot_represents (new_represents maxLength) rfl, fun handle' => ?_⟩
  by_cases hne : handle' = handle
  · subst hne
    rw [AList.lookup_insert, Function.update_self]
    rfl
  · rw [AList.lookup_insert_ne hne, Function.update_of_ne hne]
    rfl

/-- The probe in a backend of one head. -/
def probeBackend : TransformerBackend String Int where
  module := inputProbe .ordinary 1
  shardNumHeads := [1]
  dtypeBytes := 1
  maxChunkSizeBytes := 1
  numHeads_pos := Nat.one_pos
  dtypeBytes_pos := Nat.one_pos

/-- A request of one token of one feature, the first of its session. -/
theorem stepFits_oneToken (perLayerInput : Option (Tensor Int))
    (hinput : ∀ t, perLayerInput = some t → t.shape.getD 1 0 = 1) :
    StepFits 1 (ContiguousSlot.new (tokenConfig 1) 1 1) (Tensor.zeros [1, 1, 1] : Tensor Int) []
      ⟨0, 0, perLayerInput⟩ 0 1 :=
  ⟨⟨1, rfl⟩, by decide, hinput, rfl, Nat.le_refl 0, Nat.le_refl 1, Or.inl rfl⟩

/-- A request of three tokens for two rows, which it exchanges. -/
theorem stepFits_exchange :
    StepFits 4 (ContiguousSlot.new (tokenConfig 8) 4 2) (Tensor.zeros [2, 3, 1] : Tensor Int) [1, 0]
      ⟨0, 0, none⟩ 0 3 where
  shape := ⟨1, rfl⟩
  tokens := by decide
  perLayerInput := by
    intro t ht
    cases ht
  prefixLength := rfl
  le_length := Nat.le_refl 0
  fits := by decide
  hypoIds := .inr ⟨rfl, by decide⟩

theorem pagedStep_agrees_iff_example :
    (∀ block : BlockModule String Int, block.role = .ordinary → block.Lengthens (tokenConfig 8) →
        PagedAgrees 4 (probeBackend.withModule block) (Tensor.zeros [2, 3, 1]) [1, 0] ⟨0, 0, none⟩ ∅
          (registerSlot 0 2 (new (tokenConfig 8)))
          ((∅ : AList fun _ : Nat => List (KVPair Int)).insert 0
            (ContiguousSlot.new (tokenConfig 8) 4 2).cacheTensors)) ↔
      PagedFaithful (KVRole.ordinary (κ := String)) [1, 0] ⟨0, 0, none⟩
        (∅ : SharedKvStates String Int) 3 (registerSlot 0 2 (new (tokenConfig 8))) :=
  pagedStep_agrees_iff probeBackend ∅ (sameCaches_opened 4 0 2) (Function.update_self _ _ _)
    stepFits_exchange

/-- **The per-layer input is lost**: with the same caches, the same token and the same per-layer
    input, the block sees the input on contiguous caches and sees none in pages. -/
theorem perLayerInput_lost :
    probeBackend.module.Lengthens (tokenConfig 1) ∧
    ¬ PagedAgrees 1 probeBackend (Tensor.zeros [1, 1, 1]) []
      ⟨0, 0, some (Tensor.ofFn [1, 1, 1] fun _ => 1)⟩ ∅ (registerSlot 0 1 (new (tokenConfig 1)))
      ((∅ : AList fun _ : Nat => List (KVPair Int)).insert 0
        (ContiguousSlot.new (tokenConfig 1) 1 1).cacheTensors) := by
  refine ⟨inputProbe_lengthens _ _, fun h => ?_⟩
  have hfaithful : PagedFaithful probeBackend.module.role [] _ ∅ 1 _ :=
    faithful_of_probe (by decide) (sameCaches_opened 1 0 1) (Function.update_self _ _ _)
      (stepFits_oneToken _ fun t ht => Option.some.inj ht ▸ rfl) h
  rcases hfaithful _ rfl with ⟨layerType, hrole⟩ | ⟨hnone, -⟩
  · nomatch hrole
  · nomatch hnone

end Drift
