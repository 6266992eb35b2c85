/-
  One turn of `iterate_rpc_inference` on a span of several causal blocks.

  Every block keeps the keys and values of its own inputs, which are the outputs of the block before
  it.  `SpanHolds` follows this along the span: the cache of a block holds the tokens that all
  blocks before it make of what the span was fed.  A turn cuts all of them at its start and lets
  them grow by the new tokens (`mergedLoop_causal`), whether the span runs as one task or block by
  block.

  Hypo ids choose the rows that a step goes on with.  A block treats every row by itself, so it does
  not matter whether the rows are chosen before it or behind it (`causalMap_selectRows`), and every
  cache can be reordered for itself.

  So a turn computes what causal maps, one behind the other, make of the tokens
  (`iterateRpcInference_span`).
-/
import Drift.Lib.CausalMap
import Drift.Lib.TokenColumns
import Drift.Server.Serving

namespace Drift

open Tensor

variable {κ α : Type} [LinearOrder κ] [Zero α]

/-! ## Rows and columns -/

/-- The tokens of every row, from the columns. -/
def rowsOf (columns : List (List (List α))) : History α := fun i =>
  columns.map fun column => column.getD i []

/-- What a block makes of the last column. -/
def CausalSpec.run (spec : CausalSpec α) (columns : List (List (List α))) : List (List α) :=
  (columns.getLast?.getD []).mapIdx fun i row =>
    (List.range row.length).map (spec.outAt (rowsOf columns i))

/-- The rows of a column that hypo ids choose; dummy ids ask for nothing. -/
def selectRows (ids : List Int) (column : List (List α)) : List (List α) :=
  if ids = [] then column else ids.map fun id => column.getD id.toNat []

section Columns

variable {columns : List (List (List α))} {batch p n : Nat} {spec : CausalSpec α}

omit [Zero α] in
@[simp] theorem length_rowsOf (columns : List (List (List α))) (i : Nat) :
    (rowsOf columns i).length = columns.length := List.length_map _

omit [Zero α] in
theorem take_rowsOf (columns : List (List (List α))) (i n : Nat) :
    (rowsOf columns i).take n = rowsOf (columns.take n) i := List.map_take.symm

omit [Zero α] in
theorem CausalSpec.shape_run {features : Nat} (spec : CausalSpec α) (hne : columns ≠ [])
    (h : ∀ column ∈ columns, ColumnShape batch features column) :
    ColumnShape batch features (spec.run columns) := by
  obtain ⟨hbatch, hfeatures⟩ := h _ (List.getLast_mem hne)
  rw [CausalSpec.run, List.getLast?_eq_some_getLast hne, Option.getD_some]
  refine ⟨by rw [List.length_mapIdx, hbatch], fun row hrow => ?_⟩
  obtain ⟨i, hi, rfl⟩ := List.mem_mapIdx.mp hrow
  rw [List.length_map, List.length_range]
  exact hfeatures _ (List.getElem_mem hi)

/-- The tokens of a row at a position. -/
theorem getElem?_rowsOf {hiddenStates : Tensor α} {width : Nat}
    (hshape : hiddenStates.shape = [batch, n, width]) (hnew : hiddenStates.columns = columns.drop p)
    {i j : Nat} (hi : i < batch) (hj : j < n) :
    (rowsOf columns i)[p + j]? = some (hiddenStates.token i j) := by
  have hlength : j < hiddenStates.columns.length := by
    rw [length_columns, hshape]
    exact hj
  have hcolumn : columns[p + j]? = some (hiddenStates.column j) := by
    rw [← List.getElem?_drop, ← hnew, List.getElem?_eq_getElem hlength, getElem_columns hlength]
  have hi' : i < hiddenStates.shape.getD 0 0 := by
    rw [hshape]
    exact hi
  rw [rowsOf, List.getElem?_map, hcolumn, Option.map_some, Tensor.column,
    List.getD_eq_getElem?_getD, List.getElem?_map, List.getElem?_range hi']
  rfl

/-- The rows of a history that is extended by the tokens of a tensor. -/
theorem extend_rowsOf {hiddenStates : Tensor α} {width : Nat}
    (hshape : hiddenStates.shape = [batch, n, width]) {i : Nat} (hi : i < batch)
    (hp : p ≤ columns.length) :
    (rowsOf columns).extend p hiddenStates i
      = rowsOf (columns.take p ++ hiddenStates.columns) i := by
  have hnew : hiddenStates.columns
      = (columns.take p ++ hiddenStates.columns).drop p := by
    rw [List.drop_append_of_le_length (by rw [List.length_take]; omega),
      List.drop_of_length_le (by rw [List.length_take]; omega), List.nil_append]
  have htake : rowsOf (columns.take p ++ hiddenStates.columns) i
      = (rowsOf columns i).take p ++ (rowsOf hiddenStates.columns i) := by
    rw [take_rowsOf]
    exact List.map_append
  have hn : hiddenStates.shape.getD 1 0 = n := by
    rw [hshape]
    rfl
  rw [htake, History.extend, hn]
  congr 1
  refine List.ext_getElem? fun j => ?_
  rcases Nat.lt_or_ge j n with hj | hj
  · have htoken : (rowsOf hiddenStates.columns i)[0 + j]? = _ := getElem?_rowsOf hshape rfl hi hj
    rw [Nat.zero_add] at htoken
    rw [htoken, List.getElem?_map, List.getElem?_range hj]
    rfl
  · rw [List.getElem?_eq_none (by simpa using hj), List.getElem?_eq_none]
    rw [length_rowsOf, length_columns, hn]
    exact hj

/-- **The outputs** of a block are the causal map of the columns, from the start of the step on. -/
theorem Computes.columns_eq {output : Tensor α} {newKvs : List (KVPair α)} {rows : History α}
    (h : Computes spec rows batch p n output newKvs)
    (hrows : ∀ i, i < batch → rows i = rowsOf columns i) (hlength : columns.length = p + n)
    (hshape : ∀ column ∈ columns, ColumnShape batch spec.hiddenSize column) :
    output.columns = (causalMap spec.run columns).drop p := by
  have hn : output.columns.length = n := by
    rw [length_columns, h.shape]
    rfl
  refine List.ext_getElem (by rw [hn, List.length_drop, length_causalMap]; omega)
    fun j hj hj' => ?_
  rw [hn] at hj
  have hlast : (columns.take (p + j + 1)).getLast? = some columns[p + j] := by
    rw [List.getLast?_eq_getElem?, List.length_take, Nat.min_eq_left (by omega),
      Nat.add_sub_cancel, List.getElem?_take_of_lt (Nat.lt_succ_self _)]
    exact List.getElem?_eq_getElem _
  obtain ⟨hbatch, hfeatures⟩ := hshape columns[p + j] (List.getElem_mem (by omega))
  rw [getElem_columns, List.getElem_drop, getElem_causalMap, CausalSpec.run, hlast,
    Option.getD_some, Tensor.column, h.shape]
  refine List.ext_getElem (by simp [hbatch]) fun i hi hi' => ?_
  have hib : i < batch := by simpa using hi
  rw [List.getElem_map, List.getElem_range, List.getElem_mapIdx,
    hfeatures _ (List.getElem_mem _)]
  refine List.map_congr_left fun f hf => ?_
  rw [h.output_get i j f hib hj (List.mem_range.mp hf), hrows i hib, take_rowsOf]

omit [Zero α] in
@[simp] theorem selectRows_nil (column : List (List α)) : selectRows [] column = column := if_pos rfl

omit [Zero α] in
theorem length_selectRows {ids : List Int} {column : List (List α)} (hids : ValidIds batch ids)
    (hbatch : column.length = batch) : (selectRows ids column).length = batch := by
  rcases hids with rfl | ⟨hlength, -⟩
  · rw [selectRows_nil, hbatch]
  · by_cases hnil : ids = []
    · rw [hnil, selectRows_nil, hbatch]
    · rw [selectRows, if_neg hnil, List.length_map, hlength]

omit [Zero α] in
/-- The rows of a history of which rows are chosen. -/
theorem rowsOf_selectRows {ids : List Int} (hids : ValidIds batch ids)
    (columns : List (List (List α))) {i : Nat} (hi : i < batch) :
    rowsOf (columns.map (selectRows ids)) i = (rowsOf columns).permute ids i := by
  rw [History.permute]
  by_cases hnil : ids = []
  · rw [if_pos hnil, hnil]
    show (columns.map (selectRows [])).map _ = columns.map _
    rw [List.map_map]
    exact List.map_congr_left fun column _ => by simp
  · have hlength : ids.length = batch := (hids.resolve_left hnil).1
    rw [if_neg hnil, rowsOf, List.map_map]
    refine List.map_congr_left fun column _ => ?_
    have hi' : i < ids.length := by omega
    rw [Function.comp_apply, selectRows, if_neg hnil]
    simp [hi']

omit [Zero α] in
theorem columnShape_selectRows {ids : List Int} {features : Nat} {column : List (List α)}
    (hids : ValidIds batch ids) (h : ColumnShape batch features column) :
    ColumnShape batch features (selectRows ids column) := by
  obtain ⟨hbatch, hfeatures⟩ := h
  refine ⟨length_selectRows hids hbatch, fun row hrow => ?_⟩
  by_cases hnil : ids = []
  · rw [hnil, selectRows_nil] at hrow
    exact hfeatures row hrow
  · rw [selectRows, if_neg hnil] at hrow
    obtain ⟨id, hid, rfl⟩ := List.mem_map.mp hrow
    have hlt : id.toNat < column.length := by
      have hrange := (hids.resolve_left hnil).2 id hid
      omega
    rw [List.getD_eq_getElem _ _ hlt]
    exact hfeatures _ (List.getElem_mem hlt)

omit [Zero α] in
/-- **A block treats every row by itself.** -/
theorem CausalSpec.run_selectRows {features : Nat} (spec : CausalSpec α) {ids : List Int}
    (hids : ValidIds batch ids) (hne : columns ≠ [])
    (h : ∀ column ∈ columns, ColumnShape batch features column) :
    spec.run (columns.map (selectRows ids)) = selectRows ids (spec.run columns) := by
  have hlast := List.getLast?_eq_some_getLast hne
  have hbatch : (columns.getLast hne).length = batch := (h _ (List.getLast_mem hne)).1
  have hrun : (spec.run columns).length = batch := by
    rw [CausalSpec.run, hlast, Option.getD_some, List.length_mapIdx, hbatch]
  by_cases hnil : ids = []
  · have hid : (selectRows ids : List (List α) → List (List α)) = id :=
      funext fun column => by rw [hnil, selectRows_nil, id]
    rw [hid, List.map_id, id]
  obtain ⟨hlength, hrange⟩ := hids.resolve_left hnil
  have hselected := length_selectRows hids hbatch
  have hlast' : ((columns.map (selectRows ids)).getLast?.getD []) =
      selectRows ids (columns.getLast hne) := by
    rw [List.getLast?_map, hlast]
    rfl
  refine List.ext_getElem ?_ fun i hi hi' => ?_
  · rw [CausalSpec.run, hlast', List.length_mapIdx, hselected, length_selectRows hids hrun]
  have hib : i < batch := by
    rw [length_selectRows hids hrun] at hi'
    exact hi'
  have hid : ids[i].toNat < batch := by
    have hmem := hrange ids[i] (List.getElem_mem (by omega))
    omega
  have hrow : ∀ {column : List (List α)} (hcolumn : column.length = batch)
      (hj : i < (selectRows ids column).length),
      (selectRows ids column)[i] = column[ids[i].toNat] := by
    intro column hcolumn hj
    simp only [selectRows, if_neg hnil, List.getElem_map]
    exact List.getD_eq_getElem _ _ (by omega)
  rw [hrow hrun]
  simp only [CausalSpec.run, hlast', hlast, Option.getD_some, List.getElem_mapIdx, hrow hbatch]
  rw [rowsOf_selectRows hids columns hib, History.permute, if_neg hnil]
  simp [show i < ids.length by omega]

omit [Zero α] in
/-- Rows are chosen before a block or behind it. -/
theorem causalMap_selectRows {features : Nat} (spec : CausalSpec α) {ids : List Int}
    (hids : ValidIds batch ids) (h : ∀ column ∈ columns, ColumnShape batch features column) :
    causalMap spec.run (columns.map (selectRows ids))
      = (causalMap spec.run columns).map (selectRows ids) := by
  refine causalMap_map fun n hn => ?_
  refine spec.run_selectRows hids (List.ne_nil_of_length_pos ?_) fun column hmem =>
    h column (List.mem_of_mem_take hmem)
  rw [List.length_take]
  omega

end Columns

/-! ## A span and its caches -/

/-- The backends compute these causal blocks, and share no keys and values. -/
def CausalBackends (specs : Nat → CausalSpec α) (features : Nat) :
    Nat → List (TransformerBackend κ α) → Prop
  | _, [] => True
  | block, backend :: backends =>
    backend.module.role = .ordinary ∧ (specs block).hiddenSize = features ∧
      IsCausal (specs block) backend.module.forward ∧
      CausalBackends specs features (block + 1) backends

/-- The cache of every block holds the first `n` tokens of its inputs, when the first block of the
    span has the inputs `columns`. -/
def SpanHolds (specs : Nat → CausalSpec α) (batch maxLength n : Nat)
    (cacheTensors : AList fun _ : Nat => List (KVPair α)) :
    Nat → List (List (List α)) → List Nat → Prop
  | _, _, [] => True
  | block, columns, handle :: handles =>
    (∃ cache, cacheTensors.lookup handle = some cache ∧
      List.Forall₂ (CacheHolds (rowsOf columns) batch maxLength n) (specs block).shards cache) ∧
    SpanHolds specs batch maxLength n cacheTensors (block + 1)
      (causalMap (specs block).run columns) handles

section Span

variable {specs : Nat → CausalSpec α} {batch features maxLength n m p : Nat}

/-- Only the caches of the span are looked at, and of the inputs only what is held. -/
theorem SpanHolds.congr {cacheTensors cacheTensors' : AList fun _ : Nat => List (KVPair α)} :
    ∀ {handles : List Nat} {block : Nat} {columns columns' : List (List (List α))},
      SpanHolds specs batch maxLength n cacheTensors block columns handles → p ≤ n →
      columns'.take p = columns.take p →
      (∀ handle ∈ handles, cacheTensors'.lookup handle = cacheTensors.lookup handle) →
      SpanHolds specs batch maxLength p cacheTensors' block columns' handles
  | [], _, _, _, _, _, _, _ => trivial
  | handle :: handles, block, columns, columns', ⟨⟨cache, hcache, hholds⟩, hrest⟩, hp, htake,
      hsame => by
    have hrows : ∀ i t, t < p →
        (rowsOf columns' i).take (t + 1) = (rowsOf columns i).take (t + 1) := by
      intro i t ht
      have hcut := congrArg (List.take (t + 1)) htake
      rw [List.take_take, List.take_take, Nat.min_eq_left (by omega)] at hcut
      rw [take_rowsOf, take_rowsOf, hcut]
    refine ⟨⟨cache, (hsame handle List.mem_cons_self).trans hcache,
      hholds.imp fun _ _ hkv => hkv.congr hp fun i _ t => hrows i t⟩, hrest.congr hp ?_ ?_⟩
    · rw [take_causalMap, take_causalMap, htake]
    · exact fun h hmem => hsame h (List.mem_cons_of_mem _ hmem)

/-- The tasks of a step without prompts and per-layer inputs. -/
def plainTasks (start : Int) (blocks : List (TransformerBackend κ α × Nat)) :
    List (BlockTask κ α) :=
  blocks.map fun block => ⟨block.1, ⟨start, block.2, none⟩, none⟩

variable {cfg : PoolConfig}

/-- **One block**: its outputs, and its cache behind them. -/
theorem inferenceStep_causal {spec : CausalSpec α} {backend : TransformerBackend κ α}
    {ids : List Int} (hids : ValidIds batch ids) (hrole : backend.module.role = .ordinary)
    (hcausal : IsCausal spec backend.module.forward)
    {cacheTensors : AList fun _ : Nat => List (KVPair α)} {cache : List (KVPair α)} {handle : Nat}
    (hcache : cacheTensors.lookup handle = some cache) {columns : List (List (List α))}
    (hholds : List.Forall₂ (CacheHolds (rowsOf columns) batch maxLength columns.length)
      spec.shards cache)
    {hiddenStates : Tensor α} (hshape : hiddenStates.shape = [batch, m, spec.hiddenSize])
    (hbatch : 0 < batch) (hm : 0 < m) (hp : p ≤ columns.length)
    (hfits : columns.length ≤ maxLength) (hend : p + m ≤ maxLength)
    (hcolumns : ∀ column ∈ columns, ColumnShape batch spec.hiddenSize column) :
    ∃ output produced cache',
      backend.inferenceStep hiddenStates ids ⟨p, handle, none⟩ ∅
          (.contiguous cacheTensors : KVStore α cfg)
        = .ok (output, produced, ∅) (.contiguous (cacheTensors.insert handle cache')) ∧
      output.shape = [batch, m, spec.hiddenSize] ∧
      output.columns = (causalMap spec.run
        ((columns.map (selectRows ids)).take p ++ hiddenStates.columns)).drop p ∧
      List.Forall₂ (CacheHolds
        (rowsOf ((columns.map (selectRows ids)).take p ++ hiddenStates.columns)) batch maxLength
        (p + m)) spec.shards cache' := by
  let server : CausalServer κ α := ⟨backend, spec, hcausal, batch, maxLength, 0, 0, hbatch⟩
  obtain ⟨output, newKvs, shared, cache', hstep, hcomputes, hcache'⟩ : ∃ output newKvs shared cache',
      server.backend.contiguousInferenceStep hiddenStates ids ⟨p, 0, none⟩ ∅ cache
        = .ok (output, shared, cache') ∧ _ :=
    CausalServer.contiguousInferenceStep_computes hp hfits hend hm hshape hids
      (fun i _ => length_rowsOf columns i) hholds
  have hselected : p ≤ (columns.map (selectRows ids)).length := by
    rw [List.length_map]
    exact hp
  have hrows : ∀ i, i < batch → ((rowsOf columns).permute ids).extend p hiddenStates i
      = rowsOf ((columns.map (selectRows ids)).take p ++ hiddenStates.columns) i := fun i hi => by
    rw [← extend_rowsOf hshape hi hselected, History.extend, History.extend,
      rowsOf_selectRows hids columns hi]
  have hinference : backend.inferenceStep hiddenStates ids ⟨p, handle, none⟩ ∅
      (.contiguous cacheTensors : KVStore α cfg) =
        .ok (output, extractProducedSharedKv shared (∅ : SharedKvStates κ α).keys, shared)
          (.contiguous (cacheTensors.insert handle cache')) := by
    unfold TransformerBackend.inferenceStep
    rw [if_neg (by rw [hshape]; simp)]
    have hstep' : backend.contiguousInferenceStep hiddenStates ids ⟨p, handle, none⟩ ∅ cache
        = .ok (output, shared, cache') := hstep
    simp only [hcache, hstep']
  obtain ⟨kv, hshared, -⟩ := TransformerBackend.inferenceStep_transfer rfl hinference
  rw [hrole] at hshared
  rw [hshared] at hinference
  refine ⟨output, _, cache', hinference, hcomputes.shape, ?_, ?_⟩
  · refine hcomputes.columns_eq hrows ?_ fun column hmem => ?_
    · rw [List.length_append, List.length_take, Nat.min_eq_left hselected, length_columns, hshape]
      rfl
    · rcases List.mem_append.mp hmem with hold | hnew
      · obtain ⟨before, hbefore, rfl⟩ := List.mem_map.mp (List.mem_of_mem_take hold)
        exact columnShape_selectRows hids (hcolumns before hbefore)
      · exact columnShape_columns hshape column hnew
  · exact hcache'.imp fun _ _ hkv => hkv.congr (Nat.le_refl _) fun i hi t _ => by
      rw [hrows i hi]

omit [Zero α] in
/-- The inputs of the block behind the next one. -/
theorem take_causalMap_append {spec : CausalSpec α} {columns new : List (List (List α))}
    (hp : p ≤ columns.length) :
    (causalMap spec.run columns).take p ++ (causalMap spec.run (columns.take p ++ new)).drop p
      = causalMap spec.run (columns.take p ++ new) := by
  have htake : (columns.take p ++ new).take p = columns.take p := by
    rw [List.take_append_of_le_length (by rw [List.length_take]; omega), List.take_take,
      Nat.min_self]
  rw [take_causalMap, ← htake, ← take_causalMap, htake, List.take_append_drop]

variable [Add α]

/-- **All blocks**, one behind the other: every cache is reordered and grows by the new tokens, and
    no other cache is touched. -/
theorem mergedLoop_causal {ids : List Int} (hids : ValidIds batch ids) :
    ∀ {blocks : List (TransformerBackend κ α × Nat)} {block : Nat}
    {columns : List (List (List α))} {hiddenStates : Tensor α}
    {cacheTensors : AList fun _ : Nat => List (KVPair α)},
    CausalBackends specs features block (blocks.map Prod.fst) → (blocks.map Prod.snd).Nodup →
    SpanHolds specs batch maxLength columns.length cacheTensors block columns
      (blocks.map Prod.snd) →
    (∀ column ∈ columns, ColumnShape batch features column) →
    hiddenStates.shape = [batch, m, features] → 0 < batch → 0 < m → p ≤ columns.length →
    columns.length ≤ maxLength → p + m ≤ maxLength →
    ∃ output cacheTensors',
      mergedLoop ids (plainTasks p blocks) hiddenStates ∅ (.contiguous cacheTensors : KVStore α cfg)
        = .ok (output, ∅) (.contiguous cacheTensors') ∧
      output.shape = [batch, m, features] ∧
      output.columns = (layers (fun i => (specs i).run) block (block + blocks.length)
        ((columns.map (selectRows ids)).take p ++ hiddenStates.columns)).drop p ∧
      SpanHolds specs batch maxLength (p + m) cacheTensors' block
        ((columns.map (selectRows ids)).take p ++ hiddenStates.columns) (blocks.map Prod.snd) ∧
      ∀ handle, handle ∉ blocks.map Prod.snd →
        cacheTensors'.lookup handle = cacheTensors.lookup handle := by
  intro blocks
  induction blocks with
  | nil =>
    intro block columns hiddenStates cacheTensors _ _ _ _ hshape _ _ hp _ _
    refine ⟨hiddenStates, cacheTensors, rfl, hshape, ?_, trivial, fun _ _ => rfl⟩
    have hlength : ((columns.map (selectRows ids)).take p).length = p := by
      rw [List.length_take, List.length_map]
      omega
    rw [List.length_nil, Nat.add_zero, layers_self, List.drop_left' hlength]
  | cons first blocks ih =>
    obtain ⟨backend, handle⟩ := first
    intro block columns hiddenStates cacheTensors hbackends hnodup hholds hcolumns hshape hbatch hm
      hp hfits hend
    obtain ⟨hrole, rfl, hcausal, hbackends⟩ := hbackends
    obtain ⟨hfresh, hnodup⟩ := List.nodup_cons.mp hnodup
    obtain ⟨⟨cache, hcache, hfirst⟩, hrest⟩ := hholds
    obtain ⟨mid, produced, cache', hstep, hmid, hmidColumns, hcache'⟩ :=
      inferenceStep_causal hids hrole hcausal hcache hfirst hshape hbatch hm hp hfits hend hcolumns
    -- the other blocks do not see the cache that has changed
    have hsame : ∀ h ∈ blocks.map Prod.snd,
        (cacheTensors.insert handle cache').lookup h = cacheTensors.lookup h := fun h hmem =>
      AList.lookup_insert_ne fun heq => hfresh (heq ▸ hmem)
    have hlength : (causalMap (specs block).run columns).length = columns.length :=
      length_causalMap _ _
    have hshapes : ∀ column ∈ causalMap (specs block).run columns,
        ColumnShape batch (specs block).hiddenSize column := by
      intro column hmem
      obtain ⟨j, hj, rfl⟩ := List.getElem_of_mem hmem
      rw [length_causalMap] at hj
      rw [getElem_causalMap]
      refine (specs block).shape_run (List.ne_nil_of_length_pos ?_) fun x hx =>
        hcolumns x (List.mem_of_mem_take hx)
      rw [List.length_take]
      omega
    obtain ⟨output, cacheTensors', hloop, hout, houtColumns, hbehind, hframe⟩ :=
      ih hbackends hnodup
        (hrest.congr (by rw [hlength]) (by rw [hlength]) hsame)
        hshapes hmid hbatch hm (by rw [hlength]; exact hp) (by rw [hlength]; exact hfits) hend
    rw [hmidColumns, ← causalMap_selectRows (specs block) hids hcolumns,
      take_causalMap_append (by rw [List.length_map]; exact hp)] at houtColumns hbehind
    refine ⟨output, cacheTensors', ?_, hout, ?_, ⟨⟨cache', ?_, hcache'⟩, hbehind⟩, ?_⟩
    · exact bind_eq_ok.mpr ⟨hiddenStates, _, liftExcept_eq_ok.mpr ⟨rfl, rfl⟩,
        bind_eq_ok.mpr ⟨(mid, produced, ∅), _, hstep, hloop⟩⟩
    · rw [houtColumns, List.length_cons, Nat.add_right_comm block 1, ← Nat.add_assoc, layers_succ]
    · rw [hframe handle hfresh, AList.lookup_insert]
    · intro h hmem
      obtain ⟨hne, hmem⟩ := not_or.mp (mt List.mem_cons.mpr hmem)
      rw [hframe h hmem, AList.lookup_insert_ne hne]

end Span

/-! ## A turn -/

omit [Zero α] in
/-- A dict without entries. -/
theorem eq_empty_of_lookup {shared : SharedKvStates κ α} (h : ∀ k, shared.lookup k = none) :
    shared = ∅ := by
  have hkeys : shared.keys = [] := List.eq_nil_iff_forall_not_mem.mpr fun k hk =>
    AList.lookup_eq_none.mp (h k) (AList.mem_keys.mpr hk)
  exact AList.ext (List.map_eq_nil_iff.mp hkeys)

/-- The message of a step of tokens, with hypo ids or without. -/
structure TokenRequest (batch m features p : Nat) (request : InferenceRequest κ α) : Prop where
  shape : request.hiddenStates.shape = [batch, m, features]
  prompts : request.prompts = []
  hypoIds : ValidIds batch request.hypoIds
  perLayerInputs : request.perLayerInputs = []
  sharedKvKeys : request.sharedKvKeys = []
  start : request.startFromPosition = some (p : Int)

/-- The columns that a step goes on with, when `new` are its tokens: without tokens hypo ids are not
    applied. -/
def goingOnWith (ids : List Int) (new columns : List (List (List α))) : List (List (List α)) :=
  if new = [] then columns else columns.map (selectRows ids)

/-- The span is open for `batch` rows and has been fed the columns `fed`. -/
structure SpanReady {cfg : PoolConfig} (specs : Nat → CausalSpec α) (batch features start : Nat)
    (span : InferenceSpan κ α) (fed : List (List (List α))) (store : KVStore α cfg) : Prop where
  backends : CausalBackends specs features start (span.blocks.map Prod.fst)
  nodup : (span.blocks.map Prod.snd).Nodup
  size : batch * span.maxLength ≤ span.maxBatchSize
  fits : fed.length ≤ span.maxLength
  shape : ∀ column ∈ fed, ColumnShape batch features column
  cache : ∃ cacheTensors, store = .contiguous cacheTensors ∧
    SpanHolds specs batch span.maxLength fed.length cacheTensors start fed
      (span.blocks.map Prod.snd)

section GoingOn

variable {ids : List Int} {columns : List (List (List α))} {batch features : Nat}

omit [Zero α] in
@[simp] theorem goingOnWith_nil (new columns : List (List (List α))) :
    goingOnWith [] new columns = columns := by
  rw [goingOnWith]
  split
  · rfl
  · exact (List.map_congr_left fun column _ => selectRows_nil column).trans (List.map_id _)

omit [Zero α] in
@[simp] theorem length_goingOnWith (ids : List Int) (new columns : List (List (List α))) :
    (goingOnWith ids new columns).length = columns.length := by
  rw [goingOnWith]
  split
  · rfl
  · exact List.length_map _

omit [Zero α] in
theorem take_goingOnWith (ids : List Int) (new columns : List (List (List α))) (n : Nat) :
    (goingOnWith ids new columns).take n = goingOnWith ids new (columns.take n) := by
  unfold goingOnWith
  split
  · rfl
  · exact List.map_take.symm

omit [Zero α] in
theorem shape_goingOnWith {new : List (List (List α))} (hids : ValidIds batch ids)
    (h : ∀ column ∈ columns, ColumnShape batch features column) :
    ∀ column ∈ goingOnWith ids new columns, ColumnShape batch features column := by
  intro column hmem
  rw [goingOnWith] at hmem
  split at hmem
  · exact h column hmem
  · obtain ⟨before, hbefore, rfl⟩ := List.mem_map.mp hmem
    exact columnShape_selectRows hids (h before hbefore)

end GoingOn

section Turn

variable {specs : Nat → CausalSpec α} {batch features m p start : Nat} {span : InferenceSpan κ α}
  {request : InferenceRequest κ α} {fed : List (List (List α))}

omit [LinearOrder κ] [Zero α] in
theorem blockTasks_replicate (prefixLength : Int) :
    ∀ blocks : List (TransformerBackend κ α × Nat),
      blockTasks prefixLength blocks (List.replicate blocks.length none)
        (List.replicate blocks.length none) = plainTasks prefixLength blocks
  | [] => rfl
  | (backend, handle) :: blocks => by
    rw [List.length_cons, List.replicate_succ, blockTasks, blockTasks_replicate]
    rfl

omit [Zero α] in
/-- What the handler makes of it, at a position that the span has reached. -/
theorem TokenRequest.parseRequest (h : TokenRequest batch m features p request)
    (hp : p ≤ fed.length) (hend : p + m ≤ span.maxLength) :
    Drift.parseRequest span fed.length request = .ok ((p : Int), plainTasks p span.blocks, ∅) := by
  have hlength : request.lengthIncrement = m := by
    rw [InferenceRequest.lengthIncrement, h.shape]
    rfl
  have hposition : startPosition fed.length request = .ok (p : Int) := by
    rw [startPosition, h.start]
    exact if_pos (by exact_mod_cast hp)
  unfold Drift.parseRequest
  refine except_bind_eq_ok.mpr ⟨_, hposition, ?_⟩
  rw [h.prompts, h.perLayerInputs, h.sharedKvKeys, hlength]
  show (if _ then _ else _) = _
  rw [if_neg (by omega), blockTasks_replicate]

omit [Zero α] in
/-- A step behind what the span has reached, or beyond what was allocated, is not served. -/
theorem TokenRequest.parseRequest_error (h : TokenRequest batch m features p request)
    (hbad : fed.length < p ∨ span.maxLength < p + m) :
    ∃ exc, Drift.parseRequest span fed.length request = .error exc := by
  unfold Drift.parseRequest
  rw [startPosition, h.start]
  by_cases hp : p ≤ fed.length
  · have hlength : request.lengthIncrement = m := by
      rw [InferenceRequest.lengthIncrement, h.shape]
      rfl
    rw [h.prompts, h.perLayerInputs, h.sharedKvKeys, hlength]
    simp only [if_pos (Int.ofNat_le.mpr hp)]
    refine ⟨_, if_pos ?_⟩
    show (span.maxLength : Int) < (p : Int) + (m : Int)
    omega
  · simp only [if_neg (show ¬ (p : Int) ≤ fed.length by omega)]
    exact ⟨_, rfl⟩

theorem role_plainTasks : ∀ {blocks : List (TransformerBackend κ α × Nat)} {block : Nat},
    CausalBackends specs features block (blocks.map Prod.fst) →
    ∀ task ∈ plainTasks p blocks, task.role = .ordinary
  | (backend, handle) :: blocks, block, hbackends, task, hmem => by
    obtain ⟨hrole, -, -, hrest⟩ := hbackends
    rcases List.mem_cons.mp hmem with rfl | hmem
    · exact hrole
    · exact role_plainTasks hrest task hmem

variable [Add α] {cfg : PoolConfig} {store store' : KVStore α cfg}

/-- Blocks that share nothing, on both branches. -/
theorem runSpan_ordinary {ids : List Int} {merge : Bool} {maxBatchSize : Nat}
    {tasks : List (BlockTask κ α)}
    {hiddenStates output : Tensor α} (hroles : ∀ task ∈ tasks, task.role = .ordinary)
    (hdummy : isDummy hiddenStates = false) (hsize : getTaskSize hiddenStates ≤ maxBatchSize)
    (hloop : mergedLoop ids tasks hiddenStates ∅ store = .ok (output, ∅) store') :
    runSpan merge maxBatchSize ids tasks ∅ hiddenStates store = .ok (output, ∅) store' := by
  have hnothing : ∀ layerType, ¬ ∃ task ∈ tasks, task.role = .donor layerType := by
    rintro layerType ⟨task, hmem, hrole⟩
    nomatch (hroles task hmem).symm.trans hrole
  rw [runSpan, if_neg (by simp [hdummy])]
  cases merge with
  | true =>
    have htypes : newDonorTypes tasks (∅ : SharedKvStates κ α).keys = [] := by
      refine List.eq_nil_iff_forall_not_mem.mpr fun layerType hmem => ?_
      exact hnothing layerType (mem_newDonorTypes.mp hmem).1
    rw [if_pos rfl]
    refine bind_eq_ok.mpr ⟨(output, []), store', ?_, ?_⟩
    · rw [submitTask, if_neg (by omega)]
      refine bind_eq_ok.mpr ⟨_, _, hloop, ?_⟩
      show EStateM.Result.ok (output, extractProducedSharedKv ∅ (∅ : SharedKvStates κ α).keys) _ = _
      rw [extractProducedSharedKv_self]
    · rw [htypes]
      rfl
  | false =>
    rw [if_neg Bool.false_ne_true]
    have hseeded : ReadsSeeded (tasks.map BlockTask.role) := by
      refine List.pairwise_map.mpr (List.pairwise_of_forall_mem_list fun task hmem _ _ => ?_)
      rintro ⟨layerType, hrole, -⟩
      exact hnothing layerType ⟨task, hmem, hrole⟩
    obtain ⟨produced, hrun, hproduced⟩ := perBlockBranch_of_mergedLoop hseeded (fun _ _ => rfl)
      (fun _ task hmem layerType hrole => absurd ⟨task, hmem, hrole⟩ (hnothing layerType)) hsize
      (producedOver_empty ∅) hloop
    have hempty : produced = ∅ := eq_empty_of_lookup hproduced
    rw [hrun, hempty]

/-- **A turn of a span**: the outputs are those of all its blocks, for the new tokens behind the
    tokens that are kept. -/
theorem iterateRpcInference_span (h : SpanReady specs batch features start span fed store)
    (hrequest : TokenRequest batch m features p request) (hbatch : 0 < batch)
    (hfeatures : 0 < features) (hp : p ≤ fed.length) (hend : p + m ≤ span.maxLength) :
    ∃ response store',
      iterateRpcInference span fed.length request store
        = .ok (response, ((p + m : Nat) : Int)) store' ∧
      response.sharedKvKeys = [] ∧ response.sharedKvTensors = [] ∧
      response.hiddenStates = ofColumns batch features ((layers (fun i => (specs i).run) start
        (start + span.blocks.length) ((goingOnWith request.hypoIds request.hiddenStates.columns
          fed).take p ++ request.hiddenStates.columns)).drop p) ∧
      SpanReady specs batch features start span ((goingOnWith request.hypoIds
        request.hiddenStates.columns fed).take p ++ request.hiddenStates.columns) store' := by
  obtain ⟨cacheTensors, rfl, hholds⟩ := h.cache
  have hm : request.hiddenStates.columns.length = m := by
    rw [length_columns, hrequest.shape]
    rfl
  have hlength : ((goingOnWith request.hypoIds request.hiddenStates.columns fed).take p ++
      request.hiddenStates.columns).length = p + m := by
    rw [List.length_append, List.length_take, length_goingOnWith, hm]
    omega
  have hshapes : ∀ column ∈ (goingOnWith request.hypoIds request.hiddenStates.columns fed).take p ++
      request.hiddenStates.columns, ColumnShape batch features column := by
    intro column hmem
    rcases List.mem_append.mp hmem with hold | hnew
    · exact shape_goingOnWith hrequest.hypoIds h.shape column (List.mem_of_mem_take hold)
    · exact columnShape_columns hrequest.shape column hnew
  have hdummy : isDummy request.hiddenStates = true ↔ m = 0 := by
    rw [isDummy, Tensor.numel, hrequest.shape]
    simp only [List.prod_cons, List.prod_nil, Nat.mul_one, Nat.mul_eq_zero, decide_eq_true_eq]
    omega
  -- it is enough to know what the blocks do
  obtain ⟨output, cacheTensors', hrun, hout, hcolumns, hholds'⟩ : ∃ output cacheTensors',
      (∀ merge, runSpan merge span.maxBatchSize request.hypoIds (plainTasks p span.blocks) ∅
        request.hiddenStates (.contiguous cacheTensors : KVStore α cfg)
          = .ok (output, ∅) (.contiguous cacheTensors')) ∧
      output.shape = [batch, m, features] ∧
      output.columns = (layers (fun i => (specs i).run) start (start + span.blocks.length)
        ((goingOnWith request.hypoIds request.hiddenStates.columns fed).take p ++
          request.hiddenStates.columns)).drop p ∧
      SpanHolds specs batch span.maxLength (p + m) cacheTensors' start
        ((goingOnWith request.hypoIds request.hiddenStates.columns fed).take p ++
          request.hiddenStates.columns) (span.blocks.map Prod.snd) := by
    rcases Nat.eq_zero_or_pos m with rfl | hpos
    · -- no tokens: the caches are cut where the step starts
      have hnone := List.length_eq_zero_iff.mp hm
      rw [hnone, goingOnWith, if_pos rfl, List.append_nil]
      refine ⟨request.hiddenStates, cacheTensors, fun merge => ?_, hrequest.shape, ?_, ?_⟩
      · rw [runSpan, if_pos (hdummy.mpr rfl)]
        rfl
      · rw [hnone]
        refine (List.drop_of_length_le ?_).symm
        rw [length_layers, List.length_take]
        omega
      · refine hholds.congr hp ?_ fun _ _ => rfl
        rw [Nat.add_zero, List.take_take, Nat.min_self]
    · have hsome : request.hiddenStates.columns ≠ [] := List.ne_nil_of_length_pos (hm ▸ hpos)
      rw [goingOnWith, if_neg hsome]
      obtain ⟨output, cacheTensors', hloop, hout, hcolumns, hholds', -⟩ :=
        mergedLoop_causal hrequest.hypoIds h.backends h.nodup hholds h.shape hrequest.shape hbatch
          hpos hp h.fits hend
      refine ⟨output, cacheTensors', fun merge => ?_, hout, hcolumns, hholds'⟩
      refine runSpan_ordinary (role_plainTasks h.backends) ?_ ?_ hloop
      · rw [Bool.eq_false_iff, Ne, hdummy]
        omega
      · rw [getTaskSize, hrequest.shape]
        exact Nat.le_trans (Nat.mul_le_mul_left batch (by omega)) h.size
  refine ⟨_, _, serveStep_ok.mpr ⟨_, _, _, output, ∅, hrequest.parseRequest hp hend, hrun _, rfl, ?_⟩,
    rfl, rfl, ?_, h.backends, h.nodup, h.size, ?_, hshapes, cacheTensors', rfl, ?_⟩
  · rw [InferenceRequest.lengthIncrement, hrequest.shape]
    rfl
  · refine columns_inj hout ?_ ?_
    · rw [shape_ofColumns, ← hcolumns, length_columns, hout]
      rfl
    · rw [columns_ofColumns fun column hmem => ?_]
      · exact hcolumns
      · refine forall_layers _ (fun i xs hne hxs => (specs i).shape_run hne hxs) _ _ hshapes column
          (List.mem_of_mem_drop hmem)
  · rw [hlength]
    exact hend
  · rw [hlength]
    exact hholds'

end Turn

end Drift
