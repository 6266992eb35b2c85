/-
  `PagedKVPool` of `server/memory_cache.py`: the page pool that every paged session of a server
  draws its key/value cache from.

  The model keeps what the class keeps: the two pool tensors, the free list (a stack: pages are
  taken from its end) and the block tables.  A block table is a list of ROWS, and a row is a mutable
  list of physical pages: `reorder` puts the row object of the old table into the new one ("first
  use reuses the source pages in place"), and `scatter` grows rows in place.  So the model names
  the row objects: a table is a list of row references, and `rows` is the store they point into.

  The operations run in `PoolM`, where an exception leaves the pool as it was when it was raised.
  `prefix_length` is an integer here as it is there: nothing between the client's
  `start_from_position` and the pool makes it non-negative.
-/
import Mathlib.Data.List.AList
import Drift.Lib.Effect
import Drift.Lib.Tensor
import Drift.Python

namespace Drift

/-- The pool geometry (`_paged_pool_config`): fixed when the pool is created. -/
structure PoolConfig where
  numPages : Nat
  pageSize : Nat
  numKvHeads : Nat
  kHeadDim : Nat
  vHeadDim : Nat
  pageSize_pos : 0 < pageSize

/-- The paged key/value store of one server. -/
structure PagedKVPool (α : Type) (cfg : PoolConfig) where
  keyPool : Tensor α
  valuePool : Tensor α
  freePages : List Nat
  /-- `_block_tables`: slot id ↦ one row reference per batch row. -/
  blockTables : AList fun _ : Nat => List Nat
  /-- The row objects: reference ↦ physical pages of the row. -/
  rows : List (List Nat)
  keyPool_shape : keyPool.shape = [cfg.numPages, cfg.numKvHeads, cfg.kHeadDim, cfg.pageSize]
  valuePool_shape : valuePool.shape = [cfg.numPages, cfg.numKvHeads, cfg.pageSize, cfg.vHeadDim]

/-- An operation of the pool: it may raise, and what it did before raising stays done. -/
abbrev PoolM (α : Type) (cfg : PoolConfig) (β : Type) := EStateM PyExc (PagedKVPool α cfg) β

namespace PagedKVPool

variable {α : Type} [Zero α] {cfg : PoolConfig}

/-- `PagedKVPool.__init__`. -/
def new (cfg : PoolConfig) : PagedKVPool α cfg where
  keyPool := Tensor.zeros [cfg.numPages, cfg.numKvHeads, cfg.kHeadDim, cfg.pageSize]
  valuePool := Tensor.zeros [cfg.numPages, cfg.numKvHeads, cfg.pageSize, cfg.vHeadDim]
  freePages := List.range cfg.numPages
  blockTables := ∅
  rows := []
  keyPool_shape := rfl
  valuePool_shape := rfl

/-- `num_free_pages`. -/
def numFreePages (s : PagedKVPool α cfg) : Nat := s.freePages.length

/-- `num_used_pages`. -/
def numUsedPages (s : PagedKVPool α cfg) : Int := cfg.numPages - s.freePages.length

/-- The pages that the row object `row` lists. -/
def rowPages (s : PagedKVPool α cfg) (row : Nat) : List Nat := s.rows.getD row []

/-! ## Slots and pages -/

/-- `register_slot`: idempotent, one new empty row per batch row. -/
def registerSlot (slotId batchSize : Nat) (s : PagedKVPool α cfg) : PagedKVPool α cfg :=
  if slotId ∈ s.blockTables then s
  else
    { s with
      blockTables := s.blockTables.insert slotId (List.range' s.rows.length batchSize)
      rows := s.rows ++ List.replicate batchSize [] }

/-- `free_slot`: the pages of all its rows go back to the free list. -/
def freeSlot (slotId : Nat) (s : PagedKVPool α cfg) : PagedKVPool α cfg :=
  match s.blockTables.lookup slotId with
  | none => s
  | some blockTable =>
    { s with
      blockTables := s.blockTables.erase slotId
      freePages := s.freePages ++ blockTable.flatMap s.rowPages }

/-- `_acquire_page`. -/
def acquirePage : PoolM α cfg Nat := fun s =>
  match s.freePages.getLast? with
  | none => .error (.allocationFailed "Paged attention cache is full: no free pages left") s
  | some page => .ok page { s with freePages := s.freePages.dropLast }

/-- `row_pages.append(page)`. -/
def appendPage (row page : Nat) (s : PagedKVPool α cfg) : PagedKVPool α cfg :=
  { s with rows := s.rows.modify row (· ++ [page]) }

/-! ## Reading: `gather` -/

/-- `torch.tensor(idx)` as an index: a ragged table is a `ValueError`, and an empty one becomes
    a float tensor, which does not index. -/
def tableWidth : List (List Nat) → Except PyExc Nat
  | [] => .error .indexError
  | row :: rest =>
    if rest.all (·.length = row.length) then
      if row.length = 0 then .error .indexError else .ok row.length
    else .error (.valueError "expected sequence of equal length")

/-- The keys of `gather`: pages side by side, cut to the prefix. -/
def gatherKeys (s : PagedKVPool α cfg) (idx : List (List Nat)) (width : Nat)
    (gatheredPadded prefixLength : Int) : Option (Tensor α) := do
  let keys := (s.keyPool.indexTable idx width).permute [0, 2, 3, 1, 4]
  let keys ← keys.reshape [(idx.length : Int), cfg.numKvHeads, cfg.kHeadDim, gatheredPadded]
  let keys := keys.slice 3 0 prefixLength
  keys.reshape [((idx.length * cfg.numKvHeads : Nat) : Int), cfg.kHeadDim, prefixLength]

/-- The values of `gather`. -/
def gatherValues (s : PagedKVPool α cfg) (idx : List (List Nat)) (width : Nat)
    (gatheredPadded prefixLength : Int) : Option (Tensor α) := do
  let values := (s.valuePool.indexTable idx width).permute [0, 2, 1, 3, 4]
  let values ← values.reshape [(idx.length : Int), cfg.numKvHeads, gatheredPadded, cfg.vHeadDim]
  let values := values.slice 2 0 prefixLength
  values.reshape [((idx.length * cfg.numKvHeads : Nat) : Int), prefixLength, cfg.vHeadDim]

/-- `gather`. -/
def gather (s : PagedKVPool α cfg) (slotId : Nat) (prefixLength : Int) :
    Except PyExc (Tensor α × Tensor α) :=
  match s.blockTables.lookup slotId with
  | none => .error .keyError
  | some blockTable =>
    let batchSize := blockTable.length
    if prefixLength = 0 then
      .ok (Tensor.zeros [batchSize * cfg.numKvHeads, cfg.kHeadDim, 0],
        Tensor.zeros [batchSize * cfg.numKvHeads, 0, cfg.vHeadDim])
    else
      let numLogicalPages := pyCeilDiv prefixLength cfg.pageSize
      let idx := blockTable.map fun row => pyTake (s.rowPages row) numLogicalPages
      match tableWidth idx with
      | .error e => .error e
      | .ok width =>
        let gatheredPadded := numLogicalPages * cfg.pageSize
        match s.gatherKeys idx width gatheredPadded prefixLength,
          s.gatherValues idx width gatheredPadded prefixLength with
        | some keys, some values => .ok (keys, values)
        | _, _ => .error (.runtimeError "shape is invalid for input")

/-! ## Writing: `scatter` -/

/-- `while len(row_pages) < n: row_pages.append(self._acquire_page())`, `k` pages short. -/
def growRow (row : Nat) : Nat → PoolM α cfg Unit
  | 0 => pure ()
  | k + 1 => do
    let page ← acquirePage
    modify (appendPage row page)
    growRow row k

/-- Grow every row of the block table to cover `numLogicalPages` pages. -/
def growTable (numLogicalPages : Nat) : List Nat → PoolM α cfg Unit
  | [] => pure ()
  | row :: blockTable => do
    let s ← get
    growRow row (numLogicalPages - (s.rowPages row).length)
    growTable numLogicalPages blockTable

/-- `self.key_pool[pages, :, :, off_start:off_end] = keys`. -/
def assignKeys (pages : List Nat) (offStart offEnd : Int) (keys : Tensor α) : PoolM α cfg Unit :=
  fun s =>
    match h : Tensor.assignRows pages 3 offStart offEnd keys s.keyPool with
    | none => .error (.runtimeError "shape mismatch") s
    | some keyPool => .ok () { s with
        keyPool := keyPool
        keyPool_shape := (Tensor.shape_assignRows h).trans s.keyPool_shape }

/-- `self.value_pool[pages, :, off_start:off_end, :] = values`. -/
def assignValues (pages : List Nat) (offStart offEnd : Int) (values : Tensor α) : PoolM α cfg Unit :=
  fun s =>
    match h : Tensor.assignRows pages 2 offStart offEnd values s.valuePool with
    | none => .error (.runtimeError "shape mismatch") s
    | some valuePool => .ok () { s with
        valuePool := valuePool
        valuePool_shape := (Tensor.shape_assignRows h).trans s.valuePool_shape }

/-- The body of `scatter`'s loop over the logical pages. -/
def writePage (blockTable : List Nat) (newKey newValue : Tensor α) (prefixLength newLength : Int)
    (lp : Int) : PoolM α cfg Unit := do
  let s ← get
  let tokStart := max prefixLength (lp * cfg.pageSize)
  let tokEnd := min newLength ((lp + 1) * cfg.pageSize)
  let offStart := tokStart - lp * cfg.pageSize
  let offEnd := tokEnd - lp * cfg.pageSize
  match blockTable.mapM fun row => pyIndex (s.rowPages row) lp with
  | none => throw .indexError
  | some [] => throw .indexError
  | some pages => do
    assignKeys pages offStart offEnd (newKey.slice 3 tokStart tokEnd)
    assignValues pages offStart offEnd (newValue.slice 2 tokStart tokEnd)

/-- `scatter`. -/
def scatter (slotId : Nat) (newKvs : Tensor α × Tensor α) (prefixLength : Int) :
    PoolM α cfg Unit := do
  let s ← get
  match s.blockTables.lookup slotId with
  | none => throw .keyError
  | some blockTable =>
    match newKvs.1.shape.getLast? with
    | none => throw .indexError
    | some newLength =>
      if (newLength : Int) ≤ prefixLength then pure ()
      else
        let batchSize : Int := blockTable.length
        match newKvs.1.reshape [batchSize, cfg.numKvHeads, cfg.kHeadDim, newLength],
          newKvs.2.reshape [batchSize, cfg.numKvHeads, newLength, cfg.vHeadDim] with
        | some newKey, some newValue => do
          let numLogicalPages := pyCeilDiv newLength cfg.pageSize
          growTable numLogicalPages.toNat blockTable
          let firstPage := prefixLength / cfg.pageSize
          (pyRange firstPage numLogicalPages).forM
            (writePage blockTable newKey newValue prefixLength newLength)
        | _, _ => throw (.runtimeError "shape is invalid for input")

/-! ## Permuting the batch rows: `reorder` -/

/-- `self.key_pool[new_page].copy_(self.key_pool[page])` and the same for the values. -/
def copyPage (newPage page : Nat) (s : PagedKVPool α cfg) : PagedKVPool α cfg :=
  { s with
    keyPool := s.keyPool.patch fun
      | p :: ix => if p = newPage then some (s.keyPool.get (page :: ix)) else none
      | [] => none
    valuePool := s.valuePool.patch fun
      | p :: ix => if p = newPage then some (s.valuePool.get (page :: ix)) else none
      | [] => none
    keyPool_shape := s.keyPool_shape
    valuePool_shape := s.valuePool_shape }

/-- The inner loop of `reorder`: a fresh copy of every page of a row. -/
def copyPages : List Nat → PoolM α cfg (List Nat)
  | [] => pure []
  | page :: pages => do
    let newPage ← acquirePage
    modify (copyPage newPage page)
    let copied ← copyPages pages
    pure (newPage :: copied)

/-- A new row object. -/
def newRow (pages : List Nat) : PoolM α cfg Nat := fun s =>
  .ok s.rows.length { s with rows := s.rows ++ [pages] }

/-- One turn of `reorder`'s loop: the row that takes the place of source `src`, and the sources
    claimed so far. -/
def takeRow (blockTable : List Nat) (claimed : List Int) (src : Int) :
    PoolM α cfg (Nat × List Int) :=
  match pyIndex blockTable src with
  | none => throw .indexError
  | some row =>
    if src ∉ claimed then
      -- first use reuses the source pages in place
      pure (row, src :: claimed)
    else do
      let s ← get
      let copied ← copyPages (s.rowPages row)
      let new ← newRow copied
      pure (new, claimed)

/-- The loop of `reorder` over the ids: the rows of the new table and the claimed sources. -/
def reorderRows (blockTable : List Nat) : List Int → List Int →
    PoolM α cfg (List Nat × List Int)
  | [], claimed => pure ([], claimed)
  | src :: hypoIds, claimed => do
    let (row, claimed) ← takeRow blockTable claimed src
    let (result, claimed) ← reorderRows blockTable hypoIds claimed
    pure (row :: result, claimed)

/-- The pages of the rows that no destination row referenced. -/
def reclaimed (s : PagedKVPool α cfg) (blockTable : List Nat) (claimed : List Int) : List Nat :=
  (blockTable.zipIdx.filter fun (_, src) => (src : Int) ∉ claimed).flatMap fun (row, _) =>
    s.rowPages row

/-- `reorder`. -/
def reorder (slotId : Nat) (hypoIds : List Int) : PoolM α cfg Unit := do
  let s ← get
  match s.blockTables.lookup slotId with
  | none => throw .keyError
  | some blockTable => do
    let (result, claimed) ← reorderRows blockTable hypoIds []
    modify fun s => { s with
      freePages := s.freePages ++ s.reclaimed blockTable claimed
      blockTables := s.blockTables.insert slotId result }

/-! ## Calls -/

/-- A call of one of the pool's operations. -/
inductive Call (α : Type) where
  | registerSlot (slotId batchSize : Nat)
  | freeSlot (slotId : Nat)
  | reorder (slotId : Nat) (hypoIds : List Int)
  | gather (slotId : Nat) (prefixLength : Int)
  | scatter (slotId : Nat) (newKvs : Tensor α × Tensor α) (prefixLength : Int)

/-- The slot a call names. -/
def Call.slot : Call α → Nat
  | .registerSlot slotId _ => slotId
  | .freeSlot slotId => slotId
  | .reorder slotId _ => slotId
  | .gather slotId _ => slotId
  | .scatter slotId _ _ => slotId

/-- Perform a call. -/
def Call.perform : Call α → PoolM α cfg Unit
  | .registerSlot slotId batchSize => modify (PagedKVPool.registerSlot slotId batchSize)
  | .freeSlot slotId => modify (PagedKVPool.freeSlot slotId)
  | .reorder slotId hypoIds => PagedKVPool.reorder slotId hypoIds
  | .gather slotId prefixLength => fun s =>
    match PagedKVPool.gather s slotId prefixLength with
    | .ok _ => .ok () s
    | .error e => .error e s
  | .scatter slotId newKvs prefixLength => PagedKVPool.scatter slotId newKvs prefixLength

/-- The pool after a call, whether it returned or raised. -/
def after (s : PagedKVPool α cfg) (call : Call α) : PagedKVPool α cfg := finalState (call.perform s)

/-! ## A small pool -/

/-- One token a page, one head of size one. -/
def tokenConfig (numPages : Nat) : PoolConfig := ⟨numPages, 1, 1, 1, 1, Nat.one_pos⟩

/-- Keys and values of `newLength` tokens in every row, all of them `x`. -/
def tokenKvs (batchSize newLength : Nat) (x : Int) : Tensor Int × Tensor Int :=
  (Tensor.ofFn [batchSize, 1, newLength] fun _ => x,
    Tensor.ofFn [batchSize, newLength, 1] fun _ => x)

end PagedKVPool

end Drift
