/-
  When a step takes the first page of a pool.

  As long as nothing has been stored, every row of every slot is empty and all pages are free
  (`Unused`).  Slots come and go without a change to that, and so do reorders: there is nothing to
  copy and nothing to give back.  A read behind a prefix raises, for no row has a page.

  So a step takes a page only if it begins at position 0 and its block returns the keys and values
  of a token for the rows of the batch, and then it does take one (`pagedInferenceStep_unused`).
  What the step does to the tensors of the pool plays no part.
-/
import Drift.Cache.Admission
import Drift.Cache.PagedReorder

namespace Drift

namespace PagedKVPool

variable {α : Type} {cfg : PoolConfig}

/-- No row has a page, and every page is free. -/
structure Unused (s : PagedKVPool α cfg) : Prop where
  rows : ∀ pages ∈ s.rows, pages = []
  free : s.freePages.length = cfg.numPages

theorem Unused.rowPages {s : PagedKVPool α cfg} (h : s.Unused) (row : Nat) :
    s.rowPages row = [] := by
  unfold PagedKVPool.rowPages
  cases hrow : s.rows[row]? with
  | none => rw [List.getD_eq_getElem?_getD, hrow, Option.getD_none]
  | some pages =>
    rw [List.getD_eq_getElem?_getD, hrow, Option.getD_some]
    exact h.rows pages (List.mem_of_getElem? hrow)

/-- The rows of an unused pool have no page to give back. -/
theorem Unused.flatMap_rowPages {s : PagedKVPool α cfg} (h : s.Unused) (table : List Nat) :
    table.flatMap s.rowPages = [] :=
  List.flatMap_eq_nil_iff.mpr fun row _ => h.rowPages row

/-- In numbers: no page is in use. -/
theorem Unused.numUsedPages {s : PagedKVPool α cfg} (h : s.Unused) : s.numUsedPages = 0 := by
  rw [PagedKVPool.numUsedPages, h.free, Int.sub_self]

theorem Unused.registerSlot {s : PagedKVPool α cfg} (h : s.Unused) (slotId batchSize : Nat) :
    (s.registerSlot slotId batchSize).Unused := by
  unfold PagedKVPool.registerSlot
  split
  · exact h
  · refine ⟨fun pages hpages => ?_, h.free⟩
    rcases List.mem_append.mp hpages with hold | hnew
    · exact h.rows pages hold
    · exact List.eq_of_mem_replicate hnew

theorem Unused.freeSlot {s : PagedKVPool α cfg} (h : s.Unused) (slotId : Nat) :
    (s.freeSlot slotId).Unused := by
  unfold PagedKVPool.freeSlot
  split
  · exact h
  · refine ⟨h.rows, ?_⟩
    show (s.freePages ++ _).length = cfg.numPages
    rw [h.flatMap_rowPages, List.append_nil, h.free]

/-- `use_paged_pool` first empties the pipe. -/
theorem Unused.receive {s : PagedKVPool α cfg} (h : s.Unused) (message : PagedMessage) :
    (PagedMemoryCache.receive s message).Unused := by
  cases message with
  | register slotIds batchSize =>
    exact List.foldlRecOn slotIds _ h fun _ hpool slotId _ => hpool.registerSlot slotId batchSize
  | free slotIds =>
    exact List.foldlRecOn slotIds _ h fun _ hpool slotId _ => hpool.freeSlot slotId

variable [Zero α]

theorem new_unused (cfg : PoolConfig) : (new cfg : PagedKVPool α cfg).Unused :=
  ⟨fun _ h => absurd h List.not_mem_nil, List.length_range⟩

/-! ## Reorders -/

/-- A copied row of an unused pool is a new empty one. -/
theorem takeRow_unused {s : PagedKVPool α cfg} (h : s.Unused) {table : List Nat} {src : Int}
    {row : Nat} (hrow : pyIndex table src = some row) (claimed : List Int) :
    ∃ r s', takeRow table claimed src s = .ok r s' ∧ s'.Unused ∧
      s'.blockTables = s.blockTables := by
  rw [takeRow, hrow]
  by_cases hclaimed : src ∉ claimed
  · exact ⟨(row, src :: claimed), s, by simp only [if_pos hclaimed]; rfl, h, rfl⟩
  · refine ⟨(s.rows.length, claimed), { s with rows := s.rows ++ [[]] }, ?_, ⟨?_, h.free⟩, rfl⟩
    · simp only [if_neg hclaimed, bind_get, h.rowPages]
      rfl
    · intro pages hpages
      rcases List.mem_append.mp hpages with hold | hnew
      · exact h.rows pages hold
      · exact List.mem_singleton.mp hnew

/-- The loop over the ids returns a row for each, if each of them is one of a row. -/
theorem reorderRows_unused (table : List Nat) : ∀ (hypoIds claimed : List Int)
    {s : PagedKVPool α cfg}, s.Unused →
    ((∀ id ∈ hypoIds, (pyIndex table id).isSome = true) ∧ ∃ result claimed' s',
      reorderRows table hypoIds claimed s = .ok (result, claimed') s' ∧ s'.Unused ∧
      s'.blockTables = s.blockTables ∧ result.length = hypoIds.length) ∨
    (¬ (∀ id ∈ hypoIds, (pyIndex table id).isSome = true) ∧ ∃ e s',
      reorderRows table hypoIds claimed s = .error e s' ∧ s'.Unused)
  | [], claimed, s, h =>
    .inl ⟨fun _ hid => absurd hid List.not_mem_nil, [], claimed, s, rfl, h, rfl, rfl⟩
  | src :: hypoIds, claimed, s, h => by
    rw [reorderRows]
    cases hrow : pyIndex table src with
    | none =>
      refine .inr ⟨fun hall => ?_, .indexError, s, bind_of_error ?_, h⟩
      · have hsrc := hall src List.mem_cons_self
        rw [hrow] at hsrc
        cases hsrc
      · rw [takeRow, hrow]
        rfl
    | some row =>
      obtain ⟨⟨row', claimed₁⟩, s₁, htake, h₁, htables⟩ := takeRow_unused h hrow claimed
      rw [bind_of_ok htake]
      rcases reorderRows_unused table hypoIds claimed₁ h₁ with
        ⟨hall, result, claimed₂, s₂, hrest, h₂, htables₂, hlength⟩ | ⟨hnot, e, s₂, hrest, h₂⟩
      · refine .inl ⟨fun id hid => ?_, row' :: result, claimed₂, s₂, ?_, h₂,
          htables₂.trans htables, congrArg Nat.succ hlength⟩
        · rcases List.mem_cons.mp hid with rfl | hid
          · rw [hrow]
            rfl
          · exact hall id hid
        · dsimp only
          rw [bind_of_ok hrest]
          rfl
      · refine .inr ⟨fun hall => hnot fun id hid => hall id (List.mem_cons_of_mem src hid),
          e, s₂, ?_, h₂⟩
        dsimp only
        rw [bind_of_error hrest]

/-- The number of rows behind the `reorder` of a step: one for each id, if there are ids. -/
def rowsBehind (hypoIds : List Int) (table : List Nat) : Nat :=
  if hypoIds.isEmpty then table.length else hypoIds.length

/-- The first part of a step: it returns a table of that many rows, or raises. -/
theorem reorderStep_unused {s : PagedKVPool α cfg} (h : s.Unused) (slotId : Nat)
    (hypoIds : List Int) {table : List Nat} (htable : s.blockTables.lookup slotId = some table) :
    ((∀ id ∈ hypoIds, (pyIndex table id).isSome = true) ∧ ∃ table' s',
      (if hypoIds.isEmpty then pure () else reorder slotId hypoIds : PoolM α cfg Unit) s
        = .ok () s' ∧ s'.Unused ∧ s'.blockTables.lookup slotId = some table' ∧
      table'.length = rowsBehind hypoIds table) ∨
    (¬ (∀ id ∈ hypoIds, (pyIndex table id).isSome = true) ∧ ∃ e s',
      (if hypoIds.isEmpty then pure () else reorder slotId hypoIds : PoolM α cfg Unit) s
        = .error e s' ∧ s'.Unused) := by
  cases hypoIds with
  | nil => exact .inl ⟨fun _ hid => absurd hid List.not_mem_nil, table, s, rfl, h, htable, rfl⟩
  | cons src hypoIds =>
    rcases reorderRows_unused table (src :: hypoIds) [] h with
      ⟨hall, result, claimed, s', hloop, h', -, hlength⟩ | ⟨hnot, e, s', hloop, h'⟩
    · refine .inl ⟨hall, result, _, reorder_of_ok htable hloop, ⟨h'.rows, ?_⟩,
        AList.lookup_insert _, hlength⟩
      have hreclaimed : s'.reclaimed table claimed = [] :=
        List.flatMap_eq_nil_iff.mpr fun entry _ => h'.rowPages entry.1
      show (s'.freePages ++ s'.reclaimed table claimed).length = cfg.numPages
      rw [hreclaimed, List.append_nil, h'.free]
    · exact .inr ⟨hnot, e, s', reorder_of_error htable hloop, h'⟩

/-! ## Reads -/

/-- The keys and values behind no prefix. -/
def emptyPast (cfg : PoolConfig) (batchSize : Nat) : Tensor α × Tensor α :=
  (Tensor.zeros [batchSize * cfg.numKvHeads, cfg.kHeadDim, 0],
    Tensor.zeros [batchSize * cfg.numKvHeads, 0, cfg.vHeadDim])

/-- A read behind a prefix finds no page. -/
theorem gather_unused {s : PagedKVPool α cfg} (h : s.Unused) {slotId : Nat} {table : List Nat}
    (htable : s.blockTables.lookup slotId = some table) {prefixLength : Int}
    (hbehind : prefixLength ≠ 0) : ∃ e, gather s slotId prefixLength = .error e := by
  have hwidth : ∀ stop, ∃ e, tableWidth (table.map fun row => pyTake (s.rowPages row) stop)
      = .error e := by
    intro stop
    have hmap : (table.map fun row => pyTake (s.rowPages row) stop)
        = table.map fun _ => pyTake ([] : List Nat) stop :=
      List.map_congr_left fun row _ => by rw [h.rowPages]
    rw [hmap]
    cases table with
    | nil => exact ⟨_, rfl⟩
    | cons row table =>
      have hnil : pyTake ([] : List Nat) stop = [] := by simp [pyTake]
      rw [List.map_cons, tableWidth, hnil]
      simp
  rw [gather, htable]
  simp only [if_neg hbehind]
  obtain ⟨e, he⟩ := hwidth (pyCeilDiv prefixLength cfg.pageSize)
  rw [he]
  exact ⟨e, rfl⟩

/-! ## Writes -/

/-- No page is given back. -/
def GivesNoneBack (s s' : PagedKVPool α cfg) : Prop := s'.freePages.length ≤ s.freePages.length

omit [Zero α] in
theorem GivesNoneBack.trans (a b c : PagedKVPool α cfg) (h : GivesNoneBack a b)
    (h' : GivesNoneBack b c) : GivesNoneBack a c := Nat.le_trans h' h

omit [Zero α] in
theorem growRow_givesNoneBack (row : Nat) : ∀ k : Nat,
    Keeps GivesNoneBack (growRow row k : PoolM α cfg Unit)
  | 0 => fun _ => Nat.le_refl _
  | k + 1 => fun s => by
    rw [growRow]
    refine keeps_bind_at GivesNoneBack.trans ?_ fun page s₁ _ => ?_
    · rcases acquirePage_cases s with ⟨-, he⟩ | ⟨page, -, hok⟩
      · rw [he]
        exact Nat.le_refl _
      · rw [hok]
        exact (List.dropLast_sublist _).length_le
    · rw [bind_modify]
      exact growRow_givesNoneBack row k (appendPage row page s₁)

omit [Zero α] in
theorem growTable_givesNoneBack (numLogicalPages : Nat) : ∀ table : List Nat,
    Keeps GivesNoneBack (growTable numLogicalPages table : PoolM α cfg Unit)
  | [] => fun _ => Nat.le_refl _
  | row :: table => fun s => by
    rw [growTable, bind_get]
    exact keeps_bind_at GivesNoneBack.trans (growRow_givesNoneBack row _ s)
      fun _ s₁ _ => growTable_givesNoneBack numLogicalPages table s₁

omit [Zero α] in
/-- Growing a table of empty rows takes a page, if there are a row, a page to take and a page to
    grow to. -/
theorem growTable_takes {s : PagedKVPool α cfg} (h : s.Unused) (hpages : 0 < cfg.numPages)
    {table : List Nat} (hne : table ≠ []) {numLogicalPages : Nat} (hgrow : 0 < numLogicalPages) :
    (finalState (growTable numLogicalPages table s)).freePages.length < cfg.numPages := by
  obtain ⟨row, table, rfl⟩ := List.exists_cons_of_ne_nil hne
  obtain ⟨n, rfl⟩ := Nat.exists_eq_succ_of_ne_zero hgrow.ne'
  have hfree : s.freePages ≠ [] := List.ne_nil_of_length_pos (h.free ▸ hpages)
  rw [growTable, bind_get, h.rowPages]
  show (finalState ((growRow row (n + 1) >>= fun _ => growTable (n + 1) table) s)).freePages.length
    < cfg.numPages
  rcases acquirePage_cases s with ⟨hnil, -⟩ | ⟨page, -, hok⟩
  · exact absurd hnil hfree
  · have hless : (growRow row (n + 1) >>= fun _ => growTable (n + 1) table) s
        = (growRow row n >>= fun _ => growTable (n + 1) table)
          (appendPage row page { s with freePages := s.freePages.dropLast }) := by
      rw [growRow]
      show EStateM.bind _ _ s = EStateM.bind _ _ _
      simp only [EStateM.bind]
      rw [bind_of_ok hok, bind_modify]
    rw [hless]
    refine Nat.lt_of_le_of_lt (keeps_bind_at GivesNoneBack.trans (growRow_givesNoneBack row n _)
      fun _ s₁ _ => growTable_givesNoneBack (n + 1) table s₁) ?_
    show s.freePages.dropLast.length < cfg.numPages
    rw [List.length_dropLast, h.free]
    omega

/-- Keys and values of at least one token, for a batch of this many rows. -/
def HasTokens (cfg : PoolConfig) (batchSize : Nat) (newKvs : Tensor α × Tensor α) : Prop :=
  ∃ newLength, newKvs.1.shape.getLast? = some newLength ∧ 0 < newLength ∧ 0 < batchSize ∧
    (newKvs.1.reshape [(batchSize : Int), cfg.numKvHeads, cfg.kHeadDim, newLength]).isSome ∧
    (newKvs.2.reshape [(batchSize : Int), cfg.numKvHeads, newLength, cfg.vHeadDim]).isSome

/-- The part of `scatter` that changes the pool: with a row and a page it leaves a page in use, and
    otherwise it changes nothing. -/
theorem growThenWrite_unused {s : PagedKVPool α cfg} (h : s.Unused) (newKey newValue : Tensor α)
    (pre len : Int) (lps : List Int) (table : List Nat) {numLogicalPages : Nat}
    (hgrow : 0 < numLogicalPages) :
    (0 < cfg.numPages ∧ table ≠ [] ∧
      0 < (finalState ((growTable numLogicalPages table >>= fun _ =>
        lps.forM (writePage table newKey newValue pre len)) s)).numUsedPages) ∨
    (¬ (0 < cfg.numPages ∧ table ≠ []) ∧
      finalState ((growTable numLogicalPages table >>= fun _ =>
        lps.forM (writePage table newKey newValue pre len)) s) = s) := by
  by_cases hboth : 0 < cfg.numPages ∧ table ≠ []
  · obtain ⟨hpages, hne⟩ := hboth
    refine .inl ⟨hpages, hne, ?_⟩
    have htakes := growTable_takes h hpages hne hgrow
    have hwrite : ∀ s₁ : PagedKVPool α cfg,
        (finalState (lps.forM (writePage table newKey newValue pre len) s₁)).freePages
          = s₁.freePages := fun s₁ =>
      (keeps_forM (Wrote.refl table) (fun _ _ _ => Wrote.trans)
        (fun lp => writePage_wrote table newKey newValue pre len lp) lps s₁).freePages
    have hless : (finalState ((growTable numLogicalPages table >>= fun _ =>
        lps.forM (writePage table newKey newValue pre len)) s)).freePages.length
          < cfg.numPages := by
      cases hg : growTable numLogicalPages table s with
      | ok u s₁ =>
        rw [hg] at htakes
        rw [bind_of_ok hg, hwrite]
        exact htakes
      | error e s₁ =>
        rw [hg] at htakes
        rw [bind_of_error hg]
        exact htakes
    rw [numUsedPages]
    omega
  · refine .inr ⟨hboth, ?_⟩
    cases table with
    | nil =>
      -- no row: what is written is indexed by no page
      rw [growTable]
      refine keeps_forM (R := fun s s' : PagedKVPool α cfg => s' = s) (fun _ => rfl)
        (fun _ _ _ h h' => h'.trans h) (fun lp s₁ => ?_) lps s
      rw [writePage, bind_get]
      rfl
    | cons row table =>
      -- no page: the first row cannot grow
      have hnil : s.freePages = [] := by
        refine List.eq_nil_of_length_eq_zero (h.free.trans (Nat.eq_zero_of_not_pos fun hpages => ?_))
        exact hboth ⟨hpages, List.cons_ne_nil _ _⟩
      obtain ⟨n, rfl⟩ := Nat.exists_eq_succ_of_ne_zero hgrow.ne'
      rcases acquirePage_cases s with ⟨-, he⟩ | ⟨page, hfree, -⟩
      · have hrow : growRow row (n + 1) s
            = .error (.allocationFailed "Paged attention cache is full: no free pages left") s := by
          rw [growRow, bind_of_error he]
        have htable : growTable (n + 1) (row :: table) s
            = .error (.allocationFailed "Paged attention cache is full: no free pages left") s := by
          rw [growTable, bind_get, h.rowPages]
          exact bind_of_error hrow
        rw [bind_of_error htable]
        rfl
      · rw [hnil] at hfree
        cases hfree

/-- **A write at position 0** of an unused pool takes a page exactly if it has a token and there is
    a page; otherwise the pool stays unused. -/
theorem scatter_unused {s : PagedKVPool α cfg} (h : s.Unused) {slotId : Nat} {table : List Nat}
    (htable : s.blockTables.lookup slotId = some table) (newKvs : Tensor α × Tensor α) :
    (0 < cfg.numPages ∧ HasTokens cfg table.length newKvs ∧
      0 < (finalState (scatter slotId newKvs 0 s)).numUsedPages) ∨
    (¬ (0 < cfg.numPages ∧ HasTokens cfg table.length newKvs) ∧
      (finalState (scatter slotId newKvs 0 s)).Unused) := by
  rw [scatter, bind_get]
  simp only [htable]
  cases hlast : newKvs.1.shape.getLast? with
  | none =>
    refine .inr ⟨?_, h⟩
    rintro ⟨-, newLength, hnew, -⟩
    rw [hlast] at hnew
    cases hnew
  | some newLength =>
    dsimp only
    by_cases hpos : (newLength : Int) ≤ 0
    · rw [if_pos hpos]
      refine .inr ⟨?_, h⟩
      rintro ⟨-, newLength', hnew, hpos', -⟩
      obtain rfl := Option.some.inj (hlast.symm.trans hnew)
      omega
    · rw [if_neg hpos]
      cases hkey : newKvs.1.reshape
          [(table.length : Int), cfg.numKvHeads, cfg.kHeadDim, newLength] with
      | none =>
        refine .inr ⟨?_, h⟩
        rintro ⟨-, newLength', hnew, -, -, hk, -⟩
        obtain rfl := Option.some.inj (hlast.symm.trans hnew)
        rw [hkey] at hk
        cases hk
      | some newKey =>
        cases hvalue : newKvs.2.reshape
            [(table.length : Int), cfg.numKvHeads, newLength, cfg.vHeadDim] with
        | none =>
          refine .inr ⟨?_, h⟩
          rintro ⟨-, newLength', hnew, -, -, -, hv⟩
          obtain rfl := Option.some.inj (hlast.symm.trans hnew)
          rw [hvalue] at hv
          cases hv
        | some newValue =>
          have hlength : 0 < newLength := by omega
          have hgrow : 0 < (pyCeilDiv newLength cfg.pageSize).toNat := by
            rw [pyCeilDiv_natCast cfg.pageSize_pos, Int.toNat_natCast]
            exact Nat.div_pos (by omega) cfg.pageSize_pos
          dsimp only
          rcases growThenWrite_unused h newKey newValue 0 newLength
            (pyRange (0 / cfg.pageSize) (pyCeilDiv newLength cfg.pageSize)) table hgrow with
            ⟨hpages, hne, hused⟩ | ⟨hnot, hsame⟩
          · refine .inl ⟨hpages, ⟨newLength, hlast, hlength, List.length_pos_of_ne_nil hne, ?_, ?_⟩,
              hused⟩
            · rw [hkey]
              rfl
            · rw [hvalue]
              rfl
          · refine .inr ⟨?_, ?_⟩
            · rintro ⟨hpages, -, -, -, hbatch, -⟩
              exact hnot ⟨hpages, List.ne_nil_of_length_pos hbatch⟩
            · rw [hsame]
              exact h

/-! ## A step -/

/-- A step stores a token: the pool has pages, the ids of the step are those of rows, it begins at
    position 0, and its block returns the keys and values of at least one token for the batch. -/
def StoresTokens (s : PagedKVPool α cfg) (slotId : Nat) (hypoIds : List Int) (prefixLength : Int)
    (forward : Tensor α × Tensor α → Except PyExc (Tensor α × Tensor α)) : Prop :=
  0 < cfg.numPages ∧ prefixLength = 0 ∧ ∃ table, s.blockTables.lookup slotId = some table ∧
    (∀ id ∈ hypoIds, (pyIndex table id).isSome = true) ∧
    ∃ newKvs, forward (emptyPast cfg (rowsBehind hypoIds table)) = .ok newKvs ∧
      HasTokens cfg (rowsBehind hypoIds table) newKvs

/-- What a step does behind its `reorder`. -/
theorem pagedInferenceStep_of_ok {s s₁ : PagedKVPool α cfg} {slotId : Nat} {hypoIds : List Int}
    (prefixLength : Int) (forward : Tensor α × Tensor α → Except PyExc (Tensor α × Tensor α))
    (h : (if hypoIds.isEmpty then pure () else reorder slotId hypoIds : PoolM α cfg Unit) s
      = .ok () s₁) :
    PagedMemoryCache.pagedInferenceStep slotId hypoIds prefixLength forward s =
      (match (gather s₁ slotId prefixLength).bind forward with
        | .error e => throw e
        | .ok newKvs => scatter slotId newKvs prefixLength : PoolM α cfg Unit) s₁ := by
  cases hypoIds with
  | nil =>
    cases h
    rfl
  | cons src hypoIds =>
    have hreorder : reorder slotId (src :: hypoIds) s = .ok () s₁ := h
    show (reorder slotId (src :: hypoIds) >>= _) s = _
    rw [bind_of_ok hreorder]
    rfl

theorem pagedInferenceStep_of_error {s s₁ : PagedKVPool α cfg} {slotId : Nat} {hypoIds : List Int}
    {e : PyExc} (prefixLength : Int)
    (forward : Tensor α × Tensor α → Except PyExc (Tensor α × Tensor α))
    (h : (if hypoIds.isEmpty then pure () else reorder slotId hypoIds : PoolM α cfg Unit) s
      = .error e s₁) :
    PagedMemoryCache.pagedInferenceStep slotId hypoIds prefixLength forward s = .error e s₁ := by
  cases hypoIds with
  | nil => cases h
  | cons src hypoIds =>
    have hreorder : reorder slotId (src :: hypoIds) s = .error e s₁ := h
    show (reorder slotId (src :: hypoIds) >>= _) s = _
    rw [bind_of_error hreorder]

/-- A step over a slot that is not registered raises. -/
theorem pagedInferenceStep_of_none {s : PagedKVPool α cfg} {slotId : Nat}
    (htable : s.blockTables.lookup slotId = none) (hypoIds : List Int) (prefixLength : Int)
    (forward : Tensor α × Tensor α → Except PyExc (Tensor α × Tensor α)) :
    PagedMemoryCache.pagedInferenceStep slotId hypoIds prefixLength forward s
      = .error .keyError s := by
  cases hypoIds with
  | nil =>
    rw [pagedInferenceStep_of_ok prefixLength forward rfl, gather, htable]
    rfl
  | cons src hypoIds =>
    refine pagedInferenceStep_of_error prefixLength forward ?_
    show reorder slotId (src :: hypoIds) s = _
    rw [reorder, bind_get]
    simp only [htable]
    rfl

/-- **One step** over an unused pool leaves a page in use exactly if it stores a token; otherwise
    the pool stays unused. -/
theorem pagedInferenceStep_unused {s : PagedKVPool α cfg} (h : s.Unused) (slotId : Nat)
    (hypoIds : List Int) (prefixLength : Int)
    (forward : Tensor α × Tensor α → Except PyExc (Tensor α × Tensor α)) :
    (s.StoresTokens slotId hypoIds prefixLength forward ∧
      0 < (finalState (PagedMemoryCache.pagedInferenceStep slotId hypoIds prefixLength forward
        s)).numUsedPages) ∨
    (¬ s.StoresTokens slotId hypoIds prefixLength forward ∧
      (finalState (PagedMemoryCache.pagedInferenceStep slotId hypoIds prefixLength forward
        s)).Unused) := by
  cases htable : s.blockTables.lookup slotId with
  | none =>
    rw [pagedInferenceStep_of_none htable]
    refine .inr ⟨?_, h⟩
    rintro ⟨-, -, table, hlookup, -⟩
    cases htable.symm.trans hlookup
  | some table =>
    rcases reorderStep_unused h slotId hypoIds htable with
      ⟨hids, table', s₁, hstep, h₁, htable₁, hlength⟩ | ⟨hnot, e, s₁, hstep, h₁⟩
    · rw [pagedInferenceStep_of_ok prefixLength forward hstep]
      by_cases hprefix : prefixLength = 0
      · subst hprefix
        have hgather : gather s₁ slotId 0 = .ok (emptyPast cfg (rowsBehind hypoIds table)) := by
          rw [gather, htable₁, ← hlength]
          rfl
        rw [hgather, Except.bind]
        cases hforward : forward (emptyPast cfg (rowsBehind hypoIds table)) with
        | error e =>
          refine .inr ⟨?_, h₁⟩
          rintro ⟨-, -, table₂, hlookup, -, newKvs, hok, -⟩
          obtain rfl := Option.some.inj (htable.symm.trans hlookup)
          cases hforward.symm.trans hok
        | ok newKvs =>
          rcases scatter_unused h₁ htable₁ newKvs with
            ⟨hpages, htokens, hused⟩ | ⟨hnot, hunused⟩
          · exact .inl ⟨⟨hpages, rfl, table, htable, hids, newKvs, hforward, hlength ▸ htokens⟩,
              hused⟩
          · refine .inr ⟨?_, hunused⟩
            rintro ⟨hpages, -, table₂, hlookup, -, newKvs₂, hok, htokens⟩
            obtain rfl := Option.some.inj (htable.symm.trans hlookup)
            obtain rfl := Except.ok.inj (hforward.symm.trans hok)
            exact hnot ⟨hpages, hlength.symm ▸ htokens⟩
      · obtain ⟨e, he⟩ := gather_unused h₁ htable₁ hprefix
        rw [he]
        exact .inr ⟨fun hstores => hprefix hstores.2.1, h₁⟩
    · rw [pagedInferenceStep_of_error prefixLength forward hstep]
      refine .inr ⟨?_, h₁⟩
      rintro ⟨-, -, table₂, hlookup, hids, -⟩
      obtain rfl := Option.some.inj (htable.symm.trans hlookup)
      exact hnot hids

end PagedKVPool

end Drift
