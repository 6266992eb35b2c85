/-
  When a write into the page pool returns.

  `scatter` grows every row of its block table to the pages of the new length before it writes.  The
  growth is all that can fail: it returns exactly if there are as many free pages as the rows lack
  (`pagesShort`), and then so does the write (`scatter_returns_iff`).
-/
import Drift.Cache.PagedContents

namespace Drift.PagedKVPool

variable {α : Type} {cfg : PoolConfig}

/-- `_acquire_page` on an empty free list. -/
def poolFull : PyExc := .allocationFailed "Paged attention cache is full: no free pages left"

/-- How many pages the rows of a table lack. -/
def pagesShort (s : PagedKVPool α cfg) (table : List Nat) (numLogicalPages : Nat) : Nat :=
  (table.map fun row => numLogicalPages - (s.rowPages row).length).sum

theorem growRow_cases {row : Nat} : ∀ (k : Nat) {s : PagedKVPool α cfg},
    (k ≤ s.freePages.length ∧ ∃ s', growRow row k s = .ok () s' ∧
      s'.freePages.length + k = s.freePages.length) ∨
    (s.freePages.length < k ∧ ∃ s', growRow row k s = .error poolFull s')
  | 0, s => Or.inl ⟨Nat.zero_le _, s, rfl, rfl⟩
  | k + 1, s => by
    rcases acquirePage_cases s with ⟨hnil, he⟩ | ⟨page, hfree, hok⟩
    · right
      rw [hnil]
      exact ⟨Nat.succ_pos k, s, by rw [growRow, bind_of_error he]; rfl⟩
    · have hlen : s.freePages.length = s.freePages.dropLast.length + 1 := by
        have := congrArg List.length hfree
        rw [List.length_append] at this
        exact this
      have hrow : growRow row (k + 1) s
          = growRow row k (appendPage row page { s with freePages := s.freePages.dropLast }) := by
        rw [growRow, bind_of_ok hok, bind_modify]
      rcases growRow_cases k with ⟨hle, s', hgrow, hrest⟩ | ⟨hlt, s', hgrow⟩
      · left
        refine ⟨?_, s', hrow.trans hgrow, ?_⟩
        · have : k ≤ s.freePages.dropLast.length := hle
          omega
        · have : s'.freePages.length + k = s.freePages.dropLast.length := hrest
          omega
      · right
        refine ⟨?_, s', hrow.trans hgrow⟩
        have : s.freePages.dropLast.length < k := hlt
        omega

/-- Growing other rows does not change what a table lacks. -/
theorem pagesShort_congr {s s' : PagedKVPool α cfg} {table : List Nat} (numLogicalPages : Nat)
    (h : ∀ r ∈ table, s'.rowPages r = s.rowPages r) :
    pagesShort s' table numLogicalPages = pagesShort s table numLogicalPages := by
  rw [pagesShort, pagesShort]
  refine congrArg List.sum (List.map_congr_left fun r hr => ?_)
  rw [h r hr]

/-- **The growth of a table** returns exactly if there are pages for all its rows. -/
theorem growTable_cases (numLogicalPages : Nat) : ∀ (table : List Nat) {s : PagedKVPool α cfg},
    s.RowsDistinct → table.Nodup → table ⊆ s.tableRows →
    (pagesShort s table numLogicalPages ≤ s.freePages.length ∧
      ∃ s', growTable numLogicalPages table s = .ok () s') ∨
    (s.freePages.length < pagesShort s table numLogicalPages ∧
      ∃ s', growTable numLogicalPages table s = .error poolFull s')
  | [], s, _, _, _ => Or.inl ⟨Nat.zero_le _, s, rfl⟩
  | row :: table, s, hs, hnd, hsub => by
    obtain ⟨hnot, hnd'⟩ := List.nodup_cons.mp hnd
    have hrow : row ∈ s.tableRows := hsub List.mem_cons_self
    have hsum : pagesShort s (row :: table) numLogicalPages
        = numLogicalPages - (s.rowPages row).length + pagesShort s table numLogicalPages := by
      rw [pagesShort, pagesShort, List.map_cons, List.sum_cons]
    rw [hsum, growTable, bind_get]
    generalize hk : numLogicalPages - (s.rowPages row).length = k
    have hgrown := growRow_grown (List.mem_singleton_self row) k s hs hrow
    rcases growRow_cases k with ⟨hle, s₁, hgrow, hrest⟩ | ⟨hlt, s₁, hgrow⟩
    · rw [hgrow, finalState_ok] at hgrown
      have hsame : pagesShort s₁ table numLogicalPages = pagesShort s table numLogicalPages :=
        pagesShort_congr numLogicalPages fun r hr => hgrown.other r fun hmem =>
          hnot (List.mem_singleton.mp hmem ▸ hr)
      rw [bind_of_ok hgrow]
      rcases growTable_cases numLogicalPages table (hgrown.rowsDistinct hs) hnd'
        (fun r hr => hgrown.tableRows ▸ hsub (List.mem_cons_of_mem _ hr)) with
        ⟨hle', hok⟩ | ⟨hlt', herr⟩
      · exact Or.inl ⟨by omega, hok⟩
      · exact Or.inr ⟨by omega, herr⟩
    · rw [bind_of_error hgrow]
      exact Or.inr ⟨by omega, s₁, rfl⟩

variable [Zero α]

/-- **A write of new tokens** whose tensors have the right sizes returns exactly if there are pages
    for all rows, and raises `AllocationFailed` otherwise. -/
theorem scatter_cases {s : PagedKVPool α cfg} {slotId p n : Nat} {table : List Nat}
    (newKvs : Tensor α × Tensor α) (hs : s.Sound)
    (ht : s.blockTables.lookup slotId = some table) (hne : table ≠ [])
    (hn : newKvs.1.shape.getLast? = some n) (hpn : p < n)
    (hk : [table.length, cfg.numKvHeads, cfg.kHeadDim, n].prod = newKvs.1.shape.prod)
    (hv : [table.length, cfg.numKvHeads, n, cfg.vHeadDim].prod = newKvs.2.shape.prod) :
    (pagesShort s table ((n + cfg.pageSize - 1) / cfg.pageSize) ≤ s.freePages.length ∧
      ∃ s', scatter slotId newKvs p s = .ok () s') ∨
    (s.freePages.length < pagesShort s table ((n + cfg.pageSize - 1) / cfg.pageSize) ∧
      ∃ s', scatter slotId newKvs p s = .error poolFull s') := by
  have hkey : newKvs.1.reshape [(table.length : Int), cfg.numKvHeads, cfg.kHeadDim, n]
      = some (newKvs.1.withShape _ hk) := Tensor.reshape_natCast hk
  have hvalue : newKvs.2.reshape [(table.length : Int), cfg.numKvHeads, n, cfg.vHeadDim]
      = some (newKvs.2.withShape _ hv) := Tensor.reshape_natCast hv
  have hscatter : scatter slotId newKvs p s =
      (growTable (pyCeilDiv n cfg.pageSize).toNat table >>= fun _ =>
        (pyRange ((p : Int) / cfg.pageSize) (pyCeilDiv n cfg.pageSize)).forM
          (writePage table (newKvs.1.withShape _ hk) (newKvs.2.withShape _ hv) p n)) s := by
    rw [scatter, bind_get]
    simp only [ht, hn, hkey, hvalue]
    rw [if_neg (by omega)]
  have hpages : (pyCeilDiv n cfg.pageSize).toNat = (n + cfg.pageSize - 1) / cfg.pageSize := by
    rw [pyCeilDiv_natCast cfg.pageSize_pos, Int.toNat_natCast]
  have hnd : table.Nodup :=
    (List.nodup_append.mp ((tableRows_perm ht).nodup_iff.mp hs.rowsDistinct.nodup)).1
  rw [hscatter]
  rcases growTable_cases (pyCeilDiv n cfg.pageSize).toNat table hs.rowsDistinct hnd
    (subset_tableRows ht) with ⟨hle, s₁, hgrow⟩ | ⟨hlt, s₁, hgrow⟩
  · left
    have hkeyShape : (newKvs.1.withShape _ hk).shape = _ := rfl
    have hvalueShape : (newKvs.2.withShape _ hv).shape = _ := rfl
    obtain ⟨-, -, -, -, s₂, hwrite, -⟩ :=
      writePages_of_grown hs ht hkeyShape hvalueShape hpn hne hgrow
    exact ⟨hpages ▸ hle, s₂, (bind_of_ok hgrow).trans hwrite⟩
  · exact Or.inr ⟨hpages ▸ hlt, s₁, bind_of_error hgrow⟩

end Drift.PagedKVPool
