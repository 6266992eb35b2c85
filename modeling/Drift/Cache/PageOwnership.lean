/-
  Who owns which page of a `PagedKVPool`.

  Every physical page should be in exactly one place: the free list, or one row of one block table.
  `footprint` lists all places one after another, so that the two properties of interest are

  * `Isolated`  — `footprint` has no repetition: no page is referenced by two rows, nor by a row
                  and the free list at once, nor twice in the free list;
  * `Conserved` — `footprint` is a permutation of all pages: none is lost either.

  Each operation is described by what it does to the places (`Grown`, `Wrote`, `Took`), once, and
  the two properties are read off these descriptions: `scatter` moves pages from the free list to
  rows of its own table (`Grown`), `reorder` draws copies from the free list (`Took`) and then puts
  the rows it did not use back.  Both are kept by every operation on row ids in range
  (`after_isolated`, `after_conserved`), with the two exceptions that the source has: a negative id
  makes `reorder` free a row that it also keeps, and running out of pages half way through its
  copies loses the pages already taken.
-/
import Drift.Cache.PagedKVPool
import Drift.Lib.ListPerm

namespace Drift.PagedKVPool

variable {α : Type} {cfg : PoolConfig}

/-! ## Places -/

/-- The row objects of all block tables. -/
def tableRows (s : PagedKVPool α cfg) : List Nat := s.blockTables.entries.flatMap (·.2)

/-- The pages that the rows of all block tables reference. -/
def ownedPages (s : PagedKVPool α cfg) : List Nat := s.tableRows.flatMap s.rowPages

/-- All places of the pool, one after another. -/
def footprint (s : PagedKVPool α cfg) : List Nat := s.freePages ++ s.ownedPages

/-- No page is in two places. -/
def Isolated (s : PagedKVPool α cfg) : Prop := s.footprint.Nodup

/-- Every page is in exactly one place. -/
def Conserved (s : PagedKVPool α cfg) : Prop := s.footprint.Perm (List.range cfg.numPages)

instance (s : PagedKVPool α cfg) : Decidable s.Isolated :=
  inferInstanceAs (Decidable s.footprint.Nodup)

instance (s : PagedKVPool α cfg) : Decidable s.Conserved :=
  inferInstanceAs (Decidable (s.footprint.Perm (List.range cfg.numPages)))

/-- Every block-table row is an object of its own. -/
structure RowsDistinct (s : PagedKVPool α cfg) : Prop where
  nodup : s.tableRows.Nodup
  lt_length : ∀ r ∈ s.tableRows, r < s.rows.length

/-- The invariant of every run whose reorders use no negative id. -/
structure Sound (s : PagedKVPool α cfg) : Prop where
  rowsDistinct : s.RowsDistinct
  subperm : s.footprint.Subperm (List.range cfg.numPages)

/-- The rows of the tables of all slots but one. -/
def otherRows (s : PagedKVPool α cfg) (slotId : Nat) : List Nat :=
  (s.blockTables.erase slotId).entries.flatMap (·.2)

/-- No page is in two rows, or both free and in a row. -/
theorem Sound.isolated {s : PagedKVPool α cfg} (h : s.Sound) : s.Isolated :=
  have ⟨_, hperm, hsub⟩ := h.subperm
  hperm.nodup (hsub.nodup List.nodup_range)

/-- The rows of the slots are those of one slot and the others. -/
theorem tableRows_perm {s : PagedKVPool α cfg} {slotId : Nat} {table : List Nat}
    (h : s.blockTables.lookup slotId = some table) :
    s.tableRows.Perm (table ++ s.otherRows slotId) := by
  have hperm := (entries_perm_erase h).flatMap_right fun entry => entry.2
  exact hperm

/-- The pages are split in the same way. -/
theorem ownedPages_perm {s : PagedKVPool α cfg} {slotId : Nat} {table : List Nat}
    (h : s.blockTables.lookup slotId = some table) :
    s.ownedPages.Perm (table.flatMap s.rowPages ++ (s.otherRows slotId).flatMap s.rowPages) := by
  rw [← List.flatMap_append]
  exact (tableRows_perm h).flatMap_right s.rowPages

theorem subset_tableRows {s : PagedKVPool α cfg} {slotId : Nat} {table : List Nat}
    (h : s.blockTables.lookup slotId = some table) : table ⊆ s.tableRows := by
  intro r hr
  exact (tableRows_perm h).mem_iff.mpr (List.mem_append_left _ hr)

/-! ## Growing rows -/

/-- From `s` to `s'` some rows among `touched` took pages from the free list. -/
structure Grown (touched : List Nat) (s s' : PagedKVPool α cfg) : Prop where
  keyPool : s'.keyPool = s.keyPool
  valuePool : s'.valuePool = s.valuePool
  blockTables : s'.blockTables = s.blockTables
  length : s'.rows.length = s.rows.length
  other : ∀ r, r ∉ touched → s'.rowPages r = s.rowPages r
  extends_ : ∀ r, s.rowPages r <+: s'.rowPages r
  footprint : s'.footprint.Perm s.footprint

theorem Grown.refl (touched : List Nat) (s : PagedKVPool α cfg) : Grown touched s s :=
  ⟨rfl, rfl, rfl, rfl, fun _ _ => rfl, fun _ => List.prefix_rfl, List.Perm.refl _⟩

/-- One growth after another. -/
theorem Grown.trans {touched : List Nat} {a b c : PagedKVPool α cfg} (h : Grown touched a b)
    (h' : Grown touched b c) : Grown touched a c :=
  ⟨h'.keyPool.trans h.keyPool, h'.valuePool.trans h.valuePool,
    h'.blockTables.trans h.blockTables, h'.length.trans h.length,
    fun r hr => (h'.other r hr).trans (h.other r hr),
    fun r => (h.extends_ r).trans (h'.extends_ r), h'.footprint.trans h.footprint⟩

/-- Slots keep their rows when they grow. -/
theorem Grown.tableRows {touched : List Nat} {s s' : PagedKVPool α cfg} (h : Grown touched s s') :
    s'.tableRows = s.tableRows := by
  simp only [PagedKVPool.tableRows, h.blockTables]

theorem Grown.rowsDistinct {touched : List Nat} {s s' : PagedKVPool α cfg}
    (h : Grown touched s s') (hs : s.RowsDistinct) : s'.RowsDistinct := by
  refine ⟨h.tableRows ▸ hs.nodup, fun r hr => ?_⟩
  rw [h.length]
  exact hs.lt_length r (h.tableRows ▸ hr)

/-- Either the pool is full, and nothing happens, or the last free page is taken. -/
theorem acquirePage_cases (s : PagedKVPool α cfg) :
    (s.freePages = [] ∧ acquirePage s = .error
      (.allocationFailed "Paged attention cache is full: no free pages left") s) ∨
    ∃ page, s.freePages = s.freePages.dropLast ++ [page] ∧
      acquirePage s = .ok page { s with freePages := s.freePages.dropLast } := by
  rcases List.eq_nil_or_concat s.freePages with h | ⟨rest, page, h⟩
  · exact Or.inl ⟨h, by simp [acquirePage, h]⟩
  · refine Or.inr ⟨page, ?_, ?_⟩
    · rw [h, List.concat_eq_append, List.dropLast_concat]
    · simp [acquirePage, h]

/-- The row that is given a page has it last, -/
theorem rowPages_modify (s : PagedKVPool α cfg) {row : Nat} (page : Nat) (hlt : row < s.rows.length) :
    (s.appendPage row page).rowPages row = s.rowPages row ++ [page] := by
  simp [rowPages, appendPage, List.getD_eq_getElem?_getD, hlt]

/-- and the other rows are as they were. -/
theorem rowPages_modify_ne (s : PagedKVPool α cfg) {row r : Nat} (page : Nat) (hne : r ≠ row) :
    (s.appendPage row page).rowPages r = s.rowPages r := by
  simp [rowPages, appendPage, List.getD_eq_getElem?_getD, List.getElem?_modify_ne, Ne.symm hne]

/-- One turn of the growing loop moves the last free page to the end of the row. -/
theorem appendPage_grown {s : PagedKVPool α cfg} {touched free : List Nat} {row page : Nat}
    (hs : s.RowsDistinct) (hrow : row ∈ s.tableRows) (ht : row ∈ touched)
    (hfree : s.freePages = free ++ [page]) :
    Grown touched s (appendPage row page { s with freePages := free }) := by
  have hlt := hs.lt_length row hrow
  have heq : (appendPage row page { s with freePages := free }).rowPages row
      = s.rowPages row ++ [page] :=
    rowPages_modify { s with freePages := free } page hlt
  have hne : ∀ r, r ≠ row →
      (appendPage row page { s with freePages := free }).rowPages r = s.rowPages r :=
    fun r h => rowPages_modify_ne { s with freePages := free } page h
  refine ⟨rfl, rfl, rfl, by simp [appendPage], fun r hr => ?_, fun r => ?_, ?_⟩
  · exact hne r (fun h => hr (h ▸ ht))
  · by_cases h : r = row
    · subst h
      rw [heq]
      exact List.prefix_append _ _
    · exact hne r h ▸ List.prefix_rfl
  · have howned := flatMap_perm_of_extend hs.nodup hrow (fun r _ h => hne r h) heq
    show (free ++ _).Perm _
    rw [footprint, hfree, List.append_assoc]
    refine List.Perm.append_left free (howned.trans ?_)
    exact List.perm_append_comm

/-- The loop over the pages of one row only takes free pages, also when it ends with an error. -/
theorem growRow_grown {touched : List Nat} {row : Nat} (ht : row ∈ touched) :
    ∀ (k : Nat) (s : PagedKVPool α cfg), s.RowsDistinct → row ∈ s.tableRows →
      Grown touched s (finalState (growRow row k s))
  | 0, s, _, _ => Grown.refl touched s
  | k + 1, s, hs, hrow => by
    rcases acquirePage_cases s with ⟨-, he⟩ | ⟨page, hfree, hok⟩
    · rw [growRow, bind_of_error he]
      exact Grown.refl touched s
    · rw [growRow, bind_of_ok hok, bind_modify]
      have hstep := appendPage_grown hs hrow ht hfree
      exact hstep.trans (growRow_grown ht k _ (hstep.rowsDistinct hs) (hstep.tableRows ▸ hrow))

/-- If it gets through, the row has as many pages more. -/
theorem growRow_length {row : Nat} : ∀ {k : Nat} {s s' : PagedKVPool α cfg},
    row < s.rows.length → growRow row k s = .ok () s' →
      (s'.rowPages row).length = (s.rowPages row).length + k
  | 0, s, s', _, h => by
    obtain ⟨-, rfl⟩ := EStateM.Result.ok.inj h
    rfl
  | k + 1, s, s', hlt, h => by
    rcases acquirePage_cases s with ⟨-, he⟩ | ⟨page, hfree, hok⟩
    · rw [growRow, bind_of_error he] at h
      nomatch h
    · rw [growRow, bind_of_ok hok, bind_modify] at h
      have hrec := growRow_length (by simpa [appendPage] using hlt) h
      have happ := rowPages_modify { s with freePages := s.freePages.dropLast } page hlt
      rw [hrec, happ, List.length_append, List.length_singleton]
      show (s.rowPages row).length + 1 + k = _
      omega

/-- The loop over the rows. -/
theorem growTable_grown (touched : List Nat) (n : Nat) :
    ∀ (table : List Nat) (s : PagedKVPool α cfg), table ⊆ touched → s.RowsDistinct →
      table ⊆ s.tableRows → Grown touched s (finalState (growTable n table s))
  | [], s, _, _, _ => Grown.refl touched s
  | row :: table, s, ht, hs, htab => by
    rw [growTable, bind_get]
    refine keeps_bind_at (R := Grown touched) (fun _ _ _ => Grown.trans)
      (growRow_grown (ht List.mem_cons_self) _ s hs (htab List.mem_cons_self)) fun _ s₁ h₁ => ?_
    refine growTable_grown touched n table s₁ ?_ (h₁.rowsDistinct hs) ?_
    · exact fun r hr => ht (List.mem_cons_of_mem _ hr)
    · exact fun r hr => h₁.tableRows ▸ htab (List.mem_cons_of_mem _ hr)

/-- When the growing returns, every row covers `n` pages. -/
theorem growTable_length {n : Nat} :
    ∀ {table : List Nat} {s s' : PagedKVPool α cfg}, s.RowsDistinct → table ⊆ s.tableRows →
      growTable n table s = .ok () s' → ∀ row ∈ table, n ≤ (s'.rowPages row).length
  | [], _, _, _, _, _, _, hr => absurd hr List.not_mem_nil
  | row :: table, s, s', hs, htab, h, r, hr => by
    rw [growTable, bind_get] at h
    obtain ⟨_, s₁, hg, hrest⟩ := bind_eq_ok.mp h
    have hmem := htab List.mem_cons_self
    have hstep := growRow_grown (List.mem_cons_self (l := table)) (n - (s.rowPages row).length) s hs
      hmem
    rw [hg] at hstep
    have htab' : table ⊆ s₁.tableRows := fun r hr =>
      hstep.tableRows ▸ htab (List.mem_cons_of_mem _ hr)
    rcases List.mem_cons.mp hr with rfl | hr
    · have hlen := growRow_length (hs.lt_length r hmem) hg
      have hgrown := growTable_grown table n table s₁ (fun _ h => h)
        (hstep.rowsDistinct hs) htab'
      rw [hrest] at hgrown
      have := (hgrown.extends_ r).length_le
      simp only [finalState_ok] at this
      omega
    · exact growTable_length (hstep.rowsDistinct hs) htab' hrest r hr

/-! ## Writing pages -/

/-- The pages with one logical number belong to the rows that were asked. -/
theorem pages_subset {s : PagedKVPool α cfg} {lp : Int} {table pages : List Nat}
    (h : table.mapM (fun row => pyIndex (s.rowPages row) lp) = some pages) :
    pages ⊆ table.flatMap s.rowPages := by
  intro p hp
  obtain ⟨row, hrow, hget⟩ := exists_mem_of_forall₂ (forall₂_of_mapM h) hp
  exact List.mem_flatMap.mpr ⟨row, hrow, mem_of_pyIndex hget⟩

/-- Page `p'` of `s'` holds what page `p` of `s` held. -/
structure SameContent (s : PagedKVPool α cfg) (p : Nat) (s' : PagedKVPool α cfg) (p' : Nat)
    [Zero α] : Prop where
  key : ∀ ix, InBounds [cfg.numPages, cfg.numKvHeads, cfg.kHeadDim, cfg.pageSize] (p' :: ix) →
    s'.keyPool.get (p' :: ix) = s.keyPool.get (p :: ix)
  value : ∀ ix, InBounds [cfg.numPages, cfg.numKvHeads, cfg.pageSize, cfg.vHeadDim] (p' :: ix) →
    s'.valuePool.get (p' :: ix) = s.valuePool.get (p :: ix)

variable [Zero α]

/-- A page has kept its content if nothing was written. -/
theorem SameContent.of_eq {s s' : PagedKVPool α cfg} (hk : s'.keyPool = s.keyPool)
    (hv : s'.valuePool = s.valuePool) (p : Nat) : SameContent s p s' p :=
  ⟨fun _ _ => by rw [hk], fun _ _ => by rw [hv]⟩

theorem SameContent.trans {a b c : PagedKVPool α cfg} {p q : Nat} (h : SameContent a p b q)
    (h' : SameContent b q c q) : SameContent a p c q :=
  ⟨fun ix hix => (h'.key ix hix).trans (h.key ix hix),
    fun ix hix => (h'.value ix hix).trans (h.value ix hix)⟩

theorem SameContent.trans_of_lt {a b c : PagedKVPool α cfg} {p q : Nat}
    (h : SameContent a p b p) (hp : p < cfg.numPages) (h' : SameContent b p c q) :
    SameContent a p c q :=
  ⟨fun ix hix => (h'.key ix hix).trans (h.key ix ⟨hp, hix.2⟩),
    fun ix hix => (h'.value ix hix).trans (h.value ix ⟨hp, hix.2⟩)⟩

/-- From `s` to `s'` only pages of the rows in `table` were written. -/
structure Wrote (table : List Nat) (s s' : PagedKVPool α cfg) : Prop where
  freePages : s'.freePages = s.freePages
  blockTables : s'.blockTables = s.blockTables
  rows : s'.rows = s.rows
  content : ∀ p, p ∉ table.flatMap s.rowPages → SameContent s p s' p

theorem Wrote.refl (table : List Nat) (s : PagedKVPool α cfg) : Wrote table s s :=
  ⟨rfl, rfl, rfl, fun p _ => SameContent.of_eq rfl rfl p⟩

/-- Writing moves no page. -/
theorem Wrote.rowPages {table : List Nat} {s s' : PagedKVPool α cfg} (h : Wrote table s s') :
    s'.rowPages = s.rowPages := by
  funext r
  simp only [PagedKVPool.rowPages, h.rows]

/-- One write after another. -/
theorem Wrote.trans {table : List Nat} {a b c : PagedKVPool α cfg} (h : Wrote table a b)
    (h' : Wrote table b c) : Wrote table a c :=
  ⟨h'.freePages.trans h.freePages, h'.blockTables.trans h.blockTables, h'.rows.trans h.rows,
    fun p hp => (h.content p hp).trans (h'.content p (h.rowPages ▸ hp))⟩

/-- Nor does it take or free one. -/
theorem Wrote.footprint {table : List Nat} {s s' : PagedKVPool α cfg} (h : Wrote table s s') :
    s'.footprint = s.footprint := by
  simp only [PagedKVPool.footprint, ownedPages, tableRows, h.freePages, h.blockTables, h.rowPages]

theorem Wrote.rowsDistinct {table : List Nat} {s s' : PagedKVPool α cfg} (h : Wrote table s s')
    (hs : s.RowsDistinct) : s'.RowsDistinct := by
  have ht : s'.tableRows = s.tableRows := by simp only [tableRows, h.blockTables]
  exact ⟨ht ▸ hs.nodup, fun r hr => by rw [h.rows]; exact hs.lt_length r (ht ▸ hr)⟩

/-- The keys are written to the pages of the slot only, -/
theorem assignKeys_wrote {table pages : List Nat} {offStart offEnd : Int} {keys : Tensor α}
    {s : PagedKVPool α cfg} (hpages : pages ⊆ table.flatMap s.rowPages) :
    Wrote table s (finalState (assignKeys pages offStart offEnd keys s)) := by
  rw [assignKeys]
  split
  · exact Wrote.refl table s
  · rename_i keyPool h
    refine ⟨rfl, rfl, rfl, fun p hp => ⟨fun ix hix => ?_, fun _ _ => rfl⟩⟩
    exact Tensor.get_assignRows_of_not_mem h (fun hmem => hp (hpages hmem))
      (by rw [s.keyPool_shape]; exact hix)

/-- and so are the values. -/
theorem assignValues_wrote {table pages : List Nat} {offStart offEnd : Int} {values : Tensor α}
    {s : PagedKVPool α cfg} (hpages : pages ⊆ table.flatMap s.rowPages) :
    Wrote table s (finalState (assignValues pages offStart offEnd values s)) := by
  rw [assignValues]
  split
  · exact Wrote.refl table s
  · rename_i valuePool h
    refine ⟨rfl, rfl, rfl, fun p hp => ⟨fun _ _ => rfl, fun ix hix => ?_⟩⟩
    exact Tensor.get_assignRows_of_not_mem h (fun hmem => hp (hpages hmem))
      (by rw [s.valuePool_shape]; exact hix)

/-- One pass of the loop writes to the pages with one logical number. -/
theorem writePage_wrote (table : List Nat) (newKey newValue : Tensor α) (pre len lp : Int) :
    Keeps (Wrote table) (writePage table newKey newValue pre len lp : PoolM α cfg Unit) := by
  intro s
  rw [writePage, bind_get]
  cases hpages : table.mapM fun row => pyIndex (s.rowPages row) lp with
  | none => exact Wrote.refl table s
  | some pages =>
    have hsub := pages_subset hpages
    cases pages with
    | nil => exact Wrote.refl table s
    | cons page pages =>
      refine keeps_bind_at (R := Wrote table) (fun _ _ _ => Wrote.trans)
        (assignKeys_wrote hsub) fun _ s₁ hs₁ => ?_
      exact assignValues_wrote (hs₁.rowPages ▸ hsub)

/-- The part of `scatter` that changes the pool. -/
theorem growThenWrite_frame {s : PagedKVPool α cfg} {table : List Nat} (hs : s.RowsDistinct)
    (htab : table ⊆ s.tableRows) (n : Nat) (lps : List Int) (newKey newValue : Tensor α)
    (pre len : Int) :
    ∃ s₁, Grown table s s₁ ∧ Wrote table s₁ (finalState ((growTable n table >>= fun _ =>
      lps.forM (writePage table newKey newValue pre len)) s)) := by
  have hgrown := growTable_grown table n table s (fun _ h => h) hs htab
  cases hg : growTable n table s with
  | error e s₁ =>
    rw [hg] at hgrown
    rw [bind_of_error hg]
    exact ⟨s₁, hgrown, Wrote.refl table s₁⟩
  | ok u s₁ =>
    rw [hg] at hgrown
    rw [bind_of_ok hg]
    refine ⟨s₁, hgrown, keeps_forM (Wrote.refl table) (fun _ _ _ => Wrote.trans) ?_ lps s₁⟩
    exact fun lp => writePage_wrote table newKey newValue pre len lp

/-- **What `scatter` does**: it grows the rows of its own slot and then writes pages of these. -/
theorem scatter_frame {s : PagedKVPool α cfg} {slotId : Nat} {table : List Nat}
    (hs : s.RowsDistinct) (ht : s.blockTables.lookup slotId = some table)
    (newKvs : Tensor α × Tensor α) (pre : Int) :
    ∃ s₁, Grown table s s₁ ∧ Wrote table s₁ (finalState (scatter slotId newKvs pre s)) := by
  have hstay : ∃ s₁, Grown table s s₁ ∧ Wrote table s₁ s :=
    ⟨s, Grown.refl table s, Wrote.refl table s⟩
  rw [scatter, bind_get]
  simp only [ht]
  cases newKvs.1.shape.getLast? with
  | none => exact hstay
  | some newLength =>
    by_cases hlen : (newLength : Int) ≤ pre
    · simp only [if_pos hlen]
      exact hstay
    · simp only [if_neg hlen]
      cases newKvs.1.reshape [(table.length : Int), cfg.numKvHeads, cfg.kHeadDim, newLength] with
      | none => exact hstay
      | some newKey =>
        cases newKvs.2.reshape [(table.length : Int), cfg.numKvHeads, newLength, cfg.vHeadDim] with
        | none => exact hstay
        | some newValue =>
          exact growThenWrite_frame hs (subset_tableRows ht) _ _ _ _ _ _

end Drift.PagedKVPool
