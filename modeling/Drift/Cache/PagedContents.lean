/-
  What the rows of a `PagedKVPool` hold, token by token.

  Token `t` of a row stands in its page number `t / page_size`, at offset `t % page_size`
  (`keyAt`, `valueAt`).  Two facts carry the refinement of the contiguous cache:

  * `reorderRows_sameRow` — every row of a reordered table holds what the row of its id held;
  * `scatter_tokens`      — after a scatter the tokens from the prefix on are the new ones, and
                            the tokens before it are as they were.
-/
import Drift.Cache.Isolation

namespace Drift.PagedKVPool

variable {α : Type} {cfg : PoolConfig}

/-! ## Tokens of a row -/

/-- The page that token `t` of a row stands in. -/
def tokenPage (s : PagedKVPool α cfg) (row t : Nat) : Nat :=
  (s.rowPages row).getD (t / cfg.pageSize) 0

/-! ## The pages of a table -/

/-- Page `lp` of every row of a table. -/
def pagesAt (s : PagedKVPool α cfg) (table : List Nat) (lp : Nat) : List Nat :=
  table.map fun row => (s.rowPages row).getD lp 0

/-- If every row is long enough, each has a page with the number. -/
theorem mapM_pagesAt {s : PagedKVPool α cfg} {lp : Nat} : ∀ {table : List Nat},
    (∀ r ∈ table, lp < (s.rowPages r).length) →
    table.mapM (fun row => pyIndex (s.rowPages row) lp) = some (s.pagesAt table lp)
  | [], _ => rfl
  | row :: table, h => by
    have hrow := h row List.mem_cons_self
    rw [List.mapM_cons, mapM_pagesAt fun r hr => h r (List.mem_cons_of_mem _ hr),
      pyIndex_natCast, List.getElem?_eq_getElem hrow]
    simp [pagesAt, List.getElem?_eq_getElem hrow]

/-- Among the pages `lp` of a table, page `k` of its row `i` is number `i` if `k` is `lp`, and
    none otherwise. -/
theorem lastIdxOf_pagesAt {s : PagedKVPool α cfg} {table : List Nat} {lp : Nat}
    (hnd : (table.flatMap s.rowPages).Nodup) (hlp : ∀ r ∈ table, lp < (s.rowPages r).length)
    {i k : Nat} (hi : i < table.length) (hk : k < (s.rowPages table[i]).length) :
    Tensor.lastIdxOf ((s.rowPages table[i]).getD k 0) (s.pagesAt table lp) =
      if k = lp then some i else none := by
  have hlen : (s.pagesAt table lp).length = table.length := by simp [pagesAt]
  have hget : ∀ j (hj : j < table.length) (hj' : j < (s.pagesAt table lp).length)
      (hrow : lp < (s.rowPages table[j]).length),
      (s.pagesAt table lp)[j] = (s.rowPages table[j])[lp] := by
    intro j hj hj' hrow
    simp [pagesAt, List.getElem?_eq_getElem hrow]
  have hrow : ∀ j (hj : j < table.length), lp < (s.rowPages table[j]).length :=
    fun j hj => hlp _ (List.getElem_mem hj)
  split
  · rename_i hklp
    subst hklp
    have hpages : (s.pagesAt table k).Nodup := by
      rw [List.nodup_iff_injective_get]
      rintro ⟨a, ha⟩ ⟨b, hb⟩ hab
      have ha' : a < table.length := hlen ▸ ha
      have hb' : b < table.length := hlen ▸ hb
      rw [List.get_eq_getElem, List.get_eq_getElem, hget a ha' ha (hrow a ha'),
        hget b hb' hb (hrow b hb')] at hab
      exact Fin.ext (getElem_inj_of_nodup_flatMap hnd ha' hb' _ _ hab).1
    rw [List.getD_eq_getElem _ _ hk, ← hget i hi (hlen ▸ hi) hk]
    exact Tensor.lastIdxOf_getElem _ hpages
  · rename_i hne
    refine Tensor.lastIdxOf_of_not_mem fun hmem => ?_
    obtain ⟨j, hj, hj'⟩ := List.mem_iff_getElem.mp hmem
    have hjt : j < table.length := hlen ▸ hj
    rw [hget j hjt hj (hrow j hjt), List.getD_eq_getElem _ _ hk] at hj'
    exact hne (getElem_inj_of_nodup_flatMap hnd hjt hi _ hk hj').2.symm

/-- The rows of a slot share no page. -/
theorem Sound.table_nodup {s : PagedKVPool α cfg} (hs : s.Sound) {slotId : Nat} {table : List Nat}
    (ht : s.blockTables.lookup slotId = some table) : (table.flatMap s.rowPages).Nodup := by
  have howned := (List.nodup_append.mp hs.isolated).2.1
  exact (List.nodup_append.mp ((ownedPages_perm ht).nodup_iff.mp howned)).1

/-- The pages of a slot are owned, -/
theorem table_owned {s : PagedKVPool α cfg} {slotId : Nat} {table : List Nat}
    (ht : s.blockTables.lookup slotId = some table) :
    table.flatMap s.rowPages ⊆ s.ownedPages := fun _ hp =>
  (ownedPages_perm ht).mem_iff.mpr (List.mem_append_left _ hp)

/-- and are pages of the pool. -/
theorem Sound.table_lt {s : PagedKVPool α cfg} (hs : s.Sound) {slotId : Nat} {table : List Nat}
    (ht : s.blockTables.lookup slotId = some table) :
    ∀ p ∈ table.flatMap s.rowPages, p < cfg.numPages := fun _ hp =>
  hs.lt_numPages (List.mem_append_right _ (table_owned ht hp))

theorem Sound.row_lt {s : PagedKVPool α cfg} (hs : s.Sound) {slotId row : Nat} {table : List Nat}
    (ht : s.blockTables.lookup slotId = some table) (hr : row ∈ table) :
    ∀ p ∈ s.rowPages row, p < cfg.numPages := fun p hp =>
  hs.table_lt ht p (List.mem_flatMap.mpr ⟨row, hr, hp⟩)

theorem rowPages_of_rows {s s' : PagedKVPool α cfg} (h : s'.rows = s.rows) (r : Nat) :
    s'.rowPages r = s.rowPages r := by
  simp only [rowPages, h]

variable [Zero α]

/-! ## What a row holds -/

/-- Element `d` of the key of token `t`, head `g`. -/
def keyAt (s : PagedKVPool α cfg) (row g d t : Nat) : α :=
  s.keyPool.get [s.tokenPage row t, g, d, t % cfg.pageSize]

/-- Element `d` of the value of token `t`, head `g`. -/
def valueAt (s : PagedKVPool α cfg) (row g d t : Nat) : α :=
  s.valuePool.get [s.tokenPage row t, g, t % cfg.pageSize, d]

/-- Row `row'` of `s'` has the pages of row `row` of `s`, as to content, and maybe more. -/
structure SameRow (s : PagedKVPool α cfg) (row : Nat) (s' : PagedKVPool α cfg) (row' : Nat) :
    Prop where
  length_le : (s.rowPages row).length ≤ (s'.rowPages row').length
  content : ∀ i, i < (s.rowPages row).length →
    SameContent s ((s.rowPages row).getD i 0) s' ((s'.rowPages row').getD i 0)

/-- The pages of a row are in the pool, and none of them is free. -/
structure Readable (s : PagedKVPool α cfg) (row : Nat) : Prop where
  lt_length : row < s.rows.length
  not_free : ∀ p ∈ s.rowPages row, p ∉ s.freePages
  lt_numPages : ∀ p ∈ s.rowPages row, p < cfg.numPages

theorem getD_mem {xs : List Nat} {i : Nat} (h : i < xs.length) : xs.getD i 0 ∈ xs := by
  rw [List.getD_eq_getElem _ _ h]
  exact List.getElem_mem h

/-- Rows with the same contents read the same keys. -/
theorem SameRow.keyAt {s s' : PagedKVPool α cfg} {row row' g d t : Nat}
    (h : SameRow s row s' row') (hlt : ∀ p ∈ s'.rowPages row', p < cfg.numPages)
    (hg : g < cfg.numKvHeads) (hd : d < cfg.kHeadDim)
    (ht : t < (s.rowPages row).length * cfg.pageSize) :
    s'.keyAt row' g d t = s.keyAt row g d t := by
  have hpage := Nat.div_lt_of_lt_mul (Nat.mul_comm _ _ ▸ ht)
  have hmem := getD_mem (Nat.lt_of_lt_of_le hpage h.length_le)
  exact (h.content _ hpage).key _ ⟨hlt _ hmem, hg, hd, Nat.mod_lt _ cfg.pageSize_pos, trivial⟩

/-- Rows with the same contents read the same values. -/
theorem SameRow.valueAt {s s' : PagedKVPool α cfg} {row row' g d t : Nat}
    (h : SameRow s row s' row') (hlt : ∀ p ∈ s'.rowPages row', p < cfg.numPages)
    (hg : g < cfg.numKvHeads) (hd : d < cfg.vHeadDim)
    (ht : t < (s.rowPages row).length * cfg.pageSize) :
    s'.valueAt row' g d t = s.valueAt row g d t := by
  have hpage := Nat.div_lt_of_lt_mul (Nat.mul_comm _ _ ▸ ht)
  have hmem := getD_mem (Nat.lt_of_lt_of_le hpage h.length_le)
  exact (h.content _ hpage).value _ ⟨hlt _ hmem, hg, Nat.mod_lt _ cfg.pageSize_pos, hd, trivial⟩

theorem SameRow.trans {a b c : PagedKVPool α cfg} {r r' r'' : Nat} (h : SameRow a r b r')
    (hlt : ∀ p ∈ b.rowPages r', p < cfg.numPages) (h' : SameRow b r' c r'') :
    SameRow a r c r'' where
  length_le := Nat.le_trans h.length_le h'.length_le
  content i hi := by
    have hi' := Nat.lt_of_lt_of_le hi h.length_le
    have hstep := h.content i hi
    have hstep' := h'.content i hi'
    have hp := hlt _ (getD_mem hi')
    exact ⟨fun ix hix => (hstep'.key ix hix).trans (hstep.key ix ⟨hp, hix.2⟩),
      fun ix hix => (hstep'.value ix hix).trans (hstep.value ix ⟨hp, hix.2⟩)⟩

/-- Growing a table leaves what its rows already hold. -/
theorem Grown.sameRow {touched : List Nat} {s s' : PagedKVPool α cfg} (h : Grown touched s s')
    (row : Nat) : SameRow s row s' row := by
  have hpre := h.extends_ row
  refine ⟨hpre.length_le, fun i hi => ?_⟩
  have hget : (s'.rowPages row).getD i 0 = (s.rowPages row).getD i 0 := by
    rw [List.getD_eq_getElem _ _ hi, List.getD_eq_getElem _ _ (Nat.lt_of_lt_of_le hi hpre.length_le)]
    exact (hpre.getElem hi).symm
  rw [hget]
  exact SameContent.of_eq h.keyPool h.valuePool _

/-! ## Rows through `reorder` -/

/-- Taking pages for some rows leaves the contents of every readable row. -/
theorem Took.sameRow {taken : List Nat} {fresh : List (List Nat)} {s s' : PagedKVPool α cfg}
    (h : Took taken fresh s s') {row : Nat} (hr : Readable s row) : SameRow s row s' row := by
  have hrow := h.rowPages hr.lt_length
  refine ⟨by rw [hrow], fun i hi => ?_⟩
  rw [hrow]
  exact h.content _ fun hmem => hr.not_free _ (getD_mem hi) (h.subset hmem)

theorem Took.freePages_subset {taken : List Nat} {fresh : List (List Nat)}
    {s s' : PagedKVPool α cfg} (h : Took taken fresh s s') : s'.freePages ⊆ s.freePages :=
  fun _ hp => h.freePages.mem_iff.mpr (List.mem_append_left _ hp)

theorem Took.readable {taken : List Nat} {fresh : List (List Nat)} {s s' : PagedKVPool α cfg}
    (h : Took taken fresh s s') {row : Nat} (hr : Readable s row) : Readable s' row := by
  have hrow := h.rowPages hr.lt_length
  refine ⟨?_, fun p hp hfree => ?_, fun p hp => hr.lt_numPages p (hrow ▸ hp)⟩
  · rw [h.rows, List.length_append]
    exact Nat.lt_add_right _ hr.lt_length
  · exact hr.not_free p (hrow ▸ hp) (h.freePages_subset hfree)

/-- The free list is sound: no repetition, and pages of the pool only. -/
structure FreeOk (s : PagedKVPool α cfg) : Prop where
  nodup : s.freePages.Nodup
  lt_numPages : ∀ p ∈ s.freePages, p < cfg.numPages

theorem Took.freeOk {taken : List Nat} {fresh : List (List Nat)} {s s' : PagedKVPool α cfg}
    (h : Took taken fresh s s') (hf : FreeOk s) : FreeOk s' :=
  ⟨(h.freePages.nodup_iff.mp hf.nodup).of_append_left,
    fun p hp => hf.lt_numPages p (h.freePages_subset hp)⟩

/-- The copy of a readable row is a readable row of the same content. -/
theorem Copied.sameRow {row : Nat} {copied : List Nat} {s s' : PagedKVPool α cfg}
    (h : Copied (s.rowPages row) copied [copied] s s') (hf : FreeOk s) (hr : Readable s row) :
    Readable s' s.rows.length ∧ SameRow s row s' s.rows.length := by
  have hnew : s'.rowPages s.rows.length = copied := by
    simp [rowPages, h.took.rows]
  have hnd := h.took.freePages.nodup_iff.mp hf.nodup
  refine ⟨⟨?_, fun p hp hfree => ?_, fun p hp => ?_⟩, ?_, fun i hi => ?_⟩
  · rw [h.took.rows, List.length_append]
    exact Nat.lt_succ_self _
  · exact (List.nodup_append.mp hnd).2.2 p hfree p (hnew ▸ hp) rfl
  · exact hf.lt_numPages p (h.took.subset (hnew ▸ hp))
  · rw [hnew, h.length_eq]
  · have hi' : i < copied.length := by rw [h.length_eq]; exact hi
    refine h.content hf.nodup (fun p hp => ⟨hr.not_free p hp, hr.lt_numPages p hp⟩) _ _ ?_
    rw [hnew, List.getD_eq_getElem _ _ hi, List.getD_eq_getElem _ _ hi']
    exact List.mem_iff_getElem.mpr ⟨i, by rw [List.length_zip]; omega, by simp⟩

/-- **Rows of a reordered table**: each holds what the row of its id held. -/
theorem reorderRows_sameRow {table : List Nat} : ∀ {hypoIds claimed : List Int}
    {s s' : PagedKVPool α cfg} {result : List Nat} {claimed' : List Int},
    FreeOk s → (∀ r ∈ table, Readable s r) →
    reorderRows table hypoIds claimed s = .ok (result, claimed') s' →
    List.Forall₂ (fun id row' => ∃ row, pyIndex table id = some row ∧ Readable s' row' ∧
      SameRow s row s' row') hypoIds result
  | [], _, _, _, _, _, _, _, h => by
    obtain ⟨hr, -⟩ := EStateM.Result.ok.inj h
    obtain ⟨rfl, -⟩ := Prod.mk.inj hr
    exact .nil
  | src :: hypoIds, claimed, s, s', result, claimed', hf, htab, h => by
    rw [reorderRows] at h
    obtain ⟨⟨row₁, claimed₁⟩, s₁, htake, h⟩ := bind_eq_ok.mp h
    obtain ⟨⟨rest, claimed₂⟩, s₂, hrest, h⟩ := bind_eq_ok.mp h
    obtain ⟨hr, rfl⟩ := EStateM.Result.ok.inj h
    obtain ⟨rfl, rfl⟩ := Prod.mk.inj hr
    -- the head: what the turn made of the row, and that the rest of the loop keeps it
    have hhead : ∃ taken fresh row, Took taken fresh s s₁ ∧ pyIndex table src = some row ∧
        Readable s₁ row₁ ∧ SameRow s row s₁ row₁ := by
      rcases takeRow_cases table claimed src s with
        ⟨_, ht⟩ | ⟨row, hrow, ⟨_, ht⟩ | ⟨_, _, copied, s₁', hc, ht⟩ | ⟨_, _, _, _, _, _, ht⟩⟩
      · rw [ht] at htake
        cases htake
      · rw [ht] at htake
        obtain ⟨hr, rfl⟩ := EStateM.Result.ok.inj htake
        obtain ⟨rfl, rfl⟩ := Prod.mk.inj hr
        have hread := htab row (mem_of_pyIndex hrow)
        exact ⟨_, _, row, Took.refl s, hrow, hread, (Took.refl s).sameRow hread⟩
      · rw [ht] at htake
        obtain ⟨hr, rfl⟩ := EStateM.Result.ok.inj htake
        obtain ⟨rfl, rfl⟩ := Prod.mk.inj hr
        have hsame := hc.sameRow hf (htab row (mem_of_pyIndex hrow))
        exact ⟨_, _, row, hc.took, hrow, hsame.1, hsame.2⟩
      · rw [ht] at htake
        cases htake
    obtain ⟨_, _, row, htook, hrow, hread₁, hsame₁⟩ := hhead
    obtain ⟨_, _, htook'⟩ := reorderRows_took table hypoIds claimed₁ s₁
    rw [hrest] at htook'
    refine .cons ⟨row, hrow, htook'.readable hread₁,
      hsame₁.trans hread₁.lt_numPages (htook'.sameRow hread₁)⟩ ?_
    have hrec := reorderRows_sameRow (htook.freeOk hf) (fun r hr => htook.readable (htab r hr)) hrest
    refine hrec.imp fun id row' => ?_
    rintro ⟨row, hrow, hread, hsame⟩
    have hread₀ := htab row (mem_of_pyIndex hrow)
    exact ⟨row, hrow, hread, (htook.sameRow hread₀).trans (htook.readable hread₀).lt_numPages hsame⟩

/-! ## Tokens through `scatter` -/

/-- The keys are written to one range of positions of the listed pages and nowhere else; of a page
    listed twice the last entry stays. -/
theorem assignKeys_spec {pages : List Nat} {lo hi : Nat} {keys : Tensor α}
    {s : PagedKVPool α cfg} (hlo : lo ≤ hi) (hhi : hi ≤ cfg.pageSize)
    (hkeys : keys.shape = [pages.length, cfg.numKvHeads, cfg.kHeadDim, hi - lo]) :
    ∃ s', assignKeys pages lo hi keys s = .ok () s' ∧ s'.rows = s.rows ∧
      s'.valuePool = s.valuePool ∧ ∀ page g d o, page < cfg.numPages → g < cfg.numKvHeads →
        d < cfg.kHeadDim → o < cfg.pageSize → s'.keyPool.get [page, g, d, o] =
          match Tensor.lastIdxOf page pages with
          | some i => if lo ≤ o ∧ o < hi then keys.get [i, g, d, o - lo]
              else s.keyPool.get [page, g, d, o]
          | none => s.keyPool.get [page, g, d, o] := by
  obtain ⟨keyPool, hassign, -, hget⟩ := Tensor.assignRows_spec keys s.keyPool pages 2
    hlo (by rw [s.keyPool_shape]; exact hhi) (by rw [s.keyPool_shape]; exact hkeys)
  rw [assignKeys]
  split
  · rename_i h
    rw [hassign] at h
    cases h
  · rename_i keyPool' h
    obtain rfl : keyPool = keyPool' := Option.some.inj (hassign.symm.trans h)
    refine ⟨_, rfl, rfl, rfl, fun page g d o hpage hg hd ho => ?_⟩
    exact hget page [g, d, o] (by rw [s.keyPool_shape]; exact ⟨hpage, hg, hd, ho, trivial⟩)

/-- The values are written to one range of positions of the listed pages and nowhere else; of a page
    listed twice the last entry stays. -/
theorem assignValues_spec {pages : List Nat} {lo hi : Nat} {values : Tensor α}
    {s : PagedKVPool α cfg} (hlo : lo ≤ hi) (hhi : hi ≤ cfg.pageSize)
    (hvalues : values.shape = [pages.length, cfg.numKvHeads, hi - lo, cfg.vHeadDim]) :
    ∃ s', assignValues pages lo hi values s = .ok () s' ∧ s'.rows = s.rows ∧
      s'.keyPool = s.keyPool ∧ ∀ page g o d, page < cfg.numPages → g < cfg.numKvHeads →
        o < cfg.pageSize → d < cfg.vHeadDim → s'.valuePool.get [page, g, o, d] =
          match Tensor.lastIdxOf page pages with
          | some i => if lo ≤ o ∧ o < hi then values.get [i, g, o - lo, d]
              else s.valuePool.get [page, g, o, d]
          | none => s.valuePool.get [page, g, o, d] := by
  obtain ⟨valuePool, hassign, -, hget⟩ := Tensor.assignRows_spec values s.valuePool pages
    1 hlo (by rw [s.valuePool_shape]; exact hhi) (by rw [s.valuePool_shape]; exact hvalues)
  rw [assignValues]
  split
  · rename_i h
    rw [hassign] at h
    cases h
  · rename_i valuePool' h
    obtain rfl : valuePool = valuePool' := Option.some.inj (hassign.symm.trans h)
    refine ⟨_, rfl, rfl, rfl, fun page g o d hpage hg ho hd => ?_⟩
    exact hget page [g, o, d] (by rw [s.valuePool_shape]; exact ⟨hpage, hg, ho, hd, trivial⟩)

/-- From `s` to `s'` the tokens in `written` became those of the new keys and values, in every row
    of the table, and the other tokens of these rows stayed. -/
structure TokensWritten (table : List Nat) (newKey newValue : Tensor α) (written : Nat → Prop)
    (s s' : PagedKVPool α cfg) : Prop where
  rows : s'.rows = s.rows
  key : ∀ i (hi : i < table.length) t g d, t / cfg.pageSize < (s.rowPages table[i]).length →
    g < cfg.numKvHeads → d < cfg.kHeadDim →
      (written t → s'.keyAt table[i] g d t = newKey.get [i, g, d, t]) ∧
      (¬ written t → s'.keyAt table[i] g d t = s.keyAt table[i] g d t)
  value : ∀ i (hi : i < table.length) t g d, t / cfg.pageSize < (s.rowPages table[i]).length →
    g < cfg.numKvHeads → d < cfg.vHeadDim →
      (written t → s'.valueAt table[i] g d t = newValue.get [i, g, t, d]) ∧
      (¬ written t → s'.valueAt table[i] g d t = s.valueAt table[i] g d t)

/-- Offset `o` of page `lp` is token `t`: what the bounds of a page write say about tokens. -/
theorem token_bounds {t lp p n ps : Nat} (hps : 0 < ps) (hlp : t / ps = lp) :
    (max p (lp * ps) - lp * ps ≤ t % ps ∧ t % ps < min n ((lp + 1) * ps) - lp * ps) ↔
      p ≤ t ∧ t < n := by
  have hdiv := Nat.div_add_mod' t ps
  have hmod := Nat.mod_lt t hps
  rw [hlp] at hdiv
  rw [Nat.succ_mul]
  generalize lp * ps = a at hdiv ⊢
  omega

/-- First token of page `lp` that is written. -/
def tokStart (cfg : PoolConfig) (p lp : Nat) : Nat := max p (lp * cfg.pageSize)

/-- End of the tokens of page `lp` that are written. -/
def tokEnd (cfg : PoolConfig) (n lp : Nat) : Nat := min n ((lp + 1) * cfg.pageSize)

/-- The body of the loop for a page that exists, its integers read as natural numbers. -/
theorem writePage_natCast {table : List Nat} {newKey newValue : Tensor α} {p n lp : Nat}
    {s : PagedKVPool α cfg} (hne : table ≠ []) (hrows : ∀ r ∈ table, lp < (s.rowPages r).length)
    (hlast : lp * cfg.pageSize ≤ n) :
    writePage table newKey newValue p n lp s =
      (assignKeys (s.pagesAt table lp) ((tokStart cfg p lp - lp * cfg.pageSize : Nat) : Int)
          ((tokEnd cfg n lp - lp * cfg.pageSize : Nat) : Int)
          (newKey.slice 3 (tokStart cfg p lp) (tokEnd cfg n lp)) >>= fun _ =>
        assignValues (s.pagesAt table lp) ((tokStart cfg p lp - lp * cfg.pageSize : Nat) : Int)
          ((tokEnd cfg n lp - lp * cfg.pageSize : Nat) : Int)
          (newValue.slice 2 (tokStart cfg p lp) (tokEnd cfg n lp))) s := by
  have hmul : (lp : Int) * cfg.pageSize = ((lp * cfg.pageSize : Nat) : Int) :=
    (Int.natCast_mul _ _).symm
  have hmul' : ((lp : Int) + 1) * cfg.pageSize = (((lp + 1) * cfg.pageSize : Nat) : Int) :=
    (Int.natCast_mul _ _).symm
  have hsucc : (lp + 1) * cfg.pageSize = lp * cfg.pageSize + cfg.pageSize := Nat.succ_mul _ _
  obtain ⟨a, ha⟩ : ∃ a, a = tokStart cfg p lp := ⟨_, rfl⟩
  obtain ⟨b, hb⟩ : ∃ b, b = tokEnd cfg n lp := ⟨_, rfl⟩
  rw [← ha, ← hb]
  rw [tokStart] at ha
  rw [tokEnd] at hb
  have haI : max (p : Int) ((lp * cfg.pageSize : Nat) : Int) = (a : Int) := by omega
  have hbI : min (n : Int) (((lp + 1) * cfg.pageSize : Nat) : Int) = (b : Int) := by omega
  have haO : (a : Int) - ((lp * cfg.pageSize : Nat) : Int)
      = ((a - lp * cfg.pageSize : Nat) : Int) := by omega
  have hbO : (b : Int) - ((lp * cfg.pageSize : Nat) : Int)
      = ((b - lp * cfg.pageSize : Nat) : Int) := by omega
  obtain ⟨page, pages, hcons⟩ : ∃ page pages, s.pagesAt table lp = page :: pages :=
    List.exists_cons_of_ne_nil fun hnil => hne (List.map_eq_nil_iff.mp hnil)
  rw [writePage, bind_get]
  simp only [hmul, hmul', haI, hbI, haO, hbO, mapM_pagesAt hrows]
  rw [hcons]

/-- **One page**: its tokens from the prefix on are written. -/
theorem writePage_spec {table : List Nat} {newKey newValue : Tensor α} {p n lp : Nat}
    {s : PagedKVPool α cfg} (hnd : (table.flatMap s.rowPages).Nodup)
    (hpages : ∀ q ∈ table.flatMap s.rowPages, q < cfg.numPages) (hne : table ≠ [])
    (hrows : ∀ r ∈ table, lp < (s.rowPages r).length)
    (hkey : newKey.shape = [table.length, cfg.numKvHeads, cfg.kHeadDim, n])
    (hvalue : newValue.shape = [table.length, cfg.numKvHeads, n, cfg.vHeadDim])
    (hpn : p ≤ n) (hfirst : p / cfg.pageSize ≤ lp) (hlast : lp * cfg.pageSize < n) :
    ∃ s', writePage table newKey newValue p n lp s = .ok () s' ∧
      TokensWritten table newKey newValue
        (fun t => t / cfg.pageSize = lp ∧ p ≤ t ∧ t < n) s s' := by
  have hps := cfg.pageSize_pos
  rw [writePage_natCast hne hrows (Nat.le_of_lt hlast)]
  have hp : p < (lp + 1) * cfg.pageSize := Nat.lt_mul_of_div_lt (Nat.lt_succ_of_le hfirst) hps
  have hsucc : (lp + 1) * cfg.pageSize = lp * cfg.pageSize + cfg.pageSize := Nat.succ_mul _ _
  obtain ⟨a, ha⟩ : ∃ a, a = tokStart cfg p lp := ⟨_, rfl⟩
  obtain ⟨b, hb⟩ : ∃ b, b = tokEnd cfg n lp := ⟨_, rfl⟩
  rw [← ha, ← hb]
  rw [tokStart] at ha
  rw [tokEnd] at hb
  have hab : a ≤ b := by omega
  have hbn : b ≤ n := by omega
  have hla : lp * cfg.pageSize ≤ a := by omega
  have hsize : b - lp * cfg.pageSize - (a - lp * cfg.pageSize) = b - a := by omega
  have hlen : (s.pagesAt table lp).length = table.length := by simp [pagesAt]
  have hkeyEnd : b ≤ newKey.shape.getD 3 0 := by rw [hkey]; exact hbn
  have hvalueEnd : b ≤ newValue.shape.getD 2 0 := by rw [hvalue]; exact hbn
  have hkeySlice : (newKey.slice 3 a b).shape = [(s.pagesAt table lp).length, cfg.numKvHeads,
      cfg.kHeadDim, b - lp * cfg.pageSize - (a - lp * cfg.pageSize)] := by
    rw [Tensor.shape_slice_of_le hab hkeyEnd, hkey, hlen, hsize]
    rfl
  have hvalueSlice : (newValue.slice 2 a b).shape = [(s.pagesAt table lp).length,
      cfg.numKvHeads, b - lp * cfg.pageSize - (a - lp * cfg.pageSize), cfg.vHeadDim] := by
    rw [Tensor.shape_slice_of_le hab hvalueEnd, hvalue, hlen, hsize]
    rfl
  obtain ⟨s₁, hok₁, hrows₁, hvalue₁, hget₁⟩ := assignKeys_spec (s := s)
    (Nat.sub_le_sub_right hab _) (by omega) hkeySlice
  obtain ⟨s₂, hok₂, hrows₂, hkey₂, hget₂⟩ := assignValues_spec (s := s₁)
    (Nat.sub_le_sub_right hab _) (by omega) hvalueSlice
  have hsame : ∀ r, s₂.rowPages r = s.rowPages r := rowPages_of_rows (hrows₂.trans hrows₁)
  have hpageLt : ∀ i (hi : i < table.length) t, t / cfg.pageSize < (s.rowPages table[i]).length →
      s.tokenPage table[i] t < cfg.numPages := fun i hi t ht =>
    hpages _ (List.mem_flatMap.mpr ⟨_, List.getElem_mem hi, getD_mem ht⟩)
  -- offsets inside page `lp` are tokens
  have hbounds : ∀ t, t / cfg.pageSize = lp →
      (a - lp * cfg.pageSize ≤ t % cfg.pageSize ∧ t % cfg.pageSize < b - lp * cfg.pageSize ↔
        p ≤ t ∧ t < n) := fun t ht => by rw [ha, hb]; exact token_bounds hps ht
  have htoken : ∀ t, t / cfg.pageSize = lp → p ≤ t →
      t % cfg.pageSize - (a - lp * cfg.pageSize) + a = t := by
    intro t ht hpt
    have hdiv := Nat.div_add_mod' t cfg.pageSize
    rw [ht] at hdiv
    omega
  refine ⟨s₂, (bind_of_ok hok₁).trans hok₂, hrows₂.trans hrows₁, ?_, ?_⟩
  · intro i hi t g d ht hg hd
    have hget := hget₁ _ g d _ (hpageLt i hi t ht) hg hd (Nat.mod_lt t hps)
    rw [tokenPage, lastIdxOf_pagesAt hnd hrows hi ht] at hget
    have hread : s₂.keyAt table[i] g d t = s₁.keyPool.get
        [(s.rowPages table[i]).getD (t / cfg.pageSize) 0, g, d, t % cfg.pageSize] := by
      rw [keyAt, tokenPage, hsame, hkey₂]
    rw [hread, hget]
    by_cases hlp : t / cfg.pageSize = lp
    · rw [if_pos hlp]
      refine ⟨fun hw => ?_, fun hw => if_neg fun h => hw ⟨hlp, (hbounds t hlp).mp h⟩⟩
      have hofs := (hbounds t hlp).mpr hw.2
      have hslice := Tensor.get_slice [i, g, d, t % cfg.pageSize - (a - lp * cfg.pageSize)] hab
        hkeyEnd (by rw [hkey]; exact ⟨hi, hg, hd, by omega, trivial⟩)
      refine (if_pos hofs).trans (hslice.trans ?_)
      simp [htoken t hlp hw.2.1]
    · rw [if_neg hlp]
      exact ⟨fun h => absurd h.1 hlp, fun _ => rfl⟩
  · intro i hi t g d ht hg hd
    have hget := hget₂ _ g _ d (hpageLt i hi t ht) hg (Nat.mod_lt t hps) hd
    rw [tokenPage, lastIdxOf_pagesAt hnd hrows hi ht] at hget
    have hread : s₂.valueAt table[i] g d t = s₂.valuePool.get
        [(s.rowPages table[i]).getD (t / cfg.pageSize) 0, g, t % cfg.pageSize, d] := by
      rw [valueAt, tokenPage, hsame]
    rw [hread, hget, hvalue₁]
    by_cases hlp : t / cfg.pageSize = lp
    · rw [if_pos hlp]
      refine ⟨fun hw => ?_, fun hw => if_neg fun h => hw ⟨hlp, (hbounds t hlp).mp h⟩⟩
      have hofs := (hbounds t hlp).mpr hw.2
      have hslice := Tensor.get_slice [i, g, t % cfg.pageSize - (a - lp * cfg.pageSize), d] hab
        hvalueEnd (by rw [hvalue]; exact ⟨hi, hg, by omega, hd, trivial⟩)
      refine (if_pos hofs).trans (hslice.trans ?_)
      simp [htoken t hlp hw.2.1]
    · rw [if_neg hlp]
      exact ⟨fun h => absurd h.1 hlp, fun _ => rfl⟩

/-- Tokens written in two turns are those of either turn. -/
theorem TokensWritten.trans {table : List Nat} {newKey newValue : Tensor α}
    {w w' : Nat → Prop} {a b c : PagedKVPool α cfg} (h : TokensWritten table newKey newValue w a b)
    (h' : TokensWritten table newKey newValue w' b c) :
    TokensWritten table newKey newValue (fun t => w t ∨ w' t) a c where
  rows := h'.rows.trans h.rows
  key i hi t g d ht hg hd := by
    have hstep := h.key i hi t g d ht hg hd
    have hstep' := h'.key i hi t g d (by rwa [rowPages_of_rows h.rows]) hg hd
    by_cases hw' : w' t
    · exact ⟨fun _ => hstep'.1 hw', fun hn => absurd (Or.inr hw') hn⟩
    · exact ⟨fun hw => (hstep'.2 hw').trans (hstep.1 (hw.resolve_right hw')),
        fun hn => (hstep'.2 hw').trans (hstep.2 fun hw => hn (Or.inl hw))⟩
  value i hi t g d ht hg hd := by
    have hstep := h.value i hi t g d ht hg hd
    have hstep' := h'.value i hi t g d (by rwa [rowPages_of_rows h.rows]) hg hd
    by_cases hw' : w' t
    · exact ⟨fun _ => hstep'.1 hw', fun hn => absurd (Or.inr hw') hn⟩
    · exact ⟨fun hw => (hstep'.2 hw').trans (hstep.1 (hw.resolve_right hw')),
        fun hn => (hstep'.2 hw').trans (hstep.2 fun hw => hn (Or.inl hw))⟩

theorem TokensWritten.congr {table : List Nat} {newKey newValue : Tensor α} {w w' : Nat → Prop}
    {s s' : PagedKVPool α cfg} (h : TokensWritten table newKey newValue w s s')
    (hw : ∀ t, w t ↔ w' t) : TokensWritten table newKey newValue w' s s' := by
  obtain rfl : w = w' := funext fun t => propext (hw t)
  exact h

/-- **The loop over the pages**: the tokens of its pages from the prefix on are written. -/
theorem writePages_spec {table : List Nat} {newKey newValue : Tensor α} {p n : Nat}
    (hne : table ≠ [])
    (hkey : newKey.shape = [table.length, cfg.numKvHeads, cfg.kHeadDim, n])
    (hvalue : newValue.shape = [table.length, cfg.numKvHeads, n, cfg.vHeadDim]) (hpn : p ≤ n) :
    ∀ (lps : List Nat) (s : PagedKVPool α cfg), (table.flatMap s.rowPages).Nodup →
      (∀ q ∈ table.flatMap s.rowPages, q < cfg.numPages) →
      (∀ lp ∈ lps, ∀ r ∈ table, lp < (s.rowPages r).length) →
      (∀ lp ∈ lps, p / cfg.pageSize ≤ lp ∧ lp * cfg.pageSize < n) →
      ∃ s', (lps.map Nat.cast).forM (writePage table newKey newValue p n) s = .ok () s' ∧
        TokensWritten table newKey newValue
          (fun t => t / cfg.pageSize ∈ lps ∧ p ≤ t ∧ t < n) s s'
  | [], s, _, _, _, _ => by
    refine ⟨s, rfl, rfl, ?_, ?_⟩ <;> intro i hi t g d ht hg hd
    · exact ⟨fun hw => absurd hw.1 List.not_mem_nil, fun _ => rfl⟩
    · exact ⟨fun hw => absurd hw.1 List.not_mem_nil, fun _ => rfl⟩
  | lp :: lps, s, hnd, hpages, hrows, hlps => by
    obtain ⟨hfirst, hlast⟩ := hlps lp List.mem_cons_self
    obtain ⟨s₁, hok₁, h₁⟩ := writePage_spec hnd hpages hne (hrows lp List.mem_cons_self) hkey hvalue
      hpn hfirst hlast
    have hsame := rowPages_of_rows h₁.rows
    have hflat : table.flatMap s₁.rowPages = table.flatMap s.rowPages :=
      List.flatMap_congr fun r _ => hsame r
    obtain ⟨s₂, hok₂, h₂⟩ := writePages_spec hne hkey hvalue hpn lps s₁ (hflat ▸ hnd)
      (hflat ▸ hpages)
      (fun k hk r hr => by rw [hsame]; exact hrows k (List.mem_cons_of_mem _ hk) r hr)
      (fun k hk => hlps k (List.mem_cons_of_mem _ hk))
    refine ⟨s₂, (bind_of_ok hok₁).trans hok₂, (h₁.trans h₂).congr fun t => ?_⟩
    rw [List.mem_cons]
    tauto

/-- The pages `scatter` goes through. -/
theorem pyRange_natCast (first stop : Nat) :
    pyRange first stop = (List.range' first (stop - first)).map Nat.cast := by
  have hsub : ((stop : Int) - first).toNat = stop - first := by omega
  rw [pyRange, hsub, List.range'_eq_map_range, List.map_map]
  rfl

/-- Once the rows have grown, every page that `scatter` writes is there: the loop returns. -/
theorem writePages_of_grown {s s₁ : PagedKVPool α cfg} {slotId p n : Nat} {table : List Nat}
    {newKey newValue : Tensor α} (hs : s.Sound) (ht : s.blockTables.lookup slotId = some table)
    (hkey : newKey.shape = [table.length, cfg.numKvHeads, cfg.kHeadDim, n])
    (hvalue : newValue.shape = [table.length, cfg.numKvHeads, n, cfg.vHeadDim]) (hpn : p < n)
    (hne : table ≠ []) (hgrow : growTable (pyCeilDiv n cfg.pageSize).toNat table s = .ok () s₁) :
    s₁.Sound ∧ s₁.blockTables.lookup slotId = some table ∧ Grown table s s₁ ∧
    (∀ r ∈ table, (n + cfg.pageSize - 1) / cfg.pageSize ≤ (s₁.rowPages r).length) ∧
    ∃ s₂, (pyRange ((p : Int) / cfg.pageSize) (pyCeilDiv n cfg.pageSize)).forM
        (writePage table newKey newValue p n) s₁ = .ok () s₂ ∧
      TokensWritten table newKey newValue
        (fun t => t / cfg.pageSize ∈ List.range' (p / cfg.pageSize)
          ((n + cfg.pageSize - 1) / cfg.pageSize - p / cfg.pageSize) ∧ p ≤ t ∧ t < n) s₁ s₂ := by
  have hps := cfg.pageSize_pos
  have hgrown := growTable_grown table (pyCeilDiv n cfg.pageSize).toNat table s (fun _ h => h)
    hs.rowsDistinct (subset_tableRows ht)
  rw [hgrow, finalState_ok] at hgrown
  rw [pyCeilDiv_natCast hps] at hgrow
  have hlength := growTable_length hs.rowsDistinct (subset_tableRows ht) hgrow
  rw [Int.toNat_natCast] at hlength
  have hsound : s₁.Sound :=
    ⟨hgrown.rowsDistinct hs.rowsDistinct, hgrown.footprint.subperm.trans hs.subperm⟩
  have ht₁ : s₁.blockTables.lookup slotId = some table := by rw [hgrown.blockTables, ht]
  have hfirst : (p : Int) / cfg.pageSize = ((p / cfg.pageSize : Nat) : Int) := rfl
  rw [hfirst, pyCeilDiv_natCast hps, pyRange_natCast]
  refine ⟨hsound, ht₁, hgrown, hlength, ?_⟩
  generalize hN : (n + cfg.pageSize - 1) / cfg.pageSize = N at hlength ⊢
  refine writePages_spec hne hkey hvalue (Nat.le_of_lt hpn)
    (List.range' (p / cfg.pageSize) (N - p / cfg.pageSize)) s₁ (hsound.table_nodup ht₁)
    (hsound.table_lt ht₁) (fun lp hlp r hr => ?_) (fun lp hlp => ?_)
  · obtain ⟨hge, hlt⟩ := List.mem_range'_1.mp hlp
    have := hlength r hr
    omega
  · obtain ⟨hge, hlt⟩ := List.mem_range'_1.mp hlp
    have hlt' : lp < N := by omega
    exact ⟨hge, (lt_ceilDiv_iff hps n lp).mp (hN ▸ hlt')⟩

/-- The part of `scatter` that changes the pool. -/
theorem growThenWrite_tokens {s s' : PagedKVPool α cfg} {slotId p n : Nat} {table : List Nat}
    {newKey newValue : Tensor α} (hs : s.Sound) (ht : s.blockTables.lookup slotId = some table)
    (hkey : newKey.shape = [table.length, cfg.numKvHeads, cfg.kHeadDim, n])
    (hvalue : newValue.shape = [table.length, cfg.numKvHeads, n, cfg.vHeadDim]) (hpn : p < n)
    (hcov : ∀ r ∈ table, p ≤ (s.rowPages r).length * cfg.pageSize)
    (h : (growTable (pyCeilDiv n cfg.pageSize).toNat table >>= fun _ =>
      (pyRange ((p : Int) / cfg.pageSize) (pyCeilDiv n cfg.pageSize)).forM
        (writePage table newKey newValue p n)) s = .ok () s') {i : Nat} (hi : i < table.length) :
    n ≤ (s'.rowPages table[i]).length * cfg.pageSize ∧
      ∀ g t, g < cfg.numKvHeads → t < n →
        (∀ d, d < cfg.kHeadDim → s'.keyAt table[i] g d t =
          if p ≤ t then newKey.get [i, g, d, t] else s.keyAt table[i] g d t) ∧
        (∀ d, d < cfg.vHeadDim → s'.valueAt table[i] g d t =
          if p ≤ t then newValue.get [i, g, t, d] else s.valueAt table[i] g d t) := by
  have hps := cfg.pageSize_pos
  obtain ⟨_, s₁, hgrow, hwrite⟩ := bind_eq_ok.mp h
  have hne : table ≠ [] := List.ne_nil_of_length_pos (Nat.zero_lt_of_lt hi)
  obtain ⟨hsound, ht₁, hgrown, hlength, s₂, hok₂, hw⟩ :=
    writePages_of_grown hs ht hkey hvalue hpn hne hgrow
  obtain rfl : s' = s₂ := by
    rw [hok₂] at hwrite
    exact (EStateM.Result.ok.inj hwrite).2.symm
  have hcover : n ≤ (n + cfg.pageSize - 1) / cfg.pageSize * cfg.pageSize := le_ceilDiv_mul hps n
  generalize (n + cfg.pageSize - 1) / cfg.pageSize = N at hlength hw hcover
  have hrow : N ≤ (s₁.rowPages table[i]).length := hlength _ (List.getElem_mem hi)
  refine ⟨?_, fun g t hg htn => ?_⟩
  · rw [rowPages_of_rows hw.rows]
    exact Nat.le_trans hcover (Nat.mul_le_mul_right _ hrow)
  · have hpage : t / cfg.pageSize < (s₁.rowPages table[i]).length := by
      refine Nat.lt_of_lt_of_le (Nat.div_lt_of_lt_mul ?_) hrow
      rw [Nat.mul_comm]
      omega
    have hmem : p ≤ t → t / cfg.pageSize ∈ List.range' (p / cfg.pageSize) (N - p / cfg.pageSize) := by
      intro hpt
      have hge := Nat.div_le_div_right (c := cfg.pageSize) hpt
      have hlt : t / cfg.pageSize < N :=
        Nat.div_lt_of_lt_mul (by rw [Nat.mul_comm]; omega)
      exact List.mem_range'_1.mpr ⟨hge, by omega⟩
    -- tokens before the prefix: on pages the row had before it grew
    have hsame := hgrown.sameRow table[i]
    have hlt₁ := hsound.row_lt ht₁ (List.getElem_mem hi)
    have hold : ¬ p ≤ t → t < (s.rowPages table[i]).length * cfg.pageSize := fun hpt => by
      have := hcov _ (List.getElem_mem hi)
      omega
    refine ⟨fun d hd => ?_, fun d hd => ?_⟩
    · obtain ⟨hnew, hkept⟩ := hw.key i hi t g d hpage hg hd
      by_cases hpt : p ≤ t
      · rw [if_pos hpt]
        exact hnew ⟨hmem hpt, hpt, htn⟩
      · rw [if_neg hpt, hkept fun hw => hpt hw.2.1]
        exact hsame.keyAt hlt₁ hg hd (hold hpt)
    · obtain ⟨hnew, hkept⟩ := hw.value i hi t g d hpage hg hd
      by_cases hpt : p ≤ t
      · rw [if_pos hpt]
        exact hnew ⟨hmem hpt, hpt, htn⟩
      · rw [if_neg hpt, hkept fun hw => hpt hw.2.1]
        exact hsame.valueAt hlt₁ hg hd (hold hpt)

/-- Writing new tokens into a table without rows raises. -/
theorem growThenWrite_ne_nil {s s' : PagedKVPool α cfg} {p n m : Nat} {table : List Nat}
    {newKey newValue : Tensor α} (hpn : p < n)
    (h : (growTable m table >>= fun _ =>
      (pyRange ((p : Int) / cfg.pageSize) (pyCeilDiv n cfg.pageSize)).forM
        (writePage table newKey newValue p n)) s = .ok () s') : table ≠ [] := by
  rintro rfl
  have hps := cfg.pageSize_pos
  have hfirst : (p : Int) / cfg.pageSize = ((p / cfg.pageSize : Nat) : Int) := rfl
  have hlt : p / cfg.pageSize < (n + cfg.pageSize - 1) / cfg.pageSize := by
    rw [lt_ceilDiv_iff hps]
    exact Nat.lt_of_le_of_lt (Nat.div_mul_le_self p cfg.pageSize) hpn
  obtain ⟨k, hk⟩ : ∃ k, (n + cfg.pageSize - 1) / cfg.pageSize - p / cfg.pageSize = k + 1 :=
    ⟨_, (Nat.sub_add_cancel (Nat.sub_pos_of_lt hlt)).symm⟩
  rw [hfirst, pyCeilDiv_natCast hps, pyRange_natCast, hk, List.range'_succ, List.map_cons] at h
  nomatch h

/-- **`scatter`**: a call that returns and has new tokens leaves rows that cover the new length;
    the tokens from the prefix on are the new ones and those before it are as they were. -/
theorem scatter_tokens {s s' : PagedKVPool α cfg} {slotId p n : Nat} {table : List Nat}
    {newKvs : Tensor α × Tensor α} (hs : s.Sound)
    (ht : s.blockTables.lookup slotId = some table) (hn : newKvs.1.shape.getLast? = some n)
    (hpn : p < n) (hcov : ∀ r ∈ table, p ≤ (s.rowPages r).length * cfg.pageSize)
    (h : scatter slotId newKvs p s = .ok () s') :
    table ≠ [] ∧
    ∃ (hk : [table.length, cfg.numKvHeads, cfg.kHeadDim, n].prod = newKvs.1.shape.prod)
      (hv : [table.length, cfg.numKvHeads, n, cfg.vHeadDim].prod = newKvs.2.shape.prod),
      ∀ i (hi : i < table.length), n ≤ (s'.rowPages table[i]).length * cfg.pageSize ∧
        ∀ g t, g < cfg.numKvHeads → t < n →
          (∀ d, d < cfg.kHeadDim → s'.keyAt table[i] g d t =
            if p ≤ t then (newKvs.1.withShape _ hk).get [i, g, d, t] else s.keyAt table[i] g d t) ∧
          (∀ d, d < cfg.vHeadDim → s'.valueAt table[i] g d t =
            if p ≤ t then (newKvs.2.withShape _ hv).get [i, g, t, d]
            else s.valueAt table[i] g d t) := by
  rw [scatter, bind_get] at h
  simp only [ht, hn] at h
  rw [if_neg (by omega)] at h
  cases hkey : newKvs.1.reshape [(table.length : Int), cfg.numKvHeads, cfg.kHeadDim, n] with
  | none =>
    rw [hkey] at h
    cases h
  | some newKey =>
    cases hvalue : newKvs.2.reshape [(table.length : Int), cfg.numKvHeads, n, cfg.vHeadDim] with
    | none =>
      rw [hkey, hvalue] at h
      cases h
    | some newValue =>
      rw [hkey, hvalue] at h
      obtain ⟨hk, rfl⟩ := Tensor.eq_withShape_of_reshape
        [table.length, cfg.numKvHeads, cfg.kHeadDim, n] hkey
      obtain ⟨hv, rfl⟩ := Tensor.eq_withShape_of_reshape
        [table.length, cfg.numKvHeads, n, cfg.vHeadDim] hvalue
      exact ⟨growThenWrite_ne_nil hpn h, hk, hv, fun i hi =>
        growThenWrite_tokens hs ht rfl rfl hpn hcov h hi⟩

end Drift.PagedKVPool
