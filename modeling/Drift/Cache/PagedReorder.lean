/-
  What `PagedKVPool.reorder` does to the places and to the contents of pages.

  The loop of `reorder` only takes pages from the free list and makes new row objects; the block
  table of the slot is put in place at the very end.  `Took` says this of every prefix of the loop,
  so it also describes the pool that a raising `reorder` leaves behind.

  For non-negative ids the new table consists of the rows whose source was claimed and of the new
  rows (`reorderRows_ok`), and the rows that were not claimed go to the free list: together the
  same places as before (`reorder_footprint`).
-/
import Drift.Cache.PageOwnership

namespace Drift.PagedKVPool

variable {α : Type} {cfg : PoolConfig}

/-! ## Claimed and unclaimed rows -/

/-- Every position of a table, paired with its row. -/
theorem zipIdx_eq_map_range (table : List Nat) :
    table.zipIdx = (List.range table.length).map fun i => (table.getD i 0, i) := by
  refine List.ext_getElem (by simp) fun i hi hi' => ?_
  have : i < table.length := by simpa using hi
  simp [this]

/-- The claimed positions and the others make up the whole table. -/
theorem claimed_perm {table news : List Nat} {claimed : List Int} (hnd : news.Nodup)
    (hlt : ∀ n ∈ news, n < table.length)
    (hmem : ∀ n : Nat, (n : Int) ∈ claimed ↔ (n : Int) ∈ ([] : List Int) ∨ n ∈ news)
    (s : PagedKVPool α cfg) :
    ((news.map (table.getD · 0)).flatMap s.rowPages ++ s.reclaimed table claimed).Perm
      (table.flatMap s.rowPages) := by
  have hfilter : (fun x : Nat => decide ((x : Int) ∉ claimed)) = fun x => decide (x ∉ news) := by
    funext x
    simp [hmem x]
  have htable : table = (List.range table.length).map (table.getD · 0) := by
    refine List.ext_getElem (by simp) fun i hi hi' => ?_
    simp [hi]
  have hrec : s.reclaimed table claimed
      = ((List.range table.length).filter (· ∉ news)).flatMap
          (fun i => s.rowPages (table.getD i 0)) := by
    rw [reclaimed, zipIdx_eq_map_range, List.filter_map, List.flatMap_map]
    simp only [Function.comp_def]
    rw [hfilter]
  have hperm := (range_perm_select hnd hlt).flatMap_right
    (fun i => s.rowPages (table.getD i 0))
  rw [hrec, List.flatMap_map, ← List.flatMap_append]
  refine hperm.symm.trans ?_
  conv_rhs => rw [htable, List.flatMap_map]

variable [Zero α]

/-! ## Taking pages -/

/-- From `s` to `s'` the pages `taken` left the free list, the row objects `fresh` were made, and
    no page but the taken ones was written. -/
structure Took (taken : List Nat) (fresh : List (List Nat)) (s s' : PagedKVPool α cfg) :
    Prop where
  freePages : s.freePages.Perm (s'.freePages ++ taken)
  blockTables : s'.blockTables = s.blockTables
  rows : s'.rows = s.rows ++ fresh
  content : ∀ p, p ∉ taken → SameContent s p s' p

theorem Took.refl (s : PagedKVPool α cfg) : Took [] [] s s :=
  ⟨by rw [List.append_nil], rfl, (List.append_nil _).symm, fun p _ => SameContent.of_eq rfl rfl p⟩

theorem Took.trans {taken taken' : List Nat} {fresh fresh' : List (List Nat)}
    {a b c : PagedKVPool α cfg} (h : Took taken fresh a b) (h' : Took taken' fresh' b c) :
    Took (taken' ++ taken) (fresh ++ fresh') a c where
  freePages := by
    rw [← List.append_assoc]
    exact h.freePages.trans (h'.freePages.append_right taken)
  blockTables := h'.blockTables.trans h.blockTables
  rows := by rw [h'.rows, h.rows, List.append_assoc]
  content p hp :=
    (h.content p fun hmem => hp (List.mem_append_right _ hmem)).trans
      (h'.content p fun hmem => hp (List.mem_append_left _ hmem))

theorem Took.rowPages {taken : List Nat} {fresh : List (List Nat)} {s s' : PagedKVPool α cfg}
    (h : Took taken fresh s s') {r : Nat} (hr : r < s.rows.length) :
    s'.rowPages r = s.rowPages r := by
  simp only [PagedKVPool.rowPages, h.rows, List.getD_eq_getElem?_getD, List.getElem?_append_left hr]

/-- The new row objects list the fresh pages. -/
theorem Took.flatMap_fresh {taken : List Nat} {fresh : List (List Nat)} {s s' : PagedKVPool α cfg}
    (h : Took taken fresh s s') :
    (List.range' s.rows.length fresh.length).flatMap s'.rowPages = fresh.flatten := by
  have hmap : (List.range' s.rows.length fresh.length).map s'.rowPages = fresh := by
    refine List.ext_getElem (by simp) fun i hi hi' => ?_
    simp [PagedKVPool.rowPages, h.rows, hi']
  rw [List.flatMap_def, hmap]

theorem Took.subset {taken : List Nat} {fresh : List (List Nat)} {s s' : PagedKVPool α cfg}
    (h : Took taken fresh s s') : taken ⊆ s.freePages :=
  fun _ hp => h.freePages.mem_iff.mpr (List.mem_append_right _ hp)

theorem copyPage_same (s : PagedKVPool α cfg) (page : Nat) {newPage p : Nat} (hne : p ≠ newPage) :
    SameContent s p (copyPage newPage page s) p where
  key ix hix := by
    rw [copyPage, Tensor.get_patch _ (by rw [s.keyPool_shape]; exact hix)]
    simp only [if_neg hne, Option.getD_none]
  value ix hix := by
    rw [copyPage, Tensor.get_patch _ (by rw [s.valuePool_shape]; exact hix)]
    simp only [if_neg hne, Option.getD_none]

theorem copyPage_copy (s : PagedKVPool α cfg) (newPage page : Nat) :
    SameContent s page (copyPage newPage page s) newPage where
  key ix hix := by
    rw [copyPage, Tensor.get_patch _ (by rw [s.keyPool_shape]; exact hix)]
    simp only [if_true, Option.getD_some]
  value ix hix := by
    rw [copyPage, Tensor.get_patch _ (by rw [s.valuePool_shape]; exact hix)]
    simp only [if_true, Option.getD_some]

/-- One copy: a page leaves the free list and takes the content of `page`. -/
theorem acquireCopy_took {s : PagedKVPool α cfg} {free : List Nat} {newPage : Nat} (page : Nat)
    (h : s.freePages = free ++ [newPage]) :
    Took [newPage] [] s (copyPage newPage page { s with freePages := free }) where
  freePages := h ▸ List.Perm.refl _
  blockTables := rfl
  rows := (List.append_nil _).symm
  content p hp := by
    have hsame := copyPage_same { s with freePages := free } page
      (fun he => hp (List.mem_singleton.mpr he))
    exact ⟨hsame.key, hsame.value⟩

/-- The pool after the pages `pages` were copied to `copied`. -/
structure Copied (pages copied : List Nat) (fresh : List (List Nat)) (s s' : PagedKVPool α cfg) :
    Prop where
  took : Took copied fresh s s'
  length_eq : copied.length = pages.length
  content : s.freePages.Nodup → (∀ p ∈ pages, p ∉ s.freePages ∧ p < cfg.numPages) →
    ∀ p q, (p, q) ∈ pages.zip copied → SameContent s p s' q

theorem Copied.cons {pages copied free : List Nat} {newPage page : Nat}
    {s s' : PagedKVPool α cfg} (hfree : s.freePages = free ++ [newPage])
    (h : Copied pages copied [] (copyPage newPage page { s with freePages := free }) s') :
    Copied (page :: pages) (newPage :: copied) [] s s' where
  took := by
    have htook := (acquireCopy_took page hfree).trans h.took
    refine ⟨htook.freePages.trans (List.Perm.append_left _ List.perm_append_comm),
      htook.blockTables, htook.rows, fun p hp => htook.content p fun hmem => hp ?_⟩
    exact List.perm_append_comm.mem_iff.mp hmem
  length_eq := by simp [h.length_eq]
  content hnd hpages p q hpq := by
    have hstep := acquireCopy_took page hfree
    rw [hfree] at hnd hpages
    rw [List.zip_cons_cons, List.mem_cons] at hpq
    rcases hpq with hpq | hpq
    · obtain ⟨rfl, rfl⟩ := Prod.mk.inj hpq
      -- the first copy: the later ones go to other pages
      have hnew : q ∉ free := fun hmem =>
        (List.nodup_append.mp hnd).2.2 q hmem q List.mem_cons_self rfl
      have hcopy := copyPage_copy { s with freePages := free } q p
      have hkept := h.took.content q fun hmem => hnew (h.took.subset hmem)
      exact ⟨(hcopy.trans hkept).key, (hcopy.trans hkept).value⟩
    · have hmem := List.mem_cons_of_mem page (List.of_mem_zip hpq).1
      have hne : p ∉ [newPage] := fun he => (hpages p hmem).1 (List.mem_append_right _ he)
      refine (hstep.content p hne).trans_of_lt (hpages p hmem).2 (h.content ?_ ?_ p q hpq)
      · exact hnd.of_append_left
      · intro r hr
        obtain ⟨hr₁, hr₂⟩ := hpages r (List.mem_cons_of_mem _ hr)
        exact ⟨fun hmem => hr₁ (List.mem_append_left _ hmem), hr₂⟩

/-- **`copyPages`** copies all pages when there are enough free ones, and otherwise uses up the
    free list and raises. -/
theorem copyPages_cases : ∀ (pages : List Nat) (s : PagedKVPool α cfg),
    (pages.length ≤ s.freePages.length ∧
      ∃ copied s', copyPages pages s = .ok copied s' ∧ Copied pages copied [] s s') ∨
    (s.freePages.length < pages.length ∧ ∃ taken s', Took taken [] s s' ∧ s'.freePages = [] ∧
      copyPages pages s = .error
        (.allocationFailed "Paged attention cache is full: no free pages left") s')
  | [], s => Or.inl ⟨Nat.zero_le _, [], s, rfl, Took.refl s, rfl, fun _ _ _ _ h => nomatch h⟩
  | page :: pages, s => by
    rcases acquirePage_cases s with ⟨hnil, he⟩ | ⟨newPage, hfree, hok⟩
    · refine Or.inr ⟨by simp [hnil], [], s, Took.refl s, hnil, ?_⟩
      rw [copyPages, bind_of_error he]
    · have hlen : s.freePages.length = s.freePages.dropLast.length + 1 := by
        rw [hfree]
        simp
      have hstep := acquireCopy_took page hfree
      rw [copyPages, bind_of_ok hok, bind_modify]
      rcases copyPages_cases pages (copyPage newPage page { s with freePages := _ }) with
        ⟨hle, copied, s', hrec, hcopied⟩ | ⟨hlt, taken, s', htook, hnil, hrec⟩
      · refine Or.inl ⟨?_, newPage :: copied, s', ?_, ?_⟩
        · rw [hlen]
          exact Nat.succ_le_succ hle
        · rw [bind_of_ok hrec]
          rfl
        · exact hcopied.cons hfree
      · refine Or.inr ⟨?_, _, s', hstep.trans htook, hnil, ?_⟩
        · rw [hlen]
          exact Nat.succ_lt_succ hlt
        · rw [bind_of_error hrec]

/-! ## The loop over the ids -/

/-- Making a row object of the copied pages. -/
theorem Copied.newRow {pages copied : List Nat} {s s' : PagedKVPool α cfg}
    (h : Copied pages copied [] s s') :
    Copied pages copied [copied] s { s' with rows := s'.rows ++ [copied] } where
  took := by
    refine ⟨h.took.freePages, h.took.blockTables, ?_, fun p hp => ?_⟩
    · show s'.rows ++ [copied] = _
      rw [h.took.rows, List.append_nil]
    · exact ⟨(h.took.content p hp).key, (h.took.content p hp).value⟩
  length_eq := h.length_eq
  content hnd hpages p q hpq :=
    ⟨(h.content hnd hpages p q hpq).key, (h.content hnd hpages p q hpq).value⟩

/-- **One turn of the loop**: the id indexes no row; or its row is reused in place; or it is
    copied; or the free pages run out while it is copied. -/
theorem takeRow_cases (table : List Nat) (claimed : List Int) (src : Int)
    (s : PagedKVPool α cfg) :
    (pyIndex table src = none ∧ takeRow table claimed src s = .error .indexError s) ∨
    ∃ row, pyIndex table src = some row ∧
      ((src ∉ claimed ∧ takeRow table claimed src s = .ok (row, src :: claimed) s) ∨
      (src ∈ claimed ∧ (s.rowPages row).length ≤ s.freePages.length ∧
        ∃ copied s', Copied (s.rowPages row) copied [copied] s s' ∧
          takeRow table claimed src s = .ok (s.rows.length, claimed) s') ∨
      (src ∈ claimed ∧ s.freePages.length < (s.rowPages row).length ∧
        ∃ taken s', Took taken [] s s' ∧ s'.freePages = [] ∧ takeRow table claimed src s = .error
          (.allocationFailed "Paged attention cache is full: no free pages left") s')) := by
  cases hrow : pyIndex table src with
  | none =>
    refine Or.inl ⟨rfl, ?_⟩
    rw [takeRow, hrow]
    rfl
  | some row =>
    refine Or.inr ⟨row, rfl, ?_⟩
    rw [takeRow, hrow]
    by_cases hsrc : src ∈ claimed
    · simp only [hsrc, not_true_eq_false, if_false, false_and, false_or, true_and, bind_get]
      rcases copyPages_cases (s.rowPages row) s with
        ⟨hle, copied, s', hok, hcopied⟩ | ⟨hlt, taken, s', htook, hnil, he⟩
      · refine Or.inl ⟨hle, copied, _, hcopied.newRow, ?_⟩
        have hlen : s'.rows.length = s.rows.length := by rw [hcopied.took.rows, List.append_nil]
        rw [bind_of_ok hok, ← hlen]
        rfl
      · exact Or.inr ⟨hlt, taken, s', htook, hnil, bind_of_error he⟩
    · refine Or.inl ⟨hsrc, ?_⟩
      simp only [if_pos hsrc]
      rfl

/-- Whatever the ids are and however the loop ends, it only took pages and made rows. -/
theorem reorderRows_took (table : List Nat) : ∀ (hypoIds claimed : List Int)
    (s : PagedKVPool α cfg),
    ∃ taken fresh, Took taken fresh s (finalState (reorderRows table hypoIds claimed s))
  | [], _, s => ⟨[], [], Took.refl s⟩
  | src :: hypoIds, claimed, s => by
    have htrans : ∀ a b c : PagedKVPool α cfg, (∃ taken fresh, Took taken fresh a b) →
        (∃ taken fresh, Took taken fresh b c) → ∃ taken fresh, Took taken fresh a c :=
      fun a b c ⟨_, _, h⟩ ⟨_, _, h'⟩ => ⟨_, _, h.trans h'⟩
    rw [reorderRows]
    refine keeps_bind_at htrans ?_ fun r s₁ _ => ?_
    · rcases takeRow_cases table claimed src s with
        ⟨_, h⟩ | ⟨row, _, ⟨_, h⟩ | ⟨_, _, copied, s', hc, h⟩ | ⟨_, _, taken, s', ht, _, h⟩⟩ <;>
        rw [h]
      · exact ⟨_, _, Took.refl s⟩
      · exact ⟨_, _, Took.refl s⟩
      · exact ⟨_, _, hc.took⟩
      · exact ⟨_, _, ht⟩
    · refine keeps_bind_at htrans (reorderRows_took table hypoIds r.2 s₁) fun r' s₂ _ => ?_
      exact ⟨_, _, Took.refl s₂⟩

/-- What a returning loop over non-negative ids has done: it claimed the source positions `news`,
    and its result is their rows and the new rows. -/
structure Reordered (table : List Nat) (claimed claimed' : List Int) (result news : List Nat)
    (taken : List Nat) (fresh : List (List Nat)) (s s' : PagedKVPool α cfg) : Prop where
  took : Took taken fresh s s'
  fresh_perm : fresh.flatten.Perm taken
  nodup : news.Nodup
  lt_length : ∀ n ∈ news, n < table.length
  not_claimed : ∀ n ∈ news, (n : Int) ∉ claimed
  mem_claimed : ∀ n : Nat, (n : Int) ∈ claimed' ↔ (n : Int) ∈ claimed ∨ n ∈ news
  result_perm : result.Perm
    (news.map (table.getD · 0) ++ List.range' s.rows.length fresh.length)

theorem pyIndex_of_nonneg {table : List Nat} {src : Int} {row : Nat} (h0 : 0 ≤ src)
    (h : pyIndex table src = some row) :
    ∃ n : Nat, src = n ∧ n < table.length ∧ table.getD n 0 = row := by
  obtain ⟨n, rfl⟩ := Int.eq_ofNat_of_zero_le h0
  rw [pyIndex_natCast] at h
  refine ⟨n, rfl, (List.getElem?_eq_some_iff.mp h).1, ?_⟩
  rw [List.getD_eq_getElem?_getD, h]
  rfl

theorem reorderRows_ok {table : List Nat} : ∀ {hypoIds claimed : List Int}
    {s s' : PagedKVPool α cfg} {result : List Nat} {claimed' : List Int},
    (∀ id ∈ hypoIds, 0 ≤ id) →
    reorderRows table hypoIds claimed s = .ok (result, claimed') s' →
    ∃ news taken fresh, Reordered table claimed claimed' result news taken fresh s s'
  | [], claimed, s, s', result, claimed', _, h => by
    obtain ⟨hr, rfl⟩ := EStateM.Result.ok.inj h
    obtain ⟨rfl, rfl⟩ := Prod.mk.inj hr
    exact ⟨[], [], [], Took.refl s, .refl _, .nil, by simp, by simp, by simp, .refl _⟩
  | src :: hypoIds, claimed, s, s', result, claimed', hids, h => by
    have h0 := hids src List.mem_cons_self
    have hids' := fun id hid => hids id (List.mem_cons_of_mem src hid)
    rw [reorderRows] at h
    obtain ⟨⟨row, claimed₁⟩, s₁, htake, h⟩ := bind_eq_ok.mp h
    obtain ⟨⟨rest, claimed₂⟩, s₂, hrest, h⟩ := bind_eq_ok.mp h
    obtain ⟨hr, rfl⟩ := EStateM.Result.ok.inj h
    obtain ⟨rfl, rfl⟩ := Prod.mk.inj hr
    obtain ⟨news, taken, fresh, hR⟩ := reorderRows_ok hids' hrest
    rcases takeRow_cases table claimed src s with
      ⟨_, ht⟩ | ⟨row', hrow, ⟨hsrc, ht⟩ | ⟨hsrc, _, copied, s₁', hc, ht⟩ | ⟨_, _, _, _, _, _, ht⟩⟩
    · rw [ht] at htake
      nomatch htake
    · -- the row is reused in place
      rw [ht] at htake
      obtain ⟨hr, rfl⟩ := EStateM.Result.ok.inj htake
      obtain ⟨rfl, rfl⟩ := Prod.mk.inj hr
      obtain ⟨n, rfl, hn, hget⟩ := pyIndex_of_nonneg h0 hrow
      refine ⟨n :: news, taken, fresh, hR.took, hR.fresh_perm, ?_, ?_, ?_, ?_, ?_⟩
      · exact List.nodup_cons.mpr ⟨fun hmem => hR.not_claimed n hmem List.mem_cons_self, hR.nodup⟩
      · exact List.forall_mem_cons.mpr ⟨hn, hR.lt_length⟩
      · refine List.forall_mem_cons.mpr ⟨hsrc, fun m hm hcl => ?_⟩
        exact hR.not_claimed m hm (List.mem_cons_of_mem _ hcl)
      · intro m
        rw [hR.mem_claimed, List.mem_cons, List.mem_cons, Int.natCast_inj]
        tauto
      · rw [List.map_cons, hget, List.cons_append]
        exact hR.result_perm.cons _
    · -- the row is copied
      rw [ht] at htake
      obtain ⟨hr, rfl⟩ := EStateM.Result.ok.inj htake
      obtain ⟨rfl, rfl⟩ := Prod.mk.inj hr
      refine ⟨news, taken ++ copied, copied :: fresh, hc.took.trans hR.took, ?_, hR.nodup,
        hR.lt_length, hR.not_claimed, hR.mem_claimed, ?_⟩
      · rw [List.flatten_cons]
        exact (hR.fresh_perm.append_left copied).trans List.perm_append_comm
      · have hlen : s₁'.rows.length = s.rows.length + 1 := by
          rw [hc.took.rows, List.length_append, List.length_singleton]
        rw [List.length_cons, List.range'_succ]
        refine (hR.result_perm.cons _).trans ?_
        rw [hlen]
        exact List.perm_middle.symm
    · rw [ht] at htake
      nomatch htake

/-! ## Installing the new table -/

/-- A `reorder` that raises leaves what its loop left. -/
theorem reorder_of_error {s s' : PagedKVPool α cfg} {slotId : Nat} {table : List Nat}
    {hypoIds : List Int} {e : PyExc} (ht : s.blockTables.lookup slotId = some table)
    (h : reorderRows table hypoIds [] s = .error e s') :
    reorder slotId hypoIds s = .error e s' := by
  rw [reorder, bind_get]
  simp only [ht]
  exact bind_of_error h

theorem reorder_of_ok {s s' : PagedKVPool α cfg} {slotId : Nat} {table result : List Nat}
    {hypoIds claimed : List Int} (ht : s.blockTables.lookup slotId = some table)
    (h : reorderRows table hypoIds [] s = .ok (result, claimed) s') :
    reorder slotId hypoIds s = .ok () { s' with
      freePages := s'.freePages ++ s'.reclaimed table claimed
      blockTables := s'.blockTables.insert slotId result } := by
  rw [reorder, bind_get]
  simp only [ht]
  rw [bind_of_ok h]
  rfl

/-- **The places after a returning `reorder`** over non-negative ids are those before it. -/
theorem reorder_footprint {s s' : PagedKVPool α cfg} {slotId : Nat}
    {table result news taken : List Nat}
    {fresh : List (List Nat)} {claimed : List Int} (hs : s.RowsDistinct)
    (ht : s.blockTables.lookup slotId = some table)
    (h : Reordered table [] claimed result news taken fresh s s') :
    ({ s' with
        freePages := s'.freePages ++ s'.reclaimed table claimed
        blockTables := s'.blockTables.insert slotId result } : PagedKVPool α cfg).footprint.Perm
      s.footprint := by
  have hlt : ∀ r ∈ s.tableRows, s'.rowPages r = s.rowPages r := fun r hr =>
    h.took.rowPages (hs.lt_length r hr)
  have htable : table.flatMap s'.rowPages = table.flatMap s.rowPages :=
    List.flatMap_congr fun r hr => hlt r (subset_tableRows ht hr)
  have hother : (s.otherRows slotId).flatMap s'.rowPages
      = (s.otherRows slotId).flatMap s.rowPages :=
    List.flatMap_congr fun r hr =>
      hlt r ((tableRows_perm ht).mem_iff.mpr (List.mem_append_right _ hr))
  have hfresh := h.took.flatMap_fresh
  have hresult := h.result_perm.flatMap_right s'.rowPages
  rw [List.flatMap_append, hfresh] at hresult
  have hclaimed := claimed_perm h.nodup h.lt_length h.mem_claimed s'
  rw [htable] at hclaimed
  show (s'.freePages ++ s'.reclaimed table claimed ++
    (result ++ (s'.blockTables.erase slotId).entries.flatMap (·.2)).flatMap s'.rowPages).Perm _
  rw [h.took.blockTables]
  show (_ ++ (result ++ s.otherRows slotId).flatMap s'.rowPages).Perm _
  rw [List.flatMap_append, hother, footprint]
  -- count the parts: free pages, reclaimed rows, claimed rows, copies, other slots
  rw [List.perm_iff_count]
  intro page
  have hfree := h.took.freePages.count_eq page
  have hcopies := h.fresh_perm.count_eq page
  have howned := (ownedPages_perm ht).count_eq page
  have hres := hresult.count_eq page
  have hcl := hclaimed.count_eq page
  simp only [List.count_append] at hfree howned hres hcl ⊢
  omega

/-- The row objects after a returning `reorder` are still pairwise distinct. -/
theorem reorder_rowsDistinct {s s' : PagedKVPool α cfg} {slotId : Nat}
    {table result news taken : List Nat} {fresh : List (List Nat)} {claimed : List Int}
    (hs : s.RowsDistinct) (ht : s.blockTables.lookup slotId = some table)
    (h : Reordered table [] claimed result news taken fresh s s') (free : List Nat) :
    ({ s' with
        freePages := free
        blockTables := s'.blockTables.insert slotId result } : PagedKVPool α cfg).RowsDistinct := by
  have htab := tableRows_perm ht
  have hnd := List.nodup_append.mp (htab.nodup_iff.mp hs.nodup)
  have hsub : ∀ r ∈ news.map (table.getD · 0), r ∈ table := by
    intro r hr
    obtain ⟨n, hn, rfl⟩ := List.mem_map.mp hr
    rw [List.getD_eq_getElem _ _ (h.lt_length n hn)]
    exact List.getElem_mem _
  have hold : ∀ r, r ∈ table ∨ r ∈ s.otherRows slotId → r < s.rows.length := fun r hr =>
    hs.lt_length r (htab.mem_iff.mpr (List.mem_append.mpr hr))
  have hmap : (news.map (table.getD · 0)).Nodup := by
    refine List.Nodup.map_on (fun m hm n hn he => ?_) h.nodup
    simp only [List.getD_eq_getElem _ _ (h.lt_length m hm),
      List.getD_eq_getElem _ _ (h.lt_length n hn)] at he
    exact (hnd.1.getElem_inj_iff).mp he
  have hresult : result.Nodup := by
    refine h.result_perm.nodup_iff.mpr (List.nodup_append.mpr ⟨hmap, List.nodup_range', ?_⟩)
    rintro a ha b hb rfl
    have := hold a (Or.inl (hsub a ha))
    have := (List.mem_range'_1.mp hb).1
    omega
  have hmem : ∀ r, r ∈ result → r ∈ table ∨ s.rows.length ≤ r ∧ r < s'.rows.length := by
    intro r hr
    rcases List.mem_append.mp (h.result_perm.mem_iff.mp hr) with hr | hr
    · exact Or.inl (hsub r hr)
    · rw [h.took.rows, List.length_append]
      exact Or.inr (List.mem_range'_1.mp hr)
  have hlen : s.rows.length ≤ s'.rows.length := by
    rw [h.took.rows, List.length_append]
    exact Nat.le_add_right _ _
  have hrows : ({ s' with
        freePages := free
        blockTables := s'.blockTables.insert slotId result } : PagedKVPool α cfg).tableRows
      = result ++ s.otherRows slotId := by
    show result ++ (s'.blockTables.erase slotId).entries.flatMap (·.2) = _
    rw [h.took.blockTables]
    rfl
  refine ⟨?_, fun r hr => ?_⟩
  · rw [hrows]
    refine List.nodup_append.mpr ⟨hresult, hnd.2.1, ?_⟩
    rintro a ha b hb rfl
    rcases hmem a ha with ha | ⟨ha, _⟩
    · exact hnd.2.2 a ha a hb rfl
    · have := hold a (Or.inr hb)
      omega
  · rw [hrows] at hr
    show r < s'.rows.length
    rcases List.mem_append.mp hr with hr | hr
    · rcases hmem r hr with hr | ⟨_, hr⟩
      · exact Nat.lt_of_lt_of_le (hold r (Or.inl hr)) hlen
      · exact hr
    · exact Nat.lt_of_lt_of_le (hold r (Or.inr hr)) hlen

end Drift.PagedKVPool
