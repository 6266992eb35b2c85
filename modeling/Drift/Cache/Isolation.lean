/-
  Isolation of paged sessions.

  One step lemma per operation says what it does to the places (`SameOwners`) and that it touches
  nothing of the other slots (`Frame`).  `after_sound` and `after_frame` put them together for
  a call, and `isolated_of_reorderIds` follows by the rule for runs.

  Negative ids are the exception.  `block_table[-1]` is a row, but the set of claimed sources holds
  `-1` and the reclaiming loop looks for `0 … batch - 1`: the row is installed in the new table and
  its pages go to the free list (`reorder_neg_not_isolated`).
-/
import Drift.Cache.PagedReorder
import Drift.Lib.Run

namespace Drift.PagedKVPool

variable {α : Type} {cfg : PoolConfig}

/-! ## The rows and pages of the other slots -/

/-- The rows of another slot are among the other rows. -/
theorem subset_otherRows {s : PagedKVPool α cfg} {slotId t : Nat} {table : List Nat}
    (hne : t ≠ slotId) (ht : s.blockTables.lookup t = some table) :
    table ⊆ s.otherRows slotId := by
  intro r hr
  have hlook : (s.blockTables.erase slotId).lookup t = some table := by
    rw [AList.lookup_erase_ne hne, ht]
  exact List.mem_flatMap.mpr ⟨⟨t, table⟩, AList.mem_lookup_iff.mp hlook, hr⟩

theorem subset_otherRows_tableRows (s : PagedKVPool α cfg) (slotId : Nat) :
    s.otherRows slotId ⊆ s.tableRows := by
  intro r hr
  obtain ⟨entry, hentry, hr⟩ := List.mem_flatMap.mp hr
  exact List.mem_flatMap.mpr ⟨entry, List.kerase_sublist _ _ |>.subset hentry, hr⟩

/-- The pages of the other slots are owned. -/
theorem mem_ownedPages {s : PagedKVPool α cfg} {slotId p : Nat}
    (hp : p ∈ (s.otherRows slotId).flatMap s.rowPages) : p ∈ s.ownedPages := by
  obtain ⟨r, hr, hp⟩ := List.mem_flatMap.mp hp
  exact List.mem_flatMap.mpr ⟨r, subset_otherRows_tableRows s slotId hr, hp⟩

/-- No row is in two slots. -/
theorem RowsDistinct.not_mem {s : PagedKVPool α cfg} (hs : s.RowsDistinct) {slotId r : Nat}
    {table : List Nat} (ht : s.blockTables.lookup slotId = some table)
    (hr : r ∈ s.otherRows slotId) : r ∉ table := fun hrt =>
  (List.nodup_append.mp ((tableRows_perm ht).nodup_iff.mp hs.nodup)).2.2 r hrt r hr rfl

/-- Every page of the footprint is one of the pool. -/
theorem Sound.lt_numPages {s : PagedKVPool α cfg} (hs : s.Sound) {p : Nat}
    (hp : p ∈ s.footprint) : p < cfg.numPages := by
  obtain ⟨l, hperm, hsub⟩ := hs.subperm
  exact List.mem_range.mp (hsub.subset (hperm.mem_iff.mpr hp))

/-- A page that is owned is not free. -/
theorem Isolated.not_free {s : PagedKVPool α cfg} (hs : s.Isolated) {p : Nat}
    (hp : p ∈ s.ownedPages) : p ∉ s.freePages := fun hfree =>
  (List.nodup_append.mp hs).2.2 p hfree p hp rfl

/-- A page of another slot is no page of this one. -/
theorem Isolated.not_own {s : PagedKVPool α cfg} (hs : s.Isolated) {slotId p : Nat}
    {table : List Nat} (ht : s.blockTables.lookup slotId = some table)
    (hp : p ∈ (s.otherRows slotId).flatMap s.rowPages) : p ∉ table.flatMap s.rowPages := by
  have hnd := (ownedPages_perm ht).nodup_iff.mp (List.nodup_append.mp hs).2.1
  exact fun hown => (List.nodup_append.mp hnd).2.2 p hown p hp rfl

/-! ## Registering and freeing: the places -/

/-- Registering a slot leaves the rows that exist as they are. -/
theorem registerSlot_rowPages (slotId batchSize : Nat) (s : PagedKVPool α cfg) {r : Nat}
    (hr : r < s.rows.length) : (registerSlot slotId batchSize s).rowPages r = s.rowPages r := by
  rw [registerSlot]
  split
  · rfl
  · simp [rowPages, List.getElem?_append_left hr]

/-- A new slot has new rows, without pages. -/
theorem registerSlot_fresh {slotId : Nat} (batchSize : Nat) {s : PagedKVPool α cfg}
    (h : slotId ∉ s.blockTables) :
    (registerSlot slotId batchSize s).tableRows
      = List.range' s.rows.length batchSize ++ s.tableRows ∧
    (registerSlot slotId batchSize s).rows = s.rows ++ List.replicate batchSize [] ∧
    (registerSlot slotId batchSize s).freePages = s.freePages := by
  rw [registerSlot, if_neg h]
  refine ⟨?_, rfl, rfl⟩
  show (List.range' s.rows.length batchSize ++
    (s.blockTables.entries.kerase slotId).flatMap (·.2)) = _
  rw [List.kerase_of_notMem_keys h]
  rfl

/-- Its rows are in no other slot, also when the slot id is used again. -/
theorem registerSlot_rowsDistinct {slotId batchSize : Nat} {s : PagedKVPool α cfg}
    (hs : s.RowsDistinct) : (registerSlot slotId batchSize s).RowsDistinct := by
  by_cases h : slotId ∈ s.blockTables
  · rw [registerSlot, if_pos h]
    exact hs
  · obtain ⟨htab, hrows, -⟩ := registerSlot_fresh batchSize h
    constructor
    · rw [htab]
      refine List.nodup_append.mpr ⟨List.nodup_range', hs.nodup, ?_⟩
      rintro a ha b hb rfl
      have := (List.mem_range'_1.mp ha).1
      have := hs.lt_length a hb
      omega
    · intro r hr
      rw [hrows, List.length_append, List.length_replicate]
      rw [htab] at hr
      rcases List.mem_append.mp hr with hr | hr
      · exact (List.mem_range'_1.mp hr).2
      · have := hs.lt_length r hr
        omega

/-- Registering a slot takes no page. -/
theorem registerSlot_footprint {slotId batchSize : Nat} {s : PagedKVPool α cfg}
    (hs : s.RowsDistinct) : (registerSlot slotId batchSize s).footprint = s.footprint := by
  by_cases h : slotId ∈ s.blockTables
  · rw [registerSlot, if_pos h]
  · obtain ⟨htab, hrows, hfree⟩ := registerSlot_fresh batchSize h
    have hold : s.tableRows.flatMap (registerSlot slotId batchSize s).rowPages = s.ownedPages :=
      List.flatMap_congr fun r hr => registerSlot_rowPages _ _ s (hs.lt_length r hr)
    have hnew : (List.range' s.rows.length batchSize).flatMap
        (registerSlot slotId batchSize s).rowPages = [] := by
      refine List.flatMap_eq_nil_iff.mpr fun r hr => ?_
      obtain ⟨hle, hlt⟩ := List.mem_range'_1.mp hr
      have hlt' : r - s.rows.length < batchSize := by omega
      simp [rowPages, hrows, List.getElem?_append_right hle, hlt']
    rw [footprint, ownedPages, htab, List.flatMap_append, hnew, hold, hfree]
    rfl

/-- The rows that are left stay apart. -/
theorem freeSlot_rowsDistinct {slotId : Nat} {s : PagedKVPool α cfg} (hs : s.RowsDistinct) :
    (freeSlot slotId s).RowsDistinct := by
  rw [freeSlot]
  split
  · exact hs
  · rename_i table ht
    have htab := tableRows_perm ht
    exact ⟨(List.nodup_append.mp (htab.nodup_iff.mp hs.nodup)).2.1,
      fun r hr => hs.lt_length r (subset_otherRows_tableRows s slotId hr)⟩

/-- The pages of a freed slot become free. -/
theorem freeSlot_footprint (slotId : Nat) (s : PagedKVPool α cfg) :
    (freeSlot slotId s).footprint.Perm s.footprint := by
  rw [freeSlot]
  split
  · exact .refl _
  · rename_i table ht
    show (s.freePages ++ table.flatMap s.rowPages ++ (s.otherRows slotId).flatMap s.rowPages).Perm _
    rw [List.append_assoc]
    exact (ownedPages_perm ht).symm.append_left s.freePages

variable [Zero α]

/-! ## What the other slots see -/

/-- Nothing of the slots other than `slotId` differs between `s` and `s'`. -/
structure Frame (slotId : Nat) (s s' : PagedKVPool α cfg) : Prop where
  lookup : ∀ t, t ≠ slotId → s'.blockTables.lookup t = s.blockTables.lookup t
  rowPages : ∀ r ∈ s.otherRows slotId, s'.rowPages r = s.rowPages r
  content : ∀ p ∈ (s.otherRows slotId).flatMap s.rowPages, SameContent s p s' p

/-- Nothing changes for the other slots when nothing changes. -/
theorem Frame.refl (slotId : Nat) (s : PagedKVPool α cfg) : Frame slotId s s :=
  ⟨fun _ _ => rfl, fun _ _ => rfl, fun p _ => SameContent.of_eq rfl rfl p⟩

/-- To register a slot is no business of the others, -/
theorem registerSlot_frame (slotId batchSize : Nat) {s : PagedKVPool α cfg}
    (hs : s.RowsDistinct) : Frame slotId s (registerSlot slotId batchSize s) := by
  refine ⟨fun t ht => ?_, fun r hr => ?_, fun p _ => ?_⟩
  · rw [registerSlot]
    split
    · rfl
    · exact AList.lookup_insert_ne ht
  · exact registerSlot_rowPages _ _ s (hs.lt_length r (subset_otherRows_tableRows s slotId hr))
  · rw [registerSlot]
    split <;> exact ⟨fun _ _ => rfl, fun _ _ => rfl⟩

/-- nor is to free it. -/
theorem freeSlot_frame (slotId : Nat) (s : PagedKVPool α cfg) :
    Frame slotId s (freeSlot slotId s) := by
  rw [freeSlot]
  split
  · exact Frame.refl slotId s
  · exact ⟨fun t ht => AList.lookup_erase_ne ht, fun _ _ => rfl,
      fun _ _ => ⟨fun _ _ => rfl, fun _ _ => rfl⟩⟩

/-! ## The longer operations -/

/-- Pages that were free are in no other slot. -/
theorem Took.frame {taken : List Nat} {fresh : List (List Nat)} {s s' : PagedKVPool α cfg}
    (h : Took taken fresh s s') (hs : s.Sound) (slotId : Nat) : Frame slotId s s' where
  lookup t _ := by rw [h.blockTables]
  rowPages r hr :=
    h.rowPages (hs.rowsDistinct.lt_length r (subset_otherRows_tableRows s slotId hr))
  content p hp :=
    h.content p fun hmem => hs.isolated.not_free (mem_ownedPages hp) (h.subset hmem)

theorem Took.tableRows {taken : List Nat} {fresh : List (List Nat)} {s s' : PagedKVPool α cfg}
    (h : Took taken fresh s s') : s'.tableRows = s.tableRows := by
  simp only [PagedKVPool.tableRows, h.blockTables]

/-- A reorder moves no row to another slot. -/
theorem Took.rowsDistinct {taken : List Nat} {fresh : List (List Nat)} {s s' : PagedKVPool α cfg}
    (h : Took taken fresh s s') (hs : s.RowsDistinct) : s'.RowsDistinct := by
  refine ⟨h.tableRows ▸ hs.nodup, fun r hr => ?_⟩
  rw [h.rows, List.length_append]
  exact Nat.lt_add_right _ (hs.lt_length r (h.tableRows ▸ hr))

/-- The pages taken are the ones that the places lack afterwards. -/
theorem Took.footprint {taken : List Nat} {fresh : List (List Nat)} {s s' : PagedKVPool α cfg}
    (h : Took taken fresh s s') (hs : s.RowsDistinct) :
    (s'.footprint ++ taken).Perm s.footprint := by
  have howned : s'.ownedPages = s.ownedPages := by
    rw [ownedPages, h.tableRows]
    exact List.flatMap_congr fun r hr => h.rowPages (hs.lt_length r hr)
  rw [PagedKVPool.footprint, PagedKVPool.footprint, howned, List.perm_iff_count]
  intro page
  have hfree := h.freePages.count_eq page
  simp only [List.count_append] at hfree ⊢
  omega

/-- `reorder` on a registered slot: raised by the loop, or installed after it. -/
theorem reorder_cases {s : PagedKVPool α cfg} {slotId : Nat} {table : List Nat}
    (ht : s.blockTables.lookup slotId = some table) (hypoIds : List Int) :
    (∃ e s' taken fresh, Took taken fresh s s' ∧ reorder slotId hypoIds s = .error e s' ∧
      reorderRows table hypoIds [] s = .error e s') ∨
    ∃ result claimed s' taken fresh, Took taken fresh s s' ∧
      reorderRows table hypoIds [] s = .ok (result, claimed) s' ∧
      reorder slotId hypoIds s = .ok () { s' with
        freePages := s'.freePages ++ s'.reclaimed table claimed
        blockTables := s'.blockTables.insert slotId result } := by
  obtain ⟨taken, fresh, htook⟩ := reorderRows_took table hypoIds [] s
  cases h : reorderRows table hypoIds [] s with
  | error e s' =>
    rw [h] at htook
    exact Or.inl ⟨e, s', taken, fresh, htook, reorder_of_error ht h, rfl⟩
  | ok r s' =>
    rw [h] at htook
    exact Or.inr ⟨r.1, r.2, s', taken, fresh, htook, rfl, reorder_of_ok ht h⟩

/-- A reorder changes its own slot only, whatever the ids. -/
theorem reorder_frame {s : PagedKVPool α cfg} (hs : s.Sound) (slotId : Nat)
    (hypoIds : List Int) : Frame slotId s (finalState (reorder slotId hypoIds s)) := by
  cases ht : s.blockTables.lookup slotId with
  | none =>
    rw [reorder, bind_get]
    simp only [ht]
    exact Frame.refl slotId s
  | some table =>
    rcases reorder_cases ht hypoIds with
      ⟨e, s', _, _, htook, h, -⟩ | ⟨result, claimed, s', _, _, htook, -, h⟩
    · rw [h]
      exact htook.frame hs slotId
    · rw [h]
      have hframe := htook.frame hs slotId
      exact ⟨fun t hne => (AList.lookup_insert_ne hne).trans (hframe.lookup t hne),
        hframe.rowPages, fun p hp => ⟨(hframe.content p hp).key, (hframe.content p hp).value⟩⟩

/-- What a step writes, it writes into its own slot, also when it fails half-way. -/
theorem scatter_frame_other {s : PagedKVPool α cfg} (hs : s.Sound) (slotId : Nat)
    (newKvs : Tensor α × Tensor α) (pre : Int) :
    Frame slotId s (finalState (scatter slotId newKvs pre s)) := by
  cases ht : s.blockTables.lookup slotId with
  | none =>
    rw [scatter, bind_get]
    simp only [ht]
    exact Frame.refl slotId s
  | some table =>
    obtain ⟨s₁, hgrown, hwrote⟩ := scatter_frame hs.rowsDistinct ht newKvs pre
    have hrows : ∀ r ∈ s.otherRows slotId, s₁.rowPages r = s.rowPages r := fun r hr =>
      hgrown.other r (hs.rowsDistinct.not_mem ht hr)
    have hisolated : s₁.Isolated := hgrown.footprint.nodup_iff.mpr hs.isolated
    have ht₁ : s₁.blockTables.lookup slotId = some table := by rw [hgrown.blockTables, ht]
    have hother : s₁.otherRows slotId = s.otherRows slotId := by
      simp only [otherRows, hgrown.blockTables]
    refine ⟨fun t _ => by rw [hwrote.blockTables, hgrown.blockTables], fun r hr => ?_, ?_⟩
    · rw [hwrote.rowPages, hrows r hr]
    · intro p hp
      have hp₁ : p ∈ (s₁.otherRows slotId).flatMap s₁.rowPages := by
        rw [hother, List.flatMap_congr hrows]
        exact hp
      have hsame := hwrote.content p (hisolated.not_own ht₁ hp₁)
      exact (SameContent.of_eq hgrown.keyPool hgrown.valuePool p).trans hsame

/-! ## Calls -/

/-- To read changes nothing. -/
theorem after_gather (s : PagedKVPool α cfg) (slotId : Nat) (pre : Int) :
    s.after (.gather slotId pre) = s := by
  simp only [after, Call.perform]
  split <;> rfl

/-- **Frame of a call**: it changes nothing of the other slots, with any ids. -/
theorem after_frame {s : PagedKVPool α cfg} (hs : s.Sound) (call : Call α) :
    Frame call.slot s (s.after call) := by
  cases call with
  | registerSlot slotId batchSize => exact registerSlot_frame slotId batchSize hs.rowsDistinct
  | freeSlot slotId => exact freeSlot_frame slotId s
  | reorder slotId hypoIds => exact reorder_frame hs slotId hypoIds
  | gather slotId pre =>
    rw [after_gather]
    exact Frame.refl slotId s
  | scatter slotId newKvs pre => exact scatter_frame_other hs slotId newKvs pre

/-- A `reorder` with these ids either raises or uses no negative id. -/
def SafeIds (s : PagedKVPool α cfg) : Call α → Prop
  | .reorder slotId hypoIds => ∀ table ∈ s.blockTables.lookup slotId,
      (∀ id ∈ hypoIds, 0 ≤ id) ∨ ∃ id ∈ hypoIds, pyIndex table id = none
  | _ => True

instance decidableSafeIds (s : PagedKVPool α cfg) : ∀ call, Decidable (SafeIds s call)
  | .reorder slotId hypoIds => inferInstanceAs (Decidable (∀ table ∈ s.blockTables.lookup slotId,
      (∀ id ∈ hypoIds, 0 ≤ id) ∨ ∃ id ∈ hypoIds, pyIndex table id = none))
  | .registerSlot .. | .freeSlot .. | .gather .. | .scatter .. => isTrue trivial

/-- A loop that returns has found a row for every id. -/
theorem pyIndex_of_reorderRows {table : List Nat} : ∀ {hypoIds claimed : List Int}
    {s s' : PagedKVPool α cfg} {r : List Nat × List Int},
    reorderRows table hypoIds claimed s = .ok r s' → ∀ id ∈ hypoIds, pyIndex table id ≠ none
  | [], _, _, _, _, _, _, hid => absurd hid List.not_mem_nil
  | src :: hypoIds, claimed, s, s', r, h, id, hid => by
    rw [reorderRows] at h
    obtain ⟨r₁, s₁, htake, h⟩ := bind_eq_ok.mp h
    obtain ⟨r₂, s₂, hrest, -⟩ := bind_eq_ok.mp h
    rcases List.mem_cons.mp hid with rfl | hid
    · intro hnone
      rcases takeRow_cases table claimed id s with ⟨_, he⟩ | ⟨row, hrow, _⟩
      · rw [he] at htake
        cases htake
      · rw [hnone] at hrow
        cases hrow
    · exact pyIndex_of_reorderRows hrest id hid

/-- The places after a `reorder`: those before, less the pages that a raising one has lost. -/
theorem reorder_owners {s : PagedKVPool α cfg} {slotId : Nat} {hypoIds : List Int}
    (hs : s.RowsDistinct) (hc : SafeIds s (.reorder slotId hypoIds)) :
    (finalState (reorder slotId hypoIds s)).RowsDistinct ∧
      ∃ lost, ((finalState (reorder slotId hypoIds s)).footprint ++ lost).Perm s.footprint := by
  cases ht : s.blockTables.lookup slotId with
  | none =>
    rw [reorder, bind_get]
    simp only [ht]
    exact ⟨hs, [], by rw [List.append_nil]; exact .refl _⟩
  | some table =>
    rcases reorder_cases ht hypoIds with
      ⟨e, s', taken, _, htook, h, -⟩ | ⟨result, claimed, s', _, _, _, hrows, h⟩
    · rw [h]
      exact ⟨htook.rowsDistinct hs, taken, htook.footprint hs⟩
    · rw [h]
      have hids : ∀ id ∈ hypoIds, 0 ≤ id := by
        rcases hc table ht with hids | ⟨id, hid, hnone⟩
        · exact hids
        · exact absurd hnone (pyIndex_of_reorderRows hrows id hid)
      obtain ⟨news, taken, fresh, hR⟩ := reorderRows_ok hids hrows
      refine ⟨reorder_rowsDistinct hs ht hR _, [], ?_⟩
      rw [List.append_nil]
      exact reorder_footprint hs ht hR

/-- A step takes pages from the free ones only. -/
theorem scatter_owners {s : PagedKVPool α cfg} (hs : s.RowsDistinct) (slotId : Nat)
    (newKvs : Tensor α × Tensor α) (pre : Int) :
    (finalState (scatter slotId newKvs pre s)).RowsDistinct ∧
      (finalState (scatter slotId newKvs pre s)).footprint.Perm s.footprint := by
  cases ht : s.blockTables.lookup slotId with
  | none =>
    rw [scatter, bind_get]
    simp only [ht]
    exact ⟨hs, .refl _⟩
  | some table =>
    obtain ⟨s₁, hgrown, hwrote⟩ := scatter_frame hs ht newKvs pre
    exact ⟨hwrote.rowsDistinct (hgrown.rowsDistinct hs), hwrote.footprint ▸ hgrown.footprint⟩

/-- **Places after a call.** -/
theorem after_owners {s : PagedKVPool α cfg} {call : Call α} (hs : s.RowsDistinct)
    (hc : SafeIds s call) :
    (s.after call).RowsDistinct ∧ ∃ lost, ((s.after call).footprint ++ lost).Perm s.footprint := by
  cases call with
  | registerSlot slotId batchSize =>
    refine ⟨registerSlot_rowsDistinct hs, [], ?_⟩
    rw [List.append_nil]
    exact .of_eq (registerSlot_footprint hs)
  | freeSlot slotId =>
    refine ⟨freeSlot_rowsDistinct hs, [], ?_⟩
    rw [List.append_nil]
    exact freeSlot_footprint slotId s
  | reorder slotId hypoIds => exact reorder_owners hs hc
  | gather slotId pre =>
    rw [after_gather]
    exact ⟨hs, [], by rw [List.append_nil]⟩
  | scatter slotId newKvs pre =>
    obtain ⟨hd, hperm⟩ := scatter_owners hs slotId newKvs pre
    refine ⟨hd, [], ?_⟩
    rw [List.append_nil]
    exact hperm

/-- **One call** keeps the pool sound, as long as a reorder comes with the ids of rows. -/
theorem after_sound {s : PagedKVPool α cfg} (call : Call α) (hs : s.Sound)
    (hc : SafeIds s call) : (s.after call).Sound := by
  obtain ⟨hd, lost, hperm⟩ := after_owners hs.rowsDistinct hc
  refine ⟨hd, List.Subperm.trans ?_ hs.subperm⟩
  exact (List.sublist_append_left _ lost).subperm.trans hperm.subperm

/-- A new pool has all pages free. -/
theorem new_sound : (new cfg : PagedKVPool α cfg).Sound := by
  refine ⟨⟨List.nodup_nil, fun _ h => absurd h List.not_mem_nil⟩, ?_⟩
  have : (new cfg : PagedKVPool α cfg).footprint = List.range cfg.numPages := List.append_nil _
  rw [this]

/-! ## What another session reads -/

theorem mem_of_mem_pyTake {β : Type} {xs : List β} {stop : Int} {x : β}
    (h : x ∈ pyTake xs stop) : x ∈ xs := by
  rw [pyTake] at h
  split at h <;> exact List.mem_of_mem_take h

/-- A table that has a width has it in every row. -/
theorem length_of_tableWidth {idx : List (List Nat)} {width : Nat}
    (h : tableWidth idx = .ok width) : ∀ row ∈ idx, row.length = width := by
  cases idx with
  | nil => exact fun _ hr => absurd hr List.not_mem_nil
  | cons row rest =>
    rw [tableWidth] at h
    split at h
    · rename_i hall
      split at h
      · nomatch h
      · obtain rfl := Except.ok.inj h
        simpa using hall
    · nomatch h

/-- `gather` depends on the rows of the slot and on the contents of their pages only. -/
theorem gather_congr {s s' : PagedKVPool α cfg} {slotId : Nat}
    (hlook : s'.blockTables.lookup slotId = s.blockTables.lookup slotId)
    (hrows : ∀ table, s.blockTables.lookup slotId = some table → ∀ r ∈ table,
      s'.rowPages r = s.rowPages r ∧
        ∀ p ∈ s.rowPages r, p < cfg.numPages ∧ SameContent s p s' p) (pre : Int) :
    s'.gather slotId pre = s.gather slotId pre := by
  rw [gather, gather, hlook]
  cases ht : s.blockTables.lookup slotId with
  | none => rfl
  | some table =>
    have hidx : (table.map fun row => pyTake (s'.rowPages row) (pyCeilDiv pre cfg.pageSize))
        = table.map fun row => pyTake (s.rowPages row) (pyCeilDiv pre cfg.pageSize) :=
      List.map_congr_left fun r hr => by rw [(hrows table ht r hr).1]
    simp only [hidx]
    split
    · rfl
    · generalize hi : (table.map fun row => pyTake (s.rowPages row) (pyCeilDiv pre cfg.pageSize))
        = idx
      have hmem : ∀ row ∈ idx, ∀ p ∈ row, p < cfg.numPages ∧ SameContent s p s' p := by
        rw [← hi]
        intro row hrow p hp
        obtain ⟨r, hr, rfl⟩ := List.mem_map.mp hrow
        exact (hrows table ht r hr).2 p (mem_of_mem_pyTake hp)
      cases hw : tableWidth idx with
      | error e => rfl
      | ok width =>
        have hlen := length_of_tableWidth hw
        have hkeys : s'.keyPool.indexTable idx width = s.keyPool.indexTable idx width := by
          refine Tensor.indexTable_congr (by rw [s.keyPool_shape, s'.keyPool_shape]) hlen ?_
          intro row hrow p hp ix hix
          rw [s.keyPool_shape] at hix
          exact (hmem row hrow p hp).2.key ix ⟨(hmem row hrow p hp).1, hix⟩
        have hvalues : s'.valuePool.indexTable idx width = s.valuePool.indexTable idx width := by
          refine Tensor.indexTable_congr (by rw [s.valuePool_shape, s'.valuePool_shape]) hlen ?_
          intro row hrow p hp ix hix
          rw [s.valuePool_shape] at hix
          exact (hmem row hrow p hp).2.value ix ⟨(hmem row hrow p hp).1, hix⟩
        simp only [gatherKeys, gatherValues, hkeys, hvalues]

/-- **No call changes what another session reads.** -/
theorem gather_after {s : PagedKVPool α cfg} (hs : s.Sound) (call : Call α) {t : Nat}
    (hne : t ≠ call.slot) (pre : Int) : (s.after call).gather t pre = s.gather t pre := by
  have hframe := after_frame hs call
  refine gather_congr (hframe.lookup t hne) (fun table ht r hr => ?_) pre
  have hr' := subset_otherRows hne ht hr
  refine ⟨hframe.rowPages r hr', fun p hp => ?_⟩
  have hp' : p ∈ (s.otherRows call.slot).flatMap s.rowPages := List.mem_flatMap.mpr ⟨r, hr', hp⟩
  exact ⟨hs.lt_numPages (List.mem_append_right _ (mem_ownedPages hp')), hframe.content p hp'⟩

/-! ## Runs -/

/-- The pool as a machine: every call is possible in every state. -/
def step (s : PagedKVPool α cfg) (call : Call α) : Option (PagedKVPool α cfg) :=
  some (s.after call)

theorem after_of_step {s s' : PagedKVPool α cfg} {call : Call α} (h : step s call = some s') :
    s.after call = s' := Option.some.inj h

/-- The call leaves what every other slot reads unchanged. -/
def Unobserved (s : PagedKVPool α cfg) (call : Call α) : Prop :=
  ∀ t, t ≠ call.slot → ∀ pre, (s.after call).gather t pre = s.gather t pre

/-- **Isolation.**  In a run whose reorders use no negative id, or raise, no page is ever in two
    places, and no call changes what another slot reads. -/
theorem run_isolated (cfg : PoolConfig) (calls : List (Call α))
    (h : AllSteps step SafeIds (new cfg) calls) :
    AllStates step Isolated (new cfg) calls ∧ AllSteps step Unobserved (new cfg) calls := by
  have hsound : AllStates step Sound (new cfg) calls :=
    allStates_of_allSteps (fun s call s' hs hc hstep => after_of_step hstep ▸ after_sound call hs hc)
      new_sound h
  exact ⟨hsound.imp fun s hs => hs.isolated,
    hsound.allSteps fun _ call hs _ hne => gather_after hs call hne⟩

/-! ## A negative id -/

/-- Two sessions, one of them reordered. -/
theorem run_isolated_example :
    AllStates step Isolated (new (tokenConfig 2))
        [.registerSlot 0 1, .registerSlot 1 1, .scatter 0 (tokenKvs 1 1 7) 0, .reorder 0 [0]] ∧
      AllSteps step Unobserved (new (tokenConfig 2))
        [.registerSlot 0 1, .registerSlot 1 1, .scatter 0 (tokenKvs 1 1 7) 0, .reorder 0 [0]] :=
  run_isolated (tokenConfig 2) _ (by decide)

/-- Session 0 writes one token and sends `hypo_ids = [-1]`; session 1 opens. -/
def negatedCalls : List (Call Int) :=
  [.registerSlot 0 1, .scatter 0 (tokenKvs 1 1 7) 0, .reorder 0 [-1], .registerSlot 1 1]

/-- **A negative id breaks isolation**: the page of slot 0 is also free, and the next token of
    slot 1 is written over it. -/
theorem negative_id_not_isolated :
    ¬ AllStates step Isolated (new (tokenConfig 2)) negatedCalls ∧
      ¬ AllSteps step Unobserved (new (tokenConfig 2))
        (negatedCalls ++ [.scatter 1 (tokenKvs 1 1 9) 0]) := by
  refine ⟨by decide, fun h => ?_⟩
  -- the last call is the write of session 1
  have hlast := ((((h.2 _ rfl).2 _ rfl).2 _ rfl).2 _ rfl).1
  exact absurd (hlast 0 (by decide) 1) (by decide)

end Drift.PagedKVPool
