/-
  Conservation of pages across calls that raise.

  `scatter` may run out of pages half way through, and nothing is lost: the pages taken are already
  in rows of the table.  `reorder` puts its copies in place at the very end, so the pages of a
  `reorder` that runs out are in no row and in no free list.  It runs out exactly when the rows of
  the repeated ids have more pages than are free (`pagesToCopy`), and it has then emptied the free
  list; with an empty free list to begin with there was nothing to lose.  `run_conserved_iff` is
  the exact condition for a whole run.
-/
import Drift.Cache.Isolation

namespace Drift.PagedKVPool

variable {α : Type} {cfg : PoolConfig}

/-! ## What a reorder needs -/

/-- The number of pages that `reorder`'s loop copies: those of the rows of repeated ids. -/
def pagesToCopy (s : PagedKVPool α cfg) (blockTable : List Nat) : List Int → List Int → Nat
  | [], _ => 0
  | src :: hypoIds, claimed =>
    if src ∈ claimed then
      ((pyIndex blockTable src).elim 0 fun row => (s.rowPages row).length) +
        s.pagesToCopy blockTable hypoIds claimed
    else s.pagesToCopy blockTable hypoIds (src :: claimed)

theorem pagesToCopy_congr {s s' : PagedKVPool α cfg} {table : List Nat}
    (h : ∀ r ∈ table, s'.rowPages r = s.rowPages r) : ∀ hypoIds claimed : List Int,
    s'.pagesToCopy table hypoIds claimed = s.pagesToCopy table hypoIds claimed
  | [], _ => rfl
  | src :: hypoIds, claimed => by
    have hlen : ((pyIndex table src).elim 0 fun row => (s'.rowPages row).length)
        = (pyIndex table src).elim 0 fun row => (s.rowPages row).length := by
      cases hrow : pyIndex table src with
      | none => rfl
      | some row => exact congrArg List.length (h row (mem_of_pyIndex hrow))
    simp only [pagesToCopy, hlen, pagesToCopy_congr h hypoIds]

/-! ## Ids in range and affordable copies -/

/-- The ids of a `reorder` are in range. -/
def IdsInRange (s : PagedKVPool α cfg) : Call α → Prop
  | .reorder slotId hypoIds => ∀ table ∈ s.blockTables.lookup slotId,
      ∀ id ∈ hypoIds, 0 ≤ id ∧ id < table.length
  | _ => True

instance decidableIdsInRange (s : PagedKVPool α cfg) : ∀ call, Decidable (IdsInRange s call)
  | .reorder slotId hypoIds => inferInstanceAs (Decidable (∀ table ∈ s.blockTables.lookup slotId,
      ∀ id ∈ hypoIds, 0 ≤ id ∧ id < table.length))
  | .registerSlot .. | .freeSlot .. | .gather .. | .scatter .. => isTrue trivial

/-- A `reorder` finds enough free pages for all its copies, or none at all. -/
def Affordable (s : PagedKVPool α cfg) : Call α → Prop
  | .reorder slotId hypoIds => ∀ table ∈ s.blockTables.lookup slotId,
      s.pagesToCopy table hypoIds [] ≤ s.freePages.length ∨ s.freePages = []
  | _ => True

theorem IdsInRange.safeIds {s : PagedKVPool α cfg} {call : Call α} (h : IdsInRange s call) :
    SafeIds s call := by
  cases call with
  | reorder slotId hypoIds => exact fun table ht => Or.inl fun id hid => (h table ht id hid).1
  | _ => trivial

/-- Every page is in exactly one place, and all are free when no slot is registered. -/
def Accounted (s : PagedKVPool α cfg) : Prop :=
  s.Conserved ∧ (s.blockTables.keys = [] → s.numFreePages = cfg.numPages)

instance (s : PagedKVPool α cfg) : Decidable s.Accounted :=
  inferInstanceAs (Decidable (s.Conserved ∧ (s.blockTables.keys = [] → s.numFreePages = cfg.numPages)))

theorem Conserved.accounted {s : PagedKVPool α cfg} (h : s.Conserved) : s.Accounted := by
  refine ⟨h, fun hempty => ?_⟩
  have hentries : s.blockTables.entries = [] := List.map_eq_nil_iff.mp hempty
  have howned : s.ownedPages = [] := by
    rw [ownedPages, tableRows, hentries]
    rfl
  have hlen := h.length_eq
  rw [footprint, howned, List.append_nil, List.length_range] at hlen
  exact hlen

variable [Zero α]

/-- **The loop of `reorder`** over ids in range returns when it can afford all copies, and
    otherwise uses up the free list. -/
theorem reorderRows_total {table : List Nat} : ∀ (hypoIds claimed : List Int)
    (s : PagedKVPool α cfg), (∀ r ∈ table, r < s.rows.length) →
    (∀ id ∈ hypoIds, 0 ≤ id ∧ id < table.length) →
    (s.pagesToCopy table hypoIds claimed ≤ s.freePages.length ∧
      ∃ r s', reorderRows table hypoIds claimed s = .ok r s') ∨
    (s.freePages.length < s.pagesToCopy table hypoIds claimed ∧
      ∃ e s', reorderRows table hypoIds claimed s = .error e s' ∧ s'.freePages = [])
  | [], claimed, s, _, _ => Or.inl ⟨Nat.zero_le _, ([], claimed), s, rfl⟩
  | src :: hypoIds, claimed, s, htab, hids => by
    have hids' : ∀ id ∈ hypoIds, 0 ≤ id ∧ id < table.length := fun id hid =>
      hids id (List.mem_cons_of_mem src hid)
    obtain ⟨n, rfl⟩ := Int.eq_ofNat_of_zero_le (hids src List.mem_cons_self).1
    have hn : n < table.length := by exact_mod_cast (hids n List.mem_cons_self).2
    have hrow : pyIndex table (n : Int) = some table[n] := by
      rw [pyIndex_natCast, List.getElem?_eq_getElem hn]
    rw [reorderRows]
    rcases takeRow_cases table claimed n s with
      ⟨hnone, _⟩ | ⟨row, hrow', ⟨hsrc, ht⟩ | ⟨hsrc, hle, copied, s₁, hc, ht⟩ |
        ⟨hsrc, hlt, taken, s₁, _, hnil, ht⟩⟩
    · rw [hrow] at hnone
      cases hnone
    · -- reused in place
      rw [bind_of_ok ht]
      rcases reorderRows_total hypoIds (n :: claimed) s htab hids' with
        ⟨hle, r, s', h⟩ | ⟨hlt, e, s', h, hnil⟩
      · exact Or.inl ⟨by rwa [pagesToCopy, if_neg hsrc], _, s', bind_of_ok h⟩
      · exact Or.inr ⟨by rwa [pagesToCopy, if_neg hsrc], e, s', bind_of_error h, hnil⟩
    · -- copied
      have htab' : ∀ r ∈ table, r < s₁.rows.length := fun r hr => by
        rw [hc.took.rows, List.length_append]
        exact Nat.lt_add_right _ (htab r hr)
      have hcost := pagesToCopy_congr (fun r hr => hc.took.rowPages (htab r hr)) hypoIds claimed
      have hfree := hc.took.freePages.length_eq
      rw [List.length_append, hc.length_eq] at hfree
      rw [bind_of_ok ht]
      have hsplit : s.pagesToCopy table (n :: hypoIds) claimed
          = (s.rowPages row).length + s₁.pagesToCopy table hypoIds claimed := by
        rw [pagesToCopy, if_pos hsrc, hrow', hcost]
        rfl
      rcases reorderRows_total hypoIds claimed s₁ htab' hids' with
        ⟨hle', r, s', h⟩ | ⟨hlt', e, s', h, hnil⟩
      · exact Or.inl ⟨by omega, _, s', bind_of_ok h⟩
      · exact Or.inr ⟨by omega, e, s', bind_of_error h, hnil⟩
    · -- out of pages
      refine Or.inr ⟨?_, _, s₁, bind_of_error ht, hnil⟩
      rw [pagesToCopy, if_pos hsrc, hrow']
      exact Nat.lt_add_right _ hlt

/-! ## One call: the places -/

/-- A `reorder` keeps all pages exactly if it can afford its copies. -/
theorem reorder_conserved_iff {s : PagedKVPool α cfg} {slotId : Nat} {hypoIds : List Int}
    (hs : s.RowsDistinct) (hcons : s.Conserved) (hids : IdsInRange s (.reorder slotId hypoIds)) :
    (finalState (reorder slotId hypoIds s)).Conserved ↔
      Affordable s (.reorder slotId hypoIds) := by
  cases ht : s.blockTables.lookup slotId with
  | none =>
    rw [reorder, bind_get]
    simp only [ht]
    refine iff_of_true hcons fun table h => ?_
    rw [ht] at h
    cases h
  | some table =>
    have hids' := hids table ht
    have hlt : ∀ r ∈ table, r < s.rows.length := fun r hr =>
      hs.lt_length r (subset_tableRows ht hr)
    have haff : Affordable s (.reorder slotId hypoIds) ↔
        s.pagesToCopy table hypoIds [] ≤ s.freePages.length ∨ s.freePages = [] := by
      constructor
      · exact fun h => h table ht
      · intro h table' ht'
        obtain rfl : table = table' := Option.some.inj (ht.symm.trans ht')
        exact h
    rw [haff]
    rcases reorderRows_total hypoIds [] s hlt hids' with
      ⟨hle, ⟨result, claimed⟩, s', h⟩ | ⟨hgt, e, s', h, hnil⟩
    · -- all copies were made: the places are those before
      rw [reorder_of_ok ht h]
      obtain ⟨news, taken, fresh, hR⟩ := reorderRows_ok (fun id hid => (hids' id hid).1) h
      exact iff_of_true ((reorder_footprint hs ht hR).trans hcons) (Or.inl hle)
    · -- it ran out: the places lack the pages it took, which were all the free ones
      rw [reorder_of_error ht h]
      obtain ⟨taken, fresh, htook⟩ := reorderRows_took table hypoIds [] s
      rw [h, finalState_error] at htook
      have hlost := (htook.footprint hs).length_eq
      have hall := hcons.length_eq
      have hfree := htook.freePages.length_eq
      rw [hnil, List.nil_append] at hfree
      rw [List.length_append] at hlost
      constructor
      · intro hcons'
        have := hcons'.length_eq
        rw [finalState_error] at this
        exact Or.inr (List.eq_nil_of_length_eq_zero (by omega))
      · rintro (hle | hfree')
        · omega
        · have htaken : taken = [] := by
            refine List.eq_nil_of_length_eq_zero ?_
            rw [← hfree, hfree']
            rfl
          have hperm := htook.footprint hs
          rw [htaken, List.append_nil] at hperm
          exact hperm.trans hcons

/-- **A call keeps all pages exactly if it is affordable.** -/
theorem after_conserved_iff {s : PagedKVPool α cfg} {call : Call α} (hs : s.RowsDistinct)
    (hcons : s.Conserved) (hids : IdsInRange s call) :
    (s.after call).Conserved ↔ Affordable s call := by
  cases call with
  | registerSlot slotId batchSize =>
    exact iff_of_true ((List.Perm.of_eq (registerSlot_footprint hs)).trans hcons) trivial
  | freeSlot slotId => exact iff_of_true ((freeSlot_footprint slotId s).trans hcons) trivial
  | reorder slotId hypoIds => exact reorder_conserved_iff hs hcons hids
  | gather slotId pre =>
    rw [after_gather]
    exact iff_of_true hcons trivial
  | scatter slotId newKvs pre =>
    exact iff_of_true ((scatter_owners hs slotId newKvs pre).2.trans hcons) trivial

/-! ## Runs -/

theorem new_conserved : (new cfg : PagedKVPool α cfg).Conserved :=
  .of_eq (List.append_nil _)

/-- **Conservation.**  In a run whose reorders use ids in range, every page is accounted for in
    every state exactly if every `reorder` finds enough free pages for its copies, or none. -/
theorem run_conserved_iff (cfg : PoolConfig) (calls : List (Call α))
    (h : AllSteps step IdsInRange (new cfg) calls) :
    AllStates step Accounted (new cfg) calls ↔ AllSteps step Affordable (new cfg) calls := by
  have hrows : AllStates step RowsDistinct (new cfg) calls :=
    allStates_of_allSteps (fun s call s' hs hc hstep => by
      rw [← after_of_step hstep]
      exact (after_owners hs hc.safeIds).1) new_sound.rowsDistinct h
  have hnone : ∀ (s : PagedKVPool α cfg) call, step s call = none → Affordable s call :=
    fun _ _ h => nomatch h
  have hiff := allStates_iff_allSteps (P := fun s : PagedKVPool α cfg => s.RowsDistinct ∧ s.Conserved)
    (C := Affordable) (fun s call s' hs hids hstep => by
      rw [← after_of_step hstep]
      have hrows' := (after_owners hs.1 hids.safeIds).1
      rw [and_iff_right hrows']
      exact after_conserved_iff hs.1 hs.2 hids)
    hnone ⟨new_sound.rowsDistinct, new_conserved⟩ h
  rw [← hiff]
  constructor
  · exact fun hacc => hrows.and (hacc.imp fun s hs => hs.1)
  · exact fun hacc => hacc.imp fun s hs => hs.2.accounted

theorem run_conserved_iff_example :
    AllStates step Accounted (new (tokenConfig 3))
        [.registerSlot 0 2, .scatter 0 (tokenKvs 2 1 7) 0, .reorder 0 [1, 1]] ↔
      AllSteps step Affordable (new (tokenConfig 3))
        [.registerSlot 0 2, .scatter 0 (tokenKvs 2 1 7) 0, .reorder 0 [1, 1]] :=
  run_conserved_iff (tokenConfig 3) _ (by decide)

/-- **Running out half way**: of five pages four are in use; copying a row of two takes the fifth
    and raises, and the page is gone for good, also after the session is closed. -/
theorem reorder_loses_page :
    ¬ AllStates step Accounted (new (tokenConfig 5))
      [.registerSlot 0 2, .scatter 0 (tokenKvs 2 2 7) 0, .reorder 0 [0, 0], .freeSlot 0] := by
  decide +kernel

end Drift.PagedKVPool
