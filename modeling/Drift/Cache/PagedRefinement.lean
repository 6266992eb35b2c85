/-
  The paged pool refines the contiguous cache.

  The abstract side keeps for every slot the cache tensors of `StandardGQACache`, written by
  `update_cache` and reordered in place; the concrete side is the page pool.  Both perform the same
  calls (`pairStep`).  The relation between them (`Represents`) says that every row of every block
  table has pages for the current length and holds, token by token, what the contiguous cache
  holds; what stands behind the current length on either side is not compared.  Every call keeps it
  (`pairStep_represents`), and under it `gather` is `select_layer_past` (`gather_of_holds`).
-/
import Mathlib.Logic.Function.Basic
import Drift.Cache.PagedGather
import Drift.Cache.ContiguousCache

namespace Drift.PagedKVPool

open StandardGQACache

variable {α : Type} [Zero α] {cfg : PoolConfig}

/-! ## The contiguous side -/

/-- The contiguous cache of one slot. -/
structure ContiguousSlot (α : Type) where
  batchSize : Nat
  /-- The current length: the length of the last write. -/
  length : Nat
  cacheTensors : List (KVPair α)

/-- The contiguous caches of all slots. -/
abbrev ContiguousSlots (α : Type) := Nat → Option (ContiguousSlot α)

/-- A zeroed cache of `max_length` tokens. -/
def ContiguousSlot.new (cfg : PoolConfig) (maxLength batchSize : Nat) : ContiguousSlot α where
  batchSize := batchSize
  length := 0
  cacheTensors := [(Tensor.zeros [batchSize, cfg.numKvHeads, cfg.kHeadDim, maxLength],
    Tensor.zeros [batchSize, cfg.numKvHeads, maxLength, cfg.vHeadDim])]

/-- A call on the contiguous caches; `none` when it raises. -/
def performContiguous (cfg : PoolConfig) (maxLength : Nat) (slots : ContiguousSlots α) :
    Call α → Option (ContiguousSlots α)
  | .registerSlot slotId batchSize =>
    match slots slotId with
    | some _ => some slots
    | none => some (Function.update slots slotId (some (.new cfg maxLength batchSize)))
  | .freeSlot slotId => some (Function.update slots slotId none)
  | .reorder slotId hypoIds => do
    let slot ← slots slotId
    let cacheTensors ← reorderCache hypoIds slot.cacheTensors
    some (Function.update slots slotId (some { slot with cacheTensors := cacheTensors }))
  | .gather _ _ => some slots
  | .scatter slotId newKvs prefixLength => do
    let slot ← slots slotId
    let newLength ← newKvs.1.shape.getLast?
    let cacheTensors ← updateCache slot.cacheTensors [newKvs] prefixLength
    some (Function.update slots slotId (some { slot with
      length := if (newLength : Int) ≤ prefixLength then slot.length else newLength
      cacheTensors := cacheTensors }))

/-- The calls under consideration: writes start inside the current length and fit the contiguous
    cache; reorders have batch-many ids in range. -/
def Admissible (maxLength : Nat) (slots : ContiguousSlots α) : Call α → Prop
  | .reorder slotId hypoIds => ∀ slot ∈ slots slotId,
      hypoIds.length = slot.batchSize ∧ ∀ id ∈ hypoIds, 0 ≤ id ∧ id < slot.batchSize
  | .scatter slotId newKvs prefixLength => ∀ slot ∈ slots slotId,
      0 ≤ prefixLength ∧ prefixLength ≤ slot.length ∧
        ∀ newLength ∈ newKvs.1.shape.getLast?, newLength ≤ maxLength
  | _ => True

instance decidableAdmissible (maxLength : Nat) (slots : ContiguousSlots α) :
    ∀ call, Decidable (Admissible maxLength slots call)
  | .reorder slotId hypoIds => inferInstanceAs (Decidable (∀ slot ∈ slots slotId,
      hypoIds.length = slot.batchSize ∧ ∀ id ∈ hypoIds, 0 ≤ id ∧ id < slot.batchSize))
  | .scatter slotId newKvs prefixLength => inferInstanceAs (Decidable (∀ slot ∈ slots slotId,
      0 ≤ prefixLength ∧ prefixLength ≤ slot.length ∧
        ∀ newLength ∈ newKvs.1.shape.getLast?, newLength ≤ maxLength))
  | .registerSlot .. | .freeSlot .. | .gather .. => isTrue trivial

/-- Both sides perform a call, successfully. -/
def pairStep (maxLength : Nat) (s : PagedKVPool α cfg × ContiguousSlots α) (call : Call α) :
    Option (PagedKVPool α cfg × ContiguousSlots α) :=
  match call.perform s.1 with
  | .error _ _ => none
  | .ok _ pool => (performContiguous cfg maxLength s.2 call).map fun slots => (pool, slots)

/-! ## The relation -/

/-- A row holds the first `n` tokens of row `i` of the cache tensors. -/
structure RowHolds (s : PagedKVPool α cfg) (row n i : Nat) (key value : Tensor α) : Prop where
  covers : n ≤ (s.rowPages row).length * cfg.pageSize
  key : ∀ g d t, g < cfg.numKvHeads → d < cfg.kHeadDim → t < n →
    s.keyAt row g d t = key.get [i, g, d, t]
  value : ∀ g d t, g < cfg.numKvHeads → d < cfg.vHeadDim → t < n →
    s.valueAt row g d t = value.get [i, g, t, d]

/-- A block table holds what the contiguous cache of its slot holds. -/
structure Holds (maxLength : Nat) (s : PagedKVPool α cfg) (table : List Nat)
    (slot : ContiguousSlot α) (key value : Tensor α) : Prop where
  cacheTensors : slot.cacheTensors = [(key, value)]
  length_table : table.length = slot.batchSize
  length_le : slot.length ≤ maxLength
  nonempty : 0 < slot.length → table ≠ []
  key_shape : key.shape = [table.length, cfg.numKvHeads, cfg.kHeadDim, maxLength]
  value_shape : value.shape = [table.length, cfg.numKvHeads, maxLength, cfg.vHeadDim]
  row : ∀ i (hi : i < table.length), RowHolds s table[i] slot.length i key value

/-- **The representation relation.** -/
structure Represents (maxLength : Nat) (s : PagedKVPool α cfg) (slots : ContiguousSlots α) :
    Prop where
  sound : s.Sound
  slot_none : ∀ slotId, s.blockTables.lookup slotId = none → slots slotId = none
  slot_some : ∀ slotId table, s.blockTables.lookup slotId = some table →
    ∃ slot key value, slots slotId = some slot ∧ Holds maxLength s table slot key value

/-- A slot with a contiguous cache has a block table that holds it. -/
theorem Represents.exists_table {maxLength handle : Nat} {s : PagedKVPool α cfg}
    {slots : ContiguousSlots α} {slot : ContiguousSlot α} (hrep : Represents maxLength s slots)
    (hslot : slots handle = some slot) :
    ∃ table key value, s.blockTables.lookup handle = some table ∧
      Holds maxLength s table slot key value := by
  cases ht : s.blockTables.lookup handle with
  | none =>
    rw [hrep.slot_none handle ht] at hslot
    nomatch hslot
  | some table =>
    obtain ⟨slot', key, value, hslot', hh⟩ := hrep.slot_some handle table ht
    obtain rfl := Option.some.inj (hslot.symm.trans hslot')
    exact ⟨table, key, value, rfl, hh⟩

theorem RowHolds.of_sameRow {s s' : PagedKVPool α cfg} {row row' n i : Nat}
    {key value : Tensor α} (h : RowHolds s row n i key value) (hsame : SameRow s row s' row')
    (hlt : ∀ p ∈ s'.rowPages row', p < cfg.numPages) : RowHolds s' row' n i key value where
  covers := Nat.le_trans h.covers (Nat.mul_le_mul_right _ hsame.length_le)
  key g d t hg hd ht :=
    (hsame.keyAt hlt hg hd (Nat.lt_of_lt_of_le ht h.covers)).trans (h.key g d t hg hd ht)
  value g d t hg hd ht :=
    (hsame.valueAt hlt hg hd (Nat.lt_of_lt_of_le ht h.covers)).trans (h.value g d t hg hd ht)

/-- The rows of the other slots, seen from after a call. -/
theorem Frame.sameRow {slotId : Nat} {s s' : PagedKVPool α cfg} (h : Frame slotId s s')
    {row : Nat} (hr : row ∈ s.otherRows slotId) : SameRow s row s' row := by
  have hrow := h.rowPages row hr
  refine ⟨by rw [hrow], fun i hi => ?_⟩
  rw [hrow]
  exact h.content _ (List.mem_flatMap.mpr ⟨row, hr, getD_mem hi⟩)

/-- A call keeps what it says about the other slots. -/
theorem Holds.of_frame {maxLength slotId t : Nat} {s s' : PagedKVPool α cfg} {table : List Nat}
    {slot : ContiguousSlot α} {key value : Tensor α} (hs : s.Sound) (h : Frame slotId s s')
    (hne : t ≠ slotId) (ht : s.blockTables.lookup t = some table)
    (hh : Holds maxLength s table slot key value) : Holds maxLength s' table slot key value where
  cacheTensors := hh.cacheTensors
  length_table := hh.length_table
  length_le := hh.length_le
  nonempty := hh.nonempty
  key_shape := hh.key_shape
  value_shape := hh.value_shape
  row i hi := by
    have hr := subset_otherRows hne ht (List.getElem_mem hi)
    refine (hh.row i hi).of_sameRow (h.sameRow hr) fun p hp => ?_
    rw [h.rowPages _ hr] at hp
    exact hs.row_lt ht (List.getElem_mem hi) p hp

/-- It is enough to look at the slot that a call names. -/
theorem Represents.of_frame {maxLength slotId : Nat} {s s' : PagedKVPool α cfg}
    {slots slots' : ContiguousSlots α} (hrep : Represents maxLength s slots)
    (hframe : Frame slotId s s') (hs' : s'.Sound) (hslots : ∀ t, t ≠ slotId → slots' t = slots t)
    (hnone : s'.blockTables.lookup slotId = none → slots' slotId = none)
    (hsome : ∀ table, s'.blockTables.lookup slotId = some table →
      ∃ slot key value, slots' slotId = some slot ∧ Holds maxLength s' table slot key value) :
    Represents maxLength s' slots' where
  sound := hs'
  slot_none t ht := by
    by_cases hne : t = slotId
    · subst hne
      exact hnone ht
    · rw [hslots t hne]
      exact hrep.slot_none t (hframe.lookup t hne ▸ ht)
  slot_some t table ht := by
    by_cases hne : t = slotId
    · subst hne
      exact hsome table ht
    · rw [hframe.lookup t hne] at ht
      obtain ⟨slot, key, value, hslot, hh⟩ := hrep.slot_some t table ht
      exact ⟨slot, key, value, (hslots t hne).trans hslot, hh.of_frame hrep.sound hframe hne ht⟩

/-! ## One call -/

/-- What a call that returned leaves: the pool after it. -/
theorem after_of_perform {s s' : PagedKVPool α cfg} (call : Call α)
    (h : call.perform s = .ok () s') : s.after call = s' := by
  rw [after, h]
  rfl

theorem registerSlot_represents {maxLength slotId batchSize : Nat} {s : PagedKVPool α cfg}
    {slots slots' : ContiguousSlots α} (hrep : Represents maxLength s slots)
    (h : performContiguous cfg maxLength slots (.registerSlot slotId batchSize) = some slots') :
    Represents maxLength (registerSlot slotId batchSize s) slots' := by
  have hframe := registerSlot_frame slotId batchSize hrep.sound.rowsDistinct
  have hsound : (registerSlot slotId batchSize s).Sound :=
    after_sound (.registerSlot slotId batchSize) hrep.sound trivial
  cases ht : s.blockTables.lookup slotId with
  | some table =>
    -- registered already: nothing happens on either side
    obtain ⟨slot, key, value, hslot, -⟩ := hrep.slot_some slotId table ht
    have hmem : slotId ∈ s.blockTables := AList.lookup_isSome.mp (by rw [ht]; rfl)
    simp only [performContiguous, hslot] at h
    obtain rfl := Option.some.inj h
    rw [registerSlot, if_pos hmem]
    exact hrep
  | none =>
    have hslot := hrep.slot_none slotId ht
    have hmem : slotId ∉ s.blockTables := AList.lookup_eq_none.mp ht
    simp only [performContiguous, hslot] at h
    obtain rfl := Option.some.inj h
    have hlook : (registerSlot slotId batchSize s).blockTables.lookup slotId
        = some (List.range' s.rows.length batchSize) := by
      rw [registerSlot, if_neg hmem]
      exact AList.lookup_insert _
    refine hrep.of_frame hframe hsound (fun t hne => Function.update_of_ne hne _ _) ?_ ?_
    · rw [hlook]
      exact fun h => by cases h
    · intro table htable
      obtain rfl := Option.some.inj (hlook.symm.trans htable)
      refine ⟨_, _, _, Function.update_self _ _ _, rfl, List.length_range', Nat.zero_le _,
        fun h => absurd h (Nat.lt_irrefl 0), ?_, ?_, fun i hi => ⟨Nat.zero_le _, ?_, ?_⟩⟩
      · rw [List.length_range']
        rfl
      · rw [List.length_range']
        rfl
      · exact fun g d t _ _ ht => absurd ht (Nat.not_lt_zero t)
      · exact fun g d t _ _ ht => absurd ht (Nat.not_lt_zero t)

theorem freeSlot_represents {maxLength slotId : Nat} {s : PagedKVPool α cfg}
    {slots : ContiguousSlots α} (hrep : Represents maxLength s slots) :
    Represents maxLength (freeSlot slotId s) (Function.update slots slotId none) := by
  have hsound : (freeSlot slotId s).Sound :=
    after_sound (.freeSlot slotId) hrep.sound trivial
  have hlook : (freeSlot slotId s).blockTables.lookup slotId = none := by
    rw [freeSlot]
    split
    · assumption
    · exact AList.lookup_erase slotId _
  refine hrep.of_frame (freeSlot_frame slotId s) hsound
    (fun t hne => Function.update_of_ne hne _ _) (fun _ => Function.update_self _ _ _) ?_
  rw [hlook]
  exact fun _ h => by cases h

/-- A row of a reordered table holds the row of the reordered cache. -/
theorem RowHolds.reorder {s s' : PagedKVPool α cfg} {row row' n i j : Nat}
    {key value key' value' : Tensor α} (h : RowHolds s row n j key value)
    (hsame : SameRow s row s' row') (hlt : ∀ p ∈ s'.rowPages row', p < cfg.numPages)
    (hkey : ∀ g d t, g < cfg.numKvHeads → d < cfg.kHeadDim → t < n →
      key'.get [i, g, d, t] = key.get [j, g, d, t])
    (hvalue : ∀ g d t, g < cfg.numKvHeads → d < cfg.vHeadDim → t < n →
      value'.get [i, g, t, d] = value.get [j, g, t, d]) : RowHolds s' row' n i key' value' := by
  have hold := h.of_sameRow hsame hlt
  exact ⟨hold.covers,
    fun g d t hg hd ht => (hold.key g d t hg hd ht).trans (hkey g d t hg hd ht).symm,
    fun g d t hg hd ht => (hold.value g d t hg hd ht).trans (hvalue g d t hg hd ht).symm⟩

theorem reorder_represents {maxLength slotId : Nat} {hypoIds : List Int}
    {s s' : PagedKVPool α cfg} {slots slots' : ContiguousSlots α}
    (hrep : Represents maxLength s slots)
    (hadm : Admissible maxLength slots (.reorder slotId hypoIds))
    (h : reorder slotId hypoIds s = .ok () s')
    (h' : performContiguous cfg maxLength slots (.reorder slotId hypoIds) = some slots') :
    Represents maxLength s' slots' := by
  cases ht : s.blockTables.lookup slotId with
  | none =>
    rw [reorder, bind_get] at h
    simp only [ht] at h
    cases h
  | some table =>
    obtain ⟨slot, key, value, hslot, hh⟩ := hrep.slot_some slotId table ht
    obtain ⟨hlen, hids⟩ := hadm slot hslot
    have hframe := reorder_frame hrep.sound slotId hypoIds
    have hsound : s'.Sound := by
      rw [← after_of_perform (.reorder slotId hypoIds) h]
      exact after_sound _ hrep.sound fun _ _ => Or.inl fun id hid => (hids id hid).1
    rw [h] at hframe
    rcases reorder_cases ht hypoIds with
      ⟨e, _, _, _, _, he, -⟩ | ⟨result, claimed, s₁, _, _, -, hrows, hok⟩
    · rw [he] at h
      cases h
    · rw [hok] at h
      obtain ⟨-, rfl⟩ := EStateM.Result.ok.inj h
      rw [← hh.length_table] at hlen hids
      -- the contiguous side
      obtain ⟨key', hkey', hkshape, hkget⟩ := reorderTensor_spec hh.key_shape hlen hids
      obtain ⟨value', hvalue', hvshape, hvget⟩ := reorderTensor_spec hh.value_shape hlen hids
      simp only [performContiguous, hslot, hh.cacheTensors, reorderCache_single, reorderShard,
        hkey', hvalue', Option.bind_eq_bind, Option.bind_some, Option.map_some] at h'
      obtain rfl := Option.some.inj h'
      -- the paged side
      have hfree : FreeOk s := ⟨(List.nodup_append.mp hrep.sound.isolated).1,
        fun p hp => hrep.sound.lt_numPages (List.mem_append_left _ hp)⟩
      have hread : ∀ r ∈ table, Readable s r := fun r hr =>
        ⟨hrep.sound.rowsDistinct.lt_length r (subset_tableRows ht hr),
          fun p hp => hrep.sound.isolated.not_free
            (table_owned ht (List.mem_flatMap.mpr ⟨r, hr, hp⟩)),
          hrep.sound.row_lt ht hr⟩
      have hresult := reorderRows_sameRow hfree hread hrows
      have hreslen := hresult.length_eq
      have hlook : (s₁.blockTables.insert slotId result).lookup slotId = some result :=
        AList.lookup_insert _
      refine hrep.of_frame hframe hsound (fun t hne => Function.update_of_ne hne _ _) ?_ ?_
      · intro hnone
        cases hlook.symm.trans hnone
      · intro table' ht'
        obtain rfl := Option.some.inj (hlook.symm.trans ht')
        refine ⟨_, key', value', Function.update_self _ _ _, rfl, ?_, hh.length_le, ?_, ?_, ?_, ?_⟩
        · rw [← hreslen, hlen, hh.length_table]
        · intro hpos hnil
          refine hh.nonempty hpos (List.eq_nil_of_length_eq_zero ?_)
          rw [← hlen, hreslen, hnil]
          rfl
        · rw [hkshape, hh.key_shape, ← hreslen, hlen]
        · rw [hvshape, hh.value_shape, ← hreslen, hlen]
        · intro i hi
          have hi' : i < hypoIds.length := hreslen ▸ hi
          obtain ⟨row, hrow, hread', hsame⟩ := List.forall₂_iff_get.mp hresult |>.2 i hi' hi
          obtain ⟨j, hj, hjlt, hjrow⟩ := pyIndex_of_nonneg (hids _ (List.get_mem _ _)).1 hrow
          have hjget : (hypoIds.map Int.toNat).getD i 0 = j := by
            have : hypoIds[i] = (j : Int) := hj
            simp [List.getD_eq_getElem?_getD, hi', this]
          rw [List.getD_eq_getElem _ _ hjlt] at hjrow
          subst hjrow
          refine (hh.row j hjlt).reorder ⟨hsame.length_le, fun k hk =>
            ⟨(hsame.content k hk).key, (hsame.content k hk).value⟩⟩ hread'.lt_numPages ?_ ?_
          · intro g d t hg hd htn
            rw [hkget i [g, d, t] ?_, hjget]
            rw [hh.key_shape]
            exact ⟨hlen ▸ hi', hg, hd, Nat.lt_of_lt_of_le htn hh.length_le, trivial⟩
          · intro g d t hg hd htn
            rw [hvget i [g, t, d] ?_, hjget]
            rw [hh.value_shape]
            exact ⟨hlen ▸ hi', hg, Nat.lt_of_lt_of_le htn hh.length_le, hd, trivial⟩

/-- The values that a row holds do not depend on the length that is looked at. -/
theorem RowHolds.of_get {s : PagedKVPool α cfg} {row n i maxLength b : Nat}
    {key value key' value' : Tensor α} (h : RowHolds s row n i key value) (hi : i < b)
    (hn : n ≤ maxLength) (hkshape : key.shape = [b, cfg.numKvHeads, cfg.kHeadDim, maxLength])
    (hvshape : value.shape = [b, cfg.numKvHeads, maxLength, cfg.vHeadDim])
    (hkey : ∀ ix, InBounds key.shape ix → key'.get ix = key.get ix)
    (hvalue : ∀ ix, InBounds value.shape ix → value'.get ix = value.get ix) :
    RowHolds s row n i key' value' where
  covers := h.covers
  key g d t hg hd ht := by
    rw [hkey _ (hkshape ▸ ⟨hi, hg, hd, Nat.lt_of_lt_of_le ht hn, trivial⟩)]
    exact h.key g d t hg hd ht
  value g d t hg hd ht := by
    rw [hvalue _ (hvshape ▸ ⟨hi, hg, Nat.lt_of_lt_of_le ht hn, hd, trivial⟩)]
    exact h.value g d t hg hd ht

/-- `scatter` returns only for a registered slot and a key tensor with a last axis. -/
theorem scatter_ok_cases {s s' : PagedKVPool α cfg} {slotId : Nat} {newKvs : Tensor α × Tensor α}
    {pre : Int} (h : scatter slotId newKvs pre s = .ok () s') :
    ∃ table n, s.blockTables.lookup slotId = some table ∧ newKvs.1.shape.getLast? = some n ∧
      ((n : Int) ≤ pre → s' = s) := by
  rw [scatter, bind_get] at h
  cases ht : s.blockTables.lookup slotId with
  | none =>
    simp only [ht] at h
    cases h
  | some table =>
    simp only [ht] at h
    cases hn : newKvs.1.shape.getLast? with
    | none =>
      simp only [hn] at h
      cases h
    | some n =>
      refine ⟨table, n, rfl, rfl, fun hle => ?_⟩
      simp only [hn, if_pos hle] at h
      exact (EStateM.Result.ok.inj h).2.symm

theorem scatter_represents {maxLength slotId : Nat} {newKvs : Tensor α × Tensor α} {pre : Int}
    {s s' : PagedKVPool α cfg} {slots slots' : ContiguousSlots α}
    (hrep : Represents maxLength s slots)
    (hadm : Admissible maxLength slots (.scatter slotId newKvs pre))
    (h : scatter slotId newKvs pre s = .ok () s')
    (h' : performContiguous cfg maxLength slots (.scatter slotId newKvs pre) = some slots') :
    Represents maxLength s' slots' := by
  obtain ⟨table, n, ht, hn, hstay⟩ := scatter_ok_cases h
  obtain ⟨slot, key, value, hslot, hh⟩ := hrep.slot_some slotId table ht
  obtain ⟨hpre, hle, hfits⟩ := hadm slot hslot
  obtain ⟨p, rfl⟩ := Int.eq_ofNat_of_zero_le hpre
  have hp : p ≤ slot.length := by exact_mod_cast hle
  have hnL : n ≤ maxLength := hfits n hn
  have hframe := scatter_frame_other hrep.sound slotId newKvs p
  rw [h] at hframe
  have hsound : s'.Sound := by
    rw [← after_of_perform (.scatter slotId newKvs p) h]
    exact after_sound _ hrep.sound trivial
  have hlook : s'.blockTables.lookup slotId = some table := by
    obtain ⟨s₁, hgrown, hwrote⟩ := scatter_frame hrep.sound.rowsDistinct ht newKvs p
    rw [h] at hwrote
    rw [← ht, ← hgrown.blockTables, ← hwrote.blockTables]
    rfl
  -- the contiguous side
  simp only [performContiguous, hslot, hh.cacheTensors, updateCache_single, hn,
    Option.bind_eq_bind, Option.bind_some, Option.bind_eq_some_iff, Option.map_eq_some_iff] at h'
  obtain ⟨_, ⟨⟨key', value'⟩, hupdate, rfl⟩, h'⟩ := h'
  obtain rfl := Option.some.inj h'
  refine hrep.of_frame hframe hsound (fun t hne => Function.update_of_ne hne _ _) ?_ ?_
  · intro hnone
    exact nomatch hlook.symm.trans hnone
  · intro table' ht'
    obtain rfl := Option.some.inj (hlook.symm.trans ht')
    by_cases hnp : n ≤ p
    · -- no new tokens
      obtain rfl := hstay (by exact_mod_cast hnp)
      obtain ⟨⟨hkshape, hkget⟩, hvshape, hvget⟩ := updateShard_empty hnp hupdate
      refine ⟨_, key', value', Function.update_self _ _ _, rfl, hh.length_table, ?_, ?_,
        hkshape.trans hh.key_shape, hvshape.trans hh.value_shape, fun i hi => ?_⟩
      · simpa [hnp] using hh.length_le
      · simpa [hnp] using hh.nonempty
      · have hrow := (hh.row i hi).of_get hi hh.length_le hh.key_shape hh.value_shape hkget hvget
        simpa [hnp] using hrow
    · have hpn : p < n := Nat.lt_of_not_le hnp
      have hcov : ∀ r ∈ table, p ≤ (s.rowPages r).length * cfg.pageSize := by
        intro r hr
        obtain ⟨i, hi, rfl⟩ := List.mem_iff_getElem.mp hr
        exact Nat.le_trans hp (hh.row i hi).covers
      obtain ⟨hne, hk, hv, htokens⟩ := scatter_tokens hrep.sound ht hn hpn hcov h
      obtain ⟨key₁, hkey₁, hkshape, hkget⟩ := updateKey_spec hh.key_shape hk (Nat.le_of_lt hpn) hnL
      obtain ⟨value₁, hvalue₁, hvshape, hvget⟩ :=
        updateValue_spec hh.value_shape hv (Nat.le_of_lt hpn) hnL
      have hcache : (key', value') = (key₁, value₁) := by
        rw [updateShard, hkey₁, hvalue₁] at hupdate
        exact (Option.some.inj hupdate).symm
      obtain ⟨rfl, rfl⟩ := Prod.mk.inj hcache
      have hlen : (if (n : Int) ≤ (p : Int) then slot.length else n) = n :=
        if_neg (by exact_mod_cast hnp)
      refine ⟨_, key', value', Function.update_self _ _ _, rfl, hh.length_table, ?_, fun _ => hne,
        hkshape.trans hh.key_shape, hvshape.trans hh.value_shape, fun i hi => ?_⟩
      · rw [hlen]
        exact hnL
      · rw [hlen]
        obtain ⟨hcover, htoken⟩ := htokens i hi
        refine ⟨hcover, fun g d t hg hd htn => ?_, fun g d t hg hd htn => ?_⟩
        · rw [(htoken g t hg htn).1 d hd, hkget i g d t ?_]
          · by_cases hpt : p ≤ t
            · rw [if_pos hpt, if_pos ⟨hpt, htn⟩]
            · rw [if_neg hpt, if_neg fun hin => hpt hin.1]
              exact (hh.row i hi).key g d t hg hd (by omega)
          · rw [hh.key_shape]
            exact ⟨hi, hg, hd, Nat.lt_of_lt_of_le htn hnL, trivial⟩
        · rw [(htoken g t hg htn).2 d hd, hvget i g t d ?_]
          · by_cases hpt : p ≤ t
            · rw [if_pos hpt, if_pos ⟨hpt, htn⟩]
            · rw [if_neg hpt, if_neg fun hin => hpt hin.1]
              exact (hh.row i hi).value g d t hg hd (by omega)
          · rw [hh.value_shape]
            exact ⟨hi, hg, Nat.lt_of_lt_of_le htn hnL, hd, trivial⟩

/-- **Every call keeps the relation.** -/
theorem pairStep_represents {maxLength : Nat} {s s' : PagedKVPool α cfg × ContiguousSlots α}
    {call : Call α} (hrep : Represents maxLength s.1 s.2)
    (hadm : Admissible maxLength s.2 call) (h : pairStep maxLength s call = some s') :
    Represents maxLength s'.1 s'.2 := by
  rw [pairStep] at h
  cases hperform : call.perform s.1 with
  | error e pool =>
    rw [hperform] at h
    nomatch h
  | ok u pool =>
    rw [hperform] at h
    obtain ⟨slots', hslots, rfl⟩ := Option.map_eq_some_iff.mp h
    have hafter := after_of_perform call hperform
    cases call with
    | registerSlot slotId batchSize => exact hafter ▸ registerSlot_represents hrep hslots
    | freeSlot slotId =>
      obtain rfl := Option.some.inj hslots
      exact hafter ▸ freeSlot_represents hrep
    | reorder slotId hypoIds => exact reorder_represents hrep hadm hperform hslots
    | gather slotId pre =>
      obtain rfl := Option.some.inj hslots
      rw [after_gather] at hafter
      exact hafter ▸ hrep
    | scatter slotId newKvs pre => exact scatter_represents hrep hadm hperform hslots

/-! ## Runs -/

/-- **`gather` is `select_layer_past`** wherever the relation holds. -/
theorem gather_of_holds {maxLength slotId p : Nat} {s : PagedKVPool α cfg} {table : List Nat}
    {slot : ContiguousSlot α} {key value : Tensor α}
    (ht : s.blockTables.lookup slotId = some table)
    (hh : Holds maxLength s table slot key value) (hp : p ≤ slot.length) :
    s.gather slotId p = .ok (selectShard p (key, value)) := by
  have hpL := Nat.le_trans hp hh.length_le
  obtain ⟨hkshape, hkget⟩ := selectShard_key
    (show (key, value).1.shape = _ from hh.key_shape) hpL
  obtain ⟨hvshape, hvget⟩ := selectShard_value
    (show (key, value).2.shape = _ from hh.value_shape) hpL
  rcases Nat.eq_zero_or_pos p with rfl | hpos
  · rw [gather, ht]
    refine congrArg Except.ok (Prod.ext ?_ ?_)
    · refine Tensor.ext_get hkshape.symm fun ix hix => ?_
      obtain ⟨r, d, t, rfl, -, -, h0⟩ := InBounds.exists_three hix
      exact absurd h0 (Nat.not_lt_zero t)
    · refine Tensor.ext_get hvshape.symm fun ix hix => ?_
      obtain ⟨r, t, d, rfl, -, h0, -⟩ := InBounds.exists_three hix
      exact absurd h0 (Nat.not_lt_zero t)
  · have hcov : ∀ r ∈ table, p ≤ (s.rowPages r).length * cfg.pageSize := by
      intro r hr
      obtain ⟨i, hi, rfl⟩ := List.mem_iff_getElem.mp hr
      exact Nat.le_trans hp (hh.row i hi).covers
    obtain ⟨keys, values, hgather, hkeys, hvalues, hget⟩ :=
      gather_spec ht hpos (hh.nonempty (Nat.lt_of_lt_of_le hpos hp)) hcov
    have hrow : ∀ r, r < table.length * cfg.numKvHeads → r / cfg.numKvHeads < table.length :=
      fun r hr => Nat.div_lt_of_lt_mul (by rwa [Nat.mul_comm])
    rw [hgather]
    refine congrArg Except.ok (Prod.ext ?_ ?_)
    · refine Tensor.ext_get (hkeys.trans hkshape.symm) fun ix hix => ?_
      rw [hkeys] at hix
      obtain ⟨r, d, t, rfl, hr, hd, htp⟩ := InBounds.exists_three hix
      rw [(hget r t (hrow r hr) hr htp).1 d hd, hkget r d t hr hd htp]
      exact (hh.row _ (hrow r hr)).key _ d t (mod_heads_lt hr) hd (Nat.lt_of_lt_of_le htp hp)
    · refine Tensor.ext_get (hvalues.trans hvshape.symm) fun ix hix => ?_
      rw [hvalues] at hix
      obtain ⟨r, t, d, rfl, hr, htp, hd⟩ := InBounds.exists_three hix
      rw [(hget r t (hrow r hr) hr htp).2 d hd, hvget r d t hr hd htp]
      exact (hh.row _ (hrow r hr)).value _ d t (mod_heads_lt hr) hd (Nat.lt_of_lt_of_le htp hp)

/-- For every slot and every prefix up to its current length, `gather` returns what
    `select_layer_past` returns. -/
def GathersContiguous (s : PagedKVPool α cfg) (slots : ContiguousSlots α) : Prop :=
  ∀ slotId slot, slots slotId = some slot → ∀ p : Nat, p ≤ slot.length →
    (s.gather slotId p).map (fun kv => [kv]) = .ok (selectLayerPast slot.cacheTensors p)

theorem Represents.gathersContiguous {maxLength : Nat} {s : PagedKVPool α cfg}
    {slots : ContiguousSlots α} (hrep : Represents maxLength s slots) :
    GathersContiguous s slots := by
  intro slotId slot hslot p hp
  obtain ⟨table, key, value, ht, hh⟩ := hrep.exists_table hslot
  rw [gather_of_holds ht hh hp, hh.cacheTensors]
  rfl

theorem new_represents (maxLength : Nat) :
    Represents maxLength (new cfg : PagedKVPool α cfg) fun _ => none :=
  ⟨new_sound, fun _ _ => rfl, fun _ _ h => nomatch h⟩

/-- **The paged pool refines the contiguous cache**: along every run of successful admissible
    calls, in every state, `gather` is `select_layer_past`. -/
theorem run_gathersContiguous (cfg : PoolConfig) (maxLength : Nat) (calls : List (Call α))
    (h : AllSteps (pairStep maxLength) (fun s call => Admissible maxLength s.2 call)
      ((new cfg, fun _ => none) : PagedKVPool α cfg × ContiguousSlots α) calls) :
    AllStates (pairStep maxLength) (fun s => GathersContiguous s.1 s.2)
      ((new cfg, fun _ => none) : PagedKVPool α cfg × ContiguousSlots α) calls := by
  have hrep := allStates_of_allSteps (P := fun s => Represents maxLength s.1 s.2)
    (fun s call s' hrep hadm hstep => pairStep_represents hrep hadm hstep)
    (new_represents maxLength) h
  exact hrep.imp fun s hs => hs.gathersContiguous

/-- Two rows of two tokens, a rollback to one token, a reorder that copies, and one more token. -/
theorem run_gathersContiguous_example :
    AllStates (pairStep 3) (fun s => GathersContiguous s.1 s.2)
      ((new (tokenConfig 8), fun _ => none) : PagedKVPool Int (tokenConfig 8) × ContiguousSlots Int)
      [.registerSlot 0 2, .scatter 0 (tokenKvs 2 2 7) 0, .scatter 0 (tokenKvs 2 2 9) 1,
        .reorder 0 [1, 1], .scatter 0 (tokenKvs 2 3 5) 2] :=
  run_gathersContiguous (tokenConfig 8) 3 _ (by decide +kernel)

end Drift.PagedKVPool
