/-
  `MemoryCache.bytes_left` (`server/memory_cache.py`), from which the announcer computes
  `cache_tokens_left` and `rpc_info` computes `cache_tokens_available`.

  A cache object has the shared counters of both modes.  `bytes_left` reads `_current_size`, which
  `allocate_cache` keeps: in the contiguous mode it is what the live sessions leave, in every state.
  In the paged mode sessions go through `allocate_paged_slots` and `use_paged_pool`, which keep
  `_paged_used_pages`; nothing there touches `_current_size`.  So the whole budget is reported as
  free, and the report is sound exactly while no step stores a token (`run_sound_iff`): until then
  the pool is unused, and the first step that stores one takes a page.
-/
import Drift.Cache.Admission
import Drift.Cache.AllocationAccounting
import Drift.Cache.UnusedPool

namespace Drift

/-- The bytes of a page of keys and values. -/
def PoolConfig.pageBytes (cfg : PoolConfig) (elemBytes : Nat) : Nat :=
  cfg.numKvHeads * (cfg.kHeadDim + cfg.vHeadDim) * cfg.pageSize * elemBytes

/-- A `MemoryCache` with what both of its modes use. -/
structure ServerCache (α : Type) (cfg : PoolConfig) where
  paged : Bool
  memory : MemoryCache
  pages : PagedMemoryCache α cfg
  /-- `get_size_in_bytes(dtype)` of the pages. -/
  elemBytes : Nat

namespace ServerCache

variable {α : Type} [Zero α] {cfg : PoolConfig}

def new (paged : Bool) (maxSize : Nat) (cfg : PoolConfig) (elemBytes : Nat) : ServerCache α cfg :=
  ⟨paged, MemoryCache.new maxSize, PagedMemoryCache.new cfg, elemBytes⟩

/-- `bytes_left`. -/
def bytesLeft (s : ServerCache α cfg) : Int := s.memory.maxSize - s.memory.currentSize

/-- What can happen next. -/
inductive Event (α : Type) where
  | contiguous (event : MemoryCache.Event)
  | paged (event : PagedMemoryCache.Event α)

/-- One step.  Handlers and backends test `memory_cache.paged` and use one half only. -/
def step (s : ServerCache α cfg) : Event α → Option (ServerCache α cfg)
  | .contiguous event =>
    if s.paged then none
    else (MemoryCache.step s.memory event).map fun memory => { s with memory := memory }
  | .paged event =>
    if s.paged then
      (PagedMemoryCache.step s.pages event).map fun pages => { s with pages := pages }
    else none

/-- The bytes that live sessions hold. -/
def heldBytes (s : ServerCache α cfg) : Int :=
  if s.paged then s.pages.pool.numUsedPages * cfg.pageBytes s.elemBytes
  else (s.memory.requests.map Request.liveBytes).sum

/-- With no message pending, no more is reported as free than the sessions leave. -/
def Sound (s : ServerCache α cfg) : Prop :=
  s.memory.pipe = [] → s.pages.pipe = [] → s.bytesLeft ≤ s.memory.maxSize - s.heldBytes

/-- The step of a paged session stores no token in pages that take bytes.  The pool is the one that
    `use_paged_pool` hands it, with the pipe emptied. -/
def StoresNoToken (s : ServerCache α cfg) : Event α → Prop
  | .paged (.inferenceStep i block hypoIds prefixLength forward) =>
    s.paged = true → cfg.pageBytes s.elemBytes ≠ 0 →
      ∀ slotId, (s.pages.sessions[i]?.bind fun slotIds => slotIds[block]?) = some slotId →
        ¬ (s.pages.pipe.foldl PagedMemoryCache.receive s.pages.pool).StoresTokens slotId hypoIds
          prefixLength forward
  | _ => True

/-! ## The counters of each mode -/

/-- What every state keeps. -/
structure Kept (s : ServerCache α cfg) : Prop where
  accounts : s.memory.Accounts
  /-- The counters of the contiguous mode are not used by the other. -/
  untouched : s.paged = true → s.memory.currentSize = 0 ∧ s.memory.pipe = []

theorem new_kept (paged : Bool) (maxSize elemBytes : Nat) :
    (new paged maxSize cfg elemBytes : ServerCache α cfg).Kept :=
  ⟨MemoryCache.new_accounts maxSize, fun _ => ⟨rfl, rfl⟩⟩

theorem step_kept {s s' : ServerCache α cfg} {e : Event α} (hs : s.Kept)
    (h : step s e = some s') : s'.Kept := by
  cases e with
  | contiguous event =>
    rw [step] at h
    split at h
    · nomatch h
    · rename_i hpaged
      obtain ⟨memory, hmemory, rfl⟩ := Option.map_eq_some_iff.mp h
      exact ⟨MemoryCache.step_accounts hs.accounts hmemory, fun htrue => absurd htrue hpaged⟩
  | paged event =>
    rw [step] at h
    split at h
    · obtain ⟨pages, -, rfl⟩ := Option.map_eq_some_iff.mp h
      exact ⟨hs.accounts, hs.untouched⟩
    · nomatch h

omit [Zero α] in
/-- **The contiguous mode is sound** in every state. -/
theorem Kept.sound_of_contiguous {s : ServerCache α cfg} (hs : s.Kept) (hpaged : s.paged = false) :
    s.Sound := by
  intro _ _
  rw [bytesLeft, heldBytes, hs.accounts.current, hpaged]
  exact Int.le_refl _

omit [Zero α] in
/-- In the paged mode the whole budget is reported. -/
theorem Kept.sound_iff_of_paged {s : ServerCache α cfg} (hs : s.Kept) (hpaged : s.paged = true) :
    s.Sound ↔ (s.pages.pipe = [] →
      s.pages.pool.numUsedPages ≤ 0 ∨ cfg.pageBytes s.elemBytes = 0) := by
  obtain ⟨hsize, hpipe⟩ := hs.untouched hpaged
  have hheld : s.bytesLeft ≤ s.memory.maxSize - s.heldBytes ↔
      s.pages.pool.numUsedPages ≤ 0 ∨ cfg.pageBytes s.elemBytes = 0 := by
    rw [bytesLeft, heldBytes, hsize, if_pos hpaged]
    generalize s.pages.pool.numUsedPages = used
    generalize cfg.pageBytes s.elemBytes = bytes
    constructor
    · intro hle
      by_contra hnot
      rw [not_or] at hnot
      have hpos : 0 < used * (bytes : Int) := Int.mul_pos (by omega) (by omega)
      omega
    · rintro (hused | rfl)
      · have hle : used * (bytes : Int) ≤ 0 := by
          rw [Int.mul_comm]
          exact Int.mul_nonpos_of_nonneg_of_nonpos (by omega) hused
        omega
      · omega
  rw [Sound, hheld]
  exact ⟨fun h => h hpipe, fun h _ => h⟩

/-! ## Runs -/

/-- Nothing has been stored in pages that take bytes. -/
def UnusedPages (s : ServerCache α cfg) : Prop :=
  s.paged = true → cfg.pageBytes s.elemBytes ≠ 0 → s.pages.pool.Unused

/-- A session's step leaves the pool unused, or takes a page. -/
theorem usePagedPool_unused {s : PagedMemoryCache α cfg} (hs : s.pool.Unused) (slotId : Nat)
    (hypoIds : List Int) (prefixLength : Int)
    (forward : Tensor α × Tensor α → Except PyExc (Tensor α × Tensor α)) :
    let pool := s.pipe.foldl PagedMemoryCache.receive s.pool
    let after := (s.usePagedPool (PagedMemoryCache.pagedInferenceStep slotId hypoIds prefixLength
      forward)).pool
    (pool.StoresTokens slotId hypoIds prefixLength forward ∧ 0 < after.numUsedPages) ∨
    (¬ pool.StoresTokens slotId hypoIds prefixLength forward ∧ after.Unused) := by
  have hpool : (s.pipe.foldl PagedMemoryCache.receive s.pool).Unused :=
    List.foldlRecOn s.pipe _ hs fun _ hpool message _ => hpool.receive message
  exact PagedKVPool.pagedInferenceStep_unused hpool slotId hypoIds prefixLength forward

/-- **One step** of a cache whose pages are unused is sound behind exactly if it stores no token. -/
theorem step_sound_iff {s s' : ServerCache α cfg} {e : Event α} (hkept : s.Kept) (hs : s.Sound)
    (hunused : s.UnusedPages) (h : step s e = some s') : s'.Sound ↔ StoresNoToken s e := by
  have hkept' := step_kept hkept h
  cases e with
  | contiguous event =>
    refine iff_of_true (hkept'.sound_of_contiguous ?_) trivial
    rw [step] at h
    split at h
    · nomatch h
    · rename_i hpaged
      obtain ⟨memory, -, rfl⟩ := Option.map_eq_some_iff.mp h
      exact Bool.eq_false_of_not_eq_true hpaged
  | paged event =>
    rw [step] at h
    split at h
    · rename_i hpaged
      obtain ⟨pages, hpages, rfl⟩ := Option.map_eq_some_iff.mp h
      rw [hkept.sound_iff_of_paged hpaged] at hs
      rw [hkept'.sound_iff_of_paged hpaged]
      cases event with
      | check numSlots =>
        obtain rfl := Option.some.inj hpages
        refine iff_of_true ?_ trivial
        rw [PagedMemoryCache.check]
        split <;> exact hs
      | register i batchSize =>
        obtain ⟨numSlots, -, rfl⟩ := Option.map_eq_some_iff.mp hpages
        refine iff_of_true (fun hnil => ?_) trivial
        exact absurd hnil (List.append_ne_nil_of_right_ne_nil _ (List.cons_ne_nil _ _))
      | inferenceStep i block hypoIds prefixLength forward =>
        obtain ⟨slotId, hslot, rfl⟩ := Option.map_eq_some_iff.mp hpages
        -- the pipe is empty behind the step
        constructor
        · intro hsound _ hbytes slotId' hslot' hstores
          obtain rfl := Option.some.inj (hslot.symm.trans hslot')
          rcases usePagedPool_unused (hunused hpaged hbytes) slotId hypoIds prefixLength forward with
            ⟨-, hused⟩ | ⟨hnot, -⟩
          · rcases hsound rfl with hnone | hzero
            · exact absurd hnone (Int.not_le.mpr hused)
            · exact hbytes hzero
          · exact hnot hstores
        · intro hno _
          by_cases hbytes : cfg.pageBytes s.elemBytes = 0
          · exact Or.inr hbytes
          · rcases usePagedPool_unused (hunused hpaged hbytes) slotId hypoIds prefixLength forward
              with ⟨hstores, -⟩ | ⟨-, hafter⟩
            · exact absurd hstores (hno hpaged hbytes slotId hslot)
            · exact Or.inl (Int.le_of_eq hafter.numUsedPages)
      | close i =>
        obtain ⟨slotIds, -, rfl⟩ := Option.map_eq_some_iff.mp hpages
        refine iff_of_true (fun hnil => ?_) trivial
        exact absurd hnil (List.append_ne_nil_of_right_ne_nil _ (List.cons_ne_nil _ _))
    · nomatch h

/-- A step that stores no token leaves the pages unused. -/
theorem step_unusedPages {s s' : ServerCache α cfg} {e : Event α} (hs : s.UnusedPages)
    (hno : StoresNoToken s e) (h : step s e = some s') : s'.UnusedPages := by
  cases e with
  | contiguous event =>
    rw [step] at h
    split at h
    · nomatch h
    · obtain ⟨memory, -, rfl⟩ := Option.map_eq_some_iff.mp h
      exact hs
  | paged event =>
    rw [step] at h
    split at h
    · obtain ⟨pages, hpages, rfl⟩ := Option.map_eq_some_iff.mp h
      intro hpaged hbytes
      have hpool := hs hpaged hbytes
      cases event with
      | check numSlots =>
        obtain rfl := Option.some.inj hpages
        rw [PagedMemoryCache.check]
        split <;> exact hpool
      | register i batchSize =>
        obtain ⟨numSlots, -, rfl⟩ := Option.map_eq_some_iff.mp hpages
        exact hpool
      | inferenceStep i block hypoIds prefixLength forward =>
        obtain ⟨slotId, hslot, rfl⟩ := Option.map_eq_some_iff.mp hpages
        rcases usePagedPool_unused hpool slotId hypoIds prefixLength forward with
          ⟨hstores, -⟩ | ⟨-, hafter⟩
        · exact absurd hstores (hno hpaged hbytes slotId hslot)
        · exact hafter
      | close i =>
        obtain ⟨slotIds, -, rfl⟩ := Option.map_eq_some_iff.mp hpages
        exact hpool
    · nomatch h

theorem storesNoToken_of_none {s : ServerCache α cfg} {e : Event α} (h : step s e = none) :
    StoresNoToken s e := by
  cases e with
  | contiguous event => trivial
  | paged event =>
    cases event with
    | inferenceStep i block hypoIds prefixLength forward =>
      intro hpaged _ slotId hslot
      rw [step, if_pos hpaged, PagedMemoryCache.step, hslot] at h
      cases h
    | _ => trivial

theorem new_sound (paged : Bool) (maxSize elemBytes : Nat) :
    (new paged maxSize cfg elemBytes : ServerCache α cfg).Sound := by
  have hkept : (new paged maxSize cfg elemBytes : ServerCache α cfg).Kept :=
    new_kept paged maxSize elemBytes
  cases paged with
  | false => exact hkept.sound_of_contiguous rfl
  | true =>
    refine (hkept.sound_iff_of_paged rfl).mpr fun _ => Or.inl ?_
    exact Int.le_of_eq (PagedKVPool.new_unused cfg).numUsedPages

/-- **The reported free cache over a run**: it is sound in every state exactly if no step of a paged
    session stores a token. -/
theorem run_sound_iff (paged : Bool) (maxSize : Nat) (cfg : PoolConfig) (elemBytes : Nat)
    (events : List (Event α)) :
    AllStates step Sound (new paged maxSize cfg elemBytes) events ↔
      AllSteps step StoresNoToken (new paged maxSize cfg elemBytes) events := by
  have hkept : AllStates step Kept (new paged maxSize cfg elemBytes : ServerCache α cfg) events :=
    allStates_of_step (fun s e s' hs h => step_kept hs h) (new_kept paged maxSize elemBytes)
  have hnew : (new paged maxSize cfg elemBytes : ServerCache α cfg).Sound :=
    new_sound paged maxSize elemBytes
  have hunused : (new paged maxSize cfg elemBytes : ServerCache α cfg).UnusedPages :=
    fun _ _ => PagedKVPool.new_unused cfg
  -- as long as the report is sound, nothing has been stored
  have hiff : AllStates step (fun s => s.Sound ∧ s.UnusedPages)
        (new paged maxSize cfg elemBytes : ServerCache α cfg) events ↔
      AllSteps step StoresNoToken (new paged maxSize cfg elemBytes) events := by
    refine allStates_iff_allSteps (fun s e s' hs hkept h => ?_)
      (fun _ _ h => storesNoToken_of_none h) ⟨hnew, hunused⟩ (hkept.allSteps fun s e hs => hs)
    have hone := step_sound_iff hkept hs.1 hs.2 h
    exact ⟨fun hs' => hone.mp hs'.1,
      fun hno => ⟨hone.mpr hno, step_unusedPages hs.2 hno h⟩⟩
  rw [← hiff]
  refine ⟨fun hsound => ?_, fun hboth => hboth.imp fun _ hs => hs.1⟩
  have hall : AllStates step (fun s => (s.Sound ∧ s.Kept) ∧ s.UnusedPages)
      (new paged maxSize cfg elemBytes : ServerCache α cfg) events :=
    (hsound.and hkept).and_invariant (fun s e s' hs hunused h hs' =>
      step_unusedPages hunused ((step_sound_iff hs.2 hs.1 hunused h).mp hs'.1) h) hunused
  exact hall.imp fun s hs => ⟨hs.1.1, hs.2⟩

/-- **In the paged mode taken memory is promised**: one token is stored, in a page of two bytes, and
    all eight bytes of the budget are reported as free. -/
theorem paged_unsound : ¬ AllStates step Sound (new true 8 (PagedKVPool.tokenConfig 4) 1)
    [.paged (.check 1), .paged (.register 0 1),
      .paged (.inferenceStep 0 0 [] 0 fun _ => .ok (PagedKVPool.tokenKvs 1 1 7))] := by
  intro h
  have hlast := ((h.2 _ rfl).2 _ rfl).2 _ rfl
  exact absurd (hlast rfl rfl) (by decide)

end ServerCache

end Drift
