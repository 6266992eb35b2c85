/-
  Admission of paged sessions: the paged half of `MemoryCache` (`server/memory_cache.py`) and the
  runtime step that uses it (`TransformerBackend._paged_inference_step`).

  Handlers and the runtime are different processes.  A handler admits a session by comparing the
  page budget with the shared counter `_paged_used_pages`, and tells the runtime about slots
  through the pipe.  The runtime empties the pipe and refreshes the counter in `use_paged_pool`,
  that is, only while it serves a step of some session.

  So a closed session gives its pages back at the next step of another session.  If there is none,
  the counter keeps the value that the last step left, with the pages of the closed session in it:
  `run_admits_iff` says that this happens exactly when the last open session closes while pages
  are in use.
-/
import Drift.Cache.PagedKVPool
import Drift.Lib.Run

namespace Drift

/-- A message through the pipe, handler to runtime. -/
inductive PagedMessage where
  /-- `("paged_register", slot_ids, batch_size)`. -/
  | register (slotIds : List Nat) (batchSize : Nat)
  /-- `("paged_free", slot_ids, None)`. -/
  | free (slotIds : List Nat)

/-- What handlers and runtime share, and the runtime's pool.  The pool is made at first use: until
    then it is the empty one. -/
structure PagedMemoryCache (α : Type) (cfg : PoolConfig) where
  /-- `_paged_used_pages`. -/
  pagedUsedPages : Int
  handleCounter : Nat
  /-- The pipe, oldest message first. -/
  pipe : List PagedMessage
  pool : PagedKVPool α cfg
  /-- Handlers between `_wait_for_free_pages` and the lock: their `num_slots`. -/
  admitted : List Nat
  /-- The open sessions: their slot ids. -/
  sessions : List (List Nat)

namespace PagedMemoryCache

variable {α : Type} [Zero α] {cfg : PoolConfig}

def new (cfg : PoolConfig) : PagedMemoryCache α cfg where
  pagedUsedPages := 0
  handleCounter := 0
  pipe := []
  pool := PagedKVPool.new cfg
  admitted := []
  sessions := []

/-! ## The handlers -/

/-- `has_room` of `_wait_for_free_pages`. -/
def hasRoom (s : PagedMemoryCache α cfg) (numSlots : Nat) : Prop :=
  (cfg.numPages : Int) - s.pagedUsedPages ≥ numSlots

instance (s : PagedMemoryCache α cfg) (numSlots : Nat) : Decidable (s.hasRoom numSlots) :=
  inferInstanceAs (Decidable (_ ≥ _))

/-- `_wait_for_free_pages(num_slots, timeout=0)`. -/
def waitForFreePagesNow (s : PagedMemoryCache α cfg) (numSlots : Nat) : Except PyExc Unit :=
  if s.hasRoom numSlots then .ok ()
  else .error (.allocationFailed s!"Paged cache full: no room for {numSlots} new sessions")

/-- A handler tests `has_room`; one that finds none raises or waits, and changes nothing. -/
def check (numSlots : Nat) (s : PagedMemoryCache α cfg) : PagedMemoryCache α cfg :=
  if s.hasRoom numSlots then { s with admitted := s.admitted ++ [numSlots] } else s

/-- The locked part of `allocate_paged_slots`, for the admitted handler number `i`. -/
def register (i batchSize : Nat) (s : PagedMemoryCache α cfg) : Option (PagedMemoryCache α cfg) :=
  s.admitted[i]?.map fun numSlots =>
    let slotIds := List.range' s.handleCounter numSlots
    { s with
      admitted := s.admitted.eraseIdx i
      handleCounter := s.handleCounter + numSlots
      pipe := s.pipe ++ [.register slotIds batchSize]
      sessions := s.sessions ++ [slotIds] }

/-- The exit of `allocate_paged_slots`, for the open session number `i`. -/
def close (i : Nat) (s : PagedMemoryCache α cfg) : Option (PagedMemoryCache α cfg) :=
  s.sessions[i]?.map fun slotIds =>
    { s with
      pipe := s.pipe ++ [.free slotIds]
      sessions := s.sessions.eraseIdx i }

/-! ## The runtime -/

/-- One message taken from the pipe. -/
def receive (pool : PagedKVPool α cfg) : PagedMessage → PagedKVPool α cfg
  | .register slotIds batchSize =>
    slotIds.foldl (fun pool slotId => pool.registerSlot slotId batchSize) pool
  | .free slotIds => slotIds.foldl (fun pool slotId => pool.freeSlot slotId) pool

/-- `use_paged_pool` around `body`: empty the pipe, run, and publish the used pages whether the
    body returned or raised. -/
def usePagedPool (body : PoolM α cfg Unit) (s : PagedMemoryCache α cfg) :
    PagedMemoryCache α cfg :=
  let pool := finalState (body (s.pipe.foldl receive s.pool))
  { s with pool := pool, pipe := [], pagedUsedPages := pool.numUsedPages }

/-- `_paged_inference_step`; `forward` is the block with its chunks, from the past keys and values
    to the full ones. -/
def pagedInferenceStep (slotId : Nat) (hypoIds : List Int) (prefixLength : Int)
    (forward : Tensor α × Tensor α → Except PyExc (Tensor α × Tensor α)) : PoolM α cfg Unit := do
  -- `is_dummy(hypo_ids)`: no ids, no reorder
  if hypoIds.isEmpty then pure () else PagedKVPool.reorder slotId hypoIds
  let s ← get
  match (PagedKVPool.gather s slotId prefixLength).bind forward with
  | .error e => throw e
  | .ok newKvs => PagedKVPool.scatter slotId newKvs prefixLength

/-! ## The machine -/

/-- What can happen next. -/
inductive Event (α : Type) where
  | check (numSlots : Nat)
  | register (i batchSize : Nat)
  /-- A step of block number `block` of the open session number `i`. -/
  | inferenceStep (i block : Nat) (hypoIds : List Int) (prefixLength : Int)
      (forward : Tensor α × Tensor α → Except PyExc (Tensor α × Tensor α))
  | close (i : Nat)

/-- One step: it is not possible for a handler, session or block that does not exist. -/
def step (s : PagedMemoryCache α cfg) : Event α → Option (PagedMemoryCache α cfg)
  | .check numSlots => some (s.check numSlots)
  | .register i batchSize => s.register i batchSize
  | .inferenceStep i block hypoIds prefixLength forward =>
    (s.sessions[i]?.bind fun slotIds => slotIds[block]?).map fun slotId =>
      s.usePagedPool (pagedInferenceStep slotId hypoIds prefixLength forward)
  | .close i => s.close i

/-- While no session is open, every allocation that fits the page budget is admitted at once. -/
def Admits (s : PagedMemoryCache α cfg) : Prop :=
  s.sessions = [] → ∀ k, k ≤ cfg.numPages → s.waitForFreePagesNow k = .ok ()

/-- The last open session closes only while the pool has no page in use. -/
def ClosesEmpty (s : PagedMemoryCache α cfg) : Event α → Prop
  | .close i => i < s.sessions.length → s.sessions.length = 1 → s.pool.numUsedPages ≤ 0
  | _ => True

/-! ## The counter -/

/-- The counter is the pool's own count: only the runtime changes either, and it does both. -/
def Published (s : PagedMemoryCache α cfg) : Prop := s.pagedUsedPages = s.pool.numUsedPages

theorem new_published : (new cfg : PagedMemoryCache α cfg).Published := by
  simp [Published, new, PagedKVPool.numUsedPages, PagedKVPool.new]

theorem step_published {s s' : PagedMemoryCache α cfg} {e : Event α} (hs : s.Published)
    (h : step s e = some s') : s'.Published := by
  cases e with
  | check numSlots =>
    obtain rfl := Option.some.inj h
    rw [check]
    split <;> exact hs
  | register i batchSize =>
    obtain ⟨numSlots, -, rfl⟩ := Option.map_eq_some_iff.mp h
    exact hs
  | inferenceStep i block hypoIds prefixLength forward =>
    obtain ⟨slotId, -, rfl⟩ := Option.map_eq_some_iff.mp h
    rfl
  | close i =>
    obtain ⟨slotIds, -, rfl⟩ := Option.map_eq_some_iff.mp h
    exact hs

/-! ## Admission -/

omit [Zero α] in
theorem admits_iff (s : PagedMemoryCache α cfg) :
    s.Admits ↔ (s.sessions = [] → s.pagedUsedPages ≤ 0) := by
  have hall : (∀ k, k ≤ cfg.numPages → s.waitForFreePagesNow k = .ok ()) ↔
      s.pagedUsedPages ≤ 0 := by
    constructor
    · intro h
      have hfull := h cfg.numPages (Nat.le_refl _)
      rw [waitForFreePagesNow] at hfull
      split at hfull
      · rename_i hroom
        rw [hasRoom] at hroom
        omega
      · nomatch hfull
    · intro hused k hk
      have hroom : s.hasRoom k := by
        rw [hasRoom]
        omega
      rw [waitForFreePagesNow, if_pos hroom]
  rw [Admits, hall]

/-- Closing session `i` leaves no session open exactly if it was the only one. -/
theorem eraseIdx_eq_nil_iff {β : Type} {xs : List β} {i : Nat} (hi : i < xs.length) :
    xs.eraseIdx i = [] ↔ xs.length = 1 := by
  rw [← List.length_eq_zero_iff, List.length_eraseIdx_of_lt hi]
  omega

/-- **One step**: from a state that admits, the next state admits exactly if the step does not
    close the last session over used pages. -/
theorem step_admits_iff {s s' : PagedMemoryCache α cfg} {e : Event α} (hpub : s.Published)
    (hs : s.Admits) (h : step s e = some s') : s'.Admits ↔ ClosesEmpty s e := by
  rw [admits_iff] at hs ⊢
  cases e with
  | check numSlots =>
    obtain rfl := Option.some.inj h
    refine iff_of_true ?_ trivial
    rw [check]
    split <;> exact hs
  | register i batchSize =>
    obtain ⟨numSlots, -, rfl⟩ := Option.map_eq_some_iff.mp h
    refine iff_of_true (fun hnil => ?_) trivial
    exact absurd hnil (List.append_ne_nil_of_right_ne_nil _ (List.cons_ne_nil _ _))
  | inferenceStep i block hypoIds prefixLength forward =>
    obtain ⟨slotId, hslot, rfl⟩ := Option.map_eq_some_iff.mp h
    obtain ⟨slotIds, hi, -⟩ := Option.bind_eq_some_iff.mp hslot
    refine iff_of_true (fun hnil => ?_) trivial
    exact absurd hnil (List.ne_nil_of_mem (List.mem_of_getElem? hi))
  | close i =>
    obtain ⟨slotIds, hi, rfl⟩ := Option.map_eq_some_iff.mp h
    have hlt := (List.getElem?_eq_some_iff.mp hi).1
    show (s.sessions.eraseIdx i = [] → s.pagedUsedPages ≤ 0) ↔ _
    rw [eraseIdx_eq_nil_iff hlt, hpub]
    exact ⟨fun hused _ => hused, fun hc => hc hlt⟩

theorem new_admits : (new cfg : PagedMemoryCache α cfg).Admits :=
  (admits_iff _).mpr fun _ => Int.le_refl 0

/-- **Admission over a run**: whenever no session is open every allocation is admitted at once,
    exactly if the last open session is never closed while pages are in use. -/
theorem run_admits_iff (cfg : PoolConfig) (events : List (Event α)) :
    AllStates step Admits (new cfg) events ↔ AllSteps step ClosesEmpty (new cfg) events := by
  have hpub : AllStates step Published (new cfg : PagedMemoryCache α cfg) events :=
    allStates_of_step (fun s e s' hs h => step_published hs h) new_published
  have hnone : ∀ (s : PagedMemoryCache α cfg) e, step s e = none → ClosesEmpty s e := by
    intro s e h
    cases e with
    | close i =>
      intro hlt
      rw [step, close, List.getElem?_eq_getElem hlt] at h
      nomatch h
    | _ => trivial
  exact allStates_iff_allSteps (fun s e s' hs hpub h => step_admits_iff hpub hs h) hnone new_admits
    (hpub.allSteps fun s e hs => hs)

/-- **A stale counter is wrong**: the only page is in the slot of the closed session, the message
    that frees it waits in the pipe, and nobody will empty the pipe. -/
theorem closed_session_not_admits :
    ¬ AllStates step Admits (new (PagedKVPool.tokenConfig 1))
      [.check 1, .register 0 1,
        .inferenceStep 0 0 [] 0 fun _ => .ok (PagedKVPool.tokenKvs 1 1 7), .close 0] := by
  intro h
  have hlast := (((h.2 _ rfl).2 _ rfl).2 _ rfl).2 _ rfl
  exact absurd (hlast rfl 1 (Nat.le_refl 1)) (by decide)

/-- No session is open or about to be, and the counter leaves no room for a single slot. -/
structure Wedged (s : PagedMemoryCache α cfg) : Prop where
  sessions : s.sessions = []
  admitted : s.admitted = []
  noRoom : ¬ s.hasRoom 1

/-- Allocations of at least one slot. -/
def AsksForSlots (_ : PagedMemoryCache α cfg) : Event α → Prop
  | .check numSlots => 0 < numSlots
  | _ => True

theorem Wedged.step_eq {s s' : PagedMemoryCache α cfg} {e : Event α} (hs : s.Wedged)
    (hask : AsksForSlots s e) (h : step s e = some s') : s' = s := by
  cases e with
  | check numSlots =>
    have hroom : ¬ s.hasRoom numSlots := fun hroom => by
      have hnone := hs.noRoom
      rw [hasRoom] at hnone hroom
      have : 0 < numSlots := hask
      omega
    obtain rfl := Option.some.inj h
    exact if_neg hroom
  | register i batchSize =>
    rw [step, register, hs.admitted] at h
    nomatch h
  | inferenceStep i block hypoIds prefixLength forward =>
    rw [step, hs.sessions] at h
    nomatch h
  | close i =>
    rw [step, close, hs.sessions] at h
    nomatch h

/-- **The wedge is for good**: whatever happens afterwards, the state stays the same. -/
theorem Wedged.forever {s s' : PagedMemoryCache α cfg} {events : List (Event α)} (hs : s.Wedged)
    (hask : AllSteps step AsksForSlots s events) (h : exec step s events = some s') : s' = s := by
  have hstep : ∀ s₁ e s₂, s₁ = s → AsksForSlots s₁ e → step s₁ e = some s₂ → s₂ = s := by
    rintro s₁ e s₂ rfl hask h
    exact hs.step_eq hask h
  exact exec_invariant hstep rfl hask h

end PagedMemoryCache

end Drift
