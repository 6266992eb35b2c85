/-
  Allocation in the contiguous cache: `MemoryCache.allocate_cache` and the runtime's side of it
  (`server/memory_cache.py`), as a machine that interleaves any number of calls.

  A call goes through the phases below, one atomic step at a time.  Two locks are involved:
  `_lock_acquire_memory` is held from before the test `current_size_bytes + size > max_size_bytes`
  until it passes, and `_lock_metadata` around the reservation that follows.  The first lock is
  released before the second is taken, so another call may run its test in between and see
  the size as if the first one had not passed: the budget can be exceeded (`budget_exceeded`).
  What the two locks do guarantee is `run_within_budget`.

  Time is not modelled: a finite timeout may fire whenever the call is waiting.  The executor thread
  that waits for `_lock_acquire_memory` is not interrupted by it (the source says so: hivemind's
  `enter_asynchronously` "does not always release the lock on cancellation"): it stays behind as an
  orphan.  `_wait_until_available` runs with the remaining timeout of its call and is taken to end
  together with it.  The counters are integers here, not 64-bit ones.
-/
import Mathlib.Algebra.GroupWithZero.Nat
import Mathlib.Data.List.AList
import Drift.Lib.Run

namespace Drift

/-- `TensorDescriptor`: what the size accounting and the runtime use of it. -/
structure TensorDescriptor where
  size : List Nat
  /-- `get_size_in_bytes(descr.dtype)`. -/
  elemBytes : Nat
  device : Nat
deriving DecidableEq

/-- `descr.numel() * get_size_in_bytes(descr.dtype)`. -/
def TensorDescriptor.bytes (descr : TensorDescriptor) : Nat := descr.size.prod * descr.elemBytes

/-- `alloc_size_by_device`. -/
def allocSizeByDevice (descriptors : List TensorDescriptor) : AList fun _ : Nat => Nat :=
  descriptors.foldl (fun acc descr =>
    acc.insert descr.device ((acc.lookup descr.device).getD 0 + descr.bytes)) ∅

/-- `get_allocation_size`: the largest sum on one device; no descriptors are a `ValueError`. -/
def getAllocationSize (descriptors : List TensorDescriptor) : Option Nat :=
  ((allocSizeByDevice descriptors).entries.map (·.2)).max?

/-- The timeout of a call, after `min(timeout, max_alloc_timeout)`. -/
inductive Timeout where
  /-- `timeout == 0`. -/
  | immediate
  | finite
  /-- `None` or `inf`. -/
  | unbounded
deriving DecidableEq

/-- Where a call of `allocate_cache` stands. -/
inductive Phase where
  /-- `_enqueued_size` increased; next is the immediate check of `timeout == 0`. -/
  | enqueued
  /-- An executor thread waits for `_lock_acquire_memory`. -/
  | acquiring
  /-- Holds the lock, before the test. -/
  | locked
  /-- Holds the lock, at the head of `_wait_until_available`'s loop. -/
  | looping
  /-- Holds the lock, in `_memory_freed_event.wait()`. -/
  | waiting
  /-- Holds the lock, before `_memory_freed_event.clear()`. -/
  | woken
  /-- The test has passed; the lock is still held. -/
  | checked
  /-- The lock is released; `_enqueued_size` still counts the call. -/
  | released
  /-- `_enqueued_size` decreased, before the reservation. -/
  | dequeued
  /-- Inside the context, with its handles. -/
  | live (handles : List Nat)
  /-- Left the context, before `_memory_freed_event.set()`. -/
  | freed
  | done
  /-- An exception is leaving the block that holds the lock. -/
  | abandoning
  /-- An exception is leaving, before `_enqueued_size` is decreased. -/
  | raising
  | failed
deriving DecidableEq

/-- A call of `allocate_cache`. -/
structure Request where
  descriptors : List TensorDescriptor
  /-- `max_alloc_size`. -/
  size : Nat
  timeout : Timeout
  phase : Phase

/-- The call has passed its test and not reserved yet. -/
def Phase.isPending : Phase → Bool
  | .checked | .released | .dequeued => true
  | _ => false

/-- The bytes that a call will reserve without another test. -/
def Request.pendingBytes (r : Request) : Nat := if r.phase.isPending then r.size else 0

/-- Who holds `_lock_acquire_memory`. -/
inductive LockOwner where
  | free
  | request (i : Nat)
  /-- An executor thread whose call has timed out: nobody will release the lock. -/
  | orphan
deriving DecidableEq

/-- A message from a handler to the runtime. -/
inductive CacheMessage where
  /-- `(handles, descriptors)`. -/
  | create (handles : List Nat) (descriptors : List TensorDescriptor)
  /-- `(handles, None)`. -/
  | delete (handles : List Nat)

/-- The shared state of a `MemoryCache`, the runtime's table and the calls. -/
structure MemoryCache where
  maxSize : Nat
  /-- `_current_size`. -/
  currentSize : Int
  /-- `_enqueued_size`. -/
  enqueuedSize : Int
  handleCounter : Nat
  lockOwner : LockOwner
  /-- Executor threads that still wait for the lock although their call has timed out. -/
  orphans : Nat
  /-- `_memory_freed_event`. -/
  memoryFreed : Bool
  /-- The pipe, oldest message first. -/
  pipe : List CacheMessage
  /-- `_allocated_tensors`, by descriptor. -/
  allocatedTensors : AList fun _ : Nat => TensorDescriptor
  requests : List Request

namespace MemoryCache

/-- `MemoryCache(max_size_bytes)`. -/
def new (maxSize : Nat) : MemoryCache where
  maxSize := maxSize
  currentSize := 0
  enqueuedSize := 0
  handleCounter := 0
  lockOwner := .free
  orphans := 0
  memoryFreed := false
  pipe := []
  allocatedTensors := ∅
  requests := []

/-- Call `i` goes to `phase`. -/
def setPhase (i : Nat) (phase : Phase) (s : MemoryCache) : MemoryCache :=
  { s with requests := s.requests.modify i fun r => { r with phase := phase } }

/-! ## The steps of a call -/

/-- Entering `_wait_for_free_memory`: the size is enqueued. -/
def start (descriptors : List TensorDescriptor) (timeout : Timeout) (s : MemoryCache) :
    Option MemoryCache :=
  (getAllocationSize descriptors).map fun size : Nat =>
    { s with
      enqueuedSize := s.enqueuedSize + size
      requests := s.requests ++ [⟨descriptors, size, timeout, .enqueued⟩] }

/-- The `if timeout == 0` check before the lock. -/
def immediateCheck (i : Nat) (r : Request) (s : MemoryCache) : MemoryCache :=
  if r.timeout = .immediate ∧ s.currentSize + s.enqueuedSize > s.maxSize then
    s.setPhase i .raising
  else s.setPhase i .acquiring

/-- `_lock_acquire_memory.acquire()`. -/
def acquireLock (i : Nat) (s : MemoryCache) : Option MemoryCache :=
  if s.lockOwner = .free then some (setPhase i .locked { s with lockOwner := .request i })
  else none

/-- The test under the lock, and the entry of `_wait_until_available`. -/
def testFits (i : Nat) (r : Request) (s : MemoryCache) : MemoryCache :=
  if s.currentSize + r.size > s.maxSize then
    if r.timeout = .immediate then s.setPhase i .abandoning
    else if r.size > s.maxSize then s.setPhase i .abandoning
    else s.setPhase i .looping
  else s.setPhase i .checked

/-- The test of `_wait_until_available`'s loop. -/
def testLoop (i : Nat) (r : Request) (s : MemoryCache) : MemoryCache :=
  if s.currentSize + r.size > s.maxSize then s.setPhase i .waiting else s.setPhase i .checked

/-- The reservation, under `_lock_metadata`. -/
def reserve (i : Nat) (r : Request) (s : MemoryCache) : MemoryCache :=
  let handles := List.range' s.handleCounter r.descriptors.length
  setPhase i (.live handles) { s with
    currentSize := s.currentSize + r.size
    handleCounter := s.handleCounter + r.descriptors.length
    pipe := s.pipe ++ [.create handles r.descriptors] }

/-- `_free`, under `_lock_metadata`. -/
def free (i : Nat) (r : Request) (handles : List Nat) (s : MemoryCache) : MemoryCache :=
  setPhase i .freed { s with
    pipe := s.pipe ++ [.delete handles]
    currentSize := s.currentSize - r.size }

/-- The next step of call `i`; `none` while it has to wait, and when it is over. -/
def advance (i : Nat) (s : MemoryCache) : Option MemoryCache :=
  s.requests[i]?.bind fun r =>
    match r.phase with
    | .enqueued => some (s.immediateCheck i r)
    | .acquiring => s.acquireLock i
    | .locked => some (s.testFits i r)
    | .looping => some (s.testLoop i r)
    | .waiting => if s.memoryFreed then some (s.setPhase i .woken) else none
    | .woken => some (setPhase i .looping { s with memoryFreed := false })
    | .checked => some (setPhase i .released { s with lockOwner := .free })
    | .released =>
      some (setPhase i .dequeued { s with enqueuedSize := s.enqueuedSize - r.size })
    | .dequeued => some (s.reserve i r)
    | .live handles => some (s.free i r handles)
    | .freed => some (setPhase i .done { s with memoryFreed := true })
    | .abandoning => some (setPhase i .raising { s with lockOwner := .free })
    | .raising => some (setPhase i .failed { s with enqueuedSize := s.enqueuedSize - r.size })
    | .done | .failed => none

/-- The timeout of call `i` fires while it waits. -/
def timeoutFires (i : Nat) (s : MemoryCache) : Option MemoryCache :=
  s.requests[i]?.bind fun r =>
    if r.timeout = .finite then
      match r.phase with
      | .acquiring => some (setPhase i .raising { s with orphans := s.orphans + 1 })
      | .looping | .waiting | .woken => some (s.setPhase i .abandoning)
      | _ => none
    else none

/-- An executor thread gets the lock for a call that is gone. -/
def orphanAcquires (s : MemoryCache) : Option MemoryCache :=
  if s.lockOwner = .free ∧ 0 < s.orphans then
    some { s with lockOwner := .orphan, orphans := s.orphans - 1 }
  else none

/-! ## The runtime -/

/-- One message taken from the pipe by `use_cache`. -/
def receive (table : AList fun _ : Nat => TensorDescriptor) :
    CacheMessage → AList fun _ : Nat => TensorDescriptor
  | .create handles descriptors =>
    (handles.zip descriptors).foldl (fun table (handle, descr) => table.insert handle descr) table
  | .delete handles => handles.foldl (fun table handle => table.erase handle) table

/-- `use_cache` empties the pipe. -/
def drain (s : MemoryCache) : MemoryCache :=
  { s with allocatedTensors := s.pipe.foldl receive s.allocatedTensors, pipe := [] }

/-! ## The machine -/

/-- What can happen next. -/
inductive Event where
  | start (descriptors : List TensorDescriptor) (timeout : Timeout)
  | advance (i : Nat)
  | timeoutFires (i : Nat)
  | orphanAcquires
  | drain

def step (s : MemoryCache) : Event → Option MemoryCache
  | .start descriptors timeout => s.start descriptors timeout
  | .advance i => s.advance i
  | .timeoutFires i => s.timeoutFires i
  | .orphanAcquires => s.orphanAcquires
  | .drain => some s.drain

/-! ## The budget -/

/-- The bytes of all calls that have passed their test and not reserved yet. -/
def pendingBytes (s : MemoryCache) : Nat := (s.requests.map Request.pendingBytes).sum

/-- The bytes in use and promised are within the budget. -/
def WithinBudget (s : MemoryCache) : Prop := s.currentSize + s.pendingBytes ≤ s.maxSize

/-- A call that is about to pass its test fits together with the calls that have passed theirs and
    not reserved yet. -/
def FitsPending (s : MemoryCache) : Event → Prop
  | .advance i => ∀ r ∈ s.requests[i]?, r.phase = .locked ∨ r.phase = .looping →
      s.currentSize + r.size ≤ s.maxSize → s.currentSize + r.size + s.pendingBytes ≤ s.maxSize
  | _ => True

instance decidableFitsPending (s : MemoryCache) : ∀ e, Decidable (FitsPending s e)
  | .advance i => inferInstanceAs (Decidable (∀ r ∈ s.requests[i]?,
      r.phase = .locked ∨ r.phase = .looping → s.currentSize + r.size ≤ s.maxSize →
        s.currentSize + r.size + s.pendingBytes ≤ s.maxSize))
  | .start .. | .timeoutFires .. | .orphanAcquires | .drain => isTrue trivial

theorem sum_map_modify {β : Type} (f : β → Nat) (g : β → β) : ∀ {xs : List β} {i : Nat} {x : β},
    xs[i]? = some x → ((xs.modify i g).map f).sum + f x = (xs.map f).sum + f (g x)
  | y :: ys, 0, x, h => by
    obtain rfl : y = x := by simpa using h
    simp
    omega
  | y :: ys, i + 1, x, h => by
    have hys : ys[i]? = some x := by simpa using h
    have hrec := sum_map_modify f g hys
    simp
    omega

/-- What going to another phase does to the promised bytes. -/
theorem pendingBytes_setPhase {s s₀ : MemoryCache} {i : Nat} {r : Request} (phase : Phase)
    (h : s₀.requests = s.requests) (hr : s.requests[i]? = some r) :
    (setPhase i phase s₀).pendingBytes + r.pendingBytes
      = s.pendingBytes + if phase.isPending then r.size else 0 := by
  rw [pendingBytes, setPhase, h]
  exact sum_map_modify Request.pendingBytes _ hr

/-- Going to another phase keeps the budget if the bytes that the phase promises fit in the place
    of those promised before. -/
theorem withinBudget_setPhase {s s₀ : MemoryCache} {i : Nat} {r : Request} {phase : Phase}
    (hreq : s₀.requests = s.requests) (hmax : s₀.maxSize = s.maxSize)
    (hr : s.requests[i]? = some r)
    (h : s₀.currentSize + s.pendingBytes + (if phase.isPending then r.size else 0 : Nat)
      ≤ s.maxSize + r.pendingBytes) : (setPhase i phase s₀).WithinBudget := by
  have hpending := pendingBytes_setPhase phase hreq hr
  show s₀.currentSize + (setPhase i phase s₀).pendingBytes ≤ (s₀.maxSize : Int)
  rw [hmax]
  omega

/-- **One step of a call** keeps the budget, if a call that passes its test fits with the promised
    bytes. -/
theorem advance_withinBudget {s s' : MemoryCache} {i : Nat} (hs : s.WithinBudget)
    (hfits : FitsPending s (.advance i)) (h : s.advance i = some s') : s'.WithinBudget := by
  obtain ⟨r, hr, h⟩ := Option.bind_eq_some_iff.mp h
  have hpending : r.pendingBytes = if r.phase.isPending then r.size else 0 := rfl
  rw [WithinBudget] at hs
  -- a phase that promises nothing, reached without a change of `_current_size`
  have hquiet : ∀ (s₀ : MemoryCache) (phase : Phase), s₀.requests = s.requests →
      s₀.maxSize = s.maxSize → s₀.currentSize = s.currentSize → phase.isPending = false →
      (setPhase i phase s₀).WithinBudget := by
    intro s₀ phase hreq hmax hcur hphase
    refine withinBudget_setPhase hreq hmax hr ?_
    rw [hcur, hphase, if_neg Bool.false_ne_true]
    omega
  -- passing the test
  have hpass : (r.phase = .locked ∨ r.phase = .looping) → s.currentSize + r.size ≤ s.maxSize →
      (setPhase i .checked s).WithinBudget := by
    intro hphase hroom
    have := hfits r hr hphase hroom
    refine withinBudget_setPhase rfl rfl hr ?_
    show s.currentSize + s.pendingBytes + (r.size : Nat) ≤ _
    omega
  cases hphase : r.phase with
  | enqueued =>
    simp only [hphase, immediateCheck] at h
    obtain rfl := Option.some.inj h
    split
    · exact hquiet s _ rfl rfl rfl rfl
    · exact hquiet s _ rfl rfl rfl rfl
  | acquiring =>
    simp only [hphase, acquireLock] at h
    split at h
    · obtain rfl := Option.some.inj h
      exact hquiet _ _ rfl rfl rfl rfl
    · nomatch h
  | locked =>
    simp only [hphase, testFits] at h
    obtain rfl := Option.some.inj h
    split
    · split
      · exact hquiet s _ rfl rfl rfl rfl
      · split
        · exact hquiet s _ rfl rfl rfl rfl
        · exact hquiet s _ rfl rfl rfl rfl
    · exact hpass (Or.inl hphase) (by omega)
  | looping =>
    simp only [hphase, testLoop] at h
    obtain rfl := Option.some.inj h
    split
    · exact hquiet s _ rfl rfl rfl rfl
    · exact hpass (Or.inr hphase) (by omega)
  | waiting =>
    simp only [hphase] at h
    split at h
    · obtain rfl := Option.some.inj h
      exact hquiet s _ rfl rfl rfl rfl
    · nomatch h
  | woken =>
    simp only [hphase] at h
    obtain rfl := Option.some.inj h
    exact hquiet _ _ rfl rfl rfl rfl
  | checked =>
    simp only [hphase] at h
    obtain rfl := Option.some.inj h
    refine withinBudget_setPhase rfl rfl hr ?_
    rw [hpending, hphase]
    show s.currentSize + s.pendingBytes + (r.size : Nat) ≤ s.maxSize + (r.size : Nat)
    omega
  | released =>
    simp only [hphase] at h
    obtain rfl := Option.some.inj h
    refine withinBudget_setPhase rfl rfl hr ?_
    rw [hpending, hphase]
    show s.currentSize + s.pendingBytes + (r.size : Nat) ≤ s.maxSize + (r.size : Nat)
    omega
  | dequeued =>
    -- the promised bytes become bytes in use
    simp only [hphase, reserve] at h
    obtain rfl := Option.some.inj h
    refine withinBudget_setPhase rfl rfl hr ?_
    rw [hpending, hphase]
    show s.currentSize + r.size + s.pendingBytes + (0 : Nat) ≤ s.maxSize + (r.size : Nat)
    omega
  | live handles =>
    simp only [hphase, free] at h
    obtain rfl := Option.some.inj h
    refine withinBudget_setPhase rfl rfl hr ?_
    show s.currentSize - r.size + s.pendingBytes + (0 : Nat) ≤ s.maxSize + r.pendingBytes
    omega
  | freed | abandoning | raising =>
    simp only [hphase] at h
    obtain rfl := Option.some.inj h
    exact hquiet _ _ rfl rfl rfl rfl
  | done | failed =>
    simp only [hphase] at h
    nomatch h

theorem step_withinBudget {s s' : MemoryCache} {e : Event} (hs : s.WithinBudget)
    (hfits : FitsPending s e) (h : step s e = some s') : s'.WithinBudget := by
  cases e with
  | start descriptors timeout =>
    obtain ⟨size, -, rfl⟩ := Option.map_eq_some_iff.mp h
    have hpending : pendingBytes { s with
        enqueuedSize := s.enqueuedSize + size
        requests := s.requests ++ [⟨descriptors, size, timeout, .enqueued⟩] } = s.pendingBytes := by
      rw [pendingBytes, List.map_append, List.sum_append]
      rfl
    rw [WithinBudget, hpending]
    exact hs
  | advance i => exact advance_withinBudget hs hfits h
  | timeoutFires i =>
    obtain ⟨r, hr, h⟩ := Option.bind_eq_some_iff.mp h
    rw [WithinBudget] at hs
    split at h
    · cases hphase : r.phase with
      | acquiring | looping | waiting | woken =>
        simp only [hphase] at h
        obtain rfl := Option.some.inj h
        refine withinBudget_setPhase rfl rfl hr ?_
        show s.currentSize + s.pendingBytes + (0 : Nat) ≤ s.maxSize + r.pendingBytes
        omega
      | _ =>
        simp only [hphase] at h
        nomatch h
    · nomatch h
  | orphanAcquires =>
    rw [step, orphanAcquires] at h
    split at h
    · obtain rfl := Option.some.inj h
      exact hs
    · nomatch h
  | drain =>
    obtain rfl := Option.some.inj h
    exact hs

/-- **The budget over a run**: when every call that passes its test fits together with the calls
    that have passed theirs and not reserved yet, the cache is never over-committed. -/
theorem run_within_budget (maxSize : Nat) (events : List Event)
    (h : AllSteps step FitsPending (new maxSize) events) :
    AllStates step (fun s => s.currentSize ≤ s.maxSize) (new maxSize) events := by
  have hnew : (new maxSize).WithinBudget := Int.natCast_nonneg maxSize
  have hall := allStates_of_allSteps (fun s e s' hs hfits h => step_withinBudget hs hfits h) hnew h
  refine hall.imp fun s hs => ?_
  rw [WithinBudget] at hs
  omega

/-- Six bytes on one device. -/
def sixBytes : TensorDescriptor := ⟨[6], 1, 0⟩

/-- One call after the other, in a budget for one. -/
theorem run_within_budget_example :
    AllStates step (fun s => s.currentSize ≤ s.maxSize) (new 8)
      [.start [sixBytes] .finite, .advance 0, .advance 0, .advance 0, .advance 0, .advance 0,
        .advance 0, .start [sixBytes] .immediate, .advance 1, .advance 0, .drain] :=
  run_within_budget 8 _ (by decide)

/-- **Two calls that both pass**: the second one tests after the first has released the lock and
    before it has reserved its bytes. -/
theorem budget_exceeded :
    ¬ AllStates step (fun s => s.currentSize ≤ s.maxSize) (new 8)
      [.start [sixBytes] .finite, .start [sixBytes] .finite, .advance 0, .advance 1,
        .advance 0, .advance 0, .advance 0, .advance 1, .advance 1, .advance 1,
        .advance 0, .advance 0, .advance 1, .advance 1] := by
  decide

end MemoryCache

end Drift
