/-
  `_lock_acquire_memory`: who holds it, and when nobody does.

  A call takes the lock in an executor thread (`enter_asynchronously`).  A timeout that fires while
  the call is queued for the lock ends the call but not the thread, which takes the lock later and
  has nobody to release it: `_schedule_alloc` says that it must be shielded because the lock is not
  always released on cancellation, but the timeout of `_wait_for_free_memory` cancels inside
  the shield.  From then on every allocation waits for the lock until its own timeout
  (`lock_orphaned`, `orphan_forever`).

  What holds in any case is that the lock belongs to the one call that is in a phase that holds
  it (`LockOwned`); so as long as no timeout hits a queued call, the lock is free when no call is in
  progress (`run_lock_free`).
-/
import Drift.Cache.AllocationSteps

namespace Drift.MemoryCache

/-- Call `i` is the owner of the lock exactly if it is in a phase that holds the lock. -/
def LockOwned (s : MemoryCache) : Prop :=
  ∀ i, s.lockOwner = .request i ↔ ∃ r, s.requests[i]? = some r ∧ r.phase.holdsLock = true

theorem LockOwned.not_holds {s : MemoryCache} (hs : s.LockOwned) {i : Nat} {r : Request}
    (hr : s.requests[i]? = some r) (hne : s.lockOwner ≠ .request i) :
    r.phase.holdsLock = false := by
  cases h : r.phase.holdsLock with
  | false => rfl
  | true => exact absurd ((hs i).mpr ⟨r, hr, h⟩) hne

/-- Going to a phase with the same hold on the lock. -/
theorem LockOwned.setPhase {s s₀ : MemoryCache} (hs : s.LockOwned) {i : Nat} {r : Request}
    {phase : Phase} (hreq : s₀.requests = s.requests) (hown : s₀.lockOwner = s.lockOwner)
    (hr : s.requests[i]? = some r) (hlock : phase.holdsLock = r.phase.holdsLock) :
    (s₀.setPhase i phase).LockOwned := by
  intro j
  show s₀.lockOwner = .request j ↔ _
  rw [hown, hs j, getElem?_setPhase, hreq]
  by_cases hij : i = j
  · subst hij
    simp [hr, hlock]
  · simp [hij]

/-- Taking the free lock. -/
theorem LockOwned.acquire {s : MemoryCache} (hs : s.LockOwned) {i : Nat} {r : Request}
    (hr : s.requests[i]? = some r) (hfree : s.lockOwner = .free) :
    (MemoryCache.setPhase i .locked { s with lockOwner := .request i }).LockOwned := by
  intro j
  show LockOwner.request i = .request j ↔ _
  rw [getElem?_setPhase]
  by_cases hij : i = j
  · subst hij
    simp [hr, Phase.holdsLock]
  · simp only [LockOwner.request.injEq, hij, false_iff]
    rintro ⟨r', hr', hholds⟩
    have hr'' : s.requests[j]? = some r' := by simpa [hij] using hr'
    have hfalse := hs.not_holds hr'' (by simp [hfree])
    rw [hfalse] at hholds
    cases hholds

/-- Releasing the lock. -/
theorem LockOwned.release {s : MemoryCache} (hs : s.LockOwned) {i : Nat} {r : Request}
    {phase : Phase} (hr : s.requests[i]? = some r) (hlock : r.phase.holdsLock = true)
    (hlock' : phase.holdsLock = false) :
    (MemoryCache.setPhase i phase { s with lockOwner := .free }).LockOwned := by
  have hown : s.lockOwner = .request i := (hs i).mpr ⟨r, hr, hlock⟩
  intro j
  show LockOwner.free = .request j ↔ _
  rw [getElem?_setPhase]
  simp only [reduceCtorEq, false_iff]
  rintro ⟨r', hr', hholds⟩
  by_cases hij : i = j
  · subst hij
    obtain rfl : { r with phase := phase } = r' := by simpa [hr] using hr'
    rw [hlock'] at hholds
    nomatch hholds
  · have hr'' : s.requests[j]? = some r' := by simpa [hij] using hr'
    have hfalse := hs.not_holds hr'' (by simp [hown, hij])
    rw [hfalse] at hholds
    nomatch hholds

theorem move_lockOwned {s s' : MemoryCache} {i : Nat} {r : Request} (hs : s.LockOwned)
    (hr : s.requests[i]? = some r) (h : Move s i r s') : s'.LockOwned := by
  cases h with
  | quiet memoryFreed hlock _ _ _ => exact hs.setPhase rfl rfl hr hlock
  | acquire hphase hfree => exact hs.acquire hr hfree
  | release hlock hlock' _ _ _ => exact hs.release hr hlock hlock'
  | dequeue hlock hlock' _ _ _ _ => exact hs.setPhase rfl rfl hr (hlock'.trans hlock.symm)
  | reserve hphase => exact hs.setPhase rfl rfl hr (by simp [hphase, Phase.holdsLock])
  | free hphase => exact hs.setPhase rfl rfl hr (by simp [hphase, Phase.holdsLock])

/-- **The lock has one owner**, whatever happens. -/
theorem step_lockOwned {s s' : MemoryCache} {e : Event} (hs : s.LockOwned)
    (h : step s e = some s') : s'.LockOwned := by
  cases e with
  | start descriptors timeout =>
    obtain ⟨size, -, rfl⟩ := Option.map_eq_some_iff.mp h
    intro i
    show s.lockOwner = .request i ↔ _
    rw [hs i]
    constructor
    · rintro ⟨r, hr, hholds⟩
      refine ⟨r, ?_, hholds⟩
      exact (List.getElem?_append_left (List.getElem?_eq_some_iff.mp hr).1).trans hr
    · rintro ⟨r, hr, hholds⟩
      change (s.requests ++ [_])[i]? = some r at hr
      rcases Nat.lt_trichotomy i s.requests.length with hlt | heq | hgt
      · rw [List.getElem?_append_left hlt] at hr
        exact ⟨r, hr, hholds⟩
      · subst heq
        obtain rfl := Option.some.inj (List.getElem?_concat_length.symm.trans hr)
        cases hholds
      · rw [List.getElem?_eq_none (by simp; omega)] at hr
        cases hr
  | advance i =>
    obtain ⟨r, hr, hmove⟩ := advance_move h
    exact move_lockOwned hs hr hmove
  | timeoutFires i =>
    obtain ⟨r, hr, hmove | ⟨-, hphase, rfl⟩⟩ := timeoutFires_move h
    · exact move_lockOwned hs hr hmove
    · exact hs.setPhase rfl rfl hr (by simp [hphase, Phase.holdsLock])
  | orphanAcquires =>
    unfold step orphanAcquires at h
    dsimp only at h
    split at h
    · rename_i hfree
      obtain rfl := Option.some.inj h
      intro i
      simp only [reduceCtorEq, false_iff]
      rintro ⟨r, hr, hholds⟩
      have hfalse := hs.not_holds hr (by simp [hfree.1])
      rw [hfalse] at hholds
      cases hholds
    · cases h
  | drain =>
    obtain rfl := Option.some.inj h
    exact hs

theorem new_lockOwned (maxSize : Nat) : (new maxSize).LockOwned := by
  intro i
  simp [new]

/-! ## The lock is free when no call is in progress -/

/-- With no call inside `_schedule_alloc`, the lock is free. -/
def LockFree (s : MemoryCache) : Prop :=
  (∀ r ∈ s.requests, r.phase.inProgress = false) → s.lockOwner = .free

instance (s : MemoryCache) : Decidable s.LockFree := inferInstanceAs (Decidable (_ → _))

/-- No timeout fires while its call is queued for the lock. -/
def NotQueued (s : MemoryCache) : Event → Prop
  | .timeoutFires i => ∀ r ∈ s.requests[i]?, r.timeout = .finite → r.phase ≠ .acquiring
  | _ => True

instance decidableNotQueued (s : MemoryCache) : ∀ e, Decidable (NotQueued s e)
  | .timeoutFires i => inferInstanceAs
      (Decidable (∀ r ∈ s.requests[i]?, r.timeout = .finite → r.phase ≠ .acquiring))
  | .start .. | .advance _ | .orphanAcquires | .drain => isTrue trivial

/-- No executor thread has outlived its call. -/
def NoOrphan (s : MemoryCache) : Prop := s.orphans = 0 ∧ s.lockOwner ≠ .orphan

theorem move_noOrphan {s s' : MemoryCache} {i : Nat} {r : Request} (hs : s.NoOrphan)
    (h : Move s i r s') : s'.NoOrphan := by
  cases h with
  | quiet | dequeue | reserve | free => exact hs
  | acquire | release => exact ⟨hs.1, by simp [MemoryCache.setPhase]⟩

theorem step_noOrphan {s s' : MemoryCache} {e : Event} (hs : s.NoOrphan) (hnot : NotQueued s e)
    (h : step s e = some s') : s'.NoOrphan := by
  cases e with
  | start descriptors timeout =>
    obtain ⟨size, -, rfl⟩ := Option.map_eq_some_iff.mp h
    exact hs
  | advance i =>
    obtain ⟨r, -, hmove⟩ := advance_move h
    exact move_noOrphan hs hmove
  | timeoutFires i =>
    obtain ⟨r, hr, hmove | ⟨hfinite, hphase, -⟩⟩ := timeoutFires_move h
    · exact move_noOrphan hs hmove
    · exact absurd hphase (hnot r hr hfinite)
  | orphanAcquires =>
    unfold step orphanAcquires at h
    dsimp only at h
    split at h
    · rename_i hpos
      have := hs.1
      omega
    · nomatch h
  | drain =>
    obtain rfl := Option.some.inj h
    exact hs

/-- Without orphans, a lock that is not free has a call in progress. -/
theorem lockFree_of_noOrphan {s : MemoryCache} (howned : s.LockOwned) (hs : s.NoOrphan) :
    s.LockFree := by
  intro hidle
  cases hown : s.lockOwner with
  | free => rfl
  | orphan => exact absurd hown hs.2
  | request i =>
    obtain ⟨r, hr, hholds⟩ := (howned i).mp hown
    have hprogress := Phase.inProgress_of_holdsLock hholds
    rw [hidle r (List.mem_of_getElem? hr)] at hprogress
    nomatch hprogress

/-- **The lock is never orphaned** in a run in which no timeout fires while its call is queued for
    the lock. -/
theorem run_lock_free (maxSize : Nat) (events : List Event)
    (h : AllSteps step NotQueued (new maxSize) events) :
    AllStates step LockFree (new maxSize) events := by
  have howned : AllStates step LockOwned (new maxSize) events :=
    allStates_of_step (fun s e s' hs hstep => step_lockOwned hs hstep) (new_lockOwned maxSize)
  have hnone : AllStates step NoOrphan (new maxSize) events :=
    allStates_of_allSteps (fun s e s' hs hnot hstep => step_noOrphan hs hnot hstep)
      ⟨rfl, by simp [new]⟩ h
  apply (howned.and hnone).imp
  rintro s ⟨hs, hs'⟩
  exact lockFree_of_noOrphan hs hs'

/-- Two calls in a budget for one: the second waits for memory, with the lock, until it times
    out. -/
theorem run_lock_free_example :
    AllStates step LockFree (new 8)
      [.start [sixBytes] .unbounded, .advance 0, .advance 0, .advance 0, .advance 0, .advance 0,
        .advance 0, .start [sixBytes] .finite, .advance 1, .advance 1, .advance 1, .advance 1,
        .timeoutFires 1, .advance 1, .advance 1, .advance 0, .advance 0] :=
  run_lock_free 8 _ (by decide)

/-- **A call that times out while another one holds the lock**: its thread gets the lock when all
    calls are over. -/
theorem lock_orphaned :
    ¬ AllStates step LockFree (new 8)
      [.start [sixBytes] .finite, .advance 0, .advance 0, .start [sixBytes] .finite, .advance 1,
        .timeoutFires 1, .advance 1, .advance 0, .advance 0, .advance 0, .advance 0, .advance 0,
        .advance 0, .orphanAcquires] := by
  decide

/-! ## What an orphan does -/

/-- **An orphaned lock stays orphaned**: no call ever gets past the lock again. -/
theorem orphan_forever {s : MemoryCache} (howned : s.LockOwned) (hs : s.lockOwner = .orphan)
    (events : List Event) : AllStates step (fun s => s.lockOwner = .orphan) s events := by
  have hall : AllStates step (fun s => s.LockOwned ∧ s.lockOwner = .orphan) s events := by
    apply allStates_of_step ?_ ⟨howned, hs⟩
    rintro s e s' ⟨howned, hs⟩ h
    refine ⟨step_lockOwned howned h, ?_⟩
    have hmoves : ∀ i r, s.requests[i]? = some r → Move s i r s' → s'.lockOwner = .orphan := by
      intro i r hr hmove
      cases hmove with
      | quiet | dequeue | reserve | free => exact hs
      | acquire _ hfree => exact absurd (hs.symm.trans hfree) (by simp)
      | release hlock =>
        -- the call would be the owner
        have hown := (howned i).mpr ⟨r, hr, hlock⟩
        exact absurd (hs.symm.trans hown) (by simp)
    cases e with
    | start descriptors timeout =>
      obtain ⟨size, -, rfl⟩ := Option.map_eq_some_iff.mp h
      exact hs
    | advance i =>
      obtain ⟨r, hr, hmove⟩ := advance_move h
      exact hmoves i r hr hmove
    | timeoutFires i =>
      obtain ⟨r, hr, hmove | ⟨-, -, rfl⟩⟩ := timeoutFires_move h
      · exact hmoves i r hr hmove
      · exact hs
    | orphanAcquires =>
      unfold step orphanAcquires at h
      dsimp only at h
      split at h
      · obtain rfl := Option.some.inj h
        rfl
      · nomatch h
    | drain =>
      obtain rfl := Option.some.inj h
      exact hs
  exact hall.imp fun s hs => hs.2

end Drift.MemoryCache
