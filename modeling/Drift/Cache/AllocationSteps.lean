/-
  What one step of an allocation call can do to the shared state, said once.

  `advance` and `timeoutFires` of `Drift.Cache.Allocation` take a call through fifteen phases.  What
  an invariant has to know of a phase is little: whether the call holds `_lock_acquire_memory`,
  whether `_enqueued_size` counts it, and which handles it has.  `Move` lists what a step does in
  these terms, and `advance_move` and `timeoutFires_move` are the only places that go through the
  phases.
-/
import Drift.Cache.Allocation

namespace Drift

namespace Phase

/-- The call holds `_lock_acquire_memory`. -/
def holdsLock : Phase → Bool
  | .locked | .looping | .waiting | .woken | .checked | .abandoning => true
  | _ => false

/-- `_enqueued_size` counts the call. -/
def isEnqueued : Phase → Bool
  | .dequeued | .live _ | .freed | .done | .failed => false
  | _ => true

/-- The handles of a live allocation. -/
def handles? : Phase → Option (List Nat)
  | .live handles => some handles
  | _ => none

/-- The call is still inside `_schedule_alloc`. -/
def inProgress : Phase → Bool
  | .live _ | .freed | .done | .failed => false
  | _ => true

theorem inProgress_of_holdsLock {phase : Phase} (h : phase.holdsLock = true) :
    phase.inProgress = true := by
  cases phase <;> first | rfl | nomatch h

end Phase

namespace MemoryCache

/-- What a step of call `i` does, by what it changes. -/
inductive Move (s : MemoryCache) (i : Nat) (r : Request) : MemoryCache → Prop where
  /-- The call goes on, with the same hold on the lock and on `_enqueued_size`. -/
  | quiet {phase : Phase} (memoryFreed : Bool) (hlock : phase.holdsLock = r.phase.holdsLock)
      (henqueued : phase.isEnqueued = r.phase.isEnqueued) (hbefore : r.phase.handles? = none)
      (hafter : phase.handles? = none) :
      Move s i r (setPhase i phase { s with memoryFreed := memoryFreed })
  | acquire (hphase : r.phase = .acquiring) (hfree : s.lockOwner = .free) :
      Move s i r (setPhase i .locked { s with lockOwner := .request i })
  | release {phase : Phase} (hlock : r.phase.holdsLock = true) (hlock' : phase.holdsLock = false)
      (henqueued : phase.isEnqueued = r.phase.isEnqueued) (hbefore : r.phase.handles? = none)
      (hafter : phase.handles? = none) :
      Move s i r (setPhase i phase { s with lockOwner := .free })
  | dequeue {phase : Phase} (hlock : r.phase.holdsLock = false) (hlock' : phase.holdsLock = false)
      (henqueued : r.phase.isEnqueued = true) (henqueued' : phase.isEnqueued = false)
      (hbefore : r.phase.handles? = none) (hafter : phase.handles? = none) :
      Move s i r (setPhase i phase { s with enqueuedSize := s.enqueuedSize - r.size })
  | reserve (hphase : r.phase = .dequeued) : Move s i r (s.reserve i r)
  | free {handles : List Nat} (hphase : r.phase = .live handles) : Move s i r (s.free i r handles)

/-- A step that leaves the counters, the lock and the pipe alone. -/
theorem move_setPhase {s : MemoryCache} {i : Nat} {r : Request} (phase : Phase)
    (hlock : phase.holdsLock = r.phase.holdsLock) (henqueued : phase.isEnqueued = r.phase.isEnqueued)
    (hbefore : r.phase.handles? = none) (hafter : phase.handles? = none) :
    Move s i r (s.setPhase i phase) :=
  Move.quiet s.memoryFreed hlock henqueued hbefore hafter

/-- **The step of a call.** -/
theorem advance_move {s s' : MemoryCache} {i : Nat} (h : s.advance i = some s') :
    ∃ r, s.requests[i]? = some r ∧ Move s i r s' := by
  obtain ⟨r, hr, h⟩ := Option.bind_eq_some_iff.mp h
  refine ⟨r, hr, ?_⟩
  cases hphase : r.phase with
  | enqueued =>
    simp only [hphase, immediateCheck] at h
    split at h <;>
      · obtain rfl := Option.some.inj h
        apply move_setPhase <;> simp [hphase, Phase.holdsLock, Phase.isEnqueued, Phase.handles?]
  | acquiring =>
    simp only [hphase, acquireLock] at h
    split at h
    · rename_i hfree
      obtain rfl := Option.some.inj h
      exact Move.acquire hphase hfree
    · cases h
  | locked =>
    simp only [hphase, testFits] at h
    obtain rfl := Option.some.inj h
    split
    · split
      · apply move_setPhase <;> simp [hphase, Phase.holdsLock, Phase.isEnqueued, Phase.handles?]
      · split <;>
          · apply move_setPhase <;> simp [hphase, Phase.holdsLock, Phase.isEnqueued, Phase.handles?]
    · apply move_setPhase <;> simp [hphase, Phase.holdsLock, Phase.isEnqueued, Phase.handles?]
  | looping =>
    simp only [hphase, testLoop] at h
    obtain rfl := Option.some.inj h
    split <;>
      · apply move_setPhase <;> simp [hphase, Phase.holdsLock, Phase.isEnqueued, Phase.handles?]
  | waiting =>
    simp only [hphase] at h
    split at h
    · obtain rfl := Option.some.inj h
      apply move_setPhase <;> simp [hphase, Phase.holdsLock, Phase.isEnqueued, Phase.handles?]
    · cases h
  | woken =>
    simp only [hphase] at h
    obtain rfl := Option.some.inj h
    apply Move.quiet <;> simp [hphase, Phase.holdsLock, Phase.isEnqueued, Phase.handles?]
  | checked | abandoning =>
    simp only [hphase] at h
    obtain rfl := Option.some.inj h
    apply Move.release <;> simp [hphase, Phase.holdsLock, Phase.isEnqueued, Phase.handles?]
  | released | raising =>
    simp only [hphase] at h
    obtain rfl := Option.some.inj h
    apply Move.dequeue <;> simp [hphase, Phase.holdsLock, Phase.isEnqueued, Phase.handles?]
  | dequeued =>
    simp only [hphase] at h
    obtain rfl := Option.some.inj h
    exact Move.reserve hphase
  | live handles =>
    simp only [hphase] at h
    obtain rfl := Option.some.inj h
    exact Move.free hphase
  | freed =>
    simp only [hphase] at h
    obtain rfl := Option.some.inj h
    apply Move.quiet <;> simp [hphase, Phase.holdsLock, Phase.isEnqueued, Phase.handles?]
  | done | failed =>
    simp only [hphase] at h
    cases h

/-- **The timeout of a call.**  That of a queued call leaves an executor thread behind. -/
theorem timeoutFires_move {s s' : MemoryCache} {i : Nat} (h : s.timeoutFires i = some s') :
    ∃ r, s.requests[i]? = some r ∧
      (Move s i r s' ∨ r.timeout = .finite ∧ r.phase = .acquiring ∧
        s' = setPhase i .raising { s with orphans := s.orphans + 1 }) := by
  obtain ⟨r, hr, h⟩ := Option.bind_eq_some_iff.mp h
  refine ⟨r, hr, ?_⟩
  split at h
  · rename_i hfinite
    cases hphase : r.phase with
    | acquiring =>
      simp only [hphase] at h
      obtain rfl := Option.some.inj h
      exact Or.inr ⟨hfinite, rfl, rfl⟩
    | looping | waiting | woken =>
      simp only [hphase] at h
      obtain rfl := Option.some.inj h
      left
      apply move_setPhase <;> simp [hphase, Phase.holdsLock, Phase.isEnqueued, Phase.handles?]
    | _ =>
      simp only [hphase] at h
      nomatch h
  · nomatch h

/-- A call after another call, or itself, has changed its phase. -/
theorem getElem?_setPhase (s : MemoryCache) (i j : Nat) (phase : Phase) :
    (s.setPhase i phase).requests[j]? =
      (s.requests[j]?).map fun r => if i = j then { r with phase := phase } else r := by
  unfold setPhase
  simp only [List.getElem?_modify]
  by_cases hij : i = j
  · simp [hij]
  · simp [hij]

end MemoryCache

end Drift
