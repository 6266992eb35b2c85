/-
  The accounts of the contiguous cache: what `_current_size`, `_enqueued_size`, the handles and the
  table of the runtime say about the calls of `allocate_cache`, in every interleaving.

  The handlers, the pipe and the runtime each hold a part of the state.  Every exit of a call
  adjusts the counters once, and a message goes into the pipe under the same lock that changes
  `_current_size`, so that the table after all messages sent so far is at any moment the table of
  the live allocations (`Accounts`).  The runtime lags behind: what it holds is the table of a
  prefix of the message stream.  To say something about these prefixes, a run is recorded with the
  messages it sends (`Recorded`).

  The size of an allocation is the largest sum on one device, so the table of a prefix needs on no
  device more than `_current_size` was when the last message of the prefix was sent.
-/
import Drift.Cache.AllocationSteps
import Drift.Lib.ListPerm

namespace Drift

/-- `TensorDescriptor`s on one device, in bytes. -/
def bytesOn (device : Nat) (descriptors : List TensorDescriptor) : Nat :=
  ((descriptors.filter (·.device = device)).map TensorDescriptor.bytes).sum

/-- The bytes on a device are summed tensor by tensor. -/
theorem bytesOn_append (device : Nat) (xs ys : List TensorDescriptor) :
    bytesOn device (xs ++ ys) = bytesOn device xs + bytesOn device ys := by
  simp [bytesOn]

theorem bytesOn_cons (device : Nat) (descr : TensorDescriptor) (ys : List TensorDescriptor) :
    bytesOn device (descr :: ys) =
      (if descr.device = device then descr.bytes else 0) + bytesOn device ys := by
  unfold bytesOn
  by_cases h : descr.device = device <;> simp [h]

/-- In which order the tensors are does not matter. -/
theorem bytesOn_perm {device : Nat} {xs ys : List TensorDescriptor} (h : xs.Perm ys) :
    bytesOn device xs = bytesOn device ys :=
  ((h.filter _).map _).sum_nat

/-- The loop of `get_allocation_size`. -/
theorem lookup_allocSizeByDevice (device : Nat) :
    ∀ (descriptors : List TensorDescriptor) (acc : AList fun _ : Nat => Nat),
      ((descriptors.foldl (fun acc descr =>
          acc.insert descr.device ((acc.lookup descr.device).getD 0 + descr.bytes)) acc).lookup
        device).getD 0 = (acc.lookup device).getD 0 + bytesOn device descriptors
  | [], acc => rfl
  | descr :: descriptors, acc => by
    rw [List.foldl_cons, lookup_allocSizeByDevice device descriptors, bytesOn_cons]
    by_cases h : descr.device = device
    · rw [if_pos h, h, AList.lookup_insert, Option.getD_some]
      omega
    · rw [if_neg h, AList.lookup_insert_ne (Ne.symm h)]
      omega

/-- **The size of an allocation** covers its tensors on every device. -/
theorem bytesOn_le_allocationSize {descriptors : List TensorDescriptor} {size : Nat}
    (h : getAllocationSize descriptors = some size) (device : Nat) :
    bytesOn device descriptors ≤ size := by
  have hloop := lookup_allocSizeByDevice device descriptors ∅
  have hmax := (List.max?_eq_some_iff.mp h).2
  change ((allocSizeByDevice descriptors).lookup device).getD 0 = _ at hloop
  cases hlookup : (allocSizeByDevice descriptors).lookup device with
  | none =>
    rw [hlookup] at hloop
    simp only [Option.getD_none, AList.lookup_empty] at hloop
    omega
  | some total =>
    rw [hlookup] at hloop
    simp only [Option.getD_some, AList.lookup_empty, Option.getD_none] at hloop
    have hmem : total ∈ (allocSizeByDevice descriptors).entries.map (·.2) :=
      List.mem_map_of_mem (f := (·.2)) (AList.mem_lookup_iff.mp hlookup)
    have := hmax total hmem
    omega

/-! ## What a call accounts for -/

namespace Request

/-- The handles of the call while its allocation is live. -/
def handles (r : Request) : List Nat := r.phase.handles?.getD []

/-- Each handle with its descriptor. -/
def tensors (r : Request) : List (Nat × TensorDescriptor) := r.handles.zip r.descriptors

/-- What `_current_size` counts of the call. -/
def liveBytes (r : Request) : Nat := if r.phase.handles?.isSome then r.size else 0

/-- What `_enqueued_size` counts of the call. -/
def waitingBytes (r : Request) : Nat := if r.phase.isEnqueued then r.size else 0

/-- A request that is not live holds no handles, -/
theorem handles_of_none {r : Request} (h : r.phase.handles? = none) : r.handles = [] := by
  simp [handles, h]

/-- and no tensors, -/
theorem tensors_of_none {r : Request} (h : r.phase.handles? = none) : r.tensors = [] := by
  simp [tensors, handles_of_none h]

/-- and no bytes. -/
theorem liveBytes_of_none {r : Request} (h : r.phase.handles? = none) : r.liveBytes = 0 := by
  simp [liveBytes, h]

end Request

namespace MemoryCache

/-- The accounts of the cache as its users see them. -/
structure Exact (s : MemoryCache) : Prop where
  /-- Handles of live allocations are pairwise distinct. -/
  distinct : (s.requests.flatMap Request.handles).Nodup
  /-- A live allocation has one handle per tensor. -/
  lengths : ∀ r ∈ s.requests, ∀ handles, r.phase = .live handles →
    handles.length = r.descriptors.length
  current : s.currentSize = (s.requests.map Request.liveBytes).sum
  enqueued : s.enqueuedSize = (s.requests.map Request.waitingBytes).sum
  /-- When the pipe is empty, the table holds the live handles with their descriptors. -/
  table : s.pipe = [] → ∀ handle descr, s.allocatedTensors.lookup handle = some descr ↔
    ∃ r ∈ s.requests, (handle, descr) ∈ r.tensors

/-- The table when all messages in the pipe have been received. -/
def sentTable (s : MemoryCache) : AList fun _ : Nat => TensorDescriptor :=
  s.pipe.foldl receive s.allocatedTensors

/-- The tensors of all live allocations. -/
def liveTensors (s : MemoryCache) : List (Nat × TensorDescriptor) :=
  s.requests.flatMap Request.tensors

/-- The entry of a handle in the table. -/
def entry (item : Nat × TensorDescriptor) : Σ _ : Nat, TensorDescriptor := ⟨item.1, item.2⟩

/-- The invariant behind `Exact`. -/
structure Accounts (s : MemoryCache) : Prop where
  sizes : ∀ r ∈ s.requests, getAllocationSize r.descriptors = some r.size
  lengths : ∀ r ∈ s.requests, ∀ handles, r.phase = .live handles →
    handles.length = r.descriptors.length
  fresh : ∀ r ∈ s.requests, ∀ handle ∈ r.handles, handle < s.handleCounter
  current : s.currentSize = (s.requests.map Request.liveBytes).sum
  enqueued : s.enqueuedSize = (s.requests.map Request.waitingBytes).sum
  table : s.sentTable.entries.Perm (s.liveTensors.map entry)

/-- A live request has one handle for each of its tensors. -/
theorem fst_tensors {r : Request} (h : ∀ handles, r.phase = .live handles →
    handles.length = r.descriptors.length) : r.tensors.map Prod.fst = r.handles := by
  unfold Request.tensors Request.handles
  cases hphase : r.phase with
  | live handles => exact List.map_fst_zip (Nat.le_of_eq (h handles hphase))
  | _ => rfl

/-- The live tensors stand under the handles of the live requests. -/
theorem Accounts.fst_liveTensors {s : MemoryCache} (hs : s.Accounts) :
    s.liveTensors.map Prod.fst = s.requests.flatMap Request.handles := by
  unfold liveTensors
  rw [List.map_flatMap]
  apply List.flatMap_congr
  intro r hr
  exact fst_tensors (hs.lengths r hr)

/-- The keys of the table are the live handles. -/
theorem Accounts.keys_perm {s : MemoryCache} (hs : s.Accounts) :
    s.sentTable.keys.Perm (s.requests.flatMap Request.handles) := by
  have h := hs.table.map Sigma.fst
  rw [List.map_map] at h
  rw [← hs.fst_liveTensors]
  exact h

/-- What the invariant says of the table and the counters. -/
theorem Accounts.exact {s : MemoryCache} (hs : s.Accounts) : s.Exact where
  distinct := hs.keys_perm.nodup_iff.mp s.sentTable.keys_nodup
  lengths := hs.lengths
  current := hs.current
  enqueued := hs.enqueued
  table hpipe handle descr := by
    have htable : s.sentTable = s.allocatedTensors := by
      unfold sentTable
      rw [hpipe]
      rfl
    have hmem : s.allocatedTensors.lookup handle = some descr ↔
        ⟨handle, descr⟩ ∈ s.sentTable.entries := by
      rw [htable]
      exact AList.mem_lookup_iff
    rw [hmem, hs.table.mem_iff]
    constructor
    · intro h
      obtain ⟨⟨handle', descr'⟩, hlive, heq⟩ := List.mem_map.mp h
      obtain ⟨rfl, rfl⟩ : handle' = handle ∧ descr' = descr := by
        simpa [entry] using heq
      exact List.mem_flatMap.mp hlive
    · intro h
      exact List.mem_map.mpr ⟨(handle, descr), List.mem_flatMap.mpr h, rfl⟩

/-! ## The bytes on one device -/

/-- The bytes of the tensors in a table that are on `device`. -/
def deviceBytes (device : Nat) (table : AList fun _ : Nat => TensorDescriptor) : Nat :=
  bytesOn device (table.entries.map (·.2))

/-- A request puts no more on a device than the size that it was counted with. -/
theorem bytesOn_tensors_le {r : Request} (hsize : getAllocationSize r.descriptors = some r.size)
    (hlen : ∀ handles, r.phase = .live handles → handles.length = r.descriptors.length)
    (device : Nat) : bytesOn device (r.tensors.map Prod.snd) ≤ r.liveBytes := by
  cases hphase : r.phase with
  | live handles =>
    have hsnd : r.tensors.map Prod.snd = r.descriptors := by
      unfold Request.tensors Request.handles
      rw [hphase]
      exact List.map_snd_zip (Nat.le_of_eq (hlen handles hphase).symm)
    have hlive : r.liveBytes = r.size := by simp [Request.liveBytes, hphase, Phase.handles?]
    rw [hsnd, hlive]
    exact bytesOn_le_allocationSize hsize device
  | _ =>
    rw [Request.tensors_of_none (by rw [hphase]; rfl)]
    exact Nat.zero_le _

/-- So the requests together put no more on it than their sizes. -/
theorem bytesOn_flatMap_le {device : Nat} : ∀ {requests : List Request},
    (∀ r ∈ requests, bytesOn device (r.tensors.map Prod.snd) ≤ r.liveBytes) →
    bytesOn device ((requests.flatMap Request.tensors).map Prod.snd) ≤
      (requests.map Request.liveBytes).sum
  | [], _ => Nat.le_refl 0
  | r :: requests, h => by
    rw [List.flatMap_cons, List.map_append, bytesOn_append, List.map_cons, List.sum_cons]
    have hr := h r List.mem_cons_self
    have hrec := bytesOn_flatMap_le fun r' hr' => h r' (List.mem_cons_of_mem _ hr')
    omega

/-- **The per-device bound**: `_current_size` covers the table on every device. -/
theorem Accounts.deviceBytes_le {s : MemoryCache} (hs : s.Accounts) (device : Nat) :
    (deviceBytes device s.sentTable : Int) ≤ s.currentSize := by
  have hperm := hs.table.map (·.2)
  rw [List.map_map] at hperm
  have heq : deviceBytes device s.sentTable = bytesOn device (s.liveTensors.map Prod.snd) :=
    bytesOn_perm hperm
  have hle : bytesOn device (s.liveTensors.map Prod.snd) ≤ (s.requests.map Request.liveBytes).sum :=
    bytesOn_flatMap_le fun r hr => bytesOn_tensors_le (hs.sizes r hr) (hs.lengths r hr) device
  rw [heq, hs.current]
  omega

/-! ## The steps -/

/-- **A step of call `r`** keeps the accounts if it adjusts each of them by what changes for `r`. -/
theorem Accounts.setPhase {s s₀ : MemoryCache} (hs : s.Accounts) {i : Nat} {r r' : Request}
    {phase : Phase} (hr : s.requests[i]? = some r) (hr' : { r with phase := phase } = r')
    (hreq : s₀.requests = s.requests) (hcounter : s.handleCounter ≤ s₀.handleCounter)
    (hlen : ∀ handles, phase = .live handles → handles.length = r.descriptors.length)
    (hfresh : ∀ handle ∈ r'.handles, handle < s₀.handleCounter)
    (hcur : s₀.currentSize + r.liveBytes = s.currentSize + r'.liveBytes)
    (henq : s₀.enqueuedSize + r.waitingBytes = s.enqueuedSize + r'.waitingBytes)
    (htable : ∀ rest, s.sentTable.entries.Perm (r.tensors.map entry ++ rest) →
      s₀.sentTable.entries.Perm (r'.tensors.map entry ++ rest)) :
    (s₀.setPhase i phase).Accounts := by
  obtain ⟨front, back, hsplit, hmodify⟩ := exists_split_modify hr
  have hrequests : (s₀.setPhase i phase).requests = front ++ r' :: back := by
    unfold MemoryCache.setPhase
    rw [hreq, ← hr']
    exact hmodify fun r => { r with phase := phase }
  have hmem : ∀ r₁ ∈ (s₀.setPhase i phase).requests, r₁ ∈ s.requests ∨ r₁ = r' := by
    intro r₁ hr₁
    rw [hrequests] at hr₁
    rw [hsplit]
    rcases List.mem_append.mp hr₁ with h | h
    · exact Or.inl (List.mem_append_left _ h)
    · rcases List.mem_cons.mp h with h | h
      · exact Or.inr h
      · exact Or.inl (List.mem_append_right _ (List.mem_cons_of_mem _ h))
  refine ⟨?_, ?_, ?_, ?_, ?_, ?_⟩
  · intro r₁ hr₁
    rcases hmem r₁ hr₁ with h | rfl
    · exact hs.sizes r₁ h
    · rw [← hr']
      exact hs.sizes r (List.mem_of_getElem? hr)
  · intro r₁ hr₁ handles hphase
    rcases hmem r₁ hr₁ with h | rfl
    · exact hs.lengths r₁ h handles hphase
    · rw [← hr'] at hphase ⊢
      exact hlen handles hphase
  · intro r₁ hr₁ handle hhandle
    show handle < s₀.handleCounter
    rcases hmem r₁ hr₁ with h | rfl
    · have := hs.fresh r₁ h handle hhandle
      omega
    · exact hfresh handle hhandle
  · show s₀.currentSize = _
    have hsum := hs.current
    rw [hsplit] at hsum
    rw [hrequests]
    simp only [List.map_append, List.map_cons, List.sum_append, List.sum_cons] at hsum ⊢
    omega
  · show s₀.enqueuedSize = _
    have hsum := hs.enqueued
    rw [hsplit] at hsum
    rw [hrequests]
    simp only [List.map_append, List.map_cons, List.sum_append, List.sum_cons] at hsum ⊢
    omega
  · -- the tensors of the other calls are the rest
    show s₀.sentTable.entries.Perm _
    have htab := hs.table
    unfold liveTensors at htab ⊢
    rw [hsplit] at htab
    rw [hrequests]
    simp only [List.flatMap_append, List.flatMap_cons, List.map_append] at htab ⊢
    have hmove : ∀ xs ys zs : List (Σ _ : Nat, TensorDescriptor),
        (xs ++ (ys ++ zs)).Perm (ys ++ (xs ++ zs)) := fun xs ys zs => by
      rw [← List.append_assoc, ← List.append_assoc]
      exact List.perm_append_comm.append_right zs
    exact (htable _ (htab.trans (hmove _ _ _))).trans (hmove _ _ _)

/-- A step between phases without handles. -/
theorem Accounts.quiet {s s₀ : MemoryCache} (hs : s.Accounts) {i : Nat} {r : Request}
    {phase : Phase} (hr : s.requests[i]? = some r) (hreq : s₀.requests = s.requests)
    (hcur : s₀.currentSize = s.currentSize) (hcounter : s₀.handleCounter = s.handleCounter)
    (htable : s₀.sentTable = s.sentTable)
    (henq : s₀.enqueuedSize + r.waitingBytes
      = s.enqueuedSize + Request.waitingBytes { r with phase := phase })
    (hbefore : r.phase.handles? = none) (hafter : phase.handles? = none) :
    (s₀.setPhase i phase).Accounts := by
  have hafter' : Phase.handles? { r with phase := phase }.phase = none := hafter
  apply hs.setPhase hr rfl hreq (Nat.le_of_eq hcounter.symm)
  · rintro handles rfl
    nomatch hafter
  · rw [Request.handles_of_none hafter']
    intro handle hhandle
    nomatch hhandle
  · rw [Request.liveBytes_of_none hbefore, Request.liveBytes_of_none hafter', hcur]
  · exact henq
  · rw [Request.tensors_of_none hbefore, Request.tensors_of_none hafter', htable]
    exact fun rest h => h

/-- The reservation: fresh handles, and their tensors in the table. -/
theorem Accounts.reserve {s : MemoryCache} (hs : s.Accounts) {i : Nat} {r : Request}
    (hr : s.requests[i]? = some r) (hphase : r.phase = .dequeued) : (s.reserve i r).Accounts := by
  have hbefore : r.phase.handles? = none := by rw [hphase]; rfl
  unfold MemoryCache.reserve
  dsimp only
  refine hs.setPhase hr rfl ?_ ?_ ?_ ?_ ?_ ?_ ?_
  · rfl
  · exact Nat.le_add_right _ _
  · rintro handles ⟨⟩
    exact List.length_range'
  · intro handle hhandle
    have h := List.mem_range'_1.mp hhandle
    exact h.2
  · rw [Request.liveBytes_of_none hbefore]
    show s.currentSize + r.size + (0 : Nat) = s.currentSize + (r.size : Nat)
    omega
  · simp [Request.waitingBytes, hphase, Phase.isEnqueued]
  · intro rest hrest
    rw [Request.tensors_of_none hbefore] at hrest
    have htable : sentTable { s with
        currentSize := s.currentSize + r.size
        handleCounter := s.handleCounter + r.descriptors.length
        pipe := s.pipe ++ [.create (List.range' s.handleCounter r.descriptors.length)
          r.descriptors] }
        = receive s.sentTable (.create (List.range' s.handleCounter r.descriptors.length)
          r.descriptors) := by
      unfold sentTable
      exact List.foldl_append
    rw [htable]
    have hfst : ((List.range' s.handleCounter r.descriptors.length).zip r.descriptors).map Prod.fst
        = List.range' s.handleCounter r.descriptors.length :=
      List.map_fst_zip (Nat.le_of_eq List.length_range')
    refine (entries_foldl_insert _ s.sentTable ?_ ?_).trans (hrest.append_left _)
    · rw [hfst]
      exact List.nodup_range'
    · rw [hfst]
      intro handle hhandle hmem
      have hge := (List.mem_range'_1.mp hhandle).1
      have hlive := hs.keys_perm.mem_iff.mp (AList.mem_keys.mp hmem)
      obtain ⟨r₁, hr₁, hlive⟩ := List.mem_flatMap.mp hlive
      have := hs.fresh r₁ hr₁ handle hlive
      omega

/-- `_free`: the tensors leave the table. -/
theorem Accounts.free {s : MemoryCache} (hs : s.Accounts) {i : Nat} {r : Request}
    {handles : List Nat} (hr : s.requests[i]? = some r) (hphase : r.phase = .live handles) :
    (s.free i r handles).Accounts := by
  have hlen := hs.lengths r (List.mem_of_getElem? hr) handles hphase
  have hhandles : r.handles = handles := by simp [Request.handles, hphase, Phase.handles?]
  unfold MemoryCache.free
  refine hs.setPhase hr rfl ?_ ?_ ?_ ?_ ?_ ?_ ?_
  · rfl
  · exact Nat.le_refl _
  · rintro handles ⟨⟩
  · intro handle hhandle
    cases hhandle
  · have hlive : r.liveBytes = r.size := by simp [Request.liveBytes, hphase, Phase.handles?]
    rw [hlive]
    show s.currentSize - r.size + (r.size : Nat) = s.currentSize + (0 : Nat)
    omega
  · simp [Request.waitingBytes, hphase, Phase.isEnqueued]
  · intro rest hrest
    have htable : sentTable { s with
        pipe := s.pipe ++ [.delete handles]
        currentSize := s.currentSize - r.size } = receive s.sentTable (.delete handles) := by
      unfold sentTable
      exact List.foldl_append
    have hfst : r.tensors.map Prod.fst = handles := by
      rw [fst_tensors (hs.lengths r (List.mem_of_getElem? hr)), hhandles]
    rw [htable]
    have herase := entries_foldl_erase r.tensors s.sentTable hrest
    rw [hfst] at herase
    exact herase

/-- Every move of a call keeps the accounts. -/
theorem move_accounts {s s' : MemoryCache} {i : Nat} {r : Request} (hs : s.Accounts)
    (hr : s.requests[i]? = some r) (h : Move s i r s') : s'.Accounts := by
  cases h with
  | quiet memoryFreed _ henqueued hbefore hafter =>
    exact hs.quiet hr rfl rfl rfl rfl (by simp [Request.waitingBytes, henqueued]) hbefore hafter
  | acquire hphase _ =>
    exact hs.quiet hr rfl rfl rfl rfl
      (by simp [Request.waitingBytes, hphase, Phase.isEnqueued]) (by rw [hphase]; rfl) rfl
  | release _ _ henqueued hbefore hafter =>
    exact hs.quiet hr rfl rfl rfl rfl (by simp [Request.waitingBytes, henqueued]) hbefore hafter
  | dequeue _ _ henqueued henqueued' hbefore hafter =>
    exact hs.quiet hr rfl rfl rfl rfl
      (by simp [Request.waitingBytes, henqueued, henqueued']) hbefore hafter
  | reserve hphase => exact hs.reserve hr hphase
  | free hphase => exact hs.free hr hphase

/-- **One step keeps the accounts.** -/
theorem step_accounts {s s' : MemoryCache} {e : Event} (hs : s.Accounts)
    (h : step s e = some s') : s'.Accounts := by
  cases e with
  | start descriptors timeout =>
    obtain ⟨size, hsize, rfl⟩ := Option.map_eq_some_iff.mp h
    refine ⟨?_, ?_, ?_, ?_, ?_, ?_⟩
    · intro r hr
      rcases List.mem_append.mp hr with hr | hr
      · exact hs.sizes r hr
      · obtain rfl := List.mem_singleton.mp hr
        exact hsize
    · intro r hr
      rcases List.mem_append.mp hr with hr | hr
      · exact hs.lengths r hr
      · obtain rfl := List.mem_singleton.mp hr
        rintro handles ⟨⟩
    · intro r hr
      rcases List.mem_append.mp hr with hr | hr
      · exact hs.fresh r hr
      · obtain rfl := List.mem_singleton.mp hr
        intro handle hhandle
        cases hhandle
    · have hsum := hs.current
      simpa [Request.liveBytes, Phase.handles?] using hsum
    · have hsum := hs.enqueued
      simpa [Request.waitingBytes, Phase.isEnqueued] using hsum
    · have htab := hs.table
      show s.sentTable.entries.Perm _
      unfold liveTensors at htab ⊢
      simpa [Request.tensors, Request.handles, Phase.handles?] using htab
  | advance i =>
    obtain ⟨r, hr, hmove⟩ := advance_move h
    exact move_accounts hs hr hmove
  | timeoutFires i =>
    obtain ⟨r, hr, hmove | ⟨-, hphase, rfl⟩⟩ := timeoutFires_move h
    · exact move_accounts hs hr hmove
    · exact hs.quiet hr rfl rfl rfl rfl
        (by simp [Request.waitingBytes, hphase, Phase.isEnqueued]) (by rw [hphase]; rfl) rfl
  | orphanAcquires =>
    unfold step orphanAcquires at h
    dsimp only at h
    split at h
    · obtain rfl := Option.some.inj h
      exact ⟨hs.sizes, hs.lengths, hs.fresh, hs.current, hs.enqueued, hs.table⟩
    · cases h
  | drain =>
    obtain rfl := Option.some.inj h
    exact ⟨hs.sizes, hs.lengths, hs.fresh, hs.current, hs.enqueued, hs.table⟩

/-- Nothing is allocated in a new cache. -/
theorem new_accounts (maxSize : Nat) : (new maxSize).Accounts := by
  refine ⟨?_, ?_, ?_, rfl, rfl, List.Perm.refl _⟩
  · intro r hr
    nomatch hr
  · intro r hr
    nomatch hr
  · intro r hr
    nomatch hr

/-! ## The message stream of a run -/

/-- A message with the value that `_current_size` had when it was sent. -/
structure SentMessage where
  message : CacheMessage
  currentSize : Int

/-- The value of `_current_size` when the step from `s` to `s'` sends a message: `_schedule_alloc`
    sends after it has increased it, `_free` before it decreases it. -/
def sizeWhenSent (s s' : MemoryCache) : CacheMessage → Int
  | .create .. => s'.currentSize
  | .delete _ => s.currentSize

/-- The messages that the step from `s` to `s'` puts into the pipe. -/
def sent (s s' : MemoryCache) : List SentMessage :=
  (s'.pipe.drop s.pipe.length).map fun message => ⟨message, sizeWhenSent s s' message⟩

/-- A cache with all messages that were ever sent in it. -/
structure Recorded where
  cache : MemoryCache
  stream : List SentMessage

/-- What a step does to the pipe. -/
theorem step_pipe {s s' : MemoryCache} {e : Event} (h : step s e = some s') :
    (s'.pipe = s.pipe ∧ s'.allocatedTensors = s.allocatedTensors) ∨
    (∃ handles descriptors, s'.pipe = s.pipe ++ [.create handles descriptors] ∧
      s'.allocatedTensors = s.allocatedTensors) ∨
    (∃ handles, s'.pipe = s.pipe ++ [.delete handles] ∧
      s'.allocatedTensors = s.allocatedTensors ∧ s'.currentSize ≤ s.currentSize) ∨
    (s'.pipe = [] ∧ s'.allocatedTensors = s.sentTable) := by
  have hmoves : ∀ i r, Move s i r s' → (s'.pipe = s.pipe ∧ s'.allocatedTensors = s.allocatedTensors) ∨
      (∃ handles descriptors, s'.pipe = s.pipe ++ [.create handles descriptors] ∧
        s'.allocatedTensors = s.allocatedTensors) ∨
      (∃ handles, s'.pipe = s.pipe ++ [.delete handles] ∧
        s'.allocatedTensors = s.allocatedTensors ∧ s'.currentSize ≤ s.currentSize) := by
    intro i r hmove
    cases hmove with
    | quiet | acquire | release | dequeue => exact Or.inl ⟨rfl, rfl⟩
    | reserve => exact Or.inr (Or.inl ⟨_, _, rfl, rfl⟩)
    | free =>
      refine Or.inr (Or.inr ⟨_, rfl, rfl, ?_⟩)
      show s.currentSize - r.size ≤ s.currentSize
      omega
  cases e with
  | start descriptors timeout =>
    obtain ⟨size, -, rfl⟩ := Option.map_eq_some_iff.mp h
    exact Or.inl ⟨rfl, rfl⟩
  | advance i =>
    obtain ⟨r, -, hmove⟩ := advance_move h
    rcases hmoves i r hmove with h | h | h
    · exact Or.inl h
    · exact Or.inr (Or.inl h)
    · exact Or.inr (Or.inr (Or.inl h))
  | timeoutFires i =>
    obtain ⟨r, -, hmove | ⟨-, -, rfl⟩⟩ := timeoutFires_move h
    · rcases hmoves i r hmove with h | h | h
      · exact Or.inl h
      · exact Or.inr (Or.inl h)
      · exact Or.inr (Or.inr (Or.inl h))
    · exact Or.inl ⟨rfl, rfl⟩
  | orphanAcquires =>
    unfold step orphanAcquires at h
    dsimp only at h
    split at h
    · obtain rfl := Option.some.inj h
      exact Or.inl ⟨rfl, rfl⟩
    · nomatch h
  | drain =>
    obtain rfl := Option.some.inj h
    exact Or.inr (Or.inr (Or.inr ⟨rfl, rfl⟩))

namespace Recorded

def step (t : Recorded) (e : Event) : Option Recorded :=
  (t.cache.step e).map fun cache => ⟨cache, t.stream ++ sent t.cache cache⟩

/-- The table of the runtime after it has received `messages`. -/
def tableOf (messages : List SentMessage) : AList fun _ : Nat => TensorDescriptor :=
  (messages.map (·.message)).foldl receive ∅

/-- The pipe holds the rest of the stream, and the table is that of what came before. -/
def InOrder (t : Recorded) : Prop :=
  ∃ received, t.stream.map (·.message) = received ++ t.cache.pipe ∧
    t.cache.allocatedTensors = received.foldl receive ∅

/-- At every prefix of the stream the table fits on every device in what `_current_size` was when
    the last message of the prefix was sent. -/
def StreamBounded (t : Recorded) : Prop :=
  ∀ messages, messages <+: t.stream → ∀ last ∈ messages.getLast?, ∀ device,
    (deviceBytes device (tableOf messages) : Int) ≤ last.currentSize

/-- The table after the whole stream. -/
theorem InOrder.tableOf_stream {t : Recorded} (ht : t.InOrder) :
    tableOf t.stream = t.cache.sentTable := by
  obtain ⟨received, hstream, htable⟩ := ht
  unfold tableOf sentTable
  rw [hstream, htable, List.foldl_append]

/-- A step appends its messages to the stream, and the runtime only reads on. -/
theorem InOrder.step {t : Recorded} {cache : MemoryCache} {e : Event} (ht : t.InOrder)
    (h : t.cache.step e = some cache) : InOrder ⟨cache, t.stream ++ sent t.cache cache⟩ := by
  obtain ⟨received, hstream, htable⟩ := ht
  unfold InOrder sent
  simp only [List.map_append, List.map_map, hstream]
  rcases step_pipe h with ⟨hpipe, hsame⟩ | ⟨handles, descriptors, hpipe, hsame⟩ |
    ⟨handles, hpipe, hsame, -⟩ | ⟨hpipe, hdrained⟩
  · refine ⟨received, ?_, hsame.trans htable⟩
    simp [hpipe]
  · refine ⟨received, ?_, hsame.trans htable⟩
    simp [hpipe]
  · refine ⟨received, ?_, hsame.trans htable⟩
    simp [hpipe]
  · refine ⟨received ++ t.cache.pipe, ?_, ?_⟩
    · simp [hpipe]
    · rw [hdrained, sentTable, htable, List.foldl_append]

/-- Each message is sent when `_current_size` covers the table with it. -/
theorem StreamBounded.step {t : Recorded} {cache : MemoryCache} {e : Event} (ht : t.StreamBounded)
    (hin : InOrder ⟨cache, t.stream ++ sent t.cache cache⟩) (hcache : cache.Accounts)
    (h : t.cache.step e = some cache) :
    StreamBounded ⟨cache, t.stream ++ sent t.cache cache⟩ := by
  -- at most one message is new, and the table with it is that of all live allocations
  have hnew : sent t.cache cache = [] ∨
      ∃ last, sent t.cache cache = [last] ∧ cache.currentSize ≤ last.currentSize := by
    unfold sent
    rcases step_pipe h with ⟨hpipe, -⟩ | ⟨handles, descriptors, hpipe, -⟩ |
      ⟨handles, hpipe, -, hle⟩ | ⟨hpipe, -⟩
    · exact Or.inl (by simp [hpipe])
    · exact Or.inr ⟨_, by rw [hpipe, List.drop_left]; rfl, Int.le_refl _⟩
    · exact Or.inr ⟨_, by rw [hpipe, List.drop_left]; rfl, hle⟩
    · exact Or.inl (by simp [hpipe])
  rcases hnew with hnil | ⟨last, hlast, hle⟩
  · rw [hnil, List.append_nil]
    exact ht
  · rw [hlast] at hin ⊢
    intro messages hbehind last' hlast' device
    rcases List.prefix_concat_iff.mp hbehind with rfl | hbehind
    · obtain rfl : last = last' := by simpa using hlast'
      have htable := hin.tableOf_stream
      have hbound := hcache.deviceBytes_le device
      rw [htable]
      exact Int.le_trans hbound hle
    · exact ht messages hbehind last' hlast' device

end Recorded

/-- **Cache accounting is exact**, in every run: the counters, the handles and the drained table are
    those of the calls, and at every prefix of the message stream the table fits. -/
theorem run_accounting (maxSize : Nat) (events : List Event) :
    AllStates Recorded.step
      (fun t => t.cache.Exact ∧ t.InOrder ∧ t.StreamBounded) ⟨new maxSize, []⟩ events := by
  have hall : AllStates Recorded.step
      (fun t => t.cache.Accounts ∧ t.InOrder ∧ t.StreamBounded) ⟨new maxSize, []⟩ events := by
    apply allStates_of_step
    · rintro t e t' ⟨haccounts, hin, hbounded⟩ h
      obtain ⟨cache, hstep, rfl⟩ := Option.map_eq_some_iff.mp h
      have haccounts' := step_accounts haccounts hstep
      have hin' := hin.step hstep
      exact ⟨haccounts', hin', hbounded.step hin' haccounts' hstep⟩
    · refine ⟨new_accounts maxSize, ⟨[], rfl, rfl⟩, ?_⟩
      intro messages hbehind last hlast
      rw [List.prefix_nil.mp hbehind] at hlast
      nomatch hlast
  apply hall.imp
  rintro t ⟨haccounts, hin, hbounded⟩
  exact ⟨haccounts.exact, hin, hbounded⟩

end MemoryCache

end Drift
