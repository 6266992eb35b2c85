/-
  `compute_spans` of `utils/dht.py`: the span of blocks of every server, from what the DHT stores
  for each block.

  The entries are read block by block, and those of one block in the order of the peer ids.  What an
  entry changes is the span of its own server only.  So the span of a server is a fold over the
  server's own entries (`lookup_computeSpans`), and to add the entries of a new server leaves the
  other spans as they were (`lookup_computeSpans_congr`).
-/
import Drift.Python
import Mathlib.Algebra.Order.Field.Rat
import Mathlib.Data.List.AList
import Mathlib.Data.NNRat.Defs
import Mathlib.Order.WithBot

namespace Drift

/-- `ServerState`. -/
inductive ServerState where
  | offline
  | joining
  | online
deriving DecidableEq

def ServerState.value : ServerState → Nat
  | .offline => 0
  | .joining => 1
  | .online => 2

namespace Dht

/-- A round trip time in seconds; `inf` of a peer that did not answer. -/
abbrev Rtt := WithTop ℚ

/-- `data_structures.ServerInfo`: the fields that placement and routing read.  An `RPS` is not
    negative. -/
structure ServerInfo (P : Type) where
  state : ServerState
  throughput : ℚ≥0
  startBlock : Option Nat
  endBlock : Option Nat
  inferenceRps : Option ℚ≥0
  cacheTokensLeft : Option Nat
  /-- `next_pings`, by the peers themselves, not their names. -/
  nextPings : Option (AList fun _ : P => Rtt)

/-- `data_structures.RemoteModuleInfo`.  Of the `uid` it is the block index that counts. -/
structure RemoteModuleInfo (P : Type) where
  uid : Nat
  servers : AList fun _ : P => ServerInfo P

/-- `data_structures.RemoteSpanInfo`.  The blocks are counted from the first one that was asked
    for; an end that lies before it is negative. -/
structure RemoteSpanInfo (P : Type) where
  peerId : P
  start : Nat
  stop : Int
  serverInfo : ServerInfo P

namespace RemoteSpanInfo

variable {P : Type}

def length (span : RemoteSpanInfo P) : Int := span.stop - span.start

def state (span : RemoteSpanInfo P) : ServerState := span.serverInfo.state

def throughput (span : RemoteSpanInfo P) : ℚ := span.serverInfo.throughput

theorem throughput_nonneg (span : RemoteSpanInfo P) : 0 ≤ span.throughput :=
  span.serverInfo.throughput.2

end RemoteSpanInfo

/-- `Dict[PeerID, RemoteSpanInfo]`. -/
abbrev Spans (P : Type) := AList fun _ : P => RemoteSpanInfo P

section ComputeSpans

variable {P : Type} [LinearOrder P]

/-- The span that an entry opens at a block.  On naturals `-` is `max(… - …, 0)`. -/
def newSpan (blockOffset numBlocks blockIdx : Nat) (peerId : P) (serverInfo : ServerInfo P) :
    RemoteSpanInfo P :=
  match serverInfo.startBlock, serverInfo.endBlock with
  | some startBlock, some endBlock =>
    ⟨peerId, startBlock - blockOffset, min ((endBlock : Int) - blockOffset) numBlocks, serverInfo⟩
  | _, _ => ⟨peerId, blockIdx, blockIdx + 1, serverInfo⟩

/-- What an entry makes of the span that its server has so far. -/
def extendSpan (blockOffset numBlocks blockIdx : Nat) (peerId : P) (serverInfo : ServerInfo P) :
    Option (RemoteSpanInfo P) → RemoteSpanInfo P
  | none => newSpan blockOffset numBlocks blockIdx peerId serverInfo
  | some span =>
    if span.state.value < serverInfo.state.value then
      newSpan blockOffset numBlocks blockIdx peerId serverInfo
    else if span.state = serverInfo.state then
      { span with stop := max span.stop (blockIdx + 1) }
    else span

/-- `spans[peer_id] = span`.  The newest key comes first, and a key that is there keeps its
    place. -/
def setSpan (spans : Spans P) (peerId : P) (span : RemoteSpanInfo P) : Spans P :=
  if peerId ∈ spans then spans.replace peerId span else spans.insert peerId span

/-- The body of the inner loop of `compute_spans`. -/
def addEntry (blockOffset numBlocks : Nat) (minState : ServerState) (blockIdx : Nat)
    (spans : Spans P) (entry : Sigma fun _ : P => ServerInfo P) : Spans P :=
  if entry.2.state.value < minState.value then spans
  else
    setSpan spans entry.1
      (extendSpan blockOffset numBlocks blockIdx entry.1 entry.2 (spans.lookup entry.1))

/-- `sorted(module_info.servers.items())`. -/
def sortedItems (servers : AList fun _ : P => ServerInfo P) :
    List (Sigma fun _ : P => ServerInfo P) :=
  servers.entries.insertionSort fun entry entry' => entry.1 ≤ entry'.1

/-- `compute_spans`. -/
def computeSpans (moduleInfos : List (RemoteModuleInfo P)) (minState : ServerState) : Spans P :=
  let blockOffset := (moduleInfos.head?.map (·.uid)).getD 0
  let numBlocks := moduleInfos.length
  moduleInfos.zipIdx.foldl
    (fun spans block =>
      (sortedItems block.1.servers).foldl (addEntry blockOffset numBlocks minState block.2) spans)
    ∅

/-! ## Server by server -/

theorem dlookup_kreplace (key other : P) (span : RemoteSpanInfo P) :
    ∀ entries : List (Sigma fun _ : P => RemoteSpanInfo P), key ∈ entries.keys →
      (entries.kreplace key span).dlookup other
        = if other = key then some span else entries.dlookup other := by
  intro entries
  induction entries with
  | nil =>
    intro hmem
    cases hmem
  | cons entry entries ih =>
    intro hmem
    by_cases heq : key = entry.1
    · -- the entry that is replaced
      have hcons : (entry :: entries).kreplace key span = ⟨key, span⟩ :: entries :=
        List.lookmap_cons_some _ _ (dif_pos heq)
      rw [hcons]
      split
      · rename_i hother
        rw [hother, List.dlookup_cons_eq]
      · rename_i hother
        rw [List.dlookup_cons_ne _ _ hother, List.dlookup_cons_ne _ _ (heq ▸ hother)]
    · have hcons : (entry :: entries).kreplace key span = entry :: entries.kreplace key span :=
        List.lookmap_cons_none _ _ (dif_neg heq)
      have hmem : key ∈ entries.keys := by
        rw [List.keys_cons, List.mem_cons] at hmem
        exact hmem.resolve_left heq
      rw [hcons]
      by_cases hother : other = entry.1
      · subst hother
        rw [List.dlookup_cons_eq, List.dlookup_cons_eq, if_neg (Ne.symm heq)]
      · rw [List.dlookup_cons_ne _ _ hother, List.dlookup_cons_ne _ _ hother, ih hmem]

/-- The span of the peer is set, and no other one changes. -/
theorem lookup_setSpan (spans : Spans P) (peerId other : P) (span : RemoteSpanInfo P) :
    (setSpan spans peerId span).lookup other
      = if other = peerId then some span else spans.lookup other := by
  rw [setSpan]
  split
  · rename_i hmem
    exact dlookup_kreplace peerId other span spans.entries hmem
  · split
    · rename_i heq
      rw [heq, AList.lookup_insert]
    · rename_i hne
      exact AList.lookup_insert_ne hne

/-- What a block's entry of a server, if it has one, makes of the server's span. -/
def entrySpan (blockOffset numBlocks : Nat) (minState : ServerState) (peerId : P)
    (span : Option (RemoteSpanInfo P)) (entry : Option (ServerInfo P) × Nat) :
    Option (RemoteSpanInfo P) :=
  match entry.1 with
  | none => span
  | some serverInfo =>
    if serverInfo.state.value < minState.value then span
    else some (extendSpan blockOffset numBlocks entry.2 peerId serverInfo span)

variable {blockOffset numBlocks : Nat} {minState : ServerState}

/-- An entry changes the span of its own server only. -/
theorem lookup_addEntry (blockIdx : Nat) (spans : Spans P)
    (entry : Sigma fun _ : P => ServerInfo P) (peerId : P) :
    (addEntry blockOffset numBlocks minState blockIdx spans entry).lookup peerId
      = if peerId = entry.1 then
          entrySpan blockOffset numBlocks minState peerId (spans.lookup peerId)
            (some entry.2, blockIdx)
        else spans.lookup peerId := by
  rw [addEntry]
  split
  · rename_i hstate
    simp only [entrySpan, if_pos hstate, ite_self]
  · rename_i hstate
    split
    · rename_i heq
      subst heq
      rw [lookup_setSpan, if_pos rfl]
      exact (if_neg hstate).symm
    · rename_i hne
      rw [lookup_setSpan, if_neg hne]

/-- What the entries of a block do to the span of one server. -/
theorem lookup_foldl_addEntry (blockIdx : Nat) (peerId : P) :
    ∀ (entries : List (Sigma fun _ : P => ServerInfo P)) (spans : Spans P), entries.NodupKeys →
      (entries.foldl (addEntry blockOffset numBlocks minState blockIdx) spans).lookup peerId
        = entrySpan blockOffset numBlocks minState peerId (spans.lookup peerId)
            (entries.dlookup peerId, blockIdx) := by
  intro entries
  induction entries with
  | nil =>
    intro spans _
    rfl
  | cons entry entries ih =>
    intro spans hnodup
    obtain ⟨hnotin, hnodup⟩ := List.nodupKeys_cons.mp hnodup
    rw [List.foldl_cons, ih _ hnodup, lookup_addEntry]
    by_cases heq : peerId = entry.1
    · -- the entry is the server's only one
      subst heq
      rw [if_pos rfl, List.dlookup_eq_none.mpr hnotin, List.dlookup_cons_eq]
      rfl
    · rw [if_neg heq, List.dlookup_cons_ne _ _ heq]

theorem lookup_foldl_sortedItems (blockIdx : Nat) (spans : Spans P)
    (servers : AList fun _ : P => ServerInfo P) (peerId : P) :
    ((sortedItems servers).foldl (addEntry blockOffset numBlocks minState blockIdx) spans).lookup
        peerId
      = entrySpan blockOffset numBlocks minState peerId (spans.lookup peerId)
          (servers.lookup peerId, blockIdx) := by
  have hperm : (sortedItems servers).Perm servers.entries := List.perm_insertionSort _ _
  have hnodup : (sortedItems servers).NodupKeys :=
    (List.perm_nodupKeys hperm).mpr servers.nodupKeys
  rw [lookup_foldl_addEntry blockIdx peerId _ _ hnodup]
  congr 2
  exact List.perm_dlookup peerId hnodup hperm

/-- **The span of a server** is made of the server's own entries, block by block. -/
theorem lookup_computeSpans (moduleInfos : List (RemoteModuleInfo P)) (minState : ServerState)
    (peerId : P) :
    (computeSpans moduleInfos minState).lookup peerId
      = (moduleInfos.map fun moduleInfo => moduleInfo.servers.lookup peerId).zipIdx.foldl
          (entrySpan ((moduleInfos.head?.map (·.uid)).getD 0) moduleInfos.length minState peerId)
          none := by
  rw [computeSpans, List.zipIdx_map, List.foldl_map]
  generalize (moduleInfos.head?.map (·.uid)).getD 0 = blockOffset
  generalize moduleInfos.length = numBlocks
  rw [← AList.lookup_empty (β := fun _ : P => RemoteSpanInfo P) peerId]
  generalize (∅ : Spans P) = spans
  induction moduleInfos.zipIdx generalizing spans with
  | nil => rfl
  | cons block blocks ih =>
    rw [List.foldl_cons, List.foldl_cons, ih, lookup_foldl_sortedItems]
    rfl

/-- Where the entries of a server are the same, so is its span. -/
theorem lookup_computeSpans_congr {moduleInfos moduleInfos' : List (RemoteModuleInfo P)}
    (minState : ServerState) {peerId : P}
    (hoffset : moduleInfos.head?.map (·.uid) = moduleInfos'.head?.map (·.uid))
    (h : (moduleInfos.map fun moduleInfo => moduleInfo.servers.lookup peerId)
      = moduleInfos'.map fun moduleInfo => moduleInfo.servers.lookup peerId) :
    (computeSpans moduleInfos minState).lookup peerId
      = (computeSpans moduleInfos' minState).lookup peerId := by
  have hlength : moduleInfos.length = moduleInfos'.length := by
    have hmap := congrArg List.length h
    rw [List.length_map, List.length_map] at hmap
    exact hmap
  rw [lookup_computeSpans, lookup_computeSpans, hoffset, h, hlength]

/-- **The invariant rule for spans**: what holds of every span that an entry opens, and is kept when
    a span is extended to a block, holds of the spans that are found. -/
theorem computeSpans_invariant {moduleInfos : List (RemoteModuleInfo P)} {minState : ServerState}
    {peerId : P} {Q : RemoteSpanInfo P → Prop}
    (hopen : ∀ blockOffset, ∀ blockIdx < moduleInfos.length, ∀ moduleInfo ∈ moduleInfos,
      ∀ serverInfo ∈ moduleInfo.servers.lookup peerId,
        Q (newSpan blockOffset moduleInfos.length blockIdx peerId serverInfo))
    (hextend : ∀ blockIdx < moduleInfos.length, ∀ span, Q span →
      Q { span with stop := max span.stop (blockIdx + 1) })
    {span : RemoteSpanInfo P} (h : (computeSpans moduleInfos minState).lookup peerId = some span) :
    Q span := by
  rw [lookup_computeSpans] at h
  generalize (moduleInfos.head?.map (·.uid)).getD 0 = blockOffset at h
  have hentries : ∀ entry ∈ (moduleInfos.map fun moduleInfo =>
      moduleInfo.servers.lookup peerId).zipIdx, entry.2 < moduleInfos.length ∧
        ∃ moduleInfo ∈ moduleInfos, moduleInfo.servers.lookup peerId = entry.1 := by
    rintro ⟨entry, i⟩ hentry
    obtain ⟨-, hlt, hget⟩ := List.mem_zipIdx hentry
    rw [List.length_map, Nat.zero_add] at hlt
    refine ⟨hlt, moduleInfos[i], List.getElem_mem _, ?_⟩
    rw [hget, List.getElem_map]
    rfl
  generalize (moduleInfos.map fun moduleInfo => moduleInfo.servers.lookup peerId).zipIdx = entries
    at h hentries
  -- entry by entry
  have hall : ∀ start : Option (RemoteSpanInfo P), (∀ span ∈ start, Q span) →
      ∀ span ∈ entries.foldl (entrySpan blockOffset moduleInfos.length minState peerId) start,
        Q span := by
    clear h
    induction entries with
    | nil => exact fun start hstart => hstart
    | cons entry entries ih =>
      intro start hstart
      refine ih (fun entry' hentry' => hentries entry' (List.mem_cons_of_mem _ hentry')) _ ?_
      obtain ⟨hlt, moduleInfo, hmem, hlookup⟩ := hentries entry List.mem_cons_self
      intro span hspan
      rw [entrySpan] at hspan
      split at hspan
      · exact hstart span hspan
      · rename_i serverInfo hserverInfo
        have hnew := hopen blockOffset entry.2 hlt moduleInfo hmem serverInfo
          (hlookup.trans hserverInfo)
        split at hspan
        · exact hstart span hspan
        · obtain rfl := Option.some.inj hspan
          cases start with
          | none => exact hnew
          | some before =>
            rw [extendSpan]
            split
            · exact hnew
            · split
              · exact hextend entry.2 hlt before (hstart before rfl)
              · exact hstart before rfl
  exact hall none (fun _ hnone => nomatch hnone) span h

/-- A span is that of its server, and does not end behind the blocks that were asked for. -/
theorem lookup_computeSpans_bounds {moduleInfos : List (RemoteModuleInfo P)}
    {minState : ServerState} {peerId : P} {span : RemoteSpanInfo P}
    (h : (computeSpans moduleInfos minState).lookup peerId = some span) :
    span.peerId = peerId ∧ span.stop ≤ moduleInfos.length := by
  refine computeSpans_invariant
    (Q := fun span => span.peerId = peerId ∧ span.stop ≤ moduleInfos.length) ?_ ?_ h
  · intro blockOffset blockIdx hlt _ _ serverInfo _
    rw [newSpan]
    split
    · exact ⟨rfl, Int.min_le_right _ _⟩
    · refine ⟨rfl, ?_⟩
      show (blockIdx : Int) + 1 ≤ moduleInfos.length
      omega
  · rintro blockIdx hlt span ⟨hpeer, hstop⟩
    refine ⟨hpeer, ?_⟩
    show max span.stop ((blockIdx : Int) + 1) ≤ moduleInfos.length
    omega

/-- The announcement of a span is one of the entries of its server. -/
theorem lookup_computeSpans_serverInfo {moduleInfos : List (RemoteModuleInfo P)}
    {minState : ServerState} {peerId : P} {span : RemoteSpanInfo P}
    (h : (computeSpans moduleInfos minState).lookup peerId = some span) :
    ∃ moduleInfo ∈ moduleInfos, moduleInfo.servers.lookup peerId = some span.serverInfo := by
  refine computeSpans_invariant (Q := fun span =>
    ∃ moduleInfo ∈ moduleInfos, moduleInfo.servers.lookup peerId = some span.serverInfo) ?_ ?_ h
  · intro blockOffset blockIdx _ moduleInfo hmem serverInfo hlookup
    refine ⟨moduleInfo, hmem, ?_⟩
    rw [newSpan]
    split <;> exact hlookup
  · exact fun _ _ _ hspan => hspan

/-! ## The servers that are online -/

section Online

omit [LinearOrder P]

/-- An entry below the state that is asked for does not count. -/
theorem entrySpan_of_below {minState : ServerState} {peerId : P}
    {entry : Option (ServerInfo P) × Nat}
    (h : ∀ serverInfo, entry.1 = some serverInfo → serverInfo.state.value < minState.value)
    (span : Option (RemoteSpanInfo P)) :
    entrySpan blockOffset numBlocks minState peerId span entry = span := by
  obtain ⟨entry, k⟩ := entry
  cases entry with
  | none => rfl
  | some serverInfo => exact if_pos (h serverInfo rfl)

theorem foldl_entrySpan_of_below {minState : ServerState} {peerId : P}
    (span : Option (RemoteSpanInfo P)) :
    ∀ (entries : List (Option (ServerInfo P) × Nat)),
      (∀ entry ∈ entries, ∀ serverInfo, entry.1 = some serverInfo →
        serverInfo.state.value < minState.value) →
      entries.foldl (entrySpan blockOffset numBlocks minState peerId) span = span
  | [], _ => rfl
  | entry :: entries, h => by
    rw [List.foldl_cons, entrySpan_of_below (h entry List.mem_cons_self)]
    exact foldl_entrySpan_of_below span entries fun entry' hmem =>
      h entry' (List.mem_cons_of_mem _ hmem)

theorem value_lt_online {state : ServerState} (h : state ≠ .online) :
    state.value < ServerState.online.value := by
  cases state with
  | online => exact absurd rfl h
  | offline => decide
  | joining => decide

/-- An entry that is not online does not count. -/
theorem entrySpan_of_not_online {peerId : P} {entry : Option (ServerInfo P)}
    (h : ∀ serverInfo, entry = some serverInfo → serverInfo.state ≠ .online)
    (span : Option (RemoteSpanInfo P)) (k : Nat) :
    entrySpan blockOffset numBlocks .online peerId span (entry, k) = span :=
  entrySpan_of_below (fun serverInfo hinfo => value_lt_online (h serverInfo hinfo)) span

theorem foldl_entrySpan_of_not_online {peerId : P} (span : Option (RemoteSpanInfo P))
    (entries : List (Option (ServerInfo P))) (k : Nat)
    (h : ∀ serverInfo, some serverInfo ∈ entries → serverInfo.state ≠ .online) :
    (entries.zipIdx k).foldl (entrySpan blockOffset numBlocks .online peerId) span = span :=
  foldl_entrySpan_of_below span _ fun _ hentry serverInfo hinfo =>
    value_lt_online (h serverInfo (hinfo ▸ List.fst_mem_of_mem_zipIdx hentry))

/-- A span of a server that is online is extended by the entries that are. -/
theorem foldl_entrySpan_some {peerId : P} : ∀ (entries : List (Option (ServerInfo P))) (k : Nat)
    (span : RemoteSpanInfo P), span.state = .online →
    ∃ span', (entries.zipIdx k).foldl (entrySpan blockOffset numBlocks .online peerId) (some span)
        = some span' ∧ span'.start = span.start ∧
      ∀ b : Nat, (b : Int) < span'.stop ↔ (b : Int) < span.stop ∨
        ∃ j serverInfo, entries[j]? = some (some serverInfo) ∧ serverInfo.state = .online ∧
          b ≤ k + j
  | [], _, span, _ => by
    refine ⟨span, rfl, rfl, fun _ => (or_iff_left ?_).symm⟩
    rintro ⟨_, _, hget, -⟩
    nomatch hget
  | entry :: entries, k, span, hspan => by
    rw [List.zipIdx_cons, List.foldl_cons]
    by_cases hentry : ∃ serverInfo, entry = some serverInfo ∧ serverInfo.state = .online
    · obtain ⟨serverInfo, rfl, honline⟩ := hentry
      have hstep : entrySpan blockOffset numBlocks .online peerId (some span) (some serverInfo, k)
          = some { span with stop := max span.stop (k + 1) } := by
        simp [entrySpan, extendSpan, honline, hspan]
      obtain ⟨span', hfold, hstart, hstop⟩ := foldl_entrySpan_some entries (k + 1)
        { span with stop := max span.stop (k + 1) } hspan
      rw [hstep]
      refine ⟨span', hfold, hstart, fun b => (hstop b).trans ?_⟩
      constructor
      · rintro (hlt | ⟨j, info, hget, hinfo, hle⟩)
        · rcases lt_max_iff.mp hlt with hlt | hlt
          · exact .inl hlt
          · exact .inr ⟨0, serverInfo, rfl, honline, by omega⟩
        · exact .inr ⟨j + 1, info, hget, hinfo, by omega⟩
      · rintro (hlt | ⟨j, info, hget, hinfo, hle⟩)
        · exact .inl (lt_max_of_lt_left hlt)
        · cases j with
          | zero => exact .inl (lt_max_of_lt_right (by omega))
          | succ j => exact .inr ⟨j, info, hget, hinfo, by omega⟩
    · obtain ⟨span', hfold, hstart, hstop⟩ := foldl_entrySpan_some entries (k + 1) span hspan
      rw [entrySpan_of_not_online fun info hinfo honline => hentry ⟨info, hinfo, honline⟩]
      refine ⟨span', hfold, hstart, fun b => (hstop b).trans (or_congr_right ?_)⟩
      constructor
      · rintro ⟨j, info, hget, hinfo, hle⟩
        exact ⟨j + 1, info, hget, hinfo, by omega⟩
      · rintro ⟨j, info, hget, hinfo, hle⟩
        cases j with
        | zero => exact absurd ⟨info, Option.some.inj hget, hinfo⟩ hentry
        | succ j => exact ⟨j, info, hget, hinfo, by omega⟩

/-- **The span of a server that is online** is opened by its first entry and extended by the later
    ones. -/
theorem foldl_entrySpan_none {peerId : P} : ∀ (entries : List (Option (ServerInfo P))) (k : Nat)
    {first : Nat} {serverInfo : ServerInfo P}, entries[first]? = some (some serverInfo) →
    serverInfo.state = .online →
    (∀ j < first, ∀ info, entries[j]? = some (some info) → info.state ≠ .online) →
    ∃ span, (entries.zipIdx k).foldl (entrySpan blockOffset numBlocks .online peerId) none
        = some span ∧
      span.start = (newSpan blockOffset numBlocks (k + first) peerId serverInfo).start ∧
      ∀ b : Nat, (b : Int) < span.stop ↔
        (b : Int) < (newSpan blockOffset numBlocks (k + first) peerId serverInfo).stop ∨
          ∃ j info, first < j ∧ entries[j]? = some (some info) ∧ info.state = .online ∧ b ≤ k + j
  | entry :: entries, k, 0, serverInfo, hfirst, honline, _ => by
    obtain rfl := Option.some.inj hfirst
    have hstep : entrySpan blockOffset numBlocks .online peerId none (some serverInfo, k)
        = some (newSpan blockOffset numBlocks k peerId serverInfo) := by
      simp [entrySpan, extendSpan, honline]
    have hstate : (newSpan blockOffset numBlocks k peerId serverInfo).state = .online := by
      rw [newSpan]
      split <;> exact honline
    obtain ⟨span, hfold, hstart, hstop⟩ := foldl_entrySpan_some entries (k + 1) _ hstate
    rw [List.zipIdx_cons, List.foldl_cons, hstep]
    refine ⟨span, hfold, hstart, fun b => (hstop b).trans (or_congr_right ?_)⟩
    constructor
    · rintro ⟨j, info, hget, hinfo, hle⟩
      exact ⟨j + 1, info, by omega, hget, hinfo, by omega⟩
    · rintro ⟨j, info, hlt, hget, hinfo, hle⟩
      obtain ⟨j, rfl⟩ := Nat.exists_eq_succ_of_ne_zero (Nat.ne_of_gt hlt)
      exact ⟨j, info, hget, hinfo, by omega⟩
  | entry :: entries, k, first + 1, serverInfo, hfirst, honline, hleast => by
    have hoffline := hleast 0 (Nat.succ_pos _)
    obtain ⟨span, hfold, hstart, hstop⟩ := foldl_entrySpan_none entries (k + 1) hfirst honline
      fun j hlt info hget => hleast (j + 1) (Nat.succ_lt_succ hlt) info hget
    rw [Nat.succ_add_eq_add_succ] at hstart hstop
    rw [List.zipIdx_cons, List.foldl_cons, entrySpan_of_not_online fun info hinfo =>
      hoffline info (congrArg some hinfo)]
    refine ⟨span, hfold, hstart, fun b => (hstop b).trans (or_congr_right ?_)⟩
    constructor
    · rintro ⟨j, info, hlt, hget, hinfo, hle⟩
      exact ⟨j + 1, info, by omega, hget, hinfo, by omega⟩
    · rintro ⟨j, info, hlt, hget, hinfo, hle⟩
      cases j with
      | zero => omega
      | succ j => exact ⟨j, info, by omega, hget, hinfo, by omega⟩

end Online

end ComputeSpans

end Dht

end Drift
