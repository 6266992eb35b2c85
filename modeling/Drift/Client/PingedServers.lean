/-
  Which servers an update of `client/routing/sequence_manager.py` measures, with the
  `PingAggregator` of `utils/ping.py`.

  `_update` samples servers of the first block, of the blocks between and of the last block.  The
  second of the three assignments to `pinged_servers` forgets the sample of the first block.  So a
  server of the first block is measured exactly if it holds another block too
  (`pingingUpdate_measured_iff`).  The edges of the router from the client to the first block
  otherwise have the delay of unknown servers.

  The round trip times are in a `TimedStorage` of `hivemind`, of which only this is used: what has
  been stored is there until it expires, and storing another value takes nothing away.
-/
import Drift.Client.Bans
import Mathlib.Data.Finset.Sort

namespace Drift

/-! ## The source -/

/-- `sample_up_to`, given `random.sample`. -/
def sampleUpTo (sample : List Nat → Nat → List Nat) (population : List Nat) (k : Nat) : List Nat :=
  if k < population.length then sample population k else population

section Groups

variable (spansContainingBlock : List (List (Dht.RemoteSpanInfo Nat)))

def firstServers : List Nat := (spansContainingBlock.headD []).map (·.peerId)

/-- Those of `spans_containing_block[1:-1]`. -/
def middleServers : List Nat :=
  (spansContainingBlock.drop 1).dropLast.flatten.map (·.peerId)

def lastServers : List Nat := (spansContainingBlock.getLastD []).map (·.peerId)

/-- `pinged_servers`.  The first set is not used. -/
def pingedServers (sample : List Nat → Nat → List Nat) (maxPinged : Nat) : Finset Nat :=
  let _pingedServers := (sampleUpTo sample (firstServers spansContainingBlock) maxPinged).toFinset
  let pingedServers := (sampleUpTo sample (middleServers spansContainingBlock) maxPinged).toFinset
  pingedServers ∪ (sampleUpTo sample (lastServers spansContainingBlock) maxPinged).toFinset

end Groups

/-- The `TimedStorage` of `hivemind`, with the time at which it is used. -/
structure TimedStorage (S V : Type) where
  get (now : ℚ) (storage : S) (key : Nat) : Option V
  store (now : ℚ) (storage : S) (key : Nat) (value : V) (expiration : ℚ) : S
  items (now : ℚ) (storage : S) : AList fun _ : Nat => V
  get_store {now time expiration : ℚ} (storage : S) (key : Nat) (value : V) : now ≤ time →
    time ≤ expiration → (get time (store now storage key value expiration) key).isSome = true
  get_store_of {now time : ℚ} {storage : S} {key : Nat} (key' : Nat) (value : V) (expiration : ℚ) :
    now ≤ time → (get time storage key).isSome = true →
      (get time (store now storage key' value expiration) key).isSome = true
  lookup_items (now : ℚ) (storage : S) (key : Nat) :
    (items now storage).lookup key = get now storage key

/-- Exponential smoothing, unless the peer was unreachable before. -/
def smoothRtt (rtt : Dht.Rtt) : Option Dht.Rtt → Dht.Rtt
  | some (some prevRtt) => WithTop.map (fun rtt => 2 / 10 * rtt + 8 / 10 * prevRtt) rtt
  | _ => rtt

section Pings

variable {S : Type} (pingEmas : TimedStorage S Dht.Rtt)

/-- The body of the loop of `PingAggregator.ping`. -/
def pingOne (now : ℚ) (currentRtts : Nat → Dht.Rtt) (emas : S) (peerId : Nat) : S :=
  pingEmas.store now emas peerId (smoothRtt (currentRtts peerId) (pingEmas.get now emas peerId))
    (now + 300)

/-- `PingAggregator.ping`. -/
def TimedStorage.ping (now : ℚ) (currentRtts : Nat → Dht.Rtt) (peerIds : List Nat) (emas : S) : S :=
  peerIds.foldl (pingOne pingEmas now currentRtts) emas

/-- `_update` with its pings, whose results are `currentRtts`: the managers, `pinged_servers` and
    `ping_emas`. -/
def SequenceManagers.pingingUpdate (s : SequenceManagers) (i : Nat) (lists : PeerLists)
    (newBlockInfos : List (Dht.RemoteModuleInfo Nat)) (sample : List Nat → Nat → List Nat)
    (maxPinged : Nat) (now : ℚ) (currentRtts : Nat → Dht.Rtt) (emas : S) :
    Option (SequenceManagers × Finset Nat × S) := do
  let s ← s.refresh i lists newBlockInfos
  let info ← s.managers[i]?
  let pinged := pingedServers (spansContainingBlock info.sorted) sample maxPinged
  some (s, pinged, pingEmas.ping now currentRtts (pinged.sort (· ≤ ·)) emas)

end Pings

/-! ## What is to hold -/

/-- **The servers that a route can start from are measured.** -/
structure StartMeasured (sorted : List (Dht.RemoteModuleInfo Nat)) (pinged : Finset Nat)
    (clientServerRtts : AList fun _ : Nat => Dht.Rtt) : Prop where
  pinged : ∀ b < sorted.length, ∀ span ∈ spansAt sorted b, span.peerId ∈ pinged
  measured : ∀ endIndex cacheTokensNeeded graph,
    buildInferenceGraph sorted clientServerRtts 0 endIndex cacheTokensNeeded = .ok graph →
    ∀ node delay, (GraphNode.client, node, delay) ∈ graph →
      ∃ span ∈ spansAt sorted 0, ∃ rtt, clientServerRtts.lookup span.peerId = some rtt ∧
        node = .server span.peerId 0 ∧ delay = delayTo span cacheTokensNeeded (some rtt)

/-! ## The pings -/

section Pings

variable {S : Type} {pingEmas : TimedStorage S Dht.Rtt} {now time : ℚ} {emas : S} {peerId : Nat}

/-- Who is pinged has a time until it expires, and the others keep theirs. -/
theorem get_pingOne (hnow : now ≤ time) (htime : time ≤ now + 300) (currentRtts : Nat → Dht.Rtt)
    (peerId' : Nat) (h : peerId = peerId' ∨ (pingEmas.get time emas peerId).isSome = true) :
    (pingEmas.get time (pingOne pingEmas now currentRtts emas peerId') peerId).isSome = true := by
  rcases h with rfl | hmeasured
  · exact pingEmas.get_store emas peerId _ hnow htime
  · exact pingEmas.get_store_of peerId' _ _ hnow hmeasured

/-- **Who is pinged has a time.** -/
theorem get_ping (hnow : now ≤ time) (htime : time ≤ now + 300) {currentRtts : Nat → Dht.Rtt} :
    ∀ (peerIds : List Nat) (emas : S),
    peerId ∈ peerIds ∨ (pingEmas.get time emas peerId).isSome = true →
    (pingEmas.get time (pingEmas.ping now currentRtts peerIds emas) peerId).isSome = true := by
  intro peerIds
  induction peerIds with
  | nil => exact fun emas h => h.resolve_left List.not_mem_nil
  | cons first peerIds ih =>
    intro emas h
    refine ih (pingOne pingEmas now currentRtts emas first) ?_
    rcases h with hmem | hmeasured
    · rcases List.mem_cons.mp hmem with rfl | hmem
      · exact Or.inr (get_pingOne hnow htime currentRtts peerId (Or.inl rfl))
      · exact Or.inl hmem
    · exact Or.inr (get_pingOne hnow htime currentRtts first (Or.inr hmeasured))

end Pings

/-! ## Who is pinged -/

section Pinged

variable {sorted : List (Dht.RemoteModuleInfo Nat)} {sample : List Nat → Nat → List Nat}
  {maxPinged : Nat}

/-- Where nothing is left out by sampling, the servers of all blocks but the first are pinged. -/
theorem mem_pingedServers (hblocks : 2 ≤ sorted.length)
    (hmiddle : (middleServers (spansContainingBlock sorted)).length ≤ maxPinged)
    (hlast : (lastServers (spansContainingBlock sorted)).length ≤ maxPinged) {peerId : Nat} :
    peerId ∈ pingedServers (spansContainingBlock sorted) sample maxPinged ↔
      ∃ b, 1 ≤ b ∧ ∃ span ∈ spansAt sorted b, span.peerId = peerId := by
  have hdrop : ((spansContainingBlock sorted).drop 1) ≠ [] := by
    intro hnil
    have hlength := congrArg List.length hnil
    rw [List.length_drop, length_spansContainingBlock, List.length_nil] at hlength
    omega
  have hgetLast : (spansContainingBlock sorted).getLastD []
      = ((spansContainingBlock sorted).drop 1).getLast hdrop := by
    rw [List.getLast_drop, List.getLastD_eq_getLast?, List.getLast?_eq_some_getLast]
    rfl
  have hsplit : ∀ span, span ∈ ((spansContainingBlock sorted).drop 1).dropLast.flatten ∨
      span ∈ (spansContainingBlock sorted).getLastD [] ↔
      ∃ b, 1 ≤ b ∧ span ∈ spansAt sorted b := by
    intro span
    rw [hgetLast, ← List.mem_append]
    have hflatten : ((spansContainingBlock sorted).drop 1).dropLast.flatten
        ++ ((spansContainingBlock sorted).drop 1).getLast hdrop
        = ((spansContainingBlock sorted).drop 1).flatten := by
      conv_rhs => rw [← List.dropLast_append_getLast hdrop]
      rw [List.flatten_append, List.flatten_singleton]
    rw [hflatten, List.mem_flatten]
    constructor
    · rintro ⟨spans, hspans, hmem⟩
      obtain ⟨k, hk⟩ := List.mem_iff_getElem?.mp hspans
      rw [List.getElem?_drop] at hk
      refine ⟨1 + k, Nat.le_add_right _ _, ?_⟩
      rw [spansAt, List.getD_eq_getElem?_getD, hk]
      exact hmem
    · rintro ⟨b, hb, hmem⟩
      rw [spansAt, List.getD_eq_getElem?_getD] at hmem
      cases hget : (spansContainingBlock sorted)[b]? with
      | none =>
        rw [hget] at hmem
        nomatch hmem
      | some spans =>
        rw [hget] at hmem
        refine ⟨spans, List.mem_iff_getElem?.mpr ⟨b - 1, ?_⟩, hmem⟩
        rw [List.getElem?_drop, show 1 + (b - 1) = b by omega, hget]
  rw [pingedServers, sampleUpTo, sampleUpTo, if_neg (Nat.not_lt.mpr hmiddle),
    if_neg (Nat.not_lt.mpr hlast), Finset.mem_union, List.mem_toFinset, List.mem_toFinset,
    middleServers, lastServers, List.mem_map, List.mem_map]
  constructor
  · rintro (⟨span, hmem, rfl⟩ | ⟨span, hmem, rfl⟩)
    · obtain ⟨b, hb, hspan⟩ := (hsplit span).mp (Or.inl hmem)
      exact ⟨b, hb, span, hspan, rfl⟩
    · obtain ⟨b, hb, hspan⟩ := (hsplit span).mp (Or.inr hmem)
      exact ⟨b, hb, span, hspan, rfl⟩
  · rintro ⟨b, hb, span, hspan, rfl⟩
    exact ((hsplit span).mpr ⟨b, hb, hspan⟩).imp (fun hmem => ⟨span, hmem, rfl⟩)
      fun hmem => ⟨span, hmem, rfl⟩

/-- A server of the first block is pinged exactly if it has the second block too. -/
theorem pinged_first_iff (hblocks : 2 ≤ sorted.length)
    (hmiddle : (middleServers (spansContainingBlock sorted)).length ≤ maxPinged)
    (hlast : (lastServers (spansContainingBlock sorted)).length ≤ maxPinged)
    {span : Dht.RemoteSpanInfo Nat} (hspan : span ∈ spansAt sorted 0) :
    span.peerId ∈ pingedServers (spansContainingBlock sorted) sample maxPinged ↔ 1 < span.stop := by
  obtain ⟨hmem, hstart, -⟩ := mem_spansAt.mp hspan
  rw [mem_pingedServers hblocks hmiddle hlast]
  constructor
  · rintro ⟨b, hb, span', hspan', hpeer⟩
    obtain ⟨hmem', -, hstop'⟩ := mem_spansAt.mp hspan'
    -- a peer has one span
    have hlookup := mem_spansByPriority.mp hmem
    rw [← hpeer, mem_spansByPriority.mp hmem'] at hlookup
    obtain rfl := Option.some.inj hlookup
    omega
  · intro hstop
    exact ⟨1, Nat.le_refl 1, span, mem_spansAt.mpr ⟨hmem, by omega, hstop⟩, rfl⟩

end Pinged

/-! ## The edges of the client -/

theorem client_edge {blockInfos : List (Dht.RemoteModuleInfo Nat)}
    {clientServerRtts : AList fun _ : Nat => Dht.Rtt} {startIndex endIndex : Nat}
    {cacheTokensNeeded : Option Nat} {graph : InferenceGraph}
    (hgraph : buildInferenceGraph blockInfos clientServerRtts startIndex endIndex cacheTokensNeeded
      = .ok graph) {node : GraphNode} {delay : ℚ} (h : (GraphNode.client, node, delay) ∈ graph) :
    ∃ span ∈ spansAt blockInfos startIndex, node = .server span.peerId startIndex ∧
      delay = delayTo span cacheTokensNeeded (clientServerRtts.lookup span.peerId) := by
  obtain ⟨-, computes, hcomputes, rfl⟩ := buildInferenceGraph_eq hgraph
  rcases List.mem_append.mp h with h | h
  · rcases List.mem_append.mp h with h | h
    · rcases List.mem_append.mp h with h | h
      · obtain ⟨span, hspan, hedge⟩ := List.mem_map.mp h
        obtain ⟨-, hedge⟩ := Prod.mk.inj hedge
        obtain ⟨rfl, rfl⟩ := Prod.mk.inj hedge
        exact ⟨span, hspan, rfl, rfl⟩
      · -- the edges to the client come from a server
        obtain ⟨span, -, hedge⟩ := List.mem_map.mp h
        cases (Prod.mk.inj hedge).1
    · obtain ⟨blockIdx, -, h⟩ := List.mem_flatMap.mp h
      obtain ⟨_, -, -, _, -, hnode, -⟩ := hasEdge_switchEdges.mp (hasEdge_iff.mpr ⟨delay, h⟩)
      cases hnode
  · obtain ⟨edges, hedges, h⟩ := List.mem_flatten.mp h
    obtain ⟨span, -, hcompute⟩ := (mem_of_mapM hcomputes).mp hedges
    obtain ⟨_, -, -, -, -, hnode, -⟩ :=
      (hasEdge_computeEdges hcompute).mp (hasEdge_iff.mpr ⟨delay, h⟩)
    cases hnode

/-- Who is pinged is measured. -/
theorem startMeasured_of_pinged {sorted : List (Dht.RemoteModuleInfo Nat)} {pinged : Finset Nat}
    (hpinged : ∀ b < sorted.length, ∀ span ∈ spansAt sorted b, span.peerId ∈ pinged)
    (hblocks : 0 < sorted.length) {S : Type} (pingEmas : TimedStorage S Dht.Rtt) {now time : ℚ}
    (hnow : now ≤ time) (htime : time ≤ now + 300) (currentRtts : Nat → Dht.Rtt) (emas : S) :
    StartMeasured sorted pinged
      (pingEmas.items time (pingEmas.ping now currentRtts (pinged.sort (· ≤ ·)) emas)) := by
  refine ⟨hpinged, fun endIndex cacheTokensNeeded graph hgraph node delay hedge => ?_⟩
  obtain ⟨span, hspan, hnode, hdelay⟩ := client_edge hgraph hedge
  obtain ⟨rtt, hget⟩ := Option.isSome_iff_exists.mp (get_ping hnow htime (pinged.sort (· ≤ ·)) emas
    (Or.inl ((Finset.mem_sort _).mpr (hpinged 0 hblocks span hspan))))
  have hrtt := (pingEmas.lookup_items time _ span.peerId).trans hget
  rw [hrtt] at hdelay
  exact ⟨span, hspan, rtt, hrtt, hnode, hdelay⟩

/-! ## The update -/

/-- **When an update measures the servers that a route can start from**: of any manager in any state
    that can be reached, with whatever times are known before, as long as the new ones do not
    expire. -/
theorem pingingUpdate_measured_iff {S : Type} (pingEmas : TimedStorage S Dht.Rtt)
    {blockUids : List Nat} {events : List (Nat × ManagerEvent)}
    {s s' : SequenceManagers} {i : Nat} {lists : PeerLists}
    {records : List (Dht.RemoteModuleInfo Nat)} {sample : List Nat → Nat → List Nat}
    {maxPinged : Nat} {now time : ℚ} {currentRtts : Nat → Dht.Rtt} {emas emas' : S}
    {pinged : Finset Nat}
    (hreach : exec SequenceManagers.step (.new blockUids) events = some s)
    (hupdate : s.pingingUpdate pingEmas i lists records sample maxPinged now currentRtts emas
      = some (s', pinged, emas'))
    (hnow : now ≤ time) (htime : time ≤ now + 300)
    (hblocks : 2 ≤ records.length)
    (hmiddle : (middleServers (spansContainingBlock (records.map lists.filterBlock))).length
      ≤ maxPinged)
    (hlast : (lastServers (spansContainingBlock (records.map lists.filterBlock))).length
      ≤ maxPinged) :
    ∃ info, s'.managers[i]? = some info ∧
      (StartMeasured info.sorted pinged (pingEmas.items time emas') ↔
        ∀ span ∈ spansAt (records.map lists.filterBlock) 0, 1 < span.stop) := by
  obtain ⟨s₁, hrefresh, hupdate⟩ := Option.bind_eq_some_iff.mp hupdate
  obtain ⟨info, hinfo, hupdate⟩ := Option.bind_eq_some_iff.mp hupdate
  obtain ⟨rfl, hpings⟩ := Prod.mk.inj (Option.some.inj hupdate)
  obtain ⟨rfl, rfl⟩ := Prod.mk.inj hpings
  refine ⟨info, hinfo, ?_⟩
  -- the table is sorted from what is left of the records
  obtain ⟨info', hinfo', hsorted⟩ := refresh_sorted hreach hrefresh
  obtain rfl := Option.some.inj (hinfo'.symm.trans hinfo)
  rw [hsorted]
  have hlength : 2 ≤ (records.map lists.filterBlock).length := by
    rw [List.length_map]
    exact hblocks
  constructor
  · intro hmeasured span hspan
    exact (pinged_first_iff hlength hmiddle hlast hspan).mp
      (hmeasured.pinged 0 (by omega) span hspan)
  · intro hlong
    refine startMeasured_of_pinged (fun b _ span hspan => ?_) (by omega) pingEmas hnow htime
      currentRtts emas
    cases b with
    | zero => exact (pinged_first_iff hlength hmiddle hlast hspan).mpr (hlong span hspan)
    | succ b =>
      exact (mem_pingedServers hlength hmiddle hlast).mpr
        ⟨b + 1, Nat.le_add_left 1 b, span, hspan, rfl⟩

/-- Values with their expirations. -/
abbrev Expiring (V : Type) := AList fun _ : Nat => V × ℚ

section Expiring

variable {V : Type} {now time : ℚ} {storage : Expiring V} {key : Nat}

/-- What has expired is removed before a value is read. -/
def Expiring.removeOutdated (now : ℚ) (storage : Expiring V) : Expiring V :=
  ⟨storage.entries.filter fun entry => now ≤ entry.2.2,
    storage.nodupKeys.sublist List.filter_sublist⟩

def Expiring.get (now : ℚ) (storage : Expiring V) (key : Nat) : Option V :=
  ((storage.removeOutdated now).lookup key).map (·.1)

/-- What expires later is kept. -/
def Expiring.store (now : ℚ) (storage : Expiring V) (key : Nat) (value : V) (expiration : ℚ) :
    Expiring V :=
  if expiration < now then storage
  else
    match storage.lookup key with
    | none => storage.insert key (value, expiration)
    | some prev => if prev.2 < expiration then storage.insert key (value, expiration) else storage

theorem Expiring.isSome_get : (storage.get now key).isSome = true ↔
    ∃ entry, storage.lookup key = some entry ∧ now ≤ entry.2 := by
  have hlookup : ∀ entry, entry ∈ (storage.removeOutdated now).lookup key ↔
      entry ∈ storage.lookup key ∧ now ≤ entry.2 := by
    intro entry
    rw [AList.mem_lookup_iff, AList.mem_lookup_iff, removeOutdated, List.mem_filter,
      decide_eq_true_eq]
  rw [get, Option.isSome_map, Option.isSome_iff_exists]
  exact exists_congr hlookup

theorem Expiring.isSome_get_store {expiration : ℚ} (value : V) (hnow : now ≤ time)
    (htime : time ≤ expiration) :
    ((storage.store now key value expiration).get time key).isSome = true := by
  refine isSome_get.mpr ?_
  rw [store, if_neg (not_lt.mpr (hnow.trans htime))]
  cases hprev : storage.lookup key with
  | none => exact ⟨_, AList.lookup_insert _, htime⟩
  | some prev =>
    simp only
    split
    · exact ⟨_, AList.lookup_insert _, htime⟩
    · rename_i hlater
      exact ⟨prev, hprev, htime.trans (not_lt.mp hlater)⟩

theorem Expiring.isSome_get_store_of (key' : Nat) (value : V) (expiration : ℚ)
    (h : (storage.get time key).isSome = true) :
    ((storage.store now key' value expiration).get time key).isSome = true := by
  obtain ⟨entry, hlookup, htime⟩ := isSome_get.mp h
  refine isSome_get.mpr ?_
  by_cases hnow : expiration < now
  · rw [store, if_pos hnow]
    exact ⟨entry, hlookup, htime⟩
  rw [store, if_neg hnow]
  by_cases heq : key = key'
  · subst heq
    rw [hlookup]
    simp only
    split
    · rename_i hlater
      exact ⟨_, AList.lookup_insert _, htime.trans (le_of_lt hlater)⟩
    · exact ⟨entry, hlookup, htime⟩
  · split
    · exact ⟨entry, (AList.lookup_insert_ne heq).trans hlookup, htime⟩
    · split
      · exact ⟨entry, (AList.lookup_insert_ne heq).trans hlookup, htime⟩
      · exact ⟨entry, hlookup, htime⟩

def Expiring.toDict (storage : Expiring V) : AList fun _ : Nat => V :=
  ⟨storage.entries.map fun entry => ⟨entry.1, entry.2.1⟩,
    storage.nodupKeys.map₂ (fun _ entry => entry.1) _⟩

theorem Expiring.lookup_toDict : storage.toDict.lookup key = (storage.lookup key).map (·.1) :=
  List.dlookup_map₂ (γ := fun _ : Nat => V × ℚ) (δ := fun _ => V)
    (f := fun _ entry => entry.1) key

end Expiring

/-- A storage that keeps the values with their expirations. -/
def expiringStorage (V : Type) : TimedStorage (Expiring V) V where
  get := Expiring.get
  store := Expiring.store
  items now storage := (storage.removeOutdated now).toDict
  get_store _ _ value hnow htime := Expiring.isSome_get_store value hnow htime
  get_store_of key' value expiration _ hget := Expiring.isSome_get_store_of key' value expiration hget
  lookup_items _ _ _ := Expiring.lookup_toDict

/-- A server that is online, with its record. -/
def onlineAt (startBlock endBlock : Nat) : Dht.ServerInfo Nat :=
  ⟨.online, 1, some startBlock, some endBlock, none, none, none⟩

/-- The servers 1 and 2 both have both blocks. -/
theorem pingingUpdate_measured_both :
    let records : List (Dht.RemoteModuleInfo Nat) :=
      [⟨0, [⟨1, onlineAt 0 2⟩, ⟨2, onlineAt 0 2⟩].toAList⟩,
        ⟨1, [⟨1, onlineAt 0 2⟩, ⟨2, onlineAt 0 2⟩].toAList⟩]
    ∃ s' pinged emas' info,
      (SequenceManagers.new [0, 1]).pingingUpdate (expiringStorage _) 0 ⟨none, none, ∅⟩ records
        (fun population _ => population) 2 0 (fun _ => (1 : ℚ)) ∅ = some (s', pinged, emas') ∧
      s'.managers[0]? = some info ∧
      StartMeasured info.sorted pinged ((expiringStorage _).items 300 emas') := by
  intro records
  obtain ⟨s', pinged, emas', hupdate⟩ : ∃ s' pinged emas',
      (SequenceManagers.new [0, 1]).pingingUpdate (expiringStorage _) 0 ⟨none, none, ∅⟩ records
        (fun population _ => population) 2 0 (fun _ => (1 : ℚ)) ∅ = some (s', pinged, emas') :=
    ⟨_, _, _, rfl⟩
  obtain ⟨info, hinfo, hiff⟩ := pingingUpdate_measured_iff _ (exec_nil _) hupdate
    (Nat.ofNat_nonneg 300) (le_of_eq (zero_add 300).symm) (by decide) (by decide) (by decide)
  refine ⟨s', pinged, emas', info, hupdate, hinfo, hiff.mpr fun span hspan => ?_⟩
  have hall : ((spansAt (records.map (PeerLists.filterBlock ⟨none, none, ∅⟩)) 0).all
      fun span => 1 < span.stop) = true := by decide +kernel
  exact of_decide_eq_true (List.all_eq_true.mp hall span hspan)

/-- The server 1 has the first block only: it is in nobody's sample that is kept. -/
theorem first_server_not_pinged :
    let records : List (Dht.RemoteModuleInfo Nat) :=
      [⟨0, [⟨1, onlineAt 0 1⟩].toAList⟩, ⟨1, [⟨2, onlineAt 1 2⟩].toAList⟩]
    ∃ s' pinged emas' info,
      (SequenceManagers.new [0, 1]).pingingUpdate (expiringStorage _) 0 ⟨none, none, ∅⟩ records
        (fun population _ => population) 1 0 (fun _ => (1 : ℚ)) ∅ = some (s', pinged, emas') ∧
      s'.managers[0]? = some info ∧
      (firstServers (spansContainingBlock info.sorted)).length ≤ 1 ∧
      (middleServers (spansContainingBlock info.sorted)).length ≤ 1 ∧
      (lastServers (spansContainingBlock info.sorted)).length ≤ 1 ∧
      ¬ StartMeasured info.sorted pinged ((expiringStorage _).items 300 emas') := by
  intro records
  refine ⟨_, _, _, _, rfl, rfl, by decide, by decide, by decide, fun hmeasured => ?_⟩
  have hspan : (⟨1, 0, 1, onlineAt 0 1⟩ : Dht.RemoteSpanInfo Nat) ∈ spansAt records 0 :=
    mem_spansAt.mpr ⟨mem_spansByPriority.mpr rfl, by decide, by decide⟩
  have hpinged := hmeasured.pinged 0 (by decide) _ hspan
  exact absurd ((pinged_first_iff (by decide) (by decide) (by decide) hspan).mp hpinged) (by decide)

end Drift
