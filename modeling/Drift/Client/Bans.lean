/-
  `RemoteSequenceManager._update` of `client/routing/sequence_manager.py`: which servers an update
  takes over from the records of the DHT.

  Block by block, it applies the allow and block lists and takes out the peers that are banned,
  unless nobody would be left.  `compute_spans` makes the span of a server of the records that are
  left, but as far as the server announces.  So a banned peer that is left at one block can be
  listed at a block where others would do, and a ban is effective exactly if there is no such block
  (`refresh_bansEffective_iff`).

  What is pinged after the table is sorted is in `Client/PingedServers`.
-/
import Drift.Client.TableCoherence
import Mathlib.Data.Finset.Basic

namespace Drift

/-- The entries of the dict that are kept. -/
def keepServers (keep : Nat → Bool) (servers : BlockServers) : BlockServers :=
  ⟨servers.entries.filter fun entry => keep entry.1,
    servers.nodupKeys.sublist List.filter_sublist⟩

/-- `allowed_servers` and `blocked_servers`, with `banned_peers` at the time of the update. -/
structure PeerLists where
  allowedServers : Option (Finset Nat)
  blockedServers : Option (Finset Nat)
  bannedPeers : Finset Nat

/-- What the allow and block lists say of a peer. -/
def PeerLists.allows (lists : PeerLists) (peerId : Nat) : Bool :=
  (lists.allowedServers.all fun allowedServers => peerId ∈ allowedServers) &&
    lists.blockedServers.all fun blockedServers => peerId ∉ blockedServers

/-- The body of the loop of `_update`. -/
def PeerLists.filterBlock (lists : PeerLists) (blockInfo : Dht.RemoteModuleInfo Nat) :
    Dht.RemoteModuleInfo Nat :=
  let servers := keepServers lists.allows blockInfo.servers
  let validServers := keepServers (· ∉ lists.bannedPeers) servers
  if validServers.entries.length < servers.entries.length then
    if validServers.entries ≠ [] then { blockInfo with servers := validServers }
    -- the error may be the client's own
    else { blockInfo with servers := servers }
  else { blockInfo with servers := servers }

/-- `_update`, with what `get_remote_module_infos` found. -/
def SequenceManagers.refresh (s : SequenceManagers) (i : Nat) (lists : PeerLists)
    (newBlockInfos : List (Dht.RemoteModuleInfo Nat)) : Option SequenceManagers :=
  s.step (i, .update (newBlockInfos.map lists.filterBlock))

/-! ## What is to hold -/

section Records

variable (lists : PeerLists) (records : List (Dht.RemoteModuleInfo Nat))

/-- The block is announced by a server that is allowed and not banned. -/
def ValidAt (b : Nat) : Prop :=
  ∃ blockInfo, records[b]? = some blockInfo ∧
    ∃ peerId ∈ blockInfo.servers, lists.allows peerId ∧ peerId ∉ lists.bannedPeers

/-- **Bans are effective**, in a table that was sorted from the infos. -/
structure BansEffective (sorted : List (Dht.RemoteModuleInfo Nat)) : Prop where
  allowed : ∀ span ∈ spansByPriority sorted, lists.allows span.peerId
  unbanned : ∀ b, ValidAt lists records b →
    ∀ span ∈ spansAt sorted b, span.peerId ∉ lists.bannedPeers

/-! ## The condition -/

/-- The server is online at the block, by its record. -/
def OnlineAt (peerId b : Nat) (serverInfo : Dht.ServerInfo Nat) : Prop :=
  ∃ blockInfo, records[b]? = some blockInfo ∧ blockInfo.servers.lookup peerId = some serverInfo ∧
    serverInfo.state = .online

/-- The server is online at a block where nobody valid is. -/
def StaysAt (peerId b : Nat) (serverInfo : Dht.ServerInfo Nat) : Prop :=
  OnlineAt records peerId b serverInfo ∧ ¬ ValidAt lists records b

/-- The first block at which a server stays. -/
def StaysFirstAt (peerId first : Nat) (serverInfo : Dht.ServerInfo Nat) : Prop :=
  StaysAt lists records peerId first serverInfo ∧
    ∀ b < first, ∀ serverInfo', ¬ StaysAt lists records peerId b serverInfo'

/-- What the record of the first block announces, from where it begins.  The blocks of a record are
    counted as the DHT counts them. -/
def ReachesFrom (first : Nat) (serverInfo : Dht.ServerInfo Nat) (b : Nat) : Prop :=
  match serverInfo.startBlock, serverInfo.endBlock with
  | some startBlock, some _ => startBlock ≤ (records.head?.map (·.uid)).getD 0 + b
  | _, _ => first ≤ b

/-- … and up to where. -/
def ReachesTo (first : Nat) (serverInfo : Dht.ServerInfo Nat) (b : Nat) : Prop :=
  match serverInfo.startBlock, serverInfo.endBlock with
  | some _, some endBlock => (records.head?.map (·.uid)).getD 0 + b < endBlock
  | _, _ => b ≤ first

/-- No banned peer that stays somewhere announces, from there or up to a later block at which it
    stays, a block of which there is a valid server. -/
def BansContained : Prop :=
  ∀ peerId ∈ lists.bannedPeers, lists.allows peerId → ∀ first serverInfo,
    StaysFirstAt lists records peerId first serverInfo → ∀ b, ValidAt lists records b →
      ¬ (ReachesFrom records first serverInfo b ∧ (ReachesTo records first serverInfo b ∨
        ∃ later serverInfo', first < later ∧ b ≤ later ∧
          StaysAt lists records peerId later serverInfo'))

end Records

/-! ## The records that are left -/

section Filter

variable {lists : PeerLists} {records : List (Dht.RemoteModuleInfo Nat)}

theorem mem_lookup_keepServers {keep : Nat → Bool} {servers : BlockServers} {peerId : Nat}
    {serverInfo : Dht.ServerInfo Nat} :
    serverInfo ∈ (keepServers keep servers).lookup peerId ↔
      serverInfo ∈ servers.lookup peerId ∧ keep peerId := by
  rw [AList.mem_lookup_iff, AList.mem_lookup_iff]
  exact List.mem_filter

/-- **What is left of a block**: the allowed servers, and of these a banned one only where there is
    no other. -/
theorem mem_lookup_filterBlock {blockInfo : Dht.RemoteModuleInfo Nat} {peerId : Nat}
    {serverInfo : Dht.ServerInfo Nat} :
    serverInfo ∈ (lists.filterBlock blockInfo).servers.lookup peerId ↔
      serverInfo ∈ blockInfo.servers.lookup peerId ∧ lists.allows peerId ∧
        (peerId ∈ lists.bannedPeers → ¬ ∃ other ∈ blockInfo.servers,
          lists.allows other ∧ other ∉ lists.bannedPeers) := by
  have hallowed : ∀ {peerId serverInfo},
      serverInfo ∈ (keepServers lists.allows blockInfo.servers).lookup peerId ↔
        serverInfo ∈ blockInfo.servers.lookup peerId ∧ lists.allows peerId :=
    mem_lookup_keepServers
  rw [PeerLists.filterBlock]
  generalize keepServers lists.allows blockInfo.servers = servers at hallowed ⊢
  have hkept : ∀ {peerId serverInfo},
      serverInfo ∈ (keepServers (· ∉ lists.bannedPeers) servers).lookup peerId ↔
        (serverInfo ∈ blockInfo.servers.lookup peerId ∧ lists.allows peerId) ∧
          peerId ∉ lists.bannedPeers := by
    intro peerId serverInfo
    rw [mem_lookup_keepServers, hallowed, decide_eq_true_eq]
  have hothers : (keepServers (· ∉ lists.bannedPeers) servers).entries ≠ [] ↔
      ∃ other ∈ blockInfo.servers, lists.allows other ∧ other ∉ lists.bannedPeers := by
    constructor
    · intro hne
      obtain ⟨entry, hentry⟩ := List.exists_mem_of_ne_nil _ hne
      obtain ⟨⟨hmem, hallows⟩, hunbanned⟩ := hkept.mp (AList.mem_lookup_iff.mpr hentry)
      exact ⟨entry.1, AList.lookup_isSome.mp (Option.isSome_of_mem hmem), hallows, hunbanned⟩
    · rintro ⟨other, hmem, hallows, hunbanned⟩
      obtain ⟨info, hinfo⟩ := Option.isSome_iff_exists.mp (AList.lookup_isSome.mpr hmem)
      exact List.ne_nil_of_mem (AList.mem_lookup_iff.mp (hkept.mpr ⟨⟨hinfo, hallows⟩, hunbanned⟩))
  by_cases hlt : (keepServers (· ∉ lists.bannedPeers) servers).entries.length
      < servers.entries.length
  · rw [if_pos hlt]
    by_cases hne : (keepServers (· ∉ lists.bannedPeers) servers).entries ≠ []
    · rw [if_pos hne, hkept, and_assoc]
      refine and_congr_right fun _ => and_congr_right fun _ => ?_
      exact ⟨fun hunbanned hbanned => absurd hbanned hunbanned,
        fun h hbanned => h hbanned (hothers.mp hne)⟩
    · rw [if_neg hne, hallowed]
      refine and_congr_right fun _ => (and_iff_left ?_).symm
      exact fun _ => mt hothers.mpr hne
  · -- nobody who is allowed is banned
    rw [if_neg hlt, hallowed]
    refine and_congr_right fun hmem => (and_iff_left_of_imp fun hallows hbanned => ?_).symm
    have hall := List.length_filter_eq_length_iff.mp
      (Nat.le_antisymm (List.length_filter_le _ _) (Nat.le_of_not_lt hlt))
    have hunbanned := hall _ (AList.mem_lookup_iff.mp (hallowed.mpr ⟨hmem, hallows⟩))
    exact absurd hbanned (of_decide_eq_true hunbanned)

/-- Where a banned peer is left online. -/
theorem onlineAt_filterBlock {peerId b : Nat} {serverInfo : Dht.ServerInfo Nat}
    (hbanned : peerId ∈ lists.bannedPeers) (hallows : lists.allows peerId) :
    OnlineAt (records.map lists.filterBlock) peerId b serverInfo ↔
      StaysAt lists records peerId b serverInfo := by
  constructor
  · rintro ⟨_, hget, hlookup, honline⟩
    rw [List.getElem?_map] at hget
    obtain ⟨blockInfo, hblock, rfl⟩ := Option.map_eq_some_iff.mp hget
    obtain ⟨hmem, -, hnone⟩ := mem_lookup_filterBlock.mp hlookup
    refine ⟨⟨blockInfo, hblock, hmem, honline⟩, ?_⟩
    rintro ⟨blockInfo', hblock', hvalid⟩
    obtain rfl := Option.some.inj (hblock.symm.trans hblock')
    exact hnone hbanned hvalid
  · rintro ⟨⟨blockInfo, hblock, hlookup, honline⟩, hnone⟩
    refine ⟨lists.filterBlock blockInfo, ?_, ?_, honline⟩
    · rw [List.getElem?_map, hblock]
      rfl
    · exact mem_lookup_filterBlock.mpr
        ⟨hlookup, hallows, fun _ hvalid => hnone ⟨blockInfo, hblock, hvalid⟩⟩

end Filter

/-! ## The spans of the servers that are left -/

section Spans

variable {blockInfos : List (Dht.RemoteModuleInfo Nat)} {peerId : Nat}

theorem onlineAt_iff {b : Nat} {serverInfo : Dht.ServerInfo Nat} :
    OnlineAt blockInfos peerId b serverInfo ↔
      (blockInfos.map fun blockInfo => blockInfo.servers.lookup peerId)[b]? = some (some serverInfo) ∧
        serverInfo.state = .online := by
  rw [List.getElem?_map]
  constructor
  · rintro ⟨blockInfo, hget, hlookup, honline⟩
    rw [hget]
    exact ⟨congrArg some hlookup, honline⟩
  · rintro ⟨hget, honline⟩
    obtain ⟨blockInfo, hblock, hlookup⟩ := Option.map_eq_some_iff.mp hget
    exact ⟨blockInfo, hblock, hlookup, honline⟩

/-- A server that has a span is online somewhere. -/
theorem exists_onlineAt {span : Dht.RemoteSpanInfo Nat}
    (h : (Dht.computeSpans blockInfos .online).lookup peerId = some span) :
    ∃ b serverInfo, OnlineAt blockInfos peerId b serverInfo := by
  by_contra hnone
  rw [Dht.lookup_computeSpans, Dht.foldl_entrySpan_of_not_online] at h
  · nomatch h
  · intro serverInfo hmem honline
    obtain ⟨b, hget⟩ := List.mem_iff_getElem?.mp hmem
    exact hnone ⟨b, serverInfo, onlineAt_iff.mpr ⟨hget, honline⟩⟩

/-- **The span of a server** that is online at a first block. -/
theorem lookup_computeSpans_online {first : Nat} {serverInfo : Dht.ServerInfo Nat}
    (hfirst : OnlineAt blockInfos peerId first serverInfo)
    (hleast : ∀ b < first, ∀ serverInfo', ¬ OnlineAt blockInfos peerId b serverInfo') :
    ∃ span, (Dht.computeSpans blockInfos .online).lookup peerId = some span ∧
      ∀ b < blockInfos.length, span.start ≤ b ∧ (b : Int) < span.stop ↔
        ReachesFrom blockInfos first serverInfo b ∧ (ReachesTo blockInfos first serverInfo b ∨
          ∃ later serverInfo', first < later ∧ b ≤ later ∧
            OnlineAt blockInfos peerId later serverInfo') := by
  obtain ⟨hget, honline⟩ := onlineAt_iff.mp hfirst
  have hbefore : ∀ j < first, ∀ info, (blockInfos.map fun blockInfo =>
      blockInfo.servers.lookup peerId)[j]? = some (some info) → info.state ≠ .online :=
    fun j hlt info hinfo hstate => hleast j hlt info (onlineAt_iff.mpr ⟨hinfo, hstate⟩)
  obtain ⟨span, hfold, hstart, hstop⟩ := Dht.foldl_entrySpan_none _ 0 hget honline hbefore
  rw [Nat.zero_add] at hstart hstop
  refine ⟨span, (Dht.lookup_computeSpans blockInfos .online peerId).trans hfold, fun b hlt => ?_⟩
  have hfrom : span.start ≤ b ↔ ReachesFrom blockInfos first serverInfo b := by
    rw [hstart, Dht.newSpan, ReachesFrom]
    cases serverInfo.startBlock with
    | none => rfl
    | some startBlock =>
      cases serverInfo.endBlock with
      | none => rfl
      | some endBlock => exact Nat.sub_le_iff_le_add'
  rw [hfrom, hstop b]
  refine and_congr_right fun _ => or_congr ?_ ?_
  · rw [Dht.newSpan, ReachesTo]
    cases serverInfo.startBlock with
    | none =>
      show (b : Int) < first + 1 ↔ b ≤ first
      omega
    | some startBlock =>
      cases serverInfo.endBlock with
      | none =>
        show (b : Int) < first + 1 ↔ b ≤ first
        omega
      | some endBlock =>
        simp only [lt_min_iff]
        omega
  · constructor
    · rintro ⟨j, info, hfirst, hinfo, hstate, hle⟩
      exact ⟨j, info, hfirst, by omega, onlineAt_iff.mpr ⟨hinfo, hstate⟩⟩
    · rintro ⟨later, info, hfirst, hle, hlater⟩
      obtain ⟨hinfo, hstate⟩ := onlineAt_iff.mp hlater
      exact ⟨later, info, hfirst, hinfo, hstate, by omega⟩

end Spans

/-! ## Updates -/

section Update

variable {lists : PeerLists} {records : List (Dht.RemoteModuleInfo Nat)}

/-- The lists leave a block its uid. -/
theorem uid_filterBlock (lists : PeerLists) (blockInfo : Dht.RemoteModuleInfo Nat) :
    (lists.filterBlock blockInfo).uid = blockInfo.uid := by
  rw [PeerLists.filterBlock]
  split
  · split <;> rfl
  · rfl

theorem reaches_filterBlock {first b : Nat} {serverInfo : Dht.ServerInfo Nat} :
    (ReachesFrom (records.map lists.filterBlock) first serverInfo b ↔
      ReachesFrom records first serverInfo b) ∧
    (ReachesTo (records.map lists.filterBlock) first serverInfo b ↔
      ReachesTo records first serverInfo b) := by
  have hhead : (records.map lists.filterBlock).head?.map (·.uid) = records.head?.map (·.uid) := by
    cases records with
    | nil => rfl
    | cons blockInfo _ => exact congrArg some (uid_filterBlock lists blockInfo)
  simp only [ReachesFrom, ReachesTo, hhead, and_self]

/-- **The lists** are obeyed in any case. -/
theorem allows_of_mem_spansByPriority {span : Dht.RemoteSpanInfo Nat}
    (h : span ∈ spansByPriority (records.map lists.filterBlock)) : lists.allows span.peerId := by
  obtain ⟨moduleInfo, hmem, hlookup⟩ :=
    Dht.lookup_computeSpans_serverInfo (mem_spansByPriority.mp h)
  obtain ⟨blockInfo, -, rfl⟩ := List.mem_map.mp hmem
  exact (mem_lookup_filterBlock.mp hlookup).2.1

/-- **When bans are effective** in the table of the records that are left. -/
theorem bansEffective_iff :
    BansEffective lists records (records.map lists.filterBlock) ↔ BansContained lists records := by
  constructor
  · intro h peerId hbanned hallows first serverInfo hfirst b hvalid hreaches
    obtain ⟨span, hlookup, hcontains⟩ := lookup_computeSpans_online
      ((onlineAt_filterBlock hbanned hallows).mpr hfirst.1)
      fun b' hlt info honline =>
        hfirst.2 b' hlt info ((onlineAt_filterBlock hbanned hallows).mp honline)
    obtain rfl := (Dht.lookup_computeSpans_bounds hlookup).1
    have hlt : b < (records.map lists.filterBlock).length := by
      obtain ⟨blockInfo, hblock, -⟩ := hvalid
      rw [List.length_map]
      exact (List.getElem?_eq_some_iff.mp hblock).1
    refine h.unbanned b hvalid span (mem_spansAt_iff.mpr ⟨hlookup, (hcontains b hlt).mpr ?_⟩) hbanned
    simp only [reaches_filterBlock, onlineAt_filterBlock hbanned hallows]
    exact hreaches
  · intro h
    refine ⟨fun span => allows_of_mem_spansByPriority, fun b hvalid span hspan hbanned => ?_⟩
    obtain ⟨hlookup, hcontains⟩ := mem_spansAt_iff.mp hspan
    have hallows := allows_of_mem_spansByPriority (mem_spansByPriority.mpr hlookup)
    -- the first block at which the peer is left
    classical
    have hexists := exists_onlineAt hlookup
    obtain ⟨serverInfo, hfirst⟩ := Nat.find_spec hexists
    have hleast : ∀ b < Nat.find hexists, ∀ info,
        ¬ OnlineAt (records.map lists.filterBlock) span.peerId b info :=
      fun b' hlt info honline => Nat.find_min hexists hlt ⟨info, honline⟩
    obtain ⟨span', hlookup', hiff⟩ := lookup_computeSpans_online hfirst hleast
    obtain rfl := Option.some.inj (hlookup.symm.trans hlookup')
    have hlt : b < (records.map lists.filterBlock).length := by
      obtain ⟨blockInfo, hblock, -⟩ := hvalid
      rw [List.length_map]
      exact (List.getElem?_eq_some_iff.mp hblock).1
    have hreaches := (hiff b hlt).mp hcontains
    simp only [reaches_filterBlock, onlineAt_filterBlock hbanned hallows] at hreaches hfirst hleast
    exact h span.peerId hbanned hallows _ serverInfo ⟨hfirst, hleast⟩ b hvalid hreaches

/-- An update makes the table from what is left of the records, in any state that can be reached. -/
theorem refresh_sorted {blockUids : List Nat} {events : List (Nat × ManagerEvent)}
    {s s' : SequenceManagers} {i : Nat}
    (hreach : exec SequenceManagers.step (.new blockUids) events = some s)
    (hrefresh : s.refresh i lists records = some s') :
    ∃ info, s'.managers[i]? = some info ∧ info.sorted = records.map lists.filterBlock := by
  have hshared : SharedBlocks s :=
    exec_invariant' (fun _ _ _ h hstep => h.step hstep) (sharedBlocks_new blockUids) hreach
  obtain ⟨info, hinfo, hbody⟩ := Option.bind_eq_some_iff.mp hrefresh
  simp only at hbody
  split at hbody
  case h_2 => nomatch hbody
  rename_i updated servers hupdate
  obtain rfl := Option.some.inj hbody
  obtain ⟨rfl, -⟩ := update_spec hshared hinfo hupdate
  have hi : i < s.managers.length := (List.getElem?_eq_some_iff.mp hinfo).1
  exact ⟨_, List.getElem?_set_self hi, rfl⟩

/-- **When bans are effective after an update**, of any manager in any state that can be reached. -/
theorem refresh_bansEffective_iff {blockUids : List Nat} {events : List (Nat × ManagerEvent)}
    {s s' : SequenceManagers} {i : Nat}
    (hreach : exec SequenceManagers.step (.new blockUids) events = some s)
    (hrefresh : s.refresh i lists records = some s') :
    ∃ info, s'.managers[i]? = some info ∧
      (BansEffective lists records info.sorted ↔ BansContained lists records) := by
  obtain ⟨info, hinfo, hsorted⟩ := refresh_sorted hreach hrefresh
  refine ⟨info, hinfo, ?_⟩
  rw [hsorted]
  exact bansEffective_iff

end Update

/-- The peer 1 is banned, and 2 has all its blocks. -/
theorem refresh_bansEffective_two :
    let announced : Dht.ServerInfo Nat := ⟨.online, 1, some 0, some 2, none, none, none⟩
    let servers : BlockServers := ((∅ : BlockServers).insert 1 announced).insert 2 announced
    let lists : PeerLists := ⟨none, some {3}, {1}⟩
    let records : List (Dht.RemoteModuleInfo Nat) := [⟨0, servers⟩, ⟨1, servers⟩]
    ∃ s' info, (SequenceManagers.new [0, 1]).refresh 0 lists records = some s' ∧
      s'.managers[0]? = some info ∧ BansEffective lists records info.sorted := by
  intro announced servers lists records
  obtain ⟨s', hrefresh⟩ :
      ∃ s', (SequenceManagers.new [0, 1]).refresh 0 lists records = some s' := ⟨_, rfl⟩
  obtain ⟨info, hinfo, hiff⟩ := refresh_bansEffective_iff (exec_nil _) hrefresh
  refine ⟨s', info, hrefresh, hinfo, hiff.mpr ?_⟩
  intro peerId hbanned _ first serverInfo hfirst
  -- there is a valid server everywhere
  obtain ⟨⟨⟨blockInfo, hblock, -⟩, hnone⟩, -⟩ := hfirst
  refine absurd ⟨blockInfo, hblock, 2, ?_, by decide, by decide⟩ hnone
  have hmem := List.mem_of_getElem? hblock
  simp only [records, List.mem_cons, List.not_mem_nil, or_false] at hmem
  rcases hmem with rfl | rfl <;> decide +kernel

/-- **A banned peer comes back** at the block 0, where the peer 2 would do: it is the only one at
    the block 1, and announces both. -/
theorem banned_peer_listed :
    let announced : Dht.ServerInfo Nat := ⟨.online, 1, some 0, some 2, none, none, none⟩
    let other : Dht.ServerInfo Nat := ⟨.online, 1, some 0, some 1, none, none, none⟩
    let lists : PeerLists := ⟨none, none, {1}⟩
    let records : List (Dht.RemoteModuleInfo Nat) :=
      [⟨0, ((∅ : BlockServers).insert 1 announced).insert 2 other⟩,
        ⟨1, (∅ : BlockServers).insert 1 announced⟩]
    ∃ s' info, (SequenceManagers.new [0, 1]).refresh 0 lists records = some s' ∧
      s'.managers[0]? = some info ∧ ¬ BansEffective lists records info.sorted := by
  intro announced other lists records
  refine ⟨_, _, rfl, rfl, fun h => ?_⟩
  have hvalid : ValidAt lists records 0 := by
    refine ⟨_, rfl, 2, ?_, by decide, by decide⟩
    decide +kernel
  refine h.unbanned 0 hvalid ⟨1, 0, 2, announced⟩ ?_ (by decide)
  refine mem_spansAt_iff.mpr ⟨rfl, ?_, ?_⟩ <;> decide

end Drift
