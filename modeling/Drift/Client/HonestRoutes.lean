/-
  Routes stay where the servers are.

  The tables of a manager are cut from records that the DHT stored, by the allow and block lists, by
  the bans, by failures and by slicing, so that a server may be listed at some of its blocks and not
  at others.  Whatever is left over, no route goes to a server for a block that it does not host:
  what is listed as online is honest, every operation of the managers only takes entries away, and
  the span that is made of honest entries lies in the range of its server.

  The invariant (`HonestManagers`) is about the objects that the managers share, each with the uid
  of its block: two managers that have an object in common take it for the same block.
-/
import Drift.Client.Bans
import Drift.Utils.DhtRecords

namespace Drift

open Dht (Truthful)

variable {ranges : Nat → Nat × Nat}

/-! ## What is stored -/

/-- The entries of the DHT under a uid that count as servers online are honest. -/
def Dht.Node.StoresTruth {S V : Type} (node : Dht.Node S V Nat) (ranges : Nat → Nat × Nat) : Prop :=
  ∀ time uid, ∀ entry ∈ node.entries time uid, ∀ peerId declared,
    node.readEntry entry = .ok (peerId, declared) → declared.serverInfo.state = .online →
      Dht.Honest (ranges peerId) uid declared.serverInfo

/-- What is read from an honest DHT is truthful. -/
theorem Dht.Node.StoresTruth.truthful {S V : Type} {node : Dht.Node S V Nat}
    (h : node.StoresTruth ranges) {activeAdapter : Option String} {time : WithTop ℚ}
    {moduleInfo : Dht.RemoteModuleInfo Nat} (hreads : node.Reads activeAdapter time moduleInfo) :
    Truthful ranges moduleInfo := by
  intro peerId serverInfo hlookup honline
  obtain ⟨entry, hentry, declared, hread, -, rfl⟩ := hreads.declared peerId serverInfo hlookup
  exact h time moduleInfo.uid entry hentry peerId declared hread honline

/-- `_update`: the infos that it hands to `update_`, read from a DHT that stores the truth. -/
def Refreshes (ranges : Nat → Nat × Nat) (newBlockInfos : List (Dht.RemoteModuleInfo Nat)) : Prop :=
  ∃ (S V : Type) (node : Dht.Node S V Nat) (uids : List Nat) (activeAdapter : Option String)
    (lists : PeerLists) (records : List (Dht.RemoteModuleInfo Nat)), node.StoresTruth ranges ∧
      node.getRemoteModuleInfos uids activeAdapter none true = .ok records ∧
      newBlockInfos = records.map lists.filterBlock

/-- The updates of the managers are refreshes. -/
def HonestEvent (ranges : Nat → Nat × Nat) : ManagerEvent → Prop
  | .update newBlockInfos => Refreshes ranges newBlockInfos
  | _ => True

/-! ## Entries are only taken away -/

/-- With fewer servers it is as truthful. -/
theorem truthful_of_subset {blockInfo blockInfo' : Dht.RemoteModuleInfo Nat}
    (h : Truthful ranges blockInfo) (huid : blockInfo'.uid = blockInfo.uid)
    (hsub : ∀ peerId serverInfo, blockInfo'.servers.lookup peerId = some serverInfo →
      blockInfo.servers.lookup peerId = some serverInfo) : Truthful ranges blockInfo' := by
  intro peerId serverInfo hlookup honline
  rw [huid]
  exact h peerId serverInfo (hsub peerId serverInfo hlookup) honline

theorem truthful_filterBlock {blockInfo : Dht.RemoteModuleInfo Nat} (h : Truthful ranges blockInfo)
    (lists : PeerLists) : Truthful ranges (lists.filterBlock blockInfo) := by
  apply truthful_of_subset h (uid_filterBlock lists blockInfo)
  intro peerId serverInfo hlookup
  exact (mem_lookup_filterBlock.mp hlookup).1

/-- An update brings truthful infos. -/
theorem Refreshes.truthful {newBlockInfos : List (Dht.RemoteModuleInfo Nat)}
    (h : Refreshes ranges newBlockInfos) :
    ∀ blockInfo ∈ newBlockInfos, Truthful ranges blockInfo := by
  obtain ⟨S, V, node, uids, activeAdapter, lists, records, htruth, hread, rfl⟩ := h
  intro blockInfo hmem
  obtain ⟨record, hrecord, rfl⟩ := List.mem_map.mp hmem
  have hreads := (Dht.Node.getRemoteModuleInfos_reads hread).2 record hrecord
  exact truthful_filterBlock (htruth.truthful hreads) lists

/-! ## The managers -/

/-- **The invariant**: the objects are truthful about the blocks for which managers take them, and
    so are the tables. -/
structure HonestManagers (ranges : Nat → Nat × Nat) (s : SequenceManagers) : Prop where
  shared : SharedBlocks s
  /-- An object is for one block. -/
  agree : ∀ info ∈ s.managers, ∀ info' ∈ s.managers, ∀ uid uid' address,
    (uid, address) ∈ info.blocks → (uid', address) ∈ info'.blocks → uid = uid'
  objects : ∀ info ∈ s.managers, ∀ uid address, (uid, address) ∈ info.blocks →
    Truthful ranges ⟨uid, s.servers.getD address ∅⟩
  uids : ∀ info ∈ s.managers, info.sorted.map (·.uid) = info.blocks.map (·.1)
  tables : ∀ info ∈ s.managers, ∀ blockInfo ∈ info.sorted, Truthful ranges blockInfo

theorem map_uid_blockInfosOf (servers : List BlockServers) (blocks : List (Nat × Nat)) :
    (blockInfosOf servers blocks).map (·.uid) = blocks.map (·.1) := by
  rw [blockInfosOf, List.map_map]
  rfl

theorem honestManagers_new {blockUids : List Nat} : HonestManagers ranges (.new blockUids) := by
  have hempty : ∀ uid, Truthful ranges ⟨uid, ∅⟩ := by
    intro uid peerId serverInfo hlookup
    cases hlookup
  refine ⟨sharedBlocks_new blockUids, ?_, ?_, ?_, ?_⟩
  · intro info hinfo info' hinfo' uid uid' address hmem hmem'
    obtain rfl := List.mem_singleton.mp hinfo
    obtain rfl := List.mem_singleton.mp hinfo'
    have hget := List.mem_zipIdx_iff_getElem?.mp hmem
    have hget' := List.mem_zipIdx_iff_getElem?.mp hmem'
    exact Option.some.inj (hget.symm.trans hget')
  · intro info _ uid address _
    have hservers : (SequenceManagers.new blockUids).servers.getD address ∅ = ∅ := by
      show (blockUids.map fun _ => (∅ : BlockServers)).getD address ∅ = ∅
      rw [List.getD_eq_getElem?_getD, List.getElem?_map]
      cases blockUids[address]? <;> rfl
    rw [hservers]
    exact hempty uid
  · intro info hinfo
    obtain rfl := List.mem_singleton.mp hinfo
    show (blockUids.map fun uid => (⟨uid, ∅⟩ : Dht.RemoteModuleInfo Nat)).map (·.uid)
      = blockUids.zipIdx.map (·.1)
    rw [List.map_map, List.zipIdx_map_fst]
    exact List.map_id' blockUids
  · intro info hinfo blockInfo hmem
    obtain rfl := List.mem_singleton.mp hinfo
    obtain ⟨uid, -, rfl⟩ := List.mem_map.mp hmem
    exact hempty uid

section Step

variable {s s' : SequenceManagers} {info : RemoteSequenceInfo} {i : Nat}

/-- An update that is completed. -/
theorem HonestManagers.update (h : HonestManagers ranges s) (hinfo : s.managers[i]? = some info)
    {newBlockInfos : List (Dht.RemoteModuleInfo Nat)} {updated : RemoteSequenceInfo}
    {servers : List BlockServers} (hnew : ∀ blockInfo ∈ newBlockInfos, Truthful ranges blockInfo)
    (hupdate : info.update newBlockInfos s.servers = .ok (updated, servers))
    (hshared : SharedBlocks ⟨servers, s.managers.set i updated, []⟩) :
    HonestManagers ranges ⟨servers, s.managers.set i updated, []⟩ := by
  have hmem := List.mem_of_getElem? hinfo
  obtain ⟨rfl, -, huids, hsorted, hother⟩ := update_spec h.shared hinfo hupdate
  -- the manager keeps its blocks
  have hblocks : ∀ info' ∈ s.managers.set i ⟨info.blocks, newBlockInfos⟩,
      ∃ before ∈ s.managers, before.blocks = info'.blocks ∧
        (info'.sorted = newBlockInfos ∧ before = info ∨ before = info') := by
    intro info' hinfo'
    rcases List.mem_or_eq_of_mem_set hinfo' with hold | rfl
    · exact ⟨info', hold, rfl, .inr rfl⟩
    · exact ⟨info, hmem, rfl, .inl ⟨rfl, rfl⟩⟩
  refine ⟨hshared, ?_, ?_, ?_, ?_⟩
  · intro info₁ hinfo₁ info₂ hinfo₂ uid uid' address hmem₁ hmem₂
    obtain ⟨before₁, hbefore₁, hsame₁, -⟩ := hblocks info₁ hinfo₁
    obtain ⟨before₂, hbefore₂, hsame₂, -⟩ := hblocks info₂ hinfo₂
    exact h.agree before₁ hbefore₁ before₂ hbefore₂ uid uid' address (hsame₁ ▸ hmem₁)
      (hsame₂ ▸ hmem₂)
  · intro info' hinfo' uid address hblock
    obtain ⟨before, hbefore, hsame, -⟩ := hblocks info' hinfo'
    by_cases hin : address ∈ info.addresses
    · -- the object is one of those that were assigned
      obtain ⟨⟨uid', _⟩, hown, rfl⟩ := List.mem_map.mp hin
      obtain rfl := h.agree before hbefore info hmem uid uid' _ (hsame ▸ hblock) hown
      apply hnew
      rw [hsorted]
      exact List.mem_map.mpr ⟨_, hown, rfl⟩
    · show Truthful ranges ⟨uid, servers.getD address ∅⟩
      rw [hother address hin]
      exact h.objects before hbefore uid address (hsame ▸ hblock)
  · intro info' hinfo'
    obtain ⟨before, hbefore, hsame, ⟨hnewSorted, rfl⟩ | rfl⟩ := hblocks info' hinfo'
    · rw [hnewSorted, ← hsame]
      exact huids
    · exact h.uids before hbefore
  · intro info' hinfo'
    obtain ⟨before, hbefore, -, ⟨hnewSorted, rfl⟩ | rfl⟩ := hblocks info' hinfo'
    · rw [hnewSorted]
      exact hnew
    · exact h.tables before hbefore

/-- A failure takes a peer out of the objects. -/
theorem HonestManagers.onRequestFailure (h : HonestManagers ranges s) (hmem : info ∈ s.managers)
    (peerId : Nat) {failed : List (Nat × Nat)}
    (hshared : SharedBlocks ⟨popServers peerId info.addresses s.servers, s.managers, failed⟩) :
    HonestManagers ranges ⟨popServers peerId info.addresses s.servers, s.managers, failed⟩ := by
  refine ⟨hshared, h.agree, ?_, h.uids, h.tables⟩
  intro info' hinfo' uid address hblock
  refine truthful_of_subset (h.objects info' hinfo' uid address hblock) ?_ ?_
  · rfl
  intro peerId' serverInfo hlookup
  have hlookup : ((popServers peerId info.addresses s.servers).getD address ∅).lookup peerId'
      = some serverInfo := hlookup
  rw [getD_popServers peerId address (h.shared.nodup info hmem) (h.shared.lt info hmem)] at hlookup
  show (s.servers.getD address ∅).lookup peerId' = some serverInfo
  split at hlookup
  · by_cases hpeer : peerId' = peerId
    · rw [hpeer, AList.lookup_erase] at hlookup
      cases hlookup
    · rw [AList.lookup_erase_ne hpeer] at hlookup
      exact hlookup
  · exact hlookup

/-- A slice has some of the blocks. -/
theorem HonestManagers.getitem (h : HonestManagers ranges s) (hmem : info ∈ s.managers)
    {ix : ManagerIndex} {slice : RemoteSequenceInfo} (hslice : info.getitem ix s.servers = .ok slice)
    (hshared : SharedBlocks { s with managers := s.managers ++ [slice] }) :
    HonestManagers ranges { s with managers := s.managers ++ [slice] } := by
  obtain ⟨hsorted, -, -⟩ := getitem_spec hslice (h.shared.nodup info hmem)
  have hblocks : ∀ block ∈ slice.blocks, block ∈ info.blocks := by
    obtain ⟨sliced, hsliced, hslice⟩ := except_bind_eq_ok.mp hslice
    obtain ⟨indices, -, hsliced⟩ := except_bind_eq_ok.mp hsliced
    cases hsliced
    split at hslice
    · cases hslice
      intro block hblock
      obtain ⟨k, -, hk⟩ := List.mem_filterMap.mp hblock
      exact List.mem_of_getElem? hk
    · cases hslice
  have hfrom : ∀ info' ∈ s.managers ++ [slice], ∃ before ∈ s.managers,
      (∀ block ∈ info'.blocks, block ∈ before.blocks) ∧ (before = info' ∨ info' = slice) := by
    intro info' hinfo'
    rcases List.mem_append.mp hinfo' with hold | hnew
    · exact ⟨info', hold, fun _ hblock => hblock, .inl rfl⟩
    · obtain rfl := List.mem_singleton.mp hnew
      exact ⟨info, hmem, hblocks, .inr rfl⟩
  have hobjects : ∀ info' ∈ s.managers ++ [slice], ∀ uid address, (uid, address) ∈ info'.blocks →
      Truthful ranges ⟨uid, s.servers.getD address ∅⟩ := by
    intro info' hinfo' uid address hblock
    obtain ⟨before, hbefore, hsub, -⟩ := hfrom info' hinfo'
    exact h.objects before hbefore uid address (hsub _ hblock)
  refine ⟨hshared, ?_, hobjects, ?_, ?_⟩
  · intro info₁ hinfo₁ info₂ hinfo₂ uid uid' address hmem₁ hmem₂
    obtain ⟨before₁, hbefore₁, hsub₁, -⟩ := hfrom info₁ hinfo₁
    obtain ⟨before₂, hbefore₂, hsub₂, -⟩ := hfrom info₂ hinfo₂
    exact h.agree before₁ hbefore₁ before₂ hbefore₂ uid uid' address (hsub₁ _ hmem₁) (hsub₂ _ hmem₂)
  · intro info' hinfo'
    obtain ⟨before, hbefore, -, rfl | rfl⟩ := hfrom info' hinfo'
    · exact h.uids before hbefore
    · rw [hsorted]
      exact map_uid_blockInfosOf s.servers info'.blocks
  · intro info' hinfo' blockInfo hblockInfo
    obtain ⟨before, hbefore, -, rfl | rfl⟩ := hfrom info' hinfo'
    · exact h.tables before hbefore blockInfo hblockInfo
    · rw [hsorted] at hblockInfo
      obtain ⟨⟨uid, address⟩, hblock, rfl⟩ := List.mem_map.mp hblockInfo
      exact hobjects info' hinfo' uid address hblock

/-- **One event.** -/
theorem HonestManagers.step (h : HonestManagers ranges s) {event : Nat × ManagerEvent}
    (hevent : HonestEvent ranges event.2) (hstep : s.step event = some s') :
    HonestManagers ranges s' := by
  have hshared := h.shared.step hstep
  obtain ⟨i, event⟩ := event
  obtain ⟨info, hinfo, hstep⟩ := Option.bind_eq_some_iff.mp hstep
  have hmem := List.mem_of_getElem? hinfo
  cases event with
  | update newBlockInfos =>
    simp only at hstep
    split at hstep
    · rename_i updated servers hupdate
      obtain rfl := Option.some.inj hstep
      exact h.update hinfo (Refreshes.truthful hevent) hupdate hshared
    · cases hstep
  | onRequestFailure peerId =>
    cases peerId with
    | none =>
      obtain rfl := Option.some.inj hstep
      exact h
    | some peerId =>
      obtain rfl := Option.some.inj hstep
      exact h.onRequestFailure hmem peerId hshared
  | getitem ix =>
    simp only at hstep
    split at hstep
    · rename_i slice hslice
      obtain rfl := Option.some.inj hstep
      exact h.getitem hmem hslice hshared
    · obtain rfl := Option.some.inj hstep
      exact h

end Step

/-- **Every run.** -/
theorem honestManagers_exec {blockUids : List Nat} {events : List (Nat × ManagerEvent)}
    {s : SequenceManagers} (hevents : ∀ event ∈ events, HonestEvent ranges event.2)
    (hrun : exec SequenceManagers.step (.new blockUids) events = some s) :
    HonestManagers ranges s := by
  apply exec_invariant (C := fun _ event => HonestEvent ranges event.2) _ honestManagers_new _ hrun
  · intro s event s' h hevent hstep
    exact h.step hevent hstep
  · exact allSteps_of_forall_mem (fun event hmem _ => hevents event hmem) _

/-! ## The routes -/

/-- A span of the table, for blocks that follow each other. -/
theorem range_of_lies {blockInfos : List (Dht.RemoteModuleInfo Nat)} {o : Nat}
    (huids : blockInfos.map (·.uid) = List.range' o blockInfos.length)
    (htruthful : ∀ blockInfo ∈ blockInfos, Truthful ranges blockInfo) {span : RemoteSpanInfo}
    (hlies : Lies (routingSpans blockInfos) span) :
    (ranges span.peerId).1 ≤ o + span.start ∧ o + span.stop ≤ (ranges span.peerId).2 := by
  obtain ⟨host, hhost, hstart, hstop⟩ := hlies.hosted
  obtain ⟨-, hlo, hhi, -⟩ :=
    (Dht.lookup_computeSpans_truthful huids htruthful span.peerId).within host hhost
  omega

/-- **Routes stay where the servers are**: after any run of refreshes from honest DHTs, failures and
    slicings of the managers, a route of either mode uses each server for blocks that it hosts.  The
    blocks of the manager are the ones from `o` on. -/
theorem routes_stay_in_range (ranges : Nat → Nat × Nat) (blockUids : List Nat)
    (events : List (Nat × ManagerEvent)) (s : SequenceManagers)
    (hevents : ∀ event ∈ events, HonestEvent ranges event.2)
    (hrun : exec SequenceManagers.step (.new blockUids) events = some s)
    (manager : RemoteSequenceInfo) (hmanager : manager ∈ s.managers) (o : Nat)
    (hblocks : manager.blocks.map (·.1) = List.range' o manager.blocks.length)
    (mode : RoutingMode) (clientServerRtts : AList fun _ : Nat => Dht.Rtt)
    (findPath : InferenceGraph → Except PyExc (List GraphNode)) (choice : Nat → Nat)
    (cacheTokensNeeded : Option Nat) (startIndex endIndex : Nat) (hlt : startIndex < endIndex)
    (hfind : ∀ graph, buildInferenceGraph manager.sorted clientServerRtts startIndex endIndex
      cacheTokensNeeded = .ok graph → FindsPath graph (findPath graph))
    (spans : List RemoteSpanInfo)
    (hroute : makeSequenceIn manager.sorted clientServerRtts findPath choice cacheTokensNeeded
      startIndex endIndex mode = .ok spans) :
    ∀ span ∈ spans,
      (ranges span.peerId).1 ≤ o + span.start ∧ o + span.stop ≤ (ranges span.peerId).2 := by
  have honest := honestManagers_exec hevents hrun
  have huids : manager.sorted.map (·.uid) = List.range' o manager.sorted.length := by
    have hlength := congrArg List.length (honest.uids manager hmanager)
    rw [List.length_map, List.length_map] at hlength
    rw [honest.uids manager hmanager, hblocks, hlength]
  intro span hspan
  exact range_of_lies huids (honest.tables manager hmanager)
    (makeSequenceIn_lies hlt hfind hroute span hspan)

/-! ## A swarm -/

/-- A server of these blocks. -/
def announcing (start stop : Nat) : Dht.ServerInfo Nat :=
  ⟨.online, ⟨1, by decide⟩, some start, some stop, none, none, none⟩

/-- The entries of three blocks, the second of them with two servers and one that is no peer's. -/
def swarmEntries (uid : Nat) : List (String × Dht.DeclaredInfo Nat) :=
  match uid with
  | 0 => [("seven", ⟨announcing 0 1, []⟩)]
  | 1 => [("eight", ⟨announcing 1 2, []⟩), ("junk", ⟨announcing 0 3, []⟩),
      ("nine", ⟨announcing 1 2, []⟩)]
  | 2 => [("ten", ⟨announcing 2 3, []⟩)]
  | _ => []

/-- The DHT with these entries. -/
def swarmNode : Dht.Node String (Dht.DeclaredInfo Nat) Nat where
  get _ uid := if uid < 3 then some (.dict (swarmEntries uid)) else none
  dhtTime := 0
  fromBase58 s :=
    if s = "seven" then .ok 7
    else if s = "eight" then .ok 8
    else if s = "nine" then .ok 9
    else if s = "ten" then .ok 10
    else .error (.valueError "Invalid base58 string")
  fromTuple := .ok

/-- The infos that are read from it. -/
def swarmInfos : List (Dht.RemoteModuleInfo Nat) :=
  [⟨0, (∅ : BlockServers).insert 7 (announcing 0 1)⟩,
    ⟨1, ((∅ : BlockServers).insert 8 (announcing 1 2)).insert 9 (announcing 1 2)⟩,
    ⟨2, (∅ : BlockServers).insert 10 (announcing 2 3)⟩]

def swarmRanges (peerId : Nat) : Nat × Nat :=
  match peerId with
  | 7 => (0, 1)
  | 8 | 9 => (1, 2)
  | 10 => (2, 3)
  | _ => (0, 0)

/-- What an entry of the DHT is. -/
theorem mem_swarmEntries {time : WithTop ℚ} {uid : Nat} {entry : String × Dht.DeclaredInfo Nat}
    (h : entry ∈ swarmNode.entries time uid) : uid < 3 ∧ entry ∈ swarmEntries uid := by
  unfold Dht.Node.entries swarmNode at h
  simp only at h
  by_cases huid : uid < 3
  · rw [if_pos huid] at h
    exact ⟨huid, h⟩
  · rw [if_neg huid] at h
    cases h

/-- A server that announces its range, at one of its blocks. -/
theorem announcing_honest (range : Nat × Nat) {uid : Nat} (hlo : range.1 ≤ uid)
    (hhi : uid < range.2) : Dht.Honest range uid (announcing range.1 range.2) where
  lo := hlo
  hi := hhi
  announced startBlock endBlock hstart hend := by
    obtain rfl := Option.some.inj hstart
    obtain rfl := Option.some.inj hend
    exact ⟨Nat.le_refl _, hlo, hhi, Nat.le_refl _⟩

theorem swarmNode_storesTruth : swarmNode.StoresTruth swarmRanges := by
  intro time uid entry hentry peerId declared hread _
  obtain ⟨huid, hentry⟩ := mem_swarmEntries hentry
  have hcases : uid = 0 ∨ uid = 1 ∨ uid = 2 := by omega
  rcases hcases with rfl | rfl | rfl
  · obtain rfl := List.mem_singleton.mp hentry
    cases hread
    exact announcing_honest (0, 1) (by decide) (by decide)
  · simp only [swarmEntries, List.mem_cons, List.not_mem_nil, or_false] at hentry
    rcases hentry with rfl | rfl | rfl
    · cases hread
      exact announcing_honest (1, 2) (by decide) (by decide)
    · cases hread
    · cases hread
      exact announcing_honest (1, 2) (by decide) (by decide)
  · obtain rfl := List.mem_singleton.mp hentry
    cases hread
    exact announcing_honest (2, 3) (by decide) (by decide)

theorem swarm_refreshes : Refreshes swarmRanges swarmInfos :=
  ⟨String, Dht.DeclaredInfo Nat, swarmNode, [0, 1, 2], none, ⟨none, none, ∅⟩, swarmInfos,
    swarmNode_storesTruth, rfl, rfl⟩

/-- The tables are refreshed, a request to peer 8 fails, and a manager of the last two blocks is
    cut.  Its route goes along the peers 9 and 10. -/
theorem routes_stay_in_range_slice :
    ((swarmRanges 9).1 ≤ 1 + 0 ∧ 1 + 1 ≤ (swarmRanges 9).2) ∧
      (swarmRanges 10).1 ≤ 1 + 1 ∧ 1 + 2 ≤ (swarmRanges 10).2 := by
  have hrun : exec SequenceManagers.step (.new [0, 1, 2]) [(0, .update swarmInfos),
      (0, .onRequestFailure (some 8)), (0, .getitem (.slice ⟨some 1, some 3, none⟩))]
      = some ⟨[(∅ : BlockServers).insert 7 (announcing 0 1),
          (∅ : BlockServers).insert 9 (announcing 1 2), (∅ : BlockServers).insert 10 (announcing 2 3)],
        [⟨[(0, 0), (1, 1), (2, 2)], swarmInfos⟩,
          ⟨[(1, 1), (2, 2)], [⟨1, (∅ : BlockServers).insert 9 (announcing 1 2)⟩,
            ⟨2, (∅ : BlockServers).insert 10 (announcing 2 3)⟩]⟩],
        [(0, 8), (1, 8), (2, 8)]⟩ := rfl
  have hroute := routes_stay_in_range swarmRanges [0, 1, 2] _ _ (fun event hmem => ?_) hrun _
    (List.mem_cons_of_mem _ (List.mem_singleton_self _)) 1 rfl .minLatency ∅ searchGraph
    (fun _ => 0) (some 4) 0 2 (by decide) (fun graph _ => searchGraph_finds graph)
    [⟨9, 0, 1⟩, ⟨10, 1, 2⟩] (by decide +kernel)
  · exact ⟨hroute ⟨9, 0, 1⟩ List.mem_cons_self,
      hroute ⟨10, 1, 2⟩ (List.mem_cons_of_mem _ (List.mem_singleton_self _))⟩
  · simp only [List.mem_cons, List.not_mem_nil, or_false] at hmem
    rcases hmem with rfl | rfl | rfl
    · exact swarm_refreshes
    · trivial
    · trivial

end Drift
