/-
  When the span tables of the managers agree with the servers of their blocks.

  The routers read the tables only.  `on_request_failure` takes a peer out of the servers and leaves
  the tables, so that the manager keeps on routing to the peer; an update does the same to the
  tables of the managers that have blocks in common.  And the span of a server, which it announces
  itself, may contain blocks that do not list it.  Nothing else can go wrong: a run keeps the tables
  coherent exactly if none of its events does one of these (`run_coherent_iff`).

  From coherent tables there is no route through a peer that failed (`Coherent.avoidsFailed`).
-/
import Drift.Client.SequenceManager
import Drift.Lib.Run

namespace Drift

/-! ## What is to hold -/

/-- What is listed in the table at a block is among the servers of the block. -/
def CoherentTable (servers : List BlockServers) (info : RemoteSequenceInfo) : Prop :=
  ∀ b address : Nat, info.addresses[b]? = some address →
    ∀ span ∈ spansAt info.sorted b, span.peerId ∈ servers.getD address ∅

/-- **The tables of all managers are coherent.** -/
def Coherent (s : SequenceManagers) : Prop :=
  ∀ info ∈ s.managers, CoherentTable s.servers info

/-- No route of the manager, in either mode, goes through a peer at a block at which it failed since
    an update was completed. -/
def AvoidsFailed (failed : List (Nat × Nat)) (info : RemoteSequenceInfo) : Prop :=
  ∀ mode clientServerRtts findPath choice cacheTokensNeeded startIndex endIndex spans,
    startIndex < endIndex →
    (∀ graph, buildInferenceGraph info.sorted clientServerRtts startIndex endIndex
      cacheTokensNeeded = .ok graph → FindsPath graph (findPath graph)) →
    makeSequenceIn info.sorted clientServerRtts findPath choice cacheTokensNeeded startIndex
      endIndex mode = .ok spans →
    ∀ span ∈ spans, ∀ b address : Nat, info.addresses[b]? = some address → span.start ≤ b →
      b < span.stop → (address, span.peerId) ∉ failed

/-- **What is promised of a state.** -/
structure TablesSound (s : SequenceManagers) : Prop where
  coherent : Coherent s
  avoidsFailed : ∀ info ∈ s.managers, AvoidsFailed s.failed info

/-! ## The condition -/

/-- The servers that are online are listed at all blocks of their spans. -/
def SpansHosted (blockInfos : List (Dht.RemoteModuleInfo Nat)) : Prop :=
  ∀ peerId span, (Dht.computeSpans blockInfos .online).lookup peerId = some span →
    ∀ b blockInfo, blockInfos[b]? = some blockInfo → span.start ≤ b → (b : Int) < span.stop →
      peerId ∈ blockInfo.servers

/-- What an event has to be like.  An update brings servers that are listed at all blocks of their
    spans, and takes none away that another manager has in its table there.  The peer of a failure
    is in no table any more.  The servers that a slice finds are listed at all blocks of their
    spans. -/
def KeepsTables (s : SequenceManagers) (event : Nat × ManagerEvent) : Prop :=
  ∀ info, s.managers[event.1]? = some info →
    match event.2 with
    | .update newBlockInfos =>
      newBlockInfos.map (·.uid) = info.blocks.map (·.1) → SpansHosted newBlockInfos ∧
        ∀ j other, j ≠ event.1 → s.managers[j]? = some other →
          ∀ (b k address : Nat) (newInfo : Dht.RemoteModuleInfo Nat),
            other.addresses[b]? = some address → info.addresses[k]? = some address →
            newBlockInfos[k]? = some newInfo →
            ∀ span ∈ spansAt other.sorted b, span.peerId ∈ newInfo.servers
    | .onRequestFailure none => True
    | .onRequestFailure (some peerId) =>
      ∀ other ∈ s.managers, ∀ b address : Nat, other.addresses[b]? = some address →
        address ∈ info.addresses → ∀ span ∈ spansAt other.sorted b, span.peerId ≠ peerId
    | .getitem ix => ∀ indices, ix.toSlice.indices info.blocks.length = .ok indices →
        SpansHosted (blockInfosOf s.servers (indices.filterMap fun i => info.blocks[i]?))

/-! ## One table -/

section Table

variable {servers servers' : List BlockServers} {info : RemoteSequenceInfo}

/-- What is listed at a block is the span of its peer. -/
theorem mem_spansAt_iff {blockInfos : List (Dht.RemoteModuleInfo Nat)} {b : Nat}
    {span : Dht.RemoteSpanInfo Nat} :
    span ∈ spansAt blockInfos b ↔
      (Dht.computeSpans blockInfos .online).lookup span.peerId = some span ∧
        span.start ≤ b ∧ (b : Int) < span.stop := by
  rw [mem_spansAt, mem_spansByPriority]

/-- **A table that was just sorted.** -/
theorem coherentTable_sorted (hsorted : info.sorted = blockInfosOf servers info.blocks) :
    CoherentTable servers info ↔ SpansHosted info.sorted := by
  have hget : ∀ (b : Nat) (blockInfo : Dht.RemoteModuleInfo Nat),
      info.sorted[b]? = some blockInfo ↔ ∃ uid address, info.blocks[b]? = some (uid, address) ∧
        (⟨uid, servers.getD address ∅⟩ : Dht.RemoteModuleInfo Nat) = blockInfo := by
    intro b blockInfo
    rw [hsorted, blockInfosOf, List.getElem?_map, Option.map_eq_some_iff]
    exact ⟨fun ⟨⟨uid, address⟩, h⟩ => ⟨uid, address, h⟩, fun ⟨uid, address, h⟩ => ⟨(uid, address), h⟩⟩
  have haddress : ∀ b address : Nat, info.addresses[b]? = some address ↔
      ∃ uid, info.blocks[b]? = some (uid, address) := by
    intro b address
    rw [RemoteSequenceInfo.addresses, List.getElem?_map, Option.map_eq_some_iff]
    constructor
    · rintro ⟨⟨uid, _⟩, hblock, rfl⟩
      exact ⟨uid, hblock⟩
    · rintro ⟨uid, hblock⟩
      exact ⟨_, hblock, rfl⟩
  constructor
  · intro h peerId span hlookup b blockInfo hblockInfo hlo hhi
    obtain ⟨uid, address, hblock, rfl⟩ := (hget b blockInfo).mp hblockInfo
    obtain rfl := (Dht.lookup_computeSpans_bounds hlookup).1
    exact h b address ((haddress b address).mpr ⟨uid, hblock⟩) span
      (mem_spansAt_iff.mpr ⟨hlookup, hlo, hhi⟩)
  · intro h b address hb span hspan
    obtain ⟨hlookup, hlo, hhi⟩ := mem_spansAt_iff.mp hspan
    obtain ⟨uid, hblock⟩ := (haddress b address).mp hb
    exact h _ span hlookup b _ ((hget b _).mpr ⟨uid, address, hblock, rfl⟩) hlo hhi

/-- **The routes of a coherent table** avoid the peers that are gone. -/
theorem CoherentTable.avoidsFailed (h : CoherentTable servers info) {failed : List (Nat × Nat)}
    (hgone : ∀ address peerId, (address, peerId) ∈ failed →
      peerId ∉ servers.getD address (∅ : BlockServers)) :
    AvoidsFailed failed info := by
  intro mode clientServerRtts findPath choice cacheTokensNeeded startIndex endIndex spans hlt hfind
    hroute span hspan b address haddress hlo hhi hfailed
  obtain ⟨host, hhost, hpeer, hstop⟩ := makeSequenceIn_lies hlt hfind hroute span hspan
  have htable := hostTable_routingSpans info.sorted
  have hcontains := htable.contains _ _ hhost
  have hlisted := htable.everywhere _ _ hhost b (by omega) (by omega)
  obtain ⟨span', hspan', rfl⟩ := mem_routingSpans.mp hlisted
  refine hgone _ _ hfailed ?_
  rw [← hpeer]
  exact h b address haddress span' hspan'

end Table

/-! ## One event -/

/-- What holds of the managers and the objects in any case. -/
structure SharedBlocks (s : SequenceManagers) : Prop where
  nodup : ∀ info ∈ s.managers, info.addresses.Nodup
  lt : ∀ info ∈ s.managers, ∀ address ∈ info.addresses, address < s.servers.length
  gone : ∀ address peerId, (address, peerId) ∈ s.failed →
    peerId ∉ s.servers.getD address (∅ : BlockServers)

section Step

variable {s s' : SequenceManagers} {info : RemoteSequenceInfo} {i : Nat}

/-- An update, if it is completed. -/
theorem update_spec (h : SharedBlocks s) (hinfo : s.managers[i]? = some info)
    {newBlockInfos : List (Dht.RemoteModuleInfo Nat)} {updated : RemoteSequenceInfo}
    {servers : List BlockServers}
    (hupdate : info.update newBlockInfos s.servers = .ok (updated, servers)) :
    updated = ⟨info.blocks, newBlockInfos⟩ ∧ servers.length = s.servers.length ∧
      newBlockInfos.map (·.uid) = info.blocks.map (·.1) ∧
      newBlockInfos = blockInfosOf servers info.blocks ∧
      ∀ address ∉ info.addresses, servers.getD address ∅ = s.servers.getD address ∅ := by
  have hmem := List.mem_of_getElem? hinfo
  unfold RemoteSequenceInfo.update at hupdate
  split at hupdate
  case isFalse => nomatch hupdate
  rename_i hlength
  obtain ⟨servers', hassign, hupdated⟩ := except_bind_eq_ok.mp hupdate
  obtain ⟨rfl, rfl⟩ := Prod.mk.inj (Except.ok.inj hupdated)
  obtain ⟨hcount, hinfos, hother⟩ :=
    assignServers_spec hlength (h.nodup info hmem) (h.lt info hmem) hassign
  exact ⟨by rw [hinfos], hcount, (assignServers_uids hlength).mp ⟨_, hassign⟩, hinfos.symm, hother⟩

/-- It is completed exactly if there are infos for the blocks. -/
theorem update_of_uids {newBlockInfos : List (Dht.RemoteModuleInfo Nat)}
    (huids : newBlockInfos.map (·.uid) = info.blocks.map (·.1)) (servers : List BlockServers) :
    ∃ updated, info.update newBlockInfos servers = .ok updated := by
  have hlength : newBlockInfos.length = info.blocks.length := by
    have hcount := congrArg List.length huids
    rw [List.length_map, List.length_map] at hcount
    exact hcount
  obtain ⟨servers', hassign⟩ := (@assignServers_uids _ _ servers hlength).mpr huids
  rw [RemoteSequenceInfo.update, if_pos hlength, hassign]
  exact ⟨_, rfl⟩

/-- The info of a block has the servers of its object. -/
theorem servers_blockInfosOf {servers : List BlockServers} {blocks : List (Nat × Nat)} {k : Nat}
    {blockInfo : Dht.RemoteModuleInfo Nat} {address : Nat}
    (hinfo : (blockInfosOf servers blocks)[k]? = some blockInfo)
    (haddress : (blocks.map (·.2))[k]? = some address) :
    blockInfo.servers = servers.getD address ∅ := by
  rw [blockInfosOf, List.getElem?_map] at hinfo
  rw [List.getElem?_map] at haddress
  cases hblock : blocks[k]? with
  | none =>
    rw [hblock] at hinfo
    nomatch hinfo
  | some block =>
    rw [hblock] at hinfo haddress
    obtain rfl := Option.some.inj hinfo
    obtain rfl := Option.some.inj haddress
    exact rfl

theorem coherent_update_iff (h : SharedBlocks s) (hcoherent : Coherent s)
    (hinfo : s.managers[i]? = some info) {newBlockInfos : List (Dht.RemoteModuleInfo Nat)}
    {updated : RemoteSequenceInfo} {servers : List BlockServers}
    (hupdate : info.update newBlockInfos s.servers = .ok (updated, servers)) :
    Coherent ⟨servers, s.managers.set i updated, []⟩ ↔
      KeepsTables s (i, .update newBlockInfos) := by
  obtain ⟨rfl, -, huids, hnew, hother⟩ := update_spec h hinfo hupdate
  have hi : i < s.managers.length := (List.getElem?_eq_some_iff.mp hinfo).1
  have hset : ∀ j, (s.managers.set i ⟨info.blocks, newBlockInfos⟩)[j]?
      = if i = j then some ⟨info.blocks, newBlockInfos⟩ else s.managers[j]? := by
    intro j
    rw [List.getElem?_set]
    simp only [hi, if_true]
  have htable : CoherentTable servers ⟨info.blocks, newBlockInfos⟩ ↔ SpansHosted newBlockInfos :=
    @coherentTable_sorted servers ⟨info.blocks, newBlockInfos⟩ hnew
  constructor
  · intro hcoherent' info' hinfo' _
    obtain rfl := Option.some.inj (hinfo.symm.trans hinfo')
    refine ⟨?_, fun j other hne hj b k address newInfo hb hk hnewInfo span hspan => ?_⟩
    · exact htable.mp (hcoherent' _ (List.mem_of_getElem? ((hset i).trans (if_pos rfl))))
    · have hlisted := hcoherent' other
        (List.mem_of_getElem? (((hset j).trans (if_neg (Ne.symm hne))).trans hj))
        b address hb span hspan
      rw [servers_blockInfosOf (hnew ▸ hnewInfo) hk]
      exact hlisted
  · intro hkeeps
    obtain ⟨hhosted, hothers⟩ := hkeeps info hinfo huids
    intro info' hinfo'
    obtain ⟨j, hj⟩ := List.mem_iff_getElem?.mp hinfo'
    rw [hset j] at hj
    split at hj
    · obtain rfl := Option.some.inj hj
      exact htable.mpr hhosted
    · rename_i hne
      intro b address hb span hspan
      by_cases hmem : address ∈ info.addresses
      · obtain ⟨k, hk⟩ := List.mem_iff_getElem?.mp hmem
        obtain ⟨newInfo, hnewInfo⟩ : ∃ newInfo, newBlockInfos[k]? = some newInfo := by
          have hlt := (List.getElem?_eq_some_iff.mp hk).1
          refine ⟨_, List.getElem?_eq_getElem ?_⟩
          rw [hnew, blockInfosOf, List.length_map]
          rw [RemoteSequenceInfo.addresses, List.length_map] at hlt
          exact hlt
        have hlisted := hothers j info' (Ne.symm hne) hj b k address newInfo hb hk hnewInfo span hspan
        rw [servers_blockInfosOf (hnew ▸ hnewInfo) hk] at hlisted
        exact hlisted
      · show span.peerId ∈ servers.getD address ∅
        rw [hother address hmem]
        exact hcoherent info' (List.mem_of_getElem? hj) b address hb span hspan

theorem coherent_onRequestFailure_iff (h : SharedBlocks s) (hcoherent : Coherent s)
    (hinfo : s.managers[i]? = some info) (peerId : Nat) (failed : List (Nat × Nat)) :
    Coherent ⟨popServers peerId info.addresses s.servers, s.managers, failed⟩ ↔
      KeepsTables s (i, .onRequestFailure (some peerId)) := by
  have hmem := List.mem_of_getElem? hinfo
  have hpop := fun address =>
    getD_popServers peerId address (h.nodup info hmem) (h.lt info hmem)
  constructor
  · intro hcoherent' info' hinfo' other hother b address hb haddress span hspan heq
    obtain rfl := Option.some.inj (hinfo.symm.trans hinfo')
    have hlisted := hcoherent' other hother b address hb span hspan
    rw [hpop address, if_pos haddress] at hlisted
    exact (AList.mem_erase.mp hlisted).1 heq
  · intro hkeeps other hother b address hb span hspan
    have hlisted := hcoherent other hother b address hb span hspan
    rw [hpop address]
    split
    · rename_i haddress
      exact AList.mem_erase.mpr
        ⟨hkeeps info hinfo other hother b address hb haddress span hspan, hlisted⟩
    · exact hlisted

theorem coherent_getitem_iff (hcoherent : Coherent s) (hinfo : s.managers[i]? = some info)
    {ix : ManagerIndex} (hstep : s.step (i, .getitem ix) = some s') :
    Coherent s' ↔ KeepsTables s (i, .getitem ix) := by
  simp only [SequenceManagers.step, hinfo, Option.bind_some] at hstep
  have hkeeps : KeepsTables s (i, .getitem ix) ↔
      ∀ indices, ix.toSlice.indices info.blocks.length = .ok indices →
        SpansHosted (blockInfosOf s.servers (indices.filterMap fun i => info.blocks[i]?)) := by
    constructor
    · exact fun hkeeps => hkeeps info hinfo
    · intro hhosted info' hinfo'
      obtain rfl := Option.some.inj (hinfo.symm.trans hinfo')
      exact hhosted
  rw [hkeeps]
  cases hindices : ix.toSlice.indices info.blocks.length with
  | error exc =>
    have hraises : info.getitem ix s.servers = .error exc := by
      rw [RemoteSequenceInfo.getitem, RemoteSequenceInfo.slice, hindices]
      exact rfl
    rw [hraises] at hstep
    obtain rfl := Option.some.inj hstep
    exact iff_of_true hcoherent fun _ hok => nomatch hok
  | ok indices =>
    generalize hblocks : (indices.filterMap fun i => info.blocks[i]?) = blocks
    have hgetitem : info.getitem ix s.servers
        = if 0 < blocks.length then .ok ⟨blocks, blockInfosOf s.servers blocks⟩
          else .error (.assertionError "Sequences must contain at least one block") := by
      rw [RemoteSequenceInfo.getitem, RemoteSequenceInfo.slice, hindices, ← hblocks]
      exact rfl
    rw [hgetitem] at hstep
    by_cases hpos : 0 < blocks.length
    · rw [if_pos hpos] at hstep
      obtain rfl := Option.some.inj hstep
      have hslice : CoherentTable s.servers ⟨blocks, blockInfosOf s.servers blocks⟩ ↔
          SpansHosted (blockInfosOf s.servers blocks) := coherentTable_sorted rfl
      constructor
      · intro hcoherent' indices' hok
        obtain rfl := Except.ok.inj hok
        rw [hblocks]
        exact hslice.mp (hcoherent' _ (List.mem_append_right _ (List.mem_singleton_self _)))
      · intro hhosted info' hinfo'
        rcases List.mem_append.mp hinfo' with hinfo' | hinfo'
        · exact hcoherent info' hinfo'
        · obtain rfl := List.mem_singleton.mp hinfo'
          have hsorted := hhosted indices rfl
          rw [hblocks] at hsorted
          exact hslice.mpr hsorted
    · rw [if_neg hpos] at hstep
      obtain rfl := Option.some.inj hstep
      refine iff_of_true hcoherent fun indices' hok => ?_
      obtain rfl := Except.ok.inj hok
      rw [hblocks]
      -- a slice of no blocks
      obtain rfl := List.length_eq_zero_iff.mp (Nat.eq_zero_of_not_pos hpos)
      intro _ _ _ b _ hblock
      nomatch hblock

theorem SharedBlocks.step (h : SharedBlocks s) {event : Nat × ManagerEvent}
    (hstep : s.step event = some s') : SharedBlocks s' := by
  obtain ⟨i, event⟩ := event
  obtain ⟨info, hinfo, hstep⟩ := Option.bind_eq_some_iff.mp hstep
  have hmem := List.mem_of_getElem? hinfo
  cases event with
  | update newBlockInfos =>
    simp only at hstep
    split at hstep
    · rename_i updated servers hupdate
      obtain rfl := Option.some.inj hstep
      obtain ⟨rfl, hcount, -⟩ := update_spec h hinfo hupdate
      have hall : ∀ info' ∈ s.managers.set i ⟨info.blocks, newBlockInfos⟩, info'.addresses.Nodup ∧
          ∀ address ∈ info'.addresses, address < servers.length := by
        intro info' hinfo'
        rw [hcount]
        rcases List.mem_or_eq_of_mem_set hinfo' with hold | rfl
        · exact ⟨h.nodup info' hold, h.lt info' hold⟩
        · exact ⟨h.nodup info hmem, h.lt info hmem⟩
      exact ⟨fun info' hinfo' => (hall info' hinfo').1, fun info' hinfo' => (hall info' hinfo').2,
        fun _ _ hfailed => nomatch hfailed⟩
    · nomatch hstep
  | onRequestFailure peerId =>
    cases peerId with
    | none =>
      obtain rfl := Option.some.inj hstep
      exact h
    | some peerId =>
      obtain rfl := Option.some.inj hstep
      refine ⟨h.nodup, fun info' hinfo' => ?_, fun address gone hfailed hlisted => ?_⟩
      · rw [length_popServers]
        exact h.lt info' hinfo'
      · rw [getD_popServers peerId address (h.nodup info hmem) (h.lt info hmem)] at hlisted
        rcases List.mem_append.mp hfailed with hbefore | hnow
        · refine h.gone address gone hbefore ?_
          split at hlisted
          · exact (AList.mem_erase.mp hlisted).2
          · exact hlisted
        · obtain ⟨_, haddress, heq⟩ := List.mem_map.mp hnow
          obtain ⟨rfl, rfl⟩ := Prod.mk.inj heq
          rw [if_pos haddress] at hlisted
          exact (AList.mem_erase.mp hlisted).1 rfl
  | getitem ix =>
    simp only at hstep
    split at hstep
    · rename_i slice hslice
      obtain rfl := Option.some.inj hstep
      obtain ⟨-, hnodup, hsubset⟩ := getitem_spec hslice (h.nodup info hmem)
      refine ⟨fun info' hinfo' => ?_, fun info' hinfo' => ?_, h.gone⟩
      · rcases List.mem_append.mp hinfo' with hinfo' | hinfo'
        · exact h.nodup info' hinfo'
        · obtain rfl := List.mem_singleton.mp hinfo'
          exact hnodup
      · rcases List.mem_append.mp hinfo' with hinfo' | hinfo'
        · exact h.lt info' hinfo'
        · obtain rfl := List.mem_singleton.mp hinfo'
          exact fun address haddress => h.lt info hmem address (hsubset address haddress)
    · obtain rfl := Option.some.inj hstep
      exact h

/-- From coherent tables there are no routes through peers that failed. -/
theorem Coherent.tablesSound (h : SharedBlocks s) (hcoherent : Coherent s) : TablesSound s :=
  ⟨hcoherent, fun info hinfo => (hcoherent info hinfo).avoidsFailed h.gone⟩

/-- **One event** keeps the tables sound exactly if it meets the condition. -/
theorem step_tablesSound_iff (h : SharedBlocks s) (hsound : TablesSound s)
    {event : Nat × ManagerEvent} (hstep : s.step event = some s') :
    TablesSound s' ↔ KeepsTables s event := by
  have hiff : TablesSound s' ↔ Coherent s' :=
    ⟨TablesSound.coherent, Coherent.tablesSound (h.step hstep)⟩
  rw [hiff]
  obtain ⟨i, event⟩ := event
  obtain ⟨info, hinfo, hbody⟩ := Option.bind_eq_some_iff.mp hstep
  cases event with
  | update newBlockInfos =>
    simp only at hbody
    split at hbody
    · rename_i updated servers hupdate
      obtain rfl := Option.some.inj hbody
      exact coherent_update_iff h hsound.coherent hinfo hupdate
    · nomatch hbody
  | onRequestFailure peerId =>
    cases peerId with
    | none =>
      obtain rfl := Option.some.inj hbody
      exact iff_of_true hsound.coherent fun _ _ => trivial
    | some peerId =>
      obtain rfl := Option.some.inj hbody
      exact coherent_onRequestFailure_iff h hsound.coherent hinfo peerId _
  | getitem ix => exact coherent_getitem_iff hsound.coherent hinfo hstep

/-- An event that cannot happen breaks nothing. -/
theorem keepsTables_of_none {event : Nat × ManagerEvent} (hstep : s.step event = none) :
    KeepsTables s event := by
  obtain ⟨i, event⟩ := event
  intro info hinfo
  have hinfo : s.managers[i]? = some info := hinfo
  simp only [SequenceManagers.step, hinfo, Option.bind_some] at hstep
  cases event with
  | update newBlockInfos =>
    intro huids
    obtain ⟨updated, hupdate⟩ := update_of_uids huids s.servers
    simp only [hupdate] at hstep
    nomatch hstep
  | onRequestFailure peerId => cases peerId <;> nomatch hstep
  | getitem ix =>
    simp only at hstep
    split at hstep <;> nomatch hstep

end Step

/-! ## Runs -/

theorem sharedBlocks_new (blockUids : List Nat) : SharedBlocks (.new blockUids) := by
  have haddresses : (blockUids.zipIdx.map (·.2)) = List.range blockUids.length := by
    rw [List.range_eq_range']
    exact List.zipIdx_map_snd 0 blockUids
  refine ⟨fun info hinfo => ?_, fun info hinfo => ?_, fun _ _ hfailed => nomatch hfailed⟩
  · obtain rfl := List.mem_singleton.mp hinfo
    rw [RemoteSequenceInfo.addresses, haddresses]
    exact List.nodup_range
  · obtain rfl := List.mem_singleton.mp hinfo
    rw [RemoteSequenceInfo.addresses, haddresses]
    intro address haddress
    show address < (blockUids.map fun _ => (∅ : BlockServers)).length
    rw [List.length_map]
    exact List.mem_range.mp haddress

theorem tablesSound_new (blockUids : List Nat) : TablesSound (.new blockUids) := by
  refine Coherent.tablesSound (sharedBlocks_new blockUids) fun info hinfo => ?_
  obtain rfl := List.mem_singleton.mp hinfo
  intro b address _ span hspan
  obtain ⟨hlookup, -, -⟩ := mem_spansAt_iff.mp hspan
  -- nobody announced anything
  obtain ⟨blockInfo, hblock, hlisted⟩ := Dht.lookup_computeSpans_serverInfo hlookup
  obtain ⟨uid, -, rfl⟩ := List.mem_map.mp hblock
  nomatch hlisted

/-- **When the tables stay sound**: for every sequence of updates, failures and slices, of the
    manager and of its slices. -/
theorem run_coherent_iff (blockUids : List Nat) (events : List (Nat × ManagerEvent)) :
    AllStates SequenceManagers.step TablesSound (.new blockUids) events ↔
      AllSteps SequenceManagers.step KeepsTables (.new blockUids) events := by
  refine allStates_iff_allSteps (D := fun s _ => SharedBlocks s)
    (fun s event s' hsound h hstep => step_tablesSound_iff h hsound hstep)
    (fun s event => keepsTables_of_none) (tablesSound_new blockUids) ?_
  exact (allStates_of_step (fun s event s' h hstep => h.step hstep)
    (sharedBlocks_new blockUids)).allSteps fun s event h => h

/-- **A peer that failed stays in the table**, and the routers go on to draw it. -/
theorem failed_peer_stays_listed :
    ¬ AllStates SequenceManagers.step TablesSound (.new [0])
      [(0, .update [⟨0, (∅ : BlockServers).insert 7 ⟨.online, 1, none, none, none, none, none⟩⟩]),
        (0, .onRequestFailure (some 7))] := by
  intro h
  obtain ⟨-, hfailure⟩ := h.2 _ rfl
  have hsound : TablesSound _ := hfailure _ rfl
  have hlisted := hsound.coherent _ (List.mem_singleton_self _) 0 0 rfl
    ⟨7, 0, 1, ⟨.online, 1, none, none, none, none, none⟩⟩
    (mem_spansAt_iff.mpr ⟨rfl, Nat.le_refl 0, by decide⟩)
  exact (AList.mem_erase.mp hlisted).1 rfl

end Drift
