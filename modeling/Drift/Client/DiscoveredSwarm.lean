/-
  From the DHT to the output: a session whose routes are made from what the DHT stores about the
  servers.

  In `ServedSessions` the routes are given, and so is that they lead along servers that host them.
  Here a route is the path that `dijkstar` finds in the graph of a table, and the table is one that
  a manager may have after any refreshes from the DHT, bans, failures and slicings.  If the entries
  of servers that are online are honest, and the servers host the blocks of their ranges, then every
  route is hosted (`Discovered.hosted`); and where each block is listed with a server online there
  is a route (`Discovered.hasRoutes`).

  So what such a session returns is what the model computes (`discovered_session_computes`).
-/
import Drift.Client.HonestRoutes
import Drift.Client.ServedSessions

namespace Drift

/-! ## The source -/

/-- What the client knows when it makes an attempt, and what its request meets. -/
structure Discovery where
  sorted : List (Dht.RemoteModuleInfo Nat)
  clientServerRtts : AList fun _ : Nat => Dht.Rtt
  findPath : InferenceGraph → Except PyExc (List GraphNode)
  cacheTokensNeeded : Option Nat
  failure : Option PyExc

/-- The attempt of a step, with the table of the router and the paths of its graph. -/
def Discovery.attempt (discovery : Discovery) : StepAttempt where
  spansContainingBlock := routingSpans discovery.sorted
  findPath startIndex endIndex := do
    let graph ← buildInferenceGraph discovery.sorted discovery.clientServerRtts startIndex endIndex
      discovery.cacheTokensNeeded
    let nodes ← discovery.findPath graph
    innerNodes nodes
  failure := discovery.failure

/-- It makes its sequences as `_make_sequence_with_min_latency` does. -/
theorem Discovery.makeSequence_eq (discovery : Discovery) (startIndex endIndex : Nat) :
    discovery.attempt.makeSequence startIndex endIndex
      = makeSequenceByGraph discovery.sorted discovery.findPath discovery.clientServerRtts startIndex
          endIndex discovery.cacheTokensNeeded := rfl

/-- The table is one that a manager of all blocks may have, and the path finder finds paths. -/
structure Discovered (ranges : Nat → Nat × Nat) (numBlocks : Nat) (discovery : Discovery) : Prop where
  table : ∃ blockUids events s manager, (∀ event ∈ events, HonestEvent ranges event.2) ∧
    exec SequenceManagers.step (.new blockUids) events = some s ∧ manager ∈ s.managers ∧
    manager.blocks.map (·.1) = List.range numBlocks ∧ manager.sorted = discovery.sorted
  finds : ∀ startIndex endIndex graph, buildInferenceGraph discovery.sorted
    discovery.clientServerRtts startIndex endIndex discovery.cacheTokensNeeded = .ok graph →
      FindsPath graph (discovery.findPath graph)

/-- Each block is listed with a server online, and nobody announces a speed of zero. -/
structure Discovery.Complete (numBlocks : Nat) (discovery : Discovery) : Prop where
  listed : ∀ b < numBlocks, ∃ blockInfo peerId serverInfo, discovery.sorted[b]? = some blockInfo ∧
    blockInfo.servers.lookup peerId = some serverInfo ∧ serverInfo.state = .online
  rps : PositiveRps discovery.sorted

/-! ## A refresh -/

/-- **A refresh lists what is stored**: if no entry raises more than is caught, it succeeds, and a
    block where a peer that is allowed and not banned has declared itself online is listed with a
    server online. -/
theorem Dht.Node.refresh_lists {S V : Type} (node : Dht.Node S V Nat) (activeAdapter : Option String)
    (lists : PeerLists) (numBlocks : Nat)
    (hraises : ∀ entry exc, node.readEntry entry = .error exc →
      exc = .typeError ∨ ∃ message, exc = .valueError message)
    (hdeclared : ∀ b < numBlocks, ∃ peerId, lists.allows peerId ∧ peerId ∉ lists.bannedPeers ∧
      (∃ entry ∈ node.entries ⊤ b, ∃ serverInfo,
        node.Declares activeAdapter entry peerId serverInfo) ∧
      ∀ entry ∈ node.entries ⊤ b, ∀ serverInfo,
        node.Declares activeAdapter entry peerId serverInfo → serverInfo.state = .online) :
    ∃ records, node.getRemoteModuleInfos (List.range numBlocks) activeAdapter none true
        = .ok records ∧
      ∀ b < numBlocks, ∃ blockInfo peerId serverInfo,
        (records.map lists.filterBlock)[b]? = some blockInfo ∧
        blockInfo.servers.lookup peerId = some serverInfo ∧ serverInfo.state = .online := by
  obtain ⟨records, hread⟩ := Dht.Node.getRemoteModuleInfos_ok hraises (List.range numBlocks)
  obtain ⟨huids, hreads⟩ := Dht.Node.getRemoteModuleInfos_reads hread
  refine ⟨records, hread, fun b hb => ?_⟩
  obtain ⟨peerId, hallowed, hunbanned, ⟨entry, hentry, info, hdeclares⟩, honline⟩ := hdeclared b hb
  -- the record of the block
  have huid : (records.map (·.uid))[b]? = some b := by
    rw [huids, List.getElem?_range hb]
  rw [List.getElem?_map] at huid
  obtain ⟨record, hrecord, rfl⟩ := Option.map_eq_some_iff.mp huid
  have hrecordReads := hreads record (List.mem_of_getElem? hrecord)
  obtain ⟨serverInfo, hlookup⟩ := Option.isSome_iff_exists.mp
    (AList.lookup_isSome.mpr (hrecordReads.listed entry hentry peerId info hdeclares))
  obtain ⟨entry', hentry', hdeclares'⟩ := hrecordReads.declared peerId serverInfo hlookup
  refine ⟨lists.filterBlock record, peerId, serverInfo, ?_, ?_, honline entry' hentry' _ hdeclares'⟩
  · rw [List.getElem?_map, hrecord]
    rfl
  · exact mem_lookup_filterBlock.mpr ⟨hlookup, hallowed, fun hbanned => absurd hbanned hunbanned⟩

/-! ## The routes -/

section Routes

variable {ranges : Nat → Nat × Nat} {numBlocks : Nat} {discovery : Discovery}

/-- What is known of the table. -/
theorem Discovered.sorted (h : Discovered ranges numBlocks discovery) :
    discovery.sorted.length = numBlocks ∧
      discovery.sorted.map (·.uid) = List.range' 0 discovery.sorted.length ∧
      ∀ blockInfo ∈ discovery.sorted, Dht.Truthful ranges blockInfo := by
  obtain ⟨blockUids, events, s, manager, hevents, hrun, hmem, hblocks, hsorted⟩ := h.table
  have honest := honestManagers_exec hevents hrun
  have huids : discovery.sorted.map (·.uid) = List.range numBlocks := by
    rw [← hsorted, honest.uids manager hmem, hblocks]
  have hlength : discovery.sorted.length = numBlocks := by
    have hcount := congrArg List.length huids
    rw [List.length_map, List.length_range] at hcount
    exact hcount
  refine ⟨hlength, ?_, ?_⟩
  · rw [huids, hlength]
    exact List.range_eq_range'
  · rw [← hsorted]
    exact honest.tables manager hmem

/-- A path of the graph is a path between the servers, also where no block is asked for. -/
theorem IsWalk.isPath {blockInfos : List (Dht.RemoteModuleInfo Nat)}
    {clientServerRtts : AList fun _ : Nat => Dht.Rtt} {startIndex endIndex : Nat}
    {cacheTokensNeeded : Option Nat} {graph : InferenceGraph} {nodes : List GraphNode}
    (hgraph : buildInferenceGraph blockInfos clientServerRtts startIndex endIndex cacheTokensNeeded
      = .ok graph) (hwalk : IsWalk graph nodes) :
    ∃ route : List RouteNode, nodes = .client :: route.map toNode ++ [.done] ∧
      IsPath (routingSpans blockInfos) startIndex endIndex route := by
  obtain ⟨hhead, hlast, hedges⟩ := hwalk
  obtain ⟨rest, rfl⟩ := List.head?_eq_some_iff.mp hhead
  cases rest with
  | nil => cases Option.some.inj hlast
  | cons node rest =>
    obtain ⟨hedge, hedges⟩ := List.isChain_cons_cons.mp hedges
    rw [List.getLast?_cons_cons] at hlast
    rcases (hasEdge_buildInferenceGraph hgraph).mp hedge with ⟨span, _, _, rfl⟩ |
      ⟨_, _, hclient, _⟩ | ⟨_, _, hclient, _⟩
    · obtain ⟨route, rfl, hroute, hend⟩ :=
        chain_of_server hgraph (span.peerId, startIndex) hedges hlast
      exact ⟨(span.peerId, startIndex) :: route, rfl, ⟨span.peerId, rfl⟩, hend, hroute⟩
    · cases hclient
    · cases hclient

/-- A path does not go backwards. -/
theorem IsPath.le {table : List (List RemoteSpanInfo)} {startIndex endIndex : Nat}
    {nodes : List RouteNode} (h : IsPath table startIndex endIndex nodes) :
    startIndex ≤ endIndex := by
  obtain ⟨⟨peer, hhead⟩, ⟨peer', hlast⟩, hedges⟩ := h
  obtain ⟨rest, rfl⟩ := List.head?_eq_some_iff.mp hhead
  cases rest with
  | nil =>
    obtain ⟨-, rfl⟩ := Prod.mk.inj (Option.some.inj hlast)
    exact Nat.le_refl _
  | cons next rest =>
    cases (List.isChain_cons_cons.mp hedges).1 with
    | compute hstart hend => omega
    | switch hstart hend => omega

theorem Discovered.findsPaths (h : Discovered ranges numBlocks discovery) :
    FindsPaths discovery.attempt := by
  intro startIndex endIndex nodes hfound
  obtain ⟨graph, hgraph, hfound⟩ := except_bind_eq_ok.mp hfound
  obtain ⟨walk, hwalk, hinner⟩ := except_bind_eq_ok.mp hfound
  have hisWalk := (h.finds startIndex endIndex graph hgraph).isWalk walk hwalk
  obtain ⟨route, rfl, hroute⟩ := hisWalk.isPath hgraph
  obtain rfl := Except.ok.inj ((innerNodes_toNode route).symm.trans hinner)
  exact hroute

/-- **Every route is hosted**, along servers that host the blocks of their ranges. -/
theorem Discovered.hosted (h : Discovered ranges numBlocks discovery)
    {Hosted : RemoteSpanInfo → Prop}
    (hservers : ∀ span : RemoteSpanInfo, span.start < span.stop →
      (ranges span.peerId).1 ≤ span.start → span.stop ≤ (ranges span.peerId).2 → Hosted span) :
    RoutesHosted Hosted discovery.attempt := by
  obtain ⟨-, huids, htruthful⟩ := h.sorted
  intro startIndex endIndex spans spans' hspans htrim span hspan
  have htiles := StepAttempt.makeSequence_tiles h.findsPaths hspans
  by_cases hlt : startIndex < endIndex
  · -- the route ends where it is to end, so that nothing is trimmed
    obtain rfl : spans = spans' := Option.some.inj ((trimLast_of_tiles htiles hlt).symm.trans htrim)
    have hroute : makeSequenceIn discovery.sorted discovery.clientServerRtts discovery.findPath
        (fun _ => 0) discovery.cacheTokensNeeded startIndex endIndex .minLatency = .ok spans :=
      (discovery.makeSequence_eq startIndex endIndex).symm.trans hspans
    have hlies := makeSequenceIn_lies hlt (h.finds startIndex endIndex) hroute span hspan
    obtain ⟨hlo, hhi⟩ := range_of_lies huids htruthful hlies
    rw [Nat.zero_add] at hlo hhi
    exact hservers span (htiles.bounds span hspan).2.1 hlo hhi
  · cases spans with
    | nil => cases htrim
    | cons first rest =>
      have hfirst := htiles.bounds first List.mem_cons_self
      omega

/-- **There are routes** where each block is listed with a server online. -/
theorem Discovered.hasRoutes (h : Discovered ranges numBlocks discovery)
    (hcomplete : discovery.Complete numBlocks) : HasRoutes numBlocks discovery.attempt := by
  obtain ⟨hlength, huids, htruthful⟩ := h.sorted
  intro startIndex endIndex hlt hle
  have hheld : ∀ b, startIndex ≤ b → b < endIndex → spansAt discovery.sorted b ≠ [] := by
    intro b _ hb
    obtain ⟨blockInfo, peerId, serverInfo, hinfo, hlookup, honline⟩ := hcomplete.listed b (by omega)
    have hwithin := Dht.lookup_computeSpans_truthful huids htruthful peerId
    have hin : Dht.OnlineIn
        (discovery.sorted.map fun moduleInfo => moduleInfo.servers.lookup peerId) b := by
      refine ⟨serverInfo, ?_, honline⟩
      rw [List.getElem?_map, hinfo]
      exact congrArg some hlookup
    cases hspan : (Dht.computeSpans discovery.sorted .online).lookup peerId with
    | none => exact absurd hin (hwithin.unseen hspan b (by omega))
    | some span =>
      obtain ⟨-, -, -, -, hcovers⟩ := hwithin.within span hspan
      obtain ⟨hstart, hstop⟩ := hcovers b (by omega) hin
      obtain rfl := (Dht.lookup_computeSpans_bounds hspan).1
      exact List.ne_nil_of_mem (mem_spansAt_iff.mpr ⟨hspan, hstart, hstop⟩)
  obtain ⟨spans, hspans, -⟩ := makeSequenceByGraph_route hlt hcomplete.rps.within
    (h.finds startIndex endIndex) hheld
  exact ⟨spans, (discovery.makeSequence_eq startIndex endIndex).trans hspans⟩

end Routes

/-! ## Sessions -/

variable {κ α : Type} [LinearOrder κ] [Zero α]

/-- What a user does, with what the client knows at each attempt. -/
inductive SwarmEvent (α : Type) where
  | step (inputs : Tensor α) (attempts : List Discovery)
  | rollback (start : Nat)

def SwarmEvent.user : SwarmEvent α → UserEvent α
  | .step inputs attempts => .step inputs (attempts.map Discovery.attempt)
  | .rollback start => .rollback start

/-- The inputs are hidden states, and the tables of the attempts come from the DHT. -/
def DiscoveredEvent (ranges : Nat → Nat × Nat) (numBlocks batch features : Nat) : SwarmEvent α → Prop
  | .step inputs attempts => (∃ n, inputs.shape = [batch, n, features]) ∧
      ∀ discovery ∈ attempts, Discovered ranges numBlocks discovery
  | .rollback _ => True

/-- The retries suffice, from a position on: attempts whose requests are answered come before the
    retries are used up, and where a route is to be made every block is listed.  Behind position 0
    no request fails.  A step fits, and a rollback does not go forwards. -/
def Outlasts (numBlocks maxLength : Nat) (maxRetries : Option Nat) :
    Nat → List (SwarmEvent α) → Prop
  | _, [] => True
  | position, .step inputs attempts :: events =>
    position + inputs.shape.getD 1 0 ≤ maxLength ∧
      Recovers (fun streak discovery => discovery.failure = none ∧
          (position = 0 ∨ streak ≠ 0 → discovery.Complete numBlocks))
        (fun _ _ => True) maxRetries numBlocks 0 attempts ∧
      (position = 0 ∨ ∀ discovery ∈ attempts.take numBlocks, discovery.failure = none) ∧
      Outlasts numBlocks maxLength maxRetries (position + inputs.shape.getD 1 0) events
  | position, .rollback start :: events =>
    start ≤ position ∧ Outlasts numBlocks maxLength maxRetries start events

section Sessions

variable {ranges : Nat → Nat × Nat} {batch features numBlocks maxLength : Nat}
  {maxRetries : Option Nat}

omit [Zero α] in
/-- Then the session survives with the attempts that are made. -/
theorem survives_of_outlasts : ∀ {events : List (SwarmEvent α)} {position : Nat},
    (∀ event ∈ events, DiscoveredEvent ranges numBlocks batch features event) →
    Outlasts numBlocks maxLength maxRetries position events →
    Survives numBlocks maxLength maxRetries position (events.map SwarmEvent.user) := by
  intro events
  induction events with
  | nil => exact fun _ _ => trivial
  | cons event events ih =>
    intro position hevents h
    obtain ⟨hevent, hrest⟩ := List.forall_mem_cons.mp hevents
    cases event with
    | rollback start =>
      obtain ⟨hstart, h⟩ := h
      exact ⟨hstart, ih hrest h⟩
    | step inputs attempts =>
      obtain ⟨hfits, hrecovers, hquiet, h⟩ := h
      obtain ⟨-, hdiscovered⟩ := hevent
      refine ⟨hfits, ?_, ?_, ih hrest h⟩
      · apply Recovers.map
        refine (hrecovers.and hdiscovered).imp ?_ ?_
        · rintro streak discovery ⟨⟨hanswered, hcomplete⟩, hd⟩
          exact ⟨hd.findsPaths, hanswered, fun hneeds => hd.hasRoutes (hcomplete hneeds)⟩
        · rintro streak discovery ⟨-, hd⟩
          exact hd.findsPaths
      · refine hquiet.imp_right fun hquiet attempt hmem => ?_
        rw [← List.map_take] at hmem
        obtain ⟨discovery, hdiscovery, rfl⟩ := List.mem_map.mp hmem
        exact hquiet discovery hdiscovery

variable [Add α] {cfg : PoolConfig}

/-- **From the DHT to the output.**  A session whose routes are made from what the DHT stores
    computes the model, in every run of steps and rollbacks that it outlasts: the entries of the DHT
    that count as servers online are honest, each server hosts any span of its range, and the tables
    are whatever refreshes, bans, failures and slicings have made of them. -/
theorem discovered_session_computes (peers : Nat → Except PyExc (InferenceServer κ α cfg))
    (specs : Nat → CausalSpec α) (ranges : Nat → Nat × Nat)
    (batch features maxLength numBlocks : Nat) (maxRetries : Option Nat)
    (events : List (SwarmEvent α)) (hbatch : 0 < batch) (hblocks : 0 < numBlocks)
    (hservers : ∀ span : RemoteSpanInfo, span.start < span.stop →
      (ranges span.peerId).1 ≤ span.start → span.stop ≤ (ranges span.peerId).2 →
      Reachable peers specs batch features maxLength span)
    (hevents : ∀ event ∈ events, DiscoveredEvent ranges numBlocks batch features event)
    (houtlasts : Outlasts numBlocks maxLength maxRetries 0 events) :
    trace (InferenceSession.perform (rpcServers peers))
        (.new (HandlerState κ α cfg) α numBlocks maxRetries maxLength) (events.map SwarmEvent.user)
      = modelTrace (causalBlocks specs) batch features numBlocks [] (events.map SwarmEvent.user) := by
  have hplain : ∀ event ∈ events.map SwarmEvent.user,
      PlainEvent batch features (Reachable peers specs batch features maxLength) event := by
    intro event hmem
    obtain ⟨swarmEvent, hswarm, rfl⟩ := List.mem_map.mp hmem
    have hevent := hevents swarmEvent hswarm
    cases swarmEvent with
    | rollback start => trivial
    | step inputs attempts =>
      refine ⟨hevent.1, fun attempt hattempt => ?_⟩
      obtain ⟨discovery, hdiscovery, rfl⟩ := List.mem_map.mp hattempt
      exact (hevent.2 discovery hdiscovery).hosted hservers
  have hshapes : ∀ inputs attempts, .step inputs attempts ∈ events.map SwarmEvent.user →
      ∃ n, inputs.shape = [batch, n, features] := by
    intro inputs attempts hmem
    exact (hplain _ hmem).1
  have hsurvives := survives_of_outlasts hevents houtlasts
  rw [trace_simulates (rpcServers_simulates hbatch peers specs features maxLength) numBlocks
    maxRetries hplain]
  exact trace_causalServers (causalSession_new _ batch features hblocks maxRetries maxLength) rfl rfl
    rfl hshapes hsurvives

end Sessions

/-! ## A swarm of four servers -/

/-- What a refresh from the DHT finds, with these peers banned. -/
def swarmTable (bannedPeers : Finset Nat) : List (Dht.RemoteModuleInfo Nat) :=
  swarmInfos.map (PeerLists.mk none none bannedPeers).filterBlock

/-- What the client knows behind the refresh. -/
def swarmDiscovery (bannedPeers : Finset Nat) (failure : Option PyExc) : Discovery where
  sorted := swarmTable bannedPeers
  clientServerRtts := ∅
  findPath := searchGraph
  cacheTokensNeeded := some 4
  failure := failure

/-- Its table is one that a manager may have. -/
theorem swarm_discovered {bannedPeers : Finset Nat} (h : bannedPeers = ∅ ∨ bannedPeers = {8})
    (failure : Option PyExc) :
    Discovered swarmRanges 3 (swarmDiscovery bannedPeers failure) where
  table := by
    have hrun : exec SequenceManagers.step (.new [0, 1, 2]) [(0, .update (swarmTable bannedPeers))]
        = some ⟨(swarmTable bannedPeers).map (·.servers),
          [⟨[(0, 0), (1, 1), (2, 2)], swarmTable bannedPeers⟩], []⟩ := by
      rcases h with rfl | rfl <;> rfl
    refine ⟨_, _, _, _, ?_, hrun, List.mem_singleton_self _, rfl, rfl⟩
    intro event hmem
    obtain rfl := List.mem_singleton.mp hmem
    exact ⟨String, Dht.DeclaredInfo Nat, swarmNode, [0, 1, 2], none, ⟨none, none, bannedPeers⟩,
      swarmInfos, swarmNode_storesTruth, rfl, rfl⟩
  finds _ _ graph _ := searchGraph_finds graph

/-- The entry that is no peer's raises what is caught. -/
theorem swarmNode_raises (entry : String × Dht.DeclaredInfo Nat) (exc : PyExc)
    (h : swarmNode.readEntry entry = .error exc) :
    exc = .typeError ∨ ∃ message, exc = .valueError message := by
  unfold Dht.Node.readEntry swarmNode at h
  simp only at h
  split_ifs at h <;> cases h
  exact .inr ⟨_, rfl⟩

/-- Whoever declares himself in the DHT is online. -/
theorem swarmNode_online {uid peerId : Nat} {entry : String × Dht.DeclaredInfo Nat}
    {serverInfo : Dht.ServerInfo Nat} (hentry : entry ∈ swarmNode.entries ⊤ uid)
    (h : swarmNode.Declares none entry peerId serverInfo) : serverInfo.state = .online := by
  obtain ⟨declared, hread, -, rfl⟩ := h
  obtain ⟨huid, hentry⟩ := mem_swarmEntries hentry
  have hcases : uid = 0 ∨ uid = 1 ∨ uid = 2 := by omega
  rcases hcases with rfl | rfl | rfl
  · obtain rfl := List.mem_singleton.mp hentry
    cases hread
    rfl
  · simp only [swarmEntries, List.mem_cons, List.not_mem_nil, or_false] at hentry
    rcases hentry with rfl | rfl | rfl <;> cases hread <;> rfl
  · obtain rfl := List.mem_singleton.mp hentry
    cases hread
    rfl

/-- The peers 7, 9 and 10 declare one block each. -/
theorem swarmNode_declares {bannedPeers : Finset Nat} (h : bannedPeers = ∅ ∨ bannedPeers = {8}) :
    ∀ b < 3, ∃ peerId, PeerLists.allows ⟨none, none, bannedPeers⟩ peerId ∧
      peerId ∉ bannedPeers ∧
      (∃ entry ∈ swarmNode.entries ⊤ b, ∃ serverInfo,
        swarmNode.Declares none entry peerId serverInfo) ∧
      ∀ entry ∈ swarmNode.entries ⊤ b, ∀ serverInfo,
        swarmNode.Declares none entry peerId serverInfo → serverInfo.state = .online := by
  have hunbanned : ∀ peerId, peerId ≠ 8 → peerId ∉ bannedPeers := by
    intro peerId hne hbanned
    rcases h with rfl | rfl
    · exact Finset.notMem_empty peerId hbanned
    · exact hne (Finset.mem_singleton.mp hbanned)
  intro b hb
  have hcases : b = 0 ∨ b = 1 ∨ b = 2 := by omega
  rcases hcases with rfl | rfl | rfl
  · exact ⟨7, rfl, hunbanned 7 (by decide), ⟨("seven", ⟨announcing 0 1, []⟩), List.mem_cons_self,
      announcing 0 1, ⟨announcing 0 1, []⟩, rfl, rfl, rfl⟩,
      fun entry hentry _ => swarmNode_online hentry⟩
  · exact ⟨9, rfl, hunbanned 9 (by decide), ⟨("nine", ⟨announcing 1 2, []⟩),
      List.mem_cons_of_mem _ (List.mem_cons_of_mem _ List.mem_cons_self),
      announcing 1 2, ⟨announcing 1 2, []⟩, rfl, rfl, rfl⟩,
      fun entry hentry _ => swarmNode_online hentry⟩
  · exact ⟨10, rfl, hunbanned 10 (by decide), ⟨("ten", ⟨announcing 2 3, []⟩), List.mem_cons_self,
      announcing 2 3, ⟨announcing 2 3, []⟩, rfl, rfl, rfl⟩,
      fun entry hentry _ => swarmNode_online hentry⟩

/-- Every block stays listed, also where peer 8 is banned. -/
theorem swarm_complete {bannedPeers : Finset Nat} (h : bannedPeers = ∅ ∨ bannedPeers = {8})
    (failure : Option PyExc) : (swarmDiscovery bannedPeers failure).Complete 3 where
  listed := by
    obtain ⟨records, hread, hlisted⟩ :=
      swarmNode.refresh_lists none ⟨none, none, bannedPeers⟩ 3 swarmNode_raises
        (swarmNode_declares h)
    obtain rfl : swarmInfos = records := Except.ok.inj hread
    exact hlisted
  rps := by
    rintro moduleInfo hmem ⟨peerId, serverInfo⟩ hentry hzero
    obtain ⟨blockInfo, hblock, rfl⟩ := List.mem_map.mp hmem
    -- the servers that a ban leaves were listed before
    have hlookup := (mem_lookup_filterBlock.mp (AList.mem_lookup_iff.mpr hentry)).1
    have hentry := AList.mem_lookup_iff.mp hlookup
    simp only [swarmInfos, List.mem_cons, List.not_mem_nil, or_false] at hblock
    rcases hblock with rfl | rfl | rfl
    · cases List.mem_singleton.mp hentry
      cases hzero
    · rcases List.mem_pair.mp hentry with heq | heq <;> cases heq <;> cases hzero
    · cases List.mem_singleton.mp hentry
      cases hzero

/-- Two tokens, with a request that gets lost; back to the first of them; another one.  The peer
    that did not answer is banned, and the next refresh lists the other server of the block. -/
def discoveredEvents : List (SwarmEvent Int) :=
  [.step (Tensor.ofFn [1, 2, 1] fun ix => 7 + ix.getD 1 0)
      [swarmDiscovery ∅ none, swarmDiscovery ∅ (some .requestFailed), swarmDiscovery {8} none,
        swarmDiscovery {8} none],
    .rollback 1,
    .step (Tensor.ofFn [1, 1, 1] fun _ => 9)
      [swarmDiscovery {8} none, swarmDiscovery {8} none, swarmDiscovery {8} none]]

theorem discoveredEvents_discovered :
    ∀ event ∈ discoveredEvents, DiscoveredEvent swarmRanges 3 1 1 event := by
  intro event hmem
  simp only [discoveredEvents, List.mem_cons, List.not_mem_nil, or_false] at hmem
  rcases hmem with rfl | rfl | rfl
  · refine ⟨⟨2, rfl⟩, fun discovery hdiscovery => ?_⟩
    simp only [List.mem_cons, List.not_mem_nil, or_false] at hdiscovery
    rcases hdiscovery with rfl | rfl | rfl | rfl
    · exact swarm_discovered (.inl rfl) _
    · exact swarm_discovered (.inl rfl) _
    · exact swarm_discovered (.inr rfl) _
    · exact swarm_discovered (.inr rfl) _
  · trivial
  · refine ⟨⟨1, rfl⟩, fun discovery hdiscovery => ?_⟩
    simp only [List.mem_cons, List.not_mem_nil, or_false] at hdiscovery
    rcases hdiscovery with rfl | rfl | rfl <;> exact swarm_discovered (.inr rfl) _

theorem discoveredEvents_outlast : Outlasts 3 4 (some 3) 0 discoveredEvents := by
  have hgood : ∀ {bannedPeers : Finset Nat} (needs : Prop),
      (bannedPeers = ∅ ∨ bannedPeers = {8}) → (swarmDiscovery bannedPeers none).failure = none ∧
        (needs → (swarmDiscovery bannedPeers none).Complete 3) :=
    fun _ h => ⟨rfl, fun _ => swarm_complete h none⟩
  refine ⟨by decide,
    .good (hgood _ (.inl rfl)) (.bad trivial ?_ (.good (hgood _ (.inr rfl)) (.good (hgood _ (.inr rfl))
      (.finished _ _)))),
    .inl rfl, by decide, by decide,
    .good (hgood _ (.inr rfl)) (.good (hgood _ (.inr rfl)) (.good (hgood _ (.inr rfl))
      (.finished _ _))),
    .inr ?_, trivial⟩
  · rintro m ⟨⟩
    exact .inr (by decide)
  · intro discovery hmem
    simp only [List.take, List.mem_cons, List.not_mem_nil, or_false] at hmem
    rcases hmem with rfl | rfl | rfl <;> rfl

/-- The peers of the entries, each of which hosts its block. -/
def swarmPeers (peerId : Nat) :
    Except PyExc (InferenceServer String Int (PagedKVPool.tokenConfig 1)) :=
  match peerId with
  | 7 | 8 | 9 | 10 => .ok firstTokenPeer
  | _ => .error .requestFailed

theorem swarmPeers_reachable (span : RemoteSpanInfo) (hlt : span.start < span.stop)
    (hlo : (swarmRanges span.peerId).1 ≤ span.start)
    (hhi : span.stop ≤ (swarmRanges span.peerId).2) :
    Reachable swarmPeers (fun _ => FirstToken.spec) 1 1 4 span := by
  obtain ⟨peerId, start, stop⟩ := span
  unfold swarmRanges at hlo hhi
  simp only at hlt hlo hhi
  -- the range of each peer is one block
  have hone : swarmPeers peerId = .ok firstTokenPeer ∧ stop = start + 1 := by
    split at hhi
    all_goals first | exact ⟨rfl, by simp only at hlo hhi; omega⟩ | (simp only at hlo hhi; omega)
  obtain ⟨hpeer, rfl⟩ := hone
  exact ⟨firstTokenPeer, hpeer, firstTokenPeer_hosts (by decide)⟩

theorem discovered_session_computes_three :
    trace (InferenceSession.perform (rpcServers swarmPeers))
        (.new _ Int 3 (some 3) 4) (discoveredEvents.map SwarmEvent.user)
      = modelTrace (causalBlocks fun _ => FirstToken.spec) 1 1 3 []
          (discoveredEvents.map SwarmEvent.user) :=
  discovered_session_computes swarmPeers (fun _ => FirstToken.spec) swarmRanges 1 1 4 3
    (some 3) discoveredEvents Nat.one_pos (by decide) swarmPeers_reachable
    discoveredEvents_discovered discoveredEvents_outlast

end Drift
