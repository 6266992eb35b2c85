/-
  `RemoteSequenceManager.make_sequence` of `client/routing/sequence_manager.py`, in both modes.

  What a caller relies on is that a route goes through the blocks in order, that each of its spans
  lies inside what the peer holds, and that every hop goes to another peer (`IsRoute`).  The walk of
  `max_throughput` always runs to the end of a span.  The path of `min_latency` may leave a server
  only there, and so it never comes back to it and never leaves it at once: the spans that the
  router drops for being empty do not occur.

  The announcements of the servers are arbitrary.  What the proofs use of them is that the table of
  the router is consistent (`HostTable`).
-/
import Drift.Client.InferenceGraph
import Drift.Lib.Effect

namespace Drift

/-- `mode`, of the values that are not refused. -/
inductive RoutingMode where
  | minLatency
  | maxThroughput
deriving DecidableEq

/-- `make_sequence`.  The path that `dijkstar` finds and the draws of `np.random.choice` are
    arguments. -/
def makeSequenceIn (blockInfos : List (Dht.RemoteModuleInfo Nat))
    (clientServerRtts : AList fun _ : Nat => Dht.Rtt)
    (findPath : InferenceGraph → Except PyExc (List GraphNode)) (choice : Nat → Nat)
    (cacheTokensNeeded : Option Nat) (startIndex endIndex : Nat) :
    RoutingMode → Except PyExc (List RemoteSpanInfo)
  | .minLatency =>
    makeSequenceByGraph blockInfos findPath clientServerRtts startIndex endIndex cacheTokensNeeded
  | .maxThroughput => makeSequence ⟨routingSpans blockInfos, choice⟩ startIndex endIndex

/-- What is promised of a route through the blocks `[startIndex, stop)`. -/
structure IsRoute (blockInfos : List (Dht.RemoteModuleInfo Nat)) (startIndex stop : Nat)
    (spans : List RemoteSpanInfo) : Prop where
  tiles : Tiles startIndex spans stop
  /-- A span lies inside the one of its peer. -/
  hosted : ∀ span ∈ spans, ∃ host, (Dht.computeSpans blockInfos .online).lookup span.peerId
    = some host ∧ host.start ≤ span.start ∧ (span.stop : Int) ≤ host.stop
  peers : spans.IsChain fun span next => span.peerId ≠ next.peerId

/-! ## Inside the span of a peer -/

/-- The table lists a span of the same peer that goes as far. -/
def Lies (table : List (List RemoteSpanInfo)) (span : RemoteSpanInfo) : Prop :=
  ∃ host ∈ table.getD span.start [], host.peerId = span.peerId ∧ span.stop ≤ host.stop

theorem Lies.hosted {blockInfos : List (Dht.RemoteModuleInfo Nat)} {span : RemoteSpanInfo}
    (h : Lies (routingSpans blockInfos) span) :
    ∃ host, (Dht.computeSpans blockInfos .online).lookup span.peerId = some host ∧
      host.start ≤ span.start ∧ (span.stop : Int) ≤ host.stop := by
  obtain ⟨_, hmem, hpeer, hstop⟩ := h
  obtain ⟨host, hhost, rfl⟩ := mem_routingSpans.mp hmem
  obtain ⟨hspan, hlo, hhi⟩ := mem_spansContainingBlock.mp hhost
  refine ⟨host, ?_, hlo, ?_⟩
  · rw [← hpeer]
    exact mem_spansByPriority.mp hspan
  · have hstop : span.stop ≤ host.stop.toNat := hstop
    omega

/-- Behind the end of its span a peer holds nothing. -/
theorem HostTable.ne_peer {table : List (List RemoteSpanInfo)} (htable : HostTable table)
    {b b' : Nat} {span span' : RemoteSpanInfo} (hspan : span ∈ table.getD b [])
    (hspan' : span' ∈ table.getD b' []) (hstop : span.stop ≤ b') :
    span.peerId ≠ span'.peerId := by
  intro hpeer
  obtain rfl := htable.onePerPeer _ _ _ hspan _ hspan' hpeer
  have hcontains := (htable.contains _ _ hspan').2
  omega

/-! ## The walk of `max_throughput` -/

section Walk

variable {table : RoutingTable} {endIndex : Nat}

/-- A round at a block that somebody holds. -/
theorem makeSequenceLoop_held (htable : HostTable table.spansContainingBlock)
    {currentIndex : Nat} (hlt : currentIndex < endIndex)
    (hheld : table.spansContainingBlock.getD currentIndex [] ≠ []) (fuel : Nat) :
    ∃ chosen ∈ table.spansContainingBlock.getD currentIndex [],
      makeSequenceLoop table endIndex (fuel + 1) currentIndex
        = (makeSequenceLoop table endIndex fuel chosen.stop).map
            ({ chosen with start := currentIndex } :: ·) := by
  obtain ⟨candidates, hcandidates, hne⟩ : ∃ candidates,
      table.spansContainingBlock[currentIndex]? = some candidates ∧ candidates ≠ [] := by
    rw [List.getD_eq_getElem?_getD] at hheld
    cases hget : table.spansContainingBlock[currentIndex]? with
    | none =>
      rw [hget] at hheld
      exact absurd rfl hheld
    | some candidates =>
      rw [hget] at hheld
      exact ⟨candidates, rfl, hheld⟩
  obtain ⟨chosen, hchosen⟩ : ∃ chosen,
      candidates[table.choice currentIndex % candidates.length]? = some chosen :=
    ⟨_, List.getElem?_eq_getElem (Nat.mod_lt _ (List.length_pos_iff.mpr hne))⟩
  have hmem : chosen ∈ table.spansContainingBlock.getD currentIndex [] := by
    rw [List.getD_eq_getElem?_getD, hcandidates]
    exact List.mem_of_getElem? hchosen
  refine ⟨chosen, hmem, ?_⟩
  rw [makeSequenceLoop, if_pos hlt]
  simp only [hcandidates, orRaise, bind, Except.bind, hchosen,
    if_pos (htable.contains _ _ hmem)]
  cases makeSequenceLoop table endIndex fuel chosen.stop <;> rfl

/-- The walk comes to a block that nobody holds, if there is one. -/
theorem makeSequenceLoop_missing (htable : HostTable table.spansContainingBlock)
    {b : Nat} (hlength : b < table.spansContainingBlock.length) (hb : b < endIndex)
    (hempty : table.spansContainingBlock.getD b [] = []) : ∀ {fuel currentIndex : Nat},
    currentIndex ≤ b → b - currentIndex < fuel →
      ∃ blocks, makeSequenceLoop table endIndex fuel currentIndex = .error (.missingBlocks blocks)
  | fuel + 1, currentIndex, hle, hfuel => by
    by_cases hheld : table.spansContainingBlock.getD currentIndex [] = []
    · refine ⟨[currentIndex], ?_⟩
      have hget : table.spansContainingBlock[currentIndex]? = some [] := by
        rw [List.getD_eq_getElem?_getD] at hheld
        have hlt : currentIndex < table.spansContainingBlock.length := by omega
        rw [List.getElem?_eq_getElem hlt] at hheld ⊢
        exact congrArg some hheld
      rw [makeSequenceLoop, if_pos (by omega)]
      simp only [hget, orRaise, bind, Except.bind, List.getElem?_nil]
    · obtain ⟨chosen, hmem, hround⟩ :=
        makeSequenceLoop_held htable (by omega : currentIndex < endIndex) hheld fuel
      obtain ⟨hlo, hhi⟩ := htable.contains _ _ hmem
      -- the block is not in the span, for there the span would be listed
      have hstop : chosen.stop ≤ b := by
        by_contra hin
        have hlisted := htable.everywhere _ _ hmem b (by omega) (by omega)
        rw [hempty] at hlisted
        cases hlisted
      obtain ⟨blocks, hrest⟩ := makeSequenceLoop_missing htable hlength hb hempty hstop
        (by omega : b - chosen.stop < fuel)
      exact ⟨blocks, by rw [hround, hrest]; exact rfl⟩

/-- The walk through blocks that all are held. -/
theorem makeSequenceLoop_route (htable : HostTable table.spansContainingBlock) :
    ∀ {fuel currentIndex : Nat}, endIndex - currentIndex ≤ fuel →
      (∀ b, currentIndex ≤ b → b < endIndex → table.spansContainingBlock.getD b [] ≠ []) →
      currentIndex < endIndex →
      ∃ spans last, makeSequenceLoop table endIndex fuel currentIndex = .ok spans ∧
        endIndex ≤ last ∧ Tiles currentIndex spans last ∧
        (∀ span ∈ spans, Lies table.spansContainingBlock span) ∧
        spans.IsChain fun span next => span.peerId ≠ next.peerId
  | 0, _, hfuel, _, hlt => absurd hlt (by omega)
  | fuel + 1, currentIndex, hfuel, hheld, hlt => by
    obtain ⟨chosen, hmem, hround⟩ :=
      makeSequenceLoop_held htable hlt (hheld currentIndex (Nat.le_refl _) hlt) fuel
    have hcontains := htable.contains _ _ hmem
    have hlies : Lies table.spansContainingBlock { chosen with start := currentIndex } :=
      ⟨chosen, hmem, rfl, Nat.le_refl _⟩
    by_cases hmore : chosen.stop < endIndex
    · obtain ⟨spans, last, hrest, hend, htiles, hall, hpeers⟩ :=
        makeSequenceLoop_route htable (by omega : endIndex - chosen.stop ≤ fuel)
          (fun b hlo => hheld b (by omega)) hmore
      refine ⟨{ chosen with start := currentIndex } :: spans, last, ?_, hend,
        ⟨rfl, hcontains.2, htiles⟩, List.forall_mem_cons.mpr ⟨hlies, hall⟩,
        List.isChain_cons.mpr ⟨?_, hpeers⟩⟩
      · rw [hround, hrest]
        exact rfl
      · -- the next peer holds the block behind the span
        intro next hnext
        obtain ⟨rest, rfl⟩ := List.head?_eq_some_iff.mp hnext
        obtain ⟨host, hhost, hpeer, -⟩ := hall next List.mem_cons_self
        have hne := htable.ne_peer hmem hhost (Nat.le_of_eq htiles.1.symm)
        rw [← hpeer]
        exact hne
    · refine ⟨[{ chosen with start := currentIndex }], chosen.stop, ?_, by omega,
        ⟨rfl, hcontains.2, rfl⟩, List.forall_mem_singleton.mpr hlies, List.IsChain.singleton _⟩
      rw [hround, makeSequenceLoop_of_le (by omega)]
      exact rfl

end Walk

/-! ## The path of `min_latency` -/

section Path

variable {table : List (List RemoteSpanInfo)} {startIndex endIndex : Nat}

/-- The spans of a path that has come to a node.  The last one is empty only where the path has yet
    to compute the block it stands in front of, and then its peer holds that block. -/
structure Visits (table : List (List RemoteSpanInfo)) (startIndex endIndex : Nat)
    (init : List RemoteSpanInfo) (last : RemoteSpanInfo) (node : RouteNode) : Prop where
  peer : last.peerId = node.1
  stop : last.stop = node.2
  le : last.start ≤ last.stop
  init_lies : ∀ span ∈ init, span.start < span.stop ∧ Lies table span
  last_lies : last.start < last.stop → Lies table last
  fresh : ¬ last.start < last.stop → node.2 < endIndex ∧
    (node.2 = startIndex ∨ ∃ host ∈ table.getD node.2 [], host.peerId = node.1)
  peers : (init ++ [last]).IsChain fun span next => span.peerId ≠ next.peerId

theorem appendNode_visits (htable : HostTable table) {init : List RemoteSpanInfo}
    {last : RemoteSpanInfo} {node node' : RouteNode}
    (h : Visits table startIndex endIndex init last node)
    (hedge : GraphEdge table startIndex endIndex node node') :
    ∃ init' last', appendNode (init ++ [last]) node' = init' ++ [last'] ∧
      Visits table startIndex endIndex init' last' node' := by
  obtain ⟨hpeer, hstop, hle, hinit, hlast, hfresh, hpeers⟩ := h
  rw [appendNode, List.getLast?_concat]
  simp only
  cases hedge with
  | @compute span blockIdx hlo hhi hspan =>
    have hpeer : last.peerId = span.peerId := hpeer
    have hstop : last.stop = blockIdx := hstop
    rw [if_pos hpeer, List.dropLast_concat]
    refine ⟨init, { last with stop := blockIdx + 1 }, rfl, hpeer, rfl, ?_, hinit, fun _ => ?_,
      fun hempty => absurd ?_ hempty, ?_⟩
    · show last.start ≤ blockIdx + 1
      omega
    · by_cases hsome : last.start < last.stop
      · -- the span goes on to the block, for otherwise the peer would hold nothing there
        obtain ⟨host, hhost, hhostPeer, -⟩ := hlast hsome
        have hgoes : ¬ host.stop ≤ blockIdx := fun hends =>
          htable.ne_peer hhost hspan hends (hhostPeer.trans hpeer)
        refine ⟨host, hhost, hhostPeer, ?_⟩
        show blockIdx + 1 ≤ host.stop
        omega
      · have hstart : last.start = blockIdx := by omega
        have hspanStop := (htable.contains _ _ hspan).2
        refine ⟨span, ?_, hpeer.symm, hspanStop⟩
        show span ∈ table.getD last.start []
        rw [hstart]
        exact hspan
    · show last.start < blockIdx + 1
      omega
    · rw [List.isChain_append] at hpeers ⊢
      refine ⟨hpeers.1, List.IsChain.singleton _, fun span hspan next hnext => ?_⟩
      obtain rfl := Option.some.inj hnext
      exact hpeers.2.2 span hspan last rfl
  | @switch curSpan nextSpan blockIdx hlo hhi hcur hcurStop hnext =>
    have hpeer : last.peerId = curSpan.peerId := hpeer
    have hstop : last.stop = blockIdx := hstop
    have hne : last.peerId ≠ nextSpan.peerId := by
      rw [hpeer]
      exact htable.ne_peer hcur hnext (Nat.le_of_eq hcurStop)
    -- the peer holds nothing behind its span, so it has computed something
    have hsome : last.start < last.stop := by
      by_contra hempty
      rcases (hfresh hempty).2 with heq | ⟨host, hhost, hhostPeer⟩
      · have heq : blockIdx = startIndex := heq
        omega
      · exact htable.ne_peer hcur hhost (Nat.le_of_eq hcurStop) hhostPeer.symm
    rw [if_neg hne]
    refine ⟨init ++ [last], ⟨nextSpan.peerId, blockIdx, blockIdx⟩, rfl, rfl, rfl, Nat.le_refl _,
      ?_, fun h => absurd h (Nat.lt_irrefl _), fun _ => ⟨hhi, Or.inr ⟨nextSpan, hnext, rfl⟩⟩, ?_⟩
    · intro span hspan
      rcases List.mem_append.mp hspan with hspan | hspan
      · exact hinit span hspan
      · obtain rfl := List.mem_singleton.mp hspan
        exact ⟨hsome, hlast hsome⟩
    · refine List.isChain_append.mpr ⟨hpeers, List.IsChain.singleton _, ?_⟩
      intro span hspan next hnext'
      rw [List.getLast?_concat] at hspan
      obtain rfl := Option.some.inj hspan
      obtain rfl := Option.some.inj hnext'
      exact hne

theorem foldl_appendNode_visits (htable : HostTable table) : ∀ (nodes : List RouteNode)
    {init : List RemoteSpanInfo} {last : RemoteSpanInfo} {node final : RouteNode},
    Visits table startIndex endIndex init last node →
    (node :: nodes).IsChain (GraphEdge table startIndex endIndex) →
    (node :: nodes).getLast? = some final →
    ∃ init' last', nodes.foldl appendNode (init ++ [last]) = init' ++ [last'] ∧
      Visits table startIndex endIndex init' last' final
  | [], init, last, _, _, h, _, hfinal => by
    obtain rfl := Option.some.inj hfinal
    exact ⟨init, last, rfl, h⟩
  | next :: nodes, _, _, _, _, h, hchain, hfinal => by
    obtain ⟨hedge, hchain⟩ := List.isChain_cons_cons.mp hchain
    rw [List.getLast?_cons_cons] at hfinal
    obtain ⟨init', last', heq, hvisits⟩ := appendNode_visits htable h hedge
    rw [List.foldl_cons, heq]
    exact foldl_appendNode_visits htable nodes hvisits hchain hfinal

/-- The spans of a path: none is empty. -/
theorem IsPath.spans (htable : HostTable table) (hlt : startIndex < endIndex)
    {nodes : List RouteNode} (h : IsPath table startIndex endIndex nodes) :
    (∀ span ∈ nodes.foldl appendNode [], span.start < span.stop ∧ Lies table span) ∧
      (nodes.foldl appendNode []).IsChain fun span next => span.peerId ≠ next.peerId := by
  obtain ⟨⟨peer, hhead⟩, ⟨peer', hfinal⟩, hedges⟩ := h
  obtain ⟨rest, rfl⟩ := List.head?_eq_some_iff.mp hhead
  have hfirst : Visits table startIndex endIndex [] ⟨peer, startIndex, startIndex⟩
      (peer, startIndex) :=
    ⟨rfl, rfl, Nat.le_refl _, List.forall_mem_nil _, fun h => absurd h (Nat.lt_irrefl _),
      fun _ => ⟨hlt, Or.inl rfl⟩, List.IsChain.singleton _⟩
  obtain ⟨init, last, heq, hvisits⟩ := foldl_appendNode_visits htable rest hfirst hedges hfinal
  have hlast : last.start < last.stop := by
    by_contra hempty
    exact Nat.lt_irrefl _ (hvisits.fresh hempty).1
  have hspans : ((peer, startIndex) :: rest).foldl appendNode [] = init ++ [last] := heq
  rw [hspans]
  refine ⟨fun span hspan => ?_, hvisits.peers⟩
  rcases List.mem_append.mp hspan with hspan | hspan
  · exact hvisits.init_lies span hspan
  · obtain rfl := List.mem_singleton.mp hspan
    exact ⟨hlast, hvisits.last_lies hlast⟩

/-- A path from a server that holds the block, if the later ones are held too. -/
theorem exists_chain (htable : HostTable table)
    (hheld : ∀ b, startIndex ≤ b → b < endIndex → table.getD b [] ≠ []) :
    ∀ (remaining : Nat) {blockIdx : Nat} {span : RemoteSpanInfo},
      blockIdx + remaining + 1 = endIndex → startIndex ≤ blockIdx →
      span ∈ table.getD blockIdx [] →
      ∃ nodes peer, ((span.peerId, blockIdx) :: nodes).IsChain
          (GraphEdge table startIndex endIndex) ∧
        ((span.peerId, blockIdx) :: nodes).getLast? = some (peer, endIndex)
  | 0, blockIdx, span, hlast, hlo, hspan => by
    refine ⟨[(span.peerId, blockIdx + 1)], span.peerId,
      List.isChain_pair.mpr (GraphEdge.compute hlo (by omega) hspan), ?_⟩
    rw [← hlast]
    exact rfl
  | remaining + 1, blockIdx, span, hlast, hlo, hspan => by
    have hcompute : GraphEdge table startIndex endIndex (span.peerId, blockIdx)
        (span.peerId, blockIdx + 1) := GraphEdge.compute hlo (by omega) hspan
    obtain ⟨hstart, hstop⟩ := htable.contains _ _ hspan
    by_cases hmore : blockIdx + 1 < span.stop
    · have hnext := htable.everywhere _ _ hspan (blockIdx + 1) (by omega) hmore
      obtain ⟨nodes, peer, hchain, hfinal⟩ :=
        exists_chain htable hheld remaining (by omega) (by omega) hnext
      refine ⟨_ :: nodes, peer, List.isChain_cons_cons.mpr ⟨hcompute, hchain⟩, ?_⟩
      rw [List.getLast?_cons_cons]
      exact hfinal
    · -- the server ends here, and the path goes on with another one
      obtain ⟨next, hnext⟩ :=
        List.exists_mem_of_ne_nil _ (hheld (blockIdx + 1) (by omega) (by omega))
      obtain ⟨nodes, peer, hchain, hfinal⟩ :=
        exists_chain htable hheld remaining (by omega) (by omega) hnext
      have hswitch : GraphEdge table startIndex endIndex (span.peerId, blockIdx + 1)
          (next.peerId, blockIdx + 1) :=
        GraphEdge.switch (by omega) (by omega) hspan (by omega) hnext
      refine ⟨_ :: _ :: nodes, peer, List.isChain_cons_cons.mpr
        ⟨hcompute, List.isChain_cons_cons.mpr ⟨hswitch, hchain⟩⟩, ?_⟩
      rw [List.getLast?_cons_cons, List.getLast?_cons_cons]
      exact hfinal

/-- Where every block is held there is a path. -/
theorem exists_isPath (htable : HostTable table) (hlt : startIndex < endIndex)
    (hheld : ∀ b, startIndex ≤ b → b < endIndex → table.getD b [] ≠ []) :
    ∃ nodes, IsPath table startIndex endIndex nodes := by
  obtain ⟨span, hspan⟩ :=
    List.exists_mem_of_ne_nil _ (hheld startIndex (Nat.le_refl _) hlt)
  obtain ⟨nodes, peer, hchain, hfinal⟩ := exists_chain htable hheld
    (endIndex - startIndex - 1) (by omega) (Nat.le_refl _) hspan
  exact ⟨_, ⟨span.peerId, rfl⟩, ⟨peer, hfinal⟩, hchain⟩

end Path

/-! ## Both modes -/

section Modes

variable {blockInfos : List (Dht.RemoteModuleInfo Nat)}
  {clientServerRtts : AList fun _ : Nat => Dht.Rtt}
  {findPath : InferenceGraph → Except PyExc (List GraphNode)} {cacheTokensNeeded : Option Nat}
  {startIndex endIndex : Nat}

theorem length_routingSpans : (routingSpans blockInfos).length = blockInfos.length := by
  rw [routingSpans, List.length_map, length_spansContainingBlock]

theorem routingSpans_eq_nil {b : Nat} :
    (routingSpans blockInfos).getD b [] = [] ↔ spansAt blockInfos b = [] := by
  rw [List.eq_nil_iff_forall_not_mem, List.eq_nil_iff_forall_not_mem]
  constructor
  · exact fun h span hspan => h _ (toRoute_mem hspan)
  · intro h span hspan
    obtain ⟨host, hhost, -⟩ := mem_routingSpans.mp hspan
    exact h host hhost

/-- `min_latency` where a block is missing. -/
theorem makeSequenceByGraph_missing {b : Nat} (hlo : startIndex ≤ b) (hhi : b < endIndex)
    (hempty : spansAt blockInfos b = []) :
    ∃ blocks, makeSequenceByGraph blockInfos findPath clientServerRtts startIndex endIndex
      cacheTokensNeeded = .error (.missingBlocks blocks) := by
  have hmissing : (List.range' startIndex (endIndex - startIndex)).filter
      (fun blockIdx => ((routingSpans blockInfos).getD blockIdx []).isEmpty) ≠ [] := by
    intro hnone
    have hheld := filter_range'_eq_nil.mp hnone b hlo hhi
    rw [routingSpans_eq_nil.mpr hempty] at hheld
    nomatch hheld
  exact ⟨_, (if_neg (by omega)).trans (if_pos hmissing)⟩

/-- `min_latency` along the path that was found. -/
theorem makeSequenceByGraph_found {graph : InferenceGraph} {route : List RouteNode}
    (hlt : startIndex < endIndex)
    (hheld : ∀ b, startIndex ≤ b → b < endIndex → spansAt blockInfos b ≠ [])
    (hgraph : buildInferenceGraph blockInfos clientServerRtts startIndex endIndex cacheTokensNeeded
      = .ok graph)
    (hfound : findPath graph = .ok (.client :: route.map toNode ++ [.done])) :
    makeSequenceByGraph blockInfos findPath clientServerRtts startIndex endIndex cacheTokensNeeded
      = .ok ((route.foldl appendNode []).filter fun span => span.start < span.stop) := by
  have hmissing : (List.range' startIndex (endIndex - startIndex)).filter
      (fun blockIdx => ((routingSpans blockInfos).getD blockIdx []).isEmpty) = [] :=
    filter_range'_eq_nil.mpr fun b hlo hhi => List.isEmpty_eq_false_iff.mpr fun hempty =>
      hheld b hlo hhi (routingSpans_eq_nil.mp hempty)
  have hinner : (do
      let graph ← buildInferenceGraph blockInfos clientServerRtts startIndex endIndex
        cacheTokensNeeded
      let nodes ← findPath graph
      innerNodes nodes) = .ok route := by
    rw [hgraph]
    show findPath graph >>= innerNodes = .ok route
    rw [hfound]
    exact innerNodes_toNode route
  rw [makeSequenceByGraph, hinner, makeSequenceMinLatency, if_neg (by omega),
    if_neg (not_not.mpr hmissing)]
  rfl

/-- Where every block is held, the path finder finds a path between the servers. -/
theorem FindsPath.route {graph : InferenceGraph} (hlt : startIndex < endIndex)
    (hheld : ∀ b, startIndex ≤ b → b < endIndex → spansAt blockInfos b ≠ [])
    (hgraph : buildInferenceGraph blockInfos clientServerRtts startIndex endIndex cacheTokensNeeded
      = .ok graph) {found : Except PyExc (List GraphNode)} (hfind : FindsPath graph found) :
    ∃ route : List RouteNode, found = .ok (.client :: route.map toNode ++ [.done]) ∧
      IsPath (routingSpans blockInfos) startIndex endIndex route := by
  obtain ⟨isWalk, noWalk⟩ := hfind
  cases hfound : found with
  | error exc =>
    obtain ⟨route, hroute⟩ := exists_isPath (hostTable_routingSpans blockInfos) hlt
      fun b hlo hhi hempty => hheld b hlo hhi (routingSpans_eq_nil.mp hempty)
    exact absurd ((isWalk_iff hgraph hlt).mpr ⟨route, rfl, hroute⟩) (noWalk exc hfound _)
  | ok nodes =>
    obtain ⟨route, rfl, hroute⟩ := (isWalk_iff hgraph hlt).mp (isWalk nodes hfound)
    exact ⟨route, rfl, hroute⟩

/-- `min_latency` where every block is held. -/
theorem makeSequenceByGraph_route (hlt : startIndex < endIndex)
    (hrps : PositiveRpsWithin blockInfos startIndex endIndex)
    (hfind : ∀ graph, buildInferenceGraph blockInfos clientServerRtts startIndex endIndex
      cacheTokensNeeded = .ok graph → FindsPath graph (findPath graph))
    (hheld : ∀ b, startIndex ≤ b → b < endIndex → spansAt blockInfos b ≠ []) :
    ∃ spans, makeSequenceByGraph blockInfos findPath clientServerRtts startIndex endIndex
      cacheTokensNeeded = .ok spans ∧ IsRoute blockInfos startIndex endIndex spans := by
  have htable := hostTable_routingSpans blockInfos
  obtain ⟨graph, hgraph⟩ := exists_buildInferenceGraph hrps hheld
  obtain ⟨route, hfound, hroute⟩ := (hfind graph hgraph).route hlt hheld hgraph
  obtain ⟨hspans, hpeers⟩ := hroute.spans htable hlt
  have hfilter : (route.foldl appendNode []).filter (fun span => span.start < span.stop)
      = route.foldl appendNode [] :=
    List.filter_eq_self.mpr fun span hspan => decide_eq_true (hspans span hspan).1
  have hsequence := makeSequenceByGraph_found hlt hheld hgraph hfound
  rw [hfilter] at hsequence
  have htiles : Tiles startIndex (route.foldl appendNode []) endIndex :=
    makeSequenceMinLatency_tiles (fun nodes hnodes => by
      obtain ⟨graph', hgraph', hnodes⟩ := except_bind_eq_ok.mp hnodes
      obtain rfl := Except.ok.inj (hgraph.symm.trans hgraph')
      rw [hfound] at hnodes
      obtain rfl := Except.ok.inj ((innerNodes_toNode route).symm.trans hnodes)
      exact hroute) hsequence
  exact ⟨_, hsequence, htiles, fun span hspan => (hspans span hspan).2.hosted, hpeers⟩

/-- `max_throughput`, in the same two cases. -/
theorem makeSequence_route (choice : Nat → Nat) (hlt : startIndex < endIndex)
    (hheld : ∀ b, startIndex ≤ b → b < endIndex → spansAt blockInfos b ≠ []) :
    ∃ spans stop, makeSequence ⟨routingSpans blockInfos, choice⟩ startIndex endIndex = .ok spans ∧
      endIndex ≤ stop ∧ IsRoute blockInfos startIndex stop spans := by
  let table : RoutingTable := ⟨routingSpans blockInfos, choice⟩
  have htable : HostTable table.spansContainingBlock := hostTable_routingSpans blockInfos
  obtain ⟨spans, stop, hspans, hstop, htiles, hlies, hpeers⟩ :=
    makeSequenceLoop_route htable (Nat.le_refl (endIndex - startIndex))
      (fun b hlo hhi hempty => hheld b hlo hhi (routingSpans_eq_nil.mp hempty)) hlt
  exact ⟨spans, stop, hspans, hstop, htiles, fun span hspan => (hlies span hspan).hosted, hpeers⟩

/-- What `max_throughput` draws. -/
theorem makeSequenceLoop_lies {table : RoutingTable} {endIndex : Nat} :
    ∀ {fuel currentIndex : Nat} {spans : List RemoteSpanInfo},
      makeSequenceLoop table endIndex fuel currentIndex = .ok spans →
      ∀ span ∈ spans, Lies table.spansContainingBlock span
  | 0, _, _, h, span, hmem => by
    obtain rfl := Except.ok.inj h
    nomatch hmem
  | fuel + 1, currentIndex, spans, h, span, hmem => by
    by_cases hlt : currentIndex < endIndex
    · obtain ⟨chosen, rest, -, hrest, rfl, hchosen⟩ := makeSequenceLoop_cons hlt h
      rcases List.mem_cons.mp hmem with rfl | hmem
      · exact ⟨chosen, hchosen, rfl, Nat.le_refl _⟩
      · exact makeSequenceLoop_lies hrest span hmem
    · rw [makeSequenceLoop_of_le (by omega)] at h
      obtain rfl := Except.ok.inj h
      nomatch hmem

/-- **A route goes through what is listed**, in both modes. -/
theorem makeSequenceIn_lies {mode : RoutingMode} {choice : Nat → Nat} {spans : List RemoteSpanInfo}
    (hlt : startIndex < endIndex)
    (hfind : ∀ graph, buildInferenceGraph blockInfos clientServerRtts startIndex endIndex
      cacheTokensNeeded = .ok graph → FindsPath graph (findPath graph))
    (h : makeSequenceIn blockInfos clientServerRtts findPath choice cacheTokensNeeded startIndex
      endIndex mode = .ok spans) :
    ∀ span ∈ spans, Lies (routingSpans blockInfos) span := by
  cases mode with
  | maxThroughput => exact makeSequenceLoop_lies h
  | minLatency =>
    unfold makeSequenceIn makeSequenceByGraph makeSequenceMinLatency at h
    simp only [if_neg (Nat.ne_of_lt hlt)] at h
    split at h
    · nomatch h
    · obtain ⟨route, hroute, rfl⟩ := except_map_eq_ok.mp h
      obtain ⟨graph, hgraph, hroute⟩ := except_bind_eq_ok.mp hroute
      obtain ⟨nodes, hnodes, hroute⟩ := except_bind_eq_ok.mp hroute
      obtain ⟨path, rfl, hpath⟩ :=
        (isWalk_iff hgraph hlt).mp ((hfind graph hgraph).isWalk nodes hnodes)
      obtain rfl := Except.ok.inj ((innerNodes_toNode path).symm.trans hroute)
      intro span hmem
      exact ((hpath.spans (hostTable_routingSpans blockInfos) hlt).1 span
        (List.mem_filter.mp hmem).1).2

/-- **The routes of both modes.**  `MissingBlocksError` is raised exactly if some block asked for is
    held by nobody; otherwise there is a route, which ends with the last block, or in
    `max_throughput` mode where the last span ends. -/
theorem makeSequenceIn_routes (mode : RoutingMode) (choice : Nat → Nat)
    (hlt : startIndex < endIndex) (hend : endIndex ≤ blockInfos.length)
    (hrps : PositiveRps blockInfos)
    (hfind : ∀ graph, buildInferenceGraph blockInfos clientServerRtts startIndex endIndex
      cacheTokensNeeded = .ok graph → FindsPath graph (findPath graph)) :
    ((∃ blocks, makeSequenceIn blockInfos clientServerRtts findPath choice cacheTokensNeeded
        startIndex endIndex mode = .error (.missingBlocks blocks)) ↔
      ∃ b, startIndex ≤ b ∧ b < endIndex ∧ (spansContainingBlock blockInfos).getD b [] = []) ∧
    ((∀ b, startIndex ≤ b → b < endIndex → (spansContainingBlock blockInfos).getD b [] ≠ []) →
      ∃ spans stop, makeSequenceIn blockInfos clientServerRtts findPath choice cacheTokensNeeded
          startIndex endIndex mode = .ok spans ∧
        IsRoute blockInfos startIndex stop spans ∧ endIndex ≤ stop ∧
        (mode = .minLatency → stop = endIndex)) := by
  have hroute : (∀ b, startIndex ≤ b → b < endIndex →
      (spansContainingBlock blockInfos).getD b [] ≠ []) →
      ∃ spans stop, makeSequenceIn blockInfos clientServerRtts findPath choice cacheTokensNeeded
          startIndex endIndex mode = .ok spans ∧
        IsRoute blockInfos startIndex stop spans ∧ endIndex ≤ stop ∧
        (mode = .minLatency → stop = endIndex) := by
    intro hheld
    cases mode with
    | minLatency =>
      obtain ⟨spans, hspans, hroute⟩ := makeSequenceByGraph_route hlt hrps.within hfind hheld
      exact ⟨spans, endIndex, hspans, hroute, Nat.le_refl _, fun _ => rfl⟩
    | maxThroughput =>
      obtain ⟨spans, stop, hspans, hstop, hroute⟩ := makeSequence_route choice hlt hheld
      exact ⟨spans, stop, hspans, hroute, hstop, fun hmode => nomatch hmode⟩
  refine ⟨⟨?_, ?_⟩, hroute⟩
  · rintro ⟨blocks, herror⟩
    by_contra hnone
    obtain ⟨spans, _, hspans, -⟩ :=
      hroute fun b hlo hhi hempty => hnone ⟨b, hlo, hhi, hempty⟩
    rw [herror] at hspans
    nomatch hspans
  · rintro ⟨b, hlo, hhi, hempty⟩
    cases mode with
    | minLatency => exact makeSequenceByGraph_missing hlo hhi hempty
    | maxThroughput =>
      let table : RoutingTable := ⟨routingSpans blockInfos, choice⟩
      have htable : HostTable table.spansContainingBlock := hostTable_routingSpans blockInfos
      have hlength : b < table.spansContainingBlock.length :=
        Nat.lt_of_lt_of_eq (Nat.lt_of_lt_of_le hhi hend) length_routingSpans.symm
      exact makeSequenceLoop_missing htable hlength hhi (routingSpans_eq_nil.mpr hempty) hlo
        (by omega)

/-- Two servers for three blocks; the middle one is held by both. -/
theorem makeSequenceIn_routes_two :
    let announced : Dht.ServerInfo Nat := ⟨.online, 1, none, none, some 2, none, none⟩
    let blockInfos : List (Dht.RemoteModuleInfo Nat) :=
      [⟨0, (∅ : AList _).insert 1 announced⟩,
        ⟨1, ((∅ : AList _).insert 1 announced).insert 2 announced⟩,
        ⟨2, (∅ : AList _).insert 2 announced⟩]
    ∃ spans stop, makeSequenceIn blockInfos ∅
        (fun _ => .ok [.client, .server 1 0, .server 1 1, .server 1 2, .server 2 2, .server 2 3,
          .done])
        (fun _ => 0) (some 16) 0 3 .minLatency = .ok spans ∧
      IsRoute blockInfos 0 stop spans ∧ 3 ≤ stop ∧
        (RoutingMode.minLatency = .minLatency → stop = 3) := by
  intro announced blockInfos
  refine (makeSequenceIn_routes .minLatency (fun _ => 0) (by decide) (by decide) ?_ ?_).2 ?_
  · intro moduleInfo hmem
    simp only [blockInfos, List.mem_cons, List.not_mem_nil, or_false] at hmem
    rcases hmem with rfl | rfl | rfl <;> decide +kernel
  · intro graph hgraph
    refine ⟨fun nodes hnodes => ?_, fun exc herror => nomatch herror⟩
    obtain rfl := Except.ok.inj hnodes
    refine (isWalk_iff hgraph (by decide)).mpr
      ⟨[(1, 0), (1, 1), (1, 2), (2, 2), (2, 3)], rfl, ⟨1, rfl⟩, ⟨2, rfl⟩, ?_⟩
    have hone : ∀ b < 2, (⟨1, 0, 2⟩ : RemoteSpanInfo) ∈ (routingSpans blockInfos).getD b [] := by
      decide +kernel
    have htwo : (⟨2, 1, 3⟩ : RemoteSpanInfo) ∈ (routingSpans blockInfos).getD 2 [] := by
      decide +kernel
    generalize routingSpans blockInfos = table at hone htwo
    have hfirst : GraphEdge table 0 3 (1, 0) (1, 1) :=
      GraphEdge.compute (by decide) (by decide) (hone 0 (by decide))
    have hsecond : GraphEdge table 0 3 (1, 1) (1, 2) :=
      GraphEdge.compute (by decide) (by decide) (hone 1 (by decide))
    have hswitch : GraphEdge table 0 3 (1, 2) (2, 2) :=
      GraphEdge.switch (by decide) (by decide)
        (hone 1 (by decide)) rfl htwo
    have hthird : GraphEdge table 0 3 (2, 2) (2, 3) :=
      GraphEdge.compute (by decide) (by decide) htwo
    exact .cons_cons hfirst (.cons_cons hsecond (.cons_cons hswitch
      (.cons_cons hthird (.singleton _))))
  · decide +kernel

end Modes

end Drift
