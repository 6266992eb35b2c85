/-
  `RemoteSequenceManager._build_inference_graph` of `client/routing/sequence_manager.py`: the graph
  in which the router of inference sessions looks for a shortest path.

  A node is a server in front of a block.  Beside the two ends there are edges for computing a block
  and edges for going on to another server, these only behind the last block of a server.  The
  delays decide which path is the shortest; which edges there are does not depend on them
  (`hasEdge_buildInferenceGraph`).  So the paths of this graph are the paths of
  `Client/MinLatencyRouting`, with the two ends put back (`isWalk_iff`).
-/
import Drift.Client.MinLatencyRouting
import Drift.Client.SequenceInfo
import Drift.Lib.PathSearch
import Mathlib.Data.List.Chain

namespace Drift

/-! ## The source -/

inductive GraphNode where
  /-- `"start"`. -/
  | client
  | server (peerId blockIdx : Nat)
  /-- `"end"`. -/
  | done
deriving DecidableEq

/-- The calls of `graph.add_edge`: a later one for the same nodes replaces the delay. -/
abbrev InferenceGraph := List (GraphNode × GraphNode × ℚ)

/-- `_rtt_to_delay`. -/
def rttToDelay (rtt : Option Dht.Rtt) : ℚ :=
  match rtt with
  | none => 15 / 100
  | some rtt => WithTop.untopD 5 (WithTop.map (fun rtt => min (rtt / 2) 5) rtt)

/-- `_has_cache_for`. -/
def hasCacheFor (spanLength : Int) (cacheTokensLeft : Option Int) (cacheTokensNeeded : Option Nat) :
    Bool :=
  match cacheTokensNeeded, cacheTokensLeft with
  | some needed, some left => needed * 2 * spanLength ≤ left
  | _, _ => true

/-- The delay of going to a server, given the round trip time. -/
def delayTo (span : Dht.RemoteSpanInfo Nat) (cacheTokensNeeded : Option Nat)
    (rtt : Option Dht.Rtt) : ℚ :=
  rttToDelay rtt + 18 / 1000 +
    if hasCacheFor span.length (span.serverInfo.cacheTokensLeft.map fun left : Nat => (left : Int))
        cacheTokensNeeded then 0
    else 10

/-- `1.0 / inference_rps`. -/
def inferenceDelay (span : Dht.RemoteSpanInfo Nat) : Except PyExc ℚ :=
  match span.serverInfo.inferenceRps with
  | none => .ok (1 / 300)
  | some inferenceRps =>
    if inferenceRps = 0 then .error .zeroDivisionError else .ok (1 / inferenceRps)

section Graph

variable (blockInfos : List (Dht.RemoteModuleInfo Nat))

/-- `spans_containing_block[block_idx]`. -/
def spansAt (blockIdx : Nat) : List (Dht.RemoteSpanInfo Nat) :=
  (spansContainingBlock blockInfos).getD blockIdx []

/-- The edges between servers behind the last block of the first. -/
def switchEdges (blockIdx : Nat) (cacheTokensNeeded : Option Nat) : InferenceGraph :=
  ((spansAt blockInfos (blockIdx - 1)).filter fun curSpan => curSpan.stop = (blockIdx : Int)).flatMap
    fun curSpan => (spansAt blockInfos blockIdx).map fun nextSpan =>
      (.server curSpan.peerId blockIdx, .server nextSpan.peerId blockIdx,
        delayTo nextSpan cacheTokensNeeded
          (curSpan.serverInfo.nextPings.bind fun nextPings => nextPings.lookup nextSpan.peerId))

/-- The edges of a server for its own blocks. -/
def computeEdges (startIndex endIndex : Nat) (span : Dht.RemoteSpanInfo Nat) :
    Except PyExc InferenceGraph :=
  (pyRange (max span.start startIndex) (min span.stop endIndex)).mapM fun blockIdx => do
    let delay ← inferenceDelay span
    .ok (.server span.peerId blockIdx.toNat, .server span.peerId (blockIdx.toNat + 1), delay)

/-- `_build_inference_graph`. -/
def buildInferenceGraph (clientServerRtts : AList fun _ : Nat => Dht.Rtt)
    (startIndex endIndex : Nat) (cacheTokensNeeded : Option Nat) : Except PyExc InferenceGraph :=
  let missingBlocks := (List.range' startIndex (endIndex - startIndex)).filter fun blockIdx =>
    (spansAt blockInfos blockIdx).isEmpty
  if missingBlocks ≠ [] then .error (.missingBlocks missingBlocks)
  else do
    let fromClient := (spansAt blockInfos startIndex).map fun span =>
      (GraphNode.client, GraphNode.server span.peerId startIndex,
        delayTo span cacheTokensNeeded (clientServerRtts.lookup span.peerId))
    let toClient := (spansAt blockInfos (endIndex - 1)).map fun span =>
      (GraphNode.server span.peerId endIndex, GraphNode.done,
        rttToDelay (clientServerRtts.lookup span.peerId))
    let switches := (List.range' (startIndex + 1) (endIndex - (startIndex + 1))).flatMap
      fun blockIdx => switchEdges blockInfos blockIdx cacheTokensNeeded
    let computes ← (spansByPriority blockInfos).mapM (computeEdges startIndex endIndex)
    .ok (fromClient ++ toClient ++ switches ++ computes.flatten)

end Graph

/-- There is an edge. -/
def HasEdge (graph : InferenceGraph) (node node' : GraphNode) : Prop :=
  (node, node') ∈ graph.map fun edge => (edge.1, edge.2.1)

instance (graph : InferenceGraph) (node node' : GraphNode) : Decidable (HasEdge graph node node') :=
  inferInstanceAs (Decidable (_ ∈ _))

/-- The nodes of a path from one end to the other. -/
structure IsWalk (graph : InferenceGraph) (nodes : List GraphNode) : Prop where
  head : nodes.head? = some .client
  last : nodes.getLast? = some .done
  edges : nodes.IsChain (HasEdge graph)

/-- What is relied on of `dijkstar.find_path`: what it returns is a path, and it raises only when
    there is none. -/
structure FindsPath (graph : InferenceGraph) (found : Except PyExc (List GraphNode)) : Prop where
  isWalk : ∀ nodes, found = .ok nodes → IsWalk graph nodes
  noWalk : ∀ exc, found = .error exc → ∀ nodes, ¬ IsWalk graph nodes

/-- `for peer_id, block_idx in path.nodes[1:-1]`: the ends are no pairs. -/
def innerNodes (nodes : List GraphNode) : Except PyExc (List RouteNode) :=
  nodes.tail.dropLast.mapM fun
    | .server peerId blockIdx => .ok (peerId, blockIdx)
    | _ => .error (.valueError "too many values to unpack (expected 2)")

/-- `make_sequence(start_index, end_index, mode="min_latency")`, with its graph. -/
def makeSequenceByGraph (blockInfos : List (Dht.RemoteModuleInfo Nat))
    (findPath : InferenceGraph → Except PyExc (List GraphNode))
    (clientServerRtts : AList fun _ : Nat => Dht.Rtt) (startIndex endIndex : Nat)
    (cacheTokensNeeded : Option Nat) : Except PyExc (List RemoteSpanInfo) :=
  makeSequenceMinLatency (routingSpans blockInfos)
    (do
      let graph ← buildInferenceGraph blockInfos clientServerRtts startIndex endIndex
        cacheTokensNeeded
      let nodes ← findPath graph
      innerNodes nodes)
    startIndex endIndex

/-! ## The edges -/

theorem hasEdge_iff {graph : InferenceGraph} {node node' : GraphNode} :
    HasEdge graph node node' ↔ ∃ delay, (node, node', delay) ∈ graph := by
  rw [HasEdge, List.mem_map]
  constructor
  · rintro ⟨⟨_, _, delay⟩, hmem, heq⟩
    obtain ⟨rfl, rfl⟩ := Prod.mk.inj heq
    exact ⟨delay, hmem⟩
  · rintro ⟨delay, hmem⟩
    exact ⟨_, hmem, rfl⟩

theorem hasEdge_append {graph graph' : InferenceGraph} {node node' : GraphNode} :
    HasEdge (graph ++ graph') node node' ↔
      HasEdge graph node node' ∨ HasEdge graph' node node' := by
  rw [HasEdge, List.map_append, List.mem_append]
  exact Iff.rfl

section Edges

variable {blockInfos : List (Dht.RemoteModuleInfo Nat)} {startIndex endIndex : Nat}
  {node node' : GraphNode}

theorem mem_spansAt {blockIdx : Nat} {span : Dht.RemoteSpanInfo Nat} :
    span ∈ spansAt blockInfos blockIdx ↔
      span ∈ spansByPriority blockInfos ∧ span.start ≤ blockIdx ∧ (blockIdx : Int) < span.stop :=
  mem_spansContainingBlock

/-- A server that holds a block, in the table of the router. -/
theorem toRoute_mem {blockIdx : Nat} {span : Dht.RemoteSpanInfo Nat}
    (h : span ∈ spansAt blockInfos blockIdx) :
    toRoute span ∈ (routingSpans blockInfos).getD blockIdx [] :=
  mem_routingSpans.mpr ⟨span, h, rfl⟩

/-- An announced speed is not zero. -/
def PositiveRps (blockInfos : List (Dht.RemoteModuleInfo Nat)) : Prop :=
  ∀ moduleInfo ∈ blockInfos, ∀ entry ∈ moduleInfo.servers.entries, entry.2.inferenceRps ≠ some 0

/-- The servers that hold the blocks asked for have not announced a speed of zero. -/
def PositiveRpsWithin (blockInfos : List (Dht.RemoteModuleInfo Nat)) (startIndex endIndex : Nat) :
    Prop :=
  ∀ b, startIndex ≤ b → b < endIndex → ∀ span ∈ spansAt blockInfos b,
    span.serverInfo.inferenceRps ≠ some 0

theorem PositiveRps.within (hrps : PositiveRps blockInfos) :
    PositiveRpsWithin blockInfos startIndex endIndex := by
  intro b _ _ span hspan hzero
  obtain ⟨moduleInfo, hmem, hlookup⟩ :=
    Dht.lookup_computeSpans_serverInfo (mem_spansByPriority.mp (mem_spansAt.mp hspan).1)
  exact hrps moduleInfo hmem _ (AList.mem_lookup_iff.mp hlookup) hzero

theorem inferenceDelay_ok {span : Dht.RemoteSpanInfo Nat}
    (hrps : span.serverInfo.inferenceRps ≠ some 0) :
    ∃ delay, inferenceDelay span = .ok delay := by
  rw [inferenceDelay]
  cases hannounced : span.serverInfo.inferenceRps with
  | none => exact ⟨_, rfl⟩
  | some inferenceRps =>
    have hne : inferenceRps ≠ 0 := fun hzero => hrps (by rw [hannounced, hzero])
    exact ⟨_, if_neg hne⟩

/-- A server whose blocks are not asked for has no edges, whatever its speed. -/
theorem computeEdges_ok (hrps : PositiveRpsWithin blockInfos startIndex endIndex)
    {span : Dht.RemoteSpanInfo Nat} (h : span ∈ spansByPriority blockInfos) :
    ∃ edges, computeEdges startIndex endIndex span = .ok edges := by
  refine exists_mapM_ok fun blockIdx hblock => ?_
  obtain ⟨hlo, hhi⟩ := mem_pyRange.mp hblock
  obtain ⟨b, rfl⟩ : ∃ b : Nat, blockIdx = b := ⟨blockIdx.toNat, by omega⟩
  have hspan : span ∈ spansAt blockInfos b := mem_spansAt.mpr ⟨h, by omega, by omega⟩
  obtain ⟨delay, hdelay⟩ := inferenceDelay_ok (hrps b (by omega) (by omega) span hspan)
  rw [hdelay]
  exact ⟨_, rfl⟩

/-- The edges of a server for its own blocks. -/
theorem hasEdge_computeEdges {span : Dht.RemoteSpanInfo Nat} {edges : InferenceGraph}
    (h : computeEdges startIndex endIndex span = .ok edges) :
    HasEdge edges node node' ↔ ∃ blockIdx : Nat, startIndex ≤ blockIdx ∧ blockIdx < endIndex ∧
      span.start ≤ blockIdx ∧ (blockIdx : Int) < span.stop ∧
      node = .server span.peerId blockIdx ∧ node' = .server span.peerId (blockIdx + 1) := by
  rw [hasEdge_iff]
  constructor
  · rintro ⟨delay, hmem⟩
    obtain ⟨blockIdx, hblock, hedge⟩ := (mem_of_mapM h).mp hmem
    obtain ⟨hlo, hhi⟩ := mem_pyRange.mp hblock
    obtain ⟨b, rfl⟩ : ∃ b : Nat, blockIdx = b := ⟨blockIdx.toNat, by omega⟩
    cases hdelay : inferenceDelay span with
    | error exc =>
      rw [hdelay] at hedge
      nomatch hedge
    | ok delay' =>
      rw [hdelay] at hedge
      obtain ⟨rfl, hrest⟩ := Prod.mk.inj (Except.ok.inj hedge)
      obtain ⟨rfl, -⟩ := Prod.mk.inj hrest
      exact ⟨b, by omega, by omega, by omega, by omega, rfl, rfl⟩
  · rintro ⟨b, hstart, hend, hlo, hhi, rfl, rfl⟩
    have hblock : (b : Int) ∈
        pyRange (max span.start startIndex) (min span.stop endIndex) := by
      rw [mem_pyRange]
      omega
    cases hdelay : inferenceDelay span with
    | error exc =>
      obtain ⟨edge, hedge⟩ := ok_of_mapM h hblock
      rw [hdelay] at hedge
      nomatch hedge
    | ok delay =>
      refine ⟨delay, (mem_of_mapM h).mpr ⟨b, hblock, ?_⟩⟩
      rw [hdelay]
      exact rfl

theorem hasEdge_switchEdges {blockIdx : Nat} {cacheTokensNeeded : Option Nat} :
    HasEdge (switchEdges blockInfos blockIdx cacheTokensNeeded) node node' ↔
      ∃ curSpan ∈ spansAt blockInfos (blockIdx - 1), curSpan.stop = (blockIdx : Int) ∧
        ∃ nextSpan ∈ spansAt blockInfos blockIdx, node = .server curSpan.peerId blockIdx ∧
          node' = .server nextSpan.peerId blockIdx := by
  rw [hasEdge_iff, switchEdges]
  constructor
  · rintro ⟨delay, hmem⟩
    obtain ⟨curSpan, hcur, hmem⟩ := List.mem_flatMap.mp hmem
    obtain ⟨hcur, hstop⟩ := List.mem_filter.mp hcur
    obtain ⟨nextSpan, hnext, hedge⟩ := List.mem_map.mp hmem
    obtain ⟨rfl, hrest⟩ := Prod.mk.inj hedge
    obtain ⟨rfl, -⟩ := Prod.mk.inj hrest
    exact ⟨curSpan, hcur, of_decide_eq_true hstop, nextSpan, hnext, rfl, rfl⟩
  · rintro ⟨curSpan, hcur, hstop, nextSpan, hnext, rfl, rfl⟩
    exact ⟨_, List.mem_flatMap.mpr ⟨curSpan,
      List.mem_filter.mpr ⟨hcur, decide_eq_true hstop⟩, List.mem_map.mpr ⟨nextSpan, hnext, rfl⟩⟩⟩

end Edges

section Graph

variable {blockInfos : List (Dht.RemoteModuleInfo Nat)}
  {clientServerRtts : AList fun _ : Nat => Dht.Rtt} {startIndex endIndex : Nat}
  {cacheTokensNeeded : Option Nat} {graph : InferenceGraph}

/-- The parts of a graph that was built. -/
theorem buildInferenceGraph_eq
    (h : buildInferenceGraph blockInfos clientServerRtts startIndex endIndex cacheTokensNeeded
      = .ok graph) :
    (∀ b, startIndex ≤ b → b < endIndex → spansAt blockInfos b ≠ []) ∧ ∃ computes,
      (spansByPriority blockInfos).mapM (computeEdges startIndex endIndex) = .ok computes ∧
      graph = (spansAt blockInfos startIndex).map (fun span =>
          (GraphNode.client, GraphNode.server span.peerId startIndex,
            delayTo span cacheTokensNeeded (clientServerRtts.lookup span.peerId)))
        ++ (spansAt blockInfos (endIndex - 1)).map (fun span =>
          (GraphNode.server span.peerId endIndex, GraphNode.done,
            rttToDelay (clientServerRtts.lookup span.peerId)))
        ++ (List.range' (startIndex + 1) (endIndex - (startIndex + 1))).flatMap
          (fun blockIdx => switchEdges blockInfos blockIdx cacheTokensNeeded)
        ++ computes.flatten := by
  unfold buildInferenceGraph at h
  simp only at h
  split at h
  · nomatch h
  · rename_i hmissing
    cases hcomputes : (spansByPriority blockInfos).mapM (computeEdges startIndex endIndex) with
    | error exc =>
      rw [hcomputes] at h
      nomatch h
    | ok computes =>
      rw [hcomputes] at h
      refine ⟨?_, computes, rfl, (Except.ok.inj h).symm⟩
      intro b hlo hhi
      exact List.isEmpty_eq_false_iff.mp (filter_range'_eq_nil.mp (not_not.mp hmissing) b hlo hhi)

/-- **The edges of the graph**, whatever the delays. -/
theorem hasEdge_buildInferenceGraph
    (h : buildInferenceGraph blockInfos clientServerRtts startIndex endIndex cacheTokensNeeded
      = .ok graph) {node node' : GraphNode} :
    HasEdge graph node node' ↔
      (∃ span ∈ spansAt blockInfos startIndex,
        node = .client ∧ node' = .server span.peerId startIndex) ∨
      (∃ span ∈ spansAt blockInfos (endIndex - 1),
        node = .server span.peerId endIndex ∧ node' = .done) ∨
      ∃ place place' : RouteNode, node = .server place.1 place.2 ∧
        node' = .server place'.1 place'.2 ∧
        GraphEdge (routingSpans blockInfos) startIndex endIndex place place' := by
  obtain ⟨-, computes, hcomputes, rfl⟩ := buildInferenceGraph_eq h
  rw [hasEdge_append, hasEdge_append, hasEdge_append, hasEdge_iff, hasEdge_iff, hasEdge_iff,
    hasEdge_iff]
  constructor
  · rintro (((⟨delay, hmem⟩ | ⟨delay, hmem⟩) | ⟨delay, hmem⟩) | ⟨delay, hmem⟩)
    · obtain ⟨span, hspan, hedge⟩ := List.mem_map.mp hmem
      obtain ⟨rfl, hrest⟩ := Prod.mk.inj hedge
      obtain ⟨rfl, -⟩ := Prod.mk.inj hrest
      exact Or.inl ⟨span, hspan, rfl, rfl⟩
    · obtain ⟨span, hspan, hedge⟩ := List.mem_map.mp hmem
      obtain ⟨rfl, hrest⟩ := Prod.mk.inj hedge
      obtain ⟨rfl, -⟩ := Prod.mk.inj hrest
      exact Or.inr (Or.inl ⟨span, hspan, rfl, rfl⟩)
    · obtain ⟨blockIdx, hblock, hmem⟩ := List.mem_flatMap.mp hmem
      obtain ⟨hlo, hhi⟩ := List.mem_range'_1.mp hblock
      obtain ⟨curSpan, hcur, hstop, nextSpan, hnext, rfl, rfl⟩ :=
        hasEdge_switchEdges.mp (hasEdge_iff.mpr ⟨delay, hmem⟩)
      have hstop' : (toRoute curSpan).stop = blockIdx := by
        show curSpan.stop.toNat = blockIdx
        omega
      exact Or.inr (Or.inr ⟨(curSpan.peerId, blockIdx), (nextSpan.peerId, blockIdx), rfl, rfl,
        GraphEdge.switch (by omega) (by omega) (toRoute_mem hcur) hstop' (toRoute_mem hnext)⟩)
    · obtain ⟨edges, hedges, hmem⟩ := List.mem_flatten.mp hmem
      obtain ⟨span, hspan, hcompute⟩ := (mem_of_mapM hcomputes).mp hedges
      obtain ⟨b, hstart, hend, hlo, hhi, rfl, rfl⟩ :=
        (hasEdge_computeEdges hcompute).mp (hasEdge_iff.mpr ⟨delay, hmem⟩)
      exact Or.inr (Or.inr ⟨(span.peerId, b), (span.peerId, b + 1), rfl, rfl,
        GraphEdge.compute hstart hend (toRoute_mem (mem_spansAt.mpr ⟨hspan, hlo, hhi⟩))⟩)
  · rintro (⟨span, hspan, rfl, rfl⟩ | ⟨span, hspan, rfl, rfl⟩ |
      ⟨place, place', rfl, rfl, hedge⟩)
    · exact Or.inl (Or.inl (Or.inl ⟨_, List.mem_map.mpr ⟨span, hspan, rfl⟩⟩))
    · exact Or.inl (Or.inl (Or.inr ⟨_, List.mem_map.mpr ⟨span, hspan, rfl⟩⟩))
    · cases hedge with
      | @switch curSpan nextSpan blockIdx hstart hend hcur hstop hnext =>
        obtain ⟨cur, hcurHost, rfl⟩ := mem_routingSpans.mp hcur
        obtain ⟨next, hnextHost, rfl⟩ := mem_routingSpans.mp hnext
        have hstop' : cur.stop = (blockIdx : Int) := by
          have hstop : cur.stop.toNat = blockIdx := hstop
          omega
        have hswitch : HasEdge (switchEdges blockInfos blockIdx cacheTokensNeeded)
            (.server cur.peerId blockIdx) (.server next.peerId blockIdx) :=
          hasEdge_switchEdges.mpr ⟨cur, hcurHost, hstop', next, hnextHost, rfl, rfl⟩
        obtain ⟨delay, hmem⟩ := hasEdge_iff.mp hswitch
        exact Or.inl (Or.inr ⟨delay, List.mem_flatMap.mpr
          ⟨blockIdx, List.mem_range'_1.mpr ⟨by omega, by omega⟩, hmem⟩⟩)
      | @compute span blockIdx hstart hend hspan =>
        obtain ⟨host, hhost, rfl⟩ := mem_routingSpans.mp hspan
        obtain ⟨hmem, hlo, hhi⟩ := mem_spansAt.mp hhost
        obtain ⟨edges, hedges⟩ := ok_of_mapM hcomputes hmem
        obtain ⟨delay, hedge⟩ := hasEdge_iff.mp ((hasEdge_computeEdges hedges).mpr
          ⟨blockIdx, hstart, hend, hlo, hhi, rfl, rfl⟩)
        exact Or.inr ⟨delay, List.mem_flatten.mpr
          ⟨edges, (mem_of_mapM hcomputes).mpr ⟨host, hmem, hedges⟩, hedge⟩⟩

/-- The graph is built, unless a block is missing. -/
theorem exists_buildInferenceGraph (hrps : PositiveRpsWithin blockInfos startIndex endIndex)
    (hheld : ∀ b, startIndex ≤ b → b < endIndex → spansAt blockInfos b ≠ []) :
    ∃ graph, buildInferenceGraph blockInfos clientServerRtts startIndex endIndex cacheTokensNeeded
      = .ok graph := by
  have hmissing : (List.range' startIndex (endIndex - startIndex)).filter
      (fun blockIdx => (spansAt blockInfos blockIdx).isEmpty) = [] :=
    filter_range'_eq_nil.mpr fun b hlo hhi => List.isEmpty_eq_false_iff.mpr (hheld b hlo hhi)
  obtain ⟨computes, hcomputes⟩ : ∃ computes,
      (spansByPriority blockInfos).mapM (computeEdges startIndex endIndex) = .ok computes := by
    exact exists_mapM_ok fun span hspan => computeEdges_ok hrps hspan
  simp only [buildInferenceGraph, hmissing, ne_eq, not_true_eq_false, if_false, hcomputes]
  exact ⟨_, rfl⟩

/-! ## The paths -/

/-- A node of a server. -/
def toNode (place : RouteNode) : GraphNode := .server place.1 place.2

theorem toNode_inj {place place' : RouteNode} (h : toNode place = toNode place') :
    place = place' := by
  obtain ⟨hpeer, hblock⟩ := GraphNode.server.inj h
  exact Prod.ext hpeer hblock

/-- Behind a server a path goes on with servers, up to the other end. -/
theorem chain_of_server
    (h : buildInferenceGraph blockInfos clientServerRtts startIndex endIndex cacheTokensNeeded
      = .ok graph) : ∀ {nodes : List GraphNode} (place : RouteNode),
    (toNode place :: nodes).IsChain (HasEdge graph) →
    (toNode place :: nodes).getLast? = some .done →
    ∃ route : List RouteNode, nodes = route.map toNode ++ [.done] ∧
      (place :: route).IsChain (GraphEdge (routingSpans blockInfos) startIndex endIndex) ∧
      ∃ peer, (place :: route).getLast? = some (peer, endIndex)
  | [], place, _, hlast => by
    nomatch Option.some.inj hlast
  | node :: nodes, place, hchain, hlast => by
    obtain ⟨hedge, hchain⟩ := List.isChain_cons_cons.mp hchain
    rw [List.getLast?_cons_cons] at hlast
    rcases (hasEdge_buildInferenceGraph h).mp hedge with ⟨_, _, hnode, _⟩ |
      ⟨span, _, hplace, rfl⟩ | ⟨place', next, hplace, rfl, hgraphEdge⟩
    · nomatch hnode
    · -- nothing comes behind the end
      have hend : place = (span.peerId, endIndex) := toNode_inj hplace
      cases nodes with
      | nil => exact ⟨[], rfl, List.IsChain.singleton _, span.peerId, congrArg some hend⟩
      | cons node nodes =>
        rcases (hasEdge_buildInferenceGraph h).mp (List.isChain_cons_cons.mp hchain).1 with
          ⟨_, _, hdone, _⟩ | ⟨_, _, hdone, _⟩ | ⟨_, _, hdone, _⟩ <;> nomatch hdone
    · obtain rfl : place = place' := toNode_inj hplace
      obtain ⟨route, rfl, hroute, peer, hpeer⟩ := chain_of_server h next hchain hlast
      exact ⟨next :: route, rfl, List.isChain_cons_cons.mpr ⟨hgraphEdge, hroute⟩, peer, hpeer⟩

/-- The path begins with computing the first block. -/
theorem IsPath.first_held {table : List (List RemoteSpanInfo)} {nodes : List RouteNode}
    {peer : Nat} (hlt : startIndex < endIndex) (h : IsPath table startIndex endIndex nodes)
    (hhead : nodes.head? = some (peer, startIndex)) :
    ∃ span ∈ table.getD startIndex [], span.peerId = peer := by
  obtain ⟨-, ⟨last, hlast⟩, hedges⟩ := h
  obtain ⟨rest, rfl⟩ := List.head?_eq_some_iff.mp hhead
  cases rest with
  | nil =>
    have heq : startIndex = endIndex := congrArg Prod.snd (Option.some.inj hlast)
    omega
  | cons next rest =>
    cases (List.isChain_cons_cons.mp hedges).1 with
    | @compute span _ _ _ hspan => exact ⟨span, hspan, rfl⟩
    | switch hstart => exact absurd hstart (Nat.lt_irrefl _)

/-- The path ends with computing the last block. -/
theorem IsPath.last_held {table : List (List RemoteSpanInfo)} {nodes : List RouteNode}
    {peer : Nat} (hlt : startIndex < endIndex) (h : IsPath table startIndex endIndex nodes)
    (hlast : nodes.getLast? = some (peer, endIndex)) :
    ∃ span ∈ table.getD (endIndex - 1) [], span.peerId = peer := by
  obtain ⟨⟨first, hhead⟩, -, hedges⟩ := h
  obtain ⟨init, rfl⟩ := List.getLast?_eq_some_iff.mp hlast
  rcases List.eq_nil_or_concat' init with rfl | ⟨init, previous, rfl⟩
  · have heq : endIndex = startIndex := congrArg Prod.snd (Option.some.inj hhead)
    omega
  · rw [List.append_assoc] at hedges
    have hedge := (List.isChain_append_cons_cons.mp hedges).2.1
    generalize hnode : (peer, endIndex) = node at hedge
    cases hedge with
    | @compute span blockIdx _ _ hspan =>
      obtain ⟨rfl, rfl⟩ := Prod.mk.inj hnode
      exact ⟨span, hspan, rfl⟩
    | switch _ hend =>
      obtain ⟨-, rfl⟩ := Prod.mk.inj hnode
      exact absurd hend (Nat.lt_irrefl _)

/-- **The paths of the graph** are the paths between the servers, with the ends put back. -/
theorem isWalk_iff
    (h : buildInferenceGraph blockInfos clientServerRtts startIndex endIndex cacheTokensNeeded
      = .ok graph) (hlt : startIndex < endIndex) {nodes : List GraphNode} :
    IsWalk graph nodes ↔ ∃ route, nodes = .client :: route.map toNode ++ [.done] ∧
      IsPath (routingSpans blockInfos) startIndex endIndex route := by
  constructor
  · rintro ⟨hhead, hlast, hedges⟩
    obtain ⟨rest, rfl⟩ := List.head?_eq_some_iff.mp hhead
    cases rest with
    | nil => nomatch Option.some.inj hlast
    | cons node rest =>
      obtain ⟨hedge, hedges⟩ := List.isChain_cons_cons.mp hedges
      rw [List.getLast?_cons_cons] at hlast
      rcases (hasEdge_buildInferenceGraph h).mp hedge with ⟨span, _, _, rfl⟩ |
        ⟨_, _, hclient, _⟩ | ⟨_, _, hclient, _⟩
      · obtain ⟨route, rfl, hroute, hend⟩ :=
          chain_of_server h (span.peerId, startIndex) hedges hlast
        exact ⟨(span.peerId, startIndex) :: route, rfl, ⟨span.peerId, rfl⟩, hend, hroute⟩
      · nomatch hclient
      · nomatch hclient
  · rintro ⟨route, rfl, hroute⟩
    obtain ⟨first, hfirst⟩ := hroute.head
    obtain ⟨last, hlast⟩ := hroute.last
    refine ⟨rfl, List.getLast?_concat, ?_⟩
    have hmiddle : (route.map toNode).IsChain (HasEdge graph) :=
      List.isChain_map_of_isChain toNode (fun place place' hedge =>
        (hasEdge_buildInferenceGraph h).mpr (Or.inr (Or.inr ⟨place, place', rfl, rfl, hedge⟩)))
        hroute.edges
    refine List.IsChain.append (List.isChain_cons.mpr ⟨?_, hmiddle⟩) (List.IsChain.singleton _) ?_
    · -- to the first server
      rw [List.head?_map, hfirst]
      rintro node hnode
      obtain rfl := Option.some.inj hnode
      obtain ⟨span, hspan, rfl⟩ := hroute.first_held hlt hfirst
      obtain ⟨host, hhost, rfl⟩ := mem_routingSpans.mp hspan
      exact (hasEdge_buildInferenceGraph h).mpr (Or.inl ⟨host, hhost, rfl, rfl⟩)
    · -- from the last server
      intro node hnode node' hnode'
      obtain rfl := Option.some.inj hnode'
      have hnode : some (toNode (last, endIndex)) = some node := by
        rw [List.getLast?_cons, List.getLast?_map, hlast] at hnode
        exact hnode
      obtain rfl := Option.some.inj hnode
      obtain ⟨span, hspan, rfl⟩ := hroute.last_held hlt hlast
      obtain ⟨host, hhost, rfl⟩ := mem_routingSpans.mp hspan
      exact (hasEdge_buildInferenceGraph h).mpr (Or.inr (Or.inl ⟨host, hhost, rfl, rfl⟩))

end Graph

/-- `path.nodes[1:-1]` is the path between the servers. -/
theorem innerNodes_toNode (route : List RouteNode) :
    innerNodes (.client :: route.map toNode ++ [.done]) = .ok route := by
  rw [innerNodes, List.cons_append, List.tail_cons, List.dropLast_concat]
  induction route with
  | nil => rfl
  | cons place route ih =>
    rw [List.map_cons, List.mapM_cons, ih]
    exact rfl

/-! ## A path finder -/

/-- A search in place of `dijkstar.find_path`, which finds a path of few nodes. -/
def searchGraph (graph : InferenceGraph) : Except PyExc (List GraphNode) :=
  match searchPath (graph.map fun edge => (edge.1, edge.2.1)) .client .done with
  | some nodes => .ok nodes
  | none => .error (.exception "Could not find a path from start to end")

/-- It does what is relied on. -/
theorem searchGraph_finds (graph : InferenceGraph) : FindsPath graph (searchGraph graph) := by
  unfold searchGraph
  cases hsearch : searchPath (graph.map fun edge => (edge.1, edge.2.1)) .client .done with
  | some nodes =>
    obtain ⟨hhead, hlast, hchain⟩ := isPathOf_of_searchPath hsearch
    refine ⟨fun nodes' hfound => ?_, fun exc herror => (nomatch herror)⟩
    obtain rfl := Except.ok.inj hfound
    exact ⟨hhead, hlast, hchain⟩
  | none =>
    refine ⟨fun nodes hfound => (nomatch hfound), fun _ _ nodes hwalk => ?_⟩
    exact not_isPathOf_of_searchPath hsearch nodes ⟨hwalk.head, hwalk.last, hwalk.edges⟩

end Drift
