/-
  `RemoteSequenceManager._make_sequence_with_min_latency` of `client/routing/sequence_manager.py`:
  the route of an inference session.

  The servers are the nodes of a graph, one for each block they hold, and `dijkstar.find_path` looks
  for a path.  Which path it finds depends on the delays, which do not appear here: `findPath` is
  what it returned, without the two ends, or raised, and what is relied on is that a path follows
  the edges of the graph (`IsPath`).  The nodes of one server in a row become a span; spans may come
  out empty, where the path leaves a server at once, and these are dropped.

  What remains tiles the blocks asked for (`makeSequenceMinLatency_tiles`).
-/
import Drift.Client.Routing

namespace Drift

/-- A node of the inference graph: a peer in front of a block. -/
abbrev RouteNode := Nat × Nat

/-- The body of the loop over `path.nodes[1:-1]`. -/
def appendNode (spanSequence : List RemoteSpanInfo) (node : RouteNode) : List RemoteSpanInfo :=
  match spanSequence.getLast? with
  | none => [⟨node.1, node.2, node.2⟩]
  | some last =>
    if last.peerId = node.1 then spanSequence.dropLast ++ [{ last with stop := node.2 }]
    else spanSequence ++ [⟨node.1, node.2, node.2⟩]

/-- `make_sequence(start_index, end_index, mode="min_latency")`. -/
def makeSequenceMinLatency (spansContainingBlock : List (List RemoteSpanInfo))
    (findPath : Except PyExc (List RouteNode)) (startIndex endIndex : Nat) :
    Except PyExc (List RemoteSpanInfo) :=
  if startIndex = endIndex then .ok []
  else
    let missingBlocks := (List.range' startIndex (endIndex - startIndex)).filter fun blockIdx =>
      (spansContainingBlock.getD blockIdx []).isEmpty
    if missingBlocks ≠ [] then .error (.missingBlocks missingBlocks)
    else findPath.map fun nodes =>
      (nodes.foldl appendNode []).filter fun span => span.start < span.stop

/-- The edges between servers: a server computes a block that it holds, and behind its last block
    the path may go on with another one. -/
inductive GraphEdge (spansContainingBlock : List (List RemoteSpanInfo)) (startIndex endIndex : Nat) :
    RouteNode → RouteNode → Prop
  | compute {span : RemoteSpanInfo} {blockIdx : Nat} : startIndex ≤ blockIdx →
      blockIdx < endIndex → span ∈ spansContainingBlock.getD blockIdx [] →
      GraphEdge spansContainingBlock startIndex endIndex (span.peerId, blockIdx)
        (span.peerId, blockIdx + 1)
  | switch {curSpan nextSpan : RemoteSpanInfo} {blockIdx : Nat} : startIndex < blockIdx →
      blockIdx < endIndex → curSpan ∈ spansContainingBlock.getD (blockIdx - 1) [] →
      curSpan.stop = blockIdx → nextSpan ∈ spansContainingBlock.getD blockIdx [] →
      GraphEdge spansContainingBlock startIndex endIndex (curSpan.peerId, blockIdx)
        (nextSpan.peerId, blockIdx)

/-- A path from `"start"` to `"end"`: it begins in front of the first block, ends behind the last
    one and follows the edges. -/
structure IsPath (spansContainingBlock : List (List RemoteSpanInfo)) (startIndex endIndex : Nat)
    (nodes : List RouteNode) : Prop where
  head : ∃ peer, nodes.head? = some (peer, startIndex)
  last : ∃ peer, nodes.getLast? = some (peer, endIndex)
  edges : nodes.IsChain (GraphEdge spansContainingBlock startIndex endIndex)

/-! ## A path becomes a tiling -/

/-- The spans follow each other; some may be empty. -/
def Abut : Nat → List RemoteSpanInfo → Nat → Prop
  | lo, [], hi => lo = hi
  | lo, span :: spans, hi => span.start = lo ∧ span.start ≤ span.stop ∧ Abut span.stop spans hi

theorem abut_concat {span : RemoteSpanInfo} : ∀ {spans : List RemoteSpanInfo} {lo hi : Nat},
    Abut lo (spans ++ [span]) hi ↔
      Abut lo spans span.start ∧ span.start ≤ span.stop ∧ span.stop = hi
  | [], lo, hi => by
    constructor
    · rintro ⟨hstart, hle, hhi⟩
      exact ⟨hstart.symm, hle, hhi⟩
    · rintro ⟨hlo, hle, hhi⟩
      exact ⟨hlo.symm, hle, hhi⟩
  | first :: spans, lo, hi => by
    constructor
    · rintro ⟨hstart, hle, hrest⟩
      obtain ⟨hspans, hspan⟩ := abut_concat.mp hrest
      exact ⟨⟨hstart, hle, hspans⟩, hspan⟩
    · rintro ⟨⟨hstart, hle, hspans⟩, hspan⟩
      exact ⟨hstart, hle, abut_concat.mpr ⟨hspans, hspan⟩⟩

/-- Without the empty spans they tile. -/
theorem tiles_filter_of_abut : ∀ {spans : List RemoteSpanInfo} {lo hi : Nat}, Abut lo spans hi →
    Tiles lo (spans.filter fun span => span.start < span.stop) hi
  | [], _, _, h => h
  | span :: spans, lo, hi, h => by
    obtain ⟨rfl, hle, hrest⟩ := h
    have htiles := tiles_filter_of_abut hrest
    rw [List.filter_cons]
    by_cases hlt : span.start < span.stop
    · rw [if_pos (decide_eq_true hlt)]
      exact ⟨rfl, hlt, htiles⟩
    · rw [if_neg (by simpa using hlt)]
      have heq : span.start = span.stop := by omega
      rw [heq]
      exact htiles

/-- The spans of a path that has come to a node. -/
def ReachesNode (startIndex : Nat) (spans : List RemoteSpanInfo) (node : RouteNode) : Prop :=
  ∃ init last, spans = init ++ [last] ∧ last.peerId = node.1 ∧ Abut startIndex spans node.2

theorem appendNode_reaches {spansContainingBlock : List (List RemoteSpanInfo)}
    {startIndex endIndex : Nat} {spans : List RemoteSpanInfo} {node node' : RouteNode}
    (h : ReachesNode startIndex spans node)
    (hedge : GraphEdge spansContainingBlock startIndex endIndex node node') :
    ReachesNode startIndex (appendNode spans node') node' := by
  obtain ⟨init, last, rfl, hpeer, habut⟩ := h
  have hle : node.2 ≤ node'.2 := by
    cases hedge with
    | compute => exact Nat.le_succ _
    | switch => exact Nat.le_refl _
  obtain ⟨hinit, hlast, hstop⟩ := abut_concat.mp habut
  rw [appendNode, List.getLast?_concat]
  simp only
  by_cases hsame : last.peerId = node'.1
  · have hgrown : last.start ≤ node'.2 := by omega
    rw [if_pos hsame, List.dropLast_concat]
    exact ⟨init, _, rfl, hsame, abut_concat.mpr ⟨hinit, hgrown, rfl⟩⟩
  · rw [if_neg hsame]
    -- another server: the path has not moved
    have heq : node.2 = node'.2 := by
      cases hedge with
      | compute => exact absurd hpeer hsame
      | switch => rfl
    refine ⟨init ++ [last], _, rfl, rfl, abut_concat.mpr ⟨?_, Nat.le_refl _, rfl⟩⟩
    rw [← heq]
    exact habut

theorem foldl_appendNode_reaches {spansContainingBlock : List (List RemoteSpanInfo)}
    {startIndex endIndex : Nat} : ∀ (nodes : List RouteNode) {spans : List RemoteSpanInfo}
      {node last : RouteNode}, ReachesNode startIndex spans node →
      (node :: nodes).IsChain (GraphEdge spansContainingBlock startIndex endIndex) →
      (node :: nodes).getLast? = some last →
      ReachesNode startIndex (nodes.foldl appendNode spans) last
  | [], spans, node, last, h, _, hlast => by
    obtain rfl := Option.some.inj hlast
    exact h
  | next :: nodes, spans, node, last, h, hchain, hlast => by
    obtain ⟨hedge, hchain⟩ := List.isChain_cons_cons.mp hchain
    rw [List.getLast?_cons_cons] at hlast
    exact foldl_appendNode_reaches nodes (appendNode_reaches h hedge) hchain hlast

/-- **A route of the router tiles** the blocks asked for. -/
theorem makeSequenceMinLatency_tiles {spansContainingBlock : List (List RemoteSpanInfo)}
    {findPath : Except PyExc (List RouteNode)} {startIndex endIndex : Nat}
    {spans : List RemoteSpanInfo}
    (hpath : ∀ nodes, findPath = .ok nodes →
      IsPath spansContainingBlock startIndex endIndex nodes)
    (h : makeSequenceMinLatency spansContainingBlock findPath startIndex endIndex = .ok spans) :
    Tiles startIndex spans endIndex := by
  unfold makeSequenceMinLatency at h
  split at h
  · rename_i heq
    obtain rfl := Except.ok.inj h
    exact heq
  · simp only at h
    split at h
    · nomatch h
    · cases hfind : findPath with
      | error exc =>
        rw [hfind] at h
        nomatch h
      | ok nodes =>
        rw [hfind] at h
        obtain rfl := Except.ok.inj h
        obtain ⟨⟨first, hfirst⟩, ⟨last, hlast⟩, hedges⟩ := hpath nodes hfind
        cases nodes with
        | nil => nomatch hfirst
        | cons node nodes =>
          obtain rfl := Option.some.inj hfirst
          have hreaches : ReachesNode startIndex (appendNode [] (first, startIndex))
              (first, startIndex) := ⟨[], _, rfl, rfl, rfl, Nat.le_refl _, rfl⟩
          obtain ⟨init, final, heq, -, habut⟩ :=
            foldl_appendNode_reaches nodes hreaches hedges hlast
          exact tiles_filter_of_abut habut

end Drift
