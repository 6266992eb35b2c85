/-
  What routing does with the announcements of untrusted peers: `make_sequence` with every operation
  that may raise written out, from `_sort_spans` on.

  In `Client/Routes` the table has no bounds, the draw always succeeds and a path comes without its
  cost.  Here an index behind the table is an `IndexError`, `np.random.choice` is only relied on if
  the weights are probabilities, the dict of server infos is looked up, and the expected speed is
  the inverse of the cost.  None of this raises for records that pass validation, with one
  exception: an announced `inference_rps` of zero is valid, and the graph divides by it
  (`makeSequenceChecked_safe_iff`).
-/
import Drift.Client.Routes
import Mathlib.Algebra.BigOperators.Ring.List
import Mathlib.Algebra.Order.BigOperators.Group.List
import Mathlib.Tactic.Linarith
import Mathlib.Tactic.NormNum

namespace Drift

/-! ## The table -/

/-- The inner loop of `_sort_spans`. -/
def appendSpanChecked (table : List (List (Dht.RemoteSpanInfo Nat)))
    (span : Dht.RemoteSpanInfo Nat) : Except PyExc (List (List (Dht.RemoteSpanInfo Nat))) :=
  (pyRange span.start span.stop).foldlM (fun table (blockIndex : Int) =>
    if blockIndex < table.length then .ok (table.modify blockIndex.toNat (· ++ [span]))
    else .error .indexError) table

/-- `_sort_spans`: `spans_containing_block`. -/
def sortSpans (blockInfos : List (Dht.RemoteModuleInfo Nat)) :
    Except PyExc (List (List (Dht.RemoteSpanInfo Nat))) :=
  (spansByPriority blockInfos).foldlM appendSpanChecked (List.replicate blockInfos.length [])

/-! ## `max_throughput` -/

/-- What is relied on of `np.random.choice`: with a probability for each candidate it returns a
    candidate. -/
def DrawsCandidate {β : Type} (randomChoice : List β → List ℚ → Except PyExc β) : Prop :=
  ∀ candidates p, candidates ≠ [] → p.length = candidates.length → (∀ q ∈ p, 0 ≤ q) → p.sum = 1 →
    ∃ chosen ∈ candidates, randomChoice candidates p = .ok chosen

/-- The weight of a span: its length, or `eps` for a server known to be unreachable. -/
def spanWeight (clientServerRtts : AList fun _ : Nat => Dht.Rtt) (span : Dht.RemoteSpanInfo Nat) :
    ℚ :=
  if clientServerRtts.lookup span.peerId = some ⊤ then 1 / 1000000 else span.length

/-- `np.random.choice(candidate_spans, p=…)` at each block. -/
abbrev SpanChoice :=
  Nat → List (Dht.RemoteSpanInfo Nat) → List ℚ → Except PyExc (Dht.RemoteSpanInfo Nat)

/-- The loop of `_make_sequence_with_max_throughput`. -/
def maxThroughputLoop (spansContainingBlock : List (List (Dht.RemoteSpanInfo Nat)))
    (clientServerRtts : AList fun _ : Nat => Dht.Rtt) (choice : SpanChoice) (endIndex : Nat) :
    Nat → Nat → Except PyExc (List (Dht.RemoteSpanInfo Nat))
  | 0, _ => .ok []
  | fuel + 1, currentIndex =>
    if currentIndex < endIndex then do
      let candidateSpans ← orRaise .indexError spansContainingBlock[currentIndex]?
      if candidateSpans = [] then .error (.missingBlocks [currentIndex])
      else do
        let spanWeights := candidateSpans.map (spanWeight clientServerRtts)
        let chosenSpan ← choice currentIndex candidateSpans
          (spanWeights.map (· / spanWeights.sum))
        if chosenSpan.start ≤ currentIndex ∧ (currentIndex : Int) < chosenSpan.stop then do
          let rest ← maxThroughputLoop spansContainingBlock clientServerRtts choice endIndex fuel
            chosenSpan.stop.toNat
          .ok ({ chosenSpan with start := currentIndex } :: rest)
        else .error (.assertionError "")
    else .ok []

/-! ## `min_latency` -/

/-- The delay of an edge: the one that was added last. -/
def edgeDelay (graph : InferenceGraph) (node node' : GraphNode) : ℚ :=
  (((graph.filter fun edge => edge.1 = node ∧ edge.2.1 = node').getLast?).map (·.2.2)).getD 0

/-- The cost of a path. -/
def walkCost (graph : InferenceGraph) : List GraphNode → ℚ
  | node :: node' :: nodes => edgeDelay graph node node' + walkCost graph (node' :: nodes)
  | _ => 0

/-- What is relied on of `dijkstar.find_path`: it returns the nodes of a path with its cost, and
    raises only when there is none. -/
structure FindsCostedPath (graph : InferenceGraph)
    (found : Except PyExc (List GraphNode × ℚ)) : Prop where
  isWalk : ∀ path, found = .ok path → IsWalk graph path.1
  cost : ∀ path, found = .ok path → path.2 = walkCost graph path.1
  noWalk : ∀ exc, found = .error exc → ∀ nodes, ¬ IsWalk graph nodes

/-- The body of the loop over `path.nodes[1:-1]`. -/
def appendNodeChecked (serverInfos : AList fun _ : Nat => Dht.ServerInfo Nat)
    (spanSequence : List (Dht.RemoteSpanInfo Nat)) (node : RouteNode) :
    Except PyExc (List (Dht.RemoteSpanInfo Nat)) :=
  let newSpan := (orRaise .keyError (serverInfos.lookup node.1)).map fun serverInfo =>
    spanSequence ++ [⟨node.1, node.2, node.2, serverInfo⟩]
  match spanSequence.getLast? with
  | none => newSpan
  | some last =>
    if last.peerId = node.1 then .ok (spanSequence.dropLast ++ [{ last with stop := node.2 }])
    else newSpan

/-- `{span.peer_id: span.server_info for … }`. -/
def collectServerInfos (spans : List (Dht.RemoteSpanInfo Nat)) :
    AList fun _ : Nat => Dht.ServerInfo Nat :=
  spans.foldl (fun serverInfos span => serverInfos.insert span.peerId span.serverInfo) ∅

/-- `_make_sequence_with_min_latency`. -/
def minLatencyChecked (blockInfos : List (Dht.RemoteModuleInfo Nat))
    (spansContainingBlock : List (List (Dht.RemoteSpanInfo Nat)))
    (clientServerRtts : AList fun _ : Nat => Dht.Rtt)
    (findPath : InferenceGraph → Except PyExc (List GraphNode × ℚ))
    (cacheTokensNeeded : Option Nat) (startIndex endIndex : Nat) :
    Except PyExc (List (Dht.RemoteSpanInfo Nat)) :=
  if startIndex = endIndex then .ok []
  else do
    let held ← (List.range' startIndex (endIndex - startIndex)).mapM fun blockIdx =>
      (orRaise .indexError spansContainingBlock[blockIdx]?).map fun spans => (blockIdx, spans)
    let missingBlocks := (held.filter (·.2.isEmpty)).map (·.1)
    if missingBlocks ≠ [] then .error (.missingBlocks missingBlocks)
    else do
      let serverInfos := collectServerInfos (held.flatMap (·.2))
      let graph ← buildInferenceGraph blockInfos clientServerRtts startIndex endIndex
        cacheTokensNeeded
      let (nodes, totalCost) ← findPath graph
      -- the expected speed, for the log
      if startIndex = 0 ∧ endIndex = blockInfos.length ∧ totalCost = 0 then
        .error .zeroDivisionError
      else do
        let nodes ← innerNodes nodes
        let spanSequence ← nodes.foldlM (appendNodeChecked serverInfos) []
        .ok (spanSequence.filter fun span => 0 < span.length)

/-- `make_sequence`, from the block infos on. -/
def makeSequenceChecked (blockInfos : List (Dht.RemoteModuleInfo Nat))
    (clientServerRtts : AList fun _ : Nat => Dht.Rtt)
    (findPath : InferenceGraph → Except PyExc (List GraphNode × ℚ)) (choice : SpanChoice)
    (cacheTokensNeeded : Option Nat) (startIndex endIndex : Nat) (mode : RoutingMode) :
    Except PyExc (List (Dht.RemoteSpanInfo Nat)) := do
  let spansContainingBlock ← sortSpans blockInfos
  match mode with
  | .minLatency =>
    minLatencyChecked blockInfos spansContainingBlock clientServerRtts findPath cacheTokensNeeded
      startIndex endIndex
  | .maxThroughput =>
    maxThroughputLoop spansContainingBlock clientServerRtts choice endIndex (endIndex - startIndex)
      startIndex

/-- A call that returned a route or raised `MissingBlocksError`. -/
def RoutedSafely (blockInfos : List (Dht.RemoteModuleInfo Nat)) (startIndex endIndex : Nat)
    (result : Except PyExc (List (Dht.RemoteSpanInfo Nat))) : Prop :=
  (∃ spans stop, result = .ok spans ∧ endIndex ≤ stop ∧
    IsRoute blockInfos startIndex stop (spans.map toRoute)) ∨
  ∃ blocks, result = .error (.missingBlocks blocks)

theorem not_routedSafely_indexError {blockInfos : List (Dht.RemoteModuleInfo Nat)}
    {startIndex endIndex : Nat} :
    ¬ RoutedSafely blockInfos startIndex endIndex (.error .indexError) := by
  rintro (⟨_, _, hok, -⟩ | ⟨_, hraised⟩)
  · nomatch hok
  · nomatch hraised

/-! ## The table is in bounds -/

theorem foldlM_appendSpan {span : Dht.RemoteSpanInfo Nat} : ∀ (indices : List Int)
    (table : List (List (Dht.RemoteSpanInfo Nat))), (∀ i ∈ indices, i < table.length) →
    indices.foldlM (fun table (blockIndex : Int) =>
        if blockIndex < table.length then .ok (table.modify blockIndex.toNat (· ++ [span]))
        else (.error .indexError : Except PyExc _)) table
      = .ok (indices.foldl (fun table i => table.modify i.toNat (· ++ [span])) table)
  | [], _, _ => rfl
  | i :: indices, table, h => by
    rw [List.foldlM_cons, if_pos (h i List.mem_cons_self)]
    refine foldlM_appendSpan indices _ fun j hj => ?_
    rw [List.length_modify]
    exact h j (List.mem_cons_of_mem _ hj)

theorem foldlM_appendSpanChecked : ∀ (spans : List (Dht.RemoteSpanInfo Nat))
    (table : List (List (Dht.RemoteSpanInfo Nat))),
    (∀ span ∈ spans, span.stop ≤ table.length) →
    spans.foldlM appendSpanChecked table = .ok (spans.foldl appendSpan table)
  | [], _, _ => rfl
  | span :: spans, table, h => by
    have hspan : appendSpanChecked table span = .ok (appendSpan table span) := by
      refine foldlM_appendSpan _ table fun i hi => ?_
      have hstop := h span List.mem_cons_self
      have hlt := (mem_pyRange.mp hi).2
      omega
    rw [List.foldlM_cons, hspan]
    refine foldlM_appendSpanChecked spans _ fun span' hspan' => ?_
    rw [length_appendSpan]
    exact h span' (List.mem_cons_of_mem _ hspan')

/-- **`_sort_spans` does not raise**, whatever ranges the servers announce. -/
theorem sortSpans_eq (blockInfos : List (Dht.RemoteModuleInfo Nat)) :
    sortSpans blockInfos = .ok (spansContainingBlock blockInfos) := by
  refine foldlM_appendSpanChecked _ _ fun span hspan => ?_
  rw [List.length_replicate]
  exact (Dht.lookup_computeSpans_bounds (mem_spansByPriority.mp hspan)).2

/-! ## The draw is valid -/

section Throughput

variable {clientServerRtts : AList fun _ : Nat => Dht.Rtt}

/-- Positive weights are probabilities once they are divided by their sum. -/
theorem DrawsCandidate.of_weights {β : Type} {randomChoice : List β → List ℚ → Except PyExc β}
    (hdraws : DrawsCandidate randomChoice) {candidates : List β} {weight : β → ℚ}
    (hne : candidates ≠ []) (hpos : ∀ c ∈ candidates, 0 < weight c) :
    ∃ chosen ∈ candidates, randomChoice candidates
      ((candidates.map weight).map (· / (candidates.map weight).sum)) = .ok chosen := by
  have hsum : 0 < (candidates.map weight).sum := by
    refine List.sum_pos _ (fun w hw => ?_) (mt List.map_eq_nil_iff.mp hne)
    obtain ⟨c, hc, rfl⟩ := List.mem_map.mp hw
    exact hpos c hc
  have htotal : ((candidates.map weight).map (· / (candidates.map weight).sum)).sum = 1 := by
    simp only [div_eq_mul_inv, List.sum_map_mul_right, List.map_id']
    exact mul_inv_cancel₀ hsum.ne'
  refine hdraws candidates _ hne (by rw [List.length_map, List.length_map]) (fun q hq => ?_) htotal
  obtain ⟨w, hw, rfl⟩ := List.mem_map.mp hq
  obtain ⟨c, hc, rfl⟩ := List.mem_map.mp hw
  exact div_nonneg (hpos c hc).le hsum.le

/-- A span that holds a block is drawn with a positive weight. -/
theorem spanWeight_pos {span : Dht.RemoteSpanInfo Nat} (h : (span.start : Int) < span.stop) :
    0 < spanWeight clientServerRtts span := by
  rw [spanWeight]
  split
  · norm_num
  · rw [Dht.RemoteSpanInfo.length]
    exact_mod_cast sub_pos.mpr h

/-- What the loop draws at a block is one of the spans there, the one with this index. -/
def Draws (blockInfos : List (Dht.RemoteModuleInfo Nat))
    (clientServerRtts : AList fun _ : Nat => Dht.Rtt) (choice : SpanChoice) (draws : Nat → Nat) :
    Prop :=
  ∀ b candidates, (spansContainingBlock blockInfos)[b]? = some candidates → candidates ≠ [] →
    ∃ chosen ∈ candidates, candidates[draws b % candidates.length]? = some chosen ∧
      choice b candidates ((candidates.map (spanWeight clientServerRtts)).map
        (· / (candidates.map (spanWeight clientServerRtts)).sum)) = .ok chosen

/-- Whatever is chosen among the candidates of each block, some draws make these choices. -/
theorem exists_draws (blockInfos : List (Dht.RemoteModuleInfo Nat)) {choice : SpanChoice}
    (hchoice : ∀ b, DrawsCandidate (choice b)) :
    ∃ draws, Draws blockInfos clientServerRtts choice draws := by
  have hblock : ∀ b, ∃ draw : Nat, ∀ candidates,
      (spansContainingBlock blockInfos)[b]? = some candidates → candidates ≠ [] →
      ∃ chosen ∈ candidates, candidates[draw % candidates.length]? = some chosen ∧
        choice b candidates ((candidates.map (spanWeight clientServerRtts)).map
          (· / (candidates.map (spanWeight clientServerRtts)).sum)) = .ok chosen := by
    intro b
    cases hget : (spansContainingBlock blockInfos)[b]? with
    | none => exact ⟨0, fun _ hsome => nomatch hsome⟩
    | some candidates =>
      by_cases hnil : candidates = []
      · exact ⟨0, fun _ hsome hne => absurd ((Option.some.inj hsome).symm.trans hnil) hne⟩
      have hpos : ∀ c ∈ candidates, 0 < spanWeight clientServerRtts c := by
        intro c hc
        have hmem : c ∈ (spansContainingBlock blockInfos).getD b [] := by
          rw [List.getD_eq_getElem?_getD, hget]
          exact hc
        obtain ⟨-, hlo, hhi⟩ := mem_spansContainingBlock.mp hmem
        exact spanWeight_pos (by omega)
      obtain ⟨chosen, hmem, hdraw⟩ := (hchoice b).of_weights hnil hpos
      obtain ⟨i, hi, hchosen⟩ := List.getElem_of_mem hmem
      refine ⟨i, fun candidates' hsome _ => ?_⟩
      obtain rfl := Option.some.inj hsome
      refine ⟨chosen, hmem, ?_, hdraw⟩
      rw [Nat.mod_eq_of_lt hi, List.getElem?_eq_getElem hi, hchosen]
  choose draws hdraws using hblock
  exact ⟨draws, hdraws⟩

/-- **The loop draws as the loop of `Routing` does.** -/
theorem maxThroughputLoop_eq {blockInfos : List (Dht.RemoteModuleInfo Nat)} {choice : SpanChoice}
    {draws : Nat → Nat} (hdraws : Draws blockInfos clientServerRtts choice draws)
    (endIndex : Nat) : ∀ fuel currentIndex : Nat,
    (maxThroughputLoop (spansContainingBlock blockInfos) clientServerRtts choice endIndex fuel
        currentIndex).map (List.map toRoute)
      = makeSequenceLoop ⟨routingSpans blockInfos, draws⟩ endIndex fuel currentIndex
  | 0, _ => rfl
  | fuel + 1, currentIndex => by
    rw [maxThroughputLoop, makeSequenceLoop]
    split
    · have htable : (routingSpans blockInfos)[currentIndex]?
          = ((spansContainingBlock blockInfos)[currentIndex]?).map (List.map toRoute) := by
        rw [routingSpans, List.getElem?_map]
      simp only [htable]
      cases hget : (spansContainingBlock blockInfos)[currentIndex]? with
      | none => rfl
      | some candidates =>
        by_cases hnil : candidates = []
        · subst hnil
          rfl
        obtain ⟨chosen, hmem, hdraw, hchoice⟩ := hdraws currentIndex candidates hget hnil
        have hcontains : chosen ∈ (spansContainingBlock blockInfos).getD currentIndex [] := by
          rw [List.getD_eq_getElem?_getD, hget]
          exact hmem
        obtain ⟨-, hlo, hhi⟩ := mem_spansContainingBlock.mp hcontains
        have hroute :
            (toRoute chosen).start ≤ currentIndex ∧ currentIndex < (toRoute chosen).stop := by
          refine ⟨hlo, ?_⟩
          show currentIndex < chosen.stop.toNat
          omega
        have hrec := maxThroughputLoop_eq hdraws endIndex fuel chosen.stop.toNat
        simp only [orRaise, bind, Except.bind, Option.map_some, List.length_map, List.getElem?_map,
          hdraw, hchoice, if_neg hnil, if_pos hroute]
        rw [if_pos ⟨hlo, hhi⟩]
        rw [show (toRoute chosen).stop = chosen.stop.toNat from rfl, ← hrec]
        cases maxThroughputLoop (spansContainingBlock blockInfos) clientServerRtts choice endIndex
          fuel chosen.stop.toNat <;> rfl
    · rfl

/-- Where no block is missing, a walk that is to go on behind the last block comes to the end of the
    table. -/
theorem makeSequenceLoop_overrun {table : RoutingTable} {endIndex : Nat}
    (htable : HostTable table.spansContainingBlock)
    (hend : table.spansContainingBlock.length < endIndex) : ∀ {fuel currentIndex : Nat},
    currentIndex < endIndex → endIndex - currentIndex ≤ fuel →
    (∀ b, currentIndex ≤ b → b < table.spansContainingBlock.length →
      table.spansContainingBlock.getD b [] ≠ []) →
    makeSequenceLoop table endIndex fuel currentIndex = .error .indexError
  | 0, _, hlt, hfuel, _ => absurd hfuel (by omega)
  | fuel + 1, currentIndex, hlt, hfuel, hheld => by
    by_cases hin : currentIndex < table.spansContainingBlock.length
    · obtain ⟨chosen, hmem, hround⟩ :=
        makeSequenceLoop_held htable hlt (hheld currentIndex (Nat.le_refl _) hin) fuel
      obtain ⟨hlo, hhi⟩ := htable.contains _ _ hmem
      -- a span that reached behind the table would be listed there
      have hstop : chosen.stop ≤ table.spansContainingBlock.length := by
        by_contra hbehind
        have hlisted := htable.everywhere _ _ hmem table.spansContainingBlock.length (by omega)
          (by omega)
        rw [List.getD_eq_getElem?_getD, List.getElem?_eq_none (Nat.le_refl _)] at hlisted
        nomatch hlisted
      have hrest := makeSequenceLoop_overrun htable hend (by omega : chosen.stop < endIndex)
        (by omega : endIndex - chosen.stop ≤ fuel) fun b hb => hheld b (by omega)
      rw [hround, hrest]
      rfl
    · rw [makeSequenceLoop, if_pos hlt, List.getElem?_eq_none (by omega)]
      rfl

/-- **`max_throughput`** is safe inside the table, and up to a block that nobody holds. -/
theorem maxThroughput_safe_iff {blockInfos : List (Dht.RemoteModuleInfo Nat)}
    {choice : SpanChoice} (hchoice : ∀ b, DrawsCandidate (choice b)) {startIndex endIndex : Nat}
    (hlt : startIndex < endIndex) :
    RoutedSafely blockInfos startIndex endIndex
        (maxThroughputLoop (spansContainingBlock blockInfos) clientServerRtts choice endIndex
          (endIndex - startIndex) startIndex) ↔
      endIndex ≤ blockInfos.length ∨
        ∃ b, startIndex ≤ b ∧ b < blockInfos.length ∧ spansAt blockInfos b = [] := by
  obtain ⟨draws, hdraws⟩ := exists_draws blockInfos hchoice
  have heq : (maxThroughputLoop (spansContainingBlock blockInfos) clientServerRtts choice endIndex
      (endIndex - startIndex) startIndex).map (List.map toRoute) = _ :=
    maxThroughputLoop_eq hdraws endIndex _ _
  generalize maxThroughputLoop (spansContainingBlock blockInfos) clientServerRtts choice endIndex
    (endIndex - startIndex) startIndex = result at heq ⊢
  let table : RoutingTable := ⟨routingSpans blockInfos, draws⟩
  have htable : HostTable table.spansContainingBlock := hostTable_routingSpans blockInfos
  have hlength : table.spansContainingBlock.length = blockInfos.length := length_routingSpans
  have hmissing : ∀ b, startIndex ≤ b → b < endIndex → b < blockInfos.length →
      spansAt blockInfos b = [] → RoutedSafely blockInfos startIndex endIndex result := by
    intro b hlo hhi hin hempty
    obtain ⟨blocks, herror⟩ := makeSequenceLoop_missing htable (hlength ▸ hin) hhi
      (routingSpans_eq_nil.mpr hempty) hlo (by omega : b - startIndex < endIndex - startIndex)
    exact .inr ⟨blocks, except_map_eq_error.mp (heq.trans herror)⟩
  constructor
  · intro hsafe
    by_contra hnot
    obtain ⟨hbehind, hheld⟩ := not_or.mp hnot
    have herror := makeSequenceLoop_overrun htable (by omega) hlt (Nat.le_refl _)
      fun b hlo hhi hempty => hheld ⟨b, hlo, hlength ▸ hhi, routingSpans_eq_nil.mp hempty⟩
    have hresult := except_map_eq_error.mp (heq.trans herror)
    rcases hsafe with ⟨_, _, hok, -⟩ | ⟨_, hraised⟩
    · nomatch hresult.symm.trans hok
    · nomatch hresult.symm.trans hraised
  · intro h
    by_cases hall : ∃ b, startIndex ≤ b ∧ b < endIndex ∧ b < blockInfos.length ∧
        spansAt blockInfos b = []
    · obtain ⟨b, hlo, hhi, hin, hempty⟩ := hall
      exact hmissing b hlo hhi hin hempty
    · have hend : endIndex ≤ blockInfos.length := by
        rcases h with hend | ⟨b, hlo, hin, hempty⟩
        · exact hend
        · by_contra hbehind
          exact hall ⟨b, hlo, by omega, hin, hempty⟩
      obtain ⟨route, stop, hroute, hstop, hisRoute⟩ := makeSequence_route draws hlt
        fun b hlo hhi hempty => hall ⟨b, hlo, hhi, by omega, hempty⟩
      obtain ⟨spans, hspans, rfl⟩ := except_map_eq_ok.mp (heq.trans hroute)
      exact .inl ⟨spans, stop, hspans, hstop, hisRoute⟩

end Throughput

/-! ## The delays -/

section Delays

variable {blockInfos : List (Dht.RemoteModuleInfo Nat)}
  {clientServerRtts : AList fun _ : Nat => Dht.Rtt} {startIndex endIndex : Nat}
  {cacheTokensNeeded : Option Nat} {graph : InferenceGraph}

/-- No round trip takes less than no time. -/
def NonnegRtts (rtts : AList fun _ : Nat => Dht.Rtt) : Prop :=
  ∀ peerId, ∀ rtt ∈ rtts.lookup peerId, 0 ≤ rtt

/-- What validation says of the announced pings. -/
def NonnegPings (blockInfos : List (Dht.RemoteModuleInfo Nat)) : Prop :=
  ∀ moduleInfo ∈ blockInfos, ∀ peerId, ∀ serverInfo ∈ moduleInfo.servers.lookup peerId,
    ∀ nextPings ∈ serverInfo.nextPings, NonnegRtts nextPings

/-- Delays are not negative when the measured round-trip times are not. -/
theorem rttToDelay_nonneg {rtt : Option Dht.Rtt} (h : ∀ r ∈ rtt, 0 ≤ r) : 0 ≤ rttToDelay rtt := by
  rcases rtt with _ | rtt
  · rw [rttToDelay]
    norm_num
  · cases rtt with
    | none => exact (by norm_num : (0 : ℚ) ≤ 5)
    | some r =>
      have hr : 0 ≤ r := WithTop.coe_le_coe.mp (h (r : Dht.Rtt) rfl)
      exact le_min (div_nonneg hr (by norm_num)) (by norm_num)

/-- The overhead is there always. -/
theorem overhead_le_delayTo {span : Dht.RemoteSpanInfo Nat} {rtt : Option Dht.Rtt}
    (h : ∀ r ∈ rtt, 0 ≤ r) : 18 / 1000 ≤ delayTo span cacheTokensNeeded rtt := by
  have hrtt := rttToDelay_nonneg h
  have halloc : (0 : ℚ) ≤ if hasCacheFor span.length
      (span.serverInfo.cacheTokensLeft.map fun left : Nat => (left : Int)) cacheTokensNeeded
      then 0 else 10 := by
    split <;> norm_num
  rw [delayTo]
  linarith

theorem inferenceDelay_nonneg {span : Dht.RemoteSpanInfo Nat} {delay : ℚ}
    (h : inferenceDelay span = .ok delay) : 0 ≤ delay := by
  rw [inferenceDelay] at h
  split at h
  · obtain rfl := Except.ok.inj h
    norm_num
  · rename_i inferenceRps _
    split at h
    · cases h
    · obtain rfl := Except.ok.inj h
      exact div_nonneg zero_le_one inferenceRps.2

/-- Every edge a span adds leads from a server, and no cost is negative. -/
theorem computeEdges_nonneg {span : Dht.RemoteSpanInfo Nat} {edges : InferenceGraph}
    (h : computeEdges startIndex endIndex span = .ok edges) :
    ∀ edge ∈ edges, edge.1 ≠ .client ∧ 0 ≤ edge.2.2 := by
  intro edge hedge
  obtain ⟨blockIdx, -, hedge⟩ := (mem_of_mapM h).mp hedge
  obtain ⟨delay, hdelay, hedge⟩ := except_bind_eq_ok.mp hedge
  obtain rfl := Except.ok.inj hedge
  exact ⟨fun hnode => (nomatch hnode), inferenceDelay_nonneg hdelay⟩

/-- **The delays of the graph**: none is negative, and going to the first server costs the
    overhead. -/
theorem delays_of_graph
    (h : buildInferenceGraph blockInfos clientServerRtts startIndex endIndex cacheTokensNeeded
      = .ok graph) (hrtts : NonnegRtts clientServerRtts) (hpings : NonnegPings blockInfos) :
    ∀ edge ∈ graph, 0 ≤ edge.2.2 ∧ (edge.1 = .client → 18 / 1000 ≤ edge.2.2) := by
  obtain ⟨-, computes, hcomputes, rfl⟩ := buildInferenceGraph_eq h
  intro edge hedge
  have hover : (0 : ℚ) ≤ 18 / 1000 := by norm_num
  rcases List.mem_append.mp hedge with hedge | hedge
  · rcases List.mem_append.mp hedge with hedge | hedge
    · rcases List.mem_append.mp hedge with hedge | hedge
      · obtain ⟨span, -, rfl⟩ := List.mem_map.mp hedge
        have hdelay : 18 / 1000 ≤ delayTo span cacheTokensNeeded
            (clientServerRtts.lookup span.peerId) := overhead_le_delayTo (hrtts span.peerId)
        exact ⟨hover.trans hdelay, fun _ => hdelay⟩
      · obtain ⟨span, -, rfl⟩ := List.mem_map.mp hedge
        exact ⟨rttToDelay_nonneg (hrtts span.peerId), fun hnode => nomatch hnode⟩
    · obtain ⟨blockIdx, -, hedge⟩ := List.mem_flatMap.mp hedge
      obtain ⟨curSpan, hcur, hedge⟩ := List.mem_flatMap.mp hedge
      obtain ⟨nextSpan, -, rfl⟩ := List.mem_map.mp hedge
      refine ⟨hover.trans (overhead_le_delayTo fun rtt hrtt => ?_), fun hnode => nomatch hnode⟩
      obtain ⟨nextPings, hnext, hrtt⟩ := Option.bind_eq_some_iff.mp hrtt
      obtain ⟨moduleInfo, hmem, hlookup⟩ := Dht.lookup_computeSpans_serverInfo
        (mem_spansByPriority.mp (mem_spansAt.mp (List.mem_filter.mp hcur).1).1)
      exact hpings moduleInfo hmem _ _ hlookup nextPings hnext _ rtt hrtt
  · obtain ⟨edges, hedges, hedge⟩ := List.mem_flatten.mp hedge
    obtain ⟨span, -, hcompute⟩ := (mem_of_mapM hcomputes).mp hedges
    obtain ⟨hclient, hdelay⟩ := computeEdges_nonneg hcompute edge hedge
    exact ⟨hdelay, fun hnode => absurd hnode hclient⟩

theorem edgeDelay_nonneg (h : ∀ edge ∈ graph, 0 ≤ edge.2.2) (node node' : GraphNode) :
    0 ≤ edgeDelay graph node node' := by
  rw [edgeDelay]
  cases hlast : (graph.filter fun edge => edge.1 = node ∧ edge.2.1 = node').getLast? with
  | none => exact le_refl 0
  | some edge => exact h edge (List.mem_filter.mp (List.mem_of_getLast? hlast)).1

theorem walkCost_nonneg (h : ∀ edge ∈ graph, 0 ≤ edge.2.2) : ∀ nodes, 0 ≤ walkCost graph nodes
  | [] => le_refl 0
  | [_] => le_refl 0
  | node :: node' :: nodes =>
    add_nonneg (edgeDelay_nonneg h node node') (walkCost_nonneg h (node' :: nodes))

/-- **A path takes time.** -/
theorem walkCost_pos
    (h : ∀ edge ∈ graph, 0 ≤ edge.2.2 ∧ (edge.1 = .client → 18 / 1000 ≤ edge.2.2))
    {nodes : List GraphNode} (hwalk : IsWalk graph nodes) : 0 < walkCost graph nodes := by
  have hnonneg : ∀ edge ∈ graph, 0 ≤ edge.2.2 := fun edge hedge => (h edge hedge).1
  obtain ⟨hhead, hlast, hedges⟩ := hwalk
  obtain ⟨rest, rfl⟩ := List.head?_eq_some_iff.mp hhead
  cases rest with
  | nil => nomatch Option.some.inj hlast
  | cons node rest =>
    obtain ⟨delay, hdelay⟩ := hasEdge_iff.mp (List.isChain_cons_cons.mp hedges).1
    have hfirst : 0 < edgeDelay graph .client node := by
      rw [edgeDelay]
      cases hlast : (graph.filter fun edge => edge.1 = .client ∧ edge.2.1 = node).getLast? with
      | none =>
        have hmem : (GraphNode.client, node, delay) ∈ graph.filter
            fun edge => edge.1 = .client ∧ edge.2.1 = node :=
          List.mem_filter.mpr ⟨hdelay, decide_eq_true ⟨rfl, rfl⟩⟩
        rw [List.getLast?_eq_none_iff.mp hlast] at hmem
        nomatch hmem
      | some edge =>
        obtain ⟨hmem, hnodes⟩ := List.mem_filter.mp (List.mem_of_getLast? hlast)
        have hover := (h edge hmem).2 (of_decide_eq_true hnodes).1
        exact lt_of_lt_of_le (by norm_num) hover
    exact add_pos_of_pos_of_nonneg hfirst (walkCost_nonneg hnonneg _)

end Delays

/-! ## The route of a path -/

section Latency

variable {blockInfos : List (Dht.RemoteModuleInfo Nat)}
  {clientServerRtts : AList fun _ : Nat => Dht.Rtt} {startIndex endIndex : Nat}
  {cacheTokensNeeded : Option Nat} {graph : InferenceGraph}

/-- A node of a peer that the dict knows. -/
theorem appendNodeChecked_ok {serverInfos : AList fun _ : Nat => Dht.ServerInfo Nat}
    {node : RouteNode} (h : node.1 ∈ serverInfos) (spans : List (Dht.RemoteSpanInfo Nat)) :
    ∃ spans', appendNodeChecked serverInfos spans node = .ok spans' ∧
      spans'.map toRoute = appendNode (spans.map toRoute) node := by
  obtain ⟨serverInfo, hlookup⟩ := Option.isSome_iff_exists.mp (AList.lookup_isSome.mpr h)
  rw [appendNodeChecked, appendNode, List.getLast?_map, hlookup]
  cases hlast : spans.getLast? with
  | none =>
    obtain rfl := List.getLast?_eq_none_iff.mp hlast
    exact ⟨_, rfl, rfl⟩
  | some last =>
    obtain ⟨init, rfl⟩ := List.getLast?_eq_some_iff.mp hlast
    simp only [Option.map_some]
    by_cases hpeer : last.peerId = node.1
    · have hpeer' : (toRoute last).peerId = node.1 := hpeer
      rw [if_pos hpeer, if_pos hpeer']
      refine ⟨_, rfl, ?_⟩
      simp [toRoute]
    · have hpeer' : ¬ (toRoute last).peerId = node.1 := hpeer
      rw [if_neg hpeer, if_neg hpeer']
      refine ⟨_, rfl, ?_⟩
      simp [toRoute]

theorem foldlM_appendNodeChecked {serverInfos : AList fun _ : Nat => Dht.ServerInfo Nat} :
    ∀ {nodes : List RouteNode} (spans : List (Dht.RemoteSpanInfo Nat)),
      (∀ node ∈ nodes, node.1 ∈ serverInfos) →
      ∃ spans', nodes.foldlM (appendNodeChecked serverInfos) spans = .ok spans' ∧
        spans'.map toRoute = nodes.foldl appendNode (spans.map toRoute)
  | [], spans, _ => ⟨spans, rfl, rfl⟩
  | node :: nodes, spans, h => by
    obtain ⟨spans₁, hstep, hroute⟩ := appendNodeChecked_ok (h node List.mem_cons_self) spans
    obtain ⟨spans', hrest, hroute'⟩ := foldlM_appendNodeChecked spans₁
      fun node' hmem => h node' (List.mem_cons_of_mem _ hmem)
    refine ⟨spans', ?_, ?_⟩
    · rw [List.foldlM_cons, hstep]
      exact hrest
    · rw [hroute', hroute, List.foldl_cons]

/-- The spans that are not empty. -/
theorem map_toRoute_filter (spans : List (Dht.RemoteSpanInfo Nat)) :
    (spans.filter fun span => 0 < span.length).map toRoute
      = (spans.map toRoute).filter fun span => span.start < span.stop := by
  rw [List.filter_map]
  refine congrArg (List.map toRoute) (List.filter_congr fun span _ => ?_)
  refine decide_eq_decide.mpr ?_
  show 0 < span.stop - span.start ↔ span.start < span.stop.toNat
  omega

/-- The dict of the server infos has every peer of the spans. -/
theorem mem_collectServerInfos {spans : List (Dht.RemoteSpanInfo Nat)}
    {span : Dht.RemoteSpanInfo Nat} (h : span ∈ spans) : span.peerId ∈ collectServerInfos spans := by
  have hkeeps : ∀ (rest : List (Dht.RemoteSpanInfo Nat))
      (serverInfos : AList fun _ : Nat => Dht.ServerInfo Nat), span.peerId ∈ serverInfos →
      span.peerId ∈ rest.foldl
        (fun serverInfos span => serverInfos.insert span.peerId span.serverInfo) serverInfos := by
    intro rest
    induction rest with
    | nil => exact fun _ hmem => hmem
    | cons _ rest ih => exact fun _ hmem => ih _ ((AList.mem_insert _).mpr (.inr hmem))
  obtain ⟨before, after, rfl⟩ := List.append_of_mem h
  rw [collectServerInfos, List.foldl_append, List.foldl_cons]
  exact hkeeps after _ ((AList.mem_insert _).mpr (.inl rfl))

/-- The peer holds one of the blocks asked for. -/
def HoldsWithin (blockInfos : List (Dht.RemoteModuleInfo Nat)) (startIndex endIndex peerId : Nat) :
    Prop :=
  ∃ b, startIndex ≤ b ∧ b < endIndex ∧ ∃ span ∈ spansAt blockInfos b, span.peerId = peerId

theorem holdsWithin_of_mem {b : Nat} {span : RemoteSpanInfo} (hlo : startIndex ≤ b)
    (hhi : b < endIndex) (h : span ∈ (routingSpans blockInfos).getD b []) :
    HoldsWithin blockInfos startIndex endIndex span.peerId := by
  obtain ⟨host, hhost, rfl⟩ := mem_routingSpans.mp h
  exact ⟨b, hlo, hhi, host, hhost, rfl⟩

/-- Both ends of an edge of the graph are servers with a block of the asked range. -/
theorem GraphEdge.holdsWithin {node node' : RouteNode}
    (h : GraphEdge (routingSpans blockInfos) startIndex endIndex node node') :
    HoldsWithin blockInfos startIndex endIndex node.1 ∧
      HoldsWithin blockInfos startIndex endIndex node'.1 := by
  cases h with
  | compute hlo hhi hspan =>
    exact ⟨holdsWithin_of_mem hlo hhi hspan, holdsWithin_of_mem hlo hhi hspan⟩
  | switch hlo hhi hcur _ hnext =>
    exact ⟨holdsWithin_of_mem (by omega) (by omega) hcur,
      holdsWithin_of_mem (Nat.le_of_lt hlo) hhi hnext⟩

/-- **The servers of a path** hold blocks that were asked for. -/
theorem IsPath.holdsWithin {nodes : List RouteNode} (hlt : startIndex < endIndex)
    (h : IsPath (routingSpans blockInfos) startIndex endIndex nodes) :
    ∀ node ∈ nodes, HoldsWithin blockInfos startIndex endIndex node.1 := by
  have hchain : ∀ {node next : RouteNode} {rest : List RouteNode},
      (node :: next :: rest).IsChain (GraphEdge (routingSpans blockInfos) startIndex endIndex) →
      ∀ node' ∈ node :: next :: rest, HoldsWithin blockInfos startIndex endIndex node'.1 := by
    intro node next rest hchain
    induction rest generalizing node next with
    | nil =>
      obtain ⟨hnode, hnext⟩ := (List.isChain_cons_cons.mp hchain).1.holdsWithin
      simp only [List.mem_cons, List.not_mem_nil, or_false]
      rintro node' (rfl | rfl)
      · exact hnode
      · exact hnext
    | cons after rest ih =>
      obtain ⟨hedge, hrest⟩ := List.isChain_cons_cons.mp hchain
      exact List.forall_mem_cons.mpr ⟨hedge.holdsWithin.1, ih hrest⟩
  obtain ⟨⟨peer, hhead⟩, ⟨peer', hlast⟩, hedges⟩ := h
  obtain ⟨rest, rfl⟩ := List.head?_eq_some_iff.mp hhead
  cases rest with
  | nil =>
    -- a path of one node would end where it begins
    have heq : startIndex = endIndex := congrArg Prod.snd (Option.some.inj hlast)
    omega
  | cons next rest => exact hchain hedges

/-- A speed of zero of a server that is asked for stops the graph. -/
theorem buildInferenceGraph_zero
    (hheld : ∀ b, startIndex ≤ b → b < endIndex → spansAt blockInfos b ≠ [])
    (hrps : ¬ PositiveRpsWithin blockInfos startIndex endIndex) :
    buildInferenceGraph blockInfos clientServerRtts startIndex endIndex cacheTokensNeeded
      = .error .zeroDivisionError := by
  have hmissing : (List.range' startIndex (endIndex - startIndex)).filter
      (fun blockIdx => (spansAt blockInfos blockIdx).isEmpty) = [] :=
    filter_range'_eq_nil.mpr fun b hlo hhi => List.isEmpty_eq_false_iff.mpr (hheld b hlo hhi)
  have hcomputes : (spansByPriority blockInfos).mapM (computeEdges startIndex endIndex)
      = .error .zeroDivisionError := by
    cases hcomputes : (spansByPriority blockInfos).mapM (computeEdges startIndex endIndex) with
    | ok computes =>
      -- then no span that is asked for announces zero
      refine absurd (fun b hlo hhi span hspan hzero => ?_) hrps
      obtain ⟨hmem, hstart, hstop⟩ := mem_spansAt.mp hspan
      obtain ⟨edges, hedges⟩ := ok_of_mapM hcomputes hmem
      have hblock : (b : Int) ∈ pyRange (max span.start startIndex) (min span.stop endIndex) := by
        rw [mem_pyRange]
        omega
      obtain ⟨edge, hedge⟩ := ok_of_mapM hedges hblock
      rw [inferenceDelay, hzero] at hedge
      cases hedge
    | error exc =>
      obtain ⟨span, -, herror⟩ := error_of_mapM hcomputes
      obtain ⟨blockIdx, -, herror⟩ := error_of_mapM herror
      cases hdelay : inferenceDelay span with
      | ok delay =>
        rw [hdelay] at herror
        cases herror
      | error exc' =>
        rw [hdelay] at herror
        obtain rfl := Except.error.inj herror
        rw [inferenceDelay] at hdelay
        split at hdelay
        · cases hdelay
        · split at hdelay
          · exact congrArg Except.error (Except.error.inj hdelay).symm
          · cases hdelay
  simp only [buildInferenceGraph, hmissing, ne_eq, not_true_eq_false, if_false, hcomputes]
  rfl

/-- `min_latency` asked for blocks behind the table. -/
theorem minLatencyChecked_overrun
    {findPath : InferenceGraph → Except PyExc (List GraphNode × ℚ)} (hlt : startIndex < endIndex)
    (hbehind : blockInfos.length < endIndex) :
    minLatencyChecked blockInfos (spansContainingBlock blockInfos) clientServerRtts findPath
      cacheTokensNeeded startIndex endIndex = .error .indexError := by
  rw [minLatencyChecked, if_neg (by omega)]
  cases hheld : (List.range' startIndex (endIndex - startIndex)).mapM fun blockIdx =>
      (orRaise .indexError (spansContainingBlock blockInfos)[blockIdx]?).map
        fun spans => (blockIdx, spans) with
  | ok held =>
    have hlast : endIndex - 1 ∈ List.range' startIndex (endIndex - startIndex) :=
      List.mem_range'_1.mpr (by omega)
    obtain ⟨spans, hspans⟩ := ok_of_mapM hheld hlast
    rw [List.getElem?_eq_none (by rw [length_spansContainingBlock]; omega)] at hspans
    nomatch hspans
  | error exc =>
    obtain ⟨blockIdx, -, herror⟩ := error_of_mapM hheld
    have hindex := except_map_eq_error.mp herror
    cases hget : (spansContainingBlock blockInfos)[blockIdx]? with
    | none =>
      rw [hget] at hindex
      obtain rfl := Except.error.inj hindex
      rfl
    | some spans =>
      rw [hget] at hindex
      nomatch hindex

/-- Inside the table, what `min_latency` goes on with is the table's. -/
theorem mapM_held (hend : endIndex ≤ blockInfos.length) :
    ((List.range' startIndex (endIndex - startIndex)).mapM fun blockIdx =>
        (orRaise .indexError (spansContainingBlock blockInfos)[blockIdx]?).map
          fun spans => (blockIdx, spans))
      = .ok ((List.range' startIndex (endIndex - startIndex)).map fun blockIdx =>
          (blockIdx, spansAt blockInfos blockIdx)) := by
  refine mapM_eq_ok_map fun b hb => ?_
  have hlt : b < (spansContainingBlock blockInfos).length := by
    rw [length_spansContainingBlock]
    obtain ⟨hlo, hhi⟩ := List.mem_range'_1.mp hb
    omega
  rw [List.getElem?_eq_getElem hlt, spansAt, List.getD_eq_getElem?_getD,
    List.getElem?_eq_getElem hlt]
  rfl

/-- `min_latency` where a block is missing. -/
theorem minLatencyChecked_missing
    {findPath : InferenceGraph → Except PyExc (List GraphNode × ℚ)}
    (hend : endIndex ≤ blockInfos.length)
    {b : Nat} (hlo : startIndex ≤ b) (hhi : b < endIndex) (hempty : spansAt blockInfos b = []) :
    ∃ blocks, minLatencyChecked blockInfos (spansContainingBlock blockInfos) clientServerRtts
      findPath cacheTokensNeeded startIndex endIndex = .error (.missingBlocks blocks) := by
  rw [minLatencyChecked, if_neg (by omega), mapM_held hend]
  have hmissing : (((List.range' startIndex (endIndex - startIndex)).map fun blockIdx =>
      (blockIdx, spansAt blockInfos blockIdx)).filter (·.2.isEmpty)).map (·.1) ≠ [] := by
    have hb : (b, spansAt blockInfos b) ∈ ((List.range' startIndex (endIndex - startIndex)).map
        fun blockIdx => (blockIdx, spansAt blockInfos blockIdx)).filter (·.2.isEmpty) :=
      List.mem_filter.mpr ⟨List.mem_map.mpr ⟨b, List.mem_range'_1.mpr ⟨hlo, by omega⟩, rfl⟩,
        List.isEmpty_iff.mpr hempty⟩
    exact mt List.map_eq_nil_iff.mp (List.ne_nil_of_mem hb)
  exact ⟨_, if_pos hmissing⟩

/-- `min_latency` where every block is held: the server infos of all candidates are known. -/
theorem minLatencyChecked_of_held (clientServerRtts : AList fun _ : Nat => Dht.Rtt)
    (findPath : InferenceGraph → Except PyExc (List GraphNode × ℚ)) (cacheTokensNeeded : Option Nat)
    (hlt : startIndex < endIndex) (hend : endIndex ≤ blockInfos.length)
    (hheld : ∀ b, startIndex ≤ b → b < endIndex → spansAt blockInfos b ≠ []) :
    ∃ serverInfos : AList fun _ : Nat => Dht.ServerInfo Nat,
      (∀ peerId, HoldsWithin blockInfos startIndex endIndex peerId → peerId ∈ serverInfos) ∧
      minLatencyChecked blockInfos (spansContainingBlock blockInfos) clientServerRtts findPath
          cacheTokensNeeded startIndex endIndex
        = (do
          let graph ← buildInferenceGraph blockInfos clientServerRtts startIndex endIndex
            cacheTokensNeeded
          let (nodes, totalCost) ← findPath graph
          if startIndex = 0 ∧ endIndex = blockInfos.length ∧ totalCost = 0 then
            .error .zeroDivisionError
          else do
            let nodes ← innerNodes nodes
            let spanSequence ← nodes.foldlM (appendNodeChecked serverInfos) []
            .ok (spanSequence.filter fun span => 0 < span.length)) := by
  have hmissing : (((List.range' startIndex (endIndex - startIndex)).map fun blockIdx =>
      (blockIdx, spansAt blockInfos blockIdx)).filter (·.2.isEmpty)).map (·.1) = [] := by
    rw [List.map_eq_nil_iff, List.filter_eq_nil_iff]
    intro held hmem
    obtain ⟨b, hb, rfl⟩ := List.mem_map.mp hmem
    obtain ⟨hlo, hhi⟩ := List.mem_range'_1.mp hb
    exact mt List.isEmpty_iff.mp (hheld b hlo (by omega))
  refine ⟨collectServerInfos (((List.range' startIndex (endIndex - startIndex)).map
    fun blockIdx => (blockIdx, spansAt blockInfos blockIdx)).flatMap (·.2)), ?_, ?_⟩
  · rintro peerId ⟨b, hlo, hhi, span, hspan, rfl⟩
    refine mem_collectServerInfos (List.mem_flatMap.mpr ⟨(b, spansAt blockInfos b), ?_, hspan⟩)
    exact List.mem_map.mpr ⟨b, List.mem_range'_1.mpr ⟨hlo, by omega⟩, rfl⟩
  · rw [minLatencyChecked, if_neg (by omega), mapM_held hend]
    exact if_neg (not_not.mpr hmissing)

/-- `min_latency` finds a route. -/
theorem minLatencyChecked_route
    {findPath : InferenceGraph → Except PyExc (List GraphNode × ℚ)} (hlt : startIndex < endIndex)
    (hend : endIndex ≤ blockInfos.length) (hrtts : NonnegRtts clientServerRtts)
    (hpings : NonnegPings blockInfos)
    (hfind : ∀ graph, buildInferenceGraph blockInfos clientServerRtts startIndex endIndex
      cacheTokensNeeded = .ok graph → FindsCostedPath graph (findPath graph))
    (hheld : ∀ b, startIndex ≤ b → b < endIndex → spansAt blockInfos b ≠ [])
    (hrps : PositiveRpsWithin blockInfos startIndex endIndex) :
    ∃ spans, minLatencyChecked blockInfos (spansContainingBlock blockInfos) clientServerRtts
        findPath cacheTokensNeeded startIndex endIndex = .ok spans ∧
      IsRoute blockInfos startIndex endIndex (spans.map toRoute) := by
  obtain ⟨serverInfos, hinfos, heq⟩ := minLatencyChecked_of_held clientServerRtts findPath
    cacheTokensNeeded hlt hend hheld
  obtain ⟨graph, hgraph⟩ : ∃ graph, buildInferenceGraph blockInfos clientServerRtts startIndex
      endIndex cacheTokensNeeded = .ok graph := exists_buildInferenceGraph hrps hheld
  obtain ⟨hwalk, hcost, hno⟩ := hfind graph hgraph
  -- the path finder without its costs
  have hfindPath : ∀ graph, buildInferenceGraph blockInfos clientServerRtts startIndex endIndex
      cacheTokensNeeded = .ok graph → FindsPath graph ((findPath graph).map (·.1)) := by
    intro graph' hgraph'
    obtain ⟨hwalk', -, hno'⟩ := hfind graph' hgraph'
    refine ⟨fun nodes hnodes => ?_, fun exc herror => hno' exc (except_map_eq_error.mp herror)⟩
    obtain ⟨path, hpath, rfl⟩ := except_map_eq_ok.mp hnodes
    exact hwalk' path hpath
  obtain ⟨route, hroute, hpath⟩ := (hfindPath graph hgraph).route hlt hheld hgraph
  obtain ⟨⟨nodes, totalCost⟩, hfound, rfl⟩ := except_map_eq_ok.mp hroute
  have hknown : ∀ node ∈ route, node.1 ∈ serverInfos :=
    fun node hnode => hinfos node.1 (hpath.holdsWithin hlt node hnode)
  obtain ⟨spans, hspans, hmap⟩ := foldlM_appendNodeChecked [] hknown
  have hpositive : ¬ (startIndex = 0 ∧ endIndex = blockInfos.length ∧ totalCost = 0) := by
    rintro ⟨-, -, hzero⟩
    have hpos := walkCost_pos (delays_of_graph hgraph hrtts hpings) (hwalk _ hfound)
    rw [← hcost _ hfound] at hpos
    exact hpos.ne' hzero
  refine ⟨spans.filter fun span => 0 < span.length, ?_, ?_⟩
  · rw [heq, hgraph]
    show (findPath graph >>= _) = _
    rw [hfound]
    refine (if_neg hpositive).trans ?_
    rw [innerNodes_toNode]
    show (route.foldlM (appendNodeChecked serverInfos) [] >>= _) = _
    rw [hspans]
    rfl
  · obtain ⟨spans', hspans', hisRoute⟩ :=
      makeSequenceByGraph_route hlt hrps hfindPath hheld
    have hsame : makeSequenceByGraph blockInfos (fun graph => (findPath graph).map (·.1))
        clientServerRtts startIndex endIndex cacheTokensNeeded = _ :=
      makeSequenceByGraph_found hlt hheld hgraph hroute
    rw [hsame] at hspans'
    obtain rfl := Except.ok.inj hspans'
    rw [← show spans.map toRoute = route.foldl appendNode [] from hmap,
      ← map_toRoute_filter] at hisRoute
    exact hisRoute

/-- **`min_latency`** is safe inside the table, up to a block that nobody holds or where no server
    that is asked for announces a speed of zero. -/
theorem minLatency_safe_iff
    {findPath : InferenceGraph → Except PyExc (List GraphNode × ℚ)} (hlt : startIndex < endIndex)
    (hrtts : NonnegRtts clientServerRtts) (hpings : NonnegPings blockInfos)
    (hfind : ∀ graph, buildInferenceGraph blockInfos clientServerRtts startIndex endIndex
      cacheTokensNeeded = .ok graph → FindsCostedPath graph (findPath graph)) :
    RoutedSafely blockInfos startIndex endIndex
        (minLatencyChecked blockInfos (spansContainingBlock blockInfos) clientServerRtts findPath
          cacheTokensNeeded startIndex endIndex) ↔
      endIndex ≤ blockInfos.length ∧
        ((∃ b, startIndex ≤ b ∧ b < endIndex ∧ spansAt blockInfos b = []) ∨
          PositiveRpsWithin blockInfos startIndex endIndex) := by
  by_cases hend : endIndex ≤ blockInfos.length
  swap
  · rw [minLatencyChecked_overrun hlt (by omega)]
    exact iff_of_false not_routedSafely_indexError fun h => hend h.1
  rw [and_iff_right hend]
  by_cases hmissing : ∃ b, startIndex ≤ b ∧ b < endIndex ∧ spansAt blockInfos b = []
  · obtain ⟨b, hlo, hhi, hempty⟩ := hmissing
    exact iff_of_true (.inr (minLatencyChecked_missing hend hlo hhi hempty))
      (.inl ⟨b, hlo, hhi, hempty⟩)
  rw [or_iff_right hmissing]
  have hheld : ∀ b, startIndex ≤ b → b < endIndex → spansAt blockInfos b ≠ [] :=
    fun b hlo hhi hempty => hmissing ⟨b, hlo, hhi, hempty⟩
  by_cases hrps : PositiveRpsWithin blockInfos startIndex endIndex
  · obtain ⟨spans, hspans, hroute⟩ :=
      minLatencyChecked_route hlt hend hrtts hpings hfind hheld hrps
    exact iff_of_true (.inl ⟨spans, endIndex, hspans, Nat.le_refl _, hroute⟩) hrps
  · obtain ⟨serverInfos, -, heq⟩ := minLatencyChecked_of_held clientServerRtts findPath
      cacheTokensNeeded hlt hend hheld
    rw [heq, buildInferenceGraph_zero hheld hrps]
    refine iff_of_false ?_ hrps
    rintro (⟨_, _, hok, -⟩ | ⟨_, hraised⟩)
    · nomatch hok
    · nomatch hraised

end Latency

/-- **When routing is safe.**  In either mode the table decides; `min_latency` also needs the
    servers of the blocks asked for to announce a speed that is not zero. -/
theorem makeSequenceChecked_safe_iff {blockInfos : List (Dht.RemoteModuleInfo Nat)}
    {clientServerRtts : AList fun _ : Nat => Dht.Rtt}
    {findPath : InferenceGraph → Except PyExc (List GraphNode × ℚ)} {cacheTokensNeeded : Option Nat}
    {startIndex endIndex : Nat} (mode : RoutingMode) {choice : SpanChoice}
    (hchoice : ∀ b, DrawsCandidate (choice b)) (hlt : startIndex < endIndex)
    (hrtts : NonnegRtts clientServerRtts)
    (hpings : NonnegPings blockInfos)
    (hfind : ∀ graph, buildInferenceGraph blockInfos clientServerRtts startIndex endIndex
      cacheTokensNeeded = .ok graph → FindsCostedPath graph (findPath graph)) :
    RoutedSafely blockInfos startIndex endIndex
        (makeSequenceChecked blockInfos clientServerRtts findPath choice cacheTokensNeeded
          startIndex endIndex mode) ↔
      match mode with
      | .minLatency => endIndex ≤ blockInfos.length ∧
          ((∃ b, startIndex ≤ b ∧ b < endIndex ∧ spansAt blockInfos b = []) ∨
            PositiveRpsWithin blockInfos startIndex endIndex)
      | .maxThroughput => endIndex ≤ blockInfos.length ∨
          ∃ b, startIndex ≤ b ∧ b < blockInfos.length ∧ spansAt blockInfos b = [] := by
  rw [makeSequenceChecked, sortSpans_eq]
  cases mode with
  | minLatency => exact minLatency_safe_iff hlt hrtts hpings hfind
  | maxThroughput => exact maxThroughput_safe_iff hchoice hlt

/-- The first candidate is drawn. -/
def firstChoice : SpanChoice :=
  fun _ candidates _ => orRaise (.valueError "'a' cannot be empty unless no samples are taken")
    candidates.head?

theorem firstChoice_draws (b : Nat) : DrawsCandidate (firstChoice b) := by
  intro candidates _ hne _ _ _
  obtain ⟨first, rest, rfl⟩ := List.exists_cons_of_ne_nil hne
  exact ⟨first, List.mem_cons_self, rfl⟩

/-- Two servers for three blocks; the middle one is held by both. -/
theorem makeSequenceChecked_safe_iff_two :
    let announced : Dht.ServerInfo Nat := ⟨.online, 1, none, none, some 2, none, none⟩
    let blockInfos : List (Dht.RemoteModuleInfo Nat) :=
      [⟨0, (∅ : AList _).insert 1 announced⟩,
        ⟨1, ((∅ : AList _).insert 1 announced).insert 2 announced⟩,
        ⟨2, (∅ : AList _).insert 2 announced⟩]
    let nodes : List GraphNode :=
      [.client, .server 1 0, .server 1 1, .server 1 2, .server 2 2, .server 2 3, .done]
    RoutedSafely blockInfos 0 3
      (makeSequenceChecked blockInfos ∅ (fun graph => .ok (nodes, walkCost graph nodes))
        firstChoice (some 16) 0 3 .minLatency) := by
  intro announced blockInfos nodes
  refine (makeSequenceChecked_safe_iff .minLatency firstChoice_draws (by decide) ?_ ?_ ?_).mpr ?_
  · exact fun _ _ hrtt => nomatch hrtt
  · intro moduleInfo hmem peerId serverInfo hlookup
    have hnone : serverInfo = announced := by
      simp only [blockInfos, List.mem_cons, List.not_mem_nil, or_false] at hmem
      rcases hmem with rfl | rfl | rfl <;>
        grind [AList.lookup_insert, AList.lookup_insert_ne, AList.lookup_empty]
    rw [hnone]
    exact fun _ hpings => nomatch hpings
  · intro graph hgraph
    refine ⟨fun path hpath => ?_, fun path hpath => ?_, fun exc herror => nomatch herror⟩
    · obtain rfl := Except.ok.inj hpath
      refine (isWalk_iff hgraph (by decide)).mpr
        ⟨[(1, 0), (1, 1), (1, 2), (2, 2), (2, 3)], rfl, ⟨1, rfl⟩, ⟨2, rfl⟩, ?_⟩
      have hone : ∀ b < 2, (⟨1, 0, 2⟩ : RemoteSpanInfo) ∈ (routingSpans blockInfos).getD b [] := by
        decide +kernel
      have htwo : (⟨2, 1, 3⟩ : RemoteSpanInfo) ∈ (routingSpans blockInfos).getD 2 [] := by
        decide +kernel
      generalize routingSpans blockInfos = table at hone htwo
      have hfirst : GraphEdge table 0 3 (1, 0) (1, 1) :=
        GraphEdge.compute (by decide) (by decide) (hone 0 (by decide))
      have hsecond : GraphEdge table 0 3 (1, 1) (1, 2) :=
        GraphEdge.compute (by decide) (by decide) (hone 1 (by decide))
      have hswitch : GraphEdge table 0 3 (1, 2) (2, 2) :=
        GraphEdge.switch (by decide) (by decide) (hone 1 (by decide)) rfl htwo
      have hthird : GraphEdge table 0 3 (2, 2) (2, 3) :=
        GraphEdge.compute (by decide) (by decide) htwo
      exact .cons_cons hfirst (.cons_cons hsecond (.cons_cons hswitch
        (.cons_cons hthird (.singleton _))))
    · obtain rfl := Except.ok.inj hpath
      rfl
  · refine ⟨by decide, .inr fun b _ hhi span hspan hzero => ?_⟩
    have hspans : ∀ b < 3, ∀ span ∈ spansAt blockInfos b, span.serverInfo.inferenceRps = some 2 := by
      decide +kernel
    rw [hspans b hhi span hspan] at hzero
    exact absurd hzero (by decide)

/-- One server, with an announced speed of zero: `1.0 / inference_rps` raises. -/
theorem announced_zero_rps :
    let announced : Dht.ServerInfo Nat := ⟨.online, 1, none, none, some 0, none, none⟩
    let blockInfos : List (Dht.RemoteModuleInfo Nat) := [⟨0, (∅ : AList _).insert 1 announced⟩]
    let nodes : List GraphNode := [.client, .server 1 0, .server 1 1, .done]
    let result := makeSequenceChecked blockInfos ∅ (fun graph => .ok (nodes, walkCost graph nodes))
      firstChoice none 0 1 .minLatency
    result = .error .zeroDivisionError ∧ ¬ RoutedSafely blockInfos 0 1 result := by
  intro announced blockInfos nodes result
  have hheld : ∀ b, 0 ≤ b → b < 1 → spansAt blockInfos b ≠ [] := by
    decide +kernel
  have hzero : ¬ PositiveRpsWithin blockInfos 0 1 := by
    have hspan : ∃ span ∈ spansAt blockInfos 0, span.serverInfo.inferenceRps = some 0 := by
      decide +kernel
    obtain ⟨span, hspan, hrps⟩ := hspan
    exact fun hall => hall 0 (le_refl 0) (by decide) span hspan hrps
  have hresult : result = .error .zeroDivisionError := by
    obtain ⟨serverInfos, -, heq⟩ := minLatencyChecked_of_held ∅
      (fun graph => .ok (nodes, walkCost graph nodes)) none (by decide : 0 < 1) (by decide) hheld
    show makeSequenceChecked _ _ _ _ _ _ _ _ = _
    rw [makeSequenceChecked, sortSpans_eq]
    exact heq.trans (by rw [buildInferenceGraph_zero hheld hzero]; rfl)
  refine ⟨hresult, ?_⟩
  rw [hresult]
  rintro (⟨_, _, hok, -⟩ | ⟨_, hraised⟩)
  · nomatch hok
  · nomatch hraised

end Drift
