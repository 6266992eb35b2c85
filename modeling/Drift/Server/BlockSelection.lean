/-
  `server/block_selection.py`: which blocks a server chooses, and when it chooses others.

  A server goes to the window of blocks that is worst off: the sorted throughputs of the windows are
  compared lexicographically, and of equal ones the first is taken (`chooseBestStart_eq_ok_iff`).
  Throughputs are rational numbers, so sums are exact and do not depend on their order.

  As bags of values the windows are compared by the leximin order, and so the choice is the best one
  for the whole swarm: wherever else the server went, the sorted throughputs of all blocks would be
  lexicographically smaller or equal (`chooseBestStart_leximin`).
-/
import Drift.Lib.Leximin
import Drift.Utils.Dht
import Mathlib.Data.Prod.Lex
import Mathlib.Order.Interval.Finset.Nat

namespace Drift

/-! ## The source -/

/-- Where the bound `i` of a slice lies in a list of `n` elements. -/
def sliceBound (n : Nat) (i : Int) : Nat := if 0 ≤ i then i.toNat else (i + n).toNat

/-- `throughputs[start:stop]`. -/
def window (throughputs : List ℚ) (start : Nat) (stop : Int) : List ℚ :=
  pySlice throughputs start (sliceBound throughputs.length stop)

/-- `throughputs[start:stop] += throughput`. -/
def addOn (throughputs : List ℚ) (start : Nat) (stop : Int) (throughput : ℚ) : List ℚ :=
  throughputs.mapIdx fun i x =>
    if start ≤ i ∧ i < sliceBound throughputs.length stop then x + throughput else x

/-- `throughputs.min()`. -/
def minThroughput (throughputs : List ℚ) : Except PyExc ℚ :=
  orRaise (.valueError "zero-size array to reduction operation minimum which has no identity")
    throughputs.min?

/-- `_choose_best_start`. -/
def chooseBestStart (throughputs : List ℚ) (numBlocks : Int) : Except PyExc Nat := do
  let options := (List.range (throughputs.length - numBlocks + 1).toNat).map fun i =>
    toLex (pySorted (window throughputs i (i + numBlocks)), i)
  let best ← orRaise (.valueError "min() arg is an empty sequence") options.min?
  .ok (ofLex best).2

section Swarm

variable {P : Type} [LinearOrder P]

/-- `spans.values()`, sorted by `peer_id`. -/
def sortedSpans (spans : Dht.Spans P) : List (Dht.RemoteSpanInfo P) :=
  (spans.entries.map (·.2)).insertionSort fun span span' => span.peerId ≤ span'.peerId

/-- `compute_throughputs`. -/
def computeThroughputs (spans : Dht.Spans P) (totalBlocks : Nat) : List ℚ :=
  (sortedSpans spans).foldl
    (fun throughputs span => addOn throughputs span.start span.stop span.throughput)
    (List.replicate totalBlocks 0)

/-- `choose_best_blocks`. -/
def chooseBestBlocks (numBlocks : Int) (moduleInfos : List (Dht.RemoteModuleInfo P)) :
    Except PyExc (List Int) := do
  let spans := Dht.computeSpans moduleInfos .joining
  let throughputs := computeThroughputs spans moduleInfos.length
  let start ← chooseBestStart throughputs numBlocks
  .ok (pyRange start (start + numBlocks))

/-- `_move_span`. -/
def moveSpan (span : Dht.RemoteSpanInfo P) (newStart : Nat) : Dht.RemoteSpanInfo P :=
  { span with start := newStart, stop := newStart + span.length }

/-- `eps`. -/
def eps : ℚ := 1 / 1000

/-- What the simulation of `should_choose_other_blocks` works on. -/
structure SimulatedSwarm (P : Type) where
  throughputs : List ℚ
  spans : Dht.Spans P

namespace SimulatedSwarm

/-- The turn of one server in the simulation, and whether it moved. -/
def turn (swarm : SimulatedSwarm P) (peerId : P) : Except PyExc (SimulatedSwarm P × Bool) := do
  let span ← orRaise .keyError (swarm.spans.lookup peerId)
  let lowered := addOn swarm.throughputs span.start span.stop (-(span.throughput * (1 + eps)))
  let newStart ← chooseBestStart lowered span.length
  let throughputs := addOn lowered span.start span.stop (span.throughput * eps)
  let moved := decide (span.start ≠ newStart)
  let span := if moved then moveSpan span newStart else span
  .ok (⟨addOn throughputs span.start span.stop span.throughput, swarm.spans.insert peerId span⟩,
    moved)

/-- A pass of `while moved`, with the servers in the order that was drawn. -/
def pass (swarm : SimulatedSwarm P) : List P → Except PyExc (SimulatedSwarm P × Bool)
  | [] => .ok (swarm, false)
  | peerId :: servers => do
    let (swarm, moved) ← swarm.turn peerId
    let (swarm, movedLater) ← swarm.pass servers
    .ok (swarm, moved || movedLater)

/-- `while moved`, for `fuel` passes: `none` when the last of them moved a server still.  `shuffled
    k` is the order of the servers in pass `k`. -/
def rebalance (shuffled : Nat → List P) : (fuel k : Nat) → SimulatedSwarm P →
    Except PyExc (Option (SimulatedSwarm P))
  | 0, _, _ => .ok none
  | fuel + 1, k, swarm => do
    let (swarm, moved) ← swarm.pass (shuffled k)
    if moved then rebalance shuffled fuel (k + 1) swarm else .ok (some swarm)

end SimulatedSwarm

/-- `should_choose_other_blocks`, with the orders that are drawn; `none` when the simulation takes
    more than `fuel` passes. -/
def shouldChooseOtherBlocks (shuffled : Nat → List P) (fuel : Nat) (localPeerId : P)
    (moduleInfos : List (Dht.RemoteModuleInfo P)) (balanceQuality : ℚ) :
    Except PyExc (Option Bool) := do
  if balanceQuality > 1 then .ok (some true) else
  let spans := Dht.computeSpans moduleInfos .joining
  let throughputs := computeThroughputs spans moduleInfos.length
  let initialThroughput ← minThroughput throughputs
  let localSpan ← orRaise
    (.assertionError "Span served by this server is not present in the DHT")
    (spans.lookup localPeerId)
  let lowered :=
    addOn throughputs localSpan.start localSpan.stop (-(localSpan.throughput * (1 + eps)))
  let loweredThroughput ← minThroughput lowered
  -- switching blocks would make the swarm disjoint
  if initialThroughput > eps ∧ loweredThroughput ≤ 0 then .ok (some false) else
  let newStart ← chooseBestStart lowered localSpan.length
  if localSpan.start = newStart then .ok (some false) else
  let throughputs := addOn lowered localSpan.start localSpan.stop (localSpan.throughput * eps)
  let localSpan := moveSpan localSpan newStart
  let throughputs := addOn throughputs localSpan.start localSpan.stop localSpan.throughput
  let swarm? ← SimulatedSwarm.rebalance shuffled fuel 0
    ⟨throughputs, spans.insert localPeerId localSpan⟩
  match swarm? with
  | none => .ok none
  | some swarm => do
    let newThroughput ← minThroughput swarm.throughputs
    if newThroughput < initialThroughput ∨ newThroughput < eps then .ok (some false) else
    let actualQuality := initialThroughput / newThroughput
    .ok (some (decide (actualQuality < balanceQuality - eps)))

end Swarm

/-! ## Windows as bags of throughputs -/

/-- The throughput of a block. -/
def blockThroughput (throughputs : List ℚ) (i : Nat) : ℚ := throughputs.getD i 0

@[simp] theorem sliceBound_natCast (n i : Nat) : sliceBound n (i : Int) = i := by
  rw [sliceBound, if_pos (Int.natCast_nonneg i), Int.toNat_natCast]

@[simp] theorem length_addOn (throughputs : List ℚ) (start : Nat) (stop : Int) (t : ℚ) :
    (addOn throughputs start stop t).length = throughputs.length := List.length_mapIdx

theorem blockThroughput_of_lt {throughputs : List ℚ} {i : Nat} (h : i < throughputs.length) :
    blockThroughput throughputs i = throughputs[i] := by
  rw [blockThroughput, List.getD_eq_getElem?_getD, List.getElem?_eq_getElem h]
  rfl

theorem ext_blockThroughput {throughputs throughputs' : List ℚ}
    (hlength : throughputs.length = throughputs'.length)
    (h : blockThroughput throughputs = blockThroughput throughputs') :
    throughputs = throughputs' := by
  refine List.ext_getElem hlength fun i hi hi' => ?_
  rw [← blockThroughput_of_lt hi, ← blockThroughput_of_lt hi', h]

theorem coe_eq_valuesOn (throughputs : List ℚ) : (throughputs : Multiset ℚ)
    = valuesOn (blockThroughput throughputs) (Finset.range throughputs.length) := by
  show (throughputs : Multiset ℚ)
    = ((List.range throughputs.length).map (blockThroughput throughputs) : List ℚ)
  congr 1
  refine List.ext_getElem (by simp) fun i hi hi' => ?_
  rw [List.getElem_map, List.getElem_range, blockThroughput_of_lt hi]

theorem coe_window (throughputs : List ℚ) {start stop : Nat} (h : stop ≤ throughputs.length) :
    (window throughputs start stop : Multiset ℚ)
      = valuesOn (blockThroughput throughputs) (Finset.Ico start stop) := by
  show (window throughputs start stop : Multiset ℚ)
    = ((List.range' start (stop - start)).map (blockThroughput throughputs) : List ℚ)
  rw [window, sliceBound_natCast]
  congr 1
  refine List.ext_getElem (by rw [length_pySlice start h]; simp) fun i hi hi' => ?_
  have hlt : start + i < throughputs.length := by
    rw [length_pySlice start h] at hi
    omega
  simp only [pySlice, List.getElem_drop, List.getElem_take, List.getElem_map, List.getElem_range',
    one_mul, blockThroughput_of_lt hlt]

theorem length_window (throughputs : List ℚ) {start stop : Nat} (h : stop ≤ throughputs.length) :
    (window throughputs start stop).length = stop - start := by
  rw [window, sliceBound_natCast, length_pySlice start h]

/-- `+=` on a slice raises the throughputs of its blocks. -/
theorem blockThroughput_addOn (throughputs : List ℚ) (start : Nat) {stop : Nat}
    (h : stop ≤ throughputs.length) (t : ℚ) :
    blockThroughput (addOn throughputs start stop t)
      = raiseOn (blockThroughput throughputs) t (Finset.Ico start stop) := by
  funext i
  rw [raiseOn, blockThroughput, blockThroughput, addOn, sliceBound_natCast, List.getD_eq_getElem?_getD,
    List.getElem?_mapIdx, List.getD_eq_getElem?_getD]
  simp only [Finset.mem_Ico]
  by_cases hi : i < throughputs.length
  · rw [List.getElem?_eq_getElem hi]
    rfl
  · rw [List.getElem?_eq_none (Nat.le_of_not_lt hi), if_neg (by omega)]
    rfl

/-- Sorted lists are compared as the bags of their elements. -/
theorem pySorted_lt_iff {xs ys : List ℚ} (h : xs.length = ys.length) :
    pySorted xs < pySorted ys ↔ WorseThan (xs : Multiset ℚ) ys := by
  have hxs : (pySorted xs : Multiset ℚ) = xs := Multiset.coe_eq_coe.mpr (perm_pySorted xs)
  have hys : (pySorted ys : Multiset ℚ) = ys := Multiset.coe_eq_coe.mpr (perm_pySorted ys)
  have hlength : (pySorted xs).length = (pySorted ys).length := by
    rw [(perm_pySorted xs).length_eq, (perm_pySorted ys).length_eq, h]
  have hiff : WorseThan (pySorted xs : Multiset ℚ) (pySorted ys) ↔ pySorted xs < pySorted ys :=
    worseThan_coe_iff (List.pairwise_insertionSort _ xs) (List.pairwise_insertionSort _ ys) hlength
  rw [hxs, hys] at hiff
  exact hiff.symm

/-! ## The choice -/

section Choice

variable {throughputs : List ℚ} {numBlocks start : Nat}

/-- The bag of throughputs of a window. -/
def windowValues (throughputs : List ℚ) (numBlocks start : Nat) : Multiset ℚ :=
  valuesOn (blockThroughput throughputs) (Finset.Ico start (start + numBlocks))

/-- What `_choose_best_start` compares. -/
def startKey (throughputs : List ℚ) (numBlocks start : Nat) : List ℚ ×ₗ Nat :=
  toLex (pySorted (window throughputs start (start + numBlocks : Nat)), start)

/-- **The choice** is the window with the smallest sorted throughputs, and of those the first. -/
theorem chooseBestStart_eq_ok_iff (hnum : numBlocks ≤ throughputs.length) :
    chooseBestStart throughputs numBlocks = .ok start ↔
      start + numBlocks ≤ throughputs.length ∧ ∀ start', start' + numBlocks ≤ throughputs.length →
        startKey throughputs numBlocks start ≤ startKey throughputs numBlocks start' := by
  have hoptions : (List.range (throughputs.length - numBlocks + 1 : Int).toNat).map
      (fun i => toLex (pySorted (window throughputs i (i + numBlocks : Int)), i))
        = (List.range (throughputs.length - numBlocks + 1)).map (startKey throughputs numBlocks) := by
    rw [show (throughputs.length - numBlocks + 1 : Int).toNat
      = throughputs.length - numBlocks + 1 by omega]
    rfl
  have hmem : ∀ best, best ∈ (List.range (throughputs.length - numBlocks + 1)).map
      (startKey throughputs numBlocks) ↔
        ∃ i, i + numBlocks ≤ throughputs.length ∧ startKey throughputs numBlocks i = best := by
    intro best
    rw [List.mem_map]
    refine exists_congr fun i => and_congr_left fun _ => ?_
    rw [List.mem_range]
    omega
  constructor
  · intro h
    simp only [chooseBestStart, hoptions, orRaise] at h
    cases hmin : ((List.range (throughputs.length - numBlocks + 1)).map
      (startKey throughputs numBlocks)).min? with
    | none =>
      rw [hmin] at h
      cases h
    | some best =>
      rw [hmin] at h
      obtain ⟨hbest, hle⟩ := List.min?_eq_some_iff.mp hmin
      obtain ⟨i, hi, rfl⟩ := (hmem best).mp hbest
      obtain rfl : i = start := Except.ok.inj h
      exact ⟨hi, fun start' hstart' => hle _ ((hmem _).mpr ⟨start', hstart', rfl⟩)⟩
  · rintro ⟨hstart, hle⟩
    have hmin : ((List.range (throughputs.length - numBlocks + 1)).map
        (startKey throughputs numBlocks)).min? = some (startKey throughputs numBlocks start) := by
      refine List.min?_eq_some_iff.mpr ⟨(hmem _).mpr ⟨start, hstart, rfl⟩, fun best hbest => ?_⟩
      obtain ⟨i, hi, rfl⟩ := (hmem best).mp hbest
      exact hle i hi
    simp only [chooseBestStart, hoptions, hmin, orRaise]
    rfl

theorem exists_chooseBestStart (hnum : numBlocks ≤ throughputs.length) :
    ∃ start, chooseBestStart throughputs numBlocks = .ok start ∧
      start + numBlocks ≤ throughputs.length := by
  let keys := (List.range (throughputs.length - numBlocks + 1)).map
    (startKey throughputs numBlocks)
  have hmem : ∀ i, i + numBlocks ≤ throughputs.length → startKey throughputs numBlocks i ∈ keys :=
    fun i hi => List.mem_map.mpr ⟨i, List.mem_range.mpr (by omega), rfl⟩
  cases hmin : keys.min? with
  | none =>
    have hzero := hmem 0 (by omega)
    rw [List.min?_eq_none_iff.mp hmin] at hzero
    nomatch hzero
  | some best =>
    obtain ⟨hbest, hle⟩ := List.min?_eq_some_iff.mp hmin
    obtain ⟨start, hstart, rfl⟩ := List.mem_map.mp hbest
    have hlt := List.mem_range.mp hstart
    have hin : start + numBlocks ≤ throughputs.length := by omega
    refine ⟨start, (chooseBestStart_eq_ok_iff hnum).mpr ⟨hin, fun start' hstart' => ?_⟩, hin⟩
    exact hle _ (hmem start' hstart')

/-- The blocks of a window. -/
theorem window_subset {stop : Nat} (h : stop ≤ throughputs.length) :
    Finset.Ico start stop ⊆ Finset.range throughputs.length := by
  intro i hi
  rw [Finset.mem_Ico] at hi
  exact Finset.mem_range.mpr (Nat.lt_of_lt_of_le hi.2 h)

/-- A window of some blocks is known by its start. -/
theorem ico_add_injective (hpos : 0 < numBlocks) {start' : Nat}
    (h : Finset.Ico start (start + numBlocks) = Finset.Ico start' (start' + numBlocks)) :
    start = start' := by
  have hstart : start ∈ Finset.Ico start' (start' + numBlocks) := by
    rw [← h, Finset.mem_Ico]
    omega
  have hstart' : start' ∈ Finset.Ico start (start + numBlocks) := by
    rw [h, Finset.mem_Ico]
    omega
  rw [Finset.mem_Ico] at hstart hstart'
  omega

theorem startKey_le_iff {start' : Nat} (hstart : start + numBlocks ≤ throughputs.length)
    (hstart' : start' + numBlocks ≤ throughputs.length) :
    startKey throughputs numBlocks start ≤ startKey throughputs numBlocks start' ↔
      WorseThan (windowValues throughputs numBlocks start)
          (windowValues throughputs numBlocks start') ∨
        windowValues throughputs numBlocks start = windowValues throughputs numBlocks start' ∧
          start ≤ start' := by
  have hlength : (window throughputs start (start + numBlocks : Nat)).length
      = (window throughputs start' (start' + numBlocks : Nat)).length := by
    rw [length_window _ hstart, length_window _ hstart']
    omega
  have heq : pySorted (window throughputs start (start + numBlocks : Nat))
        = pySorted (window throughputs start' (start' + numBlocks : Nat)) ↔
      (window throughputs start (start + numBlocks : Nat) : Multiset ℚ)
        = window throughputs start' (start' + numBlocks : Nat) := by
    rw [Multiset.coe_eq_coe]
    constructor
    · intro h
      exact ((perm_pySorted _).symm.trans (List.Perm.of_eq h)).trans (perm_pySorted _)
    · exact pySorted_eq_of_perm
  rw [startKey, startKey, Prod.Lex.toLex_le_toLex, pySorted_lt_iff hlength, heq,
    coe_window _ hstart, coe_window _ hstart']
  exact Iff.rfl

/-- No window is worse than the chosen one. -/
theorem not_worseThan_chosen {start' : Nat} (hnum : numBlocks ≤ throughputs.length)
    (h : chooseBestStart throughputs numBlocks = .ok start)
    (hstart' : start' + numBlocks ≤ throughputs.length) :
    ¬ WorseThan (windowValues throughputs numBlocks start')
      (windowValues throughputs numBlocks start) := by
  obtain ⟨hstart, hle⟩ := (chooseBestStart_eq_ok_iff hnum).mp h
  rcases (startKey_le_iff hstart hstart').mp (hle start' hstart') with hworse | ⟨heq, -⟩
  · exact hworse.asymm
  · intro hlt
    rw [heq] at hlt
    exact worseThan_irrefl _ hlt

end Choice

/-- **Greedy placement is the best one**: with the server on the chosen window the sorted
    throughputs are at least those with the server on any other window, and so is the smallest. -/
theorem chooseBestStart_leximin (throughputs : List ℚ) (numBlocks : Nat)
    (hnum : numBlocks ≤ throughputs.length) (t : ℚ) (ht : 0 < t) :
    ∃ start, chooseBestStart throughputs numBlocks = .ok start ∧
      ∀ start', start' + numBlocks ≤ throughputs.length →
        let placed := fun i : Nat => addOn throughputs i (i + numBlocks : Nat) t
        pySorted (placed start') ≤ pySorted (placed start) ∧
          ∀ bottleneck bottleneck', minThroughput (placed start) = .ok bottleneck →
            minThroughput (placed start') = .ok bottleneck' → bottleneck' ≤ bottleneck := by
  obtain ⟨start, hchosen, hstart⟩ := exists_chooseBestStart hnum
  refine ⟨start, hchosen, fun start' hstart' => ?_⟩
  have hplaced : ∀ i, i + numBlocks ≤ throughputs.length →
      (addOn throughputs i (i + numBlocks : Nat) t : Multiset ℚ)
        = valuesOn (raiseOn (blockThroughput throughputs) t (Finset.Ico i (i + numBlocks)))
            (Finset.range throughputs.length) := by
    intro i hi
    rw [coe_eq_valuesOn, length_addOn, blockThroughput_addOn _ _ hi]
  have hbest : ¬ WorseThan (addOn throughputs start (start + numBlocks : Nat) t : Multiset ℚ)
      (addOn throughputs start' (start' + numBlocks : Nat) t) := by
    rw [hplaced start hstart, hplaced start' hstart']
    exact not_worseThan_raise ht (window_subset hstart) (window_subset hstart')
      (not_worseThan_chosen hnum hchosen hstart')
  refine ⟨?_, fun bottleneck bottleneck' hmin hmin' => ?_⟩
  · rw [← not_lt, pySorted_lt_iff (by rw [length_addOn, length_addOn])]
    exact hbest
  · rw [minThroughput, orRaise_eq_ok, List.min?_eq_some_iff] at hmin hmin'
    by_contra hlt
    refine hbest (worseThan_of_forall_lt (Multiset.mem_coe.mpr hmin.1) fun x hx => ?_)
    exact lt_of_lt_of_le (not_le.mp hlt) (hmin'.2 x (Multiset.mem_coe.mp hx))

/-- Three blocks, a server of two. -/
theorem chooseBestStart_leximin_three : ∃ start, chooseBestStart [1, 0, 2] (2 : Nat) = .ok start ∧
    ∀ start', start' + 2 ≤ 3 →
      let placed := fun i : Nat => addOn [1, 0, 2] i (i + 2 : Nat) 1
      pySorted (placed start') ≤ pySorted (placed start) ∧
        ∀ bottleneck bottleneck', minThroughput (placed start) = .ok bottleneck →
          minThroughput (placed start') = .ok bottleneck' → bottleneck' ≤ bottleneck :=
  chooseBestStart_leximin [1, 0, 2] 2 (by decide) 1 (by decide +kernel)

end Drift
