/-
  A server that was just placed by `choose_best_blocks` does not want to move.

  `should_choose_other_blocks` sees the swarm with the entries of the server in it.  From these
  `compute_spans` restores the span that was chosen (`lookup_withEntries_self`) and leaves the spans
  of the others (`lookup_withEntries_ne`), so the throughputs are those from before, raised on the
  chosen window (`computeThroughputs_withEntries`).  Without the server, and the penalty on top, the
  chosen window is lower than before and the others are not higher: it is the best one still
  (`chooseBestStart_lowered`).
-/
import Drift.Server.BlockSelection
import Mathlib.Tactic.Ring

namespace Drift

/-! ## The throughputs of a set of spans -/

section Throughputs

variable {P : Type} [LinearOrder P]

theorem addOn_comm (throughputs : List ℚ) (start start' : Nat) (stop stop' : Int) (t t' : ℚ) :
    addOn (addOn throughputs start stop t) start' stop' t'
      = addOn (addOn throughputs start' stop' t') start stop t := by
  refine List.ext_getElem (by simp only [length_addOn]) fun i hi hi' => ?_
  simp only [addOn, List.length_mapIdx, List.getElem_mapIdx]
  split <;> split <;> ring

omit [LinearOrder P] in
/-- The sum does not depend on the order of the spans. -/
theorem foldl_addOn_perm {spans spans' : List (Dht.RemoteSpanInfo P)} (h : spans.Perm spans')
    (throughputs : List ℚ) :
    spans.foldl (fun throughputs span => addOn throughputs span.start span.stop span.throughput)
        throughputs
      = spans'.foldl
        (fun throughputs span => addOn throughputs span.start span.stop span.throughput)
        throughputs :=
  h.foldl_eq' (fun _ _ _ _ _ => addOn_comm _ _ _ _ _ _ _) throughputs

theorem perm_sortedSpans (spans : Dht.Spans P) :
    (sortedSpans spans).Perm (spans.entries.map (·.2)) := List.perm_insertionSort _ _

/-- One more server adds its throughput to its blocks. -/
theorem computeThroughputs_insert {spans spans' : Dht.Spans P} {span : Dht.RemoteSpanInfo P}
    {peerId : P} (h : spans'.entries.Perm (⟨peerId, span⟩ :: spans.entries)) (totalBlocks : Nat) :
    computeThroughputs spans' totalBlocks
      = addOn (computeThroughputs spans totalBlocks) span.start span.stop span.throughput := by
  have hperm : (sortedSpans spans').Perm (sortedSpans spans ++ [span]) := by
    refine (perm_sortedSpans spans').trans ((h.map (·.2)).trans ?_)
    exact ((perm_sortedSpans spans).symm.cons span).trans
      (List.perm_append_singleton span (sortedSpans spans)).symm
  rw [computeThroughputs, computeThroughputs, foldl_addOn_perm hperm, List.foldl_append]
  rfl

theorem length_computeThroughputs (spans : Dht.Spans P) (totalBlocks : Nat) :
    (computeThroughputs spans totalBlocks).length = totalBlocks := by
  have hall : ∀ (spans : List (Dht.RemoteSpanInfo P)) (throughputs : List ℚ),
      (spans.foldl (fun throughputs span =>
        addOn throughputs span.start span.stop span.throughput) throughputs).length
        = throughputs.length := by
    intro spans
    induction spans with
    | nil => exact fun _ => rfl
    | cons span spans ih =>
      intro throughputs
      rw [List.foldl_cons, ih, length_addOn]
  rw [computeThroughputs, hall, List.length_replicate]

end Throughputs

/-! ## The entries of one more server -/

section Entries

variable {P : Type} [LinearOrder P]

/-- The module infos with the entries of a server on these blocks. -/
def withEntries (moduleInfos : List (Dht.RemoteModuleInfo P)) (peerId : P)
    (serverInfo : Dht.ServerInfo P) (blocks : List Int) : List (Dht.RemoteModuleInfo P) :=
  moduleInfos.mapIdx fun i moduleInfo =>
    if (i : Int) ∈ blocks then
      { moduleInfo with servers := moduleInfo.servers.insert peerId serverInfo }
    else moduleInfo

/-- `start_block = min(block_indices)` and `end_block = max(block_indices) + 1`, for block indices
    that are counted from `blockOffset`. -/
structure Announces (serverInfo : Dht.ServerInfo P) (blockOffset : Nat) (blocks : List Int) :
    Prop where
  start : serverInfo.startBlock.map (fun block : Nat => (block : Int))
    = blocks.min?.map fun block : Int => block + blockOffset
  stop : serverInfo.endBlock.map (fun block : Nat => (block : Int))
    = blocks.max?.map fun block : Int => block + 1 + blockOffset

variable {moduleInfos : List (Dht.RemoteModuleInfo P)} {peerId : P} {serverInfo : Dht.ServerInfo P}
  {start numBlocks : Nat}

/-- The block index of the first uid. -/
def blockOffset (moduleInfos : List (Dht.RemoteModuleInfo P)) : Nat :=
  (moduleInfos.head?.map (·.uid)).getD 0

@[simp] theorem length_withEntries (blocks : List Int) :
    (withEntries moduleInfos peerId serverInfo blocks).length = moduleInfos.length :=
  List.length_mapIdx

theorem head?_uid_withEntries (blocks : List Int) :
    (withEntries moduleInfos peerId serverInfo blocks).head?.map (·.uid)
      = moduleInfos.head?.map (·.uid) := by
  cases moduleInfos with
  | nil => rfl
  | cons moduleInfo moduleInfos =>
    rw [withEntries, List.mapIdx_cons]
    simp only [List.head?_cons, Option.map_some]
    split <;> rfl

/-- The other servers keep their spans. -/
theorem lookup_withEntries_ne {q : P} (hq : q ≠ peerId) (blocks : List Int)
    (minState : ServerState) :
    (Dht.computeSpans (withEntries moduleInfos peerId serverInfo blocks) minState).lookup q
      = (Dht.computeSpans moduleInfos minState).lookup q := by
  refine Dht.lookup_computeSpans_congr minState (head?_uid_withEntries blocks) ?_
  refine List.ext_getElem (by simp) fun i hi hi' => ?_
  simp only [withEntries, List.getElem_map, List.getElem_mapIdx]
  split
  · exact AList.lookup_insert_ne hq
  · rfl

omit [LinearOrder P] in
/-- Entries on the blocks of one span make this span. -/
theorem foldl_entrySpan {offset totalBlocks : Nat} {minState : ServerState}
    {span : Dht.RemoteSpanInfo P}
    (hspan : span = ⟨peerId, start, (start + numBlocks : Nat), serverInfo⟩)
    (hstate : minState.value ≤ serverInfo.state.value) (hpos : 0 < numBlocks)
    (hnew : ∀ blockIdx, Dht.newSpan offset totalBlocks blockIdx peerId serverInfo = span) :
    ∀ (entries : List (Option (Dht.ServerInfo P))) (k : Nat),
      (∀ entry ∈ entries.zipIdx k, entry.1
        = if start ≤ entry.2 ∧ entry.2 < start + numBlocks then some serverInfo else none) →
      (entries.zipIdx k).foldl (Dht.entrySpan offset totalBlocks minState peerId)
          (if k ≤ start then none else some span)
        = if k + entries.length ≤ start then none else some span := by
  intro entries
  induction entries with
  | nil => exact fun k _ => rfl
  | cons entry entries ih =>
    intro k hentries
    have hentry := hentries (entry, k) List.mem_cons_self
    have hlength : k + (entry :: entries).length = k + 1 + entries.length := by
      rw [List.length_cons]
      omega
    rw [List.zipIdx_cons, List.foldl_cons, hlength,
      ← ih (k + 1) fun entry' hentry' => hentries entry' (List.mem_cons_of_mem _ hentry')]
    congr 1
    rw [Dht.entrySpan, hentry]
    by_cases hin : start ≤ k ∧ k < start + numBlocks
    · -- at the first block the span is opened, at the others it is not extended
      simp only [if_pos hin, if_neg (Nat.not_lt.mpr hstate), if_neg (show ¬ k + 1 ≤ start by omega)]
      by_cases hfirst : k ≤ start
      · rw [if_pos hfirst, Dht.extendSpan, hnew]
      · have hmax : max ((start + numBlocks : Nat) : Int) (k + 1) = (start + numBlocks : Nat) := by
          omega
        rw [if_neg hfirst, hspan]
        simp only [Dht.extendSpan, Dht.RemoteSpanInfo.state, lt_self_iff_false, if_false, if_true,
          hmax]
    · simp only [if_neg hin]
      by_cases hbefore : k ≤ start
      · rw [if_pos hbefore, if_pos (by omega)]
      · rw [if_neg hbefore, if_neg (by omega)]

/-- A server without entries has no span. -/
theorem lookup_computeSpans_absent (habsent : ∀ moduleInfo ∈ moduleInfos, peerId ∉ moduleInfo.servers)
    (minState : ServerState) : (Dht.computeSpans moduleInfos minState).lookup peerId = none := by
  have hnone : (moduleInfos.map fun moduleInfo => moduleInfo.servers.lookup peerId)
      = List.replicate moduleInfos.length none := by
    rw [List.map_eq_replicate_iff]
    exact fun moduleInfo hmem => AList.lookup_eq_none.mpr (habsent moduleInfo hmem)
  rw [Dht.lookup_computeSpans, hnone]
  generalize (moduleInfos.head?.map (·.uid)).getD 0 = offset
  generalize moduleInfos.length = totalBlocks
  have hall : ∀ n k, ((List.replicate n (none : Option (Dht.ServerInfo P))).zipIdx k).foldl
      (Dht.entrySpan offset totalBlocks minState peerId) none = none := by
    intro n
    induction n with
    | zero => exact fun _ => rfl
    | succ n ih => exact fun k => ih (k + 1)
  exact hall totalBlocks 0

/-- The bounds of a range. -/
theorem min?_pyRange (start : Nat) {numBlocks : Nat} (hpos : 0 < numBlocks) :
    (pyRange start (start + numBlocks)).min? = some (start : Int) ∧
      (pyRange start (start + numBlocks)).max? = some ((start : Int) + numBlocks - 1) := by
  constructor
  · rw [List.min?_eq_some_iff]
    exact ⟨mem_pyRange.mpr (by omega), fun b hb => (mem_pyRange.mp hb).1⟩
  · rw [List.max?_eq_some_iff]
    refine ⟨mem_pyRange.mpr (by omega), fun b hb => ?_⟩
    have hlt := (mem_pyRange.mp hb).2
    omega

/-- **The span of the placed server** is the one that was chosen. -/
theorem lookup_withEntries_self
    (habsent : ∀ moduleInfo ∈ moduleInfos, peerId ∉ moduleInfo.servers)
    {minState : ServerState} (hstate : minState.value ≤ serverInfo.state.value)
    (hpos : 0 < numBlocks) (hin : start + numBlocks ≤ moduleInfos.length)
    (h : Announces serverInfo (blockOffset moduleInfos) (pyRange start (start + numBlocks))) :
    (Dht.computeSpans (withEntries moduleInfos peerId serverInfo
        (pyRange start (start + numBlocks))) minState).lookup peerId
      = some ⟨peerId, start, (start + numBlocks : Nat), serverInfo⟩ := by
  obtain ⟨hmin, hmax⟩ := min?_pyRange start hpos
  have hnew : ∀ blockIdx, Dht.newSpan (blockOffset moduleInfos) moduleInfos.length blockIdx peerId
      serverInfo = ⟨peerId, start, (start + numBlocks : Nat), serverInfo⟩ := by
    intro blockIdx
    have hstart := h.start
    have hstop := h.stop
    rw [hmin] at hstart
    rw [hmax] at hstop
    obtain ⟨startBlock, hstartBlock, hfirst⟩ := Option.map_eq_some_iff.mp hstart
    obtain ⟨endBlock, hendBlock, hlast⟩ := Option.map_eq_some_iff.mp hstop
    have hstart' : startBlock - blockOffset moduleInfos = start := by
      simp only at hfirst
      omega
    have hstop' : min ((endBlock : Int) - blockOffset moduleInfos) moduleInfos.length
        = (start + numBlocks : Nat) := by
      simp only at hlast
      omega
    simp only [Dht.newSpan, hstartBlock, hendBlock, hstart', hstop']
  have hentries : ∀ entry ∈ ((withEntries moduleInfos peerId serverInfo
      (pyRange start (start + numBlocks))).map fun moduleInfo =>
        moduleInfo.servers.lookup peerId).zipIdx 0, entry.1
      = if start ≤ entry.2 ∧ entry.2 < start + numBlocks then some serverInfo else none := by
    rintro ⟨entry, i⟩ hentry
    obtain ⟨-, hi, hentry⟩ := List.mem_zipIdx hentry
    rw [hentry]
    simp only [withEntries, List.getElem_map, List.getElem_mapIdx, mem_pyRange, Nat.sub_zero]
    by_cases hblock : start ≤ i ∧ i < start + numBlocks
    · rw [if_pos (by omega), if_pos hblock]
      exact AList.lookup_insert _
    · rw [if_neg (by omega), if_neg hblock]
      exact AList.lookup_eq_none.mpr (habsent _ (List.getElem_mem _))
  have hfold := foldl_entrySpan rfl hstate hpos hnew _ 0 hentries
  rw [Dht.lookup_computeSpans, head?_uid_withEntries, length_withEntries]
  rw [if_pos (Nat.zero_le _), List.length_map, length_withEntries, if_neg (by omega)] at hfold
  exact hfold

end Entries

/-! ## The choice again -/

/-- **The chosen window is chosen again** when it is lowered. -/
theorem chooseBestStart_lowered {throughputs : List ℚ} {numBlocks start : Nat}
    (hpos : 0 < numBlocks) (hnum : numBlocks ≤ throughputs.length)
    (h : chooseBestStart throughputs numBlocks = .ok start) {t : ℚ} (ht : t ≤ 0) :
    chooseBestStart (addOn throughputs start (start + numBlocks : Nat) t) numBlocks
      = .ok start := by
  obtain ⟨hin, hle⟩ := (chooseBestStart_eq_ok_iff hnum).mp h
  have hlength : (addOn throughputs start (start + numBlocks : Nat) t).length
      = throughputs.length := length_addOn _ _ _ _
  rcases ht.eq_or_lt with rfl | hneg
  · have hsame : addOn throughputs start (start + numBlocks : Nat) 0 = throughputs := by
      refine ext_blockThroughput hlength ?_
      rw [blockThroughput_addOn _ _ hin, raiseOn_zero]
    rw [hsame]
    exact h
  · refine (chooseBestStart_eq_ok_iff (by rw [hlength]; exact hnum)).mpr
      ⟨by rw [hlength]; exact hin, fun start' hstart' => ?_⟩
    refine (startKey_le_iff (by rw [hlength]; exact hin) hstart').mpr ?_
    rw [hlength] at hstart'
    by_cases heq : start' = start
    · exact Or.inr ⟨by rw [heq], Nat.le_of_eq heq.symm⟩
    · left
      by_contra hnot
      rw [windowValues, windowValues, blockThroughput_addOn _ _ hin] at hnot
      have hne : Finset.Ico start' (start' + numBlocks) ≠ Finset.Ico start (start + numBlocks) :=
        fun hblocks => heq (ico_add_injective hpos hblocks)
      have hworse := worseThan_of_lowered hneg (by rw [Nat.card_Ico, Nat.card_Ico]; omega) hne hnot
      exact not_worseThan_chosen hnum h hstart' hworse

theorem exists_minThroughput (throughputs : List ℚ) (h : throughputs ≠ []) :
    ∃ bottleneck, minThroughput throughputs = .ok bottleneck := by
  cases hmin : throughputs.min? with
  | none => exact absurd (List.min?_eq_none_iff.mp hmin) h
  | some bottleneck => exact ⟨bottleneck, by rw [minThroughput, hmin]; rfl⟩

section Fresh

variable {P : Type} [LinearOrder P]

/-- A server whose window is the best one without it does not move. -/
theorem shouldChooseOtherBlocks_of_best {moduleInfos : List (Dht.RemoteModuleInfo P)}
    (hne : moduleInfos ≠ []) {localPeerId : P} {localSpan : Dht.RemoteSpanInfo P}
    (hspan : (Dht.computeSpans moduleInfos .joining).lookup localPeerId = some localSpan)
    (hbest : chooseBestStart
      (addOn (computeThroughputs (Dht.computeSpans moduleInfos .joining) moduleInfos.length)
        localSpan.start localSpan.stop (-(localSpan.throughput * (1 + eps)))) localSpan.length
          = .ok localSpan.start)
    (shuffled : Nat → List P) (fuel : Nat) {balanceQuality : ℚ} (hquality : balanceQuality ≤ 1) :
    shouldChooseOtherBlocks shuffled fuel localPeerId moduleInfos balanceQuality
      = .ok (some false) := by
  let throughputs := computeThroughputs (Dht.computeSpans moduleInfos .joining) moduleInfos.length
  have hlength : throughputs.length ≠ 0 := by
    rw [length_computeThroughputs]
    exact fun hzero => hne (List.length_eq_zero_iff.mp hzero)
  obtain ⟨initialThroughput, hinitial⟩ := exists_minThroughput throughputs
    fun hnil => hlength (by rw [hnil]; rfl)
  obtain ⟨loweredThroughput, hlowered⟩ := exists_minThroughput
    (addOn throughputs localSpan.start localSpan.stop (-(localSpan.throughput * (1 + eps))))
    fun hnil => hlength (by rw [← length_addOn throughputs, hnil]; rfl)
  simp only [shouldChooseOtherBlocks, if_neg (not_lt.mpr hquality), hspan, orRaise, bind,
    Except.bind]
  rw [hinitial]
  simp only
  rw [hlowered]
  simp only
  split
  · rfl
  · rw [hbest]
    exact if_pos rfl

variable {moduleInfos : List (Dht.RemoteModuleInfo P)} {localPeerId : P}
  {serverInfo : Dht.ServerInfo P} {start numBlocks : Nat}

/-- The throughputs with the placed server. -/
theorem computeThroughputs_withEntries
    (habsent : ∀ moduleInfo ∈ moduleInfos, localPeerId ∉ moduleInfo.servers)
    (hspan : (Dht.computeSpans (withEntries moduleInfos localPeerId serverInfo
        (pyRange start (start + numBlocks))) .joining).lookup localPeerId
      = some ⟨localPeerId, start, (start + numBlocks : Nat), serverInfo⟩) (totalBlocks : Nat) :
    computeThroughputs (Dht.computeSpans (withEntries moduleInfos localPeerId serverInfo
        (pyRange start (start + numBlocks))) .joining) totalBlocks
      = addOn (computeThroughputs (Dht.computeSpans moduleInfos .joining) totalBlocks) start
          (start + numBlocks : Nat) serverInfo.throughput := by
  let span : Dht.RemoteSpanInfo P := ⟨localPeerId, start, (start + numBlocks : Nat), serverInfo⟩
  let spans := Dht.computeSpans moduleInfos .joining
  have hnotin : localPeerId ∉ spans :=
    AList.lookup_eq_none.mp (lookup_computeSpans_absent habsent .joining)
  suffices hperm : (Dht.computeSpans (withEntries moduleInfos localPeerId serverInfo
      (pyRange start (start + numBlocks))) .joining).entries.Perm
        (⟨localPeerId, span⟩ :: spans.entries) from computeThroughputs_insert hperm totalBlocks
  rw [← AList.entries_insert_of_notMem hnotin]
  refine List.lookup_ext (AList.nodupKeys _) (AList.nodupKeys _) fun q span' => ?_
  show span' ∈ (Dht.computeSpans _ .joining).lookup q ↔
    span' ∈ (spans.insert localPeerId span).lookup q
  by_cases hq : q = localPeerId
  · subst hq
    rw [hspan, AList.lookup_insert]
  · rw [lookup_withEntries_ne hq, AList.lookup_insert_ne hq]

/-- **A freshly placed server stays where it is.** -/
theorem chooseBestBlocks_stays (moduleInfos : List (Dht.RemoteModuleInfo P)) (localPeerId : P)
    (habsent : ∀ moduleInfo ∈ moduleInfos, localPeerId ∉ moduleInfo.servers) (numBlocks : Nat)
    (hpos : 0 < numBlocks) (hnum : numBlocks ≤ moduleInfos.length) (serverInfo : Dht.ServerInfo P)
    (hstate : serverInfo.state = .joining ∨ serverInfo.state = .online) :
    (∃ blocks, chooseBestBlocks numBlocks moduleInfos = .ok blocks) ∧
      ∀ blocks, chooseBestBlocks numBlocks moduleInfos = .ok blocks →
        Announces serverInfo (blockOffset moduleInfos) blocks →
        ∀ (shuffled : Nat → List P) (fuel : Nat) (balanceQuality : ℚ), balanceQuality ≤ 1 →
          shouldChooseOtherBlocks shuffled fuel localPeerId
            (withEntries moduleInfos localPeerId serverInfo blocks) balanceQuality
              = .ok (some false) := by
  let throughputs := computeThroughputs (Dht.computeSpans moduleInfos .joining) moduleInfos.length
  have hlength : throughputs.length = moduleInfos.length := length_computeThroughputs _ _
  rw [← hlength] at hnum
  obtain ⟨start, hchosen, hin⟩ := exists_chooseBestStart hnum
  have hblocks : chooseBestBlocks numBlocks moduleInfos
      = .ok (pyRange start (start + numBlocks)) := by
    simp only [chooseBestBlocks, bind, Except.bind]
    rw [hchosen]
  refine ⟨⟨_, hblocks⟩, fun blocks hblocks' hannounces shuffled fuel balanceQuality hquality => ?_⟩
  obtain rfl := Except.ok.inj (hblocks.symm.trans hblocks')
  have hvalue : ServerState.joining.value ≤ serverInfo.state.value := by
    rcases hstate with h | h
    · rw [h]
    · rw [h]
      decide
  have hspan := lookup_withEntries_self habsent hvalue hpos (hlength ▸ hin) hannounces
  have hthroughputs := computeThroughputs_withEntries habsent hspan moduleInfos.length
  -- the throughputs without the server, and with the penalty
  let lowered := addOn throughputs start (start + numBlocks : Nat)
    (-(serverInfo.throughput * eps))
  have hlowered : addOn (addOn throughputs start (start + numBlocks : Nat) serverInfo.throughput)
      start (start + numBlocks : Nat) (-(serverInfo.throughput * (1 + eps))) = lowered := by
    refine ext_blockThroughput (by simp only [lowered, length_addOn]) ?_
    rw [blockThroughput_addOn _ _ (by rw [length_addOn]; exact hin),
      blockThroughput_addOn _ _ hin, blockThroughput_addOn _ _ hin, raiseOn_raiseOn]
    congr 1
    ring
  have hagain : chooseBestStart lowered numBlocks = .ok start := by
    refine chooseBestStart_lowered hpos hnum hchosen (neg_nonpos.mpr ?_)
    exact mul_nonneg serverInfo.throughput.2 (by decide +kernel)
  refine shouldChooseOtherBlocks_of_best ?_ hspan ?_ shuffled fuel hquality
  · intro hnil
    have hzero := congrArg List.length hnil
    rw [length_withEntries, List.length_nil] at hzero
    omega
  · have hnumBlocks : ((start + numBlocks : Nat) : Int) - start = numBlocks := by omega
    rw [length_withEntries, hthroughputs]
    show chooseBestStart (addOn (addOn throughputs start (start + numBlocks : Nat)
      serverInfo.throughput) start (start + numBlocks : Nat) (-(serverInfo.throughput * (1 + eps))))
        (((start + numBlocks : Nat) : Int) - start) = .ok start
    rw [hlowered, hnumBlocks]
    exact hagain

/-- Three blocks, the first of them with a server, and a new server of two blocks. -/
theorem chooseBestBlocks_stays_two :
    let moduleInfos : List (Dht.RemoteModuleInfo Nat) :=
      [⟨0, (∅ : AList _).insert 7 ⟨.online, 1, none, none, none, none, none⟩⟩, ⟨1, ∅⟩, ⟨2, ∅⟩]
    shouldChooseOtherBlocks (fun _ => [3, 7]) 10 3
        (withEntries moduleInfos 3 ⟨.joining, 1, some 1, some 3, none, none, none⟩ [1, 2]) 1
      = .ok (some false) := by
  refine (chooseBestBlocks_stays _ 3 ?_ 2 (by decide) (by decide) _ (Or.inl rfl)).2 [1, 2] ?_
    ⟨rfl, rfl⟩ _ _ _ le_rfl
  · intro moduleInfo hmem
    simp only [List.mem_cons, List.not_mem_nil, or_false] at hmem
    rcases hmem with rfl | rfl | rfl <;> decide
  · decide +kernel

end Fresh

end Drift
