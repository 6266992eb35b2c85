/-
  `RemoteSequenceInfo` of `client/routing/sequence_info.py`: which servers hold which blocks.

  Whatever the servers announce, the lists of `spans_containing_block` are consistent
  (`HostTable`): a span is listed at the blocks that it contains and nowhere else, it does not reach
  behind the last block, and a peer has one span.  The two routers rely on nothing else.
-/
import Drift.Client.Routing
import Drift.Utils.Dht

namespace Drift

section SortSpans

variable {P : Type} [LinearOrder P]

/-- `spans_by_priority`: the spans of the servers that are online, the longest first, and those of
    one length in the order of the dict, whose newest entry is the first one here. -/
def spansByPriority (blockInfos : List (Dht.RemoteModuleInfo P)) : List (Dht.RemoteSpanInfo P) :=
  ((Dht.computeSpans blockInfos .online).entries.reverse.map (·.2)).insertionSort
    fun span span' => span'.length ≤ span.length

/-- The inner loop of `_sort_spans`.  No span reaches behind the table. -/
def appendSpan (table : List (List (Dht.RemoteSpanInfo P))) (span : Dht.RemoteSpanInfo P) :
    List (List (Dht.RemoteSpanInfo P)) :=
  (pyRange span.start span.stop).foldl
    (fun table blockIndex => table.modify blockIndex.toNat (· ++ [span])) table

/-- `spans_containing_block`. -/
def spansContainingBlock (blockInfos : List (Dht.RemoteModuleInfo P)) :
    List (List (Dht.RemoteSpanInfo P)) :=
  (spansByPriority blockInfos).foldl appendSpan (List.replicate blockInfos.length [])

/-! ## What is listed where -/

variable {blockInfos : List (Dht.RemoteModuleInfo P)} {span : Dht.RemoteSpanInfo P}

/-- The spans are those that `compute_spans` found, one for a peer. -/
theorem mem_spansByPriority :
    span ∈ spansByPriority blockInfos ↔
      (Dht.computeSpans blockInfos .online).lookup span.peerId = some span := by
  rw [spansByPriority, (List.perm_insertionSort _ _).mem_iff, List.mem_map]
  constructor
  · rintro ⟨⟨peerId, span⟩, hentry, rfl⟩
    have hlookup := AList.mem_lookup_iff.mpr (List.mem_reverse.mp hentry)
    rw [(Dht.lookup_computeSpans_bounds hlookup).1]
    exact hlookup
  · intro hlookup
    exact ⟨⟨span.peerId, span⟩, List.mem_reverse.mpr (AList.mem_lookup_iff.mp hlookup), rfl⟩

omit [LinearOrder P] in
theorem length_appendSpan (table : List (List (Dht.RemoteSpanInfo P))) :
    (appendSpan table span).length = table.length := by
  rw [appendSpan]
  induction pyRange span.start span.stop generalizing table with
  | nil => rfl
  | cons b bs ih => rw [List.foldl_cons, ih, List.length_modify]

omit [LinearOrder P] in
theorem mem_foldl_modify (span' : Dht.RemoteSpanInfo P) {b : Nat} :
    ∀ (indices : List Int) (table : List (List (Dht.RemoteSpanInfo P))),
      (∀ i ∈ indices, 0 ≤ i) → b < table.length →
      (span' ∈ (indices.foldl (fun table i => table.modify i.toNat (· ++ [span])) table).getD b [] ↔
        span' ∈ table.getD b [] ∨ span' = span ∧ (b : Int) ∈ indices) := by
  intro indices
  induction indices with
  | nil =>
    intro table _ _
    simp
  | cons i indices ih =>
    intro table hindices hb
    have hi := hindices i List.mem_cons_self
    rw [List.foldl_cons, ih _ (fun j hj => hindices j (List.mem_cons_of_mem _ hj))
      (by rw [List.length_modify]; exact hb), List.getD_eq_getElem?_getD, List.getElem?_modify,
      List.getElem?_eq_getElem hb, List.getD_eq_getElem?_getD, List.getElem?_eq_getElem hb]
    by_cases heq : i = b
    · subst heq
      simp
      tauto
    · have hne : ¬ i.toNat = b := by omega
      have hne' : ¬ (b : Int) = i := fun h => heq h.symm
      simp [hne, hne']

omit [LinearOrder P] in
theorem mem_foldl_appendSpan (span' : Dht.RemoteSpanInfo P) {b : Nat} :
    ∀ (spans : List (Dht.RemoteSpanInfo P)) (table : List (List (Dht.RemoteSpanInfo P))),
      b < table.length →
      (span' ∈ (spans.foldl appendSpan table).getD b [] ↔
        span' ∈ table.getD b [] ∨ span' ∈ spans ∧ span'.start ≤ b ∧ (b : Int) < span'.stop) := by
  intro spans
  induction spans with
  | nil =>
    intro table _
    simp
  | cons span spans ih =>
    intro table hb
    have hnonneg : ∀ i ∈ pyRange span.start span.stop, 0 ≤ i := by
      intro i hi
      have hlo := (mem_pyRange.mp hi).1
      omega
    rw [List.foldl_cons, ih _ (by rw [length_appendSpan]; exact hb), appendSpan,
      mem_foldl_modify span' _ table hnonneg hb, mem_pyRange, List.mem_cons]
    constructor
    · rintro ((hmem | ⟨rfl, hlo, hhi⟩) | ⟨hmem, hin⟩)
      · exact Or.inl hmem
      · exact Or.inr ⟨Or.inl rfl, by omega, hhi⟩
      · exact Or.inr ⟨Or.inr hmem, hin⟩
    · rintro (hmem | ⟨rfl | hmem, hlo, hhi⟩)
      · exact Or.inl (Or.inl hmem)
      · exact Or.inl (Or.inr ⟨rfl, by omega, hhi⟩)
      · exact Or.inr ⟨hmem, hlo, hhi⟩

theorem length_spansContainingBlock :
    (spansContainingBlock blockInfos).length = blockInfos.length := by
  have hall : ∀ (spans : List (Dht.RemoteSpanInfo P)) (table : List (List (Dht.RemoteSpanInfo P))),
      (spans.foldl appendSpan table).length = table.length := by
    intro spans
    induction spans with
    | nil => exact fun _ => rfl
    | cons span spans ih =>
      intro table
      rw [List.foldl_cons, ih, length_appendSpan]
  rw [spansContainingBlock, hall, List.length_replicate]

/-- **A span is listed at the blocks that it contains.** -/
theorem mem_spansContainingBlock {b : Nat} :
    span ∈ (spansContainingBlock blockInfos).getD b [] ↔
      span ∈ spansByPriority blockInfos ∧ span.start ≤ b ∧ (b : Int) < span.stop := by
  by_cases hb : b < blockInfos.length
  · rw [spansContainingBlock, mem_foldl_appendSpan _ _ _ (by rw [List.length_replicate]; exact hb)]
    simp [List.getD_eq_getElem?_getD, hb]
  · rw [List.getD_eq_getElem?_getD, List.getElem?_eq_none
      (by rw [length_spansContainingBlock]; omega)]
    constructor
    · intro h
      nomatch h
    · rintro ⟨hmem, -, hlt⟩
      have hstop := (Dht.lookup_computeSpans_bounds (mem_spansByPriority.mp hmem)).2
      omega

end SortSpans

/-! ## The table of a router -/

/-- A span as the routers use it. -/
def toRoute (span : Dht.RemoteSpanInfo Nat) : RemoteSpanInfo :=
  ⟨span.peerId, span.start, span.stop.toNat⟩

/-- `spans_containing_block`, for the routers. -/
def routingSpans (blockInfos : List (Dht.RemoteModuleInfo Nat)) : List (List RemoteSpanInfo) :=
  (spansContainingBlock blockInfos).map fun spans => spans.map toRoute

/-- A span is listed at the blocks that it contains, and a peer has one span. -/
structure HostTable (table : List (List RemoteSpanInfo)) : Prop where
  contains : ∀ b, ∀ span ∈ table.getD b [], span.start ≤ b ∧ b < span.stop
  everywhere : ∀ b, ∀ span ∈ table.getD b [], ∀ b', span.start ≤ b' → b' < span.stop →
    span ∈ table.getD b' []
  onePerPeer : ∀ b b', ∀ span ∈ table.getD b [], ∀ span' ∈ table.getD b' [],
    span.peerId = span'.peerId → span = span'

theorem mem_routingSpans {blockInfos : List (Dht.RemoteModuleInfo Nat)} {b : Nat}
    {span : RemoteSpanInfo} :
    span ∈ (routingSpans blockInfos).getD b [] ↔
      ∃ host ∈ (spansContainingBlock blockInfos).getD b [], toRoute host = span := by
  rw [routingSpans, List.getD_eq_getElem?_getD, List.getElem?_map, List.getD_eq_getElem?_getD]
  cases (spansContainingBlock blockInfos)[b]? with
  | none => simp
  | some spans => exact List.mem_map

/-- **The table of the block infos** is consistent, whatever the servers announce. -/
theorem hostTable_routingSpans (blockInfos : List (Dht.RemoteModuleInfo Nat)) :
    HostTable (routingSpans blockInfos) := by
  constructor
  · intro b span hspan
    obtain ⟨host, hhost, rfl⟩ := mem_routingSpans.mp hspan
    obtain ⟨-, hlo, hhi⟩ := mem_spansContainingBlock.mp hhost
    refine ⟨hlo, ?_⟩
    show b < host.stop.toNat
    omega
  · intro b span hspan b' hlo' hhi'
    obtain ⟨host, hhost, rfl⟩ := mem_routingSpans.mp hspan
    obtain ⟨hmem, -, -⟩ := mem_spansContainingBlock.mp hhost
    have hhi : b' < host.stop.toNat := hhi'
    exact mem_routingSpans.mpr
      ⟨host, mem_spansContainingBlock.mpr ⟨hmem, hlo', by omega⟩, rfl⟩
  · intro b b' span hspan span' hspan' hpeer
    obtain ⟨host, hhost, rfl⟩ := mem_routingSpans.mp hspan
    obtain ⟨host', hhost', rfl⟩ := mem_routingSpans.mp hspan'
    have hlookup := mem_spansByPriority.mp (mem_spansContainingBlock.mp hhost).1
    have hlookup' := mem_spansByPriority.mp (mem_spansContainingBlock.mp hhost').1
    rw [show host.peerId = host'.peerId from hpeer, hlookup'] at hlookup
    rw [Option.some.inj hlookup]

end Drift
