/-
  `RemoteSequenceManager._make_sequence_with_max_throughput` of
  `client/routing/sequence_manager.py`: a route of spans through the blocks `[start, end)`.

  The router walks from block to block: it draws a span among those that contain the current block
  and goes on behind it.  The draw is random, with weights; below it is an argument, so that a
  statement about every draw is a statement about every weight.

  The last span may reach behind `end`.  The callers trim it, and then the route tiles the blocks
  asked for (`makeSequence_tiles`).
-/
import Drift.Python

namespace Drift

/-- `data_structures.RemoteSpanInfo`: the blocks `[start, stop)` of one peer. -/
structure RemoteSpanInfo where
  peerId : Nat
  start : Nat
  stop : Nat
deriving DecidableEq, Repr

/-- What a call of `make_sequence` depends on: `spans_containing_block`, and the draw at every
    block. -/
structure RoutingTable where
  spansContainingBlock : List (List RemoteSpanInfo)
  choice : Nat → Nat

/-- The loop of `_make_sequence_with_max_throughput`.  Every round gets one block further at
    least. -/
def makeSequenceLoop (table : RoutingTable) (endIndex : Nat) : Nat → Nat →
    Except PyExc (List RemoteSpanInfo)
  | 0, _ => .ok []
  | fuel + 1, currentIndex =>
    if currentIndex < endIndex then do
      let candidateSpans ← orRaise .indexError table.spansContainingBlock[currentIndex]?
      let chosenSpan ← orRaise (.missingBlocks [currentIndex])
        candidateSpans[table.choice currentIndex % candidateSpans.length]?
      if chosenSpan.start ≤ currentIndex ∧ currentIndex < chosenSpan.stop then do
        let rest ← makeSequenceLoop table endIndex fuel chosenSpan.stop
        .ok ({ chosenSpan with start := currentIndex } :: rest)
      else .error (.assertionError "")
    else .ok []

/-- `make_sequence(start_index, end_index, mode="max_throughput")`. -/
def makeSequence (table : RoutingTable) (startIndex endIndex : Nat) :
    Except PyExc (List RemoteSpanInfo) :=
  makeSequenceLoop table endIndex (endIndex - startIndex) startIndex

/-- `sequences[-1].end = min(sequences[-1].end, end_index)`. -/
def trimLast (endIndex : Nat) : List RemoteSpanInfo → Option (List RemoteSpanInfo)
  | [] => none
  | [span] => some [{ span with stop := min span.stop endIndex }]
  | span :: next :: spans => (trimLast endIndex (next :: spans)).map (span :: ·)

/-! ## A route is a tiling -/

/-- The spans follow each other from block `lo` to block `hi`, and none is empty. -/
def Tiles : Nat → List RemoteSpanInfo → Nat → Prop
  | lo, [], hi => lo = hi
  | lo, span :: spans, hi => span.start = lo ∧ span.start < span.stop ∧ Tiles span.stop spans hi

theorem Tiles.le : ∀ {spans : List RemoteSpanInfo} {lo hi : Nat}, Tiles lo spans hi → lo ≤ hi
  | [], _, _, h => Nat.le_of_eq h
  | _ :: _, _, _, h => by
    obtain ⟨rfl, hlt, hrest⟩ := h
    exact Nat.le_trans (Nat.le_of_lt hlt) hrest.le

/-- There are no spans between a block and itself. -/
theorem Tiles.eq_nil : ∀ {spans : List RemoteSpanInfo} {lo : Nat}, Tiles lo spans lo → spans = []
  | [], _, _ => rfl
  | _ :: _, _, h => by
    obtain ⟨rfl, hlt, hrest⟩ := h
    exact absurd hrest.le (Nat.not_le_of_lt hlt)

/-- Every span has a block of its own. -/
theorem Tiles.length_le : ∀ {spans : List RemoteSpanInfo} {lo hi : Nat}, Tiles lo spans hi →
    lo + spans.length ≤ hi
  | [], _, _, h => Nat.le_of_eq h
  | _ :: spans, _, _, h => by
    obtain ⟨rfl, hlt, hrest⟩ := h
    have hlength := hrest.length_le
    rw [List.length_cons]
    omega

theorem tiles_append : ∀ {xs ys : List RemoteSpanInfo} {lo hi : Nat},
    Tiles lo (xs ++ ys) hi ↔ ∃ mid, Tiles lo xs mid ∧ Tiles mid ys hi
  | [], ys, lo, hi => by
    constructor
    · intro h
      exact ⟨lo, rfl, h⟩
    · rintro ⟨mid, rfl, h⟩
      exact h
  | span :: xs, ys, lo, hi => by
    constructor
    · rintro ⟨hstart, hlt, hrest⟩
      obtain ⟨mid, hxs, hys⟩ := tiles_append.mp hrest
      exact ⟨mid, ⟨hstart, hlt, hxs⟩, hys⟩
    · rintro ⟨mid, ⟨hstart, hlt, hxs⟩, hys⟩
      exact ⟨hstart, hlt, tiles_append.mpr ⟨mid, hxs, hys⟩⟩

theorem tiles_concat {spans : List RemoteSpanInfo} {span : RemoteSpanInfo} {lo hi : Nat} :
    Tiles lo (spans ++ [span]) hi ↔
      Tiles lo spans span.start ∧ span.start < span.stop ∧ span.stop = hi := by
  rw [tiles_append]
  constructor
  · rintro ⟨mid, hspans, rfl, hlt, hhi⟩
    exact ⟨hspans, hlt, hhi⟩
  · rintro ⟨hspans, hlt, hhi⟩
    exact ⟨span.start, hspans, rfl, hlt, hhi⟩

/-- A tiling of some blocks begins and ends with them. -/
theorem Tiles.ends {spans : List RemoteSpanInfo} {lo hi : Nat} (h : Tiles lo spans hi)
    (hlt : lo < hi) : ∃ first last, spans.head? = some first ∧ spans.getLast? = some last ∧
      first.start = lo ∧ last.stop = hi := by
  rcases List.eq_nil_or_concat' spans with rfl | ⟨init, last, rfl⟩
  · exact absurd h (Nat.ne_of_lt hlt)
  obtain ⟨-, -, hlast⟩ := tiles_concat.mp h
  cases init with
  | nil => exact ⟨last, last, rfl, rfl, h.1, hlast⟩
  | cons first init => exact ⟨first, last, rfl, List.getLast?_concat, h.1, hlast⟩

/-- Every span of a tiling lies inside. -/
theorem Tiles.bounds : ∀ {spans : List RemoteSpanInfo} {lo hi : Nat}, Tiles lo spans hi →
    ∀ span ∈ spans, lo ≤ span.start ∧ span.start < span.stop ∧ span.stop ≤ hi
  | span :: spans, _, _, h, span', hmem => by
    obtain ⟨rfl, hlt, hrest⟩ := h
    rcases List.mem_cons.mp hmem with rfl | hmem
    · exact ⟨Nat.le_refl _, hlt, hrest.le⟩
    · obtain ⟨hlo, hlt', hhi⟩ := hrest.bounds span' hmem
      exact ⟨by omega, hlt', hhi⟩

/-- What a round of the loop draws: a span that contains the block. -/
theorem makeSequenceLoop_cons {table : RoutingTable} {endIndex fuel currentIndex : Nat}
    {spans : List RemoteSpanInfo} (hlt : currentIndex < endIndex)
    (h : makeSequenceLoop table endIndex (fuel + 1) currentIndex = .ok spans) :
    ∃ (chosen : RemoteSpanInfo) (rest : List RemoteSpanInfo),
      currentIndex < chosen.stop ∧ makeSequenceLoop table endIndex fuel chosen.stop = .ok rest ∧
      spans = { chosen with start := currentIndex } :: rest ∧
      chosen ∈ table.spansContainingBlock.getD currentIndex [] := by
  rw [makeSequenceLoop, if_pos hlt] at h
  cases hcandidates : table.spansContainingBlock[currentIndex]? with
  | none =>
    rw [hcandidates] at h
    cases h
  | some candidates =>
    rw [hcandidates] at h
    cases hchosen : candidates[table.choice currentIndex % candidates.length]? with
    | none =>
      simp only [orRaise, Except.bind, bind, hchosen] at h
      cases h
    | some chosen =>
      simp only [orRaise, Except.bind, bind, hchosen] at h
      split at h
      · rename_i hin
        cases hrest : makeSequenceLoop table endIndex fuel chosen.stop with
        | error exc =>
          rw [hrest] at h
          cases h
        | ok rest =>
          rw [hrest] at h
          refine ⟨chosen, rest, hin.2, hrest, (Except.ok.inj h).symm, ?_⟩
          rw [List.getD_eq_getElem?_getD, hcandidates]
          exact List.mem_of_getElem? hchosen
      · cases h

theorem makeSequenceLoop_of_le {table : RoutingTable} {endIndex fuel currentIndex : Nat}
    (hle : endIndex ≤ currentIndex) :
    makeSequenceLoop table endIndex fuel currentIndex = .ok [] := by
  cases fuel with
  | zero => rfl
  | succ fuel => rw [makeSequenceLoop, if_neg (by omega)]

theorem makeSequenceLoop_tiles {table : RoutingTable} {endIndex : Nat} :
    ∀ {fuel currentIndex : Nat} {spans : List RemoteSpanInfo}, currentIndex < endIndex →
      endIndex - currentIndex ≤ fuel →
      makeSequenceLoop table endIndex fuel currentIndex = .ok spans →
      ∃ route, trimLast endIndex spans = some route ∧ Tiles currentIndex route endIndex
  | 0, currentIndex, _, hlt, hfuel, _ => absurd hfuel (by omega)
  | fuel + 1, currentIndex, spans, hlt, hfuel, h => by
    obtain ⟨chosen, rest, hstop, hrest, rfl, -⟩ := makeSequenceLoop_cons hlt h
    by_cases hmore : chosen.stop < endIndex
    · obtain ⟨route, htrim, htiles⟩ := makeSequenceLoop_tiles hmore (by omega) hrest
      cases rest with
      | nil => nomatch htrim
      | cons next rest =>
        refine ⟨{ chosen with start := currentIndex } :: route, ?_, rfl, hstop, htiles⟩
        rw [trimLast, htrim]
        rfl
    · -- the walk is over behind this span
      rw [makeSequenceLoop_of_le (by omega)] at hrest
      obtain rfl := Except.ok.inj hrest
      refine ⟨_, rfl, rfl, ?_, ?_⟩
      · show currentIndex < min chosen.stop endIndex
        omega
      · show min chosen.stop endIndex = endIndex
        omega

/-- **A trimmed route tiles the blocks asked for.** -/
theorem makeSequence_tiles {table : RoutingTable} {startIndex endIndex : Nat}
    {spans : List RemoteSpanInfo} (hlt : startIndex < endIndex)
    (h : makeSequence table startIndex endIndex = .ok spans) :
    ∃ route, trimLast endIndex spans = some route ∧ Tiles startIndex route endIndex :=
  makeSequenceLoop_tiles hlt (Nat.le_refl _) h

/-! ## When there is a route -/

/-- The swarm serves every block, and the table says so: it lists spans for each, and each of
    them contains the block. -/
def RoutingTable.Complete (table : RoutingTable) (numBlocks : Nat) : Prop :=
  ∀ b, b < numBlocks → ∃ spans, table.spansContainingBlock[b]? = some spans ∧ spans ≠ [] ∧
    ∀ span ∈ spans, span.start ≤ b ∧ b < span.stop

theorem makeSequenceLoop_complete {table : RoutingTable} {numBlocks endIndex : Nat}
    (htable : table.Complete numBlocks) (hend : endIndex ≤ numBlocks) :
    ∀ fuel currentIndex : Nat,
      ∃ spans, makeSequenceLoop table endIndex fuel currentIndex = .ok spans
  | 0, _ => ⟨[], rfl⟩
  | fuel + 1, currentIndex => by
    rw [makeSequenceLoop]
    split
    · rename_i hlt
      obtain ⟨candidates, hcandidates, hne, hcontain⟩ := htable currentIndex (by omega)
      have hpos : 0 < candidates.length := List.length_pos_iff.mpr hne
      have hindex : table.choice currentIndex % candidates.length < candidates.length :=
        Nat.mod_lt _ hpos
      obtain ⟨chosen, hchosen⟩ : ∃ chosen,
          candidates[table.choice currentIndex % candidates.length]? = some chosen :=
        ⟨_, List.getElem?_eq_getElem hindex⟩
      have hin := hcontain chosen (List.mem_of_getElem? hchosen)
      obtain ⟨rest, hrest⟩ := makeSequenceLoop_complete htable hend fuel chosen.stop
      refine ⟨{ chosen with start := currentIndex } :: rest, ?_⟩
      simp only [hcandidates, orRaise, bind, Except.bind, hchosen, if_pos hin, hrest]
    · exact ⟨[], rfl⟩

/-- A complete table has a route between any two blocks. -/
theorem makeSequence_complete {table : RoutingTable} {numBlocks endIndex : Nat}
    (htable : table.Complete numBlocks) (startIndex : Nat) (hend : endIndex ≤ numBlocks) :
    ∃ spans, makeSequence table startIndex endIndex = .ok spans :=
  makeSequenceLoop_complete htable hend _ _

end Drift
