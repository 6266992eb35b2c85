/-
  The simulation in `should_choose_other_blocks` of `server/block_selection.py` terminates.

  Every pass lets each server go to its best window, in an order that is drawn anew.  What gets
  better all the time is the bag of all throughputs, in the leximin order: a server that moves
  leaves its window, lowered by a little more than its own throughput, for a worse one, and so the
  whole is better behind the move than before (`Turn.improves`).

  A server without throughput changes nothing when it moves.  But once it had its turn it is on the
  best window of throughputs that stay what they are until a server with throughput moves, and it
  moves no more before (`Turn.settled`).  So of two passes that both move somebody the second ends
  with better throughputs than the first began with (`pass_pass_improves`), and there are finitely
  many throughputs to be reached.
-/
import Drift.Server.BlockSelection
import Mathlib.Algebra.BigOperators.Group.Finset.Basic
import Mathlib.Data.Fintype.Pi
import Mathlib.Order.WellFoundedSet
import Mathlib.Tactic.Ring

namespace Drift

namespace SimulatedSwarm

variable {P : Type} [LinearOrder P]

/-! ## One turn -/

/-- Where the span of a server starts. -/
def start (swarm : SimulatedSwarm P) (peerId : P) : Nat :=
  ((swarm.spans.lookup peerId).map (·.start)).getD 0

def numBlocks (swarm : SimulatedSwarm P) (peerId : P) : Nat :=
  ((swarm.spans.lookup peerId).map fun span => span.length.toNat).getD 0

def throughput (swarm : SimulatedSwarm P) (peerId : P) : ℚ :=
  ((swarm.spans.lookup peerId).map (·.throughput)).getD 0

/-- The blocks of a server. -/
def blocks (swarm : SimulatedSwarm P) (peerId : P) : Finset Nat :=
  Finset.Ico (swarm.start peerId) (swarm.start peerId + swarm.numBlocks peerId)

/-- Every span is non-empty and lies inside the model. -/
def Fits (swarm : SimulatedSwarm P) : Prop :=
  ∀ peerId span, swarm.spans.lookup peerId = some span →
    (span.start : Int) < span.stop ∧ span.stop ≤ swarm.throughputs.length

/-- What a turn of `peerId` does to the swarm. -/
structure Turn (swarm : SimulatedSwarm P) (peerId : P) (swarm' : SimulatedSwarm P) : Prop where
  length_eq : swarm'.throughputs.length = swarm.throughputs.length
  mem_iff : ∀ q, q ∈ swarm'.spans ↔ q ∈ swarm.spans
  numBlocks_eq : ∀ q, swarm'.numBlocks q = swarm.numBlocks q
  throughput_eq : ∀ q, swarm'.throughput q = swarm.throughput q
  start_eq : ∀ q, q ≠ peerId → swarm'.start q = swarm.start q
  fits : swarm'.Fits
  /-- The server is on the window that is best without it. -/
  chosen : chooseBestStart
    (addOn swarm.throughputs (swarm.start peerId)
      (swarm.start peerId + swarm.numBlocks peerId : Nat) (-(swarm.throughput peerId * (1 + eps))))
    (swarm.numBlocks peerId) = .ok (swarm'.start peerId)
  blockThroughput_eq : blockThroughput swarm'.throughputs
    = raiseOn (raiseOn (blockThroughput swarm.throughputs) (-swarm.throughput peerId)
        (swarm.blocks peerId)) (swarm.throughput peerId) (swarm'.blocks peerId)

/-- The span of a server that fits. -/
theorem Fits.span {swarm : SimulatedSwarm P} (h : swarm.Fits) {peerId : P}
    {span : Dht.RemoteSpanInfo P} (hspan : swarm.spans.lookup peerId = some span) :
    span.start = swarm.start peerId ∧ span.throughput = swarm.throughput peerId ∧
      span.length = swarm.numBlocks peerId ∧
      span.stop = (swarm.start peerId + swarm.numBlocks peerId : Nat) ∧
      0 < swarm.numBlocks peerId ∧
      swarm.start peerId + swarm.numBlocks peerId ≤ swarm.throughputs.length := by
  obtain ⟨hlt, hle⟩ := h peerId span hspan
  have hstart : swarm.start peerId = span.start := by rw [start, hspan]; rfl
  have hnum : swarm.numBlocks peerId = span.length.toNat := by rw [numBlocks, hspan]; rfl
  have hthroughput : swarm.throughput peerId = span.throughput := by rw [throughput, hspan]; rfl
  have hlength : span.length = span.stop - span.start := rfl
  rw [hstart, hnum, hthroughput]
  refine ⟨rfl, rfl, ?_, ?_, ?_, ?_⟩ <;> omega

/-- A turn, given the start that is chosen: the span is moved, if only to where it is. -/
theorem turn_eq {swarm : SimulatedSwarm P} {peerId : P} {span : Dht.RemoteSpanInfo P}
    {newStart : Nat} (hspan : swarm.spans.lookup peerId = some span)
    (hchosen : chooseBestStart
      (addOn swarm.throughputs span.start span.stop (-(span.throughput * (1 + eps)))) span.length
        = .ok newStart) :
    swarm.turn peerId = .ok (⟨addOn (addOn (addOn swarm.throughputs span.start span.stop
        (-(span.throughput * (1 + eps)))) span.start span.stop (span.throughput * eps))
        newStart (newStart + span.length) span.throughput,
      swarm.spans.insert peerId (moveSpan span newStart)⟩, decide (span.start ≠ newStart)) := by
  have hmove : (if decide (span.start ≠ newStart) then moveSpan span newStart else span)
      = moveSpan span newStart := by
    by_cases heq : span.start = newStart
    · have hsame : (span.start : Int) + span.length = span.stop := by
        rw [Dht.RemoteSpanInfo.length]
        omega
      rw [if_neg (by simp [heq]), moveSpan, ← heq, hsame]
    · exact if_pos (by simp [heq])
  simp only [turn, hspan, orRaise, hchosen, bind, Except.bind, hmove]
  rfl

/-- The swarm with the span of one server moved. -/
def withMoved (swarm : SimulatedSwarm P) (throughputs : List ℚ) (peerId : P)
    (span : Dht.RemoteSpanInfo P) (newStart : Nat) : SimulatedSwarm P :=
  ⟨throughputs, swarm.spans.insert peerId (moveSpan span newStart)⟩

section Moved

variable {swarm : SimulatedSwarm P} {throughputs : List ℚ} {peerId : P}
  {span : Dht.RemoteSpanInfo P} {newStart : Nat}

theorem lookup_withMoved_self :
    (swarm.withMoved throughputs peerId span newStart).spans.lookup peerId
      = some (moveSpan span newStart) := AList.lookup_insert _

theorem lookup_withMoved_ne {q : P} (h : q ≠ peerId) :
    (swarm.withMoved throughputs peerId span newStart).spans.lookup q = swarm.spans.lookup q :=
  AList.lookup_insert_ne h

omit [LinearOrder P] in
@[simp] theorem length_moveSpan : (moveSpan span newStart).length = span.length := by
  show ((newStart : Int) + span.length) - newStart = span.length
  omega

theorem start_withMoved_self :
    (swarm.withMoved throughputs peerId span newStart).start peerId = newStart := by
  rw [start, lookup_withMoved_self]
  rfl

theorem start_withMoved_ne {q : P} (h : q ≠ peerId) :
    (swarm.withMoved throughputs peerId span newStart).start q = swarm.start q := by
  rw [start, start, lookup_withMoved_ne h]

/-- A move changes where a server sits, never how many blocks it holds. -/
theorem numBlocks_withMoved (hspan : swarm.spans.lookup peerId = some span) (q : P) :
    (swarm.withMoved throughputs peerId span newStart).numBlocks q = swarm.numBlocks q := by
  by_cases hq : q = peerId
  · subst hq
    rw [numBlocks, numBlocks, lookup_withMoved_self, hspan]
    show (moveSpan span newStart).length.toNat = span.length.toNat
    rw [length_moveSpan]
  · rw [numBlocks, numBlocks, lookup_withMoved_ne hq]

/-- A move keeps every server's throughput. -/
theorem throughput_withMoved (hspan : swarm.spans.lookup peerId = some span) (q : P) :
    (swarm.withMoved throughputs peerId span newStart).throughput q = swarm.throughput q := by
  by_cases hq : q = peerId
  · subst hq
    rw [throughput, throughput, lookup_withMoved_self, hspan]
    rfl
  · rw [throughput, throughput, lookup_withMoved_ne hq]

theorem mem_withMoved (hspan : swarm.spans.lookup peerId = some span) (q : P) :
    q ∈ (swarm.withMoved throughputs peerId span newStart).spans ↔ q ∈ swarm.spans := by
  rw [withMoved, AList.mem_insert]
  constructor
  · rintro (rfl | hq)
    · exact AList.lookup_isSome.mp (by rw [hspan]; rfl)
    · exact hq
  · exact Or.inr

/-- A server moved to a start that leaves room for its span keeps every span inside the swarm. -/
theorem fits_withMoved (hfits : swarm.Fits) (hspan : swarm.spans.lookup peerId = some span)
    (hlength : throughputs.length = swarm.throughputs.length)
    (hin : newStart + span.length ≤ swarm.throughputs.length) :
    (swarm.withMoved throughputs peerId span newStart).Fits := by
  intro q span' hspan'
  rw [show (swarm.withMoved throughputs peerId span newStart).throughputs.length
    = swarm.throughputs.length from hlength]
  by_cases hq : q = peerId
  · subst hq
    rw [lookup_withMoved_self] at hspan'
    obtain rfl := Option.some.inj hspan'
    have hpos := (hfits q span hspan).1
    refine ⟨?_, hin⟩
    show (newStart : Int) < newStart + span.length
    rw [Dht.RemoteSpanInfo.length]
    omega
  · rw [lookup_withMoved_ne hq] at hspan'
    exact hfits q span' hspan'

end Moved

/-- **What a turn does.** -/
theorem turn_spec {swarm : SimulatedSwarm P} (hfits : swarm.Fits) {peerId : P}
    (hmem : peerId ∈ swarm.spans) : ∃ swarm',
      swarm.turn peerId = .ok (swarm', decide (swarm.start peerId ≠ swarm'.start peerId)) ∧
      Turn swarm peerId swarm' := by
  obtain ⟨span, hspan⟩ := Option.isSome_iff_exists.mp (AList.lookup_isSome.mpr hmem)
  obtain ⟨hstart, hthroughput, hlength, hstop, hpos, hin⟩ := hfits.span hspan
  let lowered := addOn swarm.throughputs (swarm.start peerId)
    (swarm.start peerId + swarm.numBlocks peerId : Nat) (-(swarm.throughput peerId * (1 + eps)))
  have hlowered : lowered.length = swarm.throughputs.length := length_addOn _ _ _ _
  obtain ⟨newStart, hchosen, hnew⟩ :=
    exists_chooseBestStart (by omega : swarm.numBlocks peerId ≤ lowered.length)
  rw [hlowered] at hnew
  let raised := addOn lowered (swarm.start peerId)
    (swarm.start peerId + swarm.numBlocks peerId : Nat) (swarm.throughput peerId * eps)
  have hraised : raised.length = swarm.throughputs.length := by
    rw [length_addOn, hlowered]
  let throughputs := addOn raised newStart (newStart + swarm.numBlocks peerId : Nat)
    (swarm.throughput peerId)
  have hthroughputs : throughputs.length = swarm.throughputs.length := by
    rw [length_addOn, hraised]
  have hstart' : (swarm.withMoved throughputs peerId span newStart).start peerId = newStart :=
    start_withMoved_self
  refine ⟨swarm.withMoved throughputs peerId span newStart, ?_, ?_⟩
  · have hchosen' : chooseBestStart (addOn swarm.throughputs span.start span.stop
        (-(span.throughput * (1 + eps)))) span.length = .ok newStart := by
      rw [hstart, hstop, hthroughput, hlength]
      exact hchosen
    have hturn := turn_eq hspan hchosen'
    rw [hstart, hstop, hthroughput, hlength] at hturn
    rw [hturn, hstart']
    rfl
  · refine ⟨hthroughputs, mem_withMoved hspan, numBlocks_withMoved hspan,
      throughput_withMoved hspan, fun q hq => start_withMoved_ne hq,
      fits_withMoved hfits hspan hthroughputs ?_, ?_, ?_⟩
    · rw [hlength]
      omega
    · rw [hstart']
      exact hchosen
    · rw [show blockThroughput (swarm.withMoved throughputs peerId span newStart).throughputs
          = blockThroughput throughputs from rfl, blocks, blocks, hstart',
        numBlocks_withMoved hspan, blockThroughput_addOn _ _ (by rw [hraised]; exact hnew),
        blockThroughput_addOn _ _ (by rw [hlowered]; exact hin), blockThroughput_addOn _ _ hin,
        raiseOn_raiseOn]
      -- the penalty is given back
      rw [show -(swarm.throughput peerId * (1 + eps)) + swarm.throughput peerId * eps
        = -swarm.throughput peerId by ring]

/-! ## What a turn improves -/

/-- A server without throughput that is on the best window. -/
def Settled (swarm : SimulatedSwarm P) (peerId : P) : Prop :=
  swarm.throughput peerId = 0 →
    chooseBestStart swarm.throughputs (swarm.numBlocks peerId) = .ok (swarm.start peerId)

section Turn

variable {swarm swarm' : SimulatedSwarm P} {peerId : P}

theorem Fits.blocks_subset (h : swarm.Fits) (hmem : peerId ∈ swarm.spans) :
    swarm.blocks peerId ⊆ Finset.range swarm.throughputs.length := by
  obtain ⟨span, hspan⟩ := Option.isSome_iff_exists.mp (AList.lookup_isSome.mpr hmem)
  exact window_subset (h.span hspan).2.2.2.2.2

theorem Fits.numBlocks_pos (h : swarm.Fits) (hmem : peerId ∈ swarm.spans) :
    0 < swarm.numBlocks peerId := by
  obtain ⟨span, hspan⟩ := Option.isSome_iff_exists.mp (AList.lookup_isSome.mpr hmem)
  exact (h.span hspan).2.2.2.2.1

theorem Fits.start_add_le (h : swarm.Fits) (hmem : peerId ∈ swarm.spans) :
    swarm.start peerId + swarm.numBlocks peerId ≤ swarm.throughputs.length := by
  obtain ⟨span, hspan⟩ := Option.isSome_iff_exists.mp (AList.lookup_isSome.mpr hmem)
  exact (h.span hspan).2.2.2.2.2

/-- A server that stays changes no throughput. -/
theorem Turn.throughputs_of_start_eq (h : Turn swarm peerId swarm')
    (hstart : swarm'.start peerId = swarm.start peerId) :
    swarm'.throughputs = swarm.throughputs := by
  refine ext_blockThroughput h.length_eq ?_
  have hblocks : swarm'.blocks peerId = swarm.blocks peerId := by
    rw [blocks, blocks, hstart, h.numBlocks_eq]
  rw [h.blockThroughput_eq, hblocks, raiseOn_raiseOn, neg_add_cancel, raiseOn_zero]

/-- Nor does a server without throughput. -/
theorem Turn.throughputs_of_zero (h : Turn swarm peerId swarm')
    (hzero : swarm.throughput peerId = 0) : swarm'.throughputs = swarm.throughputs := by
  refine ext_blockThroughput h.length_eq ?_
  rw [h.blockThroughput_eq, hzero, neg_zero, raiseOn_zero, raiseOn_zero]

/-- **A server that moves makes the throughputs better**, if it has any. -/
theorem Turn.improves (h : Turn swarm peerId swarm') (hfits : swarm.Fits)
    (hmem : peerId ∈ swarm.spans) (hpos : 0 < swarm.throughput peerId)
    (hmoved : swarm'.start peerId ≠ swarm.start peerId) :
    WorseThan (swarm.throughputs : Multiset ℚ) swarm'.throughputs := by
  have hin := hfits.start_add_le hmem
  let without := raiseOn (blockThroughput swarm.throughputs) (-swarm.throughput peerId)
    (swarm.blocks peerId)
  have hlowered : blockThroughput (addOn swarm.throughputs (swarm.start peerId)
      (swarm.start peerId + swarm.numBlocks peerId : Nat)
        (-(swarm.throughput peerId * (1 + eps))))
      = raiseOn without (-(swarm.throughput peerId * eps)) (swarm.blocks peerId) := by
    rw [blockThroughput_addOn _ _ hin, raiseOn_raiseOn, ← neg_add, mul_add, mul_one]
    rfl
  -- the window that is left was lowered, so it is the better one
  have hworse : WorseThan (valuesOn without (swarm'.blocks peerId))
      (valuesOn without (swarm.blocks peerId)) := by
    have heps : -(swarm.throughput peerId * eps) < 0 :=
      neg_lt_zero.mpr (mul_pos hpos (by decide +kernel))
    have hcard : (swarm.blocks peerId).card = (swarm'.blocks peerId).card := by
      rw [blocks, blocks, Nat.card_Ico, Nat.card_Ico, h.numBlocks_eq]
      omega
    have hne : swarm'.blocks peerId ≠ swarm.blocks peerId := by
      intro heq
      rw [blocks, blocks, h.numBlocks_eq] at heq
      exact hmoved (ico_add_injective (hfits.numBlocks_pos hmem) heq)
    refine worseThan_of_lowered heps hcard hne ?_
    rw [← hlowered, blocks, blocks, h.numBlocks_eq]
    exact not_worseThan_chosen (by rw [length_addOn]; omega) h.chosen
      (by rw [length_addOn]; exact hin)
  have hbags := worseThan_raise hpos
    (h.length_eq ▸ h.fits.blocks_subset ((h.mem_iff peerId).mpr hmem))
    (hfits.blocks_subset hmem) hworse
  rw [coe_eq_valuesOn swarm.throughputs, coe_eq_valuesOn swarm'.throughputs, h.length_eq,
    h.blockThroughput_eq]
  rw [raiseOn_raiseOn, neg_add_cancel, raiseOn_zero] at hbags
  exact hbags

/-- With throughputs that it did not change, a server is settled behind its turn, and moved only if
    it was not before. -/
theorem Turn.settled (h : Turn swarm peerId swarm') (hfits : swarm.Fits)
    (hmem : peerId ∈ swarm.spans) (hnonneg : 0 ≤ swarm.throughput peerId)
    (hsame : swarm'.throughputs = swarm.throughputs) :
    swarm'.Settled peerId ∧ (swarm.Settled peerId → swarm'.start peerId = swarm.start peerId) := by
  rcases hnonneg.eq_or_lt with hzero | hpos
  · have hchosen := h.chosen
    have hlowered : addOn swarm.throughputs (swarm.start peerId)
        (swarm.start peerId + swarm.numBlocks peerId : Nat)
        (-(swarm.throughput peerId * (1 + eps))) = swarm.throughputs := by
      refine ext_blockThroughput (length_addOn _ _ _ _) ?_
      rw [blockThroughput_addOn _ _ (hfits.start_add_le hmem), ← hzero, zero_mul, neg_zero,
        raiseOn_zero]
    rw [hlowered] at hchosen
    constructor
    · intro _
      rw [hsame, h.numBlocks_eq]
      exact hchosen
    · intro hsettled
      exact Except.ok.inj (hchosen.symm.trans (hsettled hzero.symm))
  · have hstay : swarm'.start peerId = swarm.start peerId := by
      by_contra hmoved
      have himproves := h.improves hfits hmem hpos hmoved
      rw [hsame] at himproves
      exact worseThan_irrefl _ himproves
    refine ⟨fun hzero => ?_, fun _ => hstay⟩
    rw [h.throughput_eq] at hzero
    exact absurd hzero (ne_of_gt hpos)

end Turn

/-! ## Passes -/

theorem throughput_nonneg (swarm : SimulatedSwarm P) (peerId : P) :
    0 ≤ swarm.throughput peerId := by
  rw [throughput]
  cases swarm.spans.lookup peerId with
  | none => exact le_rfl
  | some span => exact span.throughput_nonneg

def servers (swarm : SimulatedSwarm P) : Finset P := swarm.spans.keys.toFinset

theorem mem_servers {swarm : SimulatedSwarm P} {peerId : P} :
    peerId ∈ swarm.servers ↔ peerId ∈ swarm.spans := by
  rw [servers, List.mem_toFinset, AList.mem_keys]

/-- What the servers of the simulation bring to a block. -/
def share (swarm : SimulatedSwarm P) (i : Nat) : ℚ :=
  ∑ peerId ∈ swarm.servers, if i ∈ swarm.blocks peerId then swarm.throughput peerId else 0

/-- The same servers, on other blocks perhaps. -/
structure SameServers (swarm swarm' : SimulatedSwarm P) : Prop where
  length_eq : swarm'.throughputs.length = swarm.throughputs.length
  servers_eq : swarm'.servers = swarm.servers
  numBlocks_eq : ∀ q, swarm'.numBlocks q = swarm.numBlocks q
  throughput_eq : ∀ q, swarm'.throughput q = swarm.throughput q
  fits : swarm.Fits → swarm'.Fits
  /-- What the blocks have beside these servers. -/
  background : ∀ i, blockThroughput swarm'.throughputs i - swarm'.share i
    = blockThroughput swarm.throughputs i - swarm.share i

theorem SameServers.refl (swarm : SimulatedSwarm P) : SameServers swarm swarm :=
  ⟨rfl, rfl, fun _ => rfl, fun _ => rfl, id, fun _ => rfl⟩

/-- Two moves after each other are still among the same servers. -/
theorem SameServers.trans {swarm₁ swarm₂ swarm₃ : SimulatedSwarm P}
    (h : SameServers swarm₁ swarm₂) (h' : SameServers swarm₂ swarm₃) :
    SameServers swarm₁ swarm₃ where
  length_eq := h'.length_eq.trans h.length_eq
  servers_eq := h'.servers_eq.trans h.servers_eq
  numBlocks_eq q := (h'.numBlocks_eq q).trans (h.numBlocks_eq q)
  throughput_eq q := (h'.throughput_eq q).trans (h.throughput_eq q)
  fits := fun hfits => h'.fits (h.fits hfits)
  background i := (h'.background i).trans (h.background i)

/-- One turn only moves a server, it adds and drops none. -/
theorem Turn.sameServers {swarm swarm' : SimulatedSwarm P} {peerId : P}
    (h : Turn swarm peerId swarm') (hmem : peerId ∈ swarm.spans) : SameServers swarm swarm' := by
  have hservers : swarm'.servers = swarm.servers := by
    ext q
    rw [mem_servers, mem_servers, h.mem_iff]
  refine ⟨h.length_eq, hservers, h.numBlocks_eq, h.throughput_eq, fun _ => h.fits, fun i => ?_⟩
  have hin := mem_servers.mpr hmem
  -- the other servers stay where they are
  have hrest : (∑ q ∈ swarm.servers.erase peerId,
        if i ∈ swarm'.blocks q then swarm'.throughput q else 0)
      = ∑ q ∈ swarm.servers.erase peerId,
        if i ∈ swarm.blocks q then swarm.throughput q else 0 := by
    refine Finset.sum_congr rfl fun q hq => ?_
    rw [blocks, blocks, h.start_eq q (Finset.ne_of_mem_erase hq), h.numBlocks_eq, h.throughput_eq]
  rw [share, share, hservers, ← Finset.add_sum_erase _ _ hin, ← Finset.add_sum_erase _ _ hin, hrest,
    h.blockThroughput_eq, h.throughput_eq, raiseOn, raiseOn]
  split <;> split <;> ring

/-- What turns of these servers do to the throughputs. -/
structure Progress (swarm : SimulatedSwarm P) (turns : List P) (swarm' : SimulatedSwarm P)
    (moved : Bool) : Prop where
  better : swarm'.throughputs = swarm.throughputs ∨
    WorseThan (swarm.throughputs : Multiset ℚ) swarm'.throughputs
  settles : swarm'.throughputs = swarm.throughputs → ∀ p ∈ turns, swarm'.Settled p
  keeps : swarm'.throughputs = swarm.throughputs → ∀ q, swarm.Settled q → swarm'.Settled q
  still : swarm'.throughputs = swarm.throughputs → (∀ p ∈ turns, swarm.Settled p) → moved = false

/-- One turn leaves the throughputs alone or makes them better, and its server is settled
    afterwards. -/
theorem Turn.progress {swarm swarm' : SimulatedSwarm P} {peerId : P}
    (h : Turn swarm peerId swarm') (hfits : swarm.Fits) (hmem : peerId ∈ swarm.spans) :
    Progress swarm [peerId] swarm' (decide (swarm.start peerId ≠ swarm'.start peerId)) := by
  have hsettled := h.settled hfits hmem (swarm.throughput_nonneg peerId)
  constructor
  · by_cases hmoved : swarm'.start peerId = swarm.start peerId
    · exact Or.inl (h.throughputs_of_start_eq hmoved)
    · rcases (swarm.throughput_nonneg peerId).eq_or_lt with hzero | hpos
      · exact Or.inl (h.throughputs_of_zero hzero.symm)
      · exact Or.inr (h.improves hfits hmem hpos hmoved)
  · intro hsame p hp
    rw [List.mem_singleton.mp hp]
    exact (hsettled hsame).1
  · intro hsame q hq
    by_cases heq : q = peerId
    · rw [heq]
      exact (hsettled hsame).1
    · intro hzero
      rw [h.throughput_eq] at hzero
      rw [hsame, h.numBlocks_eq, h.start_eq q heq]
      exact hq hzero
  · intro hsame hall
    have hstay := (hsettled hsame).2 (hall peerId List.mem_cons_self)
    simp [hstay]

/-- The progress of two stretches of turns adds up, which is the induction over the shuffled list.
    -/
theorem Progress.append {swarm₁ swarm₂ swarm₃ : SimulatedSwarm P} {turns turns' : List P}
    {moved moved' : Bool} (h : Progress swarm₁ turns swarm₂ moved)
    (h' : Progress swarm₂ turns' swarm₃ moved') :
    Progress swarm₁ (turns ++ turns') swarm₃ (moved || moved') := by
  -- what got better does not come back
  have hboth : swarm₃.throughputs = swarm₁.throughputs →
      swarm₂.throughputs = swarm₁.throughputs ∧ swarm₃.throughputs = swarm₂.throughputs := by
    intro hsame
    rcases h.better with heq | hlt
    · exact ⟨heq, hsame.trans heq.symm⟩
    · rcases h'.better with heq' | hlt'
      · rw [← heq', hsame] at hlt
        exact absurd hlt (worseThan_irrefl _)
      · rw [hsame] at hlt'
        exact absurd hlt' hlt.asymm
  constructor
  · rcases h.better with heq | hlt
    · rw [← heq]
      exact h'.better
    · rcases h'.better with heq' | hlt'
      · rw [heq']
        exact Or.inr hlt
      · exact Or.inr (hlt.trans hlt')
  · intro hsame p hp
    obtain ⟨h₁, h₂⟩ := hboth hsame
    rcases List.mem_append.mp hp with hp | hp
    · exact h'.keeps h₂ p (h.settles h₁ p hp)
    · exact h'.settles h₂ p hp
  · intro hsame q hq
    obtain ⟨h₁, h₂⟩ := hboth hsame
    exact h'.keeps h₂ q (h.keeps h₁ q hq)
  · intro hsame hall
    obtain ⟨h₁, h₂⟩ := hboth hsame
    rw [h.still h₁ fun p hp => hall p (List.mem_append_left _ hp), Bool.false_or]
    exact h'.still h₂ fun p hp => h.keeps h₁ p (hall p (List.mem_append_right _ hp))

/-- A pass returns, whatever the order of the servers. -/
theorem pass_spec : ∀ (turns : List P) {swarm : SimulatedSwarm P}, swarm.Fits →
    (∀ p ∈ turns, p ∈ swarm.spans) →
    ∃ swarm' moved, swarm.pass turns = .ok (swarm', moved) ∧ SameServers swarm swarm' ∧
      Progress swarm turns swarm' moved := by
  intro turns
  induction turns with
  | nil =>
    intro swarm _ _
    refine ⟨swarm, false, rfl, SameServers.refl swarm, Or.inl rfl, ?_, fun _ _ hq => hq,
      fun _ _ => rfl⟩
    intro _ p hp
    nomatch hp
  | cons peerId turns ih =>
    intro swarm hfits hmem
    have hpeer := hmem peerId List.mem_cons_self
    obtain ⟨swarm₁, hturn, hspec⟩ := turn_spec hfits hpeer
    obtain ⟨swarm', moved, hpass, hservers, hprogress⟩ :=
      ih hspec.fits fun p hp => (hspec.mem_iff p).mpr (hmem p (List.mem_cons_of_mem _ hp))
    refine ⟨swarm', _, ?_, (hspec.sameServers hpeer).trans hservers,
      (hspec.progress hfits hpeer).append hprogress⟩
    simp only [pass, hturn, hpass, bind, Except.bind]

/-! ## The loop -/

/-- Of two passes that move somebody, the second ends better than the first began. -/
theorem pass_pass_improves {swarm swarm' swarm'' : SimulatedSwarm P} {turns turns' : List P}
    {moved : Bool} (h : Progress swarm turns swarm' moved)
    (h' : Progress swarm' turns' swarm'' true) (hall : ∀ p ∈ turns', p ∈ turns) :
    WorseThan (swarm.throughputs : Multiset ℚ) swarm''.throughputs := by
  rcases h.better with heq | hlt
  · rcases h'.better with heq' | hlt'
    · have hstill := h'.still heq' fun p hp => h.settles heq p (hall p hp)
      nomatch hstill
    · rw [← heq]
      exact hlt'
  · rcases h'.better with heq' | hlt'
    · rw [heq']
      exact hlt
    · exact hlt.trans hlt'

/-- The throughputs that can be reached with the same servers. -/
def reachable (swarm₀ : SimulatedSwarm P) : Set (Multiset ℚ) :=
  {bag | ∃ swarm, SameServers swarm₀ swarm ∧ swarm.Fits ∧
    (swarm.throughputs : Multiset ℚ) = bag}

/-- There are finitely many of them: they are known by the starts of the servers. -/
theorem finite_reachable (swarm₀ : SimulatedSwarm P) : (reachable swarm₀).Finite := by
  let throughputAt := fun (starts : {p // p ∈ swarm₀.servers} → Fin (swarm₀.throughputs.length + 1))
      (i : Nat) => blockThroughput swarm₀.throughputs i - swarm₀.share i +
    ∑ p : {p // p ∈ swarm₀.servers},
      if i ∈ Finset.Ico (starts p : Nat) (starts p + swarm₀.numBlocks p) then swarm₀.throughput p
      else 0
  refine (Set.finite_range fun starts =>
    valuesOn (throughputAt starts) (Finset.range swarm₀.throughputs.length)).subset ?_
  rintro bag ⟨swarm, hservers, hfits, rfl⟩
  have hstart : ∀ p : {p // p ∈ swarm₀.servers},
      swarm.start p < swarm₀.throughputs.length + 1 := by
    intro p
    have hmem : (p : P) ∈ swarm.spans := by
      rw [← mem_servers, hservers.servers_eq]
      exact p.2
    have hle := hfits.start_add_le hmem
    rw [hservers.length_eq] at hle
    omega
  refine ⟨fun p => ⟨swarm.start p, hstart p⟩, ?_⟩
  rw [coe_eq_valuesOn swarm.throughputs, hservers.length_eq]
  show valuesOn _ _ = valuesOn _ _
  congr 1
  funext i
  have hshare : swarm.share i = ∑ p : {p // p ∈ swarm₀.servers},
      if i ∈ Finset.Ico (swarm.start p) (swarm.start p + swarm₀.numBlocks p) then
        swarm₀.throughput p else 0 := by
    rw [share, hservers.servers_eq, ← Finset.sum_coe_sort]
    refine Finset.sum_congr rfl fun p _ => ?_
    rw [blocks, hservers.numBlocks_eq, hservers.throughput_eq]
  have hbackground := hservers.background i
  show blockThroughput swarm₀.throughputs i - swarm₀.share i + _ = _
  rw [← hbackground, hshare, sub_add_cancel]

/-- From these throughputs on the loop ends, in whatever pass it is. -/
def LoopReturns (swarm₀ : SimulatedSwarm P) (shuffled : Nat → List P) (bag : Multiset ℚ) : Prop :=
  ∀ swarm, SameServers swarm₀ swarm → swarm.Fits → (swarm.throughputs : Multiset ℚ) = bag →
    ∀ k, ∃ fuel swarm', rebalance shuffled fuel k swarm = .ok (some swarm')

/-- From whatever throughputs the swarm can reach, the `while moved` loop returns: the better ones
    first. -/
theorem loopReturns (swarm₀ : SimulatedSwarm P) (shuffled : Nat → List P)
    (hshuffled : ∀ k p, p ∈ shuffled k ↔ p ∈ swarm₀.servers) :
    ∀ bag ∈ reachable swarm₀, LoopReturns swarm₀ shuffled bag := by
  have hwell : (reachable swarm₀).WellFoundedOn fun M N : Multiset ℚ => WorseThan N M :=
    @Set.Finite.wellFoundedOn _ _ better_isStrictOrder _ (finite_reachable swarm₀)
  have hmem : ∀ {swarm}, SameServers swarm₀ swarm → ∀ k, ∀ p ∈ shuffled k, p ∈ swarm.spans := by
    intro swarm hservers k p hp
    rw [← mem_servers, hservers.servers_eq]
    exact (hshuffled k p).mp hp
  -- induction on the throughputs, the better ones first
  intro bag hbag
  refine hwell.induction (P := LoopReturns swarm₀ shuffled) hbag ?_
  intro bag _ ih swarm hservers hfits heq k
  obtain ⟨swarm₁, moved₁, hpass₁, hservers₁, hprogress₁⟩ :=
    pass_spec (shuffled k) hfits (hmem hservers k)
  cases moved₁ with
  | false =>
    refine ⟨1, swarm₁, ?_⟩
    simp only [rebalance, hpass₁, bind, Except.bind, Bool.false_eq_true, if_false]
  | true =>
    have hservers₁' := hservers.trans hservers₁
    have hfits₁ := hservers₁.fits hfits
    obtain ⟨swarm₂, moved₂, hpass₂, hservers₂, hprogress₂⟩ :=
      pass_spec (shuffled (k + 1)) hfits₁ (hmem hservers₁' (k + 1))
    cases moved₂ with
    | false =>
      refine ⟨2, swarm₂, ?_⟩
      simp only [rebalance, hpass₁, hpass₂, bind, Except.bind, Bool.false_eq_true, if_false,
        if_true]
    | true =>
      have himproves := pass_pass_improves hprogress₁ hprogress₂
        fun p hp => (hshuffled k p).mpr ((hshuffled (k + 1) p).mp hp)
      have hservers₂' := hservers₁'.trans hservers₂
      have hfits₂ := hservers₂.fits hfits₁
      rw [heq] at himproves
      obtain ⟨fuel, swarm', hloop⟩ := ih _ ⟨swarm₂, hservers₂', hfits₂, rfl⟩ himproves swarm₂
        hservers₂' hfits₂ rfl (k + 2)
      refine ⟨fuel + 2, swarm', ?_⟩
      simp only [rebalance, hpass₁, hpass₂, bind, Except.bind, if_true]
      exact hloop

/-- **The simulation terminates**, whatever the spans, the throughputs and the orders that are
    drawn. -/
theorem rebalance_terminates (swarm : SimulatedSwarm P) (hfits : swarm.Fits)
    (shuffled : Nat → List P) (hshuffled : ∀ k, (shuffled k).Perm swarm.spans.keys) :
    ∃ fuel swarm', rebalance shuffled fuel 0 swarm = .ok (some swarm') := by
  have hmem : ∀ k p, p ∈ shuffled k ↔ p ∈ swarm.servers := by
    intro k p
    rw [(hshuffled k).mem_iff, mem_servers, AList.mem_keys]
  exact loopReturns swarm shuffled hmem _ ⟨swarm, SameServers.refl swarm, hfits, rfl⟩ swarm
    (SameServers.refl swarm) hfits rfl 0

/-- Two servers on three blocks, one of them without throughput. -/
theorem rebalance_terminates_two :
    let fast : Dht.ServerInfo Nat := ⟨.online, 1, none, none, none, none, none⟩
    let slow : Dht.ServerInfo Nat := ⟨.joining, 0, none, none, none, none, none⟩
    let spans := ((∅ : Dht.Spans Nat).insert 0 ⟨0, 0, 2, fast⟩).insert 1 ⟨1, 1, 2, slow⟩
    ∃ fuel swarm', rebalance (fun _ => [0, 1]) fuel 0 ⟨[1, 1, 0], spans⟩ = .ok (some swarm') := by
  intro fast slow spans
  refine rebalance_terminates _ (fun peerId span hspan => ?_) _ fun k => ?_
  · have hentry : (⟨peerId, span⟩ : Sigma fun _ : Nat => Dht.RemoteSpanInfo Nat)
        ∈ [⟨1, ⟨1, 1, 2, slow⟩⟩, ⟨0, ⟨0, 0, 2, fast⟩⟩] :=
      AList.mem_lookup_iff.mp hspan
    rcases List.mem_cons.mp hentry with h | h
    · cases h
      decide
    · cases List.mem_singleton.mp h
      decide
  · exact List.Perm.swap 1 0 []

end SimulatedSwarm

end Drift
