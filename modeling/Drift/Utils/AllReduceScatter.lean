/-
  The order of the ranks in `AllReduce`, and its first half: the parts that are scattered and
  reduced.

  What holds between the ranks is said with their numbers (`InOrder`): a rank is past the wait for
  its list only if all have appended to it, and past the wait for the gathered parts only if all
  have put theirs there.  So nobody appends to a list before its owner has cleared it, and the list
  that is in use holds the parts of one call.

  An event that is set while its owner has not cleared it stands for a full list; that is where a
  late set must be excluded (`ScatterInv.ready_step`).
-/
import Drift.Utils.AllReduce

namespace Drift.AllReduce

variable {T X Y : Type} {op : AllReduce T X Y} {xs : Nat → List Y → T} {s s' : State X Y}
  {rank t i g : Nat}

/-! ## The numbers of one rank -/

theorem State.le_count (pc : Pc) : (s.ranks t).round ≤ s.count t pc := le_passes

theorem State.count_le (pc : Pc) : s.count t pc ≤ (s.ranks t).round + 1 := passes_le

theorem State.count_at {pc : Pc} (h : (s.ranks t).pc = pc) : s.count t pc = (s.ranks t).round :=
  passes_of_le (Nat.le_of_eq (congrArg Pc.stage h))

theorem State.count_anti {pc pc' : Pc} (h : pc.stage ≤ pc'.stage) : s.count t pc' ≤ s.count t pc :=
  passes_anti h

theorem State.appends_le : s.appends t i ≤ (s.ranks t).round + 1 := by
  unfold State.appends
  split <;> omega

theorem State.appends_at (h : (s.ranks t).pc = .append i) : s.appends t i = (s.ranks t).round := by
  simp [State.appends, h, Pc.hasAppended]

/-! ## Between the ranks -/

/-- Nobody is past a wait before what it waits for. -/
structure InOrder (op : AllReduce T X Y) (s : State X Y) : Prop where
  waitReady : ∀ t < op.worldSize, ∀ r < op.worldSize, s.count t .waitReady ≤ s.appends r t
  waitGather : ∀ t < op.worldSize, ∀ r < op.worldSize,
    s.count t .waitGather ≤ s.count r .appendRank

/-- A rank in its next call has seen all others put their reduced parts. -/
theorem InOrder.round_le (h : InOrder op s) (ht : t < op.worldSize) (hrank : rank < op.worldSize)
    {pc : Pc} (hpc : pc.stage ≤ Pc.appendRank.stage) : (s.ranks t).round ≤ s.count rank pc := by
  have hround : (s.ranks t).round ≤ s.count t .waitGather := s.le_count _
  have hgather := h.waitGather t ht rank hrank
  have hanti : s.count rank .appendRank ≤ s.count rank pc := State.count_anti hpc
  omega

/-- Nobody appends to a list that its owner has not cleared. -/
theorem InOrder.appends_le (h : InOrder op s) (ht : t < op.worldSize) (hi : i < op.worldSize) :
    s.appends t i ≤ s.count i .clearParts + 1 := by
  have hround := h.round_le ht hi (show Pc.clearParts.stage ≤ _ by decide)
  have happends : s.appends t i ≤ (s.ranks t).round + 1 := State.appends_le
  omega

/-! ## Scattering -/

/-- What the calls of rank `t` are to have returned before a round. -/
def history (op : AllReduce T X Y) (xs : Nat → List Y → T) : Nat → Nat → List Y
  | 0, _ => []
  | round + 1, t => history op xs round t ++
    [op.gatherOp ((List.range op.worldSize).map fun i =>
        some (op.reduceOp ((List.range op.worldSize).map fun r =>
          op.split (xs r (history op xs round r)) i)))
      (xs t (history op xs round t))]

/-- What rank `t` calls with in a round. -/
def input (op : AllReduce T X Y) (xs : Nat → List Y → T) (round t : Nat) : T :=
  xs t (op.history xs round t)

/-- The reduced part of rank `i` in a round. -/
def reduced (op : AllReduce T X Y) (xs : Nat → List Y → T) (round i : Nat) : X :=
  op.reduceOp ((List.range op.worldSize).map fun t => op.split (op.input xs round t) i)

/-- The lists hold what has been appended since their owners have cleared them, and an event is set
    only for a full list. -/
structure ScatterInv (op : AllReduce T X Y) (xs : Nat → List Y → T) (s : State X Y) : Prop where
  tensorParts : ∀ i < op.worldSize, (s.tensorParts i).Perm
    (((List.range op.worldSize).filter (s.count i .clearParts < s.appends · i)).map fun t =>
      op.split (op.input xs (s.count i .clearParts) t) i)
  scatterReady : ∀ i < op.worldSize, s.scatterReady i = true →
    ∀ t < op.worldSize, s.count i .clearReady < s.appends t i
  setReady : ∀ t < op.worldSize, ∀ i < op.worldSize, (s.ranks t).pc = .setReady i →
    ∀ r < op.worldSize, (s.ranks t).round < s.appends r i
  /-- The event of a full list is set, or somebody will set it. -/
  full : ∀ i < op.worldSize, (∀ t < op.worldSize, s.count i .clearParts < s.appends t i) →
    s.scatterReady i = true ∨ ∃ t < op.worldSize, (s.ranks t).round = s.count i .clearParts ∧
      ((s.ranks t).pc = .checkFull i ∨ (s.ranks t).pc = .setReady i)

theorem step_append (h : op.step xs s rank = some s') (hpc : (s.ranks rank).pc = .append i) :
    s'.tensorParts i = s.tensorParts i ++ [op.split (xs rank (s.ranks rank).returned) i] ∧
      (s'.ranks rank).pc = .checkFull i := by
  simp only [step, hpc, if_pos (lt_of_step h)] at h
  cases h
  exact ⟨Function.update_self .., by rw [State.put_ranks_self]⟩

theorem step_clearParts (h : op.step xs s rank = some s') (hpc : (s.ranks rank).pc = .clearParts) :
    s'.tensorParts rank = [] := by
  simp only [step, hpc, if_pos (lt_of_step h)] at h
  cases h
  exact Function.update_self ..

theorem step_clearReady (h : op.step xs s rank = some s') (hpc : (s.ranks rank).pc = .clearReady) :
    s'.scatterReady rank = false := by
  simp only [step, hpc, if_pos (lt_of_step h)] at h
  cases h
  exact Function.update_self ..

theorem step_setReady (h : op.step xs s rank = some s') (hpc : (s.ranks rank).pc = .setReady i) :
    s'.scatterReady i = true := by
  simp only [step, hpc, if_pos (lt_of_step h)] at h
  cases h
  exact Function.update_self ..

theorem step_checkFull (h : op.step xs s rank = some s') (hpc : (s.ranks rank).pc = .checkFull i)
    (hlength : (s.tensorParts i).length = op.worldSize) : (s'.ranks rank).pc = .setReady i := by
  simp only [step, hpc, if_pos (lt_of_step h), if_pos hlength] at h
  cases h
  rw [State.put_ranks_self]

theorem nextPart_ne_setReady {j : Nat} : op.nextPart j ≠ .setReady i := by
  unfold nextPart
  split <;> simp

theorem step_to_setReady (h : op.step xs s rank = some s')
    (hpc : (s'.ranks rank).pc = .setReady i) : (s.ranks rank).pc = .checkFull i ∧
      (s.tensorParts i).length = op.worldSize ∧ (s'.ranks rank).round = (s.ranks rank).round := by
  have hlt := lt_of_step h
  cases hold : (s.ranks rank).pc <;> simp only [step, hold, if_pos hlt] at h
  case checkFull j =>
    split at h
    · rename_i hlength
      cases h
      rw [State.put_ranks_self] at hpc ⊢
      cases hpc
      exact ⟨rfl, hlength, rfl⟩
    · cases h
      rw [State.put_ranks_self] at hpc
      exact absurd hpc nextPart_ne_setReady
  case setReady j =>
    cases h
    rw [State.put_ranks_self] at hpc
    exact absurd hpc nextPart_ne_setReady
  all_goals first | split at h | skip
  all_goals cases h
  all_goals rw [State.put_ranks_self] at hpc
  all_goals cases hpc

theorem ScatterInv.parts_step (hinv : ScatterInv op xs s) (hord : InOrder op s)
    (hreturned : ∀ t < op.worldSize,
      (s.ranks t).returned = op.history xs (s.ranks t).round t)
    (h : op.step xs s rank = some s') : ∀ i < op.worldSize, (s'.tensorParts i).Perm
      (((List.range op.worldSize).filter (s'.count i .clearParts < s'.appends · i)).map fun t =>
        op.split (op.input xs (s'.count i .clearParts) t) i) := by
  intro i hi
  have hrank := lt_of_step h
  have hold := hinv.tensorParts i hi
  by_cases happend : (s.ranks rank).pc = .append i
  · have hcount : s'.count i .clearParts = s.count i .clearParts :=
      step_count_of_ne h rfl (by simp [happend]) i
    -- the part is of the round that the list is for
    have hround : (s.ranks rank).round = s.count i .clearParts := by
      have hle := hord.round_le hrank hi (show Pc.clearParts.stage ≤ _ by decide)
      have hwait : s.count i .clearParts ≤ s.count i .waitReady := State.count_anti (by decide)
      have hfull := hord.waitReady i hi rank hrank
      rw [State.appends_at happend] at hfull
      omega
    have hinsert : ((List.range op.worldSize).filter (s.count i .clearParts < s'.appends · i)).Perm
        ((List.range op.worldSize).filter (s.count i .clearParts < s.appends · i) ++ [rank]) := by
      apply perm_filter_insert hrank
      · rw [State.appends_at happend, hround]
        exact Nat.lt_irrefl _
      · intro t _
        rw [step_appends h hi]
        by_cases ht : t = rank
        · subst ht
          rw [if_pos ⟨rfl, happend⟩, State.appends_at happend]
          omega
        · rw [if_neg fun hand => ht hand.1]
          simp [ht]
    have hpart : xs rank (s.ranks rank).returned = op.input xs (s.count i .clearParts) rank := by
      rw [hreturned rank hrank, hround]
      rfl
    rw [hcount, (step_append h happend).1, hpart]
    refine (hold.append_right _).trans ?_
    have hmap := (hinsert.map fun t => op.split (op.input xs (s.count i .clearParts) t) i).symm
    rwa [List.map_append] at hmap
  · by_cases hclear : i = rank ∧ (s.ranks rank).pc = .clearParts
    · obtain ⟨rfl, hpc⟩ := hclear
      have hcount := step_count h (show Pc.clearParts.counted = true from rfl) i
      rw [if_pos ⟨rfl, hpc⟩] at hcount
      rw [step_clearParts h hpc, hcount, filter_range_of_forall_not, List.map_nil]
      intro t ht hlt
      have hle := hord.appends_le ht hi
      rw [step_appends_of_ne h hi happend] at hlt
      omega
    · have hcount : s'.count i .clearParts = s.count i .clearParts := by
        rw [step_count h rfl, if_neg hclear]
        rfl
      have happends : ∀ t, s'.appends t i = s.appends t i := step_appends_of_ne h hi happend
      simp only [step_tensorParts h happend hclear, hcount, happends]
      exact hold

theorem appends_mono (h : op.step xs s rank = some s') (hi : i < op.worldSize) (t : Nat) :
    s.appends t i ≤ s'.appends t i := by
  rw [step_appends h hi]
  omega

theorem ScatterInv.ready_step (hinv : ScatterInv op xs s) (hlate : lateSet s rank = false)
    (h : op.step xs s rank = some s') : ∀ i < op.worldSize, s'.scatterReady i = true →
      ∀ t < op.worldSize, s'.count i .clearReady < s'.appends t i := by
  intro i hi htrue t ht
  have hmono := appends_mono h hi t
  by_cases hset : (s.ranks rank).pc = .setReady i
  · -- the owner is still in this round
    have hcount : s'.count i .clearReady = s.count i .clearReady :=
      step_count_of_ne h rfl (by simp [hset]) i
    have hle : ¬ (s.ranks rank).round < s.count i .clearReady := by
      simpa [lateSet, hset] using hlate
    have hfull := hinv.setReady rank (lt_of_step h) i hi hset t ht
    omega
  · by_cases hclear : i = rank ∧ (s.ranks rank).pc = .clearReady
    · obtain ⟨rfl, hpc⟩ := hclear
      rw [step_clearReady h hpc] at htrue
      cases htrue
    · rw [step_scatterReady h hset hclear] at htrue
      have hold := hinv.scatterReady i hi htrue t ht
      have hcount := step_count h (show Pc.clearReady.counted = true from rfl) i
      rw [if_neg hclear] at hcount
      omega

theorem ScatterInv.set_step (hinv : ScatterInv op xs s) (hord : InOrder op s)
    (h : op.step xs s rank = some s') : ∀ t < op.worldSize, ∀ i < op.worldSize,
      (s'.ranks t).pc = .setReady i → ∀ r < op.worldSize, (s'.ranks t).round < s'.appends r i := by
  intro t ht i hi hset r hr
  have hmono := appends_mono h hi r
  by_cases hrank : t = rank
  · subst hrank
    obtain ⟨-, hlength, hround⟩ := step_to_setReady h hset
    have hperm := (hinv.tensorParts i hi).length_eq
    rw [hlength, List.length_map] at hperm
    have hall := forall_of_length_filter hperm.symm r hr
    have hle := hord.round_le ht hi (show Pc.clearParts.stage ≤ _ by decide)
    omega
  · rw [step_ranks_ne h hrank] at hset ⊢
    have hold := hinv.setReady t ht i hi hset r hr
    omega

theorem ScatterInv.full_step (hinv : ScatterInv op xs s) (hord : InOrder op s)
    (h : op.step xs s rank = some s') : ∀ i < op.worldSize,
      (∀ t < op.worldSize, s'.count i .clearParts < s'.appends t i) →
      s'.scatterReady i = true ∨ ∃ t < op.worldSize, (s'.ranks t).round = s'.count i .clearParts ∧
        ((s'.ranks t).pc = .checkFull i ∨ (s'.ranks t).pc = .setReady i) := by
  intro i hi hfull
  have hrank := lt_of_step h
  have hround := step_round_self h
  by_cases happend : (s.ranks rank).pc = .append i
  · -- the rank that has filled the list is going to look
    have hle := hord.round_le hrank hi (show Pc.clearParts.stage ≤ _ by decide)
    have hcount : s'.count i .clearParts = s.count i .clearParts :=
      step_count_of_ne h rfl (by simp [happend]) i
    have hnew := hfull rank hrank
    rw [step_appends h hi, if_pos ⟨rfl, happend⟩, State.appends_at happend] at hnew
    rw [happend, if_neg (by simp)] at hround
    exact Or.inr ⟨rank, hrank, by omega, Or.inl (step_append h happend).2⟩
  · have happends : ∀ t, s'.appends t i = s.appends t i := step_appends_of_ne h hi happend
    by_cases hclear : i = rank ∧ (s.ranks rank).pc = .clearParts
    · obtain ⟨rfl, hpc⟩ := hclear
      have hcount := step_count h (show Pc.clearParts.counted = true from rfl) i
      rw [if_pos ⟨rfl, hpc⟩] at hcount
      have hlt := hfull i hi
      have hle := hord.appends_le hi hi
      rw [happends] at hlt
      omega
    · have hcount : s'.count i .clearParts = s.count i .clearParts := by
        rw [step_count h rfl, if_neg hclear]
        rfl
      have hold : ∀ t < op.worldSize, s.count i .clearParts < s.appends t i := by
        intro t ht
        rw [← hcount, ← happends]
        exact hfull t ht
      by_cases hset : (s.ranks rank).pc = .setReady i
      · exact Or.inl (step_setReady h hset)
      · by_cases hready : i = rank ∧ (s.ranks rank).pc = .clearReady
        · -- the owner has not appended for its next call
          obtain ⟨rfl, hpc⟩ := hready
          have hlt := hold i hi
          have hpassed : s.count i .clearParts = (s.ranks i).round + 1 :=
            passes_of_lt (by rw [hpc]; decide)
          have hle : s.appends i i ≤ (s.ranks i).round + 1 := State.appends_le
          omega
        · rw [step_scatterReady h hset hready, hcount]
          rcases hinv.full i hi hold with htrue | ⟨t, ht, hsame, hpc⟩
          · exact Or.inl htrue
          · right
            by_cases htr : t = rank
            · subst htr
              have hcheck : (s.ranks t).pc = .checkFull i := hpc.resolve_right hset
              have hlength : (s.tensorParts i).length = op.worldSize := by
                rw [(hinv.tensorParts i hi).length_eq, List.length_map,
                  filter_range_of_forall hold, List.length_range]
              rw [hcheck, if_neg (by simp)] at hround
              exact ⟨t, ht, by omega, Or.inr (step_checkFull h hcheck hlength)⟩
            · rw [← step_ranks_ne h htr] at hsame hpc
              exact ⟨t, ht, hsame, hpc⟩

end Drift.AllReduce
