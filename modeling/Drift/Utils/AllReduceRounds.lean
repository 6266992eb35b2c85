/-
  `AllReduce` over any number of calls: every rank gets the sum, and nobody waits for ever.

  The second half gathers through objects that the last rank replaces; those of round `g` have the
  number `g`, for whoever copies them (`GatherInv`).

  All rests on the events.  "Can be called more than once; we don't care" holds of an event that is
  set twice before it is cleared; a rank that finds the list full, is held up, and sets the event
  when the owner has cleared it, lets the owner through the wait of its next call
  (`late_set_drops_part`).  Without such a step every call returns what it should (`rounds_exact`).
-/
import Drift.Utils.AllReduceScatter
import Mathlib.Data.Finset.Max

namespace Drift.AllReduce

variable {T X Y : Type} {op : AllReduce T X Y} {xs : Nat → List Y → T} {s s' : State X Y}
  {rank t i g : Nat}

/-! ## Gathering -/

/-- The stages of the last rank. -/
def Pc.renews : Pc → Bool
  | .newParts | .newUpdated | .newReady => true
  | _ => false

/-- The objects with the numbers below `n` have been replaced at stage `pc` by the last rank that
    came to them. -/
def Renewed (op : AllReduce T X Y) (s : State X Y) (pc : Pc) (n : Nat) : Prop :=
  ∀ g, g < n ↔ ∃ t < op.worldSize, (s.ranksUpdatedAt g).getLast? = some t ∧ g < s.count t pc

/-- The objects of round `g` have the number `g`. -/
structure GatherInv (op : AllReduce T X Y) (s : State X Y) : Prop where
  ranksUpdated : ∀ g, (s.ranksUpdatedAt g).Perm
    ((List.range op.worldSize).filter (g < s.count · .appendRank))
  partsReady : ∀ g, s.partsReadyAt g = true → ∀ t < op.worldSize, g < s.count t .appendRank
  setGather : ∀ t < op.worldSize, (s.ranks t).pc = .setGather →
    ∀ r < op.worldSize, (s.ranks t).round < s.count r .appendRank
  /-- When all have come the event is set, or somebody will set it. -/
  full : 0 < op.worldSize → ∀ g, (∀ t < op.worldSize, g < s.count t .appendRank) →
    s.partsReadyAt g = true ∨ ∃ t < op.worldSize, (s.ranks t).round = g ∧
      ((s.ranks t).pc = .checkUpdated ∨ (s.ranks t).pc = .setGather)
  last : ∀ t < op.worldSize, (s.ranks t).pc.renews = true →
    (s.ranksUpdatedAt (s.ranks t).round).getLast? = some t
  newParts : Renewed op s .newParts s.parts
  newUpdated : Renewed op s .newUpdated s.ranksUpdated
  newReady : Renewed op s .newReady s.partsReady
  copiedParts : ∀ t < op.worldSize, (s.ranks t).round < s.count t .copyParts →
    (s.ranks t).parts = (s.ranks t).round
  copiedUpdated : ∀ t < op.worldSize, (s.ranks t).round < s.count t .copyUpdated →
    (s.ranks t).ranksUpdated = (s.ranks t).round
  copiedReady : ∀ t < op.worldSize, (s.ranks t).round < s.count t .copyReady →
    (s.ranks t).partsReady = (s.ranks t).round

/-- The numbers of a rank at a later stage, and of one that is not there yet. -/
theorem State.round_lt_count {pc : Pc} (h : pc.stage < (s.ranks t).pc.stage) :
    (s.ranks t).round < s.count t pc := by
  have hpassed : s.count t pc = (s.ranks t).round + 1 := passes_of_lt h
  omega

theorem State.count_eq {pc : Pc} (h : (s.ranks t).pc.stage ≤ pc.stage) :
    s.count t pc = (s.ranks t).round := passes_of_le h

/-- The list of a round that some rank appended in has a last entry, and it is a rank of the group.
    -/
theorem GatherInv.exists_last (hinv : GatherInv op s) (hrank : rank < op.worldSize)
    (hg : g < s.count rank .appendRank) :
    ∃ t < op.worldSize, (s.ranksUpdatedAt g).getLast? = some t := by
  have hperm := hinv.ranksUpdated g
  have hmem : rank ∈ s.ranksUpdatedAt g :=
    hperm.mem_iff.mpr (List.mem_filter.mpr ⟨List.mem_range.mpr hrank, decide_eq_true hg⟩)
  have hne : s.ranksUpdatedAt g ≠ [] := List.ne_nil_of_mem hmem
  have hlast := hperm.mem_iff.mp (List.getLast_mem hne)
  exact ⟨(s.ranksUpdatedAt g).getLast hne, List.mem_range.mp (List.mem_filter.mp hlast).1,
    List.getLast?_eq_getLast_of_ne_nil hne⟩

/-- The number of the object in use, for a rank that is past the wait for its list. -/
theorem GatherInv.renewed_eq (hinv : GatherInv op s) (hord : InOrder op s) {pc : Pc} {n : Nat}
    (hrenewed : Renewed op s pc n) (hrank : rank < op.worldSize)
    (hlow : Pc.waitReady.stage < (s.ranks rank).pc.stage)
    (hhigh : ∀ t < op.worldSize, (s.ranksUpdatedAt (s.ranks rank).round).getLast? = some t →
      s.count t pc ≤ (s.ranks rank).round) : n = (s.ranks rank).round := by
  rcases Nat.lt_trichotomy n (s.ranks rank).round with hlt | heq | hgt
  · -- the others are in this round too, and the last one has replaced the object before
    have hle : (s.ranks rank).round ≤ s.count rank .appendRank := s.le_count _
    obtain ⟨t, ht, hlast⟩ := hinv.exists_last hrank (show n < s.count rank .appendRank by omega)
    have hpassed := State.round_lt_count hlow
    have happends := hord.waitReady rank hrank t ht
    have hround : s.appends t rank ≤ (s.ranks t).round + 1 := State.appends_le
    have hcount : (s.ranks t).round ≤ s.count t pc := s.le_count pc
    have hold := (hrenewed n).mpr ⟨t, ht, hlast, by omega⟩
    omega
  · exact heq
  · obtain ⟨t, ht, hlast, hcount⟩ := (hrenewed (s.ranks rank).round).mp hgt
    have hle := hhigh t ht hlast
    omega

theorem checkLast_lt_of_renews {pc : Pc} (hp : pc.renews = true) :
    Pc.checkLast.stage < pc.stage := by
  cases pc <;> first | exact absurd hp Bool.false_ne_true | decide

/-- Nobody replaces an object that a rank has still to come to. -/
theorem InOrder.count_renews_le (hord : InOrder op s) {pc : Pc} (hp : pc.renews = true)
    (ht : t < op.worldSize) (hrank : rank < op.worldSize)
    (hhigh : (s.ranks rank).pc.stage ≤ Pc.appendRank.stage) :
    s.count t pc ≤ (s.ranks rank).round := by
  have hanti : s.count t pc ≤ s.count t .waitGather :=
    State.count_anti (Nat.le_of_lt (Nat.lt_trans (by decide) (checkLast_lt_of_renews hp)))
  have hwait := hord.waitGather t ht rank hrank
  have happend : s.count rank .appendRank = (s.ranks rank).round := State.count_eq hhigh
  omega

/-- Which object a rank copies: that of its own round. -/
theorem GatherInv.copied_eq (hinv : GatherInv op s) (hord : InOrder op s) {pc : Pc} {n : Nat}
    (hp : pc.renews = true) (hrenewed : Renewed op s pc n) (hrank : rank < op.worldSize)
    (hlow : Pc.waitReady.stage < (s.ranks rank).pc.stage)
    (hhigh : (s.ranks rank).pc.stage ≤ Pc.appendRank.stage) : n = (s.ranks rank).round :=
  hinv.renewed_eq hord hrenewed hrank hlow fun _ ht _ => hord.count_renews_le hp ht hrank hhigh

/-- The append reaches the list object the rank holds, and no other one. -/
theorem step_appendRank (h : op.step xs s rank = some s') (hpc : (s.ranks rank).pc = .appendRank) :
    s'.ranksUpdatedAt = Function.update s.ranksUpdatedAt (s.ranks rank).ranksUpdated
        (s.ranksUpdatedAt (s.ranks rank).ranksUpdated ++ [rank]) ∧
      (s'.ranks rank).pc = .checkUpdated := by
  simp only [step, hpc, if_pos (lt_of_step h)] at h
  cases h
  exact ⟨rfl, by rw [State.put_ranks_self]⟩

theorem step_setGather (h : op.step xs s rank = some s') (hpc : (s.ranks rank).pc = .setGather) :
    s'.partsReadyAt = Function.update s.partsReadyAt (s.ranks rank).partsReady true := by
  simp only [step, hpc, if_pos (lt_of_step h)] at h
  cases h
  rfl

/-- The rank that finds the list full is the one that sets the event. -/
theorem step_checkUpdated (h : op.step xs s rank = some s')
    (hpc : (s.ranks rank).pc = .checkUpdated)
    (hlength : (s.ranksUpdatedAt (s.ranks rank).ranksUpdated).length = op.worldSize) :
    (s'.ranks rank).pc = .setGather := by
  simp only [step, hpc, if_pos (lt_of_step h), if_pos hlength] at h
  cases h
  rw [State.put_ranks_self]

theorem nextPart_renews {j : Nat} : (op.nextPart j).renews = false := by
  unfold nextPart
  split <;> rfl

/-- A rank comes to the event's `set()` only from the check, with the list full. -/
theorem step_to_setGather (h : op.step xs s rank = some s')
    (hpc : (s'.ranks rank).pc = .setGather) : (s.ranks rank).pc = .checkUpdated ∧
      (s.ranksUpdatedAt (s.ranks rank).ranksUpdated).length = op.worldSize := by
  have hlt := lt_of_step h
  have hnext : ∀ j, op.nextPart j ≠ .setGather := by
    intro j
    unfold nextPart
    split <;> simp
  cases hold : (s.ranks rank).pc <;> simp only [step, hold, if_pos hlt] at h
  all_goals first | split at h | skip
  all_goals cases h
  all_goals rw [State.put_ranks_self] at hpc
  all_goals first | cases hpc | exact absurd hpc (hnext _)
  rename_i hlength
  exact ⟨rfl, hlength⟩

/-- Only the last rank goes on to replace the objects. -/
theorem step_to_renews (h : op.step xs s rank = some s')
    (hpc : (s'.ranks rank).pc.renews = true) :
    (s'.ranks rank).round = (s.ranks rank).round ∧
      ((s.ranks rank).pc.renews = true ∨ (s.ranks rank).pc = .checkLast ∧
        (s.ranksUpdatedAt (s.ranks rank).ranksUpdated).getLast? = some rank) := by
  have hlt := lt_of_step h
  cases hold : (s.ranks rank).pc <;> simp only [step, hold, if_pos hlt] at h
  all_goals first | split at h | skip
  all_goals cases h
  all_goals rw [State.put_ranks_self] at hpc ⊢
  all_goals first
    | exact absurd hpc Bool.false_ne_true
    | exact absurd (hpc.symm.trans nextPart_renews) (by decide)
    | exact ⟨rfl, Or.inl rfl⟩
    | skip
  rename_i hlast
  exact ⟨rfl, Or.inr ⟨rfl, hlast⟩⟩

/-- The stages of the last rank count for the others when they leave them out. -/
theorem step_count_renews {pc : Pc} (h : op.step xs s rank = some s') (hp : pc.renews = true)
    (t : Nat) : s'.count t pc = s.count t pc + if t = rank ∧ ((s.ranks rank).pc = pc ∨
      (s.ranks rank).pc = .checkLast ∧
        (s.ranksUpdatedAt (s.ranks rank).ranksUpdated).getLast? ≠ some rank) then 1 else 0 := by
  by_cases ht : t = rank
  · subst ht
    have hlt := lt_of_step h
    unfold State.count
    cases hpc : (s.ranks t).pc <;> simp only [step, hpc, if_pos hlt] at h
    case checkLast =>
      split at h
      all_goals rename_i hlast
      all_goals cases h
      all_goals simp only [State.put_ranks_self]
      all_goals cases pc <;> first
        | exact absurd hp Bool.false_ne_true
        | simp [passes, Pc.stage, hlast]
    all_goals first | split at h | skip
    all_goals cases h
    all_goals simp only [State.put_ranks_self, nextPart_stage]
    all_goals cases pc <;> first
      | exact absurd hp Bool.false_ne_true
      | simp [passes, Pc.stage]
  · rw [if_neg fun hand => ht hand.1]
    unfold State.count
    rw [step_ranks_ne h ht]
    rfl

/-- A rank that is behind the copies works on the object of its round. -/
theorem GatherInv.updated_eq (hinv : GatherInv op s) (hrank : rank < op.worldSize)
    (hpc : Pc.copyUpdated.stage < (s.ranks rank).pc.stage) :
    (s.ranks rank).ranksUpdated = (s.ranks rank).round :=
  hinv.copiedUpdated rank hrank (State.round_lt_count hpc)

/-- No counter of the gather half ever goes back. -/
theorem count_mono {pc : Pc} (h : op.step xs s rank = some s') (hp : pc.counted = true) (t : Nat) :
    s.count t pc ≤ s'.count t pc := by
  rw [step_count h hp]
  omega

theorem count_mono_renews {pc : Pc} (h : op.step xs s rank = some s') (hp : pc.renews = true)
    (t : Nat) : s.count t pc ≤ s'.count t pc := by
  rw [step_count_renews h hp]
  omega

/-- The list of one round holds every rank that appended in it, once each. -/
theorem GatherInv.updated_step (hinv : GatherInv op s) (h : op.step xs s rank = some s') :
    ∀ g, (s'.ranksUpdatedAt g).Perm
      ((List.range op.worldSize).filter (g < s'.count · .appendRank)) := by
  intro g
  have hrank := lt_of_step h
  have hold := hinv.ranksUpdated g
  have hcount := step_count h (show Pc.appendRank.counted = true from rfl)
  by_cases hpc : (s.ranks rank).pc = .appendRank
  · have hat : s.count rank .appendRank = (s.ranks rank).round := State.count_at hpc
    rw [(step_appendRank h hpc).1, hinv.updated_eq hrank (by rw [hpc]; decide)]
    by_cases hg : g = (s.ranks rank).round
    · subst hg
      rw [Function.update_self]
      refine (hold.append_right _).trans (perm_filter_insert hrank ?_ ?_).symm
      · rw [hat]
        exact Nat.lt_irrefl _
      · intro t _
        rw [hcount]
        by_cases ht : t = rank
        · subst ht
          rw [if_pos ⟨rfl, hpc⟩, hat]
          omega
        · rw [if_neg fun hand => ht hand.1]
          simp [ht]
    · rw [Function.update_of_ne hg, filter_range_congr (q := fun t => g < s.count t .appendRank)]
      · exact hold
      · intro t _
        rw [hcount]
        split
        · rename_i hand
          rw [hand.1, hat]
          omega
        · rfl
  · rw [(step_gather h).2.1 hpc]
    simp only [step_count_of_ne h (show Pc.appendRank.counted = true from rfl) hpc]
    exact hold

/-- A round's event is set only once every rank has appended in the round. -/
theorem GatherInv.ready_step (hinv : GatherInv op s) (h : op.step xs s rank = some s') :
    ∀ g, s'.partsReadyAt g = true → ∀ t < op.worldSize, g < s'.count t .appendRank := by
  intro g htrue t ht
  have hmono := count_mono h (show Pc.appendRank.counted = true from rfl) t
  have hrank := lt_of_step h
  by_cases hset : (s.ranks rank).pc = .setGather
  · rw [step_setGather h hset,
      hinv.copiedReady rank hrank (State.round_lt_count (by rw [hset]; decide))] at htrue
    by_cases hg : g = (s.ranks rank).round
    · subst hg
      have hall := hinv.setGather rank hrank hset t ht
      omega
    · rw [Function.update_of_ne hg] at htrue
      have hold := hinv.partsReady g htrue t ht
      omega
  · rw [(step_gather h).2.2 hset] at htrue
    have hold := hinv.partsReady g htrue t ht
    omega

theorem GatherInv.set_step (hinv : GatherInv op s) (h : op.step xs s rank = some s') :
    ∀ t < op.worldSize, (s'.ranks t).pc = .setGather →
      ∀ r < op.worldSize, (s'.ranks t).round < s'.count r .appendRank := by
  intro t ht hset r hr
  have hmono := count_mono h (show Pc.appendRank.counted = true from rfl) r
  by_cases hrank : t = rank
  · subst hrank
    obtain ⟨hpc, hlength⟩ := step_to_setGather h hset
    have hround := step_round_self h
    rw [hpc, if_neg (by simp)] at hround
    rw [hinv.updated_eq ht (by rw [hpc]; decide), (hinv.ranksUpdated _).length_eq] at hlength
    have hall := forall_of_length_filter hlength r hr
    omega
  · rw [step_ranks_ne h hrank] at hset ⊢
    have hold := hinv.setGather t ht hset r hr
    omega

/-- When every rank has appended, the event is set or some rank is on its way to set it. -/
theorem GatherInv.full_step (hinv : GatherInv op s) (h : op.step xs s rank = some s') :
    0 < op.worldSize → ∀ g, (∀ t < op.worldSize, g < s'.count t .appendRank) →
      s'.partsReadyAt g = true ∨ ∃ t < op.worldSize, (s'.ranks t).round = g ∧
        ((s'.ranks t).pc = .checkUpdated ∨ (s'.ranks t).pc = .setGather) := by
  intro hpos g hfull
  have hrank := lt_of_step h
  have hround := step_round_self h
  have hcount := step_count h (show Pc.appendRank.counted = true from rfl)
  by_cases hnew : (s.ranks rank).pc = .appendRank ∧ (s.ranks rank).round = g
  · obtain ⟨hpc, rfl⟩ := hnew
    rw [hpc, if_neg (by simp)] at hround
    exact Or.inr ⟨rank, hrank, hround, Or.inl (step_appendRank h hpc).2⟩
  · have hold : ∀ t < op.worldSize, g < s.count t .appendRank := by
      intro t ht
      have hlt := hfull t ht
      rw [hcount] at hlt
      split at hlt
      · -- a rank that appends now does so for its own round
        rename_i hand
        obtain ⟨rfl, hpc⟩ := hand
        have hat : s.count t .appendRank = (s.ranks t).round := State.count_at hpc
        have hne : (s.ranks t).round ≠ g := fun heq => hnew ⟨hpc, heq⟩
        omega
      · omega
    rcases hinv.full hpos g hold with htrue | ⟨t, ht, hsame, hpc⟩
    · left
      by_cases hset : (s.ranks rank).pc = .setGather
      · rw [step_setGather h hset, Function.update_apply, htrue, ite_self]
      · rw [(step_gather h).2.2 hset]
        exact htrue
    · by_cases htr : t = rank
      · subst htr
        rcases hpc with hcheck | hset
        · have hlength : (s.ranksUpdatedAt (s.ranks t).ranksUpdated).length = op.worldSize := by
            rw [hinv.updated_eq ht (by rw [hcheck]; decide), hsame,
              (hinv.ranksUpdated g).length_eq, filter_range_of_forall hold, List.length_range]
          rw [hcheck, if_neg (by simp)] at hround
          exact Or.inr ⟨t, ht, by omega, Or.inr (step_checkUpdated h hcheck hlength)⟩
        · left
          rw [step_setGather h hset,
            hinv.copiedReady t ht (State.round_lt_count (by rw [hset]; decide)), hsame,
            Function.update_self]
      · rw [← step_ranks_ne h htr] at hsame hpc
        exact Or.inr ⟨t, ht, hsame, hpc⟩

/-- A rank about to renew a shared object is the last one in the list of its round. -/
theorem GatherInv.last_step (hinv : GatherInv op s) (hord : InOrder op s)
    (h : op.step xs s rank = some s') : ∀ t < op.worldSize, (s'.ranks t).pc.renews = true →
      (s'.ranksUpdatedAt (s'.ranks t).round).getLast? = some t := by
  intro t ht hrenews
  have hrank := lt_of_step h
  by_cases htr : t = rank
  · subst htr
    obtain ⟨hround, hpc⟩ := step_to_renews h hrenews
    have hne : (s.ranks t).pc ≠ .appendRank := by
      rintro heq
      rcases hpc with hpc | ⟨hpc, -⟩ <;> rw [heq] at hpc <;> cases hpc
    rw [(step_gather h).2.1 hne, hround]
    rcases hpc with hpc | ⟨hpc, hlast⟩
    · exact hinv.last t ht hpc
    · rwa [hinv.updated_eq ht (by rw [hpc]; decide)] at hlast
  · rw [step_ranks_ne h htr] at hrenews ⊢
    have hold := hinv.last t ht hrenews
    by_cases hpc : (s.ranks rank).pc = .appendRank
    · -- all have appended to the list of the last rank
      have hpassed : (s.ranks t).round < s.count t .waitGather := by
        exact State.round_lt_count (Nat.lt_trans (by decide) (checkLast_lt_of_renews hrenews))
      have hwait := hord.waitGather t ht rank hrank
      have hat : s.count rank .appendRank = (s.ranks rank).round := State.count_at hpc
      rw [(step_appendRank h hpc).1, hinv.updated_eq hrank (by rw [hpc]; decide),
        Function.update_of_ne (by omega)]
      exact hold
    · rw [(step_gather h).2.1 hpc]
      exact hold

/-- Each shared object is renewed once a round, by the last rank in the list of the round. -/
theorem GatherInv.renewed_step (hinv : GatherInv op s) (hord : InOrder op s) {pc : Pc} {n n' : Nat}
    (hp : pc.renews = true) (hrenewed : Renewed op s pc n)
    (hn : n' = n + if (s.ranks rank).pc = pc then 1 else 0) (h : op.step xs s rank = some s') :
    Renewed op s' pc n' := by
  have hrank := lt_of_step h
  have hcount := step_count_renews h hp
  intro g
  by_cases happend : (s.ranks rank).pc = .appendRank
  · -- no list that is still appended to has been replaced
    have hne : ¬ (s.ranks rank).pc = pc := by
      rintro heq
      rw [← heq, happend] at hp
      cases hp
    have hsame : ∀ t, s'.count t pc = s.count t pc := by
      intro t
      rw [hcount, if_neg]
      · rfl
      · rintro ⟨-, heq | ⟨heq, -⟩⟩
        · exact hne heq
        · rw [happend] at heq
          cases heq
    rw [if_neg hne] at hn
    rw [hn, (step_appendRank h happend).1, hinv.updated_eq hrank (by rw [happend]; decide)]
    simp only [hsame]
    by_cases hg : g = (s.ranks rank).round
    · subst hg
      have hnot : ∀ t < op.worldSize, ¬ (s.ranks rank).round < s.count t pc := by
        intro t ht
        have hle := hord.count_renews_le hp ht hrank (Nat.le_of_eq (congrArg Pc.stage happend))
        omega
      constructor
      · intro hlt
        obtain ⟨t, ht, -, htcount⟩ := (hrenewed _).mp hlt
        exact absurd htcount (hnot t ht)
      · rintro ⟨t, ht, -, htcount⟩
        exact absurd htcount (hnot t ht)
    · rw [Function.update_of_ne hg]
      exact hrenewed g
  · rw [(step_gather h).2.1 happend]
    by_cases hpc : (s.ranks rank).pc = pc
    · have hlast := hinv.last rank hrank (hpc.symm ▸ hp)
      have hat : s.count rank pc = (s.ranks rank).round := State.count_at hpc
      have hnew : s'.count rank pc = (s.ranks rank).round + 1 := by
        rw [hcount, if_pos ⟨rfl, Or.inl hpc⟩, hat]
      have heq : n = (s.ranks rank).round := by
        apply hinv.renewed_eq hord hrenewed hrank
        · rw [hpc]
          exact Nat.lt_trans (by decide) (checkLast_lt_of_renews hp)
        · intro t _ htlast
          obtain rfl : t = rank := Option.some.inj (htlast.symm.trans hlast)
          exact Nat.le_of_eq hat
      rw [if_pos hpc] at hn
      constructor
      · intro hlt
        by_cases hg : g = (s.ranks rank).round
        · exact ⟨rank, hrank, hg ▸ hlast, by omega⟩
        · obtain ⟨t, ht, htlast, htcount⟩ := (hrenewed g).mp (by omega)
          have hmono := count_mono_renews h hp t
          exact ⟨t, ht, htlast, by omega⟩
      · rintro ⟨t, ht, htlast, htcount⟩
        by_cases htr : t = rank
        · subst htr
          omega
        · rw [hcount, if_neg fun hand => htr hand.1] at htcount
          have hold := (hrenewed g).mpr ⟨t, ht, htlast, htcount⟩
          omega
    · rw [if_neg hpc] at hn
      rw [hn]
      refine (hrenewed g).trans ⟨?_, ?_⟩
      · rintro ⟨t, ht, htlast, htcount⟩
        have hmono := count_mono_renews h hp t
        exact ⟨t, ht, htlast, by omega⟩
      · rintro ⟨t, ht, htlast, htcount⟩
        refine ⟨t, ht, htlast, ?_⟩
        rw [hcount] at htcount
        split at htcount
        · -- a rank that is not the last has left the stage out
          rename_i hand
          obtain ⟨rfl, hor⟩ := hand
          obtain ⟨hcheck, hnot⟩ := hor.resolve_left hpc
          rw [hinv.updated_eq ht (by rw [hcheck]; decide)] at hnot
          have hat : s.count t pc = (s.ranks t).round := by
            apply State.count_eq
            rw [hcheck]
            exact Nat.le_of_lt (checkLast_lt_of_renews hp)
          by_cases hg : g = (s.ranks t).round
          · exact absurd (hg ▸ htlast) hnot
          · omega
        · exact htcount

/-! ## Values -/

/-- What rank `t` is to get in a round. -/
def result (op : AllReduce T X Y) (xs : Nat → List Y → T) (round t : Nat) : Y :=
  op.gatherOp ((List.range op.worldSize).map fun i => some (op.reduced xs round i))
    (op.input xs round t)

structure ValueInv (op : AllReduce T X Y) (xs : Nat → List Y → T) (s : State X Y) : Prop where
  partsAt : ∀ g, ∀ t < op.worldSize, g < s.count t .putPart →
    s.partsAt g t = some (op.reduced xs g t)
  reducedPart : ∀ t < op.worldSize, (s.ranks t).round < s.count t .reduce →
    (s.ranks t).reducedPart = some (op.reduced xs (s.ranks t).round t)
  gathered : ∀ t < op.worldSize, (s.ranks t).round < s.count t .gather →
    (s.ranks t).gathered = some (op.result xs (s.ranks t).round t)
  returned : ∀ t < op.worldSize, (s.ranks t).returned = op.history xs (s.ranks t).round t

/-- A local variable that gets its value at stage `pc` has it at the stages behind. -/
theorem local_step {β : Type} {pc : Pc} {v v' new : β} {w : Nat → β}
    (h : op.step xs s rank = some s') (hp : pc.counted = true) (hret : pc ≠ .ret)
    (hv : v' = if (s.ranks rank).pc = pc then new else v)
    (hnew : (s.ranks rank).pc = pc → new = w (s.ranks rank).round)
    (hold : (s.ranks rank).round < s.count rank pc → v = w (s.ranks rank).round) :
    (s'.ranks rank).round < s'.count rank pc → v' = w (s'.ranks rank).round := by
  intro hlt
  have hround := step_round_self h
  have hcount := step_count_self h hp
  by_cases hpc : (s.ranks rank).pc = pc
  · rw [if_neg (hpc.symm ▸ hret), Nat.add_zero] at hround
    rw [hv, if_pos hpc, hround]
    exact hnew hpc
  · rw [if_neg hpc] at hv hcount
    have hle : s.count rank pc ≤ (s.ranks rank).round + 1 := s.count_le pc
    have hsame : (s'.ranks rank).round = (s.ranks rank).round := by
      split at hround <;> omega
    rw [hv, hsame]
    exact hold (by omega)

theorem step_count_ne (h : op.step xs s rank = some s') (ht : t ≠ rank) (pc : Pc) :
    s'.count t pc = s.count t pc := by
  unfold State.count
  rw [step_ranks_ne h ht]

/-- One step keeps what the gather half relies on. -/
theorem GatherInv.step (hinv : GatherInv op s) (hord : InOrder op s)
    (h : op.step xs s rank = some s') : GatherInv op s' := by
  have hrank := lt_of_step h
  obtain ⟨hparts, hupdated, hready⟩ := step_properties h
  obtain ⟨hparts', hupdated', hready', -⟩ := step_locals h
  refine ⟨hinv.updated_step h, hinv.ready_step h, hinv.set_step h, hinv.full_step h,
    hinv.last_step hord h, hinv.renewed_step hord rfl hinv.newParts hparts h,
    hinv.renewed_step hord rfl hinv.newUpdated hupdated h,
    hinv.renewed_step hord rfl hinv.newReady hready h, ?_, ?_, ?_⟩
  · intro t ht
    by_cases htr : t = rank
    · subst htr
      refine local_step (w := id) h rfl (by simp) hparts' (fun hpc => ?_) (hinv.copiedParts t ht)
      exact hinv.copied_eq hord rfl hinv.newParts ht (by rw [hpc]; decide) (by rw [hpc]; decide)
    · rw [step_ranks_ne h htr, step_count_ne h htr]
      exact hinv.copiedParts t ht
  · intro t ht
    by_cases htr : t = rank
    · subst htr
      refine local_step (w := id) h rfl (by simp) hupdated' (fun hpc => ?_)
        (hinv.copiedUpdated t ht)
      exact hinv.copied_eq hord rfl hinv.newUpdated ht (by rw [hpc]; decide) (by rw [hpc]; decide)
    · rw [step_ranks_ne h htr, step_count_ne h htr]
      exact hinv.copiedUpdated t ht
  · intro t ht
    by_cases htr : t = rank
    · subst htr
      refine local_step (w := id) h rfl (by simp) hready' (fun hpc => ?_) (hinv.copiedReady t ht)
      exact hinv.copied_eq hord rfl hinv.newReady ht (by rw [hpc]; decide) (by rw [hpc]; decide)
    · rw [step_ranks_ne h htr, step_count_ne h htr]
      exact hinv.copiedReady t ht

/-- A rank leaves `scatter_ready.wait()` only when its event is set. -/
theorem step_waitReady (h : op.step xs s rank = some s') (hpc : (s.ranks rank).pc = .waitReady) :
    s.scatterReady rank = true := by
  simp only [step, hpc, if_pos (lt_of_step h)] at h
  split at h
  · assumption
  · cases h

/-- A rank leaves `parts_ready.wait()` only when the event of its round is set. -/
theorem step_waitGather (h : op.step xs s rank = some s') (hpc : (s.ranks rank).pc = .waitGather) :
    s.partsReadyAt (s.ranks rank).partsReady = true := by
  simp only [step, hpc, if_pos (lt_of_step h)] at h
  split at h
  · assumption
  · cases h

/-- One step keeps the ranks in order: what a rank has waited for, the others have done. -/
theorem InOrder.step (hord : InOrder op s) (hscatter : ScatterInv op xs s) (hgather : GatherInv op s)
    (h : op.step xs s rank = some s') : InOrder op s' := by
  constructor
  · intro t ht r hr
    have hmono := appends_mono h ht r
    have hold := hord.waitReady t ht r hr
    rw [step_count h rfl]
    split
    · -- the list is full
      rename_i hand
      obtain ⟨rfl, hpc⟩ := hand
      have hfull := hscatter.scatterReady t ht (step_waitReady h hpc) r hr
      have hat : s.count t .waitReady = (s.ranks t).round := State.count_at hpc
      have hle : (s.ranks t).round ≤ s.count t .clearReady := s.le_count _
      omega
    · omega
  · intro t ht r hr
    have hmono := count_mono h (show Pc.appendRank.counted = true from rfl) r
    have hold := hord.waitGather t ht r hr
    rw [step_count h rfl]
    split
    · -- all have come
      rename_i hand
      obtain ⟨rfl, hpc⟩ := hand
      have htrue := step_waitGather h hpc
      rw [hgather.copiedReady t ht (State.round_lt_count (by rw [hpc]; decide))] at htrue
      have hall := hgather.partsReady _ htrue r hr
      have hat : s.count t .waitGather = (s.ranks t).round := State.count_at hpc
      omega
    · omega

/-- The order in which the parts of a call have come does not matter to the reduction. -/
def ReducesParts (op : AllReduce T X Y) (xs : Nat → List Y → T) : Prop :=
  ∀ round, ∀ i < op.worldSize, ∀ parts : List X,
    parts.Perm ((List.range op.worldSize).map fun t => op.split (op.input xs round t) i) →
    op.reduceOp parts = op.reduced xs round i

/-- A rank that reduces its list finds all parts of its round there. -/
theorem reduceOp_eq (hreduce : ReducesParts op xs) (hord : InOrder op s)
    (hscatter : ScatterInv op xs s) (hrank : rank < op.worldSize)
    (hpc : (s.ranks rank).pc = .reduce) :
    op.reduceOp (s.tensorParts rank) = op.reduced xs (s.ranks rank).round rank := by
  have hclear : s.count rank .clearParts = (s.ranks rank).round :=
    State.count_eq (by rw [hpc]; decide)
  have hpassed : (s.ranks rank).round < s.count rank .waitReady :=
    State.round_lt_count (by rw [hpc]; decide)
  have hall : ∀ t < op.worldSize, s.count rank .clearParts < s.appends t rank := by
    intro t ht
    have hwait := hord.waitReady rank hrank t ht
    omega
  have hperm := hscatter.tensorParts rank hrank
  rw [filter_range_of_forall hall, hclear] at hperm
  exact hreduce _ rank hrank _ hperm

/-- A rank writes its reduced part under its own name, into the dictionary of its round. -/
theorem step_putPart (h : op.step xs s rank = some s') (hpc : (s.ranks rank).pc = .putPart) :
    s'.partsAt = Function.update s.partsAt (s.ranks rank).parts
      (Function.update (s.partsAt (s.ranks rank).parts) rank (s.ranks rank).reducedPart) := by
  simp only [step, hpc, if_pos (lt_of_step h)] at h
  cases h
  rfl

/-- Every part that was written is the sum of that part over the ranks' inputs of the round. -/
theorem ValueInv.put_step (hinv : ValueInv op xs s) (hgather : GatherInv op s)
    (h : op.step xs s rank = some s') : ∀ g, ∀ t < op.worldSize, g < s'.count t .putPart →
      s'.partsAt g t = some (op.reduced xs g t) := by
  intro g t ht hlt
  have hrank := lt_of_step h
  rw [step_count h rfl] at hlt
  by_cases hpc : (s.ranks rank).pc = .putPart
  · have hat : s.count rank .putPart = (s.ranks rank).round := State.count_at hpc
    rw [step_putPart h hpc,
      hgather.copiedParts rank hrank (State.round_lt_count (by rw [hpc]; decide))]
    by_cases hg : g = (s.ranks rank).round
    · subst hg
      rw [Function.update_self]
      by_cases htr : t = rank
      · subst htr
        rw [Function.update_self]
        exact hinv.reducedPart t ht (State.round_lt_count (by rw [hpc]; decide))
      · rw [Function.update_of_ne htr]
        rw [if_neg fun hand => htr hand.1] at hlt
        exact hinv.partsAt _ t ht hlt
    · rw [Function.update_of_ne hg]
      apply hinv.partsAt g t ht
      split at hlt
      · rename_i hand
        rw [hand.1] at hlt ⊢
        omega
      · exact hlt
  · rw [(step_gather h).1 hpc]
    rw [if_neg fun hand => hpc hand.2] at hlt
    exact hinv.partsAt g t ht hlt

/-- One step keeps what the parts and the outputs hold. -/
theorem ValueInv.step (hreduce : ReducesParts op xs) (hord : InOrder op s)
    (hscatter : ScatterInv op xs s) (hgather : GatherInv op s) (hinv : ValueInv op xs s)
    (h : op.step xs s rank = some s') : ValueInv op xs s' := by
  have hrank := lt_of_step h
  obtain ⟨-, -, -, hreduced, hgathered, hreturned⟩ := step_locals h
  refine ⟨hinv.put_step hgather h, ?_, ?_, ?_⟩
  · intro t ht
    by_cases htr : t = rank
    · subst htr
      refine local_step (w := fun round => some (op.reduced xs round t)) h rfl (by simp) hreduced
        (fun hpc => ?_) (hinv.reducedPart t ht)
      exact congrArg some (reduceOp_eq hreduce hord hscatter ht hpc)
    · rw [step_ranks_ne h htr, step_count_ne h htr]
      exact hinv.reducedPart t ht
  · intro t ht
    by_cases htr : t = rank
    · subst htr
      refine local_step (w := fun round => some (op.result xs round t)) h rfl (by simp) hgathered
        (fun hpc => ?_) (hinv.gathered t ht)
      -- all reduced parts are there
      have hparts : ∀ i ∈ List.range op.worldSize, s.partsAt (s.ranks t).parts i
          = some (op.reduced xs (s.ranks t).round i) := by
        intro i hi
        have hlt := List.mem_range.mp hi
        have hpassed : (s.ranks t).round < s.count t .waitGather :=
          State.round_lt_count (by rw [hpc]; decide)
        have hwait := hord.waitGather t ht i hlt
        have hanti : s.count i .appendRank ≤ s.count i .putPart := State.count_anti (by decide)
        rw [hgather.copiedParts t ht (State.round_lt_count (by rw [hpc]; decide))]
        exact hinv.partsAt _ i hlt (by omega)
      rw [List.map_congr_left hparts, hinv.returned t ht]
      rfl
    · rw [step_ranks_ne h htr, step_count_ne h htr]
      exact hinv.gathered t ht
  · intro t ht
    by_cases htr : t = rank
    · subst htr
      have hround := step_round_self h
      rw [hreturned]
      by_cases hpc : (s.ranks t).pc = .ret
      · rw [if_pos hpc] at hround
        rw [if_pos hpc, hround, hinv.returned t ht,
          hinv.gathered t ht (State.round_lt_count (by rw [hpc]; decide))]
        rfl
      · rw [if_neg hpc, Nat.add_zero] at hround
        rw [if_neg hpc, hround]
        exact hinv.returned t ht
    · rw [step_ranks_ne h htr]
      exact hinv.returned t ht

/-! ## Runs -/

/-- What holds in every state that is reached without a late set. -/
structure Inv (op : AllReduce T X Y) (xs : Nat → List Y → T) (s : State X Y) : Prop where
  order : InOrder op s
  scatter : ScatterInv op xs s
  gather : GatherInv op s
  values : ValueInv op xs s

/-- A step that is no late `set()` keeps the whole invariant. -/
theorem Inv.step (hreduce : ReducesParts op xs) (hinv : Inv op xs s) (hlate : lateSet s rank = false)
    (h : op.step xs s rank = some s') : Inv op xs s' where
  order := hinv.order.step hinv.scatter hinv.gather h
  scatter :=
    ⟨hinv.scatter.parts_step hinv.order hinv.values.returned h, hinv.scatter.ready_step hlate h,
      hinv.scatter.set_step hinv.order h, hinv.scatter.full_step hinv.order h⟩
  gather := hinv.gather.step hinv.order h
  values := hinv.values.step hreduce hinv.order hinv.scatter hinv.gather h

theorem count_new (pc : Pc) : ({} : State X Y).count t pc = 0 := passes_of_le (Nat.zero_le _)

theorem appends_new : ({} : State X Y).appends t i = 0 := rfl

theorem renewed_new (pc : Pc) : Renewed op ({} : State X Y) pc 0 := by
  intro g
  constructor
  · intro hlt
    exact absurd hlt (Nat.not_lt_zero g)
  · rintro ⟨t, -, hlast, -⟩
    cases hlast

/-- The invariant holds before the first round. -/
theorem inv_new : Inv op xs {} where
  order := by
    constructor <;> intro t _ r _ <;> rw [count_new]
    · exact Nat.zero_le _
    · exact Nat.zero_le _
  scatter := by
    refine ⟨fun i _ => ?_, fun i _ htrue => ?_, fun t _ i _ hpc => ?_, fun i hi hfull => ?_⟩
    · rw [filter_range_of_forall_not fun t _ => by rw [count_new, appends_new]; omega]
      exact List.Perm.refl []
    · cases htrue
    · cases hpc
    · have hlt := hfull i hi
      rw [count_new, appends_new] at hlt
      omega
  gather := by
    refine ⟨fun g => ?_, fun g htrue => ?_, fun t _ hpc => ?_, fun hpos g hfull => ?_,
      fun t _ hpc => ?_, renewed_new _, renewed_new _, renewed_new _, fun t _ _ => rfl,
      fun t _ _ => rfl, fun t _ _ => rfl⟩
    · rw [filter_range_of_forall_not fun t _ => by rw [count_new]; omega]
    · cases htrue
    · cases hpc
    · have hlt := hfull 0 hpos
      rw [count_new] at hlt
      omega
    · cases hpc
  values := by
    refine ⟨fun g t _ hlt => ?_, fun t _ hlt => ?_, fun t _ hlt => ?_, fun t _ => rfl⟩
    · rw [count_new] at hlt
      cases hlt
    · rw [count_new] at hlt
      cases hlt
    · rw [count_new] at hlt
      cases hlt

/-- A rank that cannot move waits for one of the two events. -/
theorem waits_of_step_none (hrank : rank < op.worldSize) (h : op.step xs s rank = none) :
    (s.ranks rank).pc = .waitReady ∧ s.scatterReady rank = false ∨
      (s.ranks rank).pc = .waitGather ∧ s.partsReadyAt (s.ranks rank).partsReady = false := by
  cases hpc : (s.ranks rank).pc <;> simp only [step, hpc, if_pos hrank] at h
  case waitReady =>
    split at h
    · cases h
    · rename_i hready
      exact Or.inl ⟨rfl, Bool.eq_false_of_not_eq_true hready⟩
  case waitGather =>
    split at h
    · cases h
    · rename_i hready
      exact Or.inr ⟨rfl, Bool.eq_false_of_not_eq_true hready⟩
  all_goals first | split at h | skip
  all_goals cases h

/-- **Somebody can go on.** -/
theorem Inv.not_stuck (hinv : Inv op xs s) (hpos : 0 < op.worldSize) :
    ∃ rank < op.worldSize, (op.step xs s rank).isSome = true := by
  by_contra hstuck
  have hwaits : ∀ t < op.worldSize,
      (s.ranks t).pc = .waitReady ∧ s.scatterReady t = false ∨
        (s.ranks t).pc = .waitGather ∧ s.partsReadyAt (s.ranks t).partsReady = false := by
    intro t ht
    apply waits_of_step_none ht
    cases hstep : op.step xs s t with
    | none => rfl
    | some s' => exact absurd ⟨t, ht, by rw [hstep]; rfl⟩ hstuck
  -- one of those that have come the least far
  obtain ⟨m, hm, hmin⟩ : ∃ m < op.worldSize, ∀ t < op.worldSize,
      (s.ranks m).round ≤ (s.ranks t).round := by
    obtain ⟨m, hmem, hmin⟩ := Finset.exists_min_image (Finset.range op.worldSize)
      (fun t => (s.ranks t).round) ⟨0, Finset.mem_range.mpr hpos⟩
    exact ⟨m, Finset.mem_range.mp hmem, fun t ht => hmin t (Finset.mem_range.mpr ht)⟩
  have happends : ∀ t < op.worldSize, ∀ i, s.appends t i = (s.ranks t).round + 1 := by
    intro t ht i
    rcases hwaits t ht with ⟨hpc, -⟩ | ⟨hpc, -⟩ <;> simp [State.appends, hpc, Pc.hasAppended]
  -- nobody of that round waits for the list
  have hgathers : ∀ r < op.worldSize, (s.ranks r).round = (s.ranks m).round →
      (s.ranks r).pc = .waitGather ∧ s.partsReadyAt (s.ranks r).partsReady = false := by
    intro r hr hround
    refine (hwaits r hr).resolve_left ?_
    rintro ⟨hpc, hready⟩
    have hclear : s.count r .clearParts = (s.ranks r).round :=
      State.count_eq (by rw [hpc]; decide)
    have hfull : ∀ t < op.worldSize, s.count r .clearParts < s.appends t r := by
      intro t ht
      rw [hclear, happends t ht, hround]
      exact Nat.lt_succ_of_le (hmin t ht)
    rcases hinv.scatter.full r hr hfull with htrue | ⟨t, ht, -, hcheck⟩
    · rw [hready] at htrue
      cases htrue
    · rcases hwaits t ht with ⟨hpc', -⟩ | ⟨hpc', -⟩ <;> simp [hpc'] at hcheck
  have hall : ∀ t < op.worldSize, (s.ranks m).round < s.count t .appendRank := by
    intro t ht
    rcases Nat.lt_or_eq_of_le (hmin t ht) with hlt | heq
    · have hle : (s.ranks t).round ≤ s.count t .appendRank := s.le_count _
      omega
    · rw [heq]
      exact State.round_lt_count (by rw [(hgathers t ht heq.symm).1]; decide)
  obtain ⟨hpc, hready⟩ := hgathers m hm rfl
  rw [hinv.gather.copiedReady m hm (State.round_lt_count (by rw [hpc]; decide))] at hready
  rcases hinv.gather.full hpos _ hall with htrue | ⟨t, ht, hround, hcheck⟩
  · rw [hready] at htrue
    cases htrue
  · simp [(hgathers t ht hround).1] at hcheck

/-- **Any number of calls.**  In a run without a late set, whatever the order of the steps, every
    call that has returned has returned the gathered reductions of its own inputs, no rank is more
    than one call ahead of another, and somebody can go on. -/
theorem rounds_exact (op : AllReduce T X Y) (xs : Nat → List Y → T) (hreduce : ReducesParts op xs)
    (schedule : List Nat) (s : State X Y) (hexec : exec (op.step xs) {} schedule = some s)
    (hlate : AllSteps (op.step xs) (fun s rank => lateSet s rank = false) {} schedule) :
    (∀ t < op.worldSize,
      (s.ranks t).returned = op.history xs (s.ranks t).round t ∧
      (∀ r < op.worldSize, (s.ranks t).round ≤ (s.ranks r).round + 1)) ∧
    (0 < op.worldSize → ∃ rank < op.worldSize, (op.step xs s rank).isSome = true) := by
  have hinv : Inv op xs s :=
    exec_invariant (fun s rank s' hs hc hstep => hs.step hreduce hc hstep) inv_new hlate hexec
  refine ⟨fun t ht => ⟨hinv.values.returned t ht, fun r hr => ?_⟩, hinv.not_stuck⟩
  have hround : (s.ranks t).round ≤ s.count r .appendRank :=
    hinv.order.round_le ht hr (Nat.le_refl _)
  have hle : s.count r .appendRank ≤ (s.ranks r).round + 1 := s.count_le _
  omega

/-- Two ranks that add up pairs of numbers. -/
def pairSums : AllReduce (Nat × Nat) Nat (List (Option Nat)) where
  worldSize := 2
  split x i := if i = 0 then x.1 else x.2
  reduceOp parts := parts.foldr Nat.add 0
  gatherOp parts _ := parts

/-- Rank 1 finds the list of rank 0 full and is held up before it sets the event. -/
def lateSchedule : List Nat :=
  [1, 0, 1] ++ List.replicate 8 0 ++ List.replicate 14 1 ++ List.replicate 28 0 ++
    List.replicate 27 1

/-- **The late set.**  The second call should return two sums; rank 0 has not waited for its
    list. -/
theorem late_set_drops_part :
    (exec (pairSums.step fun _ _ => (1, 1)) {} lateSchedule).map (fun s => (s.ranks 1).returned)
      = some [[some 2, some 2], [some 1, some 2]] := by
  decide +kernel

end Drift.AllReduce
