/-
  A barrier that a fixed number of processes uses over and over.

  It is `threading.Barrier`: a process enters, waits inside until all have entered, and leaves;
  while they leave nobody enters again.  The process that enters last lets the others go and leaves
  at once.

  How often the processes have entered and left is all that matters (`Barrier.Keeps`): nobody has
  left more often than anybody else has entered (`Keeps.le`), and it is never the case that all are
  held up (`Keeps.not_stuck`).
-/
import Drift.Lib.Rounds

namespace Drift

structure Barrier where
  count : Nat := 0
  draining : Bool := false
deriving DecidableEq, Repr

namespace Barrier

/-- Enter, unless the others are still leaving; `true` for the last one, who has left again. -/
def enter (parties : Nat) (b : Barrier) : Option (Barrier × Bool) :=
  if b.draining then none
  else if b.count + 1 = parties then some (⟨b.count, b.count ≠ 0⟩, true)
  else some (⟨b.count + 1, false⟩, false)

/-- Leave, if all have entered. -/
def leave (b : Barrier) : Option Barrier :=
  if b.draining then some ⟨b.count - 1, b.count - 1 ≠ 0⟩ else none

variable {parties t : Nat} {b b' : Barrier} {entered entered' left left' : Nat → Nat}

/-- The processes are in round `round`: they come in one after the other, or they have all come in
    and go out. -/
structure InRound (parties round : Nat) (b : Barrier) (entered left : Nat → Nat) : Prop where
  filling : b.draining = false → b.count < parties ∧
    b.count = ((List.range parties).filter (round < entered ·)).length ∧
    ∀ t < parties, left t = round ∧ (entered t = round ∨ entered t = round + 1)
  draining : b.draining = true → 0 < b.count ∧
    b.count = ((List.range parties).filter (left · ≤ round)).length ∧
    ∀ t < parties, entered t = round + 1 ∧ (left t = round ∨ left t = round + 1)

/-- The barrier after so many entries and exits. -/
def Keeps (parties : Nat) (b : Barrier) (entered left : Nat → Nat) : Prop :=
  ∃ round, InRound parties round b entered left

theorem keeps_new (hpos : 0 < parties) : Keeps parties {} (fun _ => 0) fun _ => 0 := by
  refine ⟨0, fun _ => ⟨hpos, ?_, fun t _ => ⟨rfl, Or.inl rfl⟩⟩, fun h => ?_⟩
  · rw [filter_range_of_forall_not fun t _ => Nat.lt_irrefl 0]
    rfl
  · cases h

/-- **Nobody is past the barrier before all have come.** -/
theorem Keeps.le (h : Keeps parties b entered left) {r : Nat} (ht : t < parties)
    (hr : r < parties) : left t ≤ entered r := by
  obtain ⟨round, hfilling, hdraining⟩ := h
  cases hb : b.draining with
  | false =>
    obtain ⟨-, -, hall⟩ := hfilling hb
    have htn := hall t ht
    have hrn := hall r hr
    omega
  | true =>
    obtain ⟨-, -, hall⟩ := hdraining hb
    have htn := hall t ht
    have hrn := hall r hr
    omega

theorem Keeps.enter (h : Keeps parties b entered left) (ht : t < parties)
    (hout : entered t = left t) {last : Bool} (henter : b.enter parties = some (b', last))
    (hentered : ∀ r < parties, entered' r = entered r + if r = t then 1 else 0)
    (hleft : ∀ r < parties, left' r = left r + if r = t ∧ last = true then 1 else 0) :
    Keeps parties b' entered' left' := by
  obtain ⟨round, hfilling, -⟩ := h
  unfold Barrier.enter at henter
  split at henter
  · cases henter
  rename_i hdraining
  obtain ⟨hlt, hcount, hall⟩ := hfilling ((Bool.not_eq_true _).mp hdraining)
  have htn := hall t ht
  have hmore : ((List.range parties).filter (round < entered' ·)).length = b.count + 1 := by
    rw [hcount]
    apply length_filter_insert ht
    · omega
    · intro r hr
      rw [hentered r hr]
      by_cases hrt : r = t
      · subst hrt
        simp
        omega
      · simp [hrt]
  split at henter
  · -- the last one: all have entered round `round`
    rename_i hfull
    cases henter
    have hentered' : ∀ r < parties, entered' r = round + 1 := by
      intro r hr
      have hin := forall_of_length_filter (hmore.trans hfull) r hr
      have hrn := hall r hr
      have hrn' := hentered r hr
      split at hrn'
      · rename_i hrt
        subst hrt
        omega
      · omega
    have hleft' : ∀ r < parties, left' r = if r = t then round + 1 else round := by
      intro r hr
      rw [hleft r hr, (hall r hr).1]
      by_cases hrt : r = t <;> simp [hrt]
    by_cases hone : b.count = 0
    · -- nobody else is inside
      refine ⟨round + 1, fun _ => ⟨?_, ?_, fun r hr => ⟨?_, Or.inl (hentered' r hr)⟩⟩, fun hd => ?_⟩
      · show b.count < parties
        omega
      · rw [filter_range_of_forall_not fun r hr => by rw [hentered' r hr]; omega]
        exact hone
      · rw [hleft' r hr, if_pos]
        omega
      · exact absurd (of_decide_eq_true hd) (not_not_intro hone)
    · refine ⟨round, fun hd => ?_, fun _ => ⟨?_, ?_, fun r hr => ⟨hentered' r hr, ?_⟩⟩⟩
      · exact absurd hone (of_decide_eq_false hd)
      · show 0 < b.count
        omega
      · have hrest := length_filter_insert (p := fun r => left' r ≤ round) (q := fun _ => True) ht
          (by rw [hleft' t ht]; simp) fun r hr => by
            rw [hleft' r hr]
            by_cases hrt : r = t <;> simp [hrt]
        rw [filter_range_of_forall fun _ _ => trivial, List.length_range] at hrest
        show b.count = _
        omega
      · rw [hleft' r hr]
        split
        · exact Or.inr rfl
        · exact Or.inl rfl
  · rename_i hnot
    cases henter
    refine ⟨round, fun _ => ⟨?_, hmore.symm, fun r hr => ⟨?_, ?_⟩⟩, fun hd => ?_⟩
    · show b.count + 1 < parties
      omega
    · rw [hleft r hr, (hall r hr).1]
      simp
    · have hrn := hall r hr
      rw [hentered r hr]
      split
      · rename_i hrt
        subst hrt
        omega
      · omega
    · cases hd

theorem Keeps.leave (h : Keeps parties b entered left) (ht : t < parties)
    (hin : entered t = left t + 1) (hleave : b.leave = some b')
    (hentered : ∀ r < parties, entered' r = entered r)
    (hleft : ∀ r < parties, left' r = left r + if r = t then 1 else 0) :
    Keeps parties b' entered' left' := by
  obtain ⟨round, -, hdraining⟩ := h
  unfold Barrier.leave at hleave
  split at hleave
  swap
  · cases hleave
  rename_i hb
  cases hleave
  obtain ⟨hpos, hcount, hall⟩ := hdraining hb
  have htn := hall t ht
  have hfewer : b.count = ((List.range parties).filter (left' · ≤ round)).length + 1 := by
    rw [hcount]
    apply length_filter_insert ht
    · rw [hleft t ht]
      simp
      omega
    · intro r hr
      rw [hleft r hr]
      by_cases hrt : r = t
      · subst hrt
        simp
        omega
      · simp [hrt]
  have hleft' : ∀ r < parties, left' r = round ∨ left' r = round + 1 := by
    intro r hr
    have hrn := hall r hr
    have hrn' := hleft r hr
    split at hrn'
    · rename_i hrt
      subst hrt
      omega
    · omega
  by_cases hlast : b.count - 1 = 0
  · -- the last one that leaves
    have hnone : ∀ r < parties, left' r = round + 1 := by
      intro r hr
      refine (hleft' r hr).resolve_left fun heq => ?_
      have hmem : r ∈ (List.range parties).filter (left' · ≤ round) :=
        List.mem_filter.mpr ⟨List.mem_range.mpr hr, decide_eq_true (Nat.le_of_eq heq)⟩
      have hlength := List.length_pos_of_mem hmem
      omega
    refine ⟨round + 1, fun _ => ⟨?_, ?_, fun r hr => ⟨hnone r hr, ?_⟩⟩, fun hd => ?_⟩
    · show b.count - 1 < parties
      omega
    · rw [filter_range_of_forall_not fun r hr => by rw [hentered r hr, (hall r hr).1]; omega]
      exact hlast
    · rw [hentered r hr, (hall r hr).1]
      exact Or.inl rfl
    · exact absurd hlast (of_decide_eq_true hd)
  · refine ⟨round, fun hd => ?_, fun _ => ⟨?_, ?_, fun r hr => ⟨?_, hleft' r hr⟩⟩⟩
    · exact absurd hlast (of_decide_eq_false hd)
    · show 0 < b.count - 1
      omega
    · show b.count - 1 = _
      omega
    · rw [hentered r hr, (hall r hr).1]

/-- **Somebody can go on**: if those outside cannot enter, one of those inside can leave. -/
theorem Keeps.not_stuck (h : Keeps parties b entered left) :
    (∃ t < parties, entered t = left t ∧ (b.enter parties).isSome = true) ∨
      ∃ t < parties, entered t = left t + 1 ∧ b.leave.isSome = true := by
  obtain ⟨round, hfilling, hdraining⟩ := h
  cases hb : b.draining with
  | false =>
    -- not all have entered
    obtain ⟨hlt, hcount, hall⟩ := hfilling hb
    by_cases hsome : ∃ t < parties, entered t = round
    · obtain ⟨t, ht, heq⟩ := hsome
      refine Or.inl ⟨t, ht, heq.trans (hall t ht).1.symm, ?_⟩
      unfold Barrier.enter
      rw [if_neg (by rw [hb]; exact Bool.false_ne_true)]
      split <;> rfl
    · have hevery : ∀ t < parties, round < entered t := by
        intro t ht
        have htn := hall t ht
        have hne : entered t ≠ round := fun heq => hsome ⟨t, ht, heq⟩
        omega
      rw [filter_range_of_forall hevery, List.length_range] at hcount
      omega
  | true =>
    obtain ⟨hsome, hcount, hall⟩ := hdraining hb
    rw [hcount] at hsome
    obtain ⟨t, hmem⟩ := List.exists_mem_of_length_pos hsome
    obtain ⟨ht, hle⟩ := List.mem_filter.mp hmem
    have ht := List.mem_range.mp ht
    have htn := hall t ht
    have hle : left t ≤ round := of_decide_eq_true hle
    refine Or.inr ⟨t, ht, by omega, ?_⟩
    unfold Barrier.leave
    rw [if_pos hb]
    rfl

end Barrier

end Drift
