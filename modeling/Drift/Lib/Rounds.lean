/-
  Processes that go through the same stages in every round.

  What a process in some round has been through is counted: `passes round stage n` is the number of
  rounds in which a process that is at stage `stage` of its round number `round` has left stage `n`
  behind.  A step of the process raises these numbers for the stages that it leaves behind and no
  others, so that what must happen before what, between processes, is an inequality between their
  numbers.

  A list that everybody who has been through a stage has put something on is, in some order, the
  list of those processes (`perm_filter_insert`).
-/
import Mathlib.Data.List.Basic
import Mathlib.Data.List.Nodup
import Mathlib.Data.List.Perm.Basic

namespace Drift

/-! ## Stages -/

/-- In how many rounds a process has left stage `n` behind. -/
def passes (round stage n : Nat) : Nat := round + if n < stage then 1 else 0

variable {round stage n m : Nat}

theorem le_passes : round ≤ passes round stage n := by
  unfold passes
  omega

theorem passes_le : passes round stage n ≤ round + 1 := by
  unfold passes
  split <;> omega

theorem passes_of_lt (h : n < stage) : passes round stage n = round + 1 := by
  rw [passes, if_pos h]

theorem passes_of_le (h : stage ≤ n) : passes round stage n = round := by
  rw [passes, if_neg (by omega)]
  rfl

/-- A later stage is not left behind more often. -/
theorem passes_anti (h : n ≤ m) : passes round stage m ≤ passes round stage n := by
  unfold passes
  split <;> split <;> omega

/-! ## Who has been there -/

/-- One more process has been there. -/
theorem perm_filter_insert {w a : Nat} {p q : Nat → Prop} [DecidablePred p] [DecidablePred q]
    (ha : a < w) (hp : ¬ p a) (hq : ∀ t < w, q t ↔ p t ∨ t = a) :
    ((List.range w).filter (q ·)).Perm ((List.range w).filter (p ·) ++ [a]) := by
  have hnodup : ((List.range w).filter (p ·) ++ [a]).Nodup := by
    refine List.Nodup.append (List.nodup_range.filter _) (List.nodup_singleton a) ?_
    intro t ht hta
    obtain rfl := List.mem_singleton.mp hta
    exact hp (of_decide_eq_true (List.mem_filter.mp ht).2)
  refine (List.perm_ext_iff_of_nodup (List.nodup_range.filter _) hnodup).mpr fun t => ?_
  simp only [List.mem_filter, List.mem_range, decide_eq_true_eq, List.mem_append,
    List.mem_singleton]
  constructor
  · rintro ⟨ht, hqt⟩
    rcases (hq t ht).mp hqt with hpt | hta
    · exact Or.inl ⟨ht, hpt⟩
    · exact Or.inr hta
  · rintro (⟨ht, hpt⟩ | rfl)
    · exact ⟨ht, (hq t ht).mpr (Or.inl hpt)⟩
    · exact ⟨ha, (hq t ha).mpr (Or.inr rfl)⟩

/-- One more of those that `p` holds of. -/
theorem length_filter_insert {w a : Nat} {p q : Nat → Prop} [DecidablePred p] [DecidablePred q]
    (ha : a < w) (hp : ¬ p a) (hq : ∀ t < w, q t ↔ p t ∨ t = a) :
    ((List.range w).filter (q ·)).length = ((List.range w).filter (p ·)).length + 1 := by
  rw [(perm_filter_insert ha hp hq).length_eq, List.length_append, List.length_singleton]

/-- Everybody has been there. -/
theorem filter_range_of_forall {w : Nat} {p : Nat → Prop} [DecidablePred p]
    (h : ∀ t < w, p t) : (List.range w).filter (p ·) = List.range w :=
  List.filter_eq_self.mpr fun t ht => decide_eq_true (h t (List.mem_range.mp ht))

/-- Nobody has been there. -/
theorem filter_range_of_forall_not {w : Nat} {p : Nat → Prop} [DecidablePred p]
    (h : ∀ t < w, ¬ p t) : (List.range w).filter (p ·) = [] :=
  List.filter_eq_nil_iff.mpr fun t ht htrue =>
    h t (List.mem_range.mp ht) (of_decide_eq_true htrue)

theorem filter_range_congr {w : Nat} {p q : Nat → Prop} [DecidablePred p] [DecidablePred q]
    (h : ∀ t < w, p t ↔ q t) : (List.range w).filter (p ·) = (List.range w).filter (q ·) :=
  List.filter_congr fun t ht => decide_eq_decide.mpr (h t (List.mem_range.mp ht))

/-- As many as there are: everybody has been there. -/
theorem forall_of_length_filter {w : Nat} {p : Nat → Prop} [DecidablePred p]
    (h : ((List.range w).filter (p ·)).length = w) : ∀ t < w, p t := by
  intro t ht
  have hall : ((List.range w).filter (p ·)).length = (List.range w).length := by
    rw [h, List.length_range]
  exact of_decide_eq_true (List.length_filter_eq_length_iff.mp hall t (List.mem_range.mpr ht))

end Drift
