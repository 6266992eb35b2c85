/-
  Cutting the numbers below `n` into `w` consecutive parts.

  The parts are given by where they start: `starts r` for the `r`-th of them, so that it ends where
  the next one starts.  A chain of starts from `0` to `n` covers every number once and in order
  (`flatMap_parts`), and a sum may be taken part by part (`sum_parts`).

  `splitStart n w` is the even cut: the first `n % w` parts have one number more than the others.
-/
import Mathlib.Algebra.BigOperators.Group.Finset.Basic
import Mathlib.Algebra.BigOperators.Intervals

namespace Drift

/-! ## Chains of starts -/

section Chain

variable {starts : Nat → Nat}

/-- The parts cover every number, in order. -/
theorem flatMap_parts (hzero : starts 0 = 0) (hmono : Monotone starts) : ∀ w : Nat,
    (List.range w).flatMap (fun r => List.range' (starts r) (starts (r + 1) - starts r))
      = List.range (starts w)
  | 0 => by
    rw [hzero]
    rfl
  | w + 1 => by
    have hle : starts w ≤ starts (w + 1) := hmono (Nat.le_succ w)
    have happ := @List.range'_append_1 0 (starts w) (starts (w + 1) - starts w)
    rw [Nat.zero_add, Nat.add_sub_cancel' hle] at happ
    rw [List.range_succ, List.flatMap_append, flatMap_parts hzero hmono w, List.flatMap_singleton,
      List.range_eq_range', List.range_eq_range']
    exact happ

/-- **A sum part by part.** -/
theorem sum_parts {M : Type} [AddCommMonoid M] (hzero : starts 0 = 0) (hmono : Monotone starts)
    (f : Nat → M) : ∀ w : Nat,
    ∑ r ∈ Finset.range w, ∑ i ∈ Finset.range (starts (r + 1) - starts r), f (starts r + i)
      = ∑ i ∈ Finset.range (starts w), f i
  | 0 => by
    rw [hzero]
    rfl
  | w + 1 => by
    have hle : starts w ≤ starts (w + 1) := hmono (Nat.le_succ w)
    rw [Finset.sum_range_succ, sum_parts hzero hmono f w, ← Finset.sum_range_add,
      Nat.add_sub_cancel' hle]

end Chain

/-! ## The even cut -/

/-- Where the `r`-th of `w` parts of `n` numbers starts. -/
def splitStart (n w r : Nat) : Nat := r * (n / w) + min r (n % w)

@[simp] theorem splitStart_zero (n w : Nat) : splitStart n w 0 = 0 := by
  rw [splitStart, Nat.zero_mul, Nat.zero_min]

theorem splitStart_self {n w : Nat} (hw : 0 < w) : splitStart n w w = n := by
  rw [splitStart, Nat.min_eq_right (Nat.le_of_lt (Nat.mod_lt n hw))]
  exact Nat.div_add_mod n w

/-- The numbers in the `r`-th part. -/
def splitSize (n w r : Nat) : Nat := n / w + if r < n % w then 1 else 0

theorem splitStart_succ (n w r : Nat) :
    splitStart n w (r + 1) = splitStart n w r + splitSize n w r := by
  rw [splitStart, splitStart, splitSize, Nat.succ_mul]
  split <;> omega

theorem splitStart_sub (n w r : Nat) :
    splitStart n w (r + 1) - splitStart n w r = splitSize n w r := by
  rw [splitStart_succ, Nat.add_sub_cancel_left]

theorem splitStart_mono (n w : Nat) : Monotone (splitStart n w) :=
  monotone_nat_of_le_succ fun r => by
    rw [splitStart_succ]
    exact Nat.le_add_right _ _

/-- The `r`-th part ends inside. -/
theorem splitStart_add_le {n w r : Nat} (hr : r < w) :
    splitStart n w r + splitSize n w r ≤ n := by
  rw [← splitStart_succ]
  exact (splitStart_mono n w hr).trans_eq (splitStart_self (Nat.zero_lt_of_lt hr))

/-- The first part of at least two is not everything. -/
theorem splitSize_zero_lt {n w : Nat} (hw : 2 ≤ w) (hn : w ≤ n) : splitSize n w 0 < n := by
  have hpos : 0 < n / w := Nat.div_pos hn (by omega)
  have hle : n / w ≤ splitSize n w 1 := Nat.le_add_right _ _
  have hsecond := splitStart_add_le (n := n) (r := 1) (w := w) hw
  rw [splitStart_succ, splitStart_zero] at hsecond
  omega

theorem splitStart_le {n w r : Nat} (hr : r ≤ w) (hw : 0 < w) : splitStart n w r ≤ n :=
  (splitStart_mono n w hr).trans_eq (splitStart_self hw)

end Drift
