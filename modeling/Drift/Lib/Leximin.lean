/-
  The leximin order on bags of values.

  Of two bags the one with the smaller smallest value is worse; where the smallest values agree, the
  second smallest decide, and so on.  Counting says it at once: at the smallest value that the two
  do not have equally often, the worse one has it more often (`WorseThan`).  On sorted lists of
  equal length this is the lexicographic order (`worseThan_coe_iff`).  In terms of counts it is
  plain that what two bags share can be taken away (`worseThan_add_right`).

  The results are about raising some of the values of a family by the same amount.  To raise the
  worse of two parts makes the better whole (`worseThan_raise`), and a part that is left although it
  was lowered first is left for a worse one (`worseThan_of_lowered`).
-/
import Mathlib.Algebra.Order.Group.Defs
import Mathlib.Data.Finset.Max
import Mathlib.Data.List.Lex
import Mathlib.Data.Multiset.Filter

namespace Drift

/-! ## The order -/

section Order

variable {α : Type} [LinearOrder α]

/-- `M` is worse than `N`. -/
def WorseThan (M N : Multiset α) : Prop :=
  ∃ a, (∀ b < a, M.count b = N.count b) ∧ N.count a < M.count a

theorem worseThan_irrefl (M : Multiset α) : ¬ WorseThan M M := by
  rintro ⟨a, -, hlt⟩
  exact Nat.lt_irrefl _ hlt

theorem WorseThan.trans {M N P : Multiset α} (h : WorseThan M N) (h' : WorseThan N P) :
    WorseThan M P := by
  obtain ⟨a, hbelow, hlt⟩ := h
  obtain ⟨a', hbelow', hlt'⟩ := h'
  rcases lt_trichotomy a a' with hlt₀ | rfl | hlt₀
  · refine ⟨a, fun b hb => (hbelow b hb).trans (hbelow' b (hb.trans hlt₀)), ?_⟩
    rw [← hbelow' a hlt₀]
    exact hlt
  · exact ⟨a, fun b hb => (hbelow b hb).trans (hbelow' b hb), hlt'.trans hlt⟩
  · refine ⟨a', fun b hb => (hbelow b (hb.trans hlt₀)).trans (hbelow' b hb), ?_⟩
    rw [hbelow a' hlt₀]
    exact hlt'

theorem WorseThan.asymm {M N : Multiset α} (h : WorseThan M N) : ¬ WorseThan N M :=
  fun h' => worseThan_irrefl M (h.trans h')

/-- To get better is a strict order. -/
instance better_isStrictOrder : IsStrictOrder (Multiset α) fun M N => WorseThan N M where
  irrefl := worseThan_irrefl
  trans _ _ _ h h' := h'.trans h

/-- Two bags are equal, or one is worse. -/
theorem worseThan_trichotomy (M N : Multiset α) : WorseThan M N ∨ M = N ∨ WorseThan N M := by
  by_cases heq : M = N
  · exact Or.inr (Or.inl heq)
  -- the smallest value that they do not have equally often
  let differ := (M.toFinset ∪ N.toFinset).filter fun a => M.count a ≠ N.count a
  have hmem : ∀ a, a ∈ differ ↔ M.count a ≠ N.count a := by
    intro a
    rw [Finset.mem_filter, and_iff_right_iff_imp]
    intro hne
    rw [Finset.mem_union, Multiset.mem_toFinset, Multiset.mem_toFinset]
    by_contra hnone
    rw [not_or] at hnone
    rw [Multiset.count_eq_zero.mpr hnone.1, Multiset.count_eq_zero.mpr hnone.2] at hne
    exact hne rfl
  have hne : differ.Nonempty := by
    by_contra hempty
    refine heq (Multiset.ext.mpr fun a => ?_)
    by_contra ha
    exact hempty ⟨a, (hmem a).mpr ha⟩
  have hbelow : ∀ b < differ.min' hne, M.count b = N.count b := by
    intro b hb
    by_contra hdiff
    exact absurd (differ.min'_le b ((hmem b).mpr hdiff)) (not_le_of_gt hb)
  rcases Nat.lt_or_gt_of_ne ((hmem _).mp (differ.min'_mem hne)) with hlt | hlt
  · exact Or.inr (Or.inr ⟨_, fun b hb => (hbelow b hb).symm, hlt⟩)
  · exact Or.inl ⟨_, hbelow, hlt⟩

/-- **What two bags share can be taken away.** -/
theorem worseThan_add_right {M N : Multiset α} (C : Multiset α) :
    WorseThan (M + C) (N + C) ↔ WorseThan M N := by
  simp only [WorseThan, Multiset.count_add, Nat.add_right_cancel_iff, Nat.add_lt_add_iff_right]

/-- A bag with a value below all values of the other is worse. -/
theorem worseThan_of_forall_lt {M N : Multiset α} {m : α} (hm : m ∈ M) (h : ∀ n ∈ N, m < n) :
    WorseThan M N := by
  have hne : M.toFinset.Nonempty := ⟨m, Multiset.mem_toFinset.mpr hm⟩
  have hle : M.toFinset.min' hne ≤ m := M.toFinset.min'_le m (Multiset.mem_toFinset.mpr hm)
  have hnone : ∀ b ≤ M.toFinset.min' hne, N.count b = 0 := by
    intro b hb
    refine Multiset.count_eq_zero.mpr fun hmem => ?_
    exact absurd (h b hmem) (not_lt_of_ge (hb.trans hle))
  refine ⟨M.toFinset.min' hne, fun b hb => ?_, ?_⟩
  · rw [hnone b (le_of_lt hb), Multiset.count_eq_zero]
    intro hmem
    exact absurd (M.toFinset.min'_le b (Multiset.mem_toFinset.mpr hmem)) (not_le_of_gt hb)
  · rw [hnone _ le_rfl, Multiset.count_pos]
    exact Multiset.mem_toFinset.mp (M.toFinset.min'_mem hne)

/-- **Sorted lists** of equal length are compared lexicographically. -/
theorem worseThan_coe_iff : ∀ {xs ys : List α}, xs.Pairwise (· ≤ ·) → ys.Pairwise (· ≤ ·) →
    xs.length = ys.length → (WorseThan (xs : Multiset α) ys ↔ xs < ys) := by
  intro xs
  induction xs with
  | nil =>
    intro ys _ _ hlength
    obtain rfl := List.length_eq_zero_iff.mp hlength.symm
    exact iff_of_false (worseThan_irrefl _) (lt_irrefl _)
  | cons x xs ih =>
    intro ys hxs hys hlength
    cases ys with
    | nil => nomatch hlength
    | cons y ys =>
      have hlt : ∀ {x y : α} {xs ys : List α}, (y :: ys).Pairwise (· ≤ ·) → x < y →
          WorseThan ((x :: xs : List α) : Multiset α) (y :: ys : List α) := by
        intro x y xs ys hys hxy
        refine worseThan_of_forall_lt (Multiset.mem_coe.mpr List.mem_cons_self) fun n hn => ?_
        rcases List.mem_cons.mp (Multiset.mem_coe.mp hn) with rfl | hn
        · exact hxy
        · exact lt_of_lt_of_le hxy (List.rel_of_pairwise_cons hys hn)
      rcases lt_trichotomy x y with hxy | rfl | hxy
      · exact iff_of_true (hlt hys hxy) (List.Lex.rel hxy)
      · rw [← Multiset.cons_coe, ← Multiset.cons_coe, ← Multiset.singleton_add,
          ← Multiset.singleton_add, add_comm, add_comm _ (ys : Multiset α), worseThan_add_right,
          ih hxs.of_cons hys.of_cons (Nat.succ.inj hlength)]
        exact (List.lex_cons_iff (r := (· < ·))).symm
      · refine iff_of_false (hlt hxs hxy).asymm (not_lt_of_gt ?_)
        exact List.Lex.rel hxy

end Order

/-! ## Raising values -/

section Raise

variable {α : Type} [AddCommGroup α] [LinearOrder α] [IsOrderedAddMonoid α]

theorem count_map_add (t b : α) (M : Multiset α) : (M.map (· + t)).count b = M.count (b - t) := by
  have h := Multiset.count_map_eq_count' (· + t) M (add_left_injective t) (b - t)
  rwa [sub_add_cancel] at h

/-- Lowered values are worse. -/
theorem worseThan_map_add {M : Multiset α} (hM : M ≠ 0) {t : α} (ht : t < 0) :
    WorseThan (M.map (· + t)) M := by
  obtain ⟨m, hm⟩ := Multiset.exists_mem_of_ne_zero hM
  have hne : M.toFinset.Nonempty := ⟨m, Multiset.mem_toFinset.mpr hm⟩
  refine worseThan_of_forall_lt (Multiset.mem_map_of_mem (· + t)
    (Multiset.mem_toFinset.mp (M.toFinset.min'_mem hne))) fun n hn => ?_
  have hle := M.toFinset.min'_le n (Multiset.mem_toFinset.mpr hn)
  exact lt_of_lt_of_le (add_lt_of_neg_right _ ht) hle

variable {ι : Type} [DecidableEq ι]

/-- The values of a family at these indices. -/
def valuesOn (f : ι → α) (S : Finset ι) : Multiset α := S.val.map f

/-- The family with its values at `S` raised by `t`. -/
def raiseOn (f : ι → α) (t : α) (S : Finset ι) : ι → α := fun i => if i ∈ S then f i + t else f i

omit [LinearOrder α] [IsOrderedAddMonoid α] in
theorem raiseOn_zero (f : ι → α) (S : Finset ι) : raiseOn f 0 S = f := by
  funext i
  rw [raiseOn, add_zero, ite_self]

omit [LinearOrder α] [IsOrderedAddMonoid α] in
theorem raiseOn_raiseOn (f : ι → α) (t t' : α) (S : Finset ι) :
    raiseOn (raiseOn f t S) t' S = raiseOn f (t + t') S := by
  funext i
  simp only [raiseOn]
  split
  · exact add_assoc _ _ _
  · rfl

omit [AddCommGroup α] [LinearOrder α] [IsOrderedAddMonoid α] in
/-- The indices that are in `T`, and the others. -/
theorem valuesOn_split (f : ι → α) (S T : Finset ι) :
    valuesOn f S = valuesOn f (S ∩ T) + valuesOn f (S \ T) := by
  unfold valuesOn
  rw [← Multiset.map_add, ← Finset.filter_mem_eq_inter, ← Finset.filter_notMem_eq_sdiff,
    Finset.filter_val, Finset.filter_val, Multiset.filter_add_not]

omit [LinearOrder α] [IsOrderedAddMonoid α] in
theorem valuesOn_raiseOn_of_subset (f : ι → α) (t : α) {S T : Finset ι} (h : S ⊆ T) :
    valuesOn (raiseOn f t T) S = (valuesOn f S).map (· + t) := by
  unfold valuesOn
  rw [Multiset.map_map]
  refine Multiset.map_congr rfl fun i hi => ?_
  exact if_pos (h hi)

omit [LinearOrder α] [IsOrderedAddMonoid α] in
theorem valuesOn_raiseOn_of_disjoint (f : ι → α) (t : α) {S T : Finset ι} (h : ∀ i ∈ S, i ∉ T) :
    valuesOn (raiseOn f t T) S = valuesOn f S := by
  unfold valuesOn
  refine Multiset.map_congr rfl fun i hi => ?_
  exact if_neg (h i hi)

omit [LinearOrder α] [IsOrderedAddMonoid α] in
/-- The raised family beside the part before it was raised. -/
theorem valuesOn_raiseOn_add (f : ι → α) (t : α) {S U : Finset ι} (h : S ⊆ U) :
    valuesOn (raiseOn f t S) U + valuesOn f S = (valuesOn f S).map (· + t) + valuesOn f U := by
  have hinter : U ∩ S = S := Finset.inter_eq_right.mpr h
  rw [valuesOn_split (raiseOn f t S) U S, valuesOn_split f U S, hinter,
    valuesOn_raiseOn_of_subset f t (Finset.Subset.refl S),
    valuesOn_raiseOn_of_disjoint f t fun i hi => (Finset.mem_sdiff.mp hi).2, add_assoc,
    add_comm (valuesOn f (U \ S))]

/-- **To raise the worse part** makes the better whole. -/
theorem worseThan_raise {f : ι → α} {t : α} (ht : 0 < t) {S T U : Finset ι} (hS : S ⊆ U)
    (hT : T ⊆ U) (h : WorseThan (valuesOn f S) (valuesOn f T)) :
    WorseThan (valuesOn (raiseOn f t T) U) (valuesOn (raiseOn f t S) U) := by
  obtain ⟨a, hbelow, hlt⟩ := h
  -- how often a value occurs in the raised family
  have hcount : ∀ {R : Finset ι}, R ⊆ U → ∀ b, (valuesOn (raiseOn f t R) U).count b
      + (valuesOn f R).count b = (valuesOn f R).count (b - t) + (valuesOn f U).count b := by
    intro R hR b
    have hbag := congrArg (Multiset.count b) (valuesOn_raiseOn_add f t hR)
    rw [Multiset.count_add, Multiset.count_add, count_map_add] at hbag
    exact hbag
  refine ⟨a, fun b hb => ?_, ?_⟩
  · have hb' : b - t < a := (sub_lt_self b ht).trans hb
    have hS' := hcount hS b
    have hT' := hcount hT b
    have hsame := hbelow b hb
    have hsame' := hbelow (b - t) hb'
    omega
  · have hS' := hcount hS a
    have hT' := hcount hT a
    have hsame := hbelow (a - t) (sub_lt_self a ht)
    omega

/-- **To raise a part that no other is worse than** makes the best whole. -/
theorem not_worseThan_raise {f : ι → α} {t : α} (ht : 0 < t) {S T U : Finset ι} (hS : S ⊆ U)
    (hT : T ⊆ U) (h : ¬ WorseThan (valuesOn f T) (valuesOn f S)) :
    ¬ WorseThan (valuesOn (raiseOn f t S) U) (valuesOn (raiseOn f t T) U) := by
  rcases worseThan_trichotomy (valuesOn f S) (valuesOn f T) with hlt | heq | hlt
  · exact (worseThan_raise ht hS hT hlt).asymm
  · -- equal parts make equal wholes
    have hbags : valuesOn (raiseOn f t S) U = valuesOn (raiseOn f t T) U := by
      have hsum := valuesOn_raiseOn_add f t hS
      rw [heq, ← valuesOn_raiseOn_add f t hT] at hsum
      exact add_right_cancel hsum
    rw [hbags]
    exact worseThan_irrefl _
  · exact absurd hlt h

/-- **A part that is left although it was lowered** is left for a worse one. -/
theorem worseThan_of_lowered {f : ι → α} {t : α} (ht : t < 0) {S T : Finset ι}
    (hcard : S.card = T.card) (hne : T ≠ S)
    (h : ¬ WorseThan (valuesOn (raiseOn f t S) S) (valuesOn (raiseOn f t S) T)) :
    WorseThan (valuesOn f T) (valuesOn f S) := by
  have hrest : ((valuesOn f (S \ T)).map (· + t)) ≠ 0 := by
    intro hzero
    have hsub : S ⊆ T := Finset.sdiff_eq_empty_iff_subset.mp (Finset.val_eq_zero.mp
      (Multiset.map_eq_zero.mp (Multiset.map_eq_zero.mp hzero)))
    exact hne (Finset.eq_of_subset_of_card_le hsub (Nat.le_of_eq hcard.symm)).symm
  have hdrop : WorseThan ((valuesOn f (S \ T)).map (· + t)) (valuesOn f (S \ T)) :=
    worseThan_map_add (fun hzero => hrest (by rw [hzero]; rfl)) ht
  -- the part that both share does not count
  have hS : valuesOn (raiseOn f t S) S
      = (valuesOn f (S \ T)).map (· + t) + (valuesOn f (S ∩ T)).map (· + t) := by
    rw [valuesOn_raiseOn_of_subset f t (Finset.Subset.refl S), valuesOn_split f S T,
      Multiset.map_add, add_comm]
  have hT : valuesOn (raiseOn f t S) T
      = valuesOn f (T \ S) + (valuesOn f (S ∩ T)).map (· + t) := by
    rw [valuesOn_split _ T S, Finset.inter_comm,
      valuesOn_raiseOn_of_subset f t Finset.inter_subset_left,
      valuesOn_raiseOn_of_disjoint f t fun i hi => (Finset.mem_sdiff.mp hi).2, add_comm]
  rw [hS, hT, worseThan_add_right] at h
  have hworse : WorseThan (valuesOn f (T \ S)) (valuesOn f (S \ T)) := by
    rcases worseThan_trichotomy ((valuesOn f (S \ T)).map (· + t)) (valuesOn f (T \ S)) with
      hlt | heq | hlt
    · exact absurd hlt h
    · rw [← heq]
      exact hdrop
    · exact hlt.trans hdrop
  rw [valuesOn_split f T S, valuesOn_split f S T, Finset.inter_comm T S, add_comm,
    add_comm (valuesOn f (S ∩ T)), worseThan_add_right]
  exact hworse

end Raise

end Drift
