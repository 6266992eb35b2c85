/-
  Rearrangements of lists that are split into owners: what happens to the concatenation of all
  parts when one part changes, when one entry leaves an association list, and when the selected
  positions of a list are put in front of the others.
-/
import Mathlib.Data.List.AList
import Mathlib.Data.List.Perm.Subperm

namespace Drift

variable {ι β : Type}

/-- Extending the part of one owner by `ys` adds `ys` to the whole. -/
theorem flatMap_perm_of_extend {f f' : ι → List β} {r : ι} {ys : List β} :
    ∀ {l : List ι}, l.Nodup → r ∈ l → (∀ x ∈ l, x ≠ r → f' x = f x) → f' r = f r ++ ys →
      (l.flatMap f').Perm (l.flatMap f ++ ys)
  | [], _, hr, _, _ => absurd hr List.not_mem_nil
  | x :: l, hnd, hr, hne, heq => by
    rw [List.nodup_cons] at hnd
    simp only [List.flatMap_cons]
    rcases List.mem_cons.mp hr with rfl | hr
    · have hrest : l.flatMap f' = l.flatMap f :=
        List.flatMap_congr fun x hx => hne x (List.mem_cons_of_mem _ hx)
          (fun hxr => hnd.1 (hxr ▸ hx))
      rw [heq, hrest, List.append_assoc, List.append_assoc]
      exact List.Perm.append_left _ List.perm_append_comm
    · have hx : f' x = f x := hne x List.mem_cons_self (fun hxr => hnd.1 (hxr ▸ hr))
      have hrec := flatMap_perm_of_extend hnd.2 hr
        (fun y hy => hne y (List.mem_cons_of_mem _ hy)) heq
      rw [hx, List.append_assoc]
      exact List.Perm.append_left _ hrec

theorem exists_mem_of_forall₂ {α : Type} {R : α → β → Prop} {xs : List α} {ys : List β} {y : β}
    (h : List.Forall₂ R xs ys) (hy : y ∈ ys) : ∃ x ∈ xs, R x y := by
  induction h with
  | nil => exact absurd hy List.not_mem_nil
  | cons hxy _ ih =>
    rcases List.mem_cons.mp hy with rfl | hy
    · exact ⟨_, List.mem_cons_self, hxy⟩
    · obtain ⟨x, hx, h⟩ := ih hy
      exact ⟨x, List.mem_cons_of_mem _ hx, h⟩

/-- When the parts of all owners have no repetition, an element determines its owner and its
    position in the part. -/
theorem getElem_inj_of_nodup_flatMap {f : ι → List β} {l : List ι} (h : (l.flatMap f).Nodup)
    {i j a b : Nat} (hi : i < l.length) (hj : j < l.length) (ha : a < (f l[i]).length)
    (hb : b < (f l[j]).length) (heq : (f l[i])[a] = (f l[j])[b]) : i = j ∧ a = b := by
  rw [List.nodup_flatMap] at h
  obtain ⟨hparts, hpair⟩ := h
  have hdisj : ∀ {i j : Nat} (hi : i < l.length) (hj : j < l.length), i < j →
      List.Disjoint (f l[i]) (f l[j]) := fun hi hj hlt =>
    List.pairwise_iff_getElem.mp hpair _ _ hi hj hlt
  rcases Nat.lt_trichotomy i j with hlt | rfl | hlt
  · exact absurd (List.getElem_mem hb) (hdisj hi hj hlt (heq ▸ List.getElem_mem ha))
  · exact ⟨rfl, (hparts _ (List.getElem_mem hi)).getElem_inj_iff.mp heq⟩
  · exact absurd (List.getElem_mem ha) (hdisj hj hi hlt (heq ▸ List.getElem_mem hb))

/-- An association list is the entry of one of its keys and the rest. -/
theorem entries_perm_erase {κ : Type} [DecidableEq κ] {ν : κ → Type} {d : AList ν} {k : κ}
    {v : ν k} (h : d.lookup k = some v) : d.entries.Perm (⟨k, v⟩ :: (d.erase k).entries) := by
  have hmem : k ∈ d.entries.keys := List.dlookup_isSome.mp (by
    rw [show d.entries.dlookup k = some v from h]
    rfl)
  obtain ⟨w, l₁, l₂, hk, hsplit, hrest⟩ := List.exists_of_kerase hmem
  have hw : d.entries.dlookup k = some w := by
    rw [hsplit, List.dlookup_append, List.dlookup_eq_none.mpr hk, List.dlookup_cons_eq]
    rfl
  obtain rfl : w = v := Option.some.inj (hw.symm.trans h)
  show d.entries.Perm (⟨k, w⟩ :: List.kerase k d.entries)
  rw [hrest, hsplit]
  exact List.perm_middle

/-- Inserting new keys adds their entries. -/
theorem entries_foldl_insert {κ ν : Type} [DecidableEq κ] :
    ∀ (items : List (κ × ν)) (d : AList fun _ : κ => ν), (items.map Prod.fst).Nodup →
      (∀ k ∈ items.map Prod.fst, k ∉ d) →
      (items.foldl (fun d item => d.insert item.1 item.2) d).entries.Perm
        (items.map (fun item => ⟨item.1, item.2⟩) ++ d.entries)
  | [], _, _, _ => List.Perm.refl _
  | (k, v) :: items, d, hnd, hnew => by
    rw [List.map_cons, List.nodup_cons] at hnd
    have hk : k ∉ d := hnew k List.mem_cons_self
    have hrec := entries_foldl_insert items (d.insert k v) hnd.2 (by
      intro k' hk' hmem
      rcases AList.mem_insert _ |>.mp hmem with rfl | hmem
      · exact hnd.1 hk'
      · exact hnew k' (List.mem_cons_of_mem _ hk') hmem)
    rw [AList.entries_insert_of_notMem hk] at hrec
    exact hrec.trans List.perm_middle

/-- Erasing the keys of some entries leaves the others. -/
theorem entries_foldl_erase {κ ν : Type} [DecidableEq κ] {rest : List (Σ _ : κ, ν)} :
    ∀ (items : List (κ × ν)) (d : AList fun _ : κ => ν),
      d.entries.Perm (items.map (fun item => ⟨item.1, item.2⟩) ++ rest) →
      ((items.map Prod.fst).foldl (fun d k => d.erase k) d).entries.Perm rest
  | [], _, h => h
  | (k, v) :: items, d, h => by
    have hlookup : d.lookup k = some v :=
      AList.mem_lookup_iff.mpr (h.mem_iff.mpr List.mem_cons_self)
    have herase := (entries_perm_erase hlookup).symm.trans h
    exact entries_foldl_erase items (d.erase k) herase.cons_inv

/-- The list around a position, before and after the entry there is modified. -/
theorem exists_split_modify {xs : List β} {i : Nat} {x : β} (h : xs[i]? = some x) :
    ∃ front back, xs = front ++ x :: back ∧ ∀ g : β → β, xs.modify i g = front ++ g x :: back := by
  obtain ⟨hi, rfl⟩ := List.getElem?_eq_some_iff.mp h
  refine ⟨xs.take i, xs.drop (i + 1), ?_, fun g => List.modify_eq_take_cons_drop hi⟩
  rw [List.getElem_cons_drop, List.take_append_drop]

/-- Without repetitions, some of the numbers below `n` followed by the others are all of them. -/
theorem range_perm_select {n : Nat} {l : List Nat} (hnd : l.Nodup) (hlt : ∀ i ∈ l, i < n) :
    (List.range n).Perm (l ++ (List.range n).filter (· ∉ l)) := by
  have hnd' : (l ++ (List.range n).filter (· ∉ l)).Nodup := by
    refine List.nodup_append.mpr ⟨hnd, List.nodup_range.filter _, ?_⟩
    rintro i hi j hj rfl
    exact absurd hi (by simpa using (List.mem_filter.mp hj).2)
  rw [List.perm_ext_iff_of_nodup List.nodup_range hnd']
  intro i
  simp only [List.mem_range, List.mem_append, List.mem_filter, decide_eq_true_eq]
  constructor
  · intro hi
    by_cases h : i ∈ l
    · exact Or.inl h
    · exact Or.inr ⟨hi, h⟩
  · rintro (h | h)
    · exact hlt i h
    · exact h.1

end Drift
