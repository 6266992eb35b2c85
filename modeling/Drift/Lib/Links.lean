/-
  Lists whose elements know the one behind them.

  The links stand beside the elements: the `i`-th is the element behind the `i`-th one, if there is
  one (`Linked`).  Where an element is replaced by several, the links of the new ones and of the one
  before them have to be set, and no other (`linked_splice`).
-/
import Mathlib.Data.List.Basic

namespace Drift

variable {β : Type}

/-- Every element is linked to the one behind it, the last to none. -/
def Linked (ids : List β) (links : List (Option β)) : Prop :=
  links.length = ids.length ∧ ∀ i, i < ids.length → links[i]? = some ids[i + 1]?

/-- The links at some indices, set anew. -/
def setLinks (ids : List β) (indices : List Nat) (links : List (Option β)) : List (Option β) :=
  indices.foldl (fun links i => links.set i ids[i + 1]?) links

/-- An element replaced by others. -/
def splice {γ : Type} (i : Nat) (new xs : List γ) : List γ := xs.take i ++ new ++ xs.drop (i + 1)

theorem map_splice {γ δ : Type} (f : γ → δ) (i : Nat) (new xs : List γ) :
    (splice i new xs).map f = splice i (new.map f) (xs.map f) := by
  simp only [splice, List.map_append, List.map_take, List.map_drop]

theorem length_splice {γ : Type} {i : Nat} {new xs : List γ} (hi : i ≤ xs.length) :
    (splice i new xs).length = i + new.length + (xs.length - (i + 1)) := by
  simp only [splice, List.length_append, List.length_take, List.length_drop]
  omega

theorem getElem?_splice_lt {γ : Type} {i j : Nat} {new xs : List γ} (hi : i ≤ xs.length)
    (hj : j < i) : (splice i new xs)[j]? = xs[j]? := by
  have hlength : j < (xs.take i).length := by
    rw [List.length_take]
    omega
  rw [splice, List.append_assoc, List.getElem?_append_left hlength, List.getElem?_take_of_lt hj]

theorem getElem?_splice_new {γ : Type} {i j : Nat} {new xs : List γ} (hi : i ≤ xs.length)
    (hj : i ≤ j) (hlt : j < i + new.length) : (splice i new xs)[j]? = new[j - i]? := by
  have hlength : (xs.take i).length = i := by
    rw [List.length_take]
    omega
  rw [splice, List.append_assoc, List.getElem?_append_right (by omega), hlength,
    List.getElem?_append_left (by omega)]

/-- Behind the new elements the old ones go on. -/
theorem getElem?_splice_ge {γ : Type} {i j : Nat} {new xs : List γ} (hi : i ≤ xs.length)
    (hj : i + new.length ≤ j) : (splice i new xs)[j]? = xs[j - new.length + 1]? := by
  have hlength : (xs.take i ++ new).length = i + new.length := by
    rw [List.length_append, List.length_take]
    omega
  rw [splice, List.getElem?_append_right (by omega), hlength, List.getElem?_drop]
  congr 1
  omega

theorem take_splice {γ : Type} {i : Nat} {new xs : List γ} (hi : i ≤ xs.length) :
    (splice i new xs).take i = xs.take i := by
  have hlength : (xs.take i).length = i := by
    rw [List.length_take]
    omega
  rw [splice, List.append_assoc, List.take_append_of_le_length (Nat.le_of_eq hlength.symm),
    List.take_take, Nat.min_self]

/-- Elements that are not in the list, in place of one that is. -/
theorem nodup_splice {γ : Type} {i : Nat} {new xs : List γ} (hxs : xs.Nodup) (hnew : new.Nodup)
    (hdisjoint : ∀ a ∈ new, a ∉ xs) : (splice i new xs).Nodup := by
  rw [← List.take_append_drop i xs] at hxs
  obtain ⟨htake, hdrop, hapart⟩ := List.nodup_append.mp hxs
  have hbehind : (xs.drop (i + 1)).Sublist (xs.drop i) := by
    rw [← List.drop_drop]
    exact List.drop_sublist 1 _
  refine List.nodup_append.mpr ⟨List.nodup_append.mpr ⟨htake, hnew, ?_⟩, hbehind.nodup hdrop, ?_⟩
  · rintro a ha b hb rfl
    exact hdisjoint a hb (List.mem_of_mem_take ha)
  · rintro a ha b hb rfl
    rcases List.mem_append.mp ha with ha | ha
    · exact hapart a ha a (hbehind.subset hb) rfl
    · exact hdisjoint a ha (List.mem_of_mem_drop hb)

theorem mem_splice {γ : Type} {i : Nat} {new xs : List γ} {a : γ} (h : a ∈ splice i new xs) :
    a ∈ new ∨ a ∈ xs := by
  rcases List.mem_append.mp h with h | h
  · rcases List.mem_append.mp h with h | h
    · exact Or.inr (List.mem_of_mem_take h)
    · exact Or.inl h
  · exact Or.inr (List.mem_of_mem_drop h)

/-- What `f` does not change stays where an element is modified. -/
theorem map_modify_of_eq {γ δ : Type} {f : γ → γ} {g : γ → δ} (h : ∀ x, g (f x) = g x)
    (xs : List γ) (i : Nat) : (xs.modify i f).map g = xs.map g := by
  refine List.ext_getElem? fun j => ?_
  rw [List.getElem?_map, List.getElem?_map, List.getElem?_modify]
  by_cases hij : i = j
  · cases xs[j]? <;> simp [hij, h]
  · cases xs[j]? <;> simp [hij]

theorem forall_mem_modify {γ : Type} {P : γ → Prop} {f : γ → γ} (hf : ∀ x, P x → P (f x))
    {xs : List γ} (h : ∀ x ∈ xs, P x) (i : Nat) : ∀ x ∈ xs.modify i f, P x := by
  intro x hx
  obtain ⟨j, hj⟩ := List.mem_iff_getElem?.mp hx
  rw [List.getElem?_modify] at hj
  obtain ⟨y, hy, rfl⟩ := Option.map_eq_some_iff.mp hj
  have hP := h y (List.mem_of_getElem? hy)
  split
  · exact hf y hP
  · exact hP

theorem length_setLinks (ids : List β) (indices : List Nat) (links : List (Option β)) :
    (setLinks ids indices links).length = links.length := by
  rw [setLinks]
  induction indices generalizing links with
  | nil => rfl
  | cons i indices ih => rw [List.foldl_cons, ih, List.length_set]

theorem getElem?_setLinks (ids : List β) {j : Nat} : ∀ (indices : List Nat)
    (links : List (Option β)), j < links.length →
      (setLinks ids indices links)[j]? = if j ∈ indices then some ids[j + 1]? else links[j]? := by
  intro indices
  induction indices with
  | nil =>
    intro links _
    rfl
  | cons i indices ih =>
    intro links hj
    have hrest := ih (links.set i ids[i + 1]?) (by rw [List.length_set]; exact hj)
    rw [setLinks, List.foldl_cons]
    refine hrest.trans ?_
    by_cases hmem : j ∈ indices
    · rw [if_pos hmem, if_pos (List.mem_cons_of_mem _ hmem)]
    · rw [if_neg hmem]
      by_cases heq : j = i
      · subst heq
        rw [if_pos List.mem_cons_self, List.getElem?_set_self hj]
      · rw [if_neg (by simp [heq, hmem]), List.getElem?_set_ne (fun h => heq h.symm)]

/-- **An element is replaced by others**, whose links are not set yet.  It is enough to set the
    links from the element before them up to the last of them, as far as there is something
    behind. -/
theorem linked_splice {ids new : List β} {links : List (Option β)} {i : Nat} (h : Linked ids links)
    (hi : i ≤ ids.length) (hnew : new ≠ []) :
    Linked (splice i new ids)
      (setLinks (splice i new ids)
        (List.range' (i - 1) (min (i + new.length) ((splice i new ids).length - 1) - (i - 1)))
        (splice i (List.replicate new.length none) links)) := by
  obtain ⟨hlength, hlinks⟩ := h
  have hpos : 0 < new.length := List.length_pos_iff.mpr hnew
  have hi' : i ≤ links.length := by omega
  have hids : (splice i new ids).length = i + new.length + (ids.length - (i + 1)) :=
    length_splice hi
  have hspliced : (splice i (List.replicate new.length none) links).length
      = (splice i new ids).length := by
    rw [length_splice hi', length_splice hi, List.length_replicate, hlength]
  refine ⟨by rw [length_setLinks, hspliced], fun j hj => ?_⟩
  rw [getElem?_setLinks _ _ _ (by rw [hspliced]; exact hj)]
  by_cases hmem : j ∈ List.range' (i - 1)
      (min (i + new.length) ((splice i new ids).length - 1) - (i - 1))
  · rw [if_pos hmem]
  · rw [if_neg hmem]
    rw [List.mem_range'_1] at hmem
    rcases Nat.lt_or_ge j i with hlt | hge
    · -- before the element that was linked to the one replaced
      rw [getElem?_splice_lt hi' hlt, hlinks j (by omega), getElem?_splice_lt hi (by omega)]
    · rcases Nat.lt_or_ge j (i + new.length) with hin | hbehind
      · -- a new one, and there is nothing behind it
        have hlast : j + 1 = (splice i new ids).length := by omega
        rw [getElem?_splice_new hi' hge (by rw [List.length_replicate]; exact hin),
          List.getElem?_replicate_of_lt (by omega), hlast, List.getElem?_eq_none (Nat.le_refl _)]
      · rw [getElem?_splice_ge hi' (by rw [List.length_replicate]; exact hbehind),
          getElem?_splice_ge hi (by omega), List.length_replicate, hlinks _ (by omega)]
        congr 2
        omega

end Drift
