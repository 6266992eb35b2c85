/-
  Layouts: where the elements of a tensor stand.

  A layout is a shape together with the index of every coordinate of some range, the coordinates
  addressing all the elements.  In one layout a content has one tensor (`Holds.unique`), and a
  `reshape` or a `permute` brings a content from one layout into another if it takes the index of
  every coordinate to its index there (`Holds.reshape`, `Holds.permute`).  So two conversions that
  keep the content, one there and one back, are inverse to each other.
-/
import Drift.Lib.Tensor

namespace Drift

/-- A shape, and where in it the coordinates of a range are found. -/
structure Layout {ι : Type} (inRange : ι → Prop) where
  shape : List Nat
  index : ι → List Nat
  /-- The coordinates address the elements, all of them. -/
  inBounds_iff : ∀ ix, InBounds shape ix ↔ ∃ i, inRange i ∧ index i = ix

namespace Layout

variable {ι α : Type} {inRange : ι → Prop} {L M : Layout inRange} [Zero α]

/-- What a tensor has at every coordinate. -/
def content (L : Layout inRange) (t : Tensor α) (i : ι) : α := t.get (L.index i)

/-- The tensor holds this content in the layout. -/
structure Holds (L : Layout inRange) (t : Tensor α) (content : ι → α) : Prop where
  shape : t.shape = L.shape
  get : ∀ i, inRange i → t.get (L.index i) = content i

omit [Zero α] in
theorem inBounds (L : Layout inRange) {i : ι} (hi : inRange i) : InBounds L.shape (L.index i) :=
  (L.inBounds_iff _).mpr ⟨i, hi, rfl⟩

theorem holds_content {t : Tensor α} (h : t.shape = L.shape) : L.Holds t (L.content t) :=
  ⟨h, fun _ _ => rfl⟩

theorem Holds.congr {t : Tensor α} {f g : ι → α} (h : L.Holds t f)
    (hfg : ∀ i, inRange i → f i = g i) : L.Holds t g :=
  ⟨h.shape, fun i hi => (h.get i hi).trans (hfg i hi)⟩

/-- **One content, one tensor.** -/
theorem Holds.unique {t u : Tensor α} {f : ι → α} (ht : L.Holds t f) (hu : L.Holds u f) :
    t = u := by
  refine Tensor.ext_get (ht.shape.trans hu.shape.symm) fun ix hix => ?_
  rw [ht.shape] at hix
  obtain ⟨i, hi, rfl⟩ := (L.inBounds_iff ix).mp hix
  rw [ht.get i hi, hu.get i hi]

theorem Holds.inBounds {t : Tensor α} {f : ι → α} (h : L.Holds t f) {i : ι} (hi : inRange i) :
    InBounds t.shape (L.index i) := by
  rw [h.shape]
  exact L.inBounds hi

/-- The same elements under another shape: every coordinate keeps its offset. -/
theorem Holds.withShape {t : Tensor α} {f : ι → α} (h : L.Holds t f)
    (hsize : M.shape.prod = t.shape.prod)
    (hoffset : ∀ i, inRange i → ravel M.shape (M.index i) = ravel L.shape (L.index i)) :
    M.Holds (t.withShape M.shape hsize) f := by
  refine ⟨rfl, fun i hi => ?_⟩
  rw [← h.get i hi]
  apply Tensor.get_withShape
  rw [h.shape, hoffset i hi]

theorem Holds.reshape {t : Tensor α} {f : ι → α} (h : L.Holds t f)
    (hsize : M.shape.prod = L.shape.prod)
    (hoffset : ∀ i, inRange i → ravel M.shape (M.index i) = ravel L.shape (L.index i)) :
    ∃ u, t.reshape (M.shape.map Nat.cast) = some u ∧ M.Holds u f := by
  have hsize' : M.shape.prod = t.shape.prod := by rw [h.shape, hsize]
  exact ⟨_, Tensor.reshape_natCast hsize', h.withShape hsize' hoffset⟩

/-- A permutation of the axes that takes the index of every coordinate there to its index here. -/
theorem Holds.permute {t : Tensor α} {f : ι → α} (h : L.Holds t f) (perm : List Nat)
    (hshape : M.shape = perm.map fun axis => L.shape.getD axis 0)
    (hindex : ∀ i, inRange i → ((List.range L.shape.length).map fun axis =>
      (M.index i).getD (perm.idxOf axis) 0) = L.index i) :
    M.Holds (t.permute perm) f := by
  have hshape' : (t.permute perm).shape = M.shape := by
    rw [Tensor.shape_permute, h.shape, hshape]
  refine ⟨hshape', fun i hi => ?_⟩
  have hix := M.inBounds hi
  rw [← hshape'] at hix
  rw [Tensor.get_permute hix, h.shape, hindex i hi, h.get i hi]

end Layout

end Drift
