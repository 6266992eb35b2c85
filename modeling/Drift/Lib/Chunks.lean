/-
  Cutting a tensor along an axis and putting the pieces together again.

  `t.split(size, dim=axis)` cuts at the multiples of `size`; the last piece is what is left
  (`chunkBounds`).  `torch.cat` of slices that follow one another is the slice from the first to the
  last (`cat_slice`), so `cat` undoes `split` (`catAll_chunks`), and a function that works on the
  pieces as it does on the whole may be run piece by piece.
-/
import Drift.Lib.Tensor

namespace Drift

/-- The pieces of an axis of length `n`, by their bounds. -/
def chunkBounds (n size : Nat) : List (Nat × Nat) :=
  (List.range (max ((n + size - 1) / size) 1)).map fun i => (i * size, min ((i + 1) * size) n)

/-- A piece lies inside the axis. -/
theorem le_of_mem_chunkBounds {n size : Nat} {bounds : Nat × Nat}
    (h : bounds ∈ chunkBounds n size) (hn : 0 < n) (hsize : 0 < size) :
    bounds.1 < bounds.2 ∧ bounds.2 ≤ n := by
  obtain ⟨i, hi, rfl⟩ := List.mem_map.mp h
  have hmul : i * size < n := by
    have hlt := List.mem_range.mp hi
    have hceil : max ((n + size - 1) / size) 1 = (n + size - 1) / size :=
      Nat.max_eq_left ((Nat.one_le_div_iff hsize).mpr (by omega))
    rw [hceil, Nat.lt_div_iff_mul_lt hsize] at hlt
    omega
  refine ⟨Nat.lt_min.mpr ⟨?_, hmul⟩, Nat.min_le_right _ _⟩
  show i * size < (i + 1) * size
  rw [Nat.succ_mul]
  omega

namespace Tensor

variable {α : Type} [Zero α]

/-- `t.split(size, dim=axis)`. -/
def split (axis size : Nat) (t : Tensor α) : List (Tensor α) :=
  (chunkBounds (t.shape.getD axis 0) size).map fun bounds => t.slice axis bounds.1 bounds.2

/-- `torch.cat(ts, dim=axis)`; `none` when there is no tensor or the shapes do not fit. -/
def catAll (axis : Nat) : List (Tensor α) → Option (Tensor α)
  | [] => none
  | t :: ts =>
    if ∀ u ∈ ts, u.shape.set axis 0 = t.shape.set axis 0 then some (ts.foldl (cat axis) t) else none

omit [Zero α] in
theorem getD_set_self {shape : List Nat} {axis : Nat} (h : axis < shape.length) (m : Nat) :
    (shape.set axis m).getD axis 0 = m := by
  rw [List.getD_eq_getElem?_getD, List.getElem?_set_self h]
  rfl

/-- **Slices that follow one another** make one slice. -/
theorem cat_slice (t : Tensor α) {axis lo mid hi : Nat} (haxis : axis < t.shape.length)
    (hlo : lo ≤ mid) (hmid : mid ≤ hi) (hhi : hi ≤ t.shape.getD axis 0) :
    (t.slice axis lo mid).cat axis (t.slice axis mid hi) = t.slice axis lo hi := by
  have hfirst : (t.slice axis lo mid).shape = t.shape.set axis (mid - lo) :=
    shape_slice_of_le hlo (Nat.le_trans hmid hhi)
  have hsecond : (t.slice axis mid hi).shape = t.shape.set axis (hi - mid) :=
    shape_slice_of_le hmid hhi
  have hwhole : (t.slice axis lo hi).shape = t.shape.set axis (hi - lo) :=
    shape_slice_of_le (Nat.le_trans hlo hmid) hhi
  have hshape : ((t.slice axis lo mid).cat axis (t.slice axis mid hi)).shape
      = t.shape.set axis (hi - lo) := by
    show List.set _ axis (_ + _) = _
    rw [hfirst, hsecond, getD_set_self haxis, getD_set_self haxis, List.set_set,
      show mid - lo + (hi - mid) = hi - lo by omega]
  refine ext_get (hshape.trans hwhole.symm) fun ix hix => ?_
  rw [hshape] at hix
  have hlt : ix.getD axis 0 < hi - lo := by
    have hlt : ix.getD axis 0 < (t.shape.set axis (hi - lo)).getD axis 0 :=
      hix.getD_lt (by rw [List.length_set]; exact haxis)
    rwa [getD_set_self haxis] at hlt
  have hcat : ((t.slice axis lo mid).cat axis (t.slice axis mid hi)).get ix
      = if ix.getD axis 0 < mid - lo then (t.slice axis lo mid).get ix
        else (t.slice axis mid hi).get (ix.modify axis (· - (mid - lo))) := by
    rw [cat, hfirst, getD_set_self haxis]
    refine get_ofFn _ ?_
    rw [hsecond, getD_set_self haxis, List.set_set, show mid - lo + (hi - mid) = hi - lo by omega]
    exact hix
  rw [hcat, get_slice ix (Nat.le_trans hlo hmid) hhi hix]
  split
  · rename_i hbefore
    have hin := hix.set_modify (m := mid - lo) (f := id) hbefore
    rw [List.set_set, List.modify_id] at hin
    exact get_slice ix hlo (Nat.le_trans hmid hhi) hin
  · have hless : ix.getD axis 0 - (mid - lo) < hi - mid := by omega
    have hin := hix.set_modify (m := hi - mid) (f := (· - (mid - lo))) hless
    rw [List.set_set] at hin
    rw [get_slice _ hmid hhi hin]
    have hshift : (fun i => i + mid) = (fun i => i + lo) ∘ fun i => i + (mid - lo) := by
      funext i
      show i + mid = i + (mid - lo) + lo
      omega
    rw [hshift, ← List.modify_modify_eq, modify_sub_add (by omega)]

/-- Pieces that follow one another make up the axis as far as they go. -/
theorem foldl_cat_slice (t : Tensor α) {axis : Nat} (haxis : axis < t.shape.length)
    (size : Nat) : ∀ k : Nat, k * size ≤ t.shape.getD axis 0 →
    ((List.range k).map fun i => t.slice axis ((i + 1) * size : Nat)
        (min ((i + 2) * size) (t.shape.getD axis 0) : Nat)).foldl (cat axis)
      (t.slice axis (0 : Nat) (min size (t.shape.getD axis 0) : Nat))
      = t.slice axis (0 : Nat) (min ((k + 1) * size) (t.shape.getD axis 0) : Nat)
  | 0, _ => by
    rw [Nat.zero_add, Nat.one_mul]
    rfl
  | k + 1, h => by
    have hprev : (k + 1) * size = k * size + size := Nat.succ_mul _ _
    have hnext : (k + 2) * size = (k + 1) * size + size := Nat.succ_mul _ _
    rw [List.range_succ, List.map_append, List.foldl_append,
      foldl_cat_slice t haxis size k (by omega)]
    show cat axis _ (t.slice axis ((k + 1) * size : Nat) _) = _
    rw [Nat.min_eq_left h]
    exact cat_slice t haxis (Nat.zero_le _) (by omega) (Nat.min_le_right _ _)

/-- **`cat` undoes `split`.** -/
theorem catAll_split (t : Tensor α) {axis size : Nat} (haxis : axis < t.shape.length)
    (hsize : 0 < size) : catAll axis (t.split axis size) = some t := by
  -- all pieces but the last are full
  obtain ⟨k, hk, hlo, hhi⟩ : ∃ k, max ((t.shape.getD axis 0 + size - 1) / size) 1 = k + 1 ∧
      k * size ≤ t.shape.getD axis 0 ∧ t.shape.getD axis 0 ≤ (k + 1) * size := by
    rcases Nat.eq_zero_or_pos (t.shape.getD axis 0) with hzero | hpos
    · -- an empty axis is one piece
      rw [hzero, Nat.zero_add, Nat.div_eq_of_lt (by omega)]
      exact ⟨0, rfl, by omega, Nat.zero_le _⟩
    refine ⟨(t.shape.getD axis 0 - 1) / size, ?_, ?_, ?_⟩
    · rw [show t.shape.getD axis 0 + size - 1 = t.shape.getD axis 0 - 1 + size by omega,
        Nat.add_div_right _ hsize]
      exact Nat.max_eq_left (Nat.succ_le_succ (Nat.zero_le _))
    · have hle := Nat.div_mul_le_self (t.shape.getD axis 0 - 1) size
      omega
    · have hlt := Nat.lt_mul_div_succ (t.shape.getD axis 0 - 1) hsize
      rw [Nat.mul_comm] at hlt
      omega
  have hbounds : t.split axis size = t.slice axis (0 : Nat) (min size (t.shape.getD axis 0) : Nat)
      :: (List.range k).map fun i => t.slice axis ((i + 1) * size : Nat)
        (min ((i + 2) * size) (t.shape.getD axis 0) : Nat) := by
    rw [split, chunkBounds, hk, List.range_succ_eq_map, List.map_map, List.map_cons, List.map_map]
    simp only [Function.comp_apply, Nat.zero_mul, Nat.zero_add, Nat.one_mul]
    rfl
  rw [hbounds, catAll, foldl_cat_slice t haxis size k hlo, if_pos, Nat.min_eq_right hhi]
  · exact congrArg some (slice_all (Nat.le_refl _))
  · intro u hu
    obtain ⟨i, -, rfl⟩ := List.mem_map.mp hu
    rw [shape_slice, shape_slice, List.set_set, List.set_set]

/-- An index of a slice is, shifted, an index of the tensor. -/
theorem inBounds_of_slice {shape ix : List Nat} {axis : Nat} {start stop : Int}
    (haxis : axis < shape.length)
    (h : InBounds (shape.set axis (clampIndex (shape.getD axis 0) stop
      - clampIndex (shape.getD axis 0) start)) ix) :
    InBounds shape (ix.modify axis (· + clampIndex (shape.getD axis 0) start)) := by
  have hlt : ix.getD axis 0 < (shape.set axis (clampIndex (shape.getD axis 0) stop
      - clampIndex (shape.getD axis 0) start)).getD axis 0 :=
    h.getD_lt (by rw [List.length_set]; exact haxis)
  rw [getD_set_self haxis] at hlt
  have hstop := clampIndex_le (shape.getD axis 0) stop
  have hsum : ix.getD axis 0 + clampIndex (shape.getD axis 0) start < shape.getD axis 0 := by omega
  have hin := InBounds.set_modify (f := (· + clampIndex (shape.getD axis 0) start)) h hsum
  rwa [List.set_set, set_getD_self] at hin

theorem get_slice_eq {t : Tensor α} {axis : Nat} {start stop : Int} {ix : List Nat}
    (h : InBounds (t.slice axis start stop).shape ix) :
    (t.slice axis start stop).get ix
      = t.get (ix.modify axis (· + clampIndex (t.shape.getD axis 0) start)) :=
  get_ofFn _ h

/-- A slice of a slice. -/
theorem slice_slice (t : Tensor α) {axis lo hi lo' hi' : Nat} (haxis : axis < t.shape.length)
    (hlo : lo ≤ hi) (hhi : hi ≤ t.shape.getD axis 0) (hlo' : lo' ≤ hi') (hhi' : lo + hi' ≤ hi) :
    (t.slice axis lo hi).slice axis lo' hi'
      = t.slice axis (lo + lo' : Nat) (lo + hi' : Nat) := by
  have hshape : (t.slice axis lo hi).shape = t.shape.set axis (hi - lo) :=
    shape_slice_of_le hlo hhi
  have hinner : hi' ≤ (t.slice axis lo hi).shape.getD axis 0 := by
    rw [hshape, getD_set_self haxis]
    omega
  have hlen : lo + hi' - (lo + lo') = hi' - lo' := by omega
  have hwhole : (t.slice axis (lo + lo' : Nat) (lo + hi' : Nat)).shape
      = t.shape.set axis (hi' - lo') := by
    rw [shape_slice_of_le (by omega) (by omega), hlen]
  have hpart : ((t.slice axis lo hi).slice axis lo' hi').shape = t.shape.set axis (hi' - lo') := by
    rw [shape_slice_of_le hlo' hinner, hshape, List.set_set]
  refine ext_get (hpart.trans hwhole.symm) fun ix hix => ?_
  rw [hpart] at hix
  have hlt : ix.getD axis 0 < hi' - lo' := by
    have hlt : ix.getD axis 0 < (t.shape.set axis (hi' - lo')).getD axis 0 :=
      hix.getD_lt (by rw [List.length_set]; exact haxis)
    rwa [getD_set_self haxis] at hlt
  have hin : InBounds (t.shape.set axis (hi - lo)) (ix.modify axis (· + lo')) := by
    have hless : ix.getD axis 0 + lo' < hi - lo := by omega
    have hset := hix.set_modify (m := hi - lo) (f := (· + lo')) hless
    rwa [List.set_set] at hset
  rw [get_slice ix hlo' hinner (by rw [hshape, List.set_set]; exact hix), get_slice _ hlo hhi hin,
    get_slice ix (by omega) (by omega) (by rw [hlen]; exact hix), List.modify_modify_eq]
  congr 2
  funext i
  show i + lo' + lo = i + (lo + lo')
  omega

/-- Slices along two axes. -/
theorem slice_slice_comm (t : Tensor α) {a b : Nat} (hab : a ≠ b) (ha : a < t.shape.length)
    (hb : b < t.shape.length) (start stop start' stop' : Int) :
    (t.slice a start stop).slice b start' stop' = (t.slice b start' stop').slice a start stop := by
  have hgetD : ∀ {a b : Nat}, a ≠ b → ∀ m, (t.shape.set a m).getD b 0 = t.shape.getD b 0 := by
    intro a b hne m
    rw [List.getD_eq_getElem?_getD, List.getElem?_set_ne hne, List.getD_eq_getElem?_getD]
  have hshape : ((t.slice a start stop).slice b start' stop').shape
      = ((t.slice b start' stop').slice a start stop).shape := by
    simp only [shape_slice, hgetD hab, hgetD hab.symm]
    exact List.set_comm _ _ hab
  have hget : ∀ {a b : Nat} {start stop start' stop' : Int}, a ≠ b → b < t.shape.length →
      ∀ {ix : List Nat}, InBounds ((t.slice a start stop).slice b start' stop').shape ix →
      ((t.slice a start stop).slice b start' stop').get ix
        = t.get ((ix.modify b (· + clampIndex (t.shape.getD b 0) start')).modify a
          (· + clampIndex (t.shape.getD a 0) start)) := by
    intro a b start stop start' stop' hne hlt ix hix
    have hlength : b < (t.slice a start stop).shape.length := by
      rw [shape_slice, List.length_set]
      exact hlt
    have hin : InBounds (t.slice a start stop).shape
        (ix.modify b (· + clampIndex ((t.slice a start stop).shape.getD b 0) start')) :=
      inBounds_of_slice hlength hix
    rw [get_slice_eq hix, get_slice_eq hin, shape_slice, hgetD hne]
  refine ext_get hshape fun ix hix => ?_
  rw [hget hab hb hix, hget hab.symm ha (hshape ▸ hix), List.modify_modify_ne _ _ _ hab.symm]

end Tensor

end Drift
