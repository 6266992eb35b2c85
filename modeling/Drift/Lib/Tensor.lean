/-
  Row-major tensors: a shape, the elements in row-major order, and the proof that there are as
  many elements as the shape asks for.

  The layout is the one every array library documents: the element at the multi-index
  `[i₀, …, iₖ]` of a tensor of shape `[n₀, …, nₖ]` sits at offset `ravel shape index`, so a
  `reshape` keeps the element list and changes the shape only, while `permute`, `slice` and the
  indexed reads build a new element list from an index function (`ofFn`).

  Two tensors are equal exactly when they have one shape and agree at every index in bounds
  (`ext_get`): every equation between tensors below and in the modules above is proved that way,
  one multi-index at a time, with `get_ofFn`, `get_slice`, `get_reshape` and their companions
  as the rewrite rules.
-/
import Mathlib.Algebra.GroupWithZero.Nat
import Mathlib.Algebra.Ring.Int.Defs
import Mathlib.Data.List.Basic
import Mathlib.Data.List.GetD
import Mathlib.Algebra.BigOperators.Group.List.Basic

namespace Drift

/-! ## Row-major addressing -/

/-- Offset of the multi-index `ix` in the row-major layout of `shape`. -/
def ravel : List Nat → List Nat → Nat
  | _ :: shape, i :: ix => i * shape.prod + ravel shape ix
  | _, _ => 0

/-- The multi-index stored at offset `k` of the row-major layout of `shape`. -/
def unravel : List Nat → Nat → List Nat
  | [], _ => []
  | _ :: shape, k => k / shape.prod :: unravel shape (k % shape.prod)

/-- `ix` addresses an element of a tensor of this shape. -/
def InBounds : List Nat → List Nat → Prop
  | [], [] => True
  | n :: shape, i :: ix => i < n ∧ InBounds shape ix
  | _, _ => False

@[simp] theorem inBounds_nil : InBounds [] [] := trivial

@[simp] theorem inBounds_cons {n i : Nat} {shape ix : List Nat} :
    InBounds (n :: shape) (i :: ix) ↔ i < n ∧ InBounds shape ix := Iff.rfl

@[simp] theorem not_inBounds_nil_cons {i : Nat} {ix : List Nat} : ¬ InBounds [] (i :: ix) := id

@[simp] theorem not_inBounds_cons_nil {n : Nat} {shape : List Nat} :
    ¬ InBounds (n :: shape) [] := id

/-- An index in bounds of a non-empty shape starts with a coordinate in bounds. -/
theorem InBounds.exists_cons {n : Nat} {shape ix : List Nat} (h : InBounds (n :: shape) ix) :
    ∃ i rest, ix = i :: rest ∧ i < n ∧ InBounds shape rest := by
  cases ix with
  | nil => exact absurd h not_inBounds_cons_nil
  | cons i rest => exact ⟨i, rest, rfl, h.1, h.2⟩

/-- A tensor without axes has one index. -/
theorem InBounds.eq_nil {ix : List Nat} (h : InBounds [] ix) : ix = [] := by
  cases ix with
  | nil => rfl
  | cons i rest => exact absurd h not_inBounds_nil_cons

/-- An index of three axes. -/
theorem InBounds.exists_three {a b c : Nat} {ix : List Nat} (h : InBounds [a, b, c] ix) :
    ∃ i j k, ix = [i, j, k] ∧ i < a ∧ j < b ∧ k < c := by
  obtain ⟨i, ix₁, rfl, hi, h₁⟩ := h.exists_cons
  obtain ⟨j, ix₂, rfl, hj, h₂⟩ := h₁.exists_cons
  obtain ⟨k, ix₃, rfl, hk, h₃⟩ := h₂.exists_cons
  obtain rfl := h₃.eq_nil
  exact ⟨i, j, k, rfl, hi, hj, hk⟩

/-- An index of four axes. -/
theorem InBounds.exists_four {a b c d : Nat} {ix : List Nat} (h : InBounds [a, b, c, d] ix) :
    ∃ i j k l, ix = [i, j, k, l] ∧ i < a ∧ j < b ∧ k < c ∧ l < d := by
  obtain ⟨i, rest, rfl, hi, hrest⟩ := h.exists_cons
  obtain ⟨j, k, l, rfl, hj, hk, hl⟩ := hrest.exists_three
  exact ⟨i, j, k, l, rfl, hi, hj, hk, hl⟩

/-- The place of an index in memory is inside the tensor, -/
theorem ravel_lt : ∀ {shape ix : List Nat}, InBounds shape ix → ravel shape ix < shape.prod
  | [], [], _ => by simp [ravel]
  | n :: shape, i :: ix, h => by
    have hrec := ravel_lt h.2
    have hmul : (i + 1) * shape.prod ≤ n * shape.prod := Nat.mul_le_mul_right _ h.1
    rw [Nat.succ_mul] at hmul
    simp only [ravel, List.prod_cons]
    omega

/-- and gives the index back. -/
theorem unravel_ravel : ∀ {shape ix : List Nat}, InBounds shape ix →
    unravel shape (ravel shape ix) = ix
  | [], [], _ => rfl
  | n :: shape, i :: ix, h => by
    have hlt := ravel_lt h.2
    have hdiv : (i * shape.prod + ravel shape ix) / shape.prod = i := by
      rw [Nat.add_comm, Nat.add_mul_div_right _ _ (by omega), Nat.div_eq_of_lt hlt, Nat.zero_add]
    have hmod : (i * shape.prod + ravel shape ix) % shape.prod = ravel shape ix := by
      rw [Nat.add_comm, Nat.add_mul_mod_self_right, Nat.mod_eq_of_lt hlt]
    simp only [ravel, unravel, hdiv, hmod, unravel_ravel h.2]

/-- Every place is that of an index, -/
theorem inBounds_unravel : ∀ {shape : List Nat} {k : Nat}, k < shape.prod →
    InBounds shape (unravel shape k)
  | [], _, _ => trivial
  | n :: shape, k, h => by
    rw [List.prod_cons] at h
    have hpos : 0 < shape.prod := Nat.pos_of_ne_zero (fun h0 => by simp [h0] at h)
    refine ⟨?_, inBounds_unravel (Nat.mod_lt k hpos)⟩
    exact Nat.div_lt_of_lt_mul (by rwa [Nat.mul_comm] at h)

/-- which gives the place back. -/
theorem ravel_unravel : ∀ {shape : List Nat} {k : Nat}, k < shape.prod →
    ravel shape (unravel shape k) = k
  | [], k, h => by simp at h; simp [ravel, h]
  | n :: shape, k, h => by
    rw [List.prod_cons] at h
    have hpos : 0 < shape.prod := Nat.pos_of_ne_zero (fun h0 => by simp [h0] at h)
    simp only [ravel, unravel, ravel_unravel (Nat.mod_lt k hpos)]
    exact Nat.div_add_mod' k shape.prod

/-- Splitting the first axis `a * b` into `a, b` leaves every offset where it was. -/
theorem ravel_split (a b r : Nat) (shape ix : List Nat) :
    ravel (a * b :: shape) (r :: ix) = ravel (a :: b :: shape) (r / b :: r % b :: ix) := by
  have hr := Nat.div_add_mod' r b
  calc r * shape.prod + ravel shape ix
      = (r / b * b + r % b) * shape.prod + ravel shape ix := by rw [hr]
    _ = r / b * (b * shape.prod) + (r % b * shape.prod + ravel shape ix) := by
        rw [Nat.add_mul, Nat.mul_assoc, Nat.add_assoc]

/-- Rearranging the inner axes of one size leaves the offset to the outer axis. -/
theorem ravel_cons_congr {n i : Nat} {shape shape' ix ix' : List Nat}
    (hprod : shape.prod = shape'.prod) (h : ravel shape ix = ravel shape' ix') :
    ravel (n :: shape) (i :: ix) = ravel (n :: shape') (i :: ix') := by
  simp only [ravel, hprod, h]

/-- Changing one coordinate of an index, and the length of its axis along with it. -/
theorem InBounds.set_modify : ∀ {shape ix : List Nat} {axis m : Nat} {f : Nat → Nat},
    InBounds shape ix → f (ix.getD axis 0) < m → InBounds (shape.set axis m) (ix.modify axis f)
  | [], [], _, _, _, _, _ => by simp
  | n :: shape, i :: ix, 0, m, f, h, hf => by
    simpa using ⟨hf, h.2⟩
  | n :: shape, i :: ix, axis + 1, m, f, h, hf => by
    simpa using ⟨h.1, InBounds.set_modify h.2 (by simpa using hf)⟩

theorem InBounds.getD_lt : ∀ {shape ix : List Nat} {axis : Nat}, InBounds shape ix →
    axis < shape.length → ix.getD axis 0 < shape.getD axis 0
  | [], _, _, _, hlt => absurd hlt (Nat.not_lt_zero _)
  | n :: shape, i :: ix, 0, h, _ => by simpa using h.1
  | n :: shape, i :: ix, axis + 1, h, hlt => by
    simpa using InBounds.getD_lt h.2 (by simpa using hlt)

/-! ## The tensor and its elements -/

/-- A tensor: its shape and its elements in row-major order. -/
structure Tensor (α : Type) where
  shape : List Nat
  data : List α
  /-- There is one element for every index in bounds. -/
  length_data : data.length = shape.prod
deriving DecidableEq

namespace Tensor

variable {α : Type}

/-- Number of elements. -/
def numel (t : Tensor α) : Nat := t.shape.prod

/-- The tensor of this shape whose element at `ix` is `f ix`. -/
def ofFn (shape : List Nat) (f : List Nat → α) : Tensor α where
  shape := shape
  data := (List.range shape.prod).map fun k => f (unravel shape k)
  length_data := by simp

/-- The same elements under another shape of the same size. -/
def withShape (t : Tensor α) (shape : List Nat) (h : shape.prod = t.shape.prod) : Tensor α :=
  ⟨shape, t.data, by rw [h, t.length_data]⟩

@[simp] theorem shape_ofFn (shape : List Nat) (f : List Nat → α) : (ofFn shape f).shape = shape :=
  rfl

@[simp] theorem shape_withShape (t : Tensor α) (shape : List Nat)
    (h : shape.prod = t.shape.prod) : (t.withShape shape h).shape = shape := rfl

variable [Zero α]

/-- The element at the multi-index `ix`. -/
def get (t : Tensor α) (ix : List Nat) : α := t.data.getD (ravel t.shape ix) 0

/-- A tensor of zeros. -/
def zeros (shape : List Nat) : Tensor α := ofFn shape fun _ => 0

@[simp] theorem shape_zeros (shape : List Nat) : (zeros shape : Tensor α).shape = shape := rfl

/-- A tensor that is made entry by entry has these entries. -/
@[simp] theorem get_ofFn {shape ix : List Nat} (f : List Nat → α) (h : InBounds shape ix) :
    (ofFn shape f).get ix = f ix := by
  have hlt := ravel_lt h
  simp [get, ofFn, List.getD_eq_getElem?_getD, hlt, unravel_ravel h]

/-- **Extensionality**: tensors of one shape that agree at every index in bounds are equal. -/
theorem ext_get {t u : Tensor α} (hshape : t.shape = u.shape)
    (hget : ∀ ix, InBounds t.shape ix → t.get ix = u.get ix) : t = u := by
  obtain ⟨shape, data, hdata⟩ := t
  obtain ⟨shape', data', hdata'⟩ := u
  obtain rfl : shape = shape' := hshape
  have hlen : data.length = data'.length := by rw [hdata, hdata']
  have : data = data' := by
    refine List.ext_getElem hlen fun k hk hk' => ?_
    have hks : k < shape.prod := by rwa [hdata] at hk
    have hget := hget (unravel shape k) (inBounds_unravel hks)
    simpa [get, ravel_unravel hks, List.getD_eq_getElem?_getD, hk, hk'] using hget
  subst this
  rfl

/-- A reshaped tensor reads the element stored at the same offset. -/
theorem get_withShape {t : Tensor α} {shape : List Nat} (h : shape.prod = t.shape.prod)
    {ix ix' : List Nat} (hoff : ravel shape ix = ravel t.shape ix') :
    (t.withShape shape h).get ix = t.get ix' := by
  simp only [get, withShape, hoff]

/-! ## Reshaping -/

/-- The sizes `reshape(dims)` asks for: all given, or one `-1` inferred from the others. -/
def resolveDims (size : Nat) (dims : List Int) : Option (List Nat) :=
  let given := (dims.filter (· ≠ -1)).map Int.toNat
  if dims.any (· < -1) then none
  else if dims.count (-1) = 0 then if given.prod = size then some given else none
  else if dims.count (-1) = 1 ∧ 0 < given.prod ∧ given.prod ∣ size then
    some (dims.map fun d => if d = -1 then size / given.prod else d.toNat)
  else none

/-- `t.reshape(dims)`; `none` when the sizes do not fit. -/
def reshape (dims : List Int) (t : Tensor α) : Option (Tensor α) :=
  match resolveDims t.numel dims with
  | none => none
  | some shape => if h : shape.prod = t.shape.prod then some (t.withShape shape h) else none

/-- Sizes without `-1` have to multiply to the number of entries. -/
theorem resolveDims_natCast (size : Nat) (shape : List Nat) :
    resolveDims size (shape.map Nat.cast) = if shape.prod = size then some shape else none := by
  have hge : ∀ d ∈ shape.map (Nat.cast : Nat → Int), 0 ≤ d := by simp
  have hany : (shape.map (Nat.cast : Nat → Int)).any (· < -1) = false := by
    simp only [List.any_eq_false, decide_eq_true_eq]
    intro d hd
    have := hge d hd
    omega
  have hcount : (shape.map (Nat.cast : Nat → Int)).count (-1) = 0 := by
    refine List.count_eq_zero.mpr fun hmem => ?_
    have := hge _ hmem
    omega
  have hfilter : (shape.map (Nat.cast : Nat → Int)).filter (· ≠ -1) = shape.map Nat.cast := by
    refine List.filter_eq_self.mpr fun d hd => ?_
    have := hge d hd
    simp only [ne_eq, decide_not, Bool.not_eq_eq_eq_not, Bool.not_true, decide_eq_false_iff_not]
    omega
  have hgiven : ((shape.map (Nat.cast : Nat → Int)).filter (· ≠ -1)).map Int.toNat = shape := by
    rw [hfilter, List.map_map]
    exact List.map_id' shape
  simp only [resolveDims, hgiven, hany, hcount, if_true, Bool.false_eq_true, if_false]

omit [Zero α] in
/-- Non-negative sizes that fit are taken as they are. -/
theorem reshape_natCast {t : Tensor α} {shape : List Nat} (h : shape.prod = t.shape.prod) :
    t.reshape (shape.map Nat.cast) = some (t.withShape shape h) := by
  rw [reshape, resolveDims_natCast, numel, if_pos h]
  exact dif_pos h

omit [Zero α] in
/-- Non-negative sizes are accepted only if they fit. -/
theorem eq_withShape_of_reshape {t u : Tensor α} (shape : List Nat)
    (h : t.reshape (shape.map Nat.cast) = some u) :
    ∃ hsize : shape.prod = t.shape.prod, u = t.withShape shape hsize := by
  by_cases hsize : shape.prod = t.shape.prod
  · rw [reshape_natCast hsize] at h
    exact ⟨hsize, (Option.some.inj h).symm⟩
  · rw [reshape, resolveDims_natCast, numel, if_neg hsize] at h
    nomatch h

/-! ## Permuting, slicing and indexing -/

/-- `t.permute(perm)`: axis `j` of the result is axis `perm[j]` of `t`. -/
def permute (perm : List Nat) (t : Tensor α) : Tensor α :=
  ofFn (perm.map fun axis => t.shape.getD axis 0) fun ix =>
    t.get ((List.range t.shape.length).map fun axis => ix.getD (perm.idxOf axis) 0)

@[simp] theorem shape_permute (perm : List Nat) (t : Tensor α) :
    (t.permute perm).shape = perm.map fun axis => t.shape.getD axis 0 := rfl

/-- Axes that change places take their indices with them. -/
theorem get_permute {t : Tensor α} {perm ix : List Nat}
    (h : InBounds (perm.map fun axis => t.shape.getD axis 0) ix) :
    (t.permute perm).get ix =
      t.get ((List.range t.shape.length).map fun axis => ix.getD (perm.idxOf axis) 0) :=
  get_ofFn _ h

/-- A slice bound `i` against an axis of length `n`: negative bounds count from the end, and
    bounds outside the axis are clipped to it. -/
def clampIndex (n : Nat) (i : Int) : Nat :=
  if i < 0 then (i + n).toNat else min i.toNat n

/-- An index in range stays, -/
theorem clampIndex_of_le {n i : Nat} (h : i ≤ n) : clampIndex n i = i := by
  simp only [clampIndex]
  split <;> omega

/-- and none gets out of range. -/
theorem clampIndex_le (n : Nat) (i : Int) : clampIndex n i ≤ n := by
  simp only [clampIndex]
  split <;> omega

/-- `t[:, …, start:stop, …]` along one axis. -/
def slice (axis : Nat) (start stop : Int) (t : Tensor α) : Tensor α :=
  let lo := clampIndex (t.shape.getD axis 0) start
  let hi := clampIndex (t.shape.getD axis 0) stop
  ofFn (t.shape.set axis (hi - lo)) fun ix => t.get (ix.modify axis (· + lo))

@[simp] theorem shape_slice (axis : Nat) (start stop : Int) (t : Tensor α) :
    (t.slice axis start stop).shape = t.shape.set axis
      (clampIndex (t.shape.getD axis 0) stop - clampIndex (t.shape.getD axis 0) start) := rfl

/-- The slice `lo:hi` inside the axis reads the elements from `lo` on. -/
theorem get_slice {t : Tensor α} {axis lo hi : Nat} (ix : List Nat)
    (hlo : lo ≤ hi) (hhi : hi ≤ t.shape.getD axis 0)
    (h : InBounds (t.shape.set axis (hi - lo)) ix) :
    (t.slice axis lo hi).get ix = t.get (ix.modify axis (· + lo)) := by
  simp only [slice, clampIndex_of_le hhi, clampIndex_of_le (Nat.le_trans hlo hhi)]
  exact get_ofFn _ h

/-- A slice in range has the length that it is asked for. -/
theorem shape_slice_of_le {t : Tensor α} {axis lo hi : Nat} (hlo : lo ≤ hi)
    (hhi : hi ≤ t.shape.getD axis 0) :
    (t.slice axis lo hi).shape = t.shape.set axis (hi - lo) := by
  rw [shape_slice, clampIndex_of_le hhi, clampIndex_of_le (Nat.le_trans hlo hhi)]

theorem clampIndex_natCast (n i : Nat) : clampIndex n (i : Int) = min i n := by
  simp only [clampIndex]
  split <;> omega

omit [Zero α] in
theorem set_getD_self : ∀ (shape : List Nat) (axis : Nat), shape.set axis (shape.getD axis 0) = shape
  | [], _ => rfl
  | _ :: _, 0 => rfl
  | n :: shape, axis + 1 => congrArg (n :: ·) (set_getD_self shape axis)

/-- A slice ends with its axis. -/
theorem slice_min (t : Tensor α) (axis lo hi : Nat) :
    t.slice axis lo hi = t.slice axis lo ((min hi (t.shape.getD axis 0) : Nat) : Int) := by
  simp only [slice, clampIndex_natCast, Nat.min_assoc, Nat.min_self]

/-- A slice of everything is everything. -/
theorem shape_slice_all {t : Tensor α} {axis stop : Nat} (h : t.shape.getD axis 0 ≤ stop) :
    (t.slice axis 0 stop).shape = t.shape := by
  rw [shape_slice, clampIndex_natCast, Nat.min_eq_right h,
    show clampIndex (t.shape.getD axis 0) 0 = 0 from clampIndex_of_le (Nat.zero_le _)]
  exact set_getD_self t.shape axis

/-- A slice over the whole axis is the tensor. -/
theorem slice_all {t : Tensor α} {axis stop : Nat} (h : t.shape.getD axis 0 ≤ stop) :
    t.slice axis 0 stop = t := by
  have hshape := shape_slice_all h
  have hzero : clampIndex (t.shape.getD axis 0) 0 = 0 := clampIndex_of_le (Nat.zero_le _)
  refine ext_get hshape fun ix hix => ?_
  rw [shape_slice] at hix
  rw [slice, get_ofFn _ hix, hzero]
  show t.get (ix.modify axis id) = t.get ix
  rw [List.modify_id]

theorem get_zeros (shape ix : List Nat) : (zeros shape : Tensor α).get ix = 0 := by
  rw [get, zeros, ofFn]
  simp only [List.getD_eq_getElem?_getD, List.getElem?_map]
  cases (List.range shape.prod)[ravel shape ix]? <;> rfl

/-- A part of zeros. -/
theorem slice_zeros (shape : List Nat) (axis : Nat) (start stop : Int) :
    (zeros shape : Tensor α).slice axis start stop = zeros (shape.set axis
      (clampIndex (shape.getD axis 0) stop - clampIndex (shape.getD axis 0) start)) := by
  simp only [slice, get_zeros]
  rfl

/-- `t[idx]` along the first axis. -/
def indexRows (idx : List Nat) (t : Tensor α) : Tensor α :=
  ofFn (idx.length :: t.shape.tail) fun
    | r :: ix => t.get (idx.getD r 0 :: ix)
    | [] => 0

/-- `t[idx]` along the first axis, for a table of `cols` indices in every row. -/
def indexTable (idx : List (List Nat)) (cols : Nat) (t : Tensor α) : Tensor α :=
  ofFn (idx.length :: cols :: t.shape.tail) fun
    | r :: c :: ix => t.get ((idx.getD r []).getD c 0 :: ix)
    | _ => 0

@[simp] theorem shape_indexTable (idx : List (List Nat)) (cols : Nat) (t : Tensor α) :
    (t.indexTable idx cols).shape = idx.length :: cols :: t.shape.tail := rfl

/-- Entries by advanced indexing with a table of rows. -/
theorem get_indexTable {t : Tensor α} {idx : List (List Nat)} {cols r c : Nat} {ix : List Nat}
    (h : InBounds (idx.length :: cols :: t.shape.tail) (r :: c :: ix)) :
    (t.indexTable idx cols).get (r :: c :: ix) = t.get ((idx.getD r []).getD c 0 :: ix) :=
  get_ofFn _ h

/-- What an indexed read returns depends on the rows it names only. -/
theorem indexTable_congr {t t' : Tensor α} {idx : List (List Nat)} {cols : Nat}
    (hshape : t'.shape = t.shape) (hlen : ∀ row ∈ idx, row.length = cols)
    (h : ∀ row ∈ idx, ∀ p ∈ row, ∀ ix, InBounds t.shape.tail ix →
      t'.get (p :: ix) = t.get (p :: ix)) :
    t'.indexTable idx cols = t.indexTable idx cols := by
  refine ext_get (by simp [indexTable, hshape]) fun ix hix => ?_
  simp only [indexTable, shape_ofFn] at hix
  obtain ⟨r, ix₁, rfl, hr, hix₁⟩ := hix.exists_cons
  obtain ⟨c, ix₂, rfl, hc, hix₂⟩ := hix₁.exists_cons
  have hrow : idx.getD r [] ∈ idx := by
    rw [List.getD_eq_getElem _ _ hr]
    exact List.getElem_mem hr
  have hc' : c < (idx.getD r []).length := by rwa [hlen _ hrow]
  have hp : (idx.getD r []).getD c 0 ∈ idx.getD r [] := by
    rw [List.getD_eq_getElem _ _ hc']
    exact List.getElem_mem hc'
  rw [indexTable, indexTable, get_ofFn _ hix, get_ofFn _ (hshape ▸ hix)]
  exact h _ hrow _ hp _ (hshape ▸ hix₂)

/-- `torch.cat([t, u], dim=axis)`. -/
def cat (axis : Nat) (t u : Tensor α) : Tensor α :=
  let n := t.shape.getD axis 0
  ofFn (t.shape.set axis (n + u.shape.getD axis 0)) fun ix =>
    if ix.getD axis 0 < n then t.get ix else u.get (ix.modify axis (· - n))

/-! ## Assignments -/

/-- Overwrite the elements at which `f` gives a value. -/
def patch (t : Tensor α) (f : List Nat → Option α) : Tensor α :=
  ofFn t.shape fun ix => (f ix).getD (t.get ix)

@[simp] theorem shape_patch (t : Tensor α) (f : List Nat → Option α) :
    (t.patch f).shape = t.shape := rfl

/-- An entry that is patched is the new one, and the others stay. -/
theorem get_patch {t : Tensor α} {ix : List Nat} (f : List Nat → Option α)
    (h : InBounds t.shape ix) : (t.patch f).get ix = (f ix).getD (t.get ix) :=
  get_ofFn _ h

/-- `src` can be assigned where a tensor of this shape stands: every axis fits or has length 1. -/
def broadcasts (src shape : List Nat) : Bool :=
  src.length = shape.length ∧ (src.zip shape).all fun (m, n) => m = n ∨ m = 1

/-- The index at which an assignment reads a broadcast source. -/
def broadcastIndex (src ix : List Nat) : List Nat :=
  List.zipWith (fun n i => if n = 1 then 0 else i) src ix

/-- A shape broadcasts to itself, -/
theorem broadcasts_self (shape : List Nat) : broadcasts shape shape = true := by
  have hall : ∀ shape : List Nat, (shape.zip shape).all (fun (m, n) => m = n ∨ m = 1) := by
    intro shape
    induction shape with
    | nil => rfl
    | cons n shape ih => simpa using ih
  simp only [broadcasts, hall shape, and_self, decide_true]

/-- and no index changes. -/
theorem broadcastIndex_self : ∀ {shape ix : List Nat}, InBounds shape ix →
    broadcastIndex shape ix = ix
  | [], [], _ => rfl
  | n :: shape, i :: ix, h => by
    have hrec := broadcastIndex_self h.2
    have hi := h.1
    simp only [broadcastIndex, List.zipWith_cons_cons, List.cons.injEq]
    refine ⟨?_, hrec⟩
    split <;> omega

theorem prod_dropWhile_one (shape : List Nat) :
    (shape.dropWhile (· = 1)).prod = shape.prod := by
  induction shape with
  | nil => rfl
  | cons n shape ih =>
    rw [List.dropWhile_cons]
    split
    · rename_i hone
      rw [ih, of_decide_eq_true hone, List.prod_cons, Nat.one_mul]
    · rfl

/-- A view without the leading axes of length 1. -/
def trimOnes (t : Tensor α) : Tensor α :=
  t.withShape (t.shape.dropWhile (· = 1)) (prod_dropWhile_one t.shape)

/-- What `t[...] = src` leaves of a tensor of this shape; `none` when `src` does not broadcast to
    it.  The axes are aligned at the right. -/
def expandTo (shape : List Nat) (src : Tensor α) : Option (Tensor α) :=
  let view := src.trimOnes
  let offset := shape.length - view.shape.length
  if view.shape.length ≤ shape.length ∧ broadcasts view.shape (shape.drop offset) then
    some (ofFn shape fun ix => view.get (broadcastIndex view.shape (ix.drop offset)))
  else none

/-- What is expanded has the shape asked for. -/
theorem shape_expandTo {shape : List Nat} {src t : Tensor α} (h : src.expandTo shape = some t) :
    t.shape = shape := by
  rw [expandTo] at h
  split at h
  · obtain rfl := Option.some.inj h
    rfl
  · nomatch h

/-- The indices of leading axes of length 1 are 0. -/
theorem ravel_dropWhile_one : ∀ {shape ix : List Nat}, InBounds shape ix →
    InBounds (shape.dropWhile (· = 1))
        (ix.drop (shape.length - (shape.dropWhile (· = 1)).length)) ∧
      ravel (shape.dropWhile (· = 1))
        (ix.drop (shape.length - (shape.dropWhile (· = 1)).length)) = ravel shape ix
  | [], [], _ => ⟨trivial, rfl⟩
  | n :: shape, i :: ix, h => by
    obtain ⟨hi, hix⟩ := h
    rw [List.dropWhile_cons]
    split
    · rename_i hone
      obtain rfl := of_decide_eq_true hone
      obtain rfl : i = 0 := by omega
      obtain ⟨hin, hravel⟩ := ravel_dropWhile_one hix
      have hle := (List.dropWhile_suffix (l := shape) (· = 1)).length_le
      have hlength : (1 :: shape).length - (shape.dropWhile (· = 1)).length
          = shape.length - (shape.dropWhile (· = 1)).length + 1 := by
        rw [List.length_cons]
        omega
      rw [hlength, List.drop_succ_cons]
      refine ⟨hin, hravel.trans ?_⟩
      rw [ravel, Nat.zero_mul, Nat.zero_add]
    · rw [Nat.sub_self]
      exact ⟨⟨hi, hix⟩, rfl⟩

/-- A source of the same shape is copied. -/
theorem expandTo_self (src : Tensor α) : src.expandTo src.shape = some src := by
  have hle := (List.dropWhile_suffix (l := src.shape) (· = 1)).length_le
  have hdrop : src.shape.drop (src.shape.length - (src.shape.dropWhile (· = 1)).length)
      = src.shape.dropWhile (· = 1) :=
    (List.suffix_iff_eq_drop.mp (List.dropWhile_suffix _)).symm
  have hfits : broadcasts src.trimOnes.shape
      (src.shape.drop (src.shape.length - src.trimOnes.shape.length)) = true := by
    rw [trimOnes, shape_withShape, hdrop]
    exact broadcasts_self _
  rw [expandTo]
  refine (if_pos ⟨hle, hfits⟩).trans (congrArg some (ext_get rfl fun ix hix => ?_))
  rw [shape_ofFn] at hix
  obtain ⟨hin, hravel⟩ := ravel_dropWhile_one hix
  rw [get_ofFn _ hix, trimOnes, shape_withShape, broadcastIndex_self hin]
  exact get_withShape _ hravel

/-- `t[:, …, start:stop, …] = src` along one axis; `none` when the shapes do not fit. -/
def assignSlice (axis : Nat) (start stop : Int) (src t : Tensor α) : Option (Tensor α) :=
  let lo := clampIndex (t.shape.getD axis 0) start
  let hi := clampIndex (t.shape.getD axis 0) stop
  if broadcasts src.shape (t.shape.set axis (hi - lo)) then
    some (t.patch fun ix =>
      if lo ≤ ix.getD axis 0 ∧ ix.getD axis 0 < hi then
        some (src.get (broadcastIndex src.shape (ix.modify axis (· - lo))))
      else none)
  else none

/-- **Slice assignment**: inside the axis, with a source of the slice's own shape, the elements
    of the slice are the source's and the others stay. -/
theorem assignSlice_spec {src t : Tensor α} {axis lo hi : Nat} (hlo : lo ≤ hi)
    (hhi : hi ≤ t.shape.getD axis 0) (hsrc : src.shape = t.shape.set axis (hi - lo)) :
    ∃ t', assignSlice axis lo hi src t = some t' ∧ t'.shape = t.shape ∧
      ∀ ix, InBounds t.shape ix → t'.get ix =
        if lo ≤ ix.getD axis 0 ∧ ix.getD axis 0 < hi then src.get (ix.modify axis (· - lo))
        else t.get ix := by
  have hclamp : clampIndex (t.shape.getD axis 0) lo = lo := clampIndex_of_le (Nat.le_trans hlo hhi)
  have hclamp' : clampIndex (t.shape.getD axis 0) hi = hi := clampIndex_of_le hhi
  have hfits : broadcasts src.shape (t.shape.set axis (hi - lo)) = true := by
    rw [hsrc]
    exact broadcasts_self _
  simp only [assignSlice, hclamp, hclamp', hfits, if_true]
  refine ⟨_, rfl, rfl, fun ix hix => ?_⟩
  rw [get_patch _ hix]
  by_cases hin : lo ≤ ix.getD axis 0 ∧ ix.getD axis 0 < hi
  · have hsub : ix.getD axis 0 - lo < hi - lo := by omega
    simp only [if_pos hin, Option.getD_some]
    rw [hsrc, broadcastIndex_self (InBounds.set_modify (f := (· - lo)) hix hsub)]
  · simp only [if_neg hin, Option.getD_none]

/-- An assignment keeps the shape, -/
theorem shape_assignSlice {src t t' : Tensor α} {axis : Nat} {start stop : Int}
    (h : assignSlice axis start stop src t = some t') : t'.shape = t.shape := by
  rw [assignSlice] at h
  split at h
  · obtain rfl := Option.some.inj h
    rfl
  · nomatch h

/-- To clamp is monotone. -/
theorem clampIndex_le_clampIndex {n i j : Nat} (h : i ≤ j) : clampIndex n i ≤ clampIndex n j := by
  simp only [clampIndex]
  split <;> split <;> omega

/-- Assigning to an empty slice changes nothing. -/
theorem assignSlice_empty {src t t' : Tensor α} {axis lo hi : Nat} (hle : hi ≤ lo)
    (h : assignSlice axis lo hi src t = some t') :
    t'.shape = t.shape ∧ ∀ ix, InBounds t.shape ix → t'.get ix = t.get ix := by
  have hclamp := clampIndex_le_clampIndex (n := t.shape.getD axis 0) hle
  simp only [assignSlice] at h
  split at h
  · obtain rfl := Option.some.inj h
    refine ⟨rfl, fun ix hix => ?_⟩
    rw [get_patch _ hix, if_neg (by omega)]
    rfl
  · nomatch h

theorem modify_sub_add : ∀ {ix : List Nat} {axis p : Nat}, p ≤ ix.getD axis 0 →
    (ix.modify axis (· - p)).modify axis (· + p) = ix
  | [], _, _, _ => by simp
  | i :: ix, 0, p, h => by
    simpa using Nat.sub_add_cancel (by simpa using h)
  | i :: ix, axis + 1, p, h => by
    simpa using modify_sub_add (by simpa using h)

/-- **Overwriting a stretch**: the elements from `p` to `n` become those of `src` at the same
    place, for a source that is like `t` but of length `n` along the axis. -/
theorem assignStretch_spec (src t : Tensor α) (axis : Nat) {p n : Nat} (hp : p ≤ n)
    (hn : n ≤ t.shape.getD axis 0) (haxis : axis < t.shape.length)
    (hsrc : src.shape = t.shape.set axis n) :
    ∃ t', assignSlice axis p n (src.slice axis p n) t = some t' ∧ t'.shape = t.shape ∧
      ∀ ix, InBounds t.shape ix → t'.get ix =
        if p ≤ ix.getD axis 0 ∧ ix.getD axis 0 < n then src.get ix else t.get ix := by
  have hlen : n ≤ src.shape.getD axis 0 := by
    rw [hsrc]
    simp [List.getD_eq_getElem?_getD, haxis]
  have hshape : (src.slice axis p n).shape = t.shape.set axis (n - p) := by
    rw [shape_slice_of_le hp hlen, hsrc, List.set_set]
  obtain ⟨t', hassign, hshape', hget⟩ := assignSlice_spec hp hn hshape
  refine ⟨t', hassign, hshape', fun ix hix => ?_⟩
  rw [hget ix hix]
  by_cases hin : p ≤ ix.getD axis 0 ∧ ix.getD axis 0 < n
  · have hbound : InBounds (src.shape.set axis (n - p)) (ix.modify axis (· - p)) := by
      rw [hsrc, List.set_set]
      exact InBounds.set_modify hix (by omega)
    rw [if_pos hin, if_pos hin, get_slice _ hp hlen hbound, modify_sub_add hin.1]
  · rw [if_neg hin, if_neg hin]

/-- The last position of `x`: what a repeated index of an assignment leaves behind. -/
def lastIdxOf (x : Nat) : List Nat → Option Nat
  | [] => none
  | y :: ys =>
    match lastIdxOf x ys with
    | some i => some (i + 1)
    | none => if y = x then some 0 else none

/-- What is not in the list has no last place, -/
theorem lastIdxOf_of_not_mem {x : Nat} : ∀ {xs : List Nat}, x ∉ xs → lastIdxOf x xs = none
  | [], _ => rfl
  | y :: ys, h => by
    rw [List.mem_cons, not_or] at h
    simp only [lastIdxOf, lastIdxOf_of_not_mem h.2, if_neg (Ne.symm h.1)]

/-- In a list without repetitions the last position of an element is its position. -/
theorem lastIdxOf_getElem : ∀ {xs : List Nat} {i : Nat} (hi : i < xs.length), xs.Nodup →
    lastIdxOf xs[i] xs = some i
  | [], _, hi, _ => absurd hi (Nat.not_lt_zero _)
  | y :: ys, 0, _, h => by
    simp [lastIdxOf, lastIdxOf_of_not_mem (List.nodup_cons.mp h).1]
  | y :: ys, i + 1, hi, h => by
    simp only [List.getElem_cons_succ, lastIdxOf,
      lastIdxOf_getElem (Nat.lt_of_succ_lt_succ hi) (List.nodup_cons.mp h).2]

/-- and the last place of something is one of its places. -/
theorem lastIdxOf_eq_some {x : Nat} : ∀ {xs : List Nat} {i : Nat}, lastIdxOf x xs = some i →
    xs[i]? = some x
  | y :: ys, i, h => by
    rw [lastIdxOf] at h
    split at h
    · rename_i j hj
      obtain rfl := Option.some.inj h
      simpa using lastIdxOf_eq_some hj
    · split at h
      · obtain rfl := Option.some.inj h
        simpa using ‹y = x›
      · nomatch h

/-- `t[rows, …, start:stop, …] = src`: rows picked along the first axis, a slice along another. -/
def assignRows (rows : List Nat) (axis : Nat) (start stop : Int) (src t : Tensor α) :
    Option (Tensor α) :=
  let lo := clampIndex (t.shape.getD axis 0) start
  let hi := clampIndex (t.shape.getD axis 0) stop
  if broadcasts src.shape ((rows.length :: t.shape.tail).set axis (hi - lo)) then
    some (t.patch fun
      | [] => none
      | row :: ix =>
        if lo ≤ (row :: ix).getD axis 0 ∧ (row :: ix).getD axis 0 < hi then
          (lastIdxOf row rows).map fun i =>
            src.get (broadcastIndex src.shape ((i :: ix).modify axis (· - lo)))
        else none)
  else none

/-- also one to rows. -/
theorem shape_assignRows {src t t' : Tensor α} {rows : List Nat} {axis : Nat} {start stop : Int}
    (h : assignRows rows axis start stop src t = some t') : t'.shape = t.shape := by
  simp only [assignRows] at h
  split at h
  · obtain rfl := Option.some.inj h
    rfl
  · nomatch h

/-- An assignment to picked rows leaves the other rows as they were. -/
theorem get_assignRows_of_not_mem {src t t' : Tensor α} {rows : List Nat} {axis : Nat}
    {start stop : Int} (h : assignRows rows axis start stop src t = some t') {row : Nat}
    {ix : List Nat} (hrow : row ∉ rows) (hix : InBounds t.shape (row :: ix)) :
    t'.get (row :: ix) = t.get (row :: ix) := by
  simp only [assignRows] at h
  split at h
  · obtain rfl := Option.some.inj h
    rw [get_patch _ hix]
    simp [lastIdxOf_of_not_mem hrow]
  · nomatch h

/-- **Row assignment**: inside an axis past the first, with a source of the slice's own shape,
    the picked rows of the slice are the source's and every other element stays. -/
theorem assignRows_spec (src t : Tensor α) (rows : List Nat) (axis : Nat) {lo hi : Nat}
    (hlo : lo ≤ hi) (hhi : hi ≤ t.shape.getD (axis + 1) 0)
    (hsrc : src.shape = rows.length :: t.shape.tail.set axis (hi - lo)) :
    ∃ t', assignRows rows (axis + 1) lo hi src t = some t' ∧ t'.shape = t.shape ∧
      ∀ row ix, InBounds t.shape (row :: ix) → t'.get (row :: ix) =
        match lastIdxOf row rows with
        | some i => if lo ≤ ix.getD axis 0 ∧ ix.getD axis 0 < hi
            then src.get (i :: ix.modify axis (· - lo)) else t.get (row :: ix)
        | none => t.get (row :: ix) := by
  have hclamp : clampIndex (t.shape.getD (axis + 1) 0) lo = lo :=
    clampIndex_of_le (Nat.le_trans hlo hhi)
  have hclamp' : clampIndex (t.shape.getD (axis + 1) 0) hi = hi := clampIndex_of_le hhi
  have hfits : broadcasts src.shape ((rows.length :: t.shape.tail).set (axis + 1) (hi - lo))
      = true := by
    rw [hsrc, List.set_cons_succ]
    exact broadcasts_self _
  simp only [assignRows, hclamp, hclamp', hfits, if_true]
  refine ⟨_, rfl, rfl, fun row ix hix => ?_⟩
  rw [get_patch _ hix]
  simp only [List.getD_cons_succ, List.modify_succ_cons]
  cases hlast : lastIdxOf row rows with
  | none => simp
  | some i =>
    by_cases hin : lo ≤ ix.getD axis 0 ∧ ix.getD axis 0 < hi
    · have hsub : ix.getD axis 0 - lo < hi - lo := by omega
      have hi' : i < rows.length :=
        (List.getElem?_eq_some_iff.mp (lastIdxOf_eq_some hlast)).1
      have htail : InBounds t.shape.tail ix := by
        cases hs : t.shape with
        | nil => rw [hs] at hix; exact absurd hix not_inBounds_nil_cons
        | cons n shape => rw [hs] at hix; exact hix.2
      have hbound : InBounds src.shape (i :: ix.modify axis (· - lo)) := by
        rw [hsrc]
        exact ⟨hi', InBounds.set_modify (f := (· - lo)) htail hsub⟩
      simp only [if_pos hin, Option.map_some, Option.getD_some, broadcastIndex_self hbound]
    · simp only [if_neg hin, Option.getD_none]

end Tensor

end Drift
