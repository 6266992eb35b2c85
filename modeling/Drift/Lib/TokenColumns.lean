/-
  Tensors `[batch, seq, features]` as lists of columns.

  The column at a position holds what all rows of the batch have there.  Cutting and concatenating
  along the second axis is cutting and concatenating the list of columns (`columns_slice`,
  `columns_cat`), and a tensor of known shape is its columns (`columns_inj`).
-/
import Drift.Lib.Tensor

namespace Drift.Tensor

variable {α : Type} [Zero α]

/-- What the rows have at position `j`. -/
def column (t : Tensor α) (j : Nat) : List (List α) :=
  (List.range (t.shape.getD 0 0)).map fun i =>
    (List.range (t.shape.getD 2 0)).map fun h => t.get [i, j, h]

/-- The columns of a tensor `[batch, seq, features]`. -/
def columns (t : Tensor α) : List (List (List α)) :=
  (List.range (t.shape.getD 1 0)).map t.column

/-- `t[:, -n:]`. -/
def lastTokens (n : Nat) (t : Tensor α) : Tensor α :=
  t.slice 1 (-(n : Int)) (t.shape.getD 1 0)

@[simp] theorem length_columns (t : Tensor α) : t.columns.length = t.shape.getD 1 0 := by
  simp [columns]

theorem getElem_columns {t : Tensor α} {j : Nat} (hj : j < t.columns.length) :
    t.columns[j] = t.column j := by
  simp [columns]

/-- All tokens are the last tokens, also if there are none. -/
theorem lastTokens_self {t : Tensor α} {n : Nat} (h : t.shape.getD 1 0 = n) :
    t.lastTokens n = t := by
  have hstart : clampIndex (t.shape.getD 1 0) (-(n : Int)) = clampIndex (t.shape.getD 1 0) 0 := by
    have hzero : clampIndex (t.shape.getD 1 0) 0 = 0 := clampIndex_of_le (Nat.zero_le _)
    rw [hzero, clampIndex, h]
    split <;> omega
  have hslice : t.slice 1 (-(n : Int)) (t.shape.getD 1 0) = t.slice 1 0 (t.shape.getD 1 0) := by
    unfold slice
    rw [hstart]
  rw [lastTokens, hslice]
  exact slice_all (Nat.le_refl _)

section Columns

variable {batch n m features : Nat} {t u : Tensor α}

/-- Two columns agree if the elements do. -/
theorem column_congr {i j : Nat} (ht : t.shape.getD 0 0 = u.shape.getD 0 0)
    (hf : t.shape.getD 2 0 = u.shape.getD 2 0)
    (h : ∀ r d, r < t.shape.getD 0 0 → d < t.shape.getD 2 0 → t.get [r, i, d] = u.get [r, j, d]) :
    t.column i = u.column j := by
  unfold column
  rw [← ht, ← hf]
  refine List.map_congr_left fun r hr => List.map_congr_left fun d hd => ?_
  exact h r d (List.mem_range.mp hr) (List.mem_range.mp hd)

/-- Tokens with the same column have the same entries. -/
theorem get_of_column_eq {i j r d : Nat} (h : t.column i = u.column j)
    (hr : r < t.shape.getD 0 0) (hd : d < t.shape.getD 2 0)
    (hr' : r < u.shape.getD 0 0) (hd' : d < u.shape.getD 2 0) :
    t.get [r, i, d] = u.get [r, j, d] := by
  have hrow := congrArg (fun rows => (rows.getD r []).getD d 0) h
  rw [List.getD_eq_getElem?_getD] at hr hd hr' hd'
  simpa [column, List.getElem?_range, hr, hd, hr', hd'] using hrow

/-- **Columns determine the tensor.** -/
theorem columns_inj (ht : t.shape = [batch, n, features]) (hu : u.shape = [batch, n, features])
    (h : t.columns = u.columns) : t = u := by
  refine ext_get (ht.trans hu.symm) fun ix hix => ?_
  rw [ht] at hix
  obtain ⟨r, j, d, rfl, hr, hj, hd⟩ := hix.exists_three
  have hjt : j < t.columns.length := by
    rw [length_columns, ht]
    exact hj
  have hju : j < u.columns.length := h ▸ hjt
  have hcolumn : t.column j = u.column j := by
    rw [← getElem_columns hjt, ← getElem_columns hju]
    simp only [h]
  exact get_of_column_eq hcolumn (by rw [ht]; exact hr) (by rw [ht]; exact hd)
    (by rw [hu]; exact hr) (by rw [hu]; exact hd)

/-- Tokens behind tokens. -/
theorem shape_cat_tokens (ht : t.shape = [batch, n, features])
    (hu : u.shape = [batch, m, features]) : (cat 1 t u).shape = [batch, n + m, features] := by
  rw [cat, shape_ofFn, ht, hu]
  rfl

/-- **Concatenating** along the second axis concatenates the columns. -/
theorem columns_cat (ht : t.shape = [batch, n, features]) (hu : u.shape = [batch, m, features]) :
    (cat 1 t u).columns = t.columns ++ u.columns := by
  have hshape := shape_cat_tokens ht hu
  have hget : ∀ r j d, r < batch → j < n + m → d < features →
      (cat 1 t u).get [r, j, d] = if j < n then t.get [r, j, d] else u.get [r, j - n, d] := by
    intro r j d hr hj hd
    have hix : InBounds [batch, n + m, features] [r, j, d] := ⟨hr, hj, hd, trivial⟩
    rw [← hshape] at hix
    have hcat : (cat 1 t u).get [r, j, d] = _ := get_ofFn _ hix
    rw [hcat, ht]
    rfl
  refine List.ext_getElem ?_ fun j hj hj' => ?_
  · rw [List.length_append, length_columns, length_columns, length_columns, hshape, ht, hu]
    rfl
  have hlt : j < n + m := by
    rw [length_columns, hshape] at hj
    exact hj
  have hlen : t.columns.length = n := by
    rw [length_columns, ht]
    rfl
  rw [getElem_columns]
  rcases Nat.lt_or_ge j n with hjn | hjn
  · rw [List.getElem_append_left (by omega), getElem_columns]
    refine column_congr (by rw [hshape, ht]; rfl) (by rw [hshape, ht]; rfl) fun r d hr hd => ?_
    rw [hshape] at hr hd
    rw [hget r j d hr hlt hd, if_pos hjn]
  · rw [List.getElem_append_right (by omega), getElem_columns]
    refine column_congr (by rw [hshape, hu]; rfl) (by rw [hshape, hu]; rfl) fun r d hr hd => ?_
    rw [hshape] at hr hd
    rw [hget r j d hr hlt hd, if_neg (by omega), hlen]

/-- The first tokens. -/
theorem shape_slice_first (ht : t.shape = [batch, n, features]) (hm : m ≤ n) :
    (t.slice 1 0 m).shape = [batch, m, features] := by
  have hle : m ≤ t.shape.getD 1 0 := by
    rw [ht]
    exact hm
  have h := shape_slice_of_le (Nat.zero_le m) hle
  rw [ht] at h
  exact h

/-- **Cutting** along the second axis cuts the columns. -/
theorem columns_slice (ht : t.shape = [batch, n, features]) (hm : m ≤ n) :
    (t.slice 1 0 m).columns = t.columns.take m := by
  have hshape := shape_slice_first ht hm
  refine List.ext_getElem ?_ fun j hj hj' => ?_
  · rw [List.length_take, length_columns, length_columns, hshape, ht]
    exact (Nat.min_eq_left hm).symm
  have hlt : j < m := by
    rw [length_columns, hshape] at hj
    exact hj
  rw [getElem_columns, List.getElem_take, getElem_columns]
  refine column_congr (by rw [hshape, ht]; rfl) (by rw [hshape, ht]; rfl) fun r d hr hd => ?_
  rw [hshape] at hr hd
  have hix : InBounds [batch, n, features] [r, j, d] := ⟨hr, Nat.lt_of_lt_of_le hlt hm, hd, trivial⟩
  have hle : m ≤ t.shape.getD 1 0 := by
    rw [ht]
    exact hm
  exact get_slice [r, j, d] (Nat.zero_le m) hle (by rw [ht]; exact ⟨hr, hlt, hd, trivial⟩)

end Columns

/-! ## A tensor from its columns -/

/-- A column of `batch` rows. -/
def ColumnShape (batch features : Nat) (column : List (List α)) : Prop :=
  column.length = batch ∧ ∀ row ∈ column, row.length = features

/-- The tensor with the given columns. -/
def ofColumns (batch features : Nat) (columns : List (List (List α))) : Tensor α :=
  ofFn [batch, columns.length, features] fun ix =>
    ((columns.getD (ix.getD 1 0) []).getD (ix.getD 0 0) []).getD (ix.getD 2 0) 0

section OfColumns

variable {batch n features : Nat} {t : Tensor α} {columns : List (List (List α))}

theorem shape_ofColumns : (ofColumns batch features columns).shape
    = [batch, columns.length, features] := shape_ofFn _ _

/-- The columns of a tensor have its batch and features, -/
theorem columnShape_columns (ht : t.shape = [batch, n, features]) :
    ∀ column ∈ t.columns, ColumnShape batch features column := by
  intro column hcolumn
  obtain ⟨j, -, rfl⟩ := List.mem_map.mp hcolumn
  constructor
  · rw [Tensor.column, List.length_map, List.length_range, ht]
    rfl
  · intro row hrow
    obtain ⟨i, -, rfl⟩ := List.mem_map.mp hrow
    rw [List.length_map, List.length_range, ht]
    rfl

/-- and a tensor that is made of such columns has them. -/
theorem columns_ofColumns (h : ∀ column ∈ columns, ColumnShape batch features column) :
    (ofColumns batch features columns).columns = columns := by
  have hshape : (ofColumns batch features columns).shape = _ := shape_ofColumns
  refine List.ext_getElem ?_ fun j hj hj' => ?_
  · rw [length_columns, hshape]
    rfl
  obtain ⟨hbatch, hfeatures⟩ := h _ (List.getElem_mem hj')
  rw [getElem_columns hj, Tensor.column]
  refine List.ext_getElem ?_ fun i hi hi' => ?_
  · rw [List.length_map, List.length_range, hshape]
    exact hbatch.symm
  rw [List.getElem_map, List.getElem_range]
  have hrow := hfeatures _ (List.getElem_mem hi')
  refine List.ext_getElem ?_ fun d hd hd' => ?_
  · rw [List.length_map, List.length_range, hshape]
    exact hrow.symm
  rw [List.getElem_map, List.getElem_range]
  have hix : InBounds [batch, columns.length, features] [i, j, d] :=
    ⟨hbatch ▸ hi', hj', hrow ▸ hd', trivial⟩
  rw [ofColumns, get_ofFn _ hix]
  show ((columns.getD j []).getD i []).getD d 0 = _
  rw [List.getD_eq_getElem _ _ hj', List.getD_eq_getElem _ _ hi', List.getD_eq_getElem _ _ hd']

end OfColumns

end Drift.Tensor
