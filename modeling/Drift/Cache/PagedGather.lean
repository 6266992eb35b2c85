/-
  `PagedKVPool.gather` reads the tokens.

  Row `r` of the gathered tensors is head `r % kv_heads` of batch row `r / kv_heads`, and its token
  `t` is the one that `keyAt` and `valueAt` find in the pages: `gather_spec`.  The proofs follow the
  source backwards, one tensor operation at a time.
-/
import Drift.Cache.PagedContents

namespace Drift.PagedKVPool

variable {α : Type} {cfg : PoolConfig}

/-- The pages of the first `n` tokens of every row. -/
def prefixPages (s : PagedKVPool α cfg) (table : List Nat) (numLogicalPages : Nat) :
    List (List Nat) :=
  table.map fun row => (s.rowPages row).take numLogicalPages

theorem getD_prefixPages {s : PagedKVPool α cfg} {table : List Nat} {N i l : Nat}
    (hi : i < table.length) (hl : l < N) :
    ((s.prefixPages table N).getD i []).getD l 0 = (s.rowPages table[i]).getD l 0 := by
  simp [prefixPages, List.getD_eq_getElem?_getD, hi, hl]

theorem tableWidth_prefixPages {s : PagedKVPool α cfg} {table : List Nat} {N : Nat} (hN : 0 < N)
    (hne : table ≠ []) (hrows : ∀ r ∈ table, N ≤ (s.rowPages r).length) :
    tableWidth (s.prefixPages table N) = .ok N := by
  obtain ⟨row, rest, rfl⟩ := List.exists_cons_of_ne_nil hne
  have hlen : ∀ r ∈ row :: rest, ((s.rowPages r).take N).length = N := fun r hr =>
    List.length_take_of_le (hrows r hr)
  have hhead := hlen row List.mem_cons_self
  have hall : (rest.map fun row => (s.rowPages row).take N).all
      (·.length = ((s.rowPages row).take N).length) = true := by
    rw [List.all_eq_true]
    intro pages hpages
    obtain ⟨r, hr, rfl⟩ := List.mem_map.mp hpages
    exact decide_eq_true ((hlen r (List.mem_cons_of_mem _ hr)).trans hhead.symm)
  rw [prefixPages, List.map_cons, tableWidth, if_pos hall, hhead, if_neg (by omega)]

theorem mod_heads_lt {r b heads : Nat} (hr : r < b * heads) : r % heads < heads := by
  refine Nat.mod_lt _ (Nat.pos_of_ne_zero fun h0 => ?_)
  rw [h0, Nat.mul_zero] at hr
  exact Nat.not_lt_zero r hr

variable [Zero α]

/-- **The gathered keys**: token `t` of head `g` of row `i` is row `i * kv_heads + g` of the
    result. -/
theorem gatherKeys_spec {s : PagedKVPool α cfg} {table : List Nat} {N p : Nat}
    (hp : p ≤ N * cfg.pageSize) :
    ∃ keys, s.gatherKeys (s.prefixPages table N) N ((N * cfg.pageSize : Nat) : Int) p = some keys ∧
      keys.shape = [table.length * cfg.numKvHeads, cfg.kHeadDim, p] ∧
      ∀ r d t (hr : r / cfg.numKvHeads < table.length), r < table.length * cfg.numKvHeads →
        d < cfg.kHeadDim → t < p →
        keys.get [r, d, t] =
          s.keyAt (table[r / cfg.numKvHeads]) (r % cfg.numKvHeads) d t := by
  have hlen : (s.prefixPages table N).length = table.length := by simp [prefixPages]
  have hpool := s.keyPool_shape
  obtain ⟨t₁, ht₁⟩ : ∃ t₁, t₁ = s.keyPool.indexTable (s.prefixPages table N) N := ⟨_, rfl⟩
  have hshape₁ : t₁.shape = [table.length, N, cfg.numKvHeads, cfg.kHeadDim, cfg.pageSize] := by
    rw [ht₁, Tensor.shape_indexTable, hpool, hlen]
    rfl
  obtain ⟨t₂, ht₂⟩ : ∃ t₂, t₂ = t₁.permute [0, 2, 3, 1, 4] := ⟨_, rfl⟩
  have hshape₂ : t₂.shape = [table.length, cfg.numKvHeads, cfg.kHeadDim, N, cfg.pageSize] := by
    rw [ht₂, Tensor.shape_permute, hshape₁]
    rfl
  have hsize₃ : [table.length, cfg.numKvHeads, cfg.kHeadDim, N * cfg.pageSize].prod
      = t₂.shape.prod := by
    rw [hshape₂]
    simp
  obtain ⟨t₃, ht₃⟩ : ∃ t₃, t₃ = t₂.withShape _ hsize₃ := ⟨_, rfl⟩
  have hshape₃ : t₃.shape = [table.length, cfg.numKvHeads, cfg.kHeadDim, N * cfg.pageSize] := by
    rw [ht₃]
    rfl
  have haxis : p ≤ t₃.shape.getD 3 0 := by
    rw [hshape₃]
    exact hp
  obtain ⟨t₄, ht₄⟩ : ∃ t₄, t₄ = t₃.slice 3 (0 : Nat) p := ⟨_, rfl⟩
  have hshape₄ : t₄.shape = [table.length, cfg.numKvHeads, cfg.kHeadDim, p] := by
    rw [ht₄, Tensor.shape_slice_of_le (Nat.zero_le p) haxis, hshape₃]
    rfl
  have hsize₅ : [table.length * cfg.numKvHeads, cfg.kHeadDim, p].prod = t₄.shape.prod := by
    rw [hshape₄]
    simp [Nat.mul_assoc]
  refine ⟨t₄.withShape _ hsize₅, ?_, rfl, fun r d t hr hr' hd ht => ?_⟩
  · have hreshape₃ : t₂.reshape [((s.prefixPages table N).length : Int), cfg.numKvHeads,
        cfg.kHeadDim, ((N * cfg.pageSize : Nat) : Int)] = some t₃ := by
      rw [hlen, ht₃]
      exact Tensor.reshape_natCast hsize₃
    have hreshape₅ : t₄.reshape [(((s.prefixPages table N).length * cfg.numKvHeads : Nat) : Int),
        cfg.kHeadDim, (p : Int)] = some (t₄.withShape _ hsize₅) := by
      rw [hlen]
      exact Tensor.reshape_natCast hsize₅
    have hzero : t₃.slice 3 0 p = t₄ := ht₄.symm
    rw [gatherKeys, ← ht₁, ← ht₂, hreshape₃]
    show (t₃.slice 3 0 p).reshape _ = _
    rw [hzero]
    exact hreshape₅
  · -- back through the reshapes, the slice and the permutation to the page of the token
    have hpage : t / cfg.pageSize < N := Nat.div_lt_of_lt_mul (by rw [Nat.mul_comm]; omega)
    have hofs := Nat.mod_lt t cfg.pageSize_pos
    have hg := mod_heads_lt hr'
    have h₅ : (t₄.withShape _ hsize₅).get [r, d, t]
        = t₄.get [r / cfg.numKvHeads, r % cfg.numKvHeads, d, t] := by
      refine Tensor.get_withShape hsize₅ ?_
      rw [hshape₄]
      exact ravel_split table.length cfg.numKvHeads r [cfg.kHeadDim, p] [d, t]
    have h₄ : t₄.get [r / cfg.numKvHeads, r % cfg.numKvHeads, d, t]
        = t₃.get [r / cfg.numKvHeads, r % cfg.numKvHeads, d, t] := by
      rw [ht₄]
      exact Tensor.get_slice _ (Nat.zero_le p) haxis
        (by rw [hshape₃]; exact ⟨hr, hg, hd, ht, trivial⟩)
    have h₃ : t₃.get [r / cfg.numKvHeads, r % cfg.numKvHeads, d, t] = t₂.get [r / cfg.numKvHeads,
        r % cfg.numKvHeads, d, t / cfg.pageSize, t % cfg.pageSize] := by
      rw [ht₃]
      refine Tensor.get_withShape hsize₃ ?_
      rw [hshape₂]
      refine ravel_cons_congr (by simp) (ravel_cons_congr (by simp)
        (ravel_cons_congr (by simp) ?_))
      exact ravel_split N cfg.pageSize t [] []
    have h₂ : t₂.get [r / cfg.numKvHeads, r % cfg.numKvHeads, d, t / cfg.pageSize,
        t % cfg.pageSize] = t₁.get [r / cfg.numKvHeads, t / cfg.pageSize, r % cfg.numKvHeads, d,
        t % cfg.pageSize] := by
      rw [ht₂, Tensor.get_permute (by rw [hshape₁]; exact ⟨hr, hg, hd, hpage, hofs, trivial⟩),
        hshape₁]
      rfl
    have h₁ : t₁.get [r / cfg.numKvHeads, t / cfg.pageSize, r % cfg.numKvHeads, d,
        t % cfg.pageSize] = s.keyAt table[r / cfg.numKvHeads] (r % cfg.numKvHeads) d t := by
      rw [ht₁, Tensor.get_indexTable (by
        rw [hpool, hlen]
        exact ⟨hr, hpage, hg, hd, hofs, trivial⟩), getD_prefixPages hr hpage]
      rfl
    rw [h₅, h₄, h₃, h₂, h₁]

/-- **The gathered values.** -/
theorem gatherValues_spec {s : PagedKVPool α cfg} {table : List Nat} {N p : Nat}
    (hp : p ≤ N * cfg.pageSize) :
    ∃ values, s.gatherValues (s.prefixPages table N) N ((N * cfg.pageSize : Nat) : Int) p
        = some values ∧
      values.shape = [table.length * cfg.numKvHeads, p, cfg.vHeadDim] ∧
      ∀ r d t (hr : r / cfg.numKvHeads < table.length), r < table.length * cfg.numKvHeads →
        d < cfg.vHeadDim → t < p →
        values.get [r, t, d] =
          s.valueAt (table[r / cfg.numKvHeads]) (r % cfg.numKvHeads) d t := by
  have hlen : (s.prefixPages table N).length = table.length := by simp [prefixPages]
  have hpool := s.valuePool_shape
  obtain ⟨t₁, ht₁⟩ : ∃ t₁, t₁ = s.valuePool.indexTable (s.prefixPages table N) N := ⟨_, rfl⟩
  have hshape₁ : t₁.shape = [table.length, N, cfg.numKvHeads, cfg.pageSize, cfg.vHeadDim] := by
    rw [ht₁, Tensor.shape_indexTable, hpool, hlen]
    rfl
  obtain ⟨t₂, ht₂⟩ : ∃ t₂, t₂ = t₁.permute [0, 2, 1, 3, 4] := ⟨_, rfl⟩
  have hshape₂ : t₂.shape = [table.length, cfg.numKvHeads, N, cfg.pageSize, cfg.vHeadDim] := by
    rw [ht₂, Tensor.shape_permute, hshape₁]
    rfl
  have hsize₃ : [table.length, cfg.numKvHeads, N * cfg.pageSize, cfg.vHeadDim].prod
      = t₂.shape.prod := by
    rw [hshape₂]
    simp [Nat.mul_assoc]
  obtain ⟨t₃, ht₃⟩ : ∃ t₃, t₃ = t₂.withShape _ hsize₃ := ⟨_, rfl⟩
  have hshape₃ : t₃.shape = [table.length, cfg.numKvHeads, N * cfg.pageSize, cfg.vHeadDim] := by
    rw [ht₃]
    rfl
  have haxis : p ≤ t₃.shape.getD 2 0 := by
    rw [hshape₃]
    exact hp
  obtain ⟨t₄, ht₄⟩ : ∃ t₄, t₄ = t₃.slice 2 (0 : Nat) p := ⟨_, rfl⟩
  have hshape₄ : t₄.shape = [table.length, cfg.numKvHeads, p, cfg.vHeadDim] := by
    rw [ht₄, Tensor.shape_slice_of_le (Nat.zero_le p) haxis, hshape₃]
    rfl
  have hsize₅ : [table.length * cfg.numKvHeads, p, cfg.vHeadDim].prod = t₄.shape.prod := by
    rw [hshape₄]
    simp [Nat.mul_assoc]
  refine ⟨t₄.withShape _ hsize₅, ?_, rfl, fun r d t hr hr' hd ht => ?_⟩
  · have hreshape₃ : t₂.reshape [((s.prefixPages table N).length : Int), cfg.numKvHeads,
        ((N * cfg.pageSize : Nat) : Int), cfg.vHeadDim] = some t₃ := by
      rw [hlen, ht₃]
      exact Tensor.reshape_natCast hsize₃
    have hreshape₅ : t₄.reshape [(((s.prefixPages table N).length * cfg.numKvHeads : Nat) : Int),
        (p : Int), cfg.vHeadDim] = some (t₄.withShape _ hsize₅) := by
      rw [hlen]
      exact Tensor.reshape_natCast hsize₅
    have hzero : t₃.slice 2 0 p = t₄ := ht₄.symm
    rw [gatherValues, ← ht₁, ← ht₂, hreshape₃]
    show (t₃.slice 2 0 p).reshape _ = _
    rw [hzero]
    exact hreshape₅
  · have hpage : t / cfg.pageSize < N := Nat.div_lt_of_lt_mul (by rw [Nat.mul_comm]; omega)
    have hofs := Nat.mod_lt t cfg.pageSize_pos
    have hg := mod_heads_lt hr'
    have h₅ : (t₄.withShape _ hsize₅).get [r, t, d]
        = t₄.get [r / cfg.numKvHeads, r % cfg.numKvHeads, t, d] := by
      refine Tensor.get_withShape hsize₅ ?_
      rw [hshape₄]
      exact ravel_split table.length cfg.numKvHeads r [p, cfg.vHeadDim] [t, d]
    have h₄ : t₄.get [r / cfg.numKvHeads, r % cfg.numKvHeads, t, d]
        = t₃.get [r / cfg.numKvHeads, r % cfg.numKvHeads, t, d] := by
      rw [ht₄]
      exact Tensor.get_slice _ (Nat.zero_le p) haxis
        (by rw [hshape₃]; exact ⟨hr, hg, ht, hd, trivial⟩)
    have h₃ : t₃.get [r / cfg.numKvHeads, r % cfg.numKvHeads, t, d] = t₂.get [r / cfg.numKvHeads,
        r % cfg.numKvHeads, t / cfg.pageSize, t % cfg.pageSize, d] := by
      rw [ht₃]
      refine Tensor.get_withShape hsize₃ ?_
      rw [hshape₂]
      refine ravel_cons_congr (by simp [Nat.mul_assoc])
        (ravel_cons_congr (by simp [Nat.mul_assoc]) ?_)
      exact ravel_split N cfg.pageSize t [cfg.vHeadDim] [d]
    have h₂ : t₂.get [r / cfg.numKvHeads, r % cfg.numKvHeads, t / cfg.pageSize,
        t % cfg.pageSize, d] = t₁.get [r / cfg.numKvHeads, t / cfg.pageSize, r % cfg.numKvHeads,
        t % cfg.pageSize, d] := by
      rw [ht₂, Tensor.get_permute (by rw [hshape₁]; exact ⟨hr, hg, hpage, hofs, hd, trivial⟩),
        hshape₁]
      rfl
    have h₁ : t₁.get [r / cfg.numKvHeads, t / cfg.pageSize, r % cfg.numKvHeads,
        t % cfg.pageSize, d] = s.valueAt table[r / cfg.numKvHeads] (r % cfg.numKvHeads) d t := by
      rw [ht₁, Tensor.get_indexTable (by
        rw [hpool, hlen]
        exact ⟨hr, hpage, hg, hofs, hd, trivial⟩), getD_prefixPages hr hpage]
      rfl
    rw [h₅, h₄, h₃, h₂, h₁]

/-- **`gather`** on rows that cover the prefix. -/
theorem gather_spec {s : PagedKVPool α cfg} {slotId p : Nat} {table : List Nat}
    (ht : s.blockTables.lookup slotId = some table) (hp : 0 < p) (hne : table ≠ [])
    (hcov : ∀ r ∈ table, p ≤ (s.rowPages r).length * cfg.pageSize) :
    ∃ keys values, s.gather slotId p = .ok (keys, values) ∧
      keys.shape = [table.length * cfg.numKvHeads, cfg.kHeadDim, p] ∧
      values.shape = [table.length * cfg.numKvHeads, p, cfg.vHeadDim] ∧
      ∀ r t (hr : r / cfg.numKvHeads < table.length), r < table.length * cfg.numKvHeads → t < p →
        (∀ d, d < cfg.kHeadDim → keys.get [r, d, t] =
          s.keyAt (table[r / cfg.numKvHeads]) (r % cfg.numKvHeads) d t) ∧
        (∀ d, d < cfg.vHeadDim → values.get [r, t, d] =
          s.valueAt (table[r / cfg.numKvHeads]) (r % cfg.numKvHeads) d t) := by
  have hps := cfg.pageSize_pos
  obtain ⟨N, hN⟩ : ∃ N, N = (p + cfg.pageSize - 1) / cfg.pageSize := ⟨_, rfl⟩
  have hNpos : 0 < N := by
    rw [hN, lt_ceilDiv_iff hps, Nat.zero_mul]
    exact hp
  have hrows : ∀ r ∈ table, N ≤ (s.rowPages r).length := by
    intro r hr
    refine Nat.le_of_not_lt fun hlt => ?_
    rw [hN, lt_ceilDiv_iff hps] at hlt
    exact Nat.not_lt_of_le (hcov r hr) hlt
  have hpN : p ≤ N * cfg.pageSize := hN ▸ le_ceilDiv_mul hps p
  obtain ⟨keys, hkeys, hkshape, hkget⟩ := gatherKeys_spec (s := s) hpN
  obtain ⟨values, hvalues, hvshape, hvget⟩ := gatherValues_spec (s := s) hpN
  refine ⟨keys, values, ?_, hkshape, hvshape, fun r t hr hr' ht =>
    ⟨fun d hd => hkget r d t hr hr' hd ht, fun d hd => hvget r d t hr hr' hd ht⟩⟩
  have hp0 : ¬ ((p : Int) = 0) := by omega
  have hpages : (table.map fun row => pyTake (s.rowPages row) (N : Int)) = s.prefixPages table N := by
    simp [prefixPages]
  have hpadded : (N : Int) * cfg.pageSize = ((N * cfg.pageSize : Nat) : Int) :=
    (Int.natCast_mul _ _).symm
  rw [gather, ht]
  simp only [if_neg hp0, pyCeilDiv_natCast hps, ← hN, hpages,
    tableWidth_prefixPages hNpos hne hrows, hpadded, hkeys, hvalues]

end Drift.PagedKVPool
