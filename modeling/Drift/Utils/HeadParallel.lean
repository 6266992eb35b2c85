/-
  Head-parallel shards against the block: `test_tensor_parallel.py` for the rules of `configs.py`.

  A linear layer that is cut along its outputs gives a slice of the outputs (`forward_of_columns`);
  one that is cut along its inputs gives, summed over the ranks, the outputs of the whole layer, if
  each rank has its slice of the inputs (`sum_forward_of_rows`).  The attention and the MLP are one
  of each kind with something between them that works on each head, or on each intermediate feature,
  apart.

  That holds for every number of ranks up to the number of kv heads, even or not.  What does not
  hold is the number of heads that the server reads off a shard: it is that of the whole block
  (`GQAttention.numAttentionHeads` of a copy), so the cache would have all kv heads in every rank,
  and `make_tensor_parallel` raises before that (`head_parallel_counts`,
  `makeTensorParallel_raises`).
-/
import Drift.Utils.TensorParallel
import Mathlib.Algebra.BigOperators.Ring.Finset
import Mathlib.Algebra.CharZero.Defs
import Mathlib.Data.Rat.Cast.CharZero
import Mathlib.Tactic.FieldSimp

namespace Drift.TensorParallel

variable {K P : Type} [Field K]

/-! ## Running a block -/

/-- `F.linear(x, weight, bias)` at row `t` and output `o`. -/
def Linear.value (l : Linear K) (x : Tensor K) (t o : Nat) : K :=
  ∑ i ∈ Finset.range (l.weight.shape.getD 1 0), x.get [t, i] * l.weight.get [o, i] +
    match l.bias with
    | none => 0
    | some bias => bias.get [o]

def Linear.forward (l : Linear K) (x : Tensor K) : Tensor K :=
  Tensor.ofFn [x.shape.getD 0 0, l.weight.shape.getD 0 0] fun ix =>
    l.value x (ix.getD 0 0) (ix.getD 1 0)

/-- What is of head `i` along an axis. -/
def headSlice (axis headDim i : Nat) (t : Tensor K) : Tensor K :=
  t.slice axis (i * headDim : Nat) ((i + 1) * headDim : Nat)

/-- The outputs of the heads, side by side.  `attend` is what a head makes of the past of its kv
    head and of its queries, keys and values; with `repeat_kv`, query head `i` has kv head `i //
    num_key_value_groups`. -/
def GQAttention.headOutputs (attn : GQAttention K)
    (attend : Option P → Tensor K → Tensor K → Tensor K → Tensor K) (layerPast : List P)
    (x : Tensor K) : Tensor K :=
  let q := attn.qProj.forward x
  let k := attn.kProj.forward x
  let v := attn.vProj.forward x
  Tensor.ofFn [x.shape.getD 0 0, attn.qProj.weight.shape.getD 0 0] fun ix =>
    let i := ix.getD 1 0 / attn.headDim
    let kv := i / attn.numKeyValueGroups
    (attend layerPast[kv]? (headSlice 1 attn.headDim i q) (headSlice 1 attn.headDim kv k)
      (headSlice 1 attn.headDim kv v)).get [ix.getD 0 0, ix.getD 1 0 % attn.headDim]

def GQAttention.forward (attn : GQAttention K)
    (attend : Option P → Tensor K → Tensor K → Tensor K → Tensor K) (layerPast : List P)
    (x : Tensor K) : Tensor K :=
  attn.oProj.forward (attn.headOutputs attend layerPast x)

/-- `act_fn(gate) * up`. -/
def gated (act : K → K) (gate up : Tensor K) : Tensor K :=
  Tensor.ofFn gate.shape fun ix => act (gate.get ix) * up.get ix

/-- A weight without a bias. -/
def ofWeight (weight : Tensor K) : Linear K := ⟨weight, none, weight.shape.getD 0 0⟩

/-- `gate, up = linear(x, gate_up_proj[e]).chunk(2, dim=-1)` and what goes on to `down_proj`. -/
def expertHidden (act : K → K) (gateUpProj x : Tensor K) : Tensor K :=
  let gateUp := (ofWeight gateUpProj).forward x
  let size := (gateUpProj.shape.getD 0 0 + 1) / 2
  gated act (gateUp.slice 1 (0 : Nat) (size : Nat)) (gateUp.slice 1 (size : Nat) (2 * size : Nat))

/-- One expert. -/
def expertForward (act : K → K) (gateUpProj downProj x : Tensor K) : Tensor K :=
  (ofWeight downProj).forward (expertHidden act gateUpProj x)

/-- The MLP; `route` gives the weights of the experts for each token, zero for those that it does
    not choose. -/
def Mlp.forward (act : K → K) (route : Tensor K → Tensor K → Tensor K) :
    Mlp K → Tensor K → Tensor K
  | .llama gateProj upProj downProj, x =>
    downProj.forward (gated act (gateProj.forward x) (upProj.forward x))
  | .mixtral gate gateUpProj downProj, x =>
    Tensor.ofFn [x.shape.getD 0 0, downProj.shape.getD 1 0] fun ix =>
      ∑ e ∈ Finset.range (gateUpProj.shape.getD 0 0),
        (expertForward act (gateUpProj.select e) (downProj.select e) x).get ix *
          (route gate x).get [ix.getD 0 0, e]

/-- `reduce_add`. -/
def reduceAdd : List (Tensor K) → Tensor K
  | [] => Tensor.zeros []
  | t :: ts => ts.foldl (fun t u => Tensor.ofFn t.shape fun ix => t.get ix + u.get ix) t

/-! ## Sums of tensors -/

/-- The reduced tensor is the sum over the shards, entry by entry. -/
theorem reduceAdd_spec {shape : List Nat} : ∀ {ts : List (Tensor K)}, ts ≠ [] →
    (∀ t ∈ ts, t.shape = shape) → (reduceAdd ts).shape = shape ∧
      ∀ ix, InBounds shape ix → (reduceAdd ts).get ix = (ts.map (·.get ix)).sum := by
  intro ts hne hall
  cases ts with
  | nil => exact absurd rfl hne
  | cons t ts =>
    rw [reduceAdd]
    have ht := hall t List.mem_cons_self
    have hts : ∀ u ∈ ts, u.shape = shape := fun u hu => hall u (List.mem_cons_of_mem t hu)
    clear hne hall
    induction ts generalizing t with
    | nil => exact ⟨ht, fun ix _ => (add_zero _).symm⟩
    | cons u ts ih =>
      obtain ⟨hshape, hget⟩ := ih (Tensor.ofFn t.shape fun ix => t.get ix + u.get ix) ht
        fun v hv => hts v (List.mem_cons_of_mem u hv)
      refine ⟨hshape, fun ix hix => ?_⟩
      rw [List.foldl_cons, hget ix hix, List.map_cons, List.map_cons, List.map_cons, List.sum_cons,
        List.sum_cons, List.sum_cons, Tensor.get_ofFn _ (ht ▸ hix), add_assoc]

theorem sum_map_range (n : Nat) (f : Nat → K) :
    ((List.range n).map f).sum = ∑ i ∈ Finset.range n, f i := by
  induction n with
  | zero => rfl
  | succ n ih =>
    rw [List.range_succ, List.map_append, List.sum_append, ih, Finset.sum_range_succ]
    simp

/-- Tensors of two axes that are summed over the ranks. -/
theorem reduceAdd_range {n m worldSize : Nat} {f : Nat → Tensor K} (hw : 0 < worldSize)
    (hshape : ∀ rank < worldSize, (f rank).shape = [n, m]) :
    (reduceAdd ((List.range worldSize).map f)).shape = [n, m] ∧ ∀ i < n, ∀ j < m,
      (reduceAdd ((List.range worldSize).map f)).get [i, j]
        = ∑ rank ∈ Finset.range worldSize, (f rank).get [i, j] := by
  have hne : (List.range worldSize).map f ≠ [] := by
    rw [Ne, List.map_eq_nil_iff, List.range_eq_nil]
    exact hw.ne'
  have hall : ∀ u ∈ (List.range worldSize).map f, u.shape = [n, m] := by
    intro u hu
    obtain ⟨rank, hrank, rfl⟩ := List.mem_map.mp hu
    exact hshape rank (List.mem_range.mp hrank)
  obtain ⟨hreduce, hget⟩ := reduceAdd_spec hne hall
  refine ⟨hreduce, fun i hi j hj => ?_⟩
  rw [hget [i, j] ⟨hi, hj, trivial⟩, List.map_map, ← sum_map_range]
  rfl

/-- Partial outputs that add up to a tensor are reduced to that tensor. -/
theorem reduceAdd_eq {n m worldSize : Nat} {f : Nat → Tensor K} {t : Tensor K}
    (hw : 0 < worldSize) (ht : t.shape = [n, m])
    (hshape : ∀ rank < worldSize, (f rank).shape = [n, m])
    (hsum : ∀ i < n, ∀ j < m, ∑ rank ∈ Finset.range worldSize, (f rank).get [i, j] = t.get [i, j]) :
    reduceAdd ((List.range worldSize).map f) = t := by
  obtain ⟨hreduce, hget⟩ := reduceAdd_range hw hshape
  refine Tensor.ext_get (hreduce.trans ht.symm) fun ix hix => ?_
  rw [hreduce] at hix
  obtain ⟨i, rest, rfl, hi, hrest⟩ := hix.exists_cons
  obtain ⟨j, rest, rfl, hj, hnil⟩ := hrest.exists_cons
  obtain rfl := hnil.eq_nil
  rw [hget i hi j hj, hsum i hi j hj]

/-! ## Linear layers -/

/-- `tensor / world_size`. -/
def scaled (worldSize : Nat) (t : Tensor K) : Tensor K :=
  Tensor.ofFn t.shape fun ix => t.get ix / worldSize

/-- The shape of a layer with these outputs and inputs. -/
structure Linear.Fits (l : Linear K) (rows cols : Nat) : Prop where
  weight : l.weight.shape = [rows, cols]
  bias : ∀ bias, l.bias = some bias → bias.shape = [rows]
  outFeatures : l.outFeatures = rows

/-- `l'` has the outputs from `lo` to `hi` of `l`. -/
structure Linear.Columns (lo hi : Nat) (l l' : Linear K) : Prop where
  weight : l'.weight = l.weight.slice 0 lo hi
  bias : l'.bias = l.bias.map fun bias => bias.slice 0 lo hi
  outFeatures : l'.outFeatures = l.outFeatures

/-- `l'` has the inputs from `lo` to `hi` of `l`, and its part of the bias. -/
structure Linear.Rows (lo hi worldSize : Nat) (l l' : Linear K) : Prop where
  weight : l'.weight = l.weight.slice 1 lo hi
  bias : l'.bias = l.bias.map (scaled worldSize)
  outFeatures : l'.outFeatures = l.outFeatures

@[simp] theorem shape_forward (l : Linear K) (x : Tensor K) :
    (l.forward x).shape = [x.shape.getD 0 0, l.weight.shape.getD 0 0] := rfl

theorem get_forward {l : Linear K} {x : Tensor K} {t o : Nat} (ht : t < x.shape.getD 0 0)
    (ho : o < l.weight.shape.getD 0 0) : (l.forward x).get [t, o] = l.value x t o :=
  Tensor.get_ofFn _ ⟨ht, ho, trivial⟩

variable {l : Linear K} {rows cols lo hi : Nat}

/-- A shard of the rows reads the full weight from its offset on. -/
theorem get_slice_rows {t : Tensor K} (ht : t.shape = [rows, cols]) (hlo : lo ≤ hi)
    (hhi : hi ≤ rows) {o i : Nat} (ho : o < hi - lo) (hi' : i < cols) :
    (t.slice 0 lo hi).get [o, i] = t.get [o + lo, i] := by
  have hn : t.shape.getD 0 0 = rows := by rw [ht]; rfl
  exact Tensor.get_slice _ hlo (hn ▸ hhi) (by rw [ht]; exact ⟨ho, hi', trivial⟩)

/-- A shard of the columns reads the full weight from its offset on. -/
theorem get_slice_columns {t : Tensor K} (ht : t.shape = [rows, cols]) (hlo : lo ≤ hi)
    (hhi : hi ≤ cols) {o i : Nat} (ho : o < rows) (hi' : i < hi - lo) :
    (t.slice 1 lo hi).get [o, i] = t.get [o, i + lo] := by
  have hn : t.shape.getD 1 0 = cols := by rw [ht]; rfl
  exact Tensor.get_slice _ hlo (hn ▸ hhi) (by rw [ht]; exact ⟨ho, hi', trivial⟩)

/-- **A layer cut along its outputs** gives a slice of them. -/
theorem forward_of_columns {l' : Linear K} (hfits : l.Fits rows cols) (hlo : lo ≤ hi)
    (hhi : hi ≤ rows) (hl : Linear.Columns lo hi l l') (x : Tensor K) :
    l'.forward x = (l.forward x).slice 1 lo hi := by
  have hrows : (l.forward x).shape = [x.shape.getD 0 0, rows] := by
    rw [shape_forward, hfits.weight]
    rfl
  have hweight : l'.weight.shape = [hi - lo, cols] := by
    rw [hl.weight, Tensor.shape_slice_of_le hlo (by rw [hfits.weight]; exact hhi), hfits.weight]
    rfl
  have hshape : (l'.forward x).shape = [x.shape.getD 0 0, hi - lo] := by
    rw [shape_forward, hweight]
    rfl
  refine Tensor.ext_get ?_ fun ix hix => ?_
  · rw [hshape, Tensor.shape_slice_of_le hlo (by rw [hrows]; exact hhi), hrows]
    rfl
  rw [hshape] at hix
  obtain ⟨t, rest, rfl, ht, hrest⟩ := hix.exists_cons
  obtain ⟨o, rest, rfl, ho, hnil⟩ := hrest.exists_cons
  obtain rfl := hnil.eq_nil
  rw [get_slice_columns hrows hlo hhi ht ho, get_forward ht (by rw [hweight]; exact ho),
    get_forward ht (by rw [hfits.weight]; show o + lo < rows; omega), Linear.value, Linear.value,
    hweight, hfits.weight]
  congr 1
  · refine Finset.sum_congr rfl fun i hi' => ?_
    rw [hl.weight, get_slice_rows hfits.weight hlo hhi ho (Finset.mem_range.mp hi')]
  · rw [hl.bias]
    cases hbias : l.bias with
    | none => rfl
    | some bias =>
      have hshape := hfits.bias bias hbias
      refine Tensor.get_slice [o] hlo (by rw [hshape]; exact hhi) ?_
      rw [hshape]
      exact ⟨ho, trivial⟩

/-- **A layer cut along its inputs** gives its outputs as a sum over the ranks. -/
theorem sum_value_of_rows {starts : Nat → Nat} (hzero : starts 0 = 0) (hmono : Monotone starts)
    {worldSize : Nat} (hworld : (worldSize : K) ≠ 0) (hfits : l.Fits rows (starts worldSize))
    {l' : Nat → Linear K}
    (hl : ∀ rank < worldSize,
      Linear.Rows (starts rank) (starts (rank + 1)) worldSize l (l' rank))
    {x : Tensor K} {x' : Nat → Tensor K} {t o : Nat} (ho : o < rows)
    (hx : ∀ rank < worldSize, ∀ i < starts (rank + 1) - starts rank,
      (x' rank).get [t, i] = x.get [t, starts rank + i]) :
    ∑ rank ∈ Finset.range worldSize, (l' rank).value (x' rank) t o = l.value x t o := by
  have hle : ∀ rank < worldSize, starts (rank + 1) ≤ starts worldSize := fun rank hrank =>
    hmono hrank
  have hcols : ∀ rank < worldSize,
      (l' rank).weight.shape.getD 1 0 = starts (rank + 1) - starts rank := by
    intro rank hrank
    rw [(hl rank hrank).weight, Tensor.shape_slice_of_le (hmono (Nat.le_succ rank))
      (by rw [hfits.weight]; exact hle rank hrank), hfits.weight]
    rfl
  have hsum : ∀ rank < worldSize, (l' rank).value (x' rank) t o =
      ∑ i ∈ Finset.range (starts (rank + 1) - starts rank),
        x.get [t, starts rank + i] * l.weight.get [o, starts rank + i] +
      match l.bias with
      | none => 0
      | some bias => bias.get [o] / worldSize := by
    intro rank hrank
    rw [Linear.value, hcols rank hrank]
    congr 1
    · refine Finset.sum_congr rfl fun i hi' => ?_
      have hi' := Finset.mem_range.mp hi'
      rw [hx rank hrank i hi', (hl rank hrank).weight,
        get_slice_columns hfits.weight (hmono (Nat.le_succ rank)) (hle rank hrank) ho hi',
        Nat.add_comm i]
    · rw [(hl rank hrank).bias]
      cases hbias : l.bias with
      | none => rfl
      | some bias =>
        refine Tensor.get_ofFn _ ?_
        rw [hfits.bias bias hbias]
        exact ⟨ho, trivial⟩
  rw [Finset.sum_congr rfl fun rank hrank => hsum rank (Finset.mem_range.mp hrank),
    Finset.sum_add_distrib, sum_parts hzero hmono fun i => x.get [t, i] * l.weight.get [o, i],
    Linear.value, hfits.weight]
  congr 1
  rw [Finset.sum_const, Finset.card_range, nsmul_eq_mul]
  cases hbias : l.bias with
  | none => exact mul_zero _
  | some bias => exact mul_div_cancel₀ _ hworld

/-- The same for tensors. -/
theorem sum_forward_of_rows [CharZero K] {starts : Nat → Nat} (hzero : starts 0 = 0)
    (hmono : Monotone starts) {worldSize : Nat} (hworld : 0 < worldSize)
    (hfits : l.Fits rows (starts worldSize)) {l' : Nat → Linear K}
    (hl : ∀ rank < worldSize,
      Linear.Rows (starts rank) (starts (rank + 1)) worldSize l (l' rank))
    {x : Tensor K} {x' : Nat → Tensor K}
    (hcount : ∀ rank < worldSize, (x' rank).shape.getD 0 0 = x.shape.getD 0 0)
    (hx : ∀ rank < worldSize, ∀ t < x.shape.getD 0 0, ∀ i < starts (rank + 1) - starts rank,
      (x' rank).get [t, i] = x.get [t, starts rank + i]) :
    reduceAdd ((List.range worldSize).map fun rank => (l' rank).forward (x' rank))
      = l.forward x := by
  have hrows : ∀ rank < worldSize, (l' rank).weight.shape.getD 0 0 = rows := by
    intro rank hrank
    rw [(hl rank hrank).weight, Tensor.shape_slice, hfits.weight]
    rfl
  have hwhole : l.weight.shape.getD 0 0 = rows := by rw [hfits.weight]; rfl
  refine reduceAdd_eq (n := x.shape.getD 0 0) (m := rows) hworld (by rw [shape_forward, hwhole])
    (fun rank hrank => by rw [shape_forward, hrows rank hrank, hcount rank hrank]) ?_
  intro t ht o ho
  have hvalue : ∀ rank < worldSize,
      ((l' rank).forward (x' rank)).get [t, o] = (l' rank).value (x' rank) t o := fun rank hrank =>
    get_forward ((hcount rank hrank).symm ▸ ht) ((hrows rank hrank).symm ▸ ho)
  rw [Finset.sum_congr rfl fun rank hrank => hvalue rank (Finset.mem_range.mp hrank),
    get_forward ht (hwhole.symm ▸ ho)]
  exact sum_value_of_rows hzero hmono (Nat.cast_ne_zero.mpr hworld.ne') hfits hl ho
    fun rank hrank => hx rank hrank t ht

/-! ## What the rules make of a layer -/

section Shards

variable {rules : StateRules} {worldSize rank : Nat} {name : Leaf → ParamName} {n b : Nat}

/-- What `make_shard` leaves of one linear layer, from its rules for the weight and for the bias. -/
theorem shard_eq {weight : Tensor K} {cut : Tensor K → Tensor K}
    (hweight : processState rules worldSize rank (name .weight) l.weight = .ok weight)
    (hbias : ∀ bias, l.bias = some bias →
      processState rules worldSize rank (name .bias) bias = .ok (cut bias)) :
    l.shard rules worldSize rank name
      = .ok { l with weight := weight, bias := l.bias.map cut } := by
  rw [Linear.shard, hweight]
  cases hl : l.bias with
  | none => rfl
  | some bias =>
    have hcut := hbias bias hl
    show ((some <$> processState rules worldSize rank (name .bias) bias : Except PyExc _) >>=
      fun bias => Except.ok { l with weight := weight, bias := bias }) = _
    rw [hcut]
    rfl

/-- `split_heads` along the outputs. -/
theorem shard_heads (hrule : ∀ leaf, rules (name leaf) = some (.splitHeads 0 b))
    (hfits : l.Fits (n * b) cols) (hb : 0 < b) (hrank : rank < worldSize) :
    ∃ l', l.shard rules worldSize rank name = .ok l' ∧
      Linear.Columns (splitStart n worldSize rank * b) (splitStart n worldSize (rank + 1) * b)
        l l' := by
  have happly : ∀ leaf (t : Tensor K) rest, t.shape = n * b :: rest →
      processState rules worldSize rank (name leaf) t
        = .ok (t.slice 0 (splitStart n worldSize rank * b : Nat)
          (splitStart n worldSize (rank + 1) * b : Nat)) := by
    intro leaf t rest ht
    rw [processState, hrule]
    exact splitHeads_eq [] ht hb hrank
  exact ⟨_, shard_eq (happly .weight l.weight [cols] hfits.weight)
    fun bias hbias => happly .bias bias [] (hfits.bias bias hbias), rfl, rfl, rfl⟩

/-- `"split 0"`. -/
theorem shard_outputs (hrule : ∀ leaf, rules (name leaf) = some (.split 0))
    (hfits : l.Fits n cols) :
    ∃ l', l.shard rules worldSize rank name = .ok l' ∧
      Linear.Columns (splitStart n worldSize rank) (splitStart n worldSize (rank + 1)) l l' := by
  have happly : ∀ leaf (t : Tensor K) rest, t.shape = n :: rest →
      processState rules worldSize rank (name leaf) t
        = .ok (t.slice 0 (splitStart n worldSize rank) (splitStart n worldSize (rank + 1))) := by
    intro leaf t rest ht
    rw [processState, hrule]
    show Except.ok (t.tensorSplit 0 worldSize rank) = _
    rw [Tensor.tensorSplit, ht]
    rfl
  exact ⟨_, shard_eq (happly .weight l.weight [cols] hfits.weight)
    fun bias hbias => happly .bias bias [] (hfits.bias bias hbias), rfl, rfl, rfl⟩

/-- `split_heads` along the inputs, and `"scale"`. -/
theorem shard_headInputs (hrule : rules (name .weight) = some (.splitHeads 1 b))
    (hscale : rules (name .bias) = some .scale) (hfits : l.Fits rows (n * b)) (hb : 0 < b)
    (hrank : rank < worldSize) :
    ∃ l', l.shard rules worldSize rank name = .ok l' ∧
      Linear.Rows (splitStart n worldSize rank * b) (splitStart n worldSize (rank + 1) * b)
        worldSize l l' := by
  have hweight : processState rules worldSize rank (name .weight) l.weight
      = .ok (l.weight.slice 1 (splitStart n worldSize rank * b : Nat)
        (splitStart n worldSize (rank + 1) * b : Nat)) := by
    rw [processState, hrule]
    exact splitHeads_eq [rows] hfits.weight hb hrank
  refine ⟨_, shard_eq hweight fun bias _ => ?_, rfl, rfl, rfl⟩
  rw [processState, hscale]
  rfl

/-- `"split 1"` and `"scale"`. -/
theorem shard_inputs (hrule : rules (name .weight) = some (.split 1))
    (hscale : rules (name .bias) = some .scale) (hfits : l.Fits rows n) :
    ∃ l', l.shard rules worldSize rank name = .ok l' ∧
      Linear.Rows (splitStart n worldSize rank) (splitStart n worldSize (rank + 1)) worldSize
        l l' := by
  have hweight : processState rules worldSize rank (name .weight) l.weight
      = .ok (l.weight.slice 1 (splitStart n worldSize rank) (splitStart n worldSize (rank + 1))) := by
    rw [processState, hrule]
    show Except.ok (l.weight.tensorSplit 1 worldSize rank) = _
    rw [Tensor.tensorSplit, hfits.weight]
    rfl
  refine ⟨_, shard_eq hweight fun bias _ => ?_, rfl, rfl, rfl⟩
  rw [processState, hscale]
  rfl

end Shards

/-! ## Attention -/

/-- `num_heads = groups * num_kv_heads`, and no size is zero. -/
structure ModelConfig.Geometry (config : ModelConfig) : Prop where
  heads : config.numAttentionHeads = config.groups * config.numKvHeads
  groups_pos : 0 < config.groups
  headWidth_pos : 0 < config.headWidth
  hiddenSize_pos : 0 < config.hiddenSize

/-- An attention module of these sizes. -/
structure GQAttention.Fits (config : ModelConfig) (attn : GQAttention K) : Prop where
  numHeads : ∀ numHeads, attn.numHeads = some numHeads → numHeads = config.numAttentionHeads
  headDim : attn.headDim = config.headWidth
  groups : attn.numKeyValueGroups = config.groups
  qProj : attn.qProj.Fits (config.numAttentionHeads * config.headWidth) config.hiddenSize
  kProj : attn.kProj.Fits (config.numKvHeads * config.headWidth) config.hiddenSize
  vProj : attn.vProj.Fits (config.numKvHeads * config.headWidth) config.hiddenSize
  oProj : attn.oProj.Fits config.hiddenSize (config.numAttentionHeads * config.headWidth)

/-- The kv head at which a rank starts. -/
def ModelConfig.kvStart (config : ModelConfig) (worldSize rank : Nat) : Nat :=
  splitStart config.numKvHeads worldSize rank

/-- The attention of a rank: the query heads of its kv heads, and these. -/
structure AttentionShard (config : ModelConfig) (worldSize rank : Nat)
    (attn attn' : GQAttention K) : Prop where
  numHeads : attn'.numHeads = attn.numHeads
  headDim : attn'.headDim = attn.headDim
  groups : attn'.numKeyValueGroups = attn.numKeyValueGroups
  qProj : Linear.Columns (config.kvStart worldSize rank * (config.groups * config.headWidth))
    (config.kvStart worldSize (rank + 1) * (config.groups * config.headWidth)) attn.qProj attn'.qProj
  kProj : Linear.Columns (config.kvStart worldSize rank * config.headWidth)
    (config.kvStart worldSize (rank + 1) * config.headWidth) attn.kProj attn'.kProj
  vProj : Linear.Columns (config.kvStart worldSize rank * config.headWidth)
    (config.kvStart worldSize (rank + 1) * config.headWidth) attn.vProj attn'.vProj
  oProj : Linear.Rows (config.kvStart worldSize rank * (config.groups * config.headWidth))
    (config.kvStart worldSize (rank + 1) * (config.groups * config.headWidth)) worldSize
    attn.oProj attn'.oProj

section Attention

variable {config : ModelConfig} {worldSize rank : Nat} {attn attn' : GQAttention K}

theorem ModelConfig.Geometry.width (hconfig : config.Geometry) :
    config.numAttentionHeads * config.headWidth
      = config.numKvHeads * (config.groups * config.headWidth) := by
  rw [hconfig.heads]
  ring

/-- The key-value heads of a rank lie behind those of the rank before, and inside the layer. -/
theorem kvStart_bounds (config : ModelConfig) (hrank : rank < worldSize) :
    config.kvStart worldSize rank ≤ config.kvStart worldSize (rank + 1) ∧
      config.kvStart worldSize (rank + 1) ≤ config.numKvHeads :=
  splitStart_bounds hrank

/-- **The rules** cut the attention between kv heads. -/
theorem attention_shard {rules : StateRules}
    (hq : ∀ leaf, rules (.qProj leaf) = some (.splitHeads 0 (config.groups * config.headWidth)))
    (hk : ∀ leaf, rules (.kProj leaf) = some (.splitHeads 0 config.headWidth))
    (hv : ∀ leaf, rules (.vProj leaf) = some (.splitHeads 0 config.headWidth))
    (ho : rules (.oProj .weight) = some (.splitHeads 1 (config.groups * config.headWidth)))
    (hscale : rules (.oProj .bias) = some .scale) (hconfig : config.Geometry)
    (hfits : attn.Fits config) (hrank : rank < worldSize) :
    ∃ attn', attn.shard rules worldSize rank = .ok attn' ∧
      AttentionShard config worldSize rank attn attn' := by
  have hpos := Nat.mul_pos hconfig.groups_pos hconfig.headWidth_pos
  obtain ⟨q, hqShard, hqColumns⟩ := shard_heads hq (hconfig.width ▸ hfits.qProj) hpos hrank
  obtain ⟨k, hkShard, hkColumns⟩ := shard_heads hk hfits.kProj hconfig.headWidth_pos hrank
  obtain ⟨v, hvShard, hvColumns⟩ := shard_heads hv hfits.vProj hconfig.headWidth_pos hrank
  obtain ⟨o, hoShard, hoRows⟩ :=
    shard_headInputs ho hscale (hconfig.width ▸ hfits.oProj) hpos hrank
  refine ⟨{ attn with qProj := q, kProj := k, vProj := v, oProj := o }, ?_,
    ⟨rfl, rfl, rfl, hqColumns, hkColumns, hvColumns, hoRows⟩⟩
  rw [GQAttention.shard, hqShard, hkShard, hvShard, hoShard]
  rfl

/-- A head of a part of the heads. -/
theorem headSlice_slice {t : Tensor K} {axis a b width i : Nat} (haxis : axis < t.shape.length)
    (hb : b * width ≤ t.shape.getD axis 0) (hi : a + i < b) :
    headSlice axis width i (t.slice axis (a * width : Nat) (b * width : Nat))
      = headSlice axis width (a + i) t := by
  have hsucc : a * width + (i + 1) * width ≤ b * width := by
    rw [← Nat.add_mul]
    exact Nat.mul_le_mul_right width hi
  rw [headSlice, Tensor.slice_slice t haxis (Nat.mul_le_mul_right width (by omega)) hb
    (Nat.mul_le_mul_right width (Nat.le_succ i)) hsucc, headSlice, ← Nat.add_mul, ← Nat.add_mul]
  rfl

/-- The past of the kv heads of a rank. -/
def ModelConfig.pastOf (config : ModelConfig) (worldSize rank : Nat) (layerPast : List P) : List P :=
  (layerPast.drop (config.kvStart worldSize rank)).take
    (config.kvStart worldSize (rank + 1) - config.kvStart worldSize rank)

theorem getElem?_pastOf {layerPast : List P} {j : Nat}
    (hj : config.kvStart worldSize rank + j < config.kvStart worldSize (rank + 1)) :
    (config.pastOf worldSize rank layerPast)[j]? = layerPast[config.kvStart worldSize rank + j]? := by
  rw [ModelConfig.pastOf, List.getElem?_take_of_lt (by omega), List.getElem?_drop]

/-- An attention output entry is that of the head its column belongs to, on the head's own key-value
    head. -/
theorem get_headOutputs (attn : GQAttention K)
    (attend : Option P → Tensor K → Tensor K → Tensor K → Tensor K) (layerPast : List P)
    (x : Tensor K) {t c : Nat} (ht : t < x.shape.getD 0 0)
    (hc : c < attn.qProj.weight.shape.getD 0 0) :
    (attn.headOutputs attend layerPast x).get [t, c]
      = (attend layerPast[c / attn.headDim / attn.numKeyValueGroups]?
          (headSlice 1 attn.headDim (c / attn.headDim) (attn.qProj.forward x))
          (headSlice 1 attn.headDim (c / attn.headDim / attn.numKeyValueGroups)
            (attn.kProj.forward x))
          (headSlice 1 attn.headDim (c / attn.headDim / attn.numKeyValueGroups)
            (attn.vProj.forward x))).get [t, c % attn.headDim] :=
  Tensor.get_ofFn _ ⟨ht, hc, trivial⟩

/-- **The heads of a rank** give what they give in the block. -/
theorem get_headOutputs_shard (hconfig : config.Geometry) (hfits : attn.Fits config)
    (hrank : rank < worldSize) (hshard : AttentionShard config worldSize rank attn attn')
    (attend : Option P → Tensor K → Tensor K → Tensor K → Tensor K) (layerPast : List P)
    (x : Tensor K) {t c : Nat} (ht : t < x.shape.getD 0 0)
    (hc : c < config.kvStart worldSize (rank + 1) * (config.groups * config.headWidth) -
      config.kvStart worldSize rank * (config.groups * config.headWidth)) :
    (attn'.headOutputs attend (config.pastOf worldSize rank layerPast) x).get [t, c]
      = (attn.headOutputs attend layerPast x).get
        [t, config.kvStart worldSize rank * (config.groups * config.headWidth) + c] := by
  obtain ⟨hlo, hhi⟩ := kvStart_bounds config hrank
  have hwidth := hconfig.headWidth_pos
  have hqFits := hfits.qProj
  rw [hconfig.width] at hqFits
  have hqCut := forward_of_columns hqFits (Nat.mul_le_mul_right _ hlo) (Nat.mul_le_mul_right _ hhi)
    hshard.qProj x
  have hkCut := forward_of_columns hfits.kProj (Nat.mul_le_mul_right _ hlo)
    (Nat.mul_le_mul_right _ hhi) hshard.kProj x
  have hvCut := forward_of_columns hfits.vProj (Nat.mul_le_mul_right _ hlo)
    (Nat.mul_le_mul_right _ hhi) hshard.vProj x
  have hrows : attn'.qProj.weight.shape.getD 0 0 =
      config.kvStart worldSize (rank + 1) * (config.groups * config.headWidth) -
        config.kvStart worldSize rank * (config.groups * config.headWidth) := by
    rw [hshard.qProj.weight, Tensor.shape_slice_of_le (Nat.mul_le_mul_right _ hlo)
      (by rw [hqFits.weight]; exact Nat.mul_le_mul_right _ hhi), hqFits.weight]
    rfl
  have hpast : ∀ j, config.kvStart worldSize rank + j < config.kvStart worldSize (rank + 1) →
      (config.pastOf worldSize rank layerPast)[j]?
        = layerPast[config.kvStart worldSize rank + j]? := fun j hj => getElem?_pastOf hj
  have hqShape : (attn.qProj.forward x).shape = [x.shape.getD 0 0,
      config.numKvHeads * (config.groups * config.headWidth)] := by
    rw [shape_forward, hqFits.weight]
    rfl
  have hkShape : (attn.kProj.forward x).shape
      = [x.shape.getD 0 0, config.numKvHeads * config.headWidth] := by
    rw [shape_forward, hfits.kProj.weight]
    rfl
  have hvShape : (attn.vProj.forward x).shape
      = [x.shape.getD 0 0, config.numKvHeads * config.headWidth] := by
    rw [shape_forward, hfits.vProj.weight]
    rfl
  generalize config.pastOf worldSize rank layerPast = past at *
  generalize config.kvStart worldSize rank = lo at *
  generalize config.kvStart worldSize (rank + 1) = hi at *
  -- column `c` of the rank is of its query head `c / width`, which is `lo * groups` on in the block
  have hc' : c < (hi - lo) * (config.groups * config.headWidth) := by rwa [Nat.sub_mul]
  have hhead : c / config.headWidth < (hi - lo) * config.groups := by
    refine Nat.div_lt_of_lt_mul ?_
    rwa [Nat.mul_comm config.headWidth, Nat.mul_assoc]
  have hkv : c / config.headWidth / config.groups < hi - lo := by
    refine Nat.div_lt_of_lt_mul ?_
    rwa [Nat.mul_comm config.groups]
  have hdiv : (lo * (config.groups * config.headWidth) + c) / config.headWidth
      = lo * config.groups + c / config.headWidth := by
    rw [← Nat.mul_assoc, Nat.add_comm, Nat.add_mul_div_right _ _ hwidth, Nat.add_comm]
  have hmod : (lo * (config.groups * config.headWidth) + c) % config.headWidth
      = c % config.headWidth := by
    rw [← Nat.mul_assoc, Nat.add_comm, Nat.add_mul_mod_self_right]
  have hdiv' : (lo * config.groups + c / config.headWidth) / config.groups
      = lo + c / config.headWidth / config.groups := by
    rw [Nat.add_comm, Nat.add_mul_div_right _ _ hconfig.groups_pos, Nat.add_comm]
  have hinside : lo * (config.groups * config.headWidth) + c
      < attn.qProj.weight.shape.getD 0 0 := by
    have hle := Nat.mul_le_mul_right (config.groups * config.headWidth) hhi
    rw [hqFits.weight]
    show _ < config.numKvHeads * (config.groups * config.headWidth)
    omega
  have hqHead : headSlice 1 config.headWidth (c / config.headWidth)
      ((attn.qProj.forward x).slice 1 (lo * (config.groups * config.headWidth) : Nat)
        (hi * (config.groups * config.headWidth) : Nat))
      = headSlice 1 config.headWidth (lo * config.groups + c / config.headWidth)
        (attn.qProj.forward x) := by
    rw [← Nat.mul_assoc, ← Nat.mul_assoc]
    refine headSlice_slice (Nat.lt_succ_self 1) ?_ ?_
    · rw [hqShape, Nat.mul_assoc]
      exact Nat.mul_le_mul_right _ hhi
    · have hle := Nat.mul_le_mul_right config.groups hlo
      rw [Nat.sub_mul] at hhead
      omega
  have hkHead : ∀ {t : Tensor K}, t.shape = [x.shape.getD 0 0, config.numKvHeads * config.headWidth] →
      headSlice 1 config.headWidth (c / config.headWidth / config.groups)
        (t.slice 1 (lo * config.headWidth : Nat) (hi * config.headWidth : Nat))
      = headSlice 1 config.headWidth (lo + c / config.headWidth / config.groups) t :=
    fun hshape => headSlice_slice (by rw [hshape]; exact Nat.lt_succ_self 1)
      (by rw [hshape]; exact Nat.mul_le_mul_right _ hhi) (by omega)
  rw [get_headOutputs attn' attend past x ht (hrows ▸ hc),
    get_headOutputs attn attend layerPast x ht hinside, hshard.headDim, hshard.groups,
    hfits.headDim, hfits.groups, hdiv, hmod, hdiv', hpast _ (by omega), hqCut, hkCut, hvCut, hqHead,
    hkHead hkShape, hkHead hvShape]

/-- **The attention of the block** is the sum of that of the ranks. -/
theorem attention_sum [CharZero K] (hconfig : config.Geometry) (hfits : attn.Fits config)
    (hworld : 0 < worldSize) {shards : Nat → GQAttention K}
    (hshards : ∀ rank < worldSize, AttentionShard config worldSize rank attn (shards rank))
    (attend : Option P → Tensor K → Tensor K → Tensor K → Tensor K) (layerPast : List P)
    (x : Tensor K) :
    reduceAdd ((List.range worldSize).map fun rank =>
        (shards rank).forward attend (config.pastOf worldSize rank layerPast) x)
      = attn.forward attend layerPast x := by
  have hoFits := hfits.oProj
  rw [hconfig.width, ← splitStart_self (n := config.numKvHeads) hworld] at hoFits
  have hzero : splitStart config.numKvHeads worldSize 0 * (config.groups * config.headWidth) = 0 := by
    rw [splitStart_zero, Nat.zero_mul]
  have hmono : Monotone fun rank =>
      splitStart config.numKvHeads worldSize rank * (config.groups * config.headWidth) :=
    fun _ _ h => Nat.mul_le_mul_right _ (splitStart_mono _ _ h)
  exact sum_forward_of_rows hzero hmono hworld hoFits (fun rank hrank => (hshards rank hrank).oProj)
    (fun _ _ => rfl) fun rank hrank t ht i hi =>
      get_headOutputs_shard hconfig hfits hrank (hshards rank hrank) attend layerPast x ht hi

end Attention

/-! ## The MLP -/

/-- An MLP of these sizes. -/
def Mlp.Fits (hidden : Nat) : Mlp K → Prop
  | .llama gateProj upProj downProj => ∃ intermediate,
    gateProj.Fits intermediate hidden ∧ upProj.Fits intermediate hidden ∧
      downProj.Fits hidden intermediate
  | .mixtral _ gateUpProj downProj => ∃ numExperts intermediate, 0 < numExperts ∧
    gateUpProj.shape = [numExperts, 2 * intermediate, hidden] ∧
      downProj.shape = [numExperts, hidden, intermediate]

section Mlp

variable {worldSize rank : Nat}

theorem get_gated {act : K → K} {gate up : Tensor K} {ix : List Nat} (hix : InBounds gate.shape ix) :
    (gated act gate up).get ix = act (gate.get ix) * up.get ix :=
  Tensor.get_ofFn _ hix

/-- **The MLP of a Llama block.** -/
theorem llama_sum [CharZero K] {gateProj upProj downProj : Linear K} {n hidden : Nat}
    (hgate : gateProj.Fits n hidden) (hup : upProj.Fits n hidden) (hdown : downProj.Fits hidden n)
    (hworld : 0 < worldSize) {gates ups downs : Nat → Linear K}
    (hgates : ∀ rank < worldSize, Linear.Columns (splitStart n worldSize rank)
      (splitStart n worldSize (rank + 1)) gateProj (gates rank))
    (hups : ∀ rank < worldSize, Linear.Columns (splitStart n worldSize rank)
      (splitStart n worldSize (rank + 1)) upProj (ups rank))
    (hdowns : ∀ rank < worldSize, Linear.Rows (splitStart n worldSize rank)
      (splitStart n worldSize (rank + 1)) worldSize downProj (downs rank))
    (act : K → K) (x : Tensor K) :
    reduceAdd ((List.range worldSize).map fun rank =>
        (downs rank).forward (gated act ((gates rank).forward x) ((ups rank).forward x)))
      = downProj.forward (gated act (gateProj.forward x) (upProj.forward x)) := by
  rw [← splitStart_self (n := n) hworld] at hdown
  refine sum_forward_of_rows (splitStart_zero n worldSize) (splitStart_mono n worldSize) hworld hdown
    hdowns (fun _ _ => rfl) fun rank hrank t ht i hi => ?_
  obtain ⟨hlo, hhi⟩ := splitStart_bounds (n := n) hrank
  have hcut := forward_of_columns hgate hlo hhi (hgates rank hrank) x
  have hcut' := forward_of_columns hup hlo hhi (hups rank hrank) x
  have hgateShape : (gateProj.forward x).shape = [x.shape.getD 0 0, n] := by
    rw [shape_forward, hgate.weight]
    rfl
  have hupShape : (upProj.forward x).shape = [x.shape.getD 0 0, n] := by
    rw [shape_forward, hup.weight]
    rfl
  have hpart : InBounds ((gates rank).forward x).shape [t, i] := by
    rw [hcut, Tensor.shape_slice_of_le hlo (by rw [hgateShape]; exact hhi), hgateShape]
    exact ⟨ht, hi, trivial⟩
  have hwhole : InBounds (gateProj.forward x).shape [t, splitStart n worldSize rank + i] := by
    rw [hgateShape]
    exact ⟨ht, by omega, trivial⟩
  rw [get_gated hpart, get_gated hwhole, hcut, hcut', get_slice_columns hgateShape hlo hhi ht hi,
    get_slice_columns hupShape hlo hhi ht hi, Nat.add_comm i]

theorem shape_select {t : Tensor K} {a b c : Nat} (ht : t.shape = [a, b, c]) (e : Nat) :
    (t.select e).shape = [b, c] := by
  rw [Tensor.select, ht]
  rfl

theorem getD_shape_select (t : Tensor K) (e i : Nat) :
    (t.select e).shape.getD i 0 = t.shape.getD (i + 1) 0 := by
  show t.shape.tail.getD i 0 = _
  cases t.shape with
  | nil => rfl
  | cons n shape => rfl

theorem get_select {t : Tensor K} {a b c e i j : Nat} (ht : t.shape = [a, b, c]) (hi : i < b)
    (hj : j < c) : (t.select e).get [i, j] = t.get [e, i, j] :=
  Tensor.get_ofFn _ (by rw [ht]; exact ⟨hi, hj, trivial⟩)

omit [Field K] in
theorem ofWeight_fits {weight : Tensor K} {rows cols : Nat} (hweight : weight.shape = [rows, cols]) :
    (ofWeight weight).Fits rows cols where
  weight := hweight
  bias := fun _ hnone => nomatch hnone
  outFeatures := by
    rw [ofWeight, hweight]
    rfl

/-- The intermediate features of an expert. -/
theorem expertHidden_spec (act : K → K) (x : Tensor K) {gateUpProj : Tensor K} {n hidden : Nat}
    (hshape : gateUpProj.shape = [2 * n, hidden]) :
    (expertHidden act gateUpProj x).shape = [x.shape.getD 0 0, n] ∧
      ∀ t c, t < x.shape.getD 0 0 → c < n →
        (expertHidden act gateUpProj x).get [t, c]
          = act ((ofWeight gateUpProj).value x t (0 * n + c)) *
            (ofWeight gateUpProj).value x t (1 * n + c) := by
  have hsize : (gateUpProj.shape.getD 0 0 + 1) / 2 = n := by
    rw [hshape]
    show (2 * n + 1) / 2 = n
    omega
  have hforward : ((ofWeight gateUpProj).forward x).shape = [x.shape.getD 0 0, 2 * n] := by
    rw [shape_forward]
    show [_, gateUpProj.shape.getD 0 0] = _
    rw [hshape]
    rfl
  have hgate : (((ofWeight gateUpProj).forward x).slice 1 (0 : Nat) (n : Nat)).shape
      = [x.shape.getD 0 0, n] := by
    rw [Tensor.shape_slice_of_le (Nat.zero_le n) (by rw [hforward]; show n ≤ 2 * n; omega), hforward]
    rfl
  rw [expertHidden]
  simp only [hsize]
  refine ⟨hgate, fun t c ht hc => ?_⟩
  have hvalue : ∀ o < 2 * n, ((ofWeight gateUpProj).forward x).get [t, o]
      = (ofWeight gateUpProj).value x t o := fun o ho =>
    get_forward ht (by
      show o < gateUpProj.shape.getD 0 0
      rw [hshape]
      exact ho)
  rw [get_gated (by rw [hgate]; exact ⟨ht, hc, trivial⟩),
    get_slice_columns hforward (Nat.zero_le n) (by omega) ht (by omega),
    get_slice_columns hforward (by omega) (le_refl _) ht (by omega), hvalue _ (by omega),
    hvalue _ (by omega), Nat.add_zero, Nat.zero_mul, Nat.zero_add, Nat.one_mul, Nat.add_comm c n]

/-- The inputs of an expert's `down_proj`, cut. -/
theorem select_slice {t : Tensor K} {a b c e lo hi : Nat} (ht : t.shape = [a, b, c]) (he : e < a)
    (hlo : lo ≤ hi) (hhi : hi ≤ c) :
    (t.slice 2 lo hi).select e = (t.select e).slice 1 lo hi := by
  have hc : t.shape.getD 2 0 = c := by rw [ht]; rfl
  have hcut : (t.slice 2 lo hi).shape = [a, b, hi - lo] := by
    rw [Tensor.shape_slice_of_le hlo (hc ▸ hhi), ht]
    rfl
  have hselect := shape_select ht e
  refine Tensor.ext_get ?_ fun ix hix => ?_
  · rw [shape_select hcut, Tensor.shape_slice_of_le hlo (by rw [hselect]; exact hhi), hselect]
    rfl
  rw [shape_select hcut] at hix
  obtain ⟨i, rest, rfl, hi', hrest⟩ := hix.exists_cons
  obtain ⟨j, rest, rfl, hj, hnil⟩ := hrest.exists_cons
  obtain rfl := hnil.eq_nil
  rw [get_select hcut hi' hj, get_slice_columns hselect hlo hhi hi' hj,
    get_select ht hi' (by omega)]
  exact Tensor.get_slice [e, i, j] hlo (hc ▸ hhi) (by rw [ht]; exact ⟨he, hi', hj, trivial⟩)

/-- Two rows of weights that are the same give the same output. -/
theorem value_ofWeight_congr {w w' x : Tensor K} {hidden t o o' : Nat}
    (hw : w.shape.getD 1 0 = hidden) (hw' : w'.shape.getD 1 0 = hidden)
    (hrow : ∀ h < hidden, w.get [o, h] = w'.get [o', h]) :
    (ofWeight w).value x t o = (ofWeight w').value x t o' := by
  show ∑ h ∈ Finset.range (w.shape.getD 1 0), _ + 0 = ∑ h ∈ Finset.range (w'.shape.getD 1 0), _ + 0
  rw [hw, hw']
  refine congrArg (· + 0) (Finset.sum_congr rfl fun h hh => ?_)
  exact congrArg _ (hrow h (Finset.mem_range.mp hh))

/-- What `split_gate_up_experts` gives a rank. -/
structure GateUpPart (numExperts n hidden worldSize rank : Nat) (whole part : Tensor K) : Prop where
  shape : part.shape = [numExperts, 2 * splitSize n worldSize rank, hidden]
  get : ∀ e half i h, e < numExperts → half < 2 → i < splitSize n worldSize rank → h < hidden →
    part.get [e, half * splitSize n worldSize rank + i, h]
      = whole.get [e, half * n + (splitStart n worldSize rank + i), h]

/-- **One expert** is the sum of its parts. -/
theorem expert_sum [CharZero K] {gateUpProj downProj : Tensor K} {numExperts n hidden : Nat}
    (hgateUp : gateUpProj.shape = [numExperts, 2 * n, hidden])
    (hdown : downProj.shape = [numExperts, hidden, n]) (hworld : 0 < worldSize)
    {gateUps : Nat → Tensor K}
    (hgateUps : ∀ rank < worldSize,
      GateUpPart numExperts n hidden worldSize rank gateUpProj (gateUps rank))
    (act : K → K) (x : Tensor K) {e : Nat} (he : e < numExperts) :
    reduceAdd ((List.range worldSize).map fun rank => expertForward act ((gateUps rank).select e)
        ((downProj.tensorSplit 2 worldSize rank).select e) x)
      = expertForward act (gateUpProj.select e) (downProj.select e) x := by
  have hselect := shape_select hdown e
  have hfits : (ofWeight (downProj.select e)).Fits hidden (splitStart n worldSize worldSize) := by
    rw [splitStart_self hworld]
    exact ofWeight_fits hselect
  obtain ⟨hwhole, hwholeGet⟩ := expertHidden_spec act x (shape_select hgateUp e)
  have hpart := fun rank hrank => expertHidden_spec act x
    (shape_select (hgateUps rank hrank).shape e)
  have hn : downProj.shape.getD 2 0 = n := by rw [hdown]; rfl
  refine sum_forward_of_rows (splitStart_zero n worldSize) (splitStart_mono n worldSize) hworld
    hfits (fun rank hrank => ?_) (fun rank hrank => ?_) fun rank hrank t ht i hi => ?_
  · obtain ⟨hlo, hhi⟩ := splitStart_bounds (n := n) hrank
    rw [Tensor.tensorSplit, hn, select_slice hdown he hlo hhi]
    refine ⟨rfl, rfl, ?_⟩
    show ((downProj.select e).slice 1 _ _).shape.getD 0 0 = (downProj.select e).shape.getD 0 0
    rw [Tensor.shape_slice, hselect]
    rfl
  · rw [(hpart rank hrank).1, hwhole]
    rfl
  · rw [hwhole] at ht
    rw [splitStart_sub] at hi
    have hinside := splitStart_add_le (n := n) hrank
    -- the row of an intermediate feature, in the first half or in the second
    have hrow : ∀ half < 2,
        (ofWeight ((gateUps rank).select e)).value x t (half * splitSize n worldSize rank + i)
          = (ofWeight (gateUpProj.select e)).value x t
            (half * n + (splitStart n worldSize rank + i)) := by
      intro half hhalf
      have hlt : ∀ {size j : Nat}, j < size → half * size + j < 2 * size := by
        intro size j hj
        have hle : half * size ≤ 1 * size := Nat.mul_le_mul_right size (by omega)
        omega
      have hcols : ((gateUps rank).select e).shape.getD 1 0 = hidden := by
        rw [shape_select (hgateUps rank hrank).shape]
        rfl
      refine value_ofWeight_congr hcols (by rw [shape_select hgateUp]; rfl) fun h hh => ?_
      rw [get_select (hgateUps rank hrank).shape (hlt hi) hh,
        get_select hgateUp (hlt (by omega)) hh]
      exact (hgateUps rank hrank).get e half i h he hhalf hi hh
    rw [(hpart rank hrank).2 t i ht hi, hwholeGet t _ ht (by omega), hrow 0 (by decide),
      hrow 1 (by decide)]

theorem shape_expertForward (act : K → K) (gateUpProj downProj x : Tensor K) :
    (expertForward act gateUpProj downProj x).shape
      = [x.shape.getD 0 0, downProj.shape.getD 0 0] := rfl

/-- The mixture's output entry: the experts' outputs, each weighted by the router. -/
theorem get_mixtral {act : K → K} {route : Tensor K → Tensor K → Tensor K}
    {gate gateUpProj downProj x : Tensor K} {numExperts hidden t j : Nat}
    (hexperts : gateUpProj.shape.getD 0 0 = numExperts) (hhidden : downProj.shape.getD 1 0 = hidden)
    (ht : t < x.shape.getD 0 0) (hj : j < hidden) :
    ((Mlp.mixtral gate gateUpProj downProj).forward act route x).get [t, j]
      = ∑ e ∈ Finset.range numExperts,
        (expertForward act (gateUpProj.select e) (downProj.select e) x).get [t, j] *
          (route gate x).get [t, e] := by
  rw [← hexperts]
  exact Tensor.get_ofFn _ ⟨ht, hhidden.symm ▸ hj, trivial⟩

/-- **The experts of a Mixtral block**, with one router in every rank. -/
theorem mixtral_sum [CharZero K] {gate gateUpProj downProj : Tensor K} {numExperts n hidden : Nat}
    (hgateUp : gateUpProj.shape = [numExperts, 2 * n, hidden])
    (hdown : downProj.shape = [numExperts, hidden, n]) (hworld : 0 < worldSize)
    {gateUps : Nat → Tensor K}
    (hgateUps : ∀ rank < worldSize,
      GateUpPart numExperts n hidden worldSize rank gateUpProj (gateUps rank))
    (act : K → K) (route : Tensor K → Tensor K → Tensor K) (x : Tensor K) :
    reduceAdd ((List.range worldSize).map fun rank =>
        (Mlp.mixtral gate (gateUps rank) (downProj.tensorSplit 2 worldSize rank)).forward act route
          x)
      = (Mlp.mixtral gate gateUpProj downProj).forward act route x := by
  have hexperts : gateUpProj.shape.getD 0 0 = numExperts := by rw [hgateUp]; rfl
  have hhidden : downProj.shape.getD 1 0 = hidden := by rw [hdown]; rfl
  have hexpertsPart : ∀ rank < worldSize, (gateUps rank).shape.getD 0 0 = numExperts := by
    intro rank hrank
    rw [(hgateUps rank hrank).shape]
    rfl
  have hhiddenPart : ∀ rank, (downProj.tensorSplit 2 worldSize rank).shape.getD 1 0 = hidden := by
    intro rank
    rw [Tensor.tensorSplit, Tensor.shape_slice, hdown]
    rfl
  refine reduceAdd_eq (n := x.shape.getD 0 0) (m := hidden) hworld
    (congrArg (fun d => [x.shape.getD 0 0, d]) hhidden)
    (fun rank _ => congrArg (fun d => [x.shape.getD 0 0, d]) (hhiddenPart rank)) ?_
  intro t ht j hj
  have hexpert : ∀ e < numExperts, ∑ rank ∈ Finset.range worldSize,
      (expertForward act ((gateUps rank).select e)
        ((downProj.tensorSplit 2 worldSize rank).select e) x).get [t, j]
      = (expertForward act (gateUpProj.select e) (downProj.select e) x).get [t, j] := by
    intro e he
    rw [← expert_sum hgateUp hdown hworld hgateUps act x he]
    refine ((reduceAdd_range hworld fun rank _ => ?_).2 t ht j hj).symm
    rw [shape_expertForward, getD_shape_select, hhiddenPart rank]
  calc ∑ rank ∈ Finset.range worldSize, ((Mlp.mixtral gate (gateUps rank)
        (downProj.tensorSplit 2 worldSize rank)).forward act route x).get [t, j]
      = ∑ rank ∈ Finset.range worldSize, ∑ e ∈ Finset.range numExperts,
          (expertForward act ((gateUps rank).select e)
            ((downProj.tensorSplit 2 worldSize rank).select e) x).get [t, j] *
            (route gate x).get [t, e] :=
        Finset.sum_congr rfl fun rank hrank =>
          get_mixtral (hexpertsPart rank (Finset.mem_range.mp hrank)) (hhiddenPart rank) ht hj
    _ = ∑ e ∈ Finset.range numExperts,
          (expertForward act (gateUpProj.select e) (downProj.select e) x).get [t, j] *
            (route gate x).get [t, e] := by
        rw [Finset.sum_comm]
        refine Finset.sum_congr rfl fun e he => ?_
        rw [← Finset.sum_mul, hexpert e (Finset.mem_range.mp he)]
    _ = ((Mlp.mixtral gate gateUpProj downProj).forward act route x).get [t, j] :=
        (get_mixtral hexperts hhidden ht hj).symm

end Mlp

/-! ## The shards of a block -/

/-- The rules for a block's architecture. -/
def rulesOf (config : ModelConfig) : Mlp K → StateRules
  | .llama _ _ _ => llamaStateRules config
  | .mixtral _ _ _ => mixtralStateRules config

structure TransformerBlock.Fits (config : ModelConfig) (block : TransformerBlock K) : Prop where
  selfAttn : block.selfAttn.Fits config
  mlp : block.mlp.Fits config.hiddenSize

section Block

variable {config : ModelConfig} {worldSize rank : Nat} {block : TransformerBlock K}

omit [Field K] in
/-- With at most as many ranks as key-value heads the check passes, and the rules are those of the
    config. -/
theorem stateRules_eq (hworld : worldSize ≤ config.numKvHeads) :
    stateRules config worldSize block = .ok (rulesOf config block.mlp) := by
  rw [stateRules, checkKvHeads, if_pos hworld]
  cases block.mlp <;> rfl

/-- Both configs have the rules of `_gqa_attention_state_rules`. -/
theorem attention_shards (hconfig : config.Geometry) (hfits : block.selfAttn.Fits config)
    (hrank : rank < worldSize) :
    ∃ attn', block.selfAttn.shard (rulesOf config block.mlp) worldSize rank = .ok attn' ∧
      AttentionShard config worldSize rank block.selfAttn attn' := by
  cases block.mlp with
  | llama _ _ _ =>
    exact attention_shard (fun _ => rfl) (fun _ => rfl) (fun _ => rfl) rfl rfl hconfig hfits hrank
  | mixtral _ _ _ =>
    exact attention_shard (fun _ => rfl) (fun _ => rfl) (fun _ => rfl) rfl rfl hconfig hfits hrank

/-- **The MLPs of the ranks**, and their sum. -/
theorem mlp_shards [CharZero K] (hconfig : config.Geometry)
    (hfits : block.mlp.Fits config.hiddenSize) :
    ∃ mlps : Nat → Mlp K,
      (∀ rank < worldSize,
        block.mlp.shard (rulesOf config block.mlp) worldSize rank = .ok (mlps rank)) ∧
      (0 < worldSize → ∀ act route x,
        reduceAdd ((List.range worldSize).map fun rank => (mlps rank).forward act route x)
          = block.mlp.forward act route x) := by
  cases hmlp : block.mlp with
  | llama gateProj upProj downProj =>
    rw [hmlp] at hfits
    obtain ⟨n, hgate, hup, hdown⟩ := hfits
    let rules := llamaStateRules config
    have houtputs : ∀ {name : Leaf → ParamName} {l : Linear K}, (∀ leaf, rules (name leaf)
        = some (.split 0)) → l.Fits n config.hiddenSize → ∀ rank, ∃ l',
        l.shard rules worldSize rank name = .ok l' ∧ Linear.Columns (splitStart n worldSize rank)
          (splitStart n worldSize (rank + 1)) l l' := fun hrule hfits _ => shard_outputs hrule hfits
    have hinputs : ∀ rank, ∃ l', downProj.shard rules worldSize rank .downProj = .ok l' ∧
        Linear.Rows (splitStart n worldSize rank) (splitStart n worldSize (rank + 1)) worldSize
          downProj l' := fun _ => shard_inputs rfl rfl hdown
    choose gates hgates using houtputs (fun leaf => show rules (.gateProj leaf) = _ from rfl) hgate
    choose ups hups using houtputs (fun leaf => show rules (.upProj leaf) = _ from rfl) hup
    choose downs hdowns using hinputs
    refine ⟨fun rank => .llama (gates rank) (ups rank) (downs rank), fun rank _ => ?_,
      fun hworld act _ x => llama_sum hgate hup hdown hworld (fun rank _ => (hgates rank).2)
        (fun rank _ => (hups rank).2) (fun rank _ => (hdowns rank).2) act x⟩
    show Mlp.shard rules worldSize rank (.llama gateProj upProj downProj) = _
    rw [Mlp.shard, (hgates rank).1, (hups rank).1, (hdowns rank).1]
    rfl
  | mixtral gate gateUpProj downProj =>
    rw [hmlp] at hfits
    obtain ⟨numExperts, n, hexperts, hgateUp, hdown⟩ := hfits
    have hgateUps : ∀ rank, ∃ part, rank < worldSize →
        splitGateUpExperts worldSize rank gateUpProj = .ok part ∧
          GateUpPart numExperts n config.hiddenSize worldSize rank gateUpProj part := by
      intro rank
      rcases Nat.lt_or_ge rank worldSize with hrank | hrank
      · obtain ⟨part, hpart, hshape, hget⟩ :=
          splitGateUpExperts_spec hgateUp hexperts hconfig.hiddenSize_pos hrank
        exact ⟨part, fun _ => ⟨hpart, hshape, hget⟩⟩
      · exact ⟨gateUpProj, fun h => absurd h (Nat.not_lt.mpr hrank)⟩
    choose gateUps hgateUps using hgateUps
    refine ⟨fun rank => .mixtral gate (gateUps rank) (downProj.tensorSplit 2 worldSize rank),
      fun rank hrank => ?_, fun hworld act route x => mixtral_sum hgateUp hdown hworld
        (fun rank hrank => (hgateUps rank hrank).2) act route x⟩
    -- the router has no rule
    show (splitGateUpExperts worldSize rank gateUpProj >>= fun gateUpProj =>
      Except.ok (Mlp.mixtral gate gateUpProj (downProj.tensorSplit 2 worldSize rank))) = _
    rw [(hgateUps rank hrank).1]
    rfl

/-- `part` has these heads of `whole` along an axis, in this order. -/
structure HoldsHeads (axis headDim : Nat) (heads : List Nat) (part whole : Tensor K) : Prop where
  size : part.shape.getD axis 0 = heads.length * headDim
  head : ∀ i h, heads[i]? = some h →
    headSlice axis headDim i part = headSlice axis headDim h whole

/-- The same for a layer with the heads as outputs: its weight and its bias. -/
structure Linear.HoldsHeads (headDim : Nat) (heads : List Nat) (part whole : Linear K) : Prop where
  weight : TensorParallel.HoldsHeads 0 headDim heads part.weight whole.weight
  bias : part.bias.isSome = whole.bias.isSome
  biasHeads : ∀ bias bias', part.bias = some bias → whole.bias = some bias' →
    TensorParallel.HoldsHeads 0 headDim heads bias bias'

theorem holdsHeads_slice {t : Tensor K} {axis headDim lo hi : Nat} (haxis : axis < t.shape.length)
    (hlo : lo ≤ hi) (hhi : hi * headDim ≤ t.shape.getD axis 0) :
    HoldsHeads axis headDim (List.range' lo (hi - lo))
      (t.slice axis (lo * headDim : Nat) (hi * headDim : Nat)) t where
  size := by
    rw [Tensor.shape_slice_of_le (Nat.mul_le_mul_right headDim hlo) hhi, Tensor.getD_set_self haxis,
      List.length_range', Nat.sub_mul]
  head := by
    intro i h hget
    obtain ⟨hi', rfl⟩ := List.getElem?_eq_some_iff.mp hget
    rw [List.length_range'] at hi'
    rw [List.getElem_range', Nat.one_mul]
    exact headSlice_slice haxis hhi (by omega)

theorem Linear.Columns.holdsHeads {l l' : Linear K} {n cols headDim lo hi : Nat}
    (hfits : l.Fits n cols) (hlo : lo ≤ hi) (hhi : hi * headDim ≤ n)
    (hl : Linear.Columns (lo * headDim) (hi * headDim) l l') :
    l'.HoldsHeads headDim (List.range' lo (hi - lo)) l where
  weight := by
    rw [hl.weight]
    exact holdsHeads_slice (by rw [hfits.weight]; exact Nat.zero_lt_two)
      hlo (by rw [hfits.weight]; exact hhi)
  bias := by rw [hl.bias, Option.isSome_map]
  biasHeads := by
    intro bias bias' hbias hbias'
    rw [hl.bias, hbias'] at hbias
    obtain rfl := Option.some.inj hbias
    have hshape := hfits.bias bias' hbias'
    exact holdsHeads_slice (by rw [hshape]; exact Nat.zero_lt_one) hlo (by rw [hshape]; exact hhi)

/-- The kv heads of a rank. -/
def ModelConfig.kvHeads (config : ModelConfig) (worldSize rank : Nat) : List Nat :=
  List.range' (config.kvStart worldSize rank)
    (config.kvStart worldSize (rank + 1) - config.kvStart worldSize rank)

/-- The query heads of these. -/
def ModelConfig.queryHeads (config : ModelConfig) (worldSize rank : Nat) : List Nat :=
  List.range' (config.kvStart worldSize rank * config.groups)
    (config.kvStart worldSize (rank + 1) * config.groups -
      config.kvStart worldSize rank * config.groups)

/-- The ranks' key-value heads, one after another, are all of them in order. -/
theorem flatMap_kvHeads (config : ModelConfig) (hworld : 0 < worldSize) :
    (List.range worldSize).flatMap (config.kvHeads worldSize) = List.range config.numKvHeads := by
  have hall := flatMap_parts (splitStart_zero config.numKvHeads worldSize)
    (splitStart_mono config.numKvHeads worldSize) worldSize
  rwa [splitStart_self hworld] at hall

/-- The ranks' query heads, one after another, are all of them in order. -/
theorem flatMap_queryHeads (hconfig : config.Geometry) (hworld : 0 < worldSize) :
    (List.range worldSize).flatMap (config.queryHeads worldSize)
      = List.range config.numAttentionHeads := by
  have hzero : config.kvStart worldSize 0 * config.groups = 0 := by
    rw [ModelConfig.kvStart, splitStart_zero, Nat.zero_mul]
  have hmono : Monotone fun rank => config.kvStart worldSize rank * config.groups :=
    fun _ _ h => Nat.mul_le_mul_right _ (splitStart_mono _ _ h)
  have hall := flatMap_parts hzero hmono worldSize
  have hend : config.kvStart worldSize worldSize * config.groups = config.numAttentionHeads := by
    rw [ModelConfig.kvStart, splitStart_self hworld, hconfig.heads, Nat.mul_comm]
  rwa [hend] at hall

/-- Query head `i` of a rank has the kv head that it has in the block. -/
theorem kvHeads_of_queryHeads (hconfig : config.Geometry) {i h : Nat}
    (hget : (config.queryHeads worldSize rank)[i]? = some h) :
    (config.kvHeads worldSize rank)[i / config.groups]? = some (h / config.groups) := by
  have hpos := hconfig.groups_pos
  obtain ⟨hi, rfl⟩ := List.getElem?_eq_some_iff.mp hget
  rw [ModelConfig.queryHeads, List.length_range', ← Nat.sub_mul] at hi
  have hkv : i / config.groups <
      config.kvStart worldSize (rank + 1) - config.kvStart worldSize rank :=
    (Nat.div_lt_iff_lt_mul hpos).mpr hi
  have hdiv : (config.queryHeads worldSize rank)[i] / config.groups
      = config.kvStart worldSize rank + 1 * (i / config.groups) := by
    simp only [ModelConfig.queryHeads, List.getElem_range', Nat.one_mul]
    rw [Nat.add_comm, Nat.add_mul_div_right _ _ hpos, Nat.add_comm]
  rw [hdiv, ModelConfig.kvHeads, List.getElem?_range' hkv]

/-- What a rank has of the attention. -/
structure HeadShard (config : ModelConfig) (worldSize rank : Nat) (whole part : GQAttention K) :
    Prop where
  qProj : part.qProj.HoldsHeads config.headWidth (config.queryHeads worldSize rank) whole.qProj
  kProj : part.kProj.HoldsHeads config.headWidth (config.kvHeads worldSize rank) whole.kProj
  vProj : part.vProj.HoldsHeads config.headWidth (config.kvHeads worldSize rank) whole.vProj
  oProj : HoldsHeads 1 config.headWidth (config.queryHeads worldSize rank) part.oProj.weight
    whole.oProj.weight
  oBias : part.oProj.bias = whole.oProj.bias.map (scaled worldSize)

/-- A sharded attention holds exactly the heads of its rank. -/
theorem AttentionShard.heads (hconfig : config.Geometry) {attn attn' : GQAttention K}
    (hfits : attn.Fits config) (hrank : rank < worldSize)
    (hshard : AttentionShard config worldSize rank attn attn') :
    HeadShard config worldSize rank attn attn' := by
  obtain ⟨hlo, hhi⟩ := kvStart_bounds config hrank
  obtain ⟨-, -, -, hq, hk, hv, ho⟩ := hshard
  rw [← Nat.mul_assoc, ← Nat.mul_assoc] at hq ho
  have hlo' := Nat.mul_le_mul_right config.groups hlo
  have hkWidth := Nat.mul_le_mul_right config.headWidth hhi
  have hqWidth : config.kvStart worldSize (rank + 1) * config.groups * config.headWidth
      ≤ config.numAttentionHeads * config.headWidth := by
    rw [hconfig.heads, Nat.mul_comm config.groups]
    exact Nat.mul_le_mul_right _ (Nat.mul_le_mul_right _ hhi)
  refine ⟨hq.holdsHeads hfits.qProj hlo' hqWidth, hk.holdsHeads hfits.kProj hlo hkWidth,
    hv.holdsHeads hfits.vProj hlo hkWidth, ?_, ho.bias⟩
  rw [ho.weight]
  exact holdsHeads_slice (by rw [hfits.oProj.weight]; exact Nat.one_lt_two) hlo'
    (by rw [hfits.oProj.weight]; exact hqWidth)

/-- **The shards are the block**, cut between heads. -/
structure PreservesBlock (config : ModelConfig) (worldSize : Nat) (block : TransformerBlock K)
    (shards : Nat → TransformerBlock K) : Prop where
  queryHeads : (List.range worldSize).flatMap (config.queryHeads worldSize)
    = List.range config.numAttentionHeads
  kvHeads : (List.range worldSize).flatMap (config.kvHeads worldSize)
    = List.range config.numKvHeads
  heads : ∀ rank < worldSize,
    HeadShard config worldSize rank block.selfAttn (shards rank).selfAttn
  grouped : ∀ rank i h, (config.queryHeads worldSize rank)[i]? = some h →
    (config.kvHeads worldSize rank)[i / config.groups]? = some (h / config.groups)
  attention : ∀ {P : Type} (attend : Option P → Tensor K → Tensor K → Tensor K → Tensor K)
    (layerPast : List P) (x : Tensor K),
    reduceAdd ((List.range worldSize).map fun rank =>
        (shards rank).selfAttn.forward attend (config.pastOf worldSize rank layerPast) x)
      = block.selfAttn.forward attend layerPast x
  mlp : ∀ (act : K → K) (route : Tensor K → Tensor K → Tensor K) (x : Tensor K),
    reduceAdd ((List.range worldSize).map fun rank => (shards rank).mlp.forward act route x)
      = block.mlp.forward act route x

/-- The cache of every rank has as many kv heads as the rank. -/
def CacheFits (config : ModelConfig) (worldSize : Nat) (shards : Nat → TransformerBlock K) : Prop :=
  ∀ rank < worldSize,
    cacheKvHeads (shards rank).selfAttn.numAttentionHeads (shards rank).selfAttn.numKeyValueGroups
      = (config.kvHeads worldSize rank).length

/-- The shards of a block that fits the config: attention, and MLPs that sum to that of the
    block. -/
theorem exists_shards [CharZero K] (hconfig : config.Geometry) (hfits : block.Fits config) :
    ∃ shards : Nat → TransformerBlock K,
      (∀ rank < worldSize,
        makeShard (rulesOf config block.mlp) worldSize rank block = .ok (shards rank)) ∧
      (∀ rank < worldSize,
        AttentionShard config worldSize rank block.selfAttn (shards rank).selfAttn) ∧
      (0 < worldSize → ∀ act route x,
        reduceAdd ((List.range worldSize).map fun rank => (shards rank).mlp.forward act route x)
          = block.mlp.forward act route x) := by
  obtain ⟨mlps, hmlps, hsum⟩ := mlp_shards hconfig hfits.mlp
  have hattns : ∀ rank, ∃ attn', rank < worldSize →
      block.selfAttn.shard (rulesOf config block.mlp) worldSize rank = .ok attn' ∧
        AttentionShard config worldSize rank block.selfAttn attn' := by
    intro rank
    rcases Nat.lt_or_ge rank worldSize with hrank | hrank
    · obtain ⟨attn', hattn⟩ := attention_shards hconfig hfits.selfAttn hrank
      exact ⟨attn', fun _ => hattn⟩
    · exact ⟨block.selfAttn, fun h => absurd h (Nat.not_lt.mpr hrank)⟩
  choose attns hattns using hattns
  refine ⟨fun rank => ⟨attns rank, mlps rank⟩, fun rank hrank => ?_,
    fun rank hrank => (hattns rank hrank).2, hsum⟩
  rw [makeShard, (hattns rank hrank).1, hmlps rank hrank]
  rfl

/-- What `get_num_attention_heads` counts: the heads of the block, in every copy. -/
theorem numAttentionHeads_eq (hconfig : config.Geometry) {attn attn' : GQAttention K}
    (hfits : attn.Fits config) (hshard : AttentionShard config worldSize rank attn attn') :
    attn'.numAttentionHeads = config.numAttentionHeads := by
  rw [GQAttention.numAttentionHeads, hshard.numHeads, hshard.headDim, hshard.qProj.outFeatures,
    hfits.headDim, hfits.qProj.outFeatures]
  cases hheads : attn.numHeads with
  | none => exact Nat.mul_div_cancel _ hconfig.headWidth_pos
  | some numHeads => exact hfits.numHeads numHeads hheads

theorem cacheKvHeads_eq (hconfig : config.Geometry) {attn attn' : GQAttention K}
    (hfits : attn.Fits config) (hshard : AttentionShard config worldSize rank attn attn') :
    cacheKvHeads attn'.numAttentionHeads attn'.numKeyValueGroups = config.numKvHeads := by
  rw [numAttentionHeads_eq hconfig hfits hshard, hshard.groups, hfits.groups, hconfig.heads]
  exact Nat.mul_div_cancel_left _ hconfig.groups_pos

theorem ModelConfig.Geometry.numKvHeads_pos (hconfig : config.Geometry) : 0 < config.numKvHeads := by
  refine Nat.pos_of_ne_zero fun hzero => hconfig.groups_pos.ne' ?_
  rw [ModelConfig.groups, hzero, Nat.div_zero]

/-- **The cache of two ranks or more** has more kv heads than the first of them. -/
theorem not_cacheFits (hconfig : config.Geometry) (hfits : block.Fits config) (htwo : 2 ≤ worldSize)
    (hworld : worldSize ≤ config.numKvHeads) {shards : Nat → TransformerBlock K}
    (hshards : ∀ rank < worldSize,
      AttentionShard config worldSize rank block.selfAttn (shards rank).selfAttn) :
    ¬ CacheFits config worldSize shards := by
  intro hcache
  have hfirst := hcache 0 (by omega)
  rw [cacheKvHeads_eq hconfig hfits.selfAttn (hshards 0 (by omega)), ModelConfig.kvHeads,
    List.length_range', ModelConfig.kvStart, ModelConfig.kvStart, splitStart_sub] at hfirst
  exact (splitSize_zero_lt htwo hworld).ne hfirst.symm

/-- With one rank the cache has as many key-value heads as the rank. -/
theorem cacheFits_one (hconfig : config.Geometry) (hfits : block.Fits config)
    {shards : Nat → TransformerBlock K}
    (hshards : ∀ rank < 1, AttentionShard config 1 rank block.selfAttn (shards rank).selfAttn) :
    CacheFits config 1 shards := by
  intro rank hrank
  obtain rfl := Nat.lt_one_iff.mp hrank
  rw [cacheKvHeads_eq hconfig hfits.selfAttn (hshards 0 hrank), ModelConfig.kvHeads,
    List.length_range', ModelConfig.kvStart, ModelConfig.kvStart, splitStart_zero,
    splitStart_self Nat.zero_lt_one, Nat.sub_zero]

/-- **Head-parallel sharding** preserves the block, on any number of ranks up to that of the kv
    heads; the count that the cache is made with is that of the rank on one device alone. -/
theorem head_parallel_counts [CharZero K] (hconfig : config.Geometry) (hfits : block.Fits config)
    (hworld : worldSize ≤ config.numKvHeads) :
    ∃ rules shards, stateRules config worldSize block = .ok rules ∧
      (∀ rank < worldSize, makeShard rules worldSize rank block = .ok (shards rank)) ∧
      (0 < worldSize → PreservesBlock config worldSize block shards) ∧
      (PreservesBlock config worldSize block shards ∧ CacheFits config worldSize shards ↔
        worldSize = 1) := by
  obtain ⟨shards, hmake, hattn, hmlp⟩ := exists_shards hconfig hfits
  have hpreserves : 0 < worldSize → PreservesBlock config worldSize block shards := fun hpos => {
    queryHeads := flatMap_queryHeads hconfig hpos
    kvHeads := flatMap_kvHeads config hpos
    heads := fun rank hrank => (hattn rank hrank).heads hconfig hfits.selfAttn hrank
    grouped := fun _ _ _ hget => kvHeads_of_queryHeads hconfig hget
    attention := fun attend layerPast x =>
      attention_sum hconfig hfits.selfAttn hpos hattn attend layerPast x
    mlp := hmlp hpos }
  refine ⟨rulesOf config block.mlp, shards, stateRules_eq hworld, hmake, hpreserves, ?_, ?_⟩
  · rintro ⟨hblock, hcache⟩
    rcases Nat.lt_or_ge worldSize 2 with hsmall | htwo
    · -- no rank at all has no head
      have hkv := hblock.kvHeads
      have hpos := hconfig.numKvHeads_pos
      rcases Nat.eq_zero_or_pos worldSize with rfl | hone
      · exact absurd (List.range_eq_nil.mp hkv.symm) hpos.ne'
      · omega
    · exact absurd hcache (not_cacheFits hconfig hfits htwo hworld hattn)
  · rintro rfl
    exact ⟨hpreserves Nat.zero_lt_one, cacheFits_one hconfig hfits hattn⟩

end Block

/-! ## A block with six heads -/

/-- Six query heads, three kv heads. -/
def sixHeads : ModelConfig := ⟨6, some 3, none, 6⟩

def ramp (shape : List Nat) : Tensor ℚ := Tensor.ofFn shape fun ix => ix.sum

def rampLinear (rows cols : Nat) : Linear ℚ := ⟨ramp [rows, cols], some (ramp [rows]), rows⟩

def sixHeadBlock : TransformerBlock ℚ where
  selfAttn := ⟨none, 1, 2, rampLinear 6 6, rampLinear 3 6, rampLinear 3 6, rampLinear 6 6⟩
  mlp := .mixtral (ramp [2, 6]) (ramp [2, 10, 6]) (ramp [2, 6, 5])

theorem rampLinear_fits (rows cols : Nat) : (rampLinear rows cols).Fits rows cols where
  weight := rfl
  bias := fun _ hbias => Option.some.inj hbias ▸ rfl
  outFeatures := rfl

theorem sixHeads_geometry : sixHeads.Geometry := ⟨rfl, by decide, by decide, by decide⟩

theorem sixHeadBlock_fits : sixHeadBlock.Fits sixHeads where
  selfAttn := {
    numHeads := fun _ hnone => nomatch hnone
    headDim := rfl
    groups := rfl
    qProj := rampLinear_fits 6 6
    kProj := rampLinear_fits 3 6
    vProj := rampLinear_fits 3 6
    oProj := rampLinear_fits 6 6 }
  mlp := ⟨2, 5, Nat.zero_lt_two, rfl, rfl⟩

/-- Two ranks with two kv heads and one. -/
theorem head_parallel_counts_uneven :
    ∃ rules shards, stateRules sixHeads 2 sixHeadBlock = .ok rules ∧
      (∀ rank < 2, makeShard rules 2 rank sixHeadBlock = .ok (shards rank)) ∧
      (0 < 2 → PreservesBlock sixHeads 2 sixHeadBlock shards) ∧
      (PreservesBlock sixHeads 2 sixHeadBlock shards ∧ CacheFits sixHeads 2 shards ↔ 2 = 1) :=
  head_parallel_counts sixHeads_geometry sixHeadBlock_fits (by decide)

/-- Each of them is made a cache for three. -/
theorem two_ranks_not_cacheFits :
    ∃ rules shards, stateRules sixHeads 2 sixHeadBlock = .ok rules ∧
      (∀ rank < 2, makeShard rules 2 rank sixHeadBlock = .ok (shards rank)) ∧
      ¬ CacheFits sixHeads 2 shards := by
  obtain ⟨shards, hmake, hattn, -⟩ := exists_shards sixHeads_geometry sixHeadBlock_fits
  exact ⟨_, shards, stateRules_eq (by decide), hmake,
    not_cacheFits sixHeads_geometry sixHeadBlock_fits (by decide) (by decide) hattn⟩

/-! ## The assertion of `make_tensor_parallel` -/

/-- **On two devices or more**, `make_tensor_parallel` counts all heads in each shard and raises. -/
theorem makeTensorParallel_raises [CharZero K] {config : ModelConfig} {worldSize : Nat}
    {block : TransformerBlock K} (hconfig : config.Geometry) (hfits : block.Fits config)
    (htwo : 2 ≤ worldSize) (hworld : worldSize ≤ config.numKvHeads) :
    ∃ message, makeTensorParallel config worldSize block = .error (.assertionError message) := by
  obtain ⟨shards, hmake, hattn, -⟩ := exists_shards (K := K) hconfig hfits
  have hshards : moduleShards (rulesOf config block.mlp) worldSize block
      = .ok ((List.range worldSize).map shards) := by
    rw [moduleShards, if_neg (by omega)]
    exact mapM_eq_ok_map fun rank hrank => hmake rank (List.mem_range.mp hrank)
  have htotal : (((List.range worldSize).map shards).map
      fun shard => shard.selfAttn.numAttentionHeads).sum = worldSize * config.numAttentionHeads := by
    have hall : ((List.range worldSize).map shards).map
        (fun shard => shard.selfAttn.numAttentionHeads)
        = (List.range worldSize).map fun _ => config.numAttentionHeads := by
      rw [List.map_map]
      exact List.map_congr_left fun rank hrank => numAttentionHeads_eq hconfig hfits.selfAttn
        (hattn rank (List.mem_range.mp hrank))
    rw [hall, List.map_const', List.length_range, List.sum_replicate, nsmul_eq_mul,
      Nat.cast_id]
  have hheads : 0 < config.numAttentionHeads := by
    rw [hconfig.heads]
    exact Nat.mul_pos hconfig.groups_pos hconfig.numKvHeads_pos
  have hne : worldSize * config.numAttentionHeads ≠ config.numAttentionHeads := by
    have hmore := Nat.mul_le_mul_right config.numAttentionHeads htwo
    omega
  rw [makeTensorParallel, stateRules_eq hworld]
  simp only [bind, Except.bind, hshards, htotal, if_neg hne]
  exact ⟨_, rfl⟩

end Drift.TensorParallel
