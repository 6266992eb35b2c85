/-
  `AllReduce` on tensors: every rank gets the sum of what all ranks have.

  The collective is `AllReduce` with `tensor_split`, `reduce_add` and `gather` of
  `cross_device_ops.py`.  Part `i` of the sum is the sum of the parts `i` (`reduceAdd_tensorSplit`),
  in whatever order they have come, and the parts in a row are the whole again
  (`catAll_tensorSplit`).
-/
import Drift.Lib.Chunks
import Drift.Utils.AllReduceRounds
import Drift.Utils.HeadParallel

namespace Drift

namespace Tensor

variable {α : Type} [Zero α]

/-- `t.flatten()`. -/
def flat (t : Tensor α) : Tensor α := t.withShape [t.numel] (by simp [numel])

omit [Zero α] in
theorem reshape_flat (t : Tensor α) : t.flat.reshape (t.shape.map Nat.cast) = some t :=
  reshape_natCast (by simp [flat, numel])

/-- **`cat` undoes `tensor_split`.** -/
theorem catAll_tensorSplit (t : Tensor α) {axis worldSize : Nat} (haxis : axis < t.shape.length)
    (hw : 0 < worldSize) :
    catAll axis ((List.range worldSize).map fun rank => t.tensorSplit axis worldSize rank)
      = some t := by
  have hle : ∀ rank, rank ≤ worldSize →
      splitStart (t.shape.getD axis 0) worldSize rank ≤ t.shape.getD axis 0 :=
    fun rank hrank => splitStart_le hrank hw
  have hmono := splitStart_mono (t.shape.getD axis 0) worldSize
  -- the parts up to the one behind `k`
  have hfold : ∀ k, k + 1 ≤ worldSize →
      ((List.range k).map fun rank => t.tensorSplit axis worldSize (rank + 1)).foldl (cat axis)
          (t.tensorSplit axis worldSize 0)
        = t.slice axis (0 : Nat) (splitStart (t.shape.getD axis 0) worldSize (k + 1) : Nat) := by
    intro k
    induction k with
    | zero =>
      intro _
      rw [List.range_zero, List.map_nil, List.foldl_nil, tensorSplit, splitStart_zero]
    | succ k ih =>
      intro hk
      rw [List.range_succ, List.map_append, List.foldl_append, ih (by omega)]
      exact cat_slice t haxis (Nat.zero_le _) (hmono (Nat.le_succ _)) (hle _ hk)
  obtain ⟨k, rfl⟩ : ∃ k, worldSize = k + 1 := ⟨worldSize - 1, by omega⟩
  rw [List.range_succ_eq_map, List.map_cons, List.map_map, catAll, if_pos]
  · have hall := hfold k (Nat.le_refl _)
    rw [splitStart_self hw] at hall
    exact congrArg some (hall.trans (slice_all (Nat.le_refl _)))
  · intro u hu
    obtain ⟨rank, -, rfl⟩ := List.mem_map.mp hu
    rw [Function.comp_apply, tensorSplit, tensorSplit, shape_slice, shape_slice, List.set_set,
      List.set_set]

end Tensor

namespace TensorParallel

variable {K : Type} [Field K]

open Tensor

/-- `reduce_add` does not depend on the order. -/
theorem reduceAdd_perm (shape : List Nat) {ts us : List (Tensor K)} (h : ts.Perm us)
    (hall : ∀ t ∈ ts, t.shape = shape) : reduceAdd ts = reduceAdd us := by
  rcases eq_or_ne ts [] with rfl | hne
  · rw [List.nil_perm.mp h]
  · have hne' : us ≠ [] := by
      rintro rfl
      exact hne (List.perm_nil.mp h)
    obtain ⟨hshape, hget⟩ := reduceAdd_spec hne hall
    obtain ⟨hshape', hget'⟩ := reduceAdd_spec hne' fun u hu => hall u (h.mem_iff.mpr hu)
    refine ext_get (hshape.trans hshape'.symm) fun ix hix => ?_
    rw [hshape] at hix
    rw [hget ix hix, hget' ix hix]
    exact (h.map _).sum_eq

/-- `reduce_add` and an operation that moves elements. -/
theorem reduceAdd_map {shape shape' : List Nat} {f : Tensor K → Tensor K}
    {source : List Nat → List Nat} (hf : ∀ t : Tensor K, t.shape = shape → (f t).shape = shape' ∧
      ∀ ix, InBounds shape' ix → InBounds shape (source ix) ∧ (f t).get ix = t.get (source ix))
    {ts : List (Tensor K)} (hne : ts ≠ []) (hall : ∀ t ∈ ts, t.shape = shape) :
    reduceAdd (ts.map f) = f (reduceAdd ts) := by
  obtain ⟨hshape, hget⟩ := reduceAdd_spec hne hall
  have hne' : ts.map f ≠ [] := by
    rwa [Ne, List.map_eq_nil_iff]
  have hall' : ∀ u ∈ ts.map f, u.shape = shape' := by
    intro u hu
    obtain ⟨t, ht, rfl⟩ := List.mem_map.mp hu
    exact (hf t (hall t ht)).1
  obtain ⟨hshape', hget'⟩ := reduceAdd_spec hne' hall'
  obtain ⟨hsum, hsumGet⟩ := hf (reduceAdd ts) hshape
  refine ext_get (hshape'.trans hsum.symm) fun ix hix => ?_
  rw [hshape'] at hix
  obtain ⟨hsource, hread⟩ := hsumGet ix hix
  rw [hget' ix hix, hread, hget _ hsource, List.map_map]
  refine congrArg List.sum (List.map_congr_left fun t ht => ?_)
  exact ((hf t (hall t ht)).2 ix hix).2

/-! ## The collective -/

/-- The operations of `_create_collective_ops` for `"sum"`; `none` when one raises. -/
def sumOf (K : Type) [Field K] (worldSize : Nat) :
    AllReduce (Tensor K) (Tensor K) (Option (Tensor K)) where
  worldSize := worldSize
  split x i := x.flat.tensorSplit 0 worldSize i
  reduceOp := reduceAdd
  gatherOp parts x := do
    let tensors ← parts.mapM id
    let whole ← catAll 0 tensors
    whole.reshape (x.shape.map Nat.cast)

variable {worldSize : Nat} {shape : List Nat}

/-- A part of a flat tensor reads the elements behind its start. -/
theorem flat_tensorSplit {i : Nat} (hi : i < worldSize) (t : Tensor K) (ht : t.shape = shape) :
    (t.flat.tensorSplit 0 worldSize i).shape = [splitSize shape.prod worldSize i] ∧
      ∀ ix, InBounds [splitSize shape.prod worldSize i] ix →
        InBounds shape (unravel shape (ix.getD 0 0 + splitStart shape.prod worldSize i)) ∧
        (t.flat.tensorSplit 0 worldSize i).get ix
          = t.get (unravel shape (ix.getD 0 0 + splitStart shape.prod worldSize i)) := by
  subst ht
  have hle := splitStart_add_le (n := t.shape.prod) hi
  have hsucc := splitStart_succ t.shape.prod worldSize i
  have hlo : splitStart t.shape.prod worldSize i ≤ splitStart t.shape.prod worldSize (i + 1) := by
    omega
  have hhi : splitStart t.shape.prod worldSize (i + 1) ≤ t.flat.shape.getD 0 0 := by
    show _ ≤ t.shape.prod
    omega
  have hshape : (t.flat.tensorSplit 0 worldSize i).shape = [splitSize t.shape.prod worldSize i] := by
    refine (shape_slice_of_le hlo hhi).trans ?_
    rw [splitStart_sub]
    rfl
  refine ⟨hshape, fun ix hix => ?_⟩
  obtain ⟨j, rest, rfl, hj, hrest⟩ := hix.exists_cons
  obtain rfl := hrest.eq_nil
  have hlt : j + splitStart t.shape.prod worldSize i < t.shape.prod := by omega
  refine ⟨inBounds_unravel hlt, ?_⟩
  refine (get_slice [j] hlo hhi ?_).trans ?_
  · rw [splitStart_sub]
    exact hix
  · refine get_withShape _ ?_
    show ravel [t.numel] [j + splitStart t.shape.prod worldSize i]
      = ravel t.shape (unravel t.shape (j + splitStart t.shape.prod worldSize i))
    rw [ravel_unravel hlt]
    simp [ravel]

/-- **A part of the sum** is the sum of the parts. -/
theorem reduceAdd_tensorSplit {ts : List (Tensor K)} (hne : ts ≠ [])
    (hall : ∀ t ∈ ts, t.shape = shape) {i : Nat} (hi : i < worldSize) :
    reduceAdd (ts.map fun t => t.flat.tensorSplit 0 worldSize i)
      = (reduceAdd ts).flat.tensorSplit 0 worldSize i :=
  reduceAdd_map (flat_tensorSplit hi) hne hall

omit [Field K] in
theorem map_range_ne_nil {f : Nat → Tensor K} (hw : 0 < worldSize) :
    (List.range worldSize).map f ≠ [] := by
  rw [Ne, List.map_eq_nil_iff, List.range_eq_nil]
  omega

/-- One call: the parts are cut, reduced, gathered and put into the shape of the input. -/
theorem gather_reduced {ts : Nat → Tensor K} (hshape : ∀ r < worldSize, (ts r).shape = shape)
    {rank : Nat} (hrank : rank < worldSize) :
    (sumOf K worldSize).gatherOp ((List.range worldSize).map fun i =>
        some (reduceAdd ((List.range worldSize).map fun r => (ts r).flat.tensorSplit 0 worldSize i)))
      (ts rank) = some (reduceAdd ((List.range worldSize).map ts)) := by
  have hw : 0 < worldSize := by omega
  have hall : ∀ t ∈ (List.range worldSize).map ts, t.shape = shape := by
    intro t ht
    obtain ⟨r, hr, rfl⟩ := List.mem_map.mp ht
    exact hshape r (List.mem_range.mp hr)
  have hne := map_range_ne_nil (f := ts) hw
  have hsum := (reduceAdd_spec hne hall).1
  have hparts : ((List.range worldSize).map fun i => some (reduceAdd
        ((List.range worldSize).map fun r => (ts r).flat.tensorSplit 0 worldSize i))).mapM id
      = some ((List.range worldSize).map fun i =>
          (reduceAdd ((List.range worldSize).map ts)).flat.tensorSplit 0 worldSize i) := by
    have hreduced : ∀ i ∈ List.range worldSize, some (reduceAdd
          ((List.range worldSize).map fun r => (ts r).flat.tensorSplit 0 worldSize i))
        = some ((reduceAdd ((List.range worldSize).map ts)).flat.tensorSplit 0 worldSize i) := by
      intro i hi
      have hpart := reduceAdd_tensorSplit hne hall (List.mem_range.mp hi)
      rw [List.map_map] at hpart
      exact congrArg some hpart
    rw [List.map_congr_left hreduced, List.mapM_map]
    exact List.mapM_pure
  show (do
    let tensors ← ((List.range worldSize).map fun i => some (reduceAdd
        ((List.range worldSize).map fun r => (ts r).flat.tensorSplit 0 worldSize i))).mapM id
    let whole ← catAll 0 tensors
    whole.reshape ((ts rank).shape.map Nat.cast)) = _
  rw [hparts]
  show (do
    let whole ← catAll 0 _
    whole.reshape ((ts rank).shape.map Nat.cast)) = _
  rw [catAll_tensorSplit _ (by simp [flat]) hw, hshape rank hrank, ← hsum]
  exact reshape_flat _

/-! ## Any number of calls -/

/-- The sums of the calls before a round; `xs rank returned` is what a rank calls with. -/
def sums (worldSize : Nat) (xs : Nat → List (Option (Tensor K)) → Tensor K) :
    Nat → List (Option (Tensor K))
  | 0 => []
  | round + 1 => sums worldSize xs round ++
    [some (reduceAdd ((List.range worldSize).map fun rank => xs rank (sums worldSize xs round)))]

variable {xs : Nat → List (Option (Tensor K)) → Tensor K} {shapes : Nat → List Nat}

/-- What the ranks are to get are the sums. -/
theorem history_eq_sums
    (hshape : ∀ round, ∀ rank < worldSize, (xs rank (sums worldSize xs round)).shape = shapes round) :
    ∀ round, ∀ t < worldSize, (sumOf K worldSize).history xs round t = sums worldSize xs round := by
  intro round
  induction round with
  | zero => exact fun _ _ => rfl
  | succ round ih =>
    intro t ht
    have hcalls : ∀ i, ((List.range worldSize).map fun r =>
          (xs r ((sumOf K worldSize).history xs round r)).flat.tensorSplit 0 worldSize i)
        = (List.range worldSize).map fun r =>
          (xs r (sums worldSize xs round)).flat.tensorSplit 0 worldSize i := by
      intro i
      apply List.map_congr_left
      intro r hr
      rw [ih r (List.mem_range.mp hr)]
    have hgather := gather_reduced (hshape round) ht
    show (sumOf K worldSize).history xs round t ++ [(sumOf K worldSize).gatherOp
      ((List.range worldSize).map fun i => some (reduceAdd ((List.range worldSize).map fun r =>
        (xs r ((sumOf K worldSize).history xs round r)).flat.tensorSplit 0 worldSize i)))
      (xs t ((sumOf K worldSize).history xs round t))] = _
    simp only [hcalls]
    rw [ih t ht, hgather]
    rfl

theorem reducesParts_sumOf
    (hshape : ∀ round, ∀ rank < worldSize, (xs rank (sums worldSize xs round)).shape = shapes round) :
    AllReduce.ReducesParts (sumOf K worldSize) xs := by
  intro round i hi parts hperm
  refine reduceAdd_perm [splitSize (shapes round).prod worldSize i] hperm fun t ht => ?_
  obtain ⟨rank, hrank, rfl⟩ := List.mem_map.mp (hperm.mem_iff.mp ht)
  have hrank := List.mem_range.mp hrank
  have hinput : (sumOf K worldSize).input xs round rank = xs rank (sums worldSize xs round) :=
    congrArg (xs rank) (history_eq_sums hshape round rank hrank)
  rw [hinput]
  exact (flat_tensorSplit hi _ (hshape round rank hrank)).1

/-- **Every rank gets the sum.**  In a run without a late set, whatever the order of the steps of
    the ranks, all calls that have returned have returned the sum of what the ranks have called
    with, no rank is more than one call ahead of another, and somebody can go on. -/
theorem run_sums (worldSize : Nat) (xs : Nat → List (Option (Tensor K)) → Tensor K)
    (shapes : Nat → List Nat) (hw : 0 < worldSize)
    (hshape : ∀ round, ∀ rank < worldSize, (xs rank (sums worldSize xs round)).shape = shapes round)
    (schedule : List Nat) (s : AllReduce.State (Tensor K) (Option (Tensor K)))
    (hexec : exec ((sumOf K worldSize).step xs) {} schedule = some s)
    (hlate : AllSteps ((sumOf K worldSize).step xs)
      (fun s rank => AllReduce.lateSet s rank = false) {} schedule) :
    (∀ rank < worldSize, (s.ranks rank).returned = sums worldSize xs (s.ranks rank).round ∧
      ∀ r < worldSize, (s.ranks rank).round ≤ (s.ranks r).round + 1) ∧
    ∃ rank < worldSize, ((sumOf K worldSize).step xs s rank).isSome = true := by
  obtain ⟨hreturned, hgoes⟩ := AllReduce.rounds_exact (sumOf K worldSize) xs
    (reducesParts_sumOf hshape) schedule s hexec hlate
  refine ⟨fun rank hrank => ⟨?_, (hreturned rank hrank).2⟩, hgoes hw⟩
  rw [(hreturned rank hrank).1]
  exact history_eq_sums hshape _ rank hrank

/-- Rank `1` reduces behind rank `0`. -/
theorem run_sums_two : ∃ s : AllReduce.State (Tensor ℚ) (Option (Tensor ℚ)),
    exec ((sumOf ℚ 2).step fun rank _ => Tensor.ofFn [3] fun _ => (rank : ℚ)) {}
      (List.replicate 4 0 ++ List.replicate 16 1 ++ List.replicate 18 0) = some s ∧
    (∀ rank < 2, (s.ranks rank).returned
        = sums 2 (fun rank _ => Tensor.ofFn [3] fun _ => (rank : ℚ)) (s.ranks rank).round ∧
      ∀ r < 2, (s.ranks rank).round ≤ (s.ranks r).round + 1) ∧
    ∃ rank < 2, ((sumOf ℚ 2).step (fun rank _ => Tensor.ofFn [3] fun _ => (rank : ℚ))
      s rank).isSome = true := by
  obtain ⟨s, hs⟩ := Option.isSome_iff_exists.mp (show (exec ((sumOf ℚ 2).step fun rank _ =>
    Tensor.ofFn [3] fun _ => (rank : ℚ)) {}
      (List.replicate 4 0 ++ List.replicate 16 1 ++ List.replicate 18 0)).isSome = true by
    decide +kernel)
  exact ⟨s, hs, run_sums 2 (fun rank _ => Tensor.ofFn [3] fun _ => (rank : ℚ)) (fun _ => [3])
    Nat.two_pos (fun _ _ _ => rfl) _ s hs (by decide +kernel)⟩

end TensorParallel

end Drift
