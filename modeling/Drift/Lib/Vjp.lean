/-
  Vector-Jacobian products of functions between real coordinate spaces.

  `HasVjpAt f x g y` says that `f` is differentiable at `x` and that `y` is the cotangent `g` of its
  output pulled back through the derivative: `g · D v = y · v` in every direction `v`.  There is
  only one such `y` (`HasVjpAt.unique`), and a composition pulls back through its parts, last first
  (`HasVjpAt.comp`).  Adding one vector to some of the coordinates of another has the selection of
  these coordinates as its vector-Jacobian product (`hasVjpAt_addAt`).

  A function of some coordinates that gives what another one gives at some of its outputs, the rest
  of which do not depend on them, pulls back a part of the cotangent to a part of the
  vector-Jacobian product (`HasVjpAt.restrict`).
-/
import Mathlib.Analysis.Calculus.Deriv.Comp
import Mathlib.Analysis.Calculus.FDeriv.Add
import Mathlib.Analysis.Calculus.FDeriv.Pi
import Mathlib.LinearAlgebra.Matrix.DotProduct
import Mathlib.LinearAlgebra.Matrix.ToLin
import Mathlib.Topology.Algebra.Module.FiniteDimension

namespace Drift

variable {ι κ μ : Type} [Fintype ι] [Fintype κ] [Fintype μ]

/-- `y` is the vector-Jacobian product of `f` at `x` for the cotangent `g`. -/
def HasVjpAt (f : (ι → ℝ) → κ → ℝ) (x : ι → ℝ) (g : κ → ℝ) (y : ι → ℝ) : Prop :=
  ∃ D : (ι → ℝ) →L[ℝ] κ → ℝ, HasFDerivAt f D x ∧ ∀ v, g ⬝ᵥ D v = y ⬝ᵥ v

namespace HasVjpAt

variable {f : (ι → ℝ) → κ → ℝ} {f' : (κ → ℝ) → μ → ℝ} {x y y' : ι → ℝ} {g z : κ → ℝ}
  {w : μ → ℝ}

/-- **A vector-Jacobian product is unique.** -/
theorem unique (h : HasVjpAt f x g y) (h' : HasVjpAt f x g y') : y = y' := by
  obtain ⟨D, hD, hy⟩ := h
  obtain ⟨D', hD', hy'⟩ := h'
  obtain rfl : D = D' := hD.unique hD'
  exact dotProduct_eq y y' fun v => (hy v).symm.trans (hy' v)

/-- **The chain rule**, backward. -/
theorem comp (h' : HasVjpAt f' (f x) w z) (h : HasVjpAt f x z y) :
    HasVjpAt (fun v => f' (f v)) x w y := by
  obtain ⟨D, hD, hy⟩ := h
  obtain ⟨D', hD', hz⟩ := h'
  refine ⟨D'.comp D, hD'.comp x hD, fun v => ?_⟩
  rw [ContinuousLinearMap.comp_apply, hz, hy]

end HasVjpAt

/-- An affine function pulls back by the transpose of its matrix. -/
theorem hasVjpAt_affine (M : Matrix κ ι ℝ) (c : κ → ℝ) (x : ι → ℝ) (g : κ → ℝ) :
    HasVjpAt (fun v => c + M.mulVec v) x g (Matrix.vecMul g M) := by
  classical
  refine ⟨(Matrix.mulVecLin M).toContinuousLinearMap, ?_, fun v => ?_⟩
  · exact (Matrix.mulVecLin M).toContinuousLinearMap.hasFDerivAt.const_add c
  · exact Matrix.dotProduct_mulVec g M v

/-- **Adding a vector to the coordinates `e`**: the cotangent of the vector is that of these
    coordinates. -/
theorem hasVjpAt_addAt {e : ι → κ} (he : Function.Injective e) {f : (ι → ℝ) → κ → ℝ} (c : κ → ℝ)
    (hf : ∀ v j, f v (e j) = c (e j) + v j) (hout : ∀ v k, k ∉ Set.range e → f v k = c k)
    (x : ι → ℝ) (g : κ → ℝ) : HasVjpAt f x g fun j => g (e j) := by
  classical
  let M : Matrix κ ι ℝ := fun k j => if k = e j then 1 else 0
  have hfM : f = fun v => c + M.mulVec v := by
    funext v k
    rw [Pi.add_apply, Matrix.mulVec, dotProduct]
    by_cases hk : k ∈ Set.range e
    · obtain ⟨j, rfl⟩ := hk
      have hterm : ∀ i, M (e j) i * v i = if j = i then v i else 0 := by
        intro i
        simp only [M, he.eq_iff]
        split <;> simp
      rw [hf, Finset.sum_congr rfl fun i _ => hterm i, Finset.sum_ite_eq,
        if_pos (Finset.mem_univ j)]
    · have hterm : ∀ i, M k i * v i = 0 := by
        intro i
        have hne : k ≠ e i := fun h => hk ⟨i, h.symm⟩
        simp [M, hne]
      rw [hout v k hk, Finset.sum_congr rfl fun i _ => hterm i, Finset.sum_const_zero, add_zero]
  have hg : Matrix.vecMul g M = fun j => g (e j) := by
    funext j
    simp [Matrix.vecMul, dotProduct, M]
  rw [hfM, ← hg]
  exact hasVjpAt_affine M c x g

/-- A function of every coordinate by itself. -/
theorem hasVjpAt_pointwise {φ φ' : ℝ → ℝ} (hφ : ∀ r, HasDerivAt φ (φ' r) r) (x g : ι → ℝ) :
    HasVjpAt (fun v i => φ (v i)) x g fun i => g i * φ' (x i) := by
  refine ⟨ContinuousLinearMap.pi fun i => φ' (x i) • ContinuousLinearMap.proj i, ?_, fun v => ?_⟩
  · refine hasFDerivAt_pi.mpr fun i => ?_
    exact (hφ (x i)).comp_hasFDerivAt x (hasFDerivAt_apply i x)
  · simp only [dotProduct, ContinuousLinearMap.coe_pi', smul_apply,
      ContinuousLinearMap.proj_apply, smul_eq_mul, mul_assoc]

/-! ## Parts of the coordinates -/

section Restrict

variable {f : (ι → ℝ) → κ → ℝ} {x y : ι → ℝ} {g : κ → ℝ}

/-- **Some of the outputs**, when the others are constant. -/
theorem HasVjpAt.restrict_outputs {d : μ → κ} (hd : Function.Injective d)
    (hconst : ∀ k, k ∉ Set.range d → ∀ v v', f v k = f v' k) (h : HasVjpAt f x g y) :
    HasVjpAt (fun v j => f v (d j)) x (fun j => g (d j)) y := by
  obtain ⟨D, hD, hy⟩ := h
  have hcoord : ∀ k, HasFDerivAt (fun v => f v k) ((ContinuousLinearMap.proj k).comp D) x :=
    fun k => hasFDerivAt_pi'.mp hD k
  refine ⟨ContinuousLinearMap.pi fun j => (ContinuousLinearMap.proj (d j)).comp D,
    hasFDerivAt_pi.mpr fun j => hcoord (d j), fun v => ?_⟩
  rw [← hy v]
  refine Fintype.sum_of_injective d hd _ _ (fun k hk => ?_) fun _ => rfl
  -- the derivative of a constant
  have hsame : (fun v => f v k) = fun _ => f x k := funext fun v => hconst k hk v x
  have hk := hcoord k
  rw [hsame] at hk
  have hzero := hk.unique (hasFDerivAt_const (f x k) x)
  have hv : D v k = 0 := congrArg (fun L : (ι → ℝ) →L[ℝ] ℝ => L v) hzero
  rw [hv, mul_zero]

variable {ι' κ' : Type} [Fintype ι'] [Fintype κ'] {f' : (ι' → ℝ) → κ' → ℝ} {e : ι' → ι}
  {d : κ' → κ}

/-- **A function of a part.**  At the outputs `d` it gives what `f` does, and `f` takes nothing else
    from the coordinates `e`. -/
theorem HasVjpAt.restrict (he : Function.Injective e) (hd : Function.Injective d)
    (hf : ∀ v j, f' (fun i => v (e i)) j = f v (d j))
    (hout : ∀ k, k ∉ Set.range d → ∀ v v', (∀ i, i ∉ Set.range e → v i = v' i) → f v k = f v' k)
    (h : HasVjpAt f x g y) :
    HasVjpAt f' (fun i => x (e i)) (fun j => g (d j)) fun i => y (e i) := by
  classical
  -- the other coordinates stay as they are in `x`
  let fill : (ι' → ℝ) → ι → ℝ := fun w i => if hi : ∃ j, e j = i then w hi.choose else x i
  have hin : ∀ w j, fill w (e j) = w j := by
    intro w j
    have hj : ∃ i, e i = e j := ⟨j, rfl⟩
    simp only [fill, dif_pos hj]
    exact congrArg w (he hj.choose_spec)
  have hrest : ∀ w i, i ∉ Set.range e → fill w i = x i := fun w i hi => dif_neg hi
  have hx : fill (fun i => x (e i)) = x := by
    funext i
    by_cases hi : i ∈ Set.range e
    · obtain ⟨j, rfl⟩ := hi
      exact hin (fun i => x (e i)) j
    · exact hrest (fun i => x (e i)) i hi
  have hfill : HasVjpAt fill (fun i => x (e i)) y fun i => y (e i) := by
    refine hasVjpAt_addAt he (fun i => if i ∈ Set.range e then 0 else x i) (fun w j => ?_)
      (fun w i hi => ?_) _ _
    · rw [hin, if_pos ⟨j, rfl⟩, zero_add]
    · rw [hrest w i hi, if_neg hi]
  have hwhole : HasVjpAt (fun w => f (fill w)) (fun i => x (e i)) g fun i => y (e i) :=
    (hx.symm ▸ h : HasVjpAt f (fill fun i => x (e i)) g y).comp hfill
  have hpart : f' = fun w j => f (fill w) (d j) := by
    funext w j
    rw [← hf (fill w) j]
    exact congrArg (fun v => f' v j) (funext fun i => (hin w i).symm)
  rw [hpart]
  refine hwhole.restrict_outputs hd fun k hk w w' => ?_
  exact hout k hk _ _ fun i hi => (hrest w i hi).trans (hrest w' i hi).symm

end Restrict

end Drift
