/-
  The few built-ins of the source language that the models below share: the exceptions, list
  indexing, `math.ceil` of a quotient and `sorted`.
-/
import Mathlib.Algebra.GroupWithZero.Nat
import Mathlib.Algebra.Ring.Int.Defs
import Mathlib.Data.List.Basic
import Mathlib.Data.List.Forall2
import Mathlib.Data.List.Sort
import Mathlib.Data.Int.Basic

namespace Drift

/-- The exceptions that the modelled code raises or lets through. -/
inductive PyExc where
  /-- `memory_cache.AllocationFailed`. -/
  | allocationFailed (message : String)
  /-- `sequence_manager.MissingBlocksError`, with the indices of the missing blocks. -/
  | missingBlocks (blocks : List Nat)
  | assertionError (message : String)
  | valueError (message : String)
  | runtimeError (message : String)
  | notImplementedError (message : String)
  /-- A plain `Exception`. -/
  | exception (message : String)
  | indexError
  | keyError
  | typeError
  | unboundLocalError
  | zeroDivisionError
  /-- A request to a peer that was not answered. -/
  | requestFailed
deriving DecidableEq, Repr

/-- `xs[i]`: negative indices count from the end, `none` is an `IndexError`. -/
def pyIndex {α : Type} (xs : List α) (i : Int) : Option α :=
  if 0 ≤ i then xs[i.toNat]?
  else if 0 ≤ i + xs.length then xs[(i + xs.length).toNat]?
  else none

/-- `xs[:stop]`. -/
def pyTake {α : Type} (xs : List α) (stop : Int) : List α :=
  if 0 ≤ stop then xs.take stop.toNat else xs.take (stop + xs.length).toNat

/-- `xs[start:]`. -/
def pyFrom {α : Type} (xs : List α) (start : Int) : List α :=
  if 0 ≤ start then xs.drop start.toNat else xs.drop (start + xs.length).toNat

/-- `xs[start:stop]` for indices that are not negative. -/
def pySlice {α : Type} (xs : List α) (start stop : Nat) : List α := (xs.take stop).drop start

/-- A `slice` object. -/
structure PySlice where
  start : Option Int
  stop : Option Int
  step : Option Int

/-- An end of a slice: one that is given counts from the end if it is negative, and is clamped. -/
def PySlice.bound (length : Nat) (lower upper default : Int) : Option Int → Int
  | none => default
  | some i => if i < 0 then max (i + length) lower else min i upper

/-- The indices that the slice picks of a sequence of this length. -/
def PySlice.indices (ix : PySlice) (length : Nat) : Except PyExc (List Nat) :=
  let step := ix.step.getD 1
  let lower : Int := if step < 0 then -1 else 0
  let upper : Int := if step < 0 then (length : Int) - 1 else length
  let start := PySlice.bound length lower upper (if step < 0 then upper else lower) ix.start
  let stop := PySlice.bound length lower upper (if step < 0 then lower else upper) ix.stop
  if step = 0 then .error (.valueError "slice step cannot be zero")
  else
    let count := ((if step < 0 then start - stop else stop - start) + (step.natAbs - 1)) / step.natAbs
    .ok ((List.range count.toNat).map fun k : Nat => (start + k * step).toNat)

/-- `range(start, stop)`. -/
def pyRange (start stop : Int) : List Int :=
  (List.range (stop - start).toNat).map fun k : Nat => start + (k : Int)

/-- `range(0, stop, step)` for a positive `step`. -/
def pyRangeStep (stop step : Nat) : List Nat := List.range' 0 ((stop + step - 1) / step) step

/-- `math.ceil(n / d)` for a positive `d`. -/
def pyCeilDiv (n : Int) (d : Nat) : Int := -(-n / d)

/-- An operation that has no value raises. -/
def orRaise {α : Type} (exc : PyExc) : Option α → Except PyExc α
  | none => .error exc
  | some a => .ok a

/-- `orRaise` returns exactly what is there. -/
theorem orRaise_eq_ok {α : Type} {exc : PyExc} {o : Option α} {a : α} :
    orRaise exc o = .ok a ↔ o = some a := by
  cases o <;> simp [orRaise]

@[simp] theorem pyIndex_natCast {α : Type} (xs : List α) (i : Nat) :
    pyIndex xs (i : Int) = xs[i]? := by
  simp [pyIndex]

@[simp] theorem pyTake_natCast {α : Type} (xs : List α) (stop : Nat) :
    pyTake xs (stop : Int) = xs.take stop := by
  simp [pyTake]

/-- The last elements, if there are that many. -/
theorem pyFrom_neg {α : Type} {xs : List α} {n : Nat} (hn : 0 < n) (h : n ≤ xs.length) :
    pyFrom xs (-(n : Int)) = xs.drop (xs.length - n) := by
  rw [pyFrom, if_neg (by omega)]
  congr 1
  omega

/-- A slice in range has the length asked for. -/
theorem length_pySlice {α : Type} {xs : List α} (start : Nat) {stop : Nat} (h : stop ≤ xs.length) :
    (pySlice xs start stop).length = stop - start := by
  rw [pySlice, List.length_drop, List.length_take, Nat.min_eq_left h]

@[simp] theorem pySlice_self {α : Type} (xs : List α) (i : Nat) : pySlice xs i i = [] := by
  rw [pySlice, List.drop_eq_nil_iff, List.length_take]
  omega

/-- A slice up to a point and one from there on. -/
theorem pySlice_append {α : Type} (xs : List α) {a b c : Nat} (hab : a ≤ b) (hbc : b ≤ c) :
    pySlice xs a b ++ pySlice xs b c = pySlice xs a c := by
  simp only [pySlice, List.drop_take]
  obtain ⟨n, rfl⟩ := Nat.exists_eq_add_of_le hab
  obtain ⟨m, rfl⟩ := Nat.exists_eq_add_of_le hbc
  rw [show a + n - a = n by omega, show a + n + m - (a + n) = m by omega,
    show a + n + m - a = n + m by omega, List.take_add, List.drop_drop]

theorem pySlice_map {α β : Type} (f : α → β) (xs : List α) (start stop : Nat) :
    pySlice (xs.map f) start stop = (pySlice xs start stop).map f := by
  simp only [pySlice, List.map_drop, List.map_take]

theorem pySlice_zipWith {α β γ : Type} (f : α → β → γ) (xs : List α) (ys : List β)
    (start stop : Nat) :
    pySlice (List.zipWith f xs ys) start stop
      = List.zipWith f (pySlice xs start stop) (pySlice ys start stop) := by
  simp only [pySlice, List.drop_zipWith, List.take_zipWith]

/-- A slice has elements of the list only. -/
theorem mem_of_mem_pySlice {α : Type} {xs : List α} {start stop : Nat} {x : α}
    (h : x ∈ pySlice xs start stop) : x ∈ xs :=
  List.mem_of_mem_take (List.mem_of_mem_drop h)

/-- The element found is one of the list. -/
theorem mem_of_pyIndex {α : Type} {xs : List α} {i : Int} {x : α} (h : pyIndex xs i = some x) :
    x ∈ xs := by
  simp only [pyIndex] at h
  split at h
  · exact List.mem_of_getElem? h
  · split at h
    · exact List.mem_of_getElem? h
    · cases h

/-- What a partial map over a list collects, element by element. -/
theorem forall₂_of_mapM {α β : Type} {f : α → Option β} :
    ∀ {xs : List α} {ys : List β}, xs.mapM f = some ys → List.Forall₂ (fun x y => f x = some y) xs ys
  | [], ys, h => by
    obtain rfl := Option.some.inj h
    exact List.Forall₂.nil
  | x :: xs, ys, h => by
    rw [List.mapM_cons] at h
    obtain ⟨y, hy, h⟩ := Option.bind_eq_some_iff.mp h
    obtain ⟨ys', hys, h⟩ := Option.bind_eq_some_iff.mp h
    obtain rfl := Option.some.inj h
    exact List.Forall₂.cons hy (forall₂_of_mapM hys)

/-- What a map that may raise collects. -/
theorem mem_of_mapM {α β : Type} {f : α → Except PyExc β} : ∀ {xs : List α} {ys : List β},
    xs.mapM f = .ok ys → ∀ {y : β}, y ∈ ys ↔ ∃ x ∈ xs, f x = .ok y
  | [], ys, h, y => by
    obtain rfl := Except.ok.inj h
    simp
  | x :: xs, ys, h, y => by
    rw [List.mapM_cons] at h
    cases hx : f x with
    | error exc =>
      rw [hx] at h
      nomatch h
    | ok z =>
      cases hxs : xs.mapM f with
      | error exc =>
        rw [hx, hxs] at h
        nomatch h
      | ok zs =>
        rw [hx, hxs] at h
        obtain rfl := Except.ok.inj h
        rw [List.mem_cons, mem_of_mapM hxs]
        constructor
        · rintro (rfl | ⟨x', hmem, hx'⟩)
          · exact ⟨x, List.mem_cons_self, hx⟩
          · exact ⟨x', List.mem_cons_of_mem _ hmem, hx'⟩
        · rintro ⟨x', hmem, hx'⟩
          rcases List.mem_cons.mp hmem with rfl | hmem
          · rw [hx] at hx'
            exact Or.inl (Except.ok.inj hx').symm
          · exact Or.inr ⟨x', hmem, hx'⟩

/-- A loop that gets through has not raised for any element. -/
theorem ok_of_mapM {α β : Type} {f : α → Except PyExc β} : ∀ {xs : List α} {ys : List β},
    xs.mapM f = .ok ys → ∀ {x : α}, x ∈ xs → ∃ y, f x = .ok y
  | x :: xs, ys, h, x', hmem => by
    rw [List.mapM_cons] at h
    cases hx : f x with
    | error exc =>
      rw [hx] at h
      nomatch h
    | ok y =>
      rcases List.mem_cons.mp hmem with rfl | hmem
      · exact ⟨y, hx⟩
      cases hxs : xs.mapM f with
      | error exc =>
        rw [hx, hxs] at h
        nomatch h
      | ok ys' => exact ok_of_mapM hxs hmem

/-- A map raises only where one of its elements does. -/
theorem exists_mapM_ok {α β : Type} {f : α → Except PyExc β} : ∀ {xs : List α},
    (∀ x ∈ xs, ∃ y, f x = .ok y) → ∃ ys, xs.mapM f = .ok ys
  | [], _ => ⟨[], rfl⟩
  | x :: xs, h => by
    obtain ⟨y, hy⟩ := h x List.mem_cons_self
    obtain ⟨ys, hys⟩ := exists_mapM_ok fun x' hx' => h x' (List.mem_cons_of_mem _ hx')
    exact ⟨y :: ys, by rw [List.mapM_cons, hy, hys]; exact rfl⟩

/-- A loop whose body does not raise is `map`. -/
theorem mapM_eq_ok_map {α β : Type} {f : α → Except PyExc β} {g : α → β} : ∀ {xs : List α},
    (∀ x ∈ xs, f x = .ok (g x)) → xs.mapM f = .ok (xs.map g)
  | [], _ => rfl
  | x :: xs, h => by
    rw [List.mapM_cons, h x List.mem_cons_self,
      mapM_eq_ok_map fun x' hx' => h x' (List.mem_cons_of_mem _ hx')]
    exact rfl

/-- What a map raises is what one of its elements raises. -/
theorem error_of_mapM {α β : Type} {f : α → Except PyExc β} {exc : PyExc} : ∀ {xs : List α},
    xs.mapM f = .error exc → ∃ x ∈ xs, f x = .error exc
  | [], h => nomatch h
  | x :: xs, h => by
    rw [List.mapM_cons] at h
    cases hx : f x with
    | error exc' =>
      rw [hx] at h
      obtain rfl := Except.error.inj h
      exact ⟨x, List.mem_cons_self, hx⟩
    | ok y =>
      cases hxs : xs.mapM f with
      | error exc' =>
        rw [hx, hxs] at h
        obtain rfl := Except.error.inj h
        obtain ⟨x', hmem, hx'⟩ := error_of_mapM hxs
        exact ⟨x', List.mem_cons_of_mem _ hmem, hx'⟩
      | ok ys =>
        rw [hx, hxs] at h
        nomatch h

/-- A range up to a point and one from there on. -/
theorem pyRange_append {a b c : Int} (hab : a ≤ b) (hbc : b ≤ c) :
    pyRange a b ++ pyRange b c = pyRange a c := by
  obtain ⟨n, rfl⟩ := Int.le.dest hab
  obtain ⟨m, rfl⟩ := Int.le.dest hbc
  have hn : (a + (n : Int) - a).toNat = n := by omega
  have hm : (a + (n : Int) + (m : Int) - (a + (n : Int))).toNat = m := by omega
  have hnm : (a + (n : Int) + (m : Int) - a).toNat = n + m := by omega
  rw [pyRange, pyRange, pyRange, hn, hm, hnm, List.range_add, List.map_append, List.map_map]
  congr 1
  refine List.map_congr_left fun k _ => ?_
  show a + (n : Int) + (k : Int) = a + ((n + k : Nat) : Int)
  omega

/-- A range ends before its second end. -/
theorem mem_pyRange {a b i : Int} : i ∈ pyRange a b ↔ a ≤ i ∧ i < b := by
  rw [pyRange, List.mem_map]
  constructor
  · rintro ⟨k, hk, rfl⟩
    rw [List.mem_range] at hk
    omega
  · rintro ⟨hlo, hhi⟩
    exact ⟨(i - a).toNat, List.mem_range.mpr (by omega), by omega⟩

/-- What a map keeps of every element it keeps of the list. -/
theorem map_eq_of_mapM {α β : Type} {f : α → Except PyExc α} {g : α → β}
    (hf : ∀ x y, f x = .ok y → g y = g x) : ∀ {xs ys : List α}, xs.mapM f = .ok ys →
      ys.map g = xs.map g
  | [], ys, h => by
    obtain rfl := Except.ok.inj h
    exact rfl
  | x :: xs, ys, h => by
    rw [List.mapM_cons] at h
    cases hx : f x with
    | error exc =>
      rw [hx] at h
      nomatch h
    | ok y =>
      cases hxs : xs.mapM f with
      | error exc =>
        rw [hx, hxs] at h
        nomatch h
      | ok ys' =>
        rw [hx, hxs] at h
        obtain rfl := Except.ok.inj h
        rw [List.map_cons, List.map_cons, hf x y hx, map_eq_of_mapM hf hxs]

/-- A loop that gets through has a result for each element. -/
theorem length_of_mapM {α β : Type} {f : α → Except PyExc β} : ∀ {xs : List α} {ys : List β},
    xs.mapM f = .ok ys → ys.length = xs.length
  | [], ys, h => by
    obtain rfl := Except.ok.inj h
    exact rfl
  | x :: xs, ys, h => by
    rw [List.mapM_cons] at h
    cases hx : f x with
    | error exc =>
      rw [hx] at h
      nomatch h
    | ok y =>
      cases hxs : xs.mapM f with
      | error exc =>
        rw [hx, hxs] at h
        nomatch h
      | ok ys' =>
        rw [hx, hxs] at h
        obtain rfl := Except.ok.inj h
        rw [List.length_cons, List.length_cons, length_of_mapM hxs]

theorem filter_range'_eq_nil {p : Nat → Bool} {lo hi : Nat} :
    (List.range' lo (hi - lo)).filter p = [] ↔ ∀ b, lo ≤ b → b < hi → p b = false := by
  rw [List.filter_eq_nil_iff]
  constructor
  · intro h b hlo hhi
    exact eq_false_of_ne_true (h b (List.mem_range'_1.mpr ⟨hlo, by omega⟩))
  · intro h b hb
    obtain ⟨hlo, hhi⟩ := List.mem_range'_1.mp hb
    rw [h b hlo (by omega)]
    exact Bool.false_ne_true

/-- The bounds of a slice are clamped from below. -/
theorem PySlice.le_bound {length : Nat} {lower upper default : Int} (hupper : lower ≤ upper)
    (hdefault : lower ≤ default) (hlower : lower ≤ 0) (i : Option Int) :
    lower ≤ PySlice.bound length lower upper default i := by
  cases i with
  | none => exact hdefault
  | some i =>
    rw [PySlice.bound]
    split <;> omega

/-- An arithmetic progression that does not get below zero. -/
theorem nodup_progression {start step : Int} {n : Nat} (hstep : step ≠ 0)
    (hpos : ∀ k < n, 0 ≤ start + k * step) :
    ((List.range n).map fun k : Nat => (start + k * step).toNat).Nodup := by
  refine List.Nodup.map_on (fun i hi j hj heq => ?_) List.nodup_range
  have hi := hpos i (List.mem_range.mp hi)
  have hj := hpos j (List.mem_range.mp hj)
  have hmul : (i : Int) * step = j * step := by omega
  exact Int.ofNat_inj.mp (Int.eq_of_mul_eq_mul_right hstep hmul)

/-- A slice picks nothing twice. -/
theorem PySlice.nodup_indices {ix : PySlice} {length : Nat} {indices : List Nat}
    (h : ix.indices length = .ok indices) : indices.Nodup := by
  unfold PySlice.indices at h
  simp only at h
  split at h
  · nomatch h
  · rename_i hstep
    obtain rfl := Except.ok.inj h
    generalize ix.step.getD 1 = step at hstep ⊢
    refine nodup_progression hstep fun k hk => ?_
    rcases Int.lt_or_gt_of_ne hstep with hneg | hpos
    · -- down to the end, which is not below -1
      simp only [if_pos hneg] at hk ⊢
      have hstop : -1 ≤ PySlice.bound length (-1) ((length : Int) - 1) (-1) ix.stop :=
        PySlice.le_bound (by omega) (Int.le_refl _) (by omega) _
      generalize PySlice.bound length (-1) ((length : Int) - 1) (-1) ix.stop = stop at hk hstop
      generalize PySlice.bound length (-1) ((length : Int) - 1) ((length : Int) - 1) ix.start = start
        at hk ⊢
      have habs : (step.natAbs : Int) = -step := by omega
      have hcount : (k : Int) + 1 ≤ (start - stop + (step.natAbs - 1)) / step.natAbs := by omega
      have hmul := (Int.le_ediv_iff_mul_le (by omega)).mp hcount
      rw [habs, Int.mul_neg, Int.add_mul] at hmul
      omega
    · have hnot : ¬ step < 0 := by omega
      simp only [if_neg hnot]
      have hstart : 0 ≤ PySlice.bound length 0 length 0 ix.start :=
        PySlice.le_bound (by omega) (Int.le_refl _) (Int.le_refl _) _
      exact Int.add_nonneg hstart (Int.mul_nonneg (by omega) (by omega))

theorem pyRange_self (a : Int) : pyRange a a = [] := by simp [pyRange]

/-- A range with an element starts with its start. -/
theorem head?_pyRange {a b : Int} (h : a < b) : (pyRange a b).head? = some a := by
  obtain ⟨n, hn⟩ : ∃ n, (b - a).toNat = n + 1 := ⟨(b - a).toNat - 1, by omega⟩
  rw [pyRange, hn, List.range_succ_eq_map, List.map_cons]
  simp

/-- `ceil(n / d)` pages of size `d` cover `n` tokens, and one page less does not. -/
theorem le_ceilDiv_mul {d : Nat} (hd : 0 < d) (n : Nat) : n ≤ (n + d - 1) / d * d := by
  have hdiv := Nat.div_add_mod' (n + d - 1) d
  have hmod := Nat.mod_lt (n + d - 1) hd
  omega

/-- What is before a quotient that is rounded up. -/
theorem lt_ceilDiv_iff {d : Nat} (hd : 0 < d) (n k : Nat) : k < (n + d - 1) / d ↔ k * d < n := by
  rw [Nat.lt_iff_add_one_le, Nat.le_div_iff_mul_le hd, Nat.succ_mul]
  omega

theorem pyRangeStep_ne_nil {stop step : Nat} (hstop : 0 < stop) (hstep : 0 < step) :
    pyRangeStep stop step ≠ [] := by
  have hpos := (lt_ceilDiv_iff hstep stop 0).mpr (by omega)
  rw [pyRangeStep, Ne, List.range'_eq_nil_iff]
  omega

/-- One step is enough if it is as long as the range. -/
theorem pyRangeStep_of_le {stop step : Nat} (hstop : 0 < stop) (hle : stop ≤ step) :
    pyRangeStep stop step = [0] := by
  have hone : (stop + step - 1) / step = 1 :=
    Nat.div_eq_of_lt_le (by omega) (by omega)
  rw [pyRangeStep, hone]
  rfl

/-- The ceiling division of naturals. -/
theorem pyCeilDiv_natCast {n d : Nat} (hd : 0 < d) :
    pyCeilDiv (n : Int) d = ((n + d - 1) / d : Nat) := by
  have h : (-(n : Int)) / (d : Int) = -(((n + d - 1) / d : Nat) : Int) := by
    rw [Int.ediv_eq_iff_of_pos (by omega)]
    have hdiv := Nat.div_add_mod (n + d - 1) d
    have hmod := Nat.mod_lt (n + d - 1) hd
    generalize (n + d - 1) / d = q at hdiv ⊢
    generalize (n + d - 1) % d = r at hdiv hmod
    have hq : ((d * q : Nat) : Int) = (n : Int) + d - 1 - r := by omega
    push_cast at hq
    rw [Int.neg_mul, Int.mul_comm (q : Int)]
    omega
  rw [pyCeilDiv, h]
  omega

/-! ## Sorting -/

section Sorted

variable {κ : Type} [LinearOrder κ]

/-- `sorted(keys)`. -/
def pySorted (keys : List κ) : List κ := keys.insertionSort (· ≤ ·)

/-- To sort is to permute. -/
theorem perm_pySorted (keys : List κ) : (pySorted keys).Perm keys := List.perm_insertionSort _ keys

/-- `sorted` depends on the elements only, not on the order they come in. -/
theorem pySorted_eq_of_perm {keys keys' : List κ} (h : keys.Perm keys') :
    pySorted keys = pySorted keys' := by
  have hperm : (pySorted keys).Perm (pySorted keys') :=
    ((perm_pySorted keys).trans h).trans (perm_pySorted keys').symm
  exact hperm.eq_of_pairwise' (List.pairwise_insertionSort _ keys)
    (List.pairwise_insertionSort _ keys')

/-- The same keys are sorted to the same list, in whatever order they come. -/
theorem pySorted_congr {keys keys' : List κ} (hkeys : keys.Nodup) (hkeys' : keys'.Nodup)
    (h : ∀ k, k ∈ keys ↔ k ∈ keys') : pySorted keys = pySorted keys' :=
  pySorted_eq_of_perm ((List.perm_ext_iff_of_nodup hkeys hkeys').mpr h)

theorem mem_pySorted {k : κ} {keys : List κ} : k ∈ pySorted keys ↔ k ∈ keys :=
  (perm_pySorted keys).mem_iff

end Sorted

end Drift
