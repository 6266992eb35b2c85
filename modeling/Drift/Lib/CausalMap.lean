/-
  Causal maps of streams, and the words that a causal generator writes.

  What a causal map puts at a position depends on the input up to there, so it is given by a
  function of prefixes (`causalMap`).  Such maps commute with cutting a stream (`take_causalMap`),
  and so do layers of them (`layers`); the first layers and the others behind them are all layers
  (`layers_trans`).

  A generator extends a word by one letter that depends on the whole word.  `Follows` says that
  every letter of an extension is the generator's, and `writeUntil` lets it write until the word
  stops.
-/
import Mathlib.Data.List.Basic
import Mathlib.Data.List.Range

namespace Drift

variable {α β : Type}

/-- The map that puts `f` of the input so far at every position. -/
def causalMap (f : List α → β) (xs : List α) : List β :=
  (List.range xs.length).map fun j => f (xs.take (j + 1))

@[simp] theorem length_causalMap (f : List α → β) (xs : List α) :
    (causalMap f xs).length = xs.length := by
  simp [causalMap]

theorem getElem_causalMap {f : List α → β} {xs : List α} {j : Nat}
    (hj : j < (causalMap f xs).length) : (causalMap f xs)[j] = f (xs.take (j + 1)) := by
  simp [causalMap]

/-- **Causality**: the first outputs are those of the first inputs. -/
theorem take_causalMap (f : List α → β) (xs : List α) (n : Nat) :
    (causalMap f xs).take n = causalMap f (xs.take n) := by
  refine List.ext_getElem (by simp) fun j hj hj' => ?_
  have hlt : j < n := by
    rw [List.length_take] at hj
    omega
  rw [List.getElem_take, getElem_causalMap, getElem_causalMap, List.take_take]
  congr 2
  omega

/-- What commutes with the generator commutes with its causal map. -/
theorem causalMap_map {f : List α → α} {g : α → α} {xs : List α}
    (h : ∀ n < xs.length, f ((xs.take (n + 1)).map g) = g (f (xs.take (n + 1)))) :
    causalMap f (xs.map g) = (causalMap f xs).map g := by
  refine List.ext_getElem (by simp) fun j hj hj' => ?_
  have hlt : j < xs.length := by simpa using hj
  rw [getElem_causalMap, List.getElem_map, getElem_causalMap, ← List.map_take]
  exact h j hlt

/-! ## Layers -/

/-- The causal maps of the layers `[start, stop)`, one after the other. -/
def layers (f : Nat → List α → α) (start stop : Nat) (xs : List α) : List α :=
  (List.range' start (stop - start)).foldl (fun xs i => causalMap (f i) xs) xs

section Layers

variable (f : Nat → List α → α)

theorem layers_self (i : Nat) (xs : List α) : layers f i i xs = xs := by
  simp [layers]

@[simp] theorem layers_nil (start stop : Nat) : layers f start stop [] = [] := by
  unfold layers
  induction List.range' start (stop - start) with
  | nil => rfl
  | cons i is ih => exact ih

/-- The first layer, and the others behind it. -/
theorem layers_succ (start n : Nat) (xs : List α) :
    layers f start (start + n + 1) xs
      = layers f (start + 1) (start + n + 1) (causalMap (f start) xs) := by
  have hall : start + n + 1 - start = n + 1 := by omega
  have hrest : start + n + 1 - (start + 1) = n := by omega
  rw [layers, layers, hall, hrest, List.range'_succ, List.foldl_cons]

theorem layers_trans {start mid stop : Nat} (hmid : start ≤ mid) (hstop : mid ≤ stop)
    (xs : List α) : layers f mid stop (layers f start mid xs) = layers f start stop xs := by
  have hcount : stop - start = (mid - start) + (stop - mid) := by omega
  have hmiddle : start + 1 * (mid - start) = mid := by omega
  rw [layers, layers, layers, hcount, ← List.range'_append, List.foldl_append, hmiddle]

theorem foldl_causalMap_length (is : List Nat) : ∀ xs : List α,
    (is.foldl (fun xs i => causalMap (f i) xs) xs).length = xs.length := by
  induction is with
  | nil => exact fun _ => rfl
  | cons i is ih =>
    intro xs
    rw [List.foldl_cons, ih, length_causalMap]

@[simp] theorem length_layers (start stop : Nat) (xs : List α) :
    (layers f start stop xs).length = xs.length := foldl_causalMap_length f _ xs

theorem foldl_causalMap_take (is : List Nat) (n : Nat) : ∀ xs : List α,
    (is.foldl (fun xs i => causalMap (f i) xs) xs).take n
      = is.foldl (fun xs i => causalMap (f i) xs) (xs.take n) := by
  induction is with
  | nil => exact fun _ => rfl
  | cons i is ih =>
    intro xs
    rw [List.foldl_cons, List.foldl_cons, ih, take_causalMap]

theorem take_layers (start stop n : Nat) (xs : List α) :
    (layers f start stop xs).take n = layers f start stop (xs.take n) :=
  foldl_causalMap_take f _ n xs

/-- The outputs of a longer stream continue those of the shorter one. -/
theorem layers_append (start stop : Nat) (xs ys : List α) :
    layers f start stop (xs ++ ys)
      = layers f start stop xs ++ (layers f start stop (xs ++ ys)).drop xs.length := by
  have htake := take_layers f start stop xs.length (xs ++ ys)
  rw [List.take_left] at htake
  rw [← htake, List.take_append_drop]

/-- The output at a position is the last output of the inputs up to there. -/
theorem getLast?_layers_take (start stop : Nat) {xs : List α} {j : Nat} (hj : j < xs.length) :
    (layers f start stop (xs.take (j + 1))).getLast? = (layers f start stop xs)[j]? := by
  rw [← take_layers, List.getLast?_eq_getElem?, List.length_take, length_layers,
    Nat.min_eq_left hj]
  exact List.getElem?_take_of_lt (Nat.lt_succ_self j)

/-- What all inputs have and every layer keeps, all outputs have. -/
theorem forall_layers {P : α → Prop} (hf : ∀ i xs, xs ≠ [] → (∀ x ∈ xs, P x) → P (f i xs))
    (start stop : Nat) : ∀ {xs : List α}, (∀ x ∈ xs, P x) → ∀ x ∈ layers f start stop xs, P x := by
  unfold layers
  induction List.range' start (stop - start) with
  | nil => exact fun h => h
  | cons i is ih =>
    intro xs h
    refine ih fun x hx => ?_
    obtain ⟨j, hj, rfl⟩ := List.getElem_of_mem hx
    rw [getElem_causalMap]
    rw [length_causalMap] at hj
    refine hf i _ (List.ne_nil_of_length_pos ?_) fun x hx => h x (List.mem_of_mem_take hx)
    rw [List.length_take]
    omega

/-- What commutes with every layer commutes with all of them. -/
theorem layers_map {Q : List α → Prop} {g : α → α} (hQ : ∀ i xs, Q xs → Q (causalMap (f i) xs))
    (h : ∀ i xs, Q xs → causalMap (f i) (xs.map g) = (causalMap (f i) xs).map g)
    (start stop : Nat) : ∀ {xs : List α}, Q xs →
      layers f start stop (xs.map g) = (layers f start stop xs).map g := by
  unfold layers
  induction List.range' start (stop - start) with
  | nil => exact fun _ => rfl
  | cons i is ih =>
    intro xs hxs
    rw [List.foldl_cons, List.foldl_cons, h i xs hxs]
    exact ih (hQ i xs hxs)

end Layers

/-! ## Words of a generator -/

/-- Every letter of `ys` is what `next` writes behind the letters before it. -/
def Follows (next : List α → α) (xs ys : List α) : Prop :=
  ∀ j (h : j < ys.length), ys[j] = next (xs ++ ys.take j)

theorem follows_nil (next : List α → α) (xs : List α) : Follows next xs [] :=
  fun _ h => absurd h (Nat.not_lt_zero _)

theorem follows_cons {next : List α → α} {xs ys : List α} {y : α} :
    Follows next xs (y :: ys) ↔ y = next xs ∧ Follows next (xs ++ [y]) ys := by
  constructor
  · intro h
    refine ⟨?_, fun j hj => ?_⟩
    · have hfirst := h 0 (Nat.succ_pos _)
      simpa using hfirst
    · have hletter := h (j + 1) (Nat.succ_lt_succ hj)
      simpa using hletter
  · rintro ⟨rfl, h⟩ j hj
    cases j with
    | zero => simp
    | succ j =>
      have hletter := h j (Nat.lt_of_succ_lt_succ hj)
      simpa using hletter

/-- A beginning of an extension, letter by letter. -/
theorem follows_take_iff {next : List α → α} {xs ys : List α} {n : Nat} (hn : n ≤ ys.length) :
    Follows next xs (ys.take n) ↔ ∀ j < n, ys[j]? = some (next (xs ++ ys.take j)) := by
  have hlength : (ys.take n).length = n := by
    rw [List.length_take, Nat.min_eq_left hn]
  constructor
  · intro h j hj
    have hletter := h j (hlength.symm ▸ hj)
    rw [List.getElem_take, List.take_take, Nat.min_eq_left (Nat.le_of_lt hj)] at hletter
    rw [List.getElem?_eq_getElem (Nat.lt_of_lt_of_le hj hn), hletter]
  · intro h j hj
    rw [hlength] at hj
    have hletter := h j hj
    rw [List.getElem?_eq_getElem (Nat.lt_of_lt_of_le hj hn)] at hletter
    rw [List.getElem_take, List.take_take, Nat.min_eq_left (Nat.le_of_lt hj)]
    exact Option.some.inj hletter

theorem Follows.take {next : List α → α} {xs ys : List α} (h : Follows next xs ys) (n : Nat) :
    Follows next xs (ys.take n) := by
  intro j hj
  rw [List.length_take] at hj
  have hletter := h j (by omega)
  rw [List.getElem_take, List.take_take, Nat.min_eq_left (by omega)]
  exact hletter

theorem follows_append {next : List α → α} {xs ys zs : List α} :
    Follows next xs (ys ++ zs) ↔ Follows next xs ys ∧ Follows next (xs ++ ys) zs := by
  induction ys generalizing xs with
  | nil => simp [follows_nil]
  | cons y ys ih =>
    rw [List.cons_append, follows_cons, follows_cons, ih, List.append_assoc, List.singleton_append,
      and_assoc]

/-! ## Words that stop -/

section Stopping

variable (next : List α → α) (stop : List α → Bool)

/-- The generator writes one letter after the other, one at least, until the word stops. -/
def writeUntil : Nat → List α → List α
  | 0, xs => xs
  | fuel + 1, xs =>
    let xs := xs ++ [next xs]
    if stop xs then xs else writeUntil fuel xs

/-- No beginning of the extension stops. -/
def GoesOn (xs ys : List α) : Prop :=
  ∀ j, 0 < j → j < ys.length → stop (xs ++ ys.take j) = false

variable {next stop}

theorem goesOn_append {xs ys zs : List α} (hys : ys ≠ []) (hzs : zs ≠ []) :
    GoesOn stop xs (ys ++ zs) ↔
      GoesOn stop xs ys ∧ stop (xs ++ ys) = false ∧ GoesOn stop (xs ++ ys) zs := by
  have hpos := List.length_pos_iff.mpr hys
  have hpos' := List.length_pos_iff.mpr hzs
  constructor
  · intro h
    refine ⟨fun j hj hlt => ?_, ?_, fun j hj hlt => ?_⟩
    · have hgoes := h j hj (by rw [List.length_append]; omega)
      rw [List.take_append_of_le_length (Nat.le_of_lt hlt)] at hgoes
      exact hgoes
    · have hgoes := h ys.length hpos (by rw [List.length_append]; omega)
      rw [List.take_left] at hgoes
      exact hgoes
    · have hgoes := h (ys.length + j) (by omega) (by rw [List.length_append]; omega)
      rw [List.take_length_add_append, ← List.append_assoc] at hgoes
      exact hgoes
  · rintro ⟨hfirst, hmiddle, hrest⟩ j hj hlt
    rw [List.length_append] at hlt
    rcases Nat.lt_trichotomy j ys.length with hless | rfl | hmore
    · rw [List.take_append_of_le_length (Nat.le_of_lt hless)]
      exact hfirst j hj hless
    · rw [List.take_left]
      exact hmiddle
    · obtain ⟨i, rfl⟩ := Nat.exists_eq_add_of_lt hmore
      rw [Nat.add_assoc, List.take_length_add_append, ← List.append_assoc]
      exact hrest (i + 1) (Nat.succ_pos i) (by omega)

/-- An extension that stops, and no beginning of it does: the generator writes this one. -/
theorem writeUntil_eq : ∀ {fuel : Nat} {xs ys : List α}, ys ≠ [] → Follows next xs ys →
    stop (xs ++ ys) = true → GoesOn stop xs ys → ys.length ≤ fuel →
    writeUntil next stop fuel xs = xs ++ ys := by
  intro fuel
  induction fuel with
  | zero =>
    intro xs ys hne _ _ _ hfuel
    exact absurd (List.length_eq_zero_iff.mp (Nat.le_zero.mp hfuel)) hne
  | succ fuel ih =>
    intro xs ys hne hfollows hstop hfirst hfuel
    obtain ⟨y, rest, rfl⟩ := List.exists_cons_of_ne_nil hne
    obtain ⟨rfl, hrest⟩ := follows_cons.mp hfollows
    have hsplit : xs ++ next xs :: rest = xs ++ [next xs] ++ rest := List.append_cons _ _ _
    rw [writeUntil]
    by_cases hnil : rest = []
    · subst hnil
      exact if_pos hstop
    · have hpos := List.length_pos_iff.mpr hnil
      have hgoes : stop (xs ++ [next xs]) = false :=
        hfirst 1 Nat.zero_lt_one (Nat.succ_lt_succ hpos)
      simp only [hgoes, Bool.false_eq_true, if_false]
      rw [hsplit]
      refine ih hnil hrest (hsplit ▸ hstop) (fun j hj hlt => ?_) (Nat.le_of_succ_le_succ hfuel)
      have hj := hfirst (j + 1) (Nat.succ_pos j) (Nat.succ_lt_succ hlt)
      rw [List.take_succ_cons, List.append_cons] at hj
      exact hj

/-- The generator does not write past a beginning that stops. -/
theorem length_writeUntil_le : ∀ {j fuel : Nat} {xs ys : List α}, Follows next xs ys → 0 < j →
    j ≤ ys.length → stop (xs ++ ys.take j) = true →
    (writeUntil next stop fuel xs).length ≤ xs.length + j := by
  intro j fuel
  induction fuel generalizing j with
  | zero => exact fun _ _ _ _ => Nat.le_add_right _ _
  | succ fuel ih =>
    intro xs ys hfollows hj hle hstop
    obtain ⟨y, rest, rfl⟩ := List.exists_cons_of_ne_nil
      (List.ne_nil_of_length_pos (Nat.lt_of_lt_of_le hj hle))
    obtain ⟨rfl, hrest⟩ := follows_cons.mp hfollows
    rw [writeUntil]
    split
    · rw [List.length_append, List.length_singleton]
      omega
    · rename_i hgoes
      obtain ⟨j, rfl⟩ := Nat.exists_eq_succ_of_ne_zero (Nat.pos_iff_ne_zero.mp hj)
      rw [List.take_succ_cons, List.append_cons] at hstop
      have hmore : 0 < j := by
        refine Nat.pos_of_ne_zero fun hzero => hgoes ?_
        rw [hzero, List.take_zero, List.append_nil] at hstop
        exact hstop
      have hbound := ih hrest hmore (Nat.le_of_succ_le_succ hle) hstop
      rw [List.length_append, List.length_singleton] at hbound
      omega

end Stopping

end Drift
