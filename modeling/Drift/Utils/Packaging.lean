/-
  `utils/packaging.py`: positional arguments as a list of different tensors and a structure that
  says which of them stands where.

  All callers pass tensors only and no keyword arguments, so the structure is the list of the
  indices that `_mark_masked_tensor` writes.  Two arguments are the same tensor if they are the same
  object, so an argument is an object with its `id`.

  Unpacking with the structure of the same call gives the arguments back (`unpackArgs_packArgs`);
  with the structure of another call that packed different objects, it does so exactly when the two
  calls have as many arguments (`unpackArgs_range_iff`).
-/
import Drift.Lib.Effect
import Drift.Python
import Mathlib.Data.List.Range
import Mathlib.Data.List.Nodup

namespace Drift

/-- A tensor object. -/
structure TensorObject (τ : Type) where
  id : Nat
  tensor : τ

variable {τ : Type}

/-- The number that `setdefault(value, len(flat_tensors))` returns. -/
def tensorIndex (flatTensors : List (TensorObject τ)) (value : TensorObject τ) : Nat :=
  (flatTensors.map TensorObject.id).idxOf value.id

/-- `flat_tensors` after this argument. -/
def appendNew (flatTensors : List (TensorObject τ)) (value : TensorObject τ) :
    List (TensorObject τ) :=
  if tensorIndex flatTensors value = flatTensors.length then flatTensors ++ [value]
  else flatTensors

/-- The loop of `pack_args_kwargs`. -/
def packLoop : List (TensorObject τ) → List (TensorObject τ) → List (TensorObject τ) × List Nat
  | flatTensors, [] => (flatTensors, [])
  | flatTensors, value :: args =>
    let rest := packLoop (appendNew flatTensors value) args
    (rest.1, tensorIndex flatTensors value :: rest.2)

/-- `pack_args_kwargs`. -/
def packArgs (args : List (TensorObject τ)) : List (TensorObject τ) × List Nat := packLoop [] args

/-- `unpack_args_kwargs`. -/
def unpackArgs {β : Type} (flatTensors : List β) : List Nat → Except PyExc (List β)
  | [] => .ok []
  | index :: argsStructure => do
    let value ← orRaise .indexError flatTensors[index]?
    let args ← unpackArgs flatTensors argsStructure
    .ok (value :: args)

/-- Objects with one `id` are one object. -/
def OneObject (args : List (TensorObject τ)) : Prop :=
  ∀ a ∈ args, ∀ b ∈ args, a.id = b.id → a = b

theorem prefix_appendNew (flatTensors : List (TensorObject τ)) (value : TensorObject τ) :
    flatTensors <+: appendNew flatTensors value := by
  unfold appendNew
  split
  · exact List.prefix_append _ _
  · exact List.prefix_rfl

/-- The flat list only grows. -/
theorem packLoop_prefix : ∀ (args flatTensors : List (TensorObject τ)),
    flatTensors <+: (packLoop flatTensors args).1 := by
  intro args
  induction args with
  | nil => exact fun flatTensors => List.prefix_rfl
  | cons value args ih =>
    intro flatTensors
    show flatTensors <+: (packLoop (appendNew flatTensors value) args).1
    exact (prefix_appendNew flatTensors value).trans (ih _)

/-- Where a tensor is put, it is found. -/
theorem getElem?_tensorIndex (flatTensors : List (TensorObject τ)) (value : TensorObject τ)
    (hone : ∀ a ∈ flatTensors, a.id = value.id → a = value) :
    (appendNew flatTensors value)[tensorIndex flatTensors value]? = some value := by
  unfold appendNew
  split
  · rename_i hnew
    rw [hnew, List.getElem?_append_right (Nat.le_refl _), Nat.sub_self]
    rfl
  · rename_i hold
    have hle : tensorIndex flatTensors value ≤ (flatTensors.map TensorObject.id).length :=
      List.idxOf_le_length
    rw [List.length_map] at hle
    have hlt := Nat.lt_of_le_of_ne hle hold
    have hltIds : tensorIndex flatTensors value < (flatTensors.map TensorObject.id).length := by
      rw [List.length_map]
      exact hlt
    have hid : (flatTensors.map TensorObject.id)[tensorIndex flatTensors value] = value.id :=
      List.getElem_idxOf hltIds
    rw [List.getElem_map] at hid
    rw [List.getElem?_eq_getElem hlt, hone _ (List.getElem_mem hlt) hid]

theorem mem_appendNew {flatTensors : List (TensorObject τ)} {value a : TensorObject τ}
    (h : a ∈ appendNew flatTensors value) : a ∈ flatTensors ∨ a = value := by
  unfold appendNew at h
  split at h
  · simpa using h
  · exact Or.inl h

/-- An argument that has the id of a tensor in the list is that tensor. -/
theorem OneObject.eq_of_id {flatTensors args : List (TensorObject τ)} {value : TensorObject τ}
    (hone : OneObject (flatTensors ++ value :: args)) :
    ∀ a ∈ flatTensors, a.id = value.id → a = value := fun a ha hid =>
  hone a (List.mem_append_left _ ha) value (List.mem_append_right _ List.mem_cons_self) hid

/-- One turn of the loop takes an argument to the list, if it is not there. -/
theorem mem_appendNew_append {flatTensors args : List (TensorObject τ)} {value : TensorObject τ}
    (hone : OneObject (flatTensors ++ value :: args)) (a : TensorObject τ) :
    a ∈ appendNew flatTensors value ++ args ↔ a ∈ flatTensors ++ value :: args := by
  have hfound := List.mem_of_getElem? (getElem?_tensorIndex flatTensors value hone.eq_of_id)
  rw [List.mem_append, List.mem_append, List.mem_cons]
  constructor
  · rintro (ha | ha)
    · exact (mem_appendNew ha).imp_right Or.inl
    · exact Or.inr (Or.inr ha)
  · rintro (ha | rfl | ha)
    · exact Or.inl ((prefix_appendNew flatTensors value).subset ha)
    · exact Or.inl hfound
    · exact Or.inr ha

theorem OneObject.appendNew {flatTensors args : List (TensorObject τ)} {value : TensorObject τ}
    (hone : OneObject (flatTensors ++ value :: args)) :
    OneObject (Drift.appendNew flatTensors value ++ args) := fun a ha b hb =>
  hone a ((mem_appendNew_append hone a).mp ha) b ((mem_appendNew_append hone b).mp hb)

/-- **Every object is packed**, and nothing else. -/
theorem mem_packLoop {a : TensorObject τ} : ∀ (args flatTensors : List (TensorObject τ)),
    OneObject (flatTensors ++ args) →
    (a ∈ (packLoop flatTensors args).1 ↔ a ∈ flatTensors ++ args) := by
  intro args
  induction args with
  | nil =>
    intro flatTensors _
    rw [List.append_nil]
    rfl
  | cons value args ih =>
    intro flatTensors hone
    rw [← mem_appendNew_append hone]
    exact ih (appendNew flatTensors value) hone.appendNew

/-- No object is packed twice. -/
theorem nodup_packLoop : ∀ (args flatTensors : List (TensorObject τ)),
    (flatTensors.map TensorObject.id).Nodup →
    ((packLoop flatTensors args).1.map TensorObject.id).Nodup := by
  intro args
  induction args with
  | nil => exact fun _ h => h
  | cons value args ih =>
    intro flatTensors hnodup
    refine ih (appendNew flatTensors value) ?_
    unfold appendNew
    split
    · rename_i hnew
      have hnotin : value.id ∉ flatTensors.map TensorObject.id := by
        intro hmem
        have hlt := List.idxOf_lt_length_of_mem hmem
        rw [List.length_map] at hlt
        exact absurd hnew (Nat.ne_of_lt hlt)
      rw [List.map_append, List.map_singleton]
      exact List.nodup_append_comm.mp (List.nodup_cons.mpr ⟨hnotin, hnodup⟩)
    · exact hnodup

theorem unpackArgs_packLoop : ∀ (args flatTensors : List (TensorObject τ)),
    OneObject (flatTensors ++ args) →
    unpackArgs (packLoop flatTensors args).1 (packLoop flatTensors args).2 = .ok args := by
  intro args
  induction args with
  | nil => exact fun _ _ => rfl
  | cons value args ih =>
    intro flatTensors hone
    have hindex := getElem?_tensorIndex flatTensors value hone.eq_of_id
    obtain ⟨hlt, -⟩ := List.getElem?_eq_some_iff.mp hindex
    obtain ⟨suffix, hsuffix⟩ := packLoop_prefix args (appendNew flatTensors value)
    have hrest := ih (appendNew flatTensors value) hone.appendNew
    rw [packLoop, unpackArgs]
    simp only
    rw [hrest, ← hsuffix, List.getElem?_append_left hlt, hindex]
    rfl

/-- **Packing is undone** by unpacking with the structure of the same call. -/
theorem unpackArgs_packArgs {args : List (TensorObject τ)} (hone : OneObject args) :
    unpackArgs (packArgs args).1 (packArgs args).2 = .ok args := unpackArgs_packLoop args [] hone

theorem packLoop_of_nodup : ∀ (args flatTensors : List (TensorObject τ)),
    ((flatTensors ++ args).map TensorObject.id).Nodup →
    packLoop flatTensors args
      = (flatTensors ++ args, List.range' flatTensors.length args.length) := by
  intro args
  induction args with
  | nil =>
    intro flatTensors _
    rw [packLoop, List.append_nil]
    rfl
  | cons value args ih =>
    intro flatTensors hnodup
    have hmem : value.id ∉ flatTensors.map TensorObject.id := by
      intro h
      rw [List.map_append] at hnodup
      exact (List.nodup_append.mp hnodup).2.2 _ h _ List.mem_cons_self rfl
    have hindex : tensorIndex flatTensors value = flatTensors.length := by
      rw [tensorIndex, List.idxOf_eq_length hmem, List.length_map]
    rw [List.append_cons] at hnodup
    have hrest := ih (flatTensors ++ [value]) hnodup
    simp only [packLoop, appendNew, hindex, if_true, hrest]
    rw [List.append_assoc, List.length_append]
    rfl

/-- Different tensors stand where they were passed. -/
theorem packArgs_of_nodup {args : List (TensorObject τ)}
    (h : (args.map TensorObject.id).Nodup) : packArgs args = (args, List.range args.length) := by
  rw [packArgs, packLoop_of_nodup args [] h, List.range_eq_range']
  rfl

section Range

variable {β : Type} (args : List β)

theorem unpackArgs_range' : ∀ (n k : Nat), k + n ≤ args.length →
    unpackArgs args (List.range' k n) = .ok ((args.drop k).take n) := by
  intro n
  induction n with
  | zero =>
    intro k _
    rw [List.take_zero]
    rfl
  | succ n ih =>
    intro k hk
    have hlt : k < args.length := by omega
    rw [List.range'_succ, unpackArgs, ih (k + 1) (by omega), List.getElem?_eq_getElem hlt,
      List.drop_eq_getElem_cons hlt]
    rfl

theorem unpackArgs_range'_error : ∀ (n k : Nat), args.length < k + n → 0 < n → k ≤ args.length →
    unpackArgs args (List.range' k n) = .error .indexError := by
  intro n
  induction n with
  | zero => exact fun k _ hn => absurd hn (Nat.lt_irrefl 0)
  | succ n ih =>
    intro k hlen _ hk
    rw [List.range'_succ, unpackArgs]
    rcases Nat.lt_or_ge k args.length with hlt | hge
    · rw [List.getElem?_eq_getElem hlt, ih (k + 1) (by omega) (by omega) (by omega)]
      rfl
    · rw [List.getElem?_eq_none hge]
      rfl

/-- **Another structure**: of a call with `n` different tensors. -/
theorem unpackArgs_range_iff (n : Nat) :
    unpackArgs args (List.range n) = .ok args ↔ n = args.length := by
  rw [List.range_eq_range']
  rcases Nat.lt_trichotomy n args.length with hlt | rfl | hgt
  · rw [unpackArgs_range' args n 0 (by omega), List.drop_zero]
    constructor
    · intro h
      have hlen := congrArg List.length (Except.ok.inj h)
      rw [List.length_take] at hlen
      omega
    · omega
  · rw [unpackArgs_range' args args.length 0 (by omega), List.drop_zero, List.take_length]
    exact ⟨fun _ => rfl, fun _ => rfl⟩
  · rw [unpackArgs_range'_error args n 0 (by omega) (by omega) (Nat.zero_le _)]
    constructor
    · intro h
      nomatch h
    · omega

end Range

end Drift
