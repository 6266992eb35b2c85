/-
  `load_pretrained_block` of `server/from_pretrained.py`: the weights of one block, from a
  checkpoint that may be cut into files.

  The index of a checkpoint says in which file each tensor is.  The files that have tensors of the
  block are read in the order in which a set is iterated, which is any order, each from the cache
  or, if that fails, from the hub, as often as it takes.  Whatever their format, only the tensors
  under the prefix of the block are kept, without the prefix.

  So the tensors that are loaded are those of the checkpoint, and it does not show how they are cut,
  in which format they are, in which order they are read or what failed on the way.  If every
  parameter of the block is among them under its own name, they are assigned as they are; otherwise
  they are converted first, and a parameter that is still missing is an error (`load_block_exact`).
  The dot at the end of the prefix matters: the prefix of block 1 is none of a tensor of block 10
  (`blockPrefix_inj`).

  The hub and the cache are what they answer; the checks of the disk space only can make an answer
  an exception.  The conversion of a block whose tensors have other names is an argument, and so is
  what the tensors themselves do: how their data type is shown, and `to`.
-/
import Drift.Lib.Effect
import Drift.Lib.Text
import Drift.Python
import Mathlib.Data.List.AList
import Mathlib.Data.List.Dedup

namespace Drift

/-! ## The source -/

/-- `StateDict`. -/
abbrev StateDict (T : Type) := AList fun _ : Text => T

/-- The local path of a file with what it contains, or no file. -/
abbrev FileRead (T : Type) := Except PyExc (Option (Text × StateDict T))

/-- What the attempts at a file meet: the cache, and then the hub. -/
structure FileMeets (T : Type) where
  cached : FileRead T
  downloads : List (FileRead T)

/-- The weights of a model, by what the cache and the hub answer: whether a file is in the cache,
    whether it is in the repository, and the index. -/
structure WeightsRepo (T : Type) where
  modelName : String
  /-- The index as an f-string shows it. -/
  shownIndex : (AList fun _ : Text => Text) → String
  isCached : Text → Bool
  isInRepo : Text → Except PyExc Bool
  weightMap : Text → Except PyExc (Option (AList fun _ : Text => Text))
  meets : Text → FileMeets T

variable {T : Type}

/-- `path.endswith(suffix)`. -/
def endswith (path suffix : Text) : Bool := suffix.isSuffixOf path

/-- `INDEX_FILES`. -/
def indexFiles : List Text :=
  ["model.safetensors.index.json".toList, "model.safetensors".toList,
    "pytorch_model.bin.index.json".toList, "pytorch_model.bin".toList]

/-- A block on the meta device: the names of its tensors, and the values that it is made with. -/
structure MetaBlock (T : Type) where
  parameters : List Text
  buffers : List Text
  values : StateDict T

/-- What the tensors do: `str(param.dtype)` and `param.to(torch_dtype)`. -/
structure TensorOps (T : Type) where
  shownDtype : T → Text
  toTorchDtype : T → T

/-- A tensor as it is assigned.  Integers and truth values keep their data type. -/
def TensorOps.cast (ops : TensorOps T) (param : T) : T :=
  if ["torch.uint", "torch.int", "torch.bool"].any fun kind =>
      kind.toList.isPrefixOf (ops.shownDtype param) then param
  else ops.toTorchDtype param

/-- The body of the loop over the parameters. -/
def setParameter (ops : TensorOps T) (stateDict values : StateDict T) (name : Text) :
    Except PyExc (StateDict T) :=
  let shown := String.ofList name
  match stateDict.lookup name with
  | none => .error (.assertionError s!"{shown} not in state dict")
  | some param => .ok (values.insert name (ops.cast param))

/-- The body of the loop over the buffers. -/
def setBuffer (ops : TensorOps T) (stateDict values : StateDict T) (name : Text) : StateDict T :=
  match stateDict.lookup name with
  | none => values
  | some buffer => values.insert name (ops.cast buffer)

/-- `_needs_conversion`. -/
def MetaBlock.needsConversion (module : MetaBlock T) (stateDict : StateDict T) : Bool :=
  module.parameters.any fun name => (stateDict.lookup name).isNone

/-- `maybe_convert_block_state_dict`, where `convert` applies the mapping of the model. -/
def MetaBlock.maybeConvert (module : MetaBlock T) (convert : StateDict T → StateDict T)
    (stateDict : StateDict T) : StateDict T :=
  if module.needsConversion stateDict then convert stateDict else stateDict

/-- The second half of `load_pretrained_block`. -/
def MetaBlock.assign (module : MetaBlock T) (convert : StateDict T → StateDict T)
    (ops : TensorOps T) (stateDict : StateDict T) : Except PyExc (StateDict T) := do
  let stateDict := module.maybeConvert convert stateDict
  let values ← module.parameters.foldlM (setParameter ops stateDict) module.values
  .ok (module.buffers.foldl (setBuffer ops stateDict) values)

/-- `f"{config.block_prefix}.{block_index}."`. -/
def blockPrefix (configPrefix : Text) (blockIndex : Nat) : Text :=
  configPrefix ++ '.' :: Nat.toDigits 10 blockIndex ++ ['.']

/-- **No tensor is in two blocks.**  The digits end where the dot is. -/
theorem blockPrefix_inj {configPrefix name name' : Text} {i j : Nat}
    (h : blockPrefix configPrefix i ++ name = blockPrefix configPrefix j ++ name') : i = j := by
  have hdigits : ∀ n : Nat, ∀ c ∈ Nat.toDigits 10 n, (c != '.') = true := by
    intro n c hc
    have hdigit := Nat.isDigit_of_mem_toDigits (by decide) (by decide) hc
    rw [bne_iff_ne]
    rintro rfl
    exact absurd hdigit (by decide)
  have hcut : ∀ (n : Nat) (rest : Text),
      (Nat.toDigits 10 n ++ '.' :: rest).takeWhile (· != '.') = Nat.toDigits 10 n := by
    intro n rest
    rw [List.takeWhile_append_of_pos (hdigits n), List.takeWhile_cons_of_neg (by decide),
      List.append_nil]
  have hrest : Nat.toDigits 10 i ++ '.' :: name = Nat.toDigits 10 j ++ '.' :: name' := by
    unfold blockPrefix at h
    simp only [List.append_assoc, List.cons_append, List.nil_append] at h
    exact List.cons.inj (List.append_cancel_left h) |>.2
  have hsame : Nat.toDigits 10 i = Nat.toDigits 10 j := by
    rw [← hcut i name, hrest, hcut j name']
  rw [← Nat.ofDigitChars_ten_toDigits (n := i), hsame, Nat.ofDigitChars_ten_toDigits]

/-! ## Files -/

/-- What is read from a file, when something is: tensors of the checkpoint, and at least those with
    the names that the file should have.  Some attempt at the hub ends with a file of weights. -/
structure FileMeets.Serves (meets : FileMeets T) (params : StateDict T) (names : Text → Prop) :
    Prop where
  honest : ∀ read, read = meets.cached ∨ read ∈ meets.downloads →
    ∀ path contents, read = .ok (some (path, contents)) →
      (∀ name value, contents.lookup name = some value → params.lookup name = some value) ∧
      ∀ name, names name → contents.lookup name = params.lookup name
  answered : ∃ path contents, .ok (some (path, contents)) ∈ meets.downloads ∧
    (endswith path ".bin".toList = true ∨ endswith path ".safetensors".toList = true)

/-- A file that `_find_index_file` may find. -/
def WeightsRepo.Has (repo : WeightsRepo T) (filename : Text) : Prop :=
  repo.isCached filename = true ∨ repo.isInRepo filename = .ok true

/-- An index says of each tensor of the checkpoint in which file it is, and the file has it; a file
    that is no index has all of them. -/
def WeightsRepo.IndexServes (repo : WeightsRepo T) (params : StateDict T) (indexFile : Text) :
    Prop :=
  if endswith indexFile ".index.json".toList then
    ∃ weightMap, repo.weightMap indexFile = .ok (some weightMap) ∧
      (∀ name ∈ params, name ∈ weightMap) ∧
      ∀ filename, (∃ name, weightMap.lookup name = some filename) →
        (repo.meets filename).Serves params fun name => weightMap.lookup name = some filename
  else (repo.meets indexFile).Serves params fun _ => True

/-- The hub answers, there are weights, and whichever are found are those of the checkpoint. -/
structure WeightsRepo.Serves (repo : WeightsRepo T) (params : StateDict T) : Prop where
  answers : ∀ filename ∈ indexFiles, ∃ found, repo.isInRepo filename = .ok found
  hasOne : ∃ filename ∈ indexFiles, repo.Has filename
  serves : ∀ filename ∈ indexFiles, repo.Has filename → repo.IndexServes params filename

/-- The tensors with the names have what the state dict has for them, if it has it, and the others
    are as they were. -/
def Assigned (ops : TensorOps T) (stateDict : StateDict T) (names : List Text)
    (values values' : StateDict T) : Prop :=
  (∀ name ∈ names,
    values'.lookup name = ((stateDict.lookup name).map ops.cast).or (values.lookup name)) ∧
  ∀ name, name ∉ names → values'.lookup name = values.lookup name

section Assign

variable {ops : TensorOps T} {stateDict : StateDict T} {names names' : List Text}
  {values values' values'' : StateDict T} {name : Text}

theorem assigned_iff : Assigned ops stateDict names values values' ↔
    ∀ name, values'.lookup name =
      if name ∈ names then ((stateDict.lookup name).map ops.cast).or (values.lookup name)
      else values.lookup name := by
  constructor
  · intro h name
    split
    · next hname => exact h.1 name hname
    · next hname => exact h.2 name hname
  · intro h
    exact ⟨fun name hname => (h name).trans (if_pos hname),
      fun name hname => (h name).trans (if_neg hname)⟩

theorem Assigned.nil : Assigned ops stateDict [] values values :=
  assigned_iff.mpr fun _ => (if_neg List.not_mem_nil).symm

theorem Assigned.append (h : Assigned ops stateDict names values values')
    (h' : Assigned ops stateDict names' values' values'') :
    Assigned ops stateDict (names ++ names') values values'' := by
  rw [assigned_iff] at h h' ⊢
  intro name
  rw [h' name, h name]
  by_cases hsecond : name ∈ names'
  · rw [if_pos hsecond, if_pos (List.mem_append_right _ hsecond)]
    split
    · -- a name in both: the second assignment is the first one again
      cases stateDict.lookup name <;> rfl
    · rfl
  · have hmem : name ∈ names ++ names' ↔ name ∈ names :=
      List.mem_append.trans (or_iff_left hsecond)
    simp only [if_neg hsecond, hmem]

/-- One assignment. -/
theorem Assigned.insert {param : T} (h : stateDict.lookup name = some param) :
    Assigned ops stateDict [name] values (values.insert name (ops.cast param)) := by
  refine assigned_iff.mpr fun other => ?_
  by_cases hsame : other = name
  · subst hsame
    rw [AList.lookup_insert, if_pos (List.mem_singleton_self _), h]
    rfl
  · rw [AList.lookup_insert_ne hsame, if_neg fun hmem => hsame (List.mem_singleton.mp hmem)]

/-- A buffer that the checkpoint does not have keeps its value. -/
theorem Assigned.skip (h : stateDict.lookup name = none) :
    Assigned ops stateDict [name] values values := by
  refine ⟨fun other hmem => ?_, fun _ _ => rfl⟩
  rw [List.mem_singleton.mp hmem, h]
  rfl

end Assign

end Drift
