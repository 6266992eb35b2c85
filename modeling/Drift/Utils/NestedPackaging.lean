/-
  `pack_args_kwargs` and `unpack_args_kwargs` of `utils/packaging.py`, for any nested arguments.

  A tensor leaves a mark with its index in the flat list, and an object that has been met gets the
  index that it has.  What `Utils/Packaging` says of a list of tensors holds of the tensors among
  the leaves; a mark is read as the index that it was made of, and nothing else among the leaves
  looks like a mark because the arguments are no bytes.
-/
import Drift.Lib.Nested
import Drift.Utils.Packaging

namespace Drift

/-! ## The source -/

/-- A value that is no container. -/
inductive PyLeaf (τ ν : Type) where
  | tensor (value : TensorObject τ)
  | bytes (item : List UInt8)
  | none
  | number (value : ν)
  | string (value : Text)

section

variable {τ ν : Type}

/-- `.encode()` of a text in ASCII. -/
def encodeAscii (text : Text) : List UInt8 := text.map fun c => UInt8.ofNat c.toNat

/-- `b"__T"`. -/
def maskedPrefix : List UInt8 := encodeAscii ['_', '_', 'T']

/-- `_mark_masked_tensor`. -/
def markMaskedTensor (index : Nat) : List UInt8 :=
  maskedPrefix ++ encodeAscii (Nat.toDigits 10 index)

/-- `_is_masked_tensor`, of bytes. -/
def isMaskedTensor (item : List UInt8) : Bool := maskedPrefix.isPrefixOf item

/-- Whether `int` strips the byte. -/
def isSpaceByte (b : UInt8) : Bool := b.toNat = 32 || (9 ≤ b.toNat && b.toNat ≤ 13)

def isDigitByte (b : UInt8) : Bool := 48 ≤ b.toNat && b.toNat ≤ 57

/-- The value of decimal digits behind a number.  Single underscores may stand between digits. -/
def readDigits : Nat → Bool → List UInt8 → Option Nat
  | number, afterDigit, [] => if afterDigit then some number else none
  | number, afterDigit, b :: bytes =>
    if isDigitByte b then readDigits (10 * number + (b.toNat - 48)) true bytes
    else if b.toNat = 95 && afterDigit then readDigits number false bytes
    else none

/-- `int` of bytes. -/
def intOfBytes (bytes : List UInt8) : Except PyExc Int :=
  orRaise (.valueError "invalid literal for int() with base 10") <|
    match stripBy isSpaceByte bytes with
    | [] => none
    | b :: bytes =>
      if b.toNat = 45 then (readDigits 0 false bytes).map fun number => -(number : Int)
      else if b.toNat = 43 then (readDigits 0 false bytes).map Int.ofNat
      else (readDigits 0 false (b :: bytes)).map Int.ofNat

/-- `_get_tensor_index`. -/
def getTensorIndex (item : List UInt8) : Except PyExc Int := intOfBytes (item.drop 3)

/-- The loop of `pack_args_kwargs`. -/
def maskLoop : List (TensorObject τ) → List (PyLeaf τ ν) → List (TensorObject τ) × List (PyLeaf τ ν)
  | flatTensors, [] => (flatTensors, [])
  | flatTensors, .tensor value :: values =>
    let rest := maskLoop (appendNew flatTensors value) values
    (rest.1, .bytes (markMaskedTensor (tensorIndex flatTensors value)) :: rest.2)
  | flatTensors, value :: values =>
    let rest := maskLoop flatTensors values
    (rest.1, value :: rest.2)

/-- `nested_pack`, when the generator of a sequence meets the end of the values. -/
def nestedPack {α β : Type} (values : List β) (template : Nested α) : Except PyExc (Nested β) :=
  orRaise (.runtimeError "generator raised StopIteration") (Nested.pack values template)

/-- `(args, kwargs)`. -/
def callArguments {α : Type} (args : List (Nested α)) (kwargs : List (Text × Nested α)) : Nested α :=
  .tuple [.tuple args, .dict kwargs]

/-- `pack_args_kwargs`. -/
def packArgsKwargs (args : List (Nested (PyLeaf τ ν))) (kwargs : List (Text × Nested (PyLeaf τ ν))) :
    Except PyExc (List (TensorObject τ) × Nested (PyLeaf τ ν)) := do
  let masked := maskLoop [] (callArguments args kwargs).flatten
  let argsStructure ← nestedPack masked.2 (callArguments args kwargs)
  .ok (masked.1, argsStructure)

/-- What a leaf of the structure stands for. -/
def unmask (flatTensors : List (TensorObject τ)) : PyLeaf τ ν → Except PyExc (PyLeaf τ ν)
  | .bytes item =>
    if isMaskedTensor item then do
      let index ← getTensorIndex item
      let value ← orRaise .indexError (pyIndex flatTensors index)
      .ok (.tensor value)
    else .ok (.bytes item)
  | value => .ok value

/-- `unpack_args_kwargs`. -/
def unpackArgsKwargs (flatTensors : List (TensorObject τ)) (argsStructure : Nested (PyLeaf τ ν)) :
    Except PyExc (Nested (PyLeaf τ ν)) := do
  let values ← argsStructure.flatten.mapM (unmask flatTensors)
  nestedPack values argsStructure

/-! ## Marks -/

theorem isDigitByte_toDigits {index : Nat} {c : Char} (h : c ∈ Nat.toDigits 10 index) :
    (UInt8.ofNat c.toNat).toNat = c.toNat ∧ isDigitByte (UInt8.ofNat c.toNat) = true := by
  have hdigit : 48 ≤ c.toNat ∧ c.toNat ≤ 57 := by
    have hchar := Nat.isDigit_of_mem_toDigits (by decide) (by decide) h
    simpa [Char.isDigit, UInt32.le_iff_toNat_le] using hchar
  have hbyte : (UInt8.ofNat c.toNat).toNat = c.toNat := by
    rw [UInt8.toNat_ofNat']
    omega
  refine ⟨hbyte, ?_⟩
  rw [isDigitByte, hbyte]
  simp only [Bool.and_eq_true, decide_eq_true_eq]
  exact hdigit

/-- Digits are read as the number that they are of. -/
theorem readDigits_encodeAscii : ∀ (digits : Text) (number : Nat) (afterDigit : Bool),
    (∀ c ∈ digits, (UInt8.ofNat c.toNat).toNat = c.toNat ∧
      isDigitByte (UInt8.ofNat c.toNat) = true) → (afterDigit = true ∨ digits ≠ []) →
    readDigits number afterDigit (encodeAscii digits)
      = some (Nat.ofDigitChars 10 digits number) := by
  intro digits
  induction digits with
  | nil =>
    intro number afterDigit _ hafter
    obtain rfl : afterDigit = true := hafter.resolve_right fun h => h rfl
    rw [Nat.ofDigitChars_nil]
    rfl
  | cons c digits ih =>
    intro number afterDigit hdigits _
    obtain ⟨⟨hbyte, hdigit⟩, hrest⟩ := List.forall_mem_cons.mp hdigits
    rw [Nat.ofDigitChars_cons, encodeAscii, List.map_cons, readDigits, if_pos hdigit, hbyte]
    exact ih _ true hrest (Or.inl rfl)

/-- **The index of a mark** is the index that it was made of. -/
theorem getTensorIndex_markMaskedTensor (index : Nat) :
    getTensorIndex (markMaskedTensor index) = .ok (index : Int) := by
  have hdigits : ∀ c ∈ Nat.toDigits 10 index, (UInt8.ofNat c.toNat).toNat = c.toNat ∧
      isDigitByte (UInt8.ofNat c.toNat) = true := fun c => isDigitByte_toDigits
  have hread := readDigits_encodeAscii (Nat.toDigits 10 index) 0 false hdigits
    (Or.inr Nat.toDigits_ne_nil)
  rw [Nat.ofDigitChars_ten_toDigits] at hread
  have hbytes : ∀ b ∈ encodeAscii (Nat.toDigits 10 index), 48 ≤ b.toNat ∧ b.toNat ≤ 57 := by
    intro b hb
    obtain ⟨c, hc, rfl⟩ := List.mem_map.mp hb
    have hdigit := (hdigits c hc).2
    rw [isDigitByte] at hdigit
    simpa using hdigit
  have hstrip : stripBy isSpaceByte (encodeAscii (Nat.toDigits 10 index))
      = encodeAscii (Nat.toDigits 10 index) := by
    have hkeep : ∀ b ∈ encodeAscii (Nat.toDigits 10 index), isSpaceByte b = false := by
      intro b hb
      have hrange := hbytes b hb
      simp only [isSpaceByte, Bool.or_eq_false_iff, Bool.and_eq_false_iff, decide_eq_false_iff_not]
      omega
    exact stripBy_self (fun b hb => hkeep b (List.mem_of_mem_head? hb))
      fun b hb => hkeep b (List.mem_of_mem_getLast? hb)
  show intOfBytes (encodeAscii (Nat.toDigits 10 index)) = _
  rw [intOfBytes, hstrip]
  cases hcases : encodeAscii (Nat.toDigits 10 index) with
  | nil =>
    rw [hcases] at hread
    nomatch hread
  | cons b bytes =>
    rw [hcases] at hread hbytes
    have hrange := hbytes b List.mem_cons_self
    simp only
    rw [if_neg (by omega), if_neg (by omega), hread]
    rfl

theorem isMaskedTensor_markMaskedTensor (index : Nat) :
    isMaskedTensor (markMaskedTensor index) = true :=
  List.isPrefixOf_iff_prefix.mpr (List.prefix_append _ _)

/-! ## The loop -/

/-- The tensors among the leaves. -/
def tensorsOf (values : List (PyLeaf τ ν)) : List (TensorObject τ) :=
  values.filterMap fun
    | .tensor value => some value
    | _ => none

/-- A value that is no tensor is kept. -/
theorem maskLoop_kept {value : PyLeaf τ ν} (h : ∀ tensor, value ≠ .tensor tensor)
    (flatTensors : List (TensorObject τ)) (values : List (PyLeaf τ ν)) :
    maskLoop flatTensors (value :: values)
        = ((maskLoop flatTensors values).1, value :: (maskLoop flatTensors values).2) ∧
      tensorsOf (value :: values) = tensorsOf values := by
  cases value with
  | tensor tensor => exact absurd rfl (h tensor)
  | bytes item => exact ⟨rfl, rfl⟩
  | none => exact ⟨rfl, rfl⟩
  | number value => exact ⟨rfl, rfl⟩
  | string value => exact ⟨rfl, rfl⟩

theorem tensor_or_kept (value : PyLeaf τ ν) :
    (∃ tensor, value = .tensor tensor) ∨ ∀ tensor, value ≠ .tensor tensor := by
  cases value with
  | tensor tensor => exact Or.inl ⟨tensor, rfl⟩
  | _ => exact Or.inr fun _ h => nomatch h

/-- The flat list is that of the tensors alone. -/
theorem maskLoop_fst : ∀ (values : List (PyLeaf τ ν)) (flatTensors : List (TensorObject τ)),
    (maskLoop flatTensors values).1 = (packLoop flatTensors (tensorsOf values)).1 := by
  intro values
  induction values with
  | nil => exact fun _ => rfl
  | cons value values ih =>
    intro flatTensors
    rcases tensor_or_kept value with ⟨tensor, rfl⟩ | hkept
    · exact ih _
    · obtain ⟨hloop, htensors⟩ := maskLoop_kept hkept flatTensors values
      rw [hloop, htensors]
      exact ih _

theorem length_maskLoop : ∀ (values : List (PyLeaf τ ν)) (flatTensors : List (TensorObject τ)),
    (maskLoop flatTensors values).2.length = values.length := by
  intro values
  induction values with
  | nil => exact fun _ => rfl
  | cons value values ih =>
    intro flatTensors
    rcases tensor_or_kept value with ⟨tensor, rfl⟩ | hkept
    · exact congrArg Nat.succ (ih _)
    · rw [(maskLoop_kept hkept flatTensors values).1]
      exact congrArg Nat.succ (ih _)

/-- No value is bytes. -/
def NoBytes (values : List (PyLeaf τ ν)) : Prop := ∀ item, .bytes item ∉ values

/-- A tensor is found behind its mark, also when more have been appended. -/
theorem unmask_mark {flatTensors final : List (TensorObject τ)} {value : TensorObject τ}
    (hone : ∀ a ∈ flatTensors, a.id = value.id → a = value)
    (hfinal : appendNew flatTensors value <+: final) :
    unmask final (.bytes (markMaskedTensor (tensorIndex flatTensors value)) : PyLeaf τ ν)
      = .ok (.tensor value) := by
  have hindex := getElem?_tensorIndex flatTensors value hone
  obtain ⟨hlt, -⟩ := List.getElem?_eq_some_iff.mp hindex
  obtain ⟨suffix, rfl⟩ := hfinal
  rw [unmask, if_pos (isMaskedTensor_markMaskedTensor _), getTensorIndex_markMaskedTensor]
  show (orRaise .indexError (pyIndex _ ((tensorIndex flatTensors value : Nat) : Int)) >>= _) = _
  rw [pyIndex_natCast, List.getElem?_append_left hlt, hindex]
  rfl

theorem unmask_kept {final : List (TensorObject τ)} {value : PyLeaf τ ν}
    (hbytes : ∀ item, value ≠ .bytes item) : unmask final value = .ok value := by
  cases value with
  | bytes item => exact absurd rfl (hbytes item)
  | _ => rfl

/-- **The leaves are restored** from the list that the loop ends with. -/
theorem mapM_unmask_maskLoop : ∀ (values : List (PyLeaf τ ν))
    (flatTensors final : List (TensorObject τ)), NoBytes values →
    OneObject (flatTensors ++ tensorsOf values) → (maskLoop flatTensors values).1 <+: final →
    (maskLoop flatTensors values).2.mapM (unmask final) = .ok values := by
  intro values
  induction values with
  | nil => exact fun _ _ _ _ _ => rfl
  | cons value values ih =>
    intro flatTensors final hbytes hone hfinal
    have hrest : NoBytes values := fun item hmem => hbytes item (List.mem_cons_of_mem _ hmem)
    rcases tensor_or_kept value with ⟨tensor, rfl⟩ | hkept
    · have hprefix : appendNew flatTensors tensor <+: final := by
        refine List.IsPrefix.trans ?_ hfinal
        rw [maskLoop_fst]
        exact packLoop_prefix _ _
      rw [maskLoop, List.mapM_cons, unmask_mark hone.eq_of_id hprefix,
        ih _ final hrest hone.appendNew hfinal]
      rfl
    · obtain ⟨hloop, htensors⟩ := maskLoop_kept hkept flatTensors values
      rw [htensors] at hone
      rw [hloop] at hfinal
      rw [hloop, List.mapM_cons, ih _ final hrest hone hfinal,
        unmask_kept fun item heq => hbytes item (heq ▸ List.mem_cons_self)]
      rfl

/-- Every mark has an index in the list that the loop ends with. -/
theorem bytes_maskLoop : ∀ (values : List (PyLeaf τ ν)) (flatTensors : List (TensorObject τ)),
    NoBytes values → OneObject (flatTensors ++ tensorsOf values) → ∀ item,
    .bytes item ∈ (maskLoop flatTensors values).2 →
    ∃ index < (maskLoop flatTensors values).1.length, item = markMaskedTensor index := by
  intro values
  induction values with
  | nil => exact fun _ _ _ _ h => nomatch h
  | cons value values ih =>
    intro flatTensors hbytes hone item hmem
    have hrest : NoBytes values := fun item hmem => hbytes item (List.mem_cons_of_mem _ hmem)
    rcases tensor_or_kept value with ⟨tensor, rfl⟩ | hkept
    · rcases List.mem_cons.mp hmem with heq | hmem
      · obtain rfl := PyLeaf.bytes.inj heq
        refine ⟨_, ?_, rfl⟩
        have hindex := getElem?_tensorIndex flatTensors tensor hone.eq_of_id
        have hprefix := packLoop_prefix (tensorsOf values) (appendNew flatTensors tensor)
        rw [← maskLoop_fst] at hprefix
        exact Nat.lt_of_lt_of_le (List.getElem?_eq_some_iff.mp hindex).1 hprefix.length_le
      · exact ih _ hrest hone.appendNew item hmem
    · obtain ⟨hloop, htensors⟩ := maskLoop_kept hkept flatTensors values
      rw [htensors] at hone
      rw [hloop] at hmem ⊢
      rcases List.mem_cons.mp hmem with heq | hmem
      · exact absurd List.mem_cons_self (heq ▸ hbytes item)
      · exact ih _ hrest hone item hmem

/-! ## Packing and unpacking -/

theorem nestedPack_eq_ok {α β : Type} {values : List β} {template : Nested α} {packed : Nested β} :
    nestedPack values template = .ok packed ↔ Nested.pack values template = some packed :=
  orRaise_eq_ok

/-- Unpacking restores the leaves in the structure that has been received. -/
theorem unpackArgsKwargs_of_flatten {flatTensors : List (TensorObject τ)}
    {received restored : Nested (PyLeaf τ ν)} {masked values : List (PyLeaf τ ν)}
    (hflatten : received.flatten = masked) (hunmask : masked.mapM (unmask flatTensors) = .ok values)
    (hpack : Nested.pack values received = some restored) :
    unpackArgsKwargs flatTensors received = .ok restored := by
  rw [unpackArgsKwargs, hflatten, hunmask]
  exact nestedPack_eq_ok.mpr hpack

/-- **Packing is lossless.**  Dicts are equal if `sortKeys` makes them the same. -/
theorem unpackArgsKwargs_packArgsKwargs {args : List (Nested (PyLeaf τ ν))}
    {kwargs : List (Text × Nested (PyLeaf τ ν))}
    (hbytes : NoBytes (callArguments args kwargs).flatten)
    (hone : OneObject (tensorsOf (callArguments args kwargs).flatten)) :
    ∃ flatTensors argsStructure, packArgsKwargs args kwargs = .ok (flatTensors, argsStructure) ∧
      (∃ restored, unpackArgsKwargs flatTensors argsStructure = .ok restored ∧
        restored.sortKeys = (callArguments args kwargs).sortKeys) ∧
      (flatTensors.map TensorObject.id).Nodup ∧
      (∀ value, value ∈ flatTensors ↔ value ∈ tensorsOf (callArguments args kwargs).flatten) ∧
      (∀ item, .bytes item ∈ argsStructure.flatten →
        ∃ index < flatTensors.length, item = markMaskedTensor index) ∧
      ∀ received, received.sortKeys.listed = argsStructure.sortKeys.listed →
        ∃ restored, unpackArgsKwargs flatTensors received = .ok restored ∧
          restored.sortKeys.listed = (callArguments args kwargs).sortKeys.listed := by
  rw [packArgsKwargs]
  generalize callArguments args kwargs = arguments at hbytes hone ⊢
  obtain ⟨packed, hpack, hshape, hsorted, hleaves⟩ :=
    Nested.pack_spec arguments (length_maskLoop arguments.flatten [])
  have hflatten : packed.flatten = (maskLoop [] arguments.flatten).2 := by
    rw [Nested.flatten, hsorted, hleaves]
  have hunmask := mapM_unmask_maskLoop arguments.flatten [] _ hbytes hone List.prefix_rfl
  refine ⟨(maskLoop [] arguments.flatten).1, packed, ?_, ⟨arguments.sortKeys, ?_, ?_⟩, ?_, ?_, ?_, ?_⟩
  · rw [nestedPack_eq_ok.mpr hpack]
    rfl
  · refine unpackArgsKwargs_of_flatten hflatten hunmask (Nested.pack_flatten ?_)
    rw [hsorted, hshape]
  · exact Nested.sortKeys_of_shape rfl
  · rw [maskLoop_fst]
    exact nodup_packLoop _ [] List.nodup_nil
  · intro value
    rw [maskLoop_fst]
    exact mem_packLoop _ [] hone
  · rw [hflatten]
    exact bytes_maskLoop _ [] hbytes hone
  · -- the leaves and their order do not depend on what is a tuple
    intro received hreceived
    have hreceivedFlatten : received.flatten = (maskLoop [] arguments.flatten).2 := by
      rw [Nested.flatten, ← Nested.leaves_listed, hreceived, Nested.leaves_listed]
      exact hflatten
    obtain ⟨restored, hrestored, hlisted⟩ := Nested.pack_flatten_listed
      (show received.sortKeys.listed.shape = arguments.sortKeys.listed.shape by
        rw [hreceived, hsorted, Nested.shape_listed, Nested.shape_listed, hshape])
    exact ⟨restored, unpackArgsKwargs_of_flatten hreceivedFlatten hunmask hrestored, hlisted⟩

end

/-- A tensor twice, beside an empty tuple and a dict whose keys are not in order. -/
theorem unpackArgsKwargs_packArgsKwargs_twice :
    let x : Nested (PyLeaf Unit Nat) := .leaf (.tensor ⟨5, ()⟩)
    let args := [x, .tuple [], .leaf .none, .list [.leaf (.number 3), x]]
    let kwargs := [(['f'], .dict [(['b'], x), (['a'], .leaf (.string ['_', '_', 'T', '0']))])]
    ∃ flatTensors argsStructure, packArgsKwargs args kwargs = .ok (flatTensors, argsStructure) ∧
      ∃ restored, unpackArgsKwargs flatTensors argsStructure = .ok restored ∧
        restored.sortKeys = (callArguments args kwargs).sortKeys := by
  intro x args kwargs
  have hleaves : (callArguments args kwargs).flatten = [.tensor ⟨5, ()⟩, .none, .number 3,
    .tensor ⟨5, ()⟩, .string ['_', '_', 'T', '0'], .tensor ⟨5, ()⟩] := rfl
  obtain ⟨flatTensors, argsStructure, hpack, hrestored, -⟩ :=
    @unpackArgsKwargs_packArgsKwargs _ _ args kwargs
      (by rw [hleaves]; intro item; simp) (by rw [hleaves]; unfold OneObject tensorsOf; simp)
  exact ⟨flatTensors, argsStructure, hpack, hrestored⟩

end Drift
