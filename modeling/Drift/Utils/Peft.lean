/-
  `utils/peft.py`: LoRA adapters for the linear layers of a block.

  `create_lora_adapter` wraps the linear layers, and `add_adapter_to_block` gives the layers that an
  adapter targets their tensors.  It does not look the keys of a layer up.  It goes through all keys
  that have the name of the layer in them, anywhere, and of several tensors the last one stays.  So
  whether a layer gets its own depends on the names and on the order of the state dict
  (`addAdapterToBlock_own_iff`).

  The elements of the tensors are of the type of the layers' weights.
-/
import Drift.Lib.Tensor
import Drift.Lib.Text
import Drift.Lib.Effect
import Drift.Python
import Mathlib.Data.List.AList
import Mathlib.Data.List.Induction
import Mathlib.Data.List.Infix
import Mathlib.Data.Rat.Defs

namespace Drift

/-! ## The modules of a block -/

/-- A module: a layer, or one that has named children. -/
inductive ModuleTree (L : Type) where
  | leaf (layer : L)
  | node (children : List (Text × ModuleTree L))

namespace ModuleTree

variable {L : Type}

/-- `named_children()`. -/
def namedChildren : ModuleTree L → List (Text × ModuleTree L)
  | leaf _ => []
  | node children => children

mutual

/-- `named_modules()`, with the names on the path. -/
def namedModules (path : List Text) : ModuleTree L → List (List Text × ModuleTree L)
  | leaf layer => [(path, leaf layer)]
  | node children => (path, node children) :: namedModulesOf path children

def namedModulesOf (path : List Text) :
    List (Text × ModuleTree L) → List (List Text × ModuleTree L)
  | [] => []
  | (name, child) :: children =>
    child.namedModules (path ++ [name]) ++ namedModulesOf path children

end

end ModuleTree

/-- The two matrices of an adapter. -/
inductive LoraSide where
  | loraA
  | loraB
deriving DecidableEq

structure LoraWeights (α : Type) where
  loraA : Tensor α
  loraB : Tensor α

namespace LoraWeights

variable {α : Type}

def get (weights : LoraWeights α) : LoraSide → Tensor α
  | .loraA => weights.loraA
  | .loraB => weights.loraB

def set (weights : LoraWeights α) (t : Tensor α) : LoraSide → LoraWeights α
  | .loraA => { weights with loraA := t }
  | .loraB => { weights with loraB := t }

@[simp] theorem get_set_self (weights : LoraWeights α) (t : Tensor α) (side : LoraSide) :
    (weights.set t side).get side = t := by
  cases side <;> rfl

theorem get_set_of_ne (weights : LoraWeights α) (t : Tensor α) {side side' : LoraSide}
    (h : side ≠ side') : (weights.set t side).get side' = weights.get side' := by
  cases side <;> cases side' <;> first | rfl | exact absurd rfl h

end LoraWeights

/-- `LoraLinear`: the layer that is wrapped, and the weights of its adapters. -/
structure LoraLinear (α : Type) where
  inFeatures : Nat
  outFeatures : Nat
  adapters : AList fun _ : Text => LoraWeights α

/-- A linear layer of a class that `create_lora_adapter` wraps, or the wrapper. -/
inductive LinearLayer (α : Type) where
  | linear (inFeatures outFeatures : Nat)
  | lora (layer : LoraLinear α)

section Create

variable {α : Type}

mutual

/-- `create_lora_adapter`. -/
def createLoraAdapter : ModuleTree (LinearLayer α) → ModuleTree (LinearLayer α)
  | .leaf layer => .leaf layer
  | .node children => .node (wrapChildren children)

def wrapChildren :
    List (Text × ModuleTree (LinearLayer α)) → List (Text × ModuleTree (LinearLayer α))
  | [] => []
  | (name, .leaf (.linear inFeatures outFeatures)) :: children =>
    (name, .leaf (.lora ⟨inFeatures, outFeatures, ∅⟩)) :: wrapChildren children
  | (name, .leaf (.lora layer)) :: children => (name, .leaf (.lora layer)) :: wrapChildren children
  | (name, .node grandchildren) :: children =>
    (name, createLoraAdapter (.node grandchildren)) :: wrapChildren children

end

end Create

/-- A child that `add_adapter_to_block` comes to. -/
structure LoraChild (α : Type) where
  modulePath : List Text
  childName : Text
  layer : LoraLinear α

/-- The path of the layer. -/
def LoraChild.path {α : Type} (child : LoraChild α) : List Text :=
  child.modulePath ++ [child.childName]

/-- The children of all modules that are wrapped, in the order of the loops. -/
def loraChildren {α : Type} (block : ModuleTree (LinearLayer α)) : List (LoraChild α) :=
  (block.namedModules []).flatMap fun (modulePath, module) =>
    module.namedChildren.filterMap fun (childName, child) =>
      match child with
      | .leaf (.lora layer) => some ⟨modulePath, childName, layer⟩
      | _ => none

/-! ## The adapter -/

inductive TargetModules where
  | names (names : List Text)
  | pattern (pattern : Text)

/-- The fields of `adapter_config.json` that are read. -/
structure LoraConfig where
  peftType : String
  targetModules : TargetModules
  r : Int
  loraAlpha : Int
  loraDropout : Rat
  initLoraWeights : Bool
  useRslora : Option Bool

/-- The weights that `update_layer` of the library makes. -/
structure PeftLibrary (α : Type) where
  initial (r : Nat) (loraAlpha : Int) (useRslora : Bool) (loraDropout : Rat)
    (initLoraWeights : Bool) (inFeatures outFeatures : Nat) : LoraWeights α
  shape_loraA : ∀ r loraAlpha useRslora loraDropout initLoraWeights inFeatures outFeatures,
    (initial r loraAlpha useRslora loraDropout initLoraWeights inFeatures outFeatures).loraA.shape
      = [r, inFeatures]
  shape_loraB : ∀ r loraAlpha useRslora loraDropout initLoraWeights inFeatures outFeatures,
    (initial r loraAlpha useRslora loraDropout initLoraWeights inFeatures outFeatures).loraB.shape
      = [outFeatures, r]

/-- What `endswith` finds of a key. -/
inductive KeyKind where
  | weight (side : LoraSide)
  | bias (side : LoraSide)
deriving DecidableEq

def keyKind (peftKey : Text) : Option KeyKind :=
  if ".lora_A.weight".toList <:+ peftKey then some (.weight .loraA)
  else if ".lora_A.bias".toList <:+ peftKey then some (.bias .loraA)
  else if ".lora_B.weight".toList <:+ peftKey then some (.weight .loraB)
  else if ".lora_B.bias".toList <:+ peftKey then some (.bias .loraB)
  else none

/-- The condition of the second loop.  `fullmatch` is `re.fullmatch` of a pattern that compiles. -/
def TargetModules.selects (fullmatch : Text → Text → Bool) (childName : Text) :
    TargetModules → Prop
  | names targetModules => childName ∈ targetModules
  | pattern targetModules =>
    -- `in` looks for a part of a string
    childName <:+: targetModules ∨ fullmatch targetModules childName = true

instance (fullmatch : Text → Text → Bool) (childName : Text) (targetModules : TargetModules) :
    Decidable (targetModules.selects fullmatch childName) :=
  match targetModules with
  | .names names => inferInstanceAs (Decidable (childName ∈ names))
  | .pattern pattern =>
    inferInstanceAs (Decidable (childName <:+: pattern ∨ fullmatch pattern childName = true))

section Load

variable {α : Type} [Zero α] (peft : PeftLibrary α) (config : LoraConfig) (adapterName : Text)

/-- The weights of the adapter; `update_layer` makes them if there are none. -/
def LoraLinear.weights (layer : LoraLinear α) : Except PyExc (LoraWeights α) :=
  match layer.adapters.lookup adapterName with
  | some weights => .ok weights
  | none =>
    if config.r ≤ 0 then
      .error (.valueError ("`r` should be a positive integer value but the value passed is "
        ++ toString config.r))
    else .ok (peft.initial config.r.toNat config.loraAlpha (config.useRslora.getD false)
      config.loraDropout config.initLoraWeights layer.inFeatures layer.outFeatures)

/-- The variables of the inner loop. -/
structure LoadState (α : Type) where
  layer : LoraLinear α
  isLoraALoaded : Bool
  isLoraBLoaded : Bool

omit [Zero α] in
/-- The layer with these weights, of which one side may have been loaded. -/
def LoadState.store (s : LoadState α) (weights : LoraWeights α) (side : Option LoraSide) :
    LoadState α where
  layer := { s.layer with adapters := s.layer.adapters.insert adapterName weights }
  isLoraALoaded := s.isLoraALoaded || side = some .loraA
  isLoraBLoaded := s.isLoraBLoaded || side = some .loraB

/-- One key of the state dict. -/
def loadKey (childName : Text) (s : LoadState α) (item : Sigma fun _ : Text => Tensor α) :
    Except PyExc (LoadState α) :=
  if ¬ childName <:+: item.1 then .ok s
  else do
    let weights ← s.layer.weights peft config adapterName
    match keyKind item.1 with
    | some (.weight side) => do
      let loaded ← orRaise (.runtimeError "shape mismatch")
        (item.2.expandTo (weights.get side).shape)
      .ok (s.store adapterName (weights.set loaded side) (some side))
    | some (.bias _) =>
      .error (.notImplementedError
        ("LoRA adapters with bias not supported: " ++ String.ofList item.1))
    | none => .ok (s.store adapterName weights none)

/-- The body of the second loop for a wrapped child. -/
def loadLayer (fullmatch : Text → Text → Bool) (blockIndex : Nat)
    (stateDict : AList fun _ : Text => Tensor α) (childName : Text) (layer : LoraLinear α) :
    Except PyExc (LoraLinear α) :=
  if config.targetModules.selects fullmatch childName then do
    let s ← stateDict.entries.foldlM (loadKey peft config adapterName childName)
      ⟨layer, false, false⟩
    if s.isLoraALoaded && s.isLoraBLoaded then .ok s.layer
    else if s.isLoraALoaded || s.isLoraBLoaded then
      .error (.valueError ("Invalid adapter " ++ String.ofList adapterName ++ " for block "
        ++ toString blockIndex ++ "." ++ String.ofList childName))
    else .ok s.layer
  else .ok layer

/-- `add_adapter_to_block`.  The layers are changed in place: the result lists them in the order in
    which the loops come to them. -/
def addAdapterToBlock (fullmatch : Text → Text → Bool) (block : ModuleTree (LinearLayer α))
    (blockIndex : Nat) (peftStateDict : AList fun _ : Text => Tensor α) :
    Except PyExc (List (LoraChild α)) :=
  if config.peftType ≠ "LORA" then
    .error (.assertionError "DRIFT-LLM works only with LORA adapters")
  else (loraChildren block).mapM fun child => do
    let layer ← loadLayer peft config adapterName fullmatch blockIndex peftStateDict child.childName
      child.layer
    .ok { child with layer := layer }

end Load

/-! ## What is promised -/

/-- The layers that an adapter is for: those of these names, or those whose name the pattern
    matches. -/
def TargetModules.Targets (fullmatch : Text → Text → Bool) (childName : Text) :
    TargetModules → Prop
  | names targetModules => childName ∈ targetModules
  | pattern targetModules => fullmatch targetModules childName = true

/-- The key of a tensor of a layer.  All keys begin with `base`. -/
def ownKey {α : Type} (base : Text) (child : LoraChild α) : LoraSide → Text
  | .loraA => base ++ ['.'].intercalate child.path ++ ".lora_A.weight".toList
  | .loraB => base ++ ['.'].intercalate child.path ++ ".lora_B.weight".toList

section Promise

variable {α : Type} (config : LoraConfig) (adapterName : Text) (fullmatch : Text → Text → Bool)
  (base : Text) (stateDict : AList fun _ : Text => Tensor α)

/-- A layer that is targeted holds what is stored under its own path, and another one does not have
    the adapter. -/
structure HoldsOwn (child : LoraChild α) : Prop where
  targeted : config.targetModules.Targets fullmatch child.childName →
    ∃ weights, child.layer.adapters.lookup adapterName = some weights ∧
      ∀ side, stateDict.lookup (ownKey base child side) = some (weights.get side)
  other : ¬ config.targetModules.Targets fullmatch child.childName →
    adapterName ∉ child.layer.adapters

/-- **Adapter weights go to their own layer.** -/
structure AdapterOwn (block : ModuleTree (LinearLayer α)) (children : List (LoraChild α)) :
    Prop where
  paths : children.map LoraChild.path = (loraChildren block).map LoraChild.path
  holds : ∀ child ∈ children, HoldsOwn config adapterName fullmatch base stateDict child

/-! ## When the names keep the layers apart -/

/-- The shape of the weights of the adapter. -/
def weightShape (layer : LoraLinear α) (side : LoraSide) : List Nat :=
  match layer.adapters.lookup adapterName with
  | some weights => (weights.get side).shape
  | none =>
    match side with
    | .loraA => [config.r.toNat, layer.inFeatures]
    | .loraB => [layer.outFeatures, config.r.toNat]

/-- The last tensor for one side that a key with this name in it has. -/
def lastWeight (items : List (Sigma fun _ : Text => Tensor α)) (childName : Text)
    (side : LoraSide) : Option (Tensor α) :=
  ((items.filter fun item =>
    childName <:+: item.1 ∧ keyKind item.1 = some (.weight side)).getLast?).map (·.2)

/-- Weights can be made, or there are some. -/
def LoraLinear.Ready (layer : LoraLinear α) : Prop :=
  adapterName ∈ layer.adapters ∨ 0 < config.r

variable [Zero α]

/-- A key that has the name of the layer in it can be loaded. -/
structure KeyFits (layer : LoraLinear α) (item : Sigma fun _ : Text => Tensor α) : Prop where
  ready : layer.Ready config adapterName
  noBias : ∀ side, keyKind item.1 ≠ some (.bias side)
  fits : ∀ side, keyKind item.1 = some (.weight side) →
    (item.2.expandTo (weightShape config adapterName layer side)).isSome = true

/-- Every key with the name of the layer in it fits, and the last ones are, spread to the shape of
    the weights, those of the layer. -/
structure LastIsOwn (child : LoraChild α) : Prop where
  fits : ∀ item ∈ stateDict.entries, child.childName <:+: item.1 →
    KeyFits config adapterName child.layer item
  last : ∀ side, ∃ t own, lastWeight stateDict.entries child.childName side = some t ∧
    stateDict.lookup (ownKey base child side) = some own ∧
    t.expandTo (weightShape config adapterName child.layer side) = some own

/-- The adapter is not there, and no key has the name of a layer in it that is only a part of the
    pattern. -/
structure Untouched (child : LoraChild α) : Prop where
  absent : adapterName ∉ child.layer.adapters
  noKey : config.targetModules.selects fullmatch child.childName →
    ∀ item ∈ stateDict.entries, ¬ child.childName <:+: item.1

end Promise

/-! ## A block that has been wrapped -/

section Wrapped

variable {α : Type} {childName : Text} {layer : LoraLinear α}

/-- A LoRA layer among the wrapped children has no adapters yet, unless it was one before. -/
theorem mem_wrapChildren : ∀ {children : List (Text × ModuleTree (LinearLayer α))},
    (childName, .leaf (.lora layer)) ∈ wrapChildren children →
      layer.adapters = ∅ ∨ (childName, .leaf (.lora layer)) ∈ children
  | (name, .leaf (.linear inFeatures outFeatures)) :: children, h => by
    rw [wrapChildren] at h
    rcases List.mem_cons.mp h with heq | h
    · obtain ⟨-, hleaf⟩ := Prod.mk.inj heq
      obtain rfl := LinearLayer.lora.inj (ModuleTree.leaf.inj hleaf)
      exact .inl rfl
    · exact (mem_wrapChildren h).imp_right (List.mem_cons_of_mem _)
  | (name, .leaf (.lora layer')) :: children, h => by
    rw [wrapChildren] at h
    rcases List.mem_cons.mp h with heq | h
    · exact .inr (List.mem_cons.mpr (.inl heq))
    · exact (mem_wrapChildren h).imp_right (List.mem_cons_of_mem _)
  | (name, .node grandchildren) :: children, h => by
    rw [wrapChildren] at h
    rcases List.mem_cons.mp h with heq | h
    · rw [createLoraAdapter] at heq
      nomatch (Prod.mk.inj heq).2
    · exact (mem_wrapChildren h).imp_right (List.mem_cons_of_mem _)

mutual

/-- A wrapped child of a module was one before, or it has no adapter. -/
theorem namedModules_createLoraAdapter : ∀ (block : ModuleTree (LinearLayer α)) (path : List Text)
    {entry : List Text × ModuleTree (LinearLayer α)},
    entry ∈ (createLoraAdapter block).namedModules path →
      (childName, .leaf (.lora layer)) ∈ entry.2.namedChildren →
      layer.adapters = ∅ ∨ ∃ entry' ∈ block.namedModules path, entry'.1 = entry.1 ∧
        (childName, .leaf (.lora layer)) ∈ entry'.2.namedChildren
  | .leaf _, path, entry, hentry, hchild => by
    rw [createLoraAdapter, ModuleTree.namedModules, List.mem_singleton] at hentry
    rw [hentry] at hchild
    nomatch hchild
  | .node children, path, entry, hentry, hchild => by
    rw [createLoraAdapter, ModuleTree.namedModules] at hentry
    rw [ModuleTree.namedModules]
    rcases List.mem_cons.mp hentry with rfl | hentry
    · exact (mem_wrapChildren hchild).imp_right fun h => ⟨_, List.mem_cons_self, rfl, h⟩
    · refine (namedModulesOf_wrapChildren children path hentry hchild).imp_right ?_
      rintro ⟨entry', hentry', h⟩
      exact ⟨entry', List.mem_cons_of_mem _ hentry', h⟩

/-- A wrapped layer that has adapters already was a child of the module of that name before. -/
theorem namedModulesOf_wrapChildren : ∀ (children : List (Text × ModuleTree (LinearLayer α)))
    (path : List Text) {entry : List Text × ModuleTree (LinearLayer α)},
    entry ∈ ModuleTree.namedModulesOf path (wrapChildren children) →
      (childName, .leaf (.lora layer)) ∈ entry.2.namedChildren →
      layer.adapters = ∅ ∨ ∃ entry' ∈ ModuleTree.namedModulesOf path children, entry'.1 = entry.1 ∧
        (childName, .leaf (.lora layer)) ∈ entry'.2.namedChildren
  | [], path, entry, hentry, _ => by
    rw [wrapChildren, ModuleTree.namedModulesOf] at hentry
    nomatch hentry
  | (name, .leaf leaf) :: children, path, entry, hentry, hchild => by
    -- a leaf has no children
    have hrest : entry ∈ ModuleTree.namedModulesOf path (wrapChildren children) := by
      cases leaf with
      | linear inFeatures outFeatures =>
        rw [wrapChildren, ModuleTree.namedModulesOf, ModuleTree.namedModules] at hentry
        rcases List.mem_cons.mp hentry with rfl | hentry
        · nomatch hchild
        · exact hentry
      | lora layer' =>
        rw [wrapChildren, ModuleTree.namedModulesOf, ModuleTree.namedModules] at hentry
        rcases List.mem_cons.mp hentry with rfl | hentry
        · nomatch hchild
        · exact hentry
    refine (namedModulesOf_wrapChildren children path hrest hchild).imp_right ?_
    rintro ⟨entry', hentry', h⟩
    rw [ModuleTree.namedModulesOf]
    exact ⟨entry', List.mem_append_right _ hentry', h⟩
  | (name, .node grandchildren) :: children, path, entry, hentry, hchild => by
    rw [wrapChildren, ModuleTree.namedModulesOf] at hentry
    rw [ModuleTree.namedModulesOf]
    rcases List.mem_append.mp hentry with hentry | hentry
    · refine (namedModules_createLoraAdapter (.node grandchildren) _ hentry hchild).imp_right ?_
      rintro ⟨entry', hentry', h⟩
      exact ⟨entry', List.mem_append_left _ hentry', h⟩
    · refine (namedModulesOf_wrapChildren children path hentry hchild).imp_right ?_
      rintro ⟨entry', hentry', h⟩
      exact ⟨entry', List.mem_append_right _ hentry', h⟩

end

/-- The layers that adapters are loaded into are the LoRA children of the block's modules. -/
theorem mem_loraChildren {block : ModuleTree (LinearLayer α)} {child : LoraChild α} :
    child ∈ loraChildren block ↔ ∃ entry ∈ block.namedModules [], entry.1 = child.modulePath ∧
      (child.childName, .leaf (.lora child.layer)) ∈ entry.2.namedChildren := by
  rw [loraChildren, List.mem_flatMap]
  refine exists_congr fun entry => and_congr_right fun _ => ?_
  rw [List.mem_filterMap]
  constructor
  · rintro ⟨⟨name, (_ | layer) | children⟩, hmem, hsome⟩
    · nomatch hsome
    · obtain rfl := Option.some.inj hsome
      exact ⟨rfl, hmem⟩
    · nomatch hsome
  · rintro ⟨hpath, hmem⟩
    refine ⟨(child.childName, .leaf (.lora child.layer)), hmem, ?_⟩
    show some (LoraChild.mk entry.1 child.childName child.layer) = some child
    rw [hpath]

/-- **The layers of a block that has just been wrapped** have no adapter. -/
theorem createLoraAdapter_fresh {block : ModuleTree (LinearLayer α)}
    (h : ∀ child ∈ loraChildren block, child.layer.adapters = ∅) :
    ∀ child ∈ loraChildren (createLoraAdapter block), child.layer.adapters = ∅ := by
  intro child hmem
  obtain ⟨entry, hentry, -, hchild⟩ := mem_loraChildren.mp hmem
  rcases namedModules_createLoraAdapter block [] hentry hchild with hempty | ⟨entry', hentry', -, h'⟩
  · exact hempty
  · exact h ⟨entry'.1, child.childName, child.layer⟩
      (mem_loraChildren.mpr ⟨entry', hentry', rfl, h'⟩)

end Wrapped

/-! ## Keys -/

theorem keyKind_append (front : Text) (side : LoraSide) :
    keyKind (front ++ match side with
      | .loraA => ".lora_A.weight".toList
      | .loraB => ".lora_B.weight".toList) = some (.weight side) := by
  -- two suffixes of which none is one of the other are not found together
  have hexclusive : ∀ suffix : Text, suffix.length ≤ ".lora_B.weight".toList.length →
      ¬ suffix <:+ ".lora_B.weight".toList → ¬ suffix <:+ front ++ ".lora_B.weight".toList :=
    fun suffix hlength hnot hsuffix =>
      hnot (List.suffix_of_suffix_length_le hsuffix (List.suffix_append _ _) hlength)
  cases side with
  | loraA => exact if_pos (List.suffix_append _ _)
  | loraB =>
    rw [keyKind, if_neg (hexclusive _ (by decide) (by decide)),
      if_neg (hexclusive _ (by decide) (by decide)), if_pos (List.suffix_append _ _)]

variable {α : Type}

theorem keyKind_ownKey (base : Text) (child : LoraChild α) (side : LoraSide) :
    keyKind (ownKey base child side) = some (.weight side) := by
  cases side with
  | loraA => exact keyKind_append _ .loraA
  | loraB => exact keyKind_append _ .loraB

/-- The name of a layer is in its own keys. -/
theorem childName_infix_ownKey (base : Text) (child : LoraChild α) (side : LoraSide) :
    child.childName <:+: ownKey base child side := by
  have hpath : child.childName <:+: ['.'].intercalate child.path :=
    infix_intercalate _ (List.mem_append_right _ (List.mem_singleton_self _))
  cases side with
  | loraA => exact hpath.trans ⟨base, _, rfl⟩
  | loraB => exact hpath.trans ⟨base, _, rfl⟩

/-- A later key with the child's name in it replaces an earlier one. -/
theorem lastWeight_concat (items : List (Sigma fun _ : Text => Tensor α))
    (item : Sigma fun _ : Text => Tensor α) (childName : Text) (side : LoraSide) :
    lastWeight (items ++ [item]) childName side
      = if childName <:+: item.1 ∧ keyKind item.1 = some (.weight side) then some item.2
        else lastWeight items childName side := by
  rw [lastWeight, List.filter_append, List.filter_singleton]
  split
  · rename_i hmatch
    rw [decide_eq_true hmatch, cond_true, List.getLast?_append]
    rfl
  · rename_i hmatch
    rw [decide_eq_false hmatch, cond_false, List.append_nil]
    rfl

/-- There is a last one if there is one at all. -/
theorem lastWeight_isSome {items : List (Sigma fun _ : Text => Tensor α)}
    {item : Sigma fun _ : Text => Tensor α} {childName : Text} {side : LoraSide}
    (hmem : item ∈ items) (hname : childName <:+: item.1)
    (hkind : keyKind item.1 = some (.weight side)) :
    ∃ t, lastWeight items childName side = some t := by
  have hfiltered : item ∈ items.filter fun item =>
      childName <:+: item.1 ∧ keyKind item.1 = some (.weight side) :=
    List.mem_filter.mpr ⟨hmem, decide_eq_true ⟨hname, hkind⟩⟩
  obtain ⟨last, hlast⟩ := List.getLast?_isSome.mpr (List.ne_nil_of_mem hfiltered) |>
    Option.isSome_iff_exists.mp
  exact ⟨last.2, by rw [lastWeight, hlast]; rfl⟩

/-! ## The loop over the keys -/

section Loop

variable [Zero α] {peft : PeftLibrary α} {config : LoraConfig} {adapterName childName : Text}

omit [Zero α] in
theorem weightShape_of_lookup {layer : LoraLinear α} {weights : LoraWeights α}
    (h : layer.adapters.lookup adapterName = some weights) (side : LoraSide) :
    weightShape config adapterName layer side = (weights.get side).shape := by
  unfold weightShape
  rw [h]

variable (peft) in
omit [Zero α] in
/-- Weights of the right shapes are there, or are made. -/
theorem LoraLinear.weights_ok {layer : LoraLinear α} (h : layer.Ready config adapterName) :
    ∃ weights, layer.weights peft config adapterName = .ok weights ∧
      ∀ side, (weights.get side).shape = weightShape config adapterName layer side := by
  rw [LoraLinear.weights]
  cases hlookup : layer.adapters.lookup adapterName with
  | some weights =>
    exact ⟨weights, rfl, fun side => (weightShape_of_lookup hlookup side).symm⟩
  | none =>
    have habsent : adapterName ∉ layer.adapters := AList.lookup_eq_none.mp hlookup
    have hr := h.resolve_left habsent
    refine ⟨_, if_neg (by omega), fun side => ?_⟩
    unfold weightShape
    rw [hlookup]
    cases side with
    | loraA => exact peft.shape_loraA _ _ _ _ _ _ _
    | loraB => exact peft.shape_loraB _ _ _ _ _ _ _

omit [Zero α] in
theorem LoraLinear.ready_of_weights {layer : LoraLinear α} {weights : LoraWeights α}
    (h : layer.weights peft config adapterName = .ok weights) :
    layer.Ready config adapterName := by
  rw [LoraLinear.weights] at h
  cases hlookup : layer.adapters.lookup adapterName with
  | some stored => exact .inl (AList.lookup_isSome.mp (by rw [hlookup]; rfl))
  | none =>
    rw [hlookup] at h
    refine .inr (Int.not_le.mp fun hr => ?_)
    nomatch (if_pos hr).symm.trans h

/-- What the loop has made of a layer when it is through with these keys. -/
structure Loaded (config : LoraConfig) (adapterName childName : Text) (layer : LoraLinear α)
    (items : List (Sigma fun _ : Text => Tensor α)) (s : LoadState α) : Prop where
  ready : adapterName ∈ s.layer.adapters → layer.Ready config adapterName
  kept : adapterName ∈ layer.adapters → adapterName ∈ s.layer.adapters
  shape : ∀ side, weightShape config adapterName s.layer side
    = weightShape config adapterName layer side
  untouched : (∀ item ∈ items, ¬ childName <:+: item.1) → s = ⟨layer, false, false⟩
  touched : ∀ item ∈ items, childName <:+: item.1 → adapterName ∈ s.layer.adapters
  isLoraALoaded : s.isLoraALoaded = (lastWeight items childName .loraA).isSome
  isLoraBLoaded : s.isLoraBLoaded = (lastWeight items childName .loraB).isSome
  weights : ∀ side t, lastWeight items childName side = some t →
    ∃ weights, s.layer.adapters.lookup adapterName = some weights ∧
      t.expandTo (weightShape config adapterName layer side) = some (weights.get side)

omit [Zero α] in
theorem weightShape_store (s : LoadState α) (weights : LoraWeights α) (loaded : Option LoraSide)
    (side : LoraSide) :
    weightShape config adapterName (s.store adapterName weights loaded).layer side
      = (weights.get side).shape :=
  weightShape_of_lookup (AList.lookup_insert _) side

section Step

variable {layer : LoraLinear α} {items : List (Sigma fun _ : Text => Tensor α)} {s : LoadState α}
  {item : Sigma fun _ : Text => Tensor α}

/-- A key without the name is passed over. -/
theorem Loaded.skip (h : Loaded config adapterName childName layer items s)
    (hname : ¬ childName <:+: item.1) :
    Loaded config adapterName childName layer (items ++ [item]) s := by
  have hlast : ∀ side, lastWeight (items ++ [item]) childName side
      = lastWeight items childName side := fun side => by
    rw [lastWeight_concat, if_neg fun hmatch => hname hmatch.1]
  refine ⟨h.ready, h.kept, h.shape, fun hnone => ?_, fun item' hmem hname' => ?_,
    (hlast _).symm ▸ h.isLoraALoaded, (hlast _).symm ▸ h.isLoraBLoaded, fun side t ht => ?_⟩
  · exact h.untouched fun item' hmem => hnone item' (List.mem_append_left _ hmem)
  · rcases List.mem_append.mp hmem with hmem | hmem
    · exact h.touched item' hmem hname'
    · exact absurd (List.mem_singleton.mp hmem ▸ hname') hname
  · rw [hlast] at ht
    exact h.weights side t ht

/-- A key with the name stores weights, of which one side or none is new. -/
theorem Loaded.store (h : Loaded config adapterName childName layer items s)
    (hname : childName <:+: item.1) (hready : layer.Ready config adapterName)
    {weights weights' : LoraWeights α}
    (hweights : s.layer.weights peft config adapterName = .ok weights)
    {loaded : Option LoraSide}
    (hkind : ∀ side, loaded = some side ↔ keyKind item.1 = some (.weight side))
    (hnew : ∀ side, loaded = some side →
      item.2.expandTo (weightShape config adapterName layer side) = some (weights'.get side))
    (hold : ∀ side, loaded ≠ some side → weights'.get side = weights.get side) :
    Loaded config adapterName childName layer (items ++ [item])
      (s.store adapterName weights' loaded) := by
  have hmem : adapterName ∈ (s.store adapterName weights' loaded).layer.adapters :=
    AList.mem_insert _ |>.mpr (.inl rfl)
  have hflag : ∀ (flag : Bool) (side : LoraSide),
      flag = (lastWeight items childName side).isSome →
      (flag || loaded = some side) = (lastWeight (items ++ [item]) childName side).isSome := by
    intro flag side hflag
    rw [lastWeight_concat, hflag]
    by_cases hside : loaded = some side
    · rw [if_pos ⟨hname, (hkind side).mp hside⟩, decide_eq_true hside, Bool.or_true]
      rfl
    · rw [if_neg fun hmatch => hside ((hkind side).mpr hmatch.2), decide_eq_false hside,
        Bool.or_false]
  refine ⟨fun _ => hready, fun _ => hmem, fun side => ?_, fun hnone => ?_, fun _ _ _ => hmem,
    hflag _ _ h.isLoraALoaded, hflag _ _ h.isLoraBLoaded, fun side t ht => ?_⟩
  · rw [weightShape_store]
    by_cases hside : loaded = some side
    · exact Tensor.shape_expandTo (hnew side hside)
    · obtain ⟨found, hfound, hshape⟩ :=
        LoraLinear.weights_ok peft (LoraLinear.ready_of_weights hweights)
      obtain rfl := Except.ok.inj (hweights.symm.trans hfound)
      rw [hold side hside, hshape, h.shape]
  · exact absurd hname (hnone item (List.mem_append_right _ (List.mem_singleton_self item)))
  · refine ⟨weights', AList.lookup_insert _, ?_⟩
    rw [lastWeight_concat] at ht
    split at ht
    · rename_i hmatch
      obtain rfl := Option.some.inj ht
      exact hnew side ((hkind side).mpr hmatch.2)
    · rename_i hmatch
      obtain ⟨stored, hlookup, hexpand⟩ := h.weights side t ht
      rw [LoraLinear.weights, hlookup] at hweights
      obtain rfl := Except.ok.inj hweights
      rw [hexpand, hold side fun hside => hmatch ⟨hname, (hkind side).mp hside⟩]

/-- **A key that is loaded** fits, if it has the name of the layer in it. -/
theorem loadKey_ok {s' : LoadState α} (h : Loaded config adapterName childName layer items s)
    (hload : loadKey peft config adapterName childName s item = .ok s') :
    (childName <:+: item.1 → KeyFits config adapterName layer item) ∧
      Loaded config adapterName childName layer (items ++ [item]) s' := by
  rw [loadKey] at hload
  split at hload
  · rename_i hname
    obtain rfl := Except.ok.inj hload
    exact ⟨fun hname' => absurd hname' hname, h.skip hname⟩
  rename_i hname
  have hname := not_not.mp hname
  obtain ⟨weights, hweights, hbody⟩ := except_bind_eq_ok.mp hload
  have hready : layer.Ready config adapterName :=
    (LoraLinear.ready_of_weights hweights).elim h.ready .inr
  obtain ⟨found, hfound, hshape⟩ :=
    LoraLinear.weights_ok peft (LoraLinear.ready_of_weights hweights)
  obtain rfl := Except.ok.inj (hweights.symm.trans hfound)
  split at hbody
  · rename_i side hkind
    obtain ⟨loaded, hloaded, hok⟩ := except_bind_eq_ok.mp hbody
    have hexpand := orRaise_eq_ok.mp hloaded
    rw [hshape, h.shape] at hexpand
    obtain rfl := Except.ok.inj hok
    have hside : ∀ side', some side = some side' ↔ keyKind item.1 = some (.weight side') := by
      intro side'
      rw [hkind, Option.some.injEq, Option.some.injEq, KeyKind.weight.injEq]
    refine ⟨fun _ => ⟨hready, fun side' hbias => ?_, fun side' hkind' => ?_⟩,
      h.store hname hready hweights hside (fun side' hside' => ?_) fun side' hside' => ?_⟩
    · nomatch hkind.symm.trans hbias
    · obtain rfl := Option.some.inj ((hside side').mpr hkind')
      rw [hexpand]
      rfl
    · obtain rfl := Option.some.inj hside'
      rw [hexpand, LoraWeights.get_set_self]
    · exact LoraWeights.get_set_of_ne _ _ fun hsame => hside' (congrArg some hsame)
  · nomatch hbody
  · rename_i hkind
    obtain rfl := Except.ok.inj hbody
    refine ⟨fun _ => ⟨hready, fun side hbias => ?_, fun side hkind' => ?_⟩,
      h.store hname hready hweights (fun side => ?_) (fun side hside => nomatch hside)
        fun _ _ => rfl⟩
    · nomatch hkind.symm.trans hbias
    · nomatch hkind.symm.trans hkind'
    · rw [hkind]
      exact iff_of_false nofun nofun

variable (peft) in
/-- And a key that fits is loaded. -/
theorem loadKey_returns (h : Loaded config adapterName childName layer items s)
    (hfits : childName <:+: item.1 → KeyFits config adapterName layer item) :
    ∃ s', loadKey peft config adapterName childName s item = .ok s' := by
  rw [loadKey]
  by_cases hname : childName <:+: item.1
  · obtain ⟨hready, hbias, hexpands⟩ := hfits hname
    obtain ⟨weights, hweights, hshape⟩ := LoraLinear.weights_ok peft
      (show s.layer.Ready config adapterName from hready.imp h.kept id)
    rw [if_neg (not_not.mpr hname), hweights]
    simp only [bind, Except.bind]
    cases hkind : keyKind item.1 with
    | none => exact ⟨_, rfl⟩
    | some kind =>
      cases kind with
      | bias side => exact absurd hkind (hbias side)
      | weight side =>
        obtain ⟨loaded, hloaded⟩ := Option.isSome_iff_exists.mp (hexpands side hkind)
        rw [← h.shape, ← hshape] at hloaded
        exact ⟨s.store adapterName (weights.set loaded side) (some side), by
          simp only [hloaded, orRaise]⟩
  · exact ⟨s, if_pos hname⟩

/-- **The loop over the keys** returns if and only if they all fit. -/
theorem loadKeys_ok {s' : LoadState α}
    (hload : items.foldlM (loadKey peft config adapterName childName) ⟨layer, false, false⟩
      = .ok s') :
    (∀ item ∈ items, childName <:+: item.1 → KeyFits config adapterName layer item) ∧
      Loaded config adapterName childName layer items s' := by
  induction items using List.reverseRecOn generalizing s' with
  | nil =>
    obtain rfl := Except.ok.inj hload
    exact ⟨nofun, fun hmem => .inl hmem, id, fun _ => rfl, fun _ => rfl, nofun, rfl, rfl, nofun⟩
  | append_singleton items item ih =>
    rw [List.foldlM_append] at hload
    obtain ⟨s, hs, hlast⟩ := except_bind_eq_ok.mp hload
    obtain ⟨hfits, hloaded⟩ := ih hs
    rw [List.foldlM_cons] at hlast
    obtain ⟨s₁, hs₁, hnil⟩ := except_bind_eq_ok.mp hlast
    obtain rfl := Except.ok.inj hnil
    obtain ⟨hitem, hloaded'⟩ := loadKey_ok hloaded hs₁
    refine ⟨fun item' hmem => ?_, hloaded'⟩
    rcases List.mem_append.mp hmem with hmem | hmem
    · exact hfits item' hmem
    · obtain rfl := List.mem_singleton.mp hmem
      exact hitem

variable (peft) in
/-- With the shapes right for every key that is read, the loop over the keys does not raise. -/
theorem loadKeys_returns
    (hfits : ∀ item ∈ items, childName <:+: item.1 → KeyFits config adapterName layer item) :
    ∃ s, items.foldlM (loadKey peft config adapterName childName) ⟨layer, false, false⟩
      = .ok s := by
  induction items using List.reverseRecOn with
  | nil => exact ⟨_, rfl⟩
  | append_singleton items item ih =>
    obtain ⟨s, hs⟩ := ih fun item' hmem => hfits item' (List.mem_append_left _ hmem)
    obtain ⟨s', hs'⟩ := loadKey_returns peft (loadKeys_ok hs).2
      (hfits item (List.mem_append_right _ (List.mem_singleton_self item)))
    refine ⟨s', ?_⟩
    rw [List.foldlM_append, hs]
    show List.foldlM (loadKey peft config adapterName childName) s [item] = _
    rw [List.foldlM_cons, hs']
    rfl

end Step

/-! ## One layer -/

variable {fullmatch : Text → Text → Bool} {base : Text} {blockIndex : Nat}
  {stateDict : AList fun _ : Text => Tensor α} {child : LoraChild α}

omit [Zero α] in
theorem selects_of_targets (h : config.targetModules.Targets fullmatch childName) :
    config.targetModules.selects fullmatch childName := by
  revert h
  cases config.targetModules with
  | names names => exact id
  | pattern pattern => exact .inr

/-- A layer that is returned is what the loop has made of it. -/
theorem loadLayer_selected {layer layer' : LoraLinear α}
    (hselects : config.targetModules.selects fullmatch childName)
    (h : loadLayer peft config adapterName fullmatch blockIndex stateDict childName layer
      = .ok layer') :
    ∃ s, stateDict.entries.foldlM (loadKey peft config adapterName childName)
        ⟨layer, false, false⟩ = .ok s ∧ s.layer = layer' := by
  rw [loadLayer, if_pos hselects] at h
  obtain ⟨s, hs, hbody⟩ := except_bind_eq_ok.mp h
  refine ⟨s, hs, ?_⟩
  split at hbody
  · exact Except.ok.inj hbody
  · split at hbody
    · nomatch hbody
    · exact Except.ok.inj hbody

/-- **A layer that is targeted** gets its own tensors. -/
theorem loadLayer_targeted_iff
    (htargets : config.targetModules.Targets fullmatch child.childName) :
    (∃ layer, loadLayer peft config adapterName fullmatch blockIndex stateDict child.childName
        child.layer = .ok layer ∧
      HoldsOwn config adapterName fullmatch base stateDict { child with layer := layer })
      ↔ LastIsOwn config adapterName base stateDict child := by
  have hselects := selects_of_targets htargets
  constructor
  · rintro ⟨layer, hload, hown⟩
    obtain ⟨s, hs, rfl⟩ := loadLayer_selected hselects hload
    obtain ⟨hfits, hloaded⟩ := loadKeys_ok hs
    obtain ⟨weights, hlookup, hstored⟩ := hown.targeted htargets
    refine ⟨hfits, fun side => ?_⟩
    have hown : stateDict.lookup (ownKey base child side) = some (weights.get side) := hstored side
    obtain ⟨t, ht⟩ := lastWeight_isSome (AList.mem_lookup_iff.mp hown)
      (childName_infix_ownKey base child side) (keyKind_ownKey base child side)
    obtain ⟨weights', hlookup', hexpand⟩ := hloaded.weights side t ht
    obtain rfl := Option.some.inj (hlookup.symm.trans hlookup')
    exact ⟨t, _, ht, hown, hexpand⟩
  · rintro ⟨hfits, hlast⟩
    obtain ⟨s, hs⟩ := loadKeys_returns peft hfits
    obtain ⟨-, hloaded⟩ := loadKeys_ok hs
    have hflag : ∀ side, (lastWeight stateDict.entries child.childName side).isSome = true := by
      intro side
      obtain ⟨t, -, ht, -⟩ := hlast side
      rw [ht]
      rfl
    have hreturns : loadLayer peft config adapterName fullmatch blockIndex stateDict child.childName
        child.layer = .ok s.layer := by
      rw [loadLayer, if_pos hselects, hs]
      exact if_pos (by rw [hloaded.isLoraALoaded, hloaded.isLoraBLoaded, hflag, hflag]; rfl)
    refine ⟨s.layer, hreturns, fun _ => ?_, fun hnot => absurd htargets hnot⟩
    obtain ⟨t, own, ht, -⟩ := hlast .loraA
    obtain ⟨weights, hlookup, -⟩ := hloaded.weights _ t ht
    refine ⟨weights, hlookup, fun side => ?_⟩
    obtain ⟨t, own, ht, hown, hexpand⟩ := hlast side
    obtain ⟨weights', hlookup', hexpand'⟩ := hloaded.weights side t ht
    obtain rfl := Option.some.inj (hlookup.symm.trans hlookup')
    exact hown.trans (hexpand.symm.trans hexpand')

/-- **A layer that is not** does not get the adapter. -/
theorem loadLayer_other_iff
    (htargets : ¬ config.targetModules.Targets fullmatch child.childName) :
    (∃ layer, loadLayer peft config adapterName fullmatch blockIndex stateDict child.childName
        child.layer = .ok layer ∧
      HoldsOwn config adapterName fullmatch base stateDict { child with layer := layer })
      ↔ Untouched config adapterName fullmatch stateDict child := by
  by_cases hselects : config.targetModules.selects fullmatch child.childName
  · constructor
    · rintro ⟨layer, hload, hown⟩
      obtain ⟨s, hs, rfl⟩ := loadLayer_selected hselects hload
      obtain ⟨-, hloaded⟩ := loadKeys_ok hs
      exact ⟨fun hmem => hown.other htargets (hloaded.kept hmem),
        fun _ item hmem hname => hown.other htargets (hloaded.touched item hmem hname)⟩
    · rintro ⟨habsent, hnoKey⟩
      have hfits : ∀ item ∈ stateDict.entries, child.childName <:+: item.1 →
          KeyFits config adapterName child.layer item :=
        fun item hmem hname => absurd hname (hnoKey hselects item hmem)
      obtain ⟨s, hs⟩ := loadKeys_returns peft hfits
      obtain rfl := (loadKeys_ok hs).2.untouched (hnoKey hselects)
      refine ⟨child.layer, ?_, fun h => absurd h htargets, fun _ => habsent⟩
      rw [loadLayer, if_pos hselects, hs]
      rfl
  · have hreturns : loadLayer peft config adapterName fullmatch blockIndex stateDict child.childName
        child.layer = .ok child.layer := if_neg hselects
    constructor
    · rintro ⟨layer, hload, hown⟩
      obtain rfl := Except.ok.inj (hreturns.symm.trans hload)
      exact ⟨hown.other htargets, fun h => absurd h hselects⟩
    · intro huntouched
      exact ⟨child.layer, hreturns, fun h => absurd h htargets, fun _ => huntouched.absent⟩

/-- Names that keep the layers apart: no key but its own has the name of a layer in it and ends like
    a tensor of an adapter. -/
theorem lastIsOwn_of_apart (hr : 0 < config.r)
    (hstored : ∀ side, ∃ own, stateDict.lookup (ownKey base child side) = some own ∧
      own.shape = weightShape config adapterName child.layer side)
    (hbias : ∀ item ∈ stateDict.entries, child.childName <:+: item.1 →
      ∀ side, keyKind item.1 ≠ some (.bias side))
    (hapart : ∀ item ∈ stateDict.entries, child.childName <:+: item.1 →
      ∀ side, keyKind item.1 = some (.weight side) → item.1 = ownKey base child side) :
    LastIsOwn config adapterName base stateDict child := by
  have hexpand : ∀ side own, stateDict.lookup (ownKey base child side) = some own →
      own.expandTo (weightShape config adapterName child.layer side) = some own := by
    intro side own hown
    obtain ⟨own', hown', hshape⟩ := hstored side
    obtain rfl := Option.some.inj (hown.symm.trans hown')
    rw [← hshape]
    exact Tensor.expandTo_self own
  have hlookup : ∀ item ∈ stateDict.entries, child.childName <:+: item.1 → ∀ side,
      keyKind item.1 = some (.weight side) →
        stateDict.lookup (ownKey base child side) = some item.2 := by
    intro item hmem hname side hkind
    rw [← hapart item hmem hname side hkind]
    exact AList.mem_lookup_iff.mpr hmem
  refine ⟨fun item hmem hname => ⟨.inr hr, hbias item hmem hname, fun side hkind => ?_⟩,
    fun side => ?_⟩
  · rw [hexpand side item.2 (hlookup item hmem hname side hkind)]
    rfl
  · obtain ⟨own, hown, -⟩ := hstored side
    have hmem := AList.mem_lookup_iff.mp hown
    obtain ⟨t, ht⟩ := lastWeight_isSome hmem (childName_infix_ownKey base child side)
      (keyKind_ownKey base child side)
    obtain ⟨item, hitem, rfl⟩ := Option.map_eq_some_iff.mp ht
    obtain ⟨hitemMem, hmatch⟩ := List.mem_filter.mp (List.mem_of_getLast? hitem)
    obtain ⟨hname, hkind⟩ := of_decide_eq_true hmatch
    have hsame := hlookup item hitemMem hname side hkind
    obtain rfl := Option.some.inj (hsame.symm.trans hown)
    exact ⟨_, _, ht, hown, hexpand side _ hown⟩

end Loop

/-! ## All layers -/

/-- All of a list are mapped, and what they become keeps `g` and has `P`. -/
theorem exists_mapM_iff {β γ : Type} {f : β → Except PyExc β} {g : β → γ} {P : β → Prop} :
    ∀ {xs : List β}, (∃ ys, xs.mapM f = .ok ys ∧ ys.map g = xs.map g ∧ ∀ y ∈ ys, P y) ↔
      ∀ x ∈ xs, ∃ y, f x = .ok y ∧ g y = g x ∧ P y
  | [] => iff_of_true ⟨[], rfl, rfl, nofun⟩ nofun
  | x :: xs => by
    have ih := @exists_mapM_iff β γ f g P xs
    rw [List.forall_mem_cons, ← ih]
    constructor
    · rintro ⟨ys, hmap, hsame, hall⟩
      rw [List.mapM_cons] at hmap
      obtain ⟨y, hy, hrest⟩ := except_bind_eq_ok.mp hmap
      obtain ⟨ys', hys', hok⟩ := except_bind_eq_ok.mp hrest
      obtain rfl := Except.ok.inj hok
      rw [List.map_cons, List.map_cons, List.cons.injEq] at hsame
      rw [List.forall_mem_cons] at hall
      exact ⟨⟨y, hy, hsame.1, hall.1⟩, ys', hys', hsame.2, hall.2⟩
    · rintro ⟨⟨y, hy, hsame, hP⟩, ys, hys, hsames, hall⟩
      refine ⟨y :: ys, ?_, ?_, List.forall_mem_cons.mpr ⟨hP, hall⟩⟩
      · rw [List.mapM_cons, hy, hys]
        rfl
      · rw [List.map_cons, List.map_cons, hsame, hsames]

/-- The block is as it should be if each layer is. -/
theorem addAdapterToBlock_layers [Zero α] {peft : PeftLibrary α} {config : LoraConfig}
    {adapterName : Text} {fullmatch : Text → Text → Bool}
    {block : ModuleTree (LinearLayer α)} {blockIndex : Nat} {base : Text}
    {stateDict : AList fun _ : Text => Tensor α} :
    (∃ children,
        addAdapterToBlock peft config adapterName fullmatch block blockIndex stateDict
          = .ok children ∧
        AdapterOwn config adapterName fullmatch base stateDict block children) ↔
      config.peftType = "LORA" ∧ ∀ child ∈ loraChildren block,
        ∃ layer, loadLayer peft config adapterName fullmatch blockIndex stateDict child.childName
            child.layer = .ok layer ∧
          HoldsOwn config adapterName fullmatch base stateDict { child with layer := layer } := by
  have hchild : ∀ child : LoraChild α,
      (∃ child', (do
          let layer ← loadLayer peft config adapterName fullmatch blockIndex stateDict
            child.childName child.layer
          Except.ok { child with layer := layer }) = Except.ok child' ∧ child'.path = child.path ∧
        HoldsOwn config adapterName fullmatch base stateDict child') ↔
      ∃ layer, loadLayer peft config adapterName fullmatch blockIndex stateDict child.childName
            child.layer = .ok layer ∧
          HoldsOwn config adapterName fullmatch base stateDict { child with layer := layer } := by
    intro child
    constructor
    · rintro ⟨child', hload, -, hown⟩
      obtain ⟨layer, hlayer, hok⟩ := except_bind_eq_ok.mp hload
      obtain rfl := Except.ok.inj hok
      exact ⟨layer, hlayer, hown⟩
    · rintro ⟨layer, hlayer, hown⟩
      exact ⟨{ child with layer := layer }, by rw [hlayer]; rfl, rfl, hown⟩
  simp only [← hchild]
  rw [← exists_mapM_iff]
  by_cases htype : config.peftType = "LORA"
  · rw [addAdapterToBlock, if_neg (not_not.mpr htype)]
    constructor
    · rintro ⟨children, hmap, hpaths, hholds⟩
      exact ⟨htype, children, hmap, hpaths, hholds⟩
    · rintro ⟨-, children, hmap, hpaths, hholds⟩
      exact ⟨children, hmap, hpaths, hholds⟩
  · rw [addAdapterToBlock, if_pos htype]
    exact iff_of_false (fun ⟨_, h, _⟩ => nomatch h) fun h => htype h.1

/-- **The weights go to their own layer exactly when the names do not mix them up**: the adapter is
    a LoRA one; every key that has the name of a targeted layer in it fits, and the last of them are
    its own; and a layer that is not targeted does not have the adapter, nor, if its name is a part
    of the pattern, is its name in any key. -/
theorem addAdapterToBlock_own_iff [Zero α] (peft : PeftLibrary α) (config : LoraConfig)
    (adapterName : Text) (fullmatch : Text → Text → Bool)
    (block : ModuleTree (LinearLayer α)) (blockIndex : Nat) (base : Text)
    (stateDict : AList fun _ : Text => Tensor α) :
    (∃ children,
        addAdapterToBlock peft config adapterName fullmatch block blockIndex stateDict
          = .ok children ∧
        AdapterOwn config adapterName fullmatch base stateDict block children) ↔
      config.peftType = "LORA" ∧ ∀ child ∈ loraChildren block,
        (config.targetModules.Targets fullmatch child.childName →
          LastIsOwn config adapterName base stateDict child) ∧
        (¬ config.targetModules.Targets fullmatch child.childName →
          Untouched config adapterName fullmatch stateDict child) := by
  rw [addAdapterToBlock_layers]
  refine and_congr_right fun _ => forall₂_congr fun child _ => ?_
  by_cases htargets : config.targetModules.Targets fullmatch child.childName
  · rw [loadLayer_targeted_iff htargets]
    exact ⟨fun h => ⟨fun _ => h, fun hnot => absurd htargets hnot⟩, fun h => h.1 htargets⟩
  · rw [loadLayer_other_iff htargets]
    exact ⟨fun h => ⟨fun h' => absurd h' htargets, fun _ => h⟩, fun h => h.2 htargets⟩

/-! ## Names that are parts of one another -/

/-- Two layers of a block. -/
def denseBlock : ModuleTree (LinearLayer Int) :=
  .node [("mlp".toList, .node [("dense".toList, .leaf (.linear 1 1)),
    ("dense_h_to_4h".toList, .leaf (.linear 1 1))])]

def denseConfig : LoraConfig where
  peftType := "LORA"
  targetModules := .names ["dense".toList, "dense_h_to_4h".toList]
  r := 1
  loraAlpha := 1
  loraDropout := 0
  initLoraWeights := true
  useRslora := none

def zeroWeights : PeftLibrary Int where
  initial r _ _ _ _ inFeatures outFeatures :=
    ⟨Tensor.zeros [r, inFeatures], Tensor.zeros [outFeatures, r]⟩
  shape_loraA _ _ _ _ _ _ _ := rfl
  shape_loraB _ _ _ _ _ _ _ := rfl

/-- The tensors of both, those of `dense` first. -/
def denseStateDict : AList fun _ : Text => Tensor Int where
  entries :=
    [⟨"mlp.dense.lora_A.weight".toList, Tensor.ofFn [1, 1] fun _ => 1⟩,
      ⟨"mlp.dense.lora_B.weight".toList, Tensor.ofFn [1, 1] fun _ => 2⟩,
      ⟨"mlp.dense_h_to_4h.lora_A.weight".toList, Tensor.ofFn [1, 1] fun _ => 3⟩,
      ⟨"mlp.dense_h_to_4h.lora_B.weight".toList, Tensor.ofFn [1, 1] fun _ => 4⟩]
  nodupKeys := by
    show (List.map Sigma.fst _).Nodup
    decide

def denseChild : LoraChild Int := ⟨["mlp".toList], "dense".toList, ⟨1, 1, ∅⟩⟩

def denseHTo4hChild : LoraChild Int := ⟨["mlp".toList], "dense_h_to_4h".toList, ⟨1, 1, ∅⟩⟩

/-- `dense` gets what `dense_h_to_4h` should. -/
theorem dense_gets_other_weights :
    (∀ child ∈ loraChildren (createLoraAdapter denseBlock), ∀ side,
      (denseStateDict.lookup (ownKey [] child side)).isSome = true) ∧
    ¬ ∃ children, addAdapterToBlock zeroWeights denseConfig "adapter".toList
          (fun pattern name => pattern == name) (createLoraAdapter denseBlock) 0 denseStateDict
          = .ok children ∧
        AdapterOwn denseConfig "adapter".toList (fun pattern name => pattern == name) []
          denseStateDict (createLoraAdapter denseBlock) children := by
  have hchildren : loraChildren (createLoraAdapter denseBlock)
      = [denseChild, denseHTo4hChild] := rfl
  have hentries : denseStateDict.entries = denseStateDict.entries.take 2 ++
      [⟨"mlp.dense_h_to_4h.lora_A.weight".toList, Tensor.ofFn [1, 1] fun _ => 3⟩] ++
      [⟨"mlp.dense_h_to_4h.lora_B.weight".toList, Tensor.ofFn [1, 1] fun _ => 4⟩] := rfl
  have hname : "dense".toList <:+: "mlp.dense_h_to_4h.lora_A.weight".toList :=
    ⟨"mlp.".toList, "_h_to_4h.lora_A.weight".toList, by decide⟩
  rw [hchildren]
  constructor
  · intro child hmem side
    simp only [List.mem_cons, List.not_mem_nil, or_false] at hmem
    rcases hmem with rfl | rfl <;> cases side <;> decide
  · rw [addAdapterToBlock_layers, hchildren]
    rintro ⟨-, hall⟩
    have hlast := (loadLayer_targeted_iff (List.mem_cons_self)).mp (hall _ List.mem_cons_self)
    obtain ⟨t, own, ht, hown, hexpand⟩ := hlast.last .loraA
    rw [hentries, lastWeight_concat, if_neg (fun h => absurd h.2 (by decide)), lastWeight_concat,
      if_pos ⟨hname, by decide⟩] at ht
    obtain rfl := Option.some.inj ht
    have hstored : denseStateDict.lookup (ownKey [] denseChild .loraA)
        = some (Tensor.ofFn [1, 1] fun _ => 1) := by decide
    rw [hstored] at hown
    obtain rfl := Option.some.inj hown
    revert hexpand
    decide

end Drift
