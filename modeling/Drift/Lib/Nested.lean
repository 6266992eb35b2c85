/-
  Nested tuples, lists and dicts with string keys, and the traversals that flatten them and pack
  them again.

  Both traversals meet the items of a dict in the order of the keys.  So they meet the leaves of
  `t.sortKeys` from left to right.  A structure is determined by its shape and its leaves
  (`Nested.ext`), and packing fills the shape with other leaves (`Nested.fill_shape`).  That is why
  to flatten, to map the leaves and to pack again keeps every leaf in its place.

  Two dicts are equal if they have the same items in any order: of structures, if `sortKeys` makes
  them the same.  `listed` forgets which sequences were tuples.
-/
import Drift.Lib.Text
import Mathlib.Data.Char
import Mathlib.Data.List.Lex
import Mathlib.Data.List.Sort

namespace Drift

inductive Nested (α : Type) where
  | leaf (value : α)
  | tuple (items : List (Nested α))
  | list (items : List (Nested α))
  | dict (entries : List (Text × Nested α))

namespace Nested

variable {α β : Type}

/-! ## The operations -/

/-- The order in which `sorted` puts the items of a dict. -/
def KeyLe (entry entry' : Text × Nested α) : Prop := entry.1 ≤ entry'.1

instance : DecidableRel (KeyLe (α := α)) := fun entry entry' =>
  inferInstanceAs (Decidable (entry.1 ≤ entry'.1))

mutual

/-- The same structure, with the items of every dict in the order of the keys. -/
def sortKeys : Nested α → Nested α
  | leaf value => leaf value
  | tuple items => tuple (sortItems items)
  | list items => list (sortItems items)
  | dict entries => dict ((sortEntries entries).insertionSort KeyLe)

def sortItems : List (Nested α) → List (Nested α)
  | [] => []
  | t :: items => t.sortKeys :: sortItems items

def sortEntries : List (Text × Nested α) → List (Text × Nested α)
  | [] => []
  | (key, t) :: entries => (key, t.sortKeys) :: sortEntries entries

end

mutual

/-- The leaves from left to right. -/
def leaves : Nested α → List α
  | leaf value => [value]
  | tuple items => leavesItems items
  | list items => leavesItems items
  | dict entries => leavesEntries entries

def leavesItems : List (Nested α) → List α
  | [] => []
  | t :: items => t.leaves ++ leavesItems items

def leavesEntries : List (Text × Nested α) → List α
  | [] => []
  | (_, t) :: entries => t.leaves ++ leavesEntries entries

end

mutual

/-- Each leaf is replaced by the next value, from left to right; the values that are left. -/
def fill : Nested α → List β → Option (Nested β × List β)
  | leaf _, [] => none
  | leaf _, value :: values => some (leaf value, values)
  | tuple items, values => (fillItems items values).map fun filled => (tuple filled.1, filled.2)
  | list items, values => (fillItems items values).map fun filled => (list filled.1, filled.2)
  | dict entries, values => (fillEntries entries values).map fun filled => (dict filled.1, filled.2)

def fillItems : List (Nested α) → List β → Option (List (Nested β) × List β)
  | [], values => some ([], values)
  | t :: items, values =>
    (t.fill values).bind fun first =>
      (fillItems items first.2).map fun rest => (first.1 :: rest.1, rest.2)

def fillEntries : List (Text × Nested α) → List β → Option (List (Text × Nested β) × List β)
  | [], values => some ([], values)
  | (key, t) :: entries, values =>
    (t.fill values).bind fun first =>
      (fillEntries entries first.2).map fun rest => ((key, first.1) :: rest.1, rest.2)

end

/-- `nested_flatten`. -/
def flatten (t : Nested α) : List α := t.sortKeys.leaves

/-- `nested_pack`: `none` if there are too few values. -/
def pack (values : List β) (t : Nested α) : Option (Nested β) :=
  (t.sortKeys.fill values).map (·.1)

mutual

/-- The structure without its leaves. -/
def shape : Nested α → Nested Unit
  | leaf _ => leaf ()
  | tuple items => tuple (shapeItems items)
  | list items => list (shapeItems items)
  | dict entries => dict (shapeEntries entries)

def shapeItems : List (Nested α) → List (Nested Unit)
  | [] => []
  | t :: items => t.shape :: shapeItems items

def shapeEntries : List (Text × Nested α) → List (Text × Nested Unit)
  | [] => []
  | (key, t) :: entries => (key, t.shape) :: shapeEntries entries

end

mutual

/-- Every tuple has become a list. -/
def listed : Nested α → Nested α
  | leaf value => leaf value
  | tuple items => list (listedItems items)
  | list items => list (listedItems items)
  | dict entries => dict (listedEntries entries)

def listedItems : List (Nested α) → List (Nested α)
  | [] => []
  | t :: items => t.listed :: listedItems items

def listedEntries : List (Text × Nested α) → List (Text × Nested α)
  | [] => []
  | (key, t) :: entries => (key, t.listed) :: listedEntries entries

end

/-! ## Filling -/

mutual

/-- **A shape is filled with the leaves of a structure of this shape**, which is what comes out. -/
theorem fill_leaves : ∀ (t : Nested α) (t' : Nested β) (rest : List β), t.shape = t'.shape →
    t.fill (t'.leaves ++ rest) = some (t', rest)
  | leaf _, leaf _, _, _ => rfl
  | tuple items, tuple items', rest, h => by
    rw [fill, leaves, fillItems_leaves items items' rest (tuple.inj h)]
    rfl
  | list items, list items', rest, h => by
    rw [fill, leaves, fillItems_leaves items items' rest (list.inj h)]
    rfl
  | dict entries, dict entries', rest, h => by
    rw [fill, leaves, fillEntries_leaves entries entries' rest (dict.inj h)]
    rfl

theorem fillItems_leaves : ∀ (items : List (Nested α)) (items' : List (Nested β)) (rest : List β),
    shapeItems items = shapeItems items' →
    fillItems items (leavesItems items' ++ rest) = some (items', rest)
  | [], [], _, _ => rfl
  | t :: items, t' :: items', rest, h => by
    obtain ⟨hhead, htail⟩ := List.cons.inj h
    rw [fillItems, leavesItems, List.append_assoc, fill_leaves t t' _ hhead, Option.bind_some,
      fillItems_leaves items items' rest htail]
    rfl

theorem fillEntries_leaves : ∀ (entries : List (Text × Nested α))
    (entries' : List (Text × Nested β)) (rest : List β),
    shapeEntries entries = shapeEntries entries' →
    fillEntries entries (leavesEntries entries' ++ rest) = some (entries', rest)
  | [], [], _, _ => rfl
  | (key, t) :: entries, (key', t') :: entries', rest, h => by
    obtain ⟨hhead, htail⟩ := List.cons.inj h
    obtain ⟨rfl, hshape⟩ := Prod.mk.inj hhead
    rw [fillEntries, leavesEntries, List.append_assoc, fill_leaves t t' _ hshape, Option.bind_some,
      fillEntries_leaves entries entries' rest htail]
    rfl

end

/-- A structure is determined by its shape and its leaves. -/
theorem ext {t t' : Nested α} (hshape : t.shape = t'.shape) (hleaves : t.leaves = t'.leaves) :
    t = t' := by
  have hself := fill_leaves t t [] rfl
  rw [hleaves, fill_leaves t t' [] hshape] at hself
  exact (Prod.mk.inj (Option.some.inj hself)).1.symm

mutual

/-- The shape says how many leaves there are. -/
theorem length_leaves : ∀ (t : Nested α) (t' : Nested β), t.shape = t'.shape →
    t.leaves.length = t'.leaves.length
  | leaf _, leaf _, _ => rfl
  | tuple items, tuple items', h => length_leavesItems items items' (tuple.inj h)
  | list items, list items', h => length_leavesItems items items' (list.inj h)
  | dict entries, dict entries', h => length_leavesEntries entries entries' (dict.inj h)

theorem length_leavesItems : ∀ (items : List (Nested α)) (items' : List (Nested β)),
    shapeItems items = shapeItems items' →
    (leavesItems items).length = (leavesItems items').length
  | [], [], _ => rfl
  | t :: items, t' :: items', h => by
    obtain ⟨hhead, htail⟩ := List.cons.inj h
    rw [leavesItems, leavesItems, List.length_append, List.length_append, length_leaves t t' hhead,
      length_leavesItems items items' htail]

theorem length_leavesEntries : ∀ (entries : List (Text × Nested α))
    (entries' : List (Text × Nested β)), shapeEntries entries = shapeEntries entries' →
    (leavesEntries entries).length = (leavesEntries entries').length
  | [], [], _ => rfl
  | (_, t) :: entries, (_, t') :: entries', h => by
    obtain ⟨hhead, htail⟩ := List.cons.inj h
    rw [leavesEntries, leavesEntries, List.length_append, List.length_append,
      length_leaves t t' (Prod.mk.inj hhead).2, length_leavesEntries entries entries' htail]

end

mutual

/-- **As many values as there are leaves** fill a structure. -/
theorem exists_fill : ∀ (t : Nested α) (values : List β), t.leaves.length = values.length →
    ∃ t' : Nested β, t.shape = t'.shape ∧ t'.leaves = values
  | leaf _, [value], _ => ⟨leaf value, rfl, rfl⟩
  | tuple items, values, h => by
    obtain ⟨items', hshape, hleaves⟩ := exists_fillItems items values h
    exact ⟨tuple items', congrArg tuple hshape, hleaves⟩
  | list items, values, h => by
    obtain ⟨items', hshape, hleaves⟩ := exists_fillItems items values h
    exact ⟨list items', congrArg list hshape, hleaves⟩
  | dict entries, values, h => by
    obtain ⟨entries', hshape, hleaves⟩ := exists_fillEntries entries values h
    exact ⟨dict entries', congrArg dict hshape, hleaves⟩

theorem exists_fillItems : ∀ (items : List (Nested α)) (values : List β),
    (leavesItems items).length = values.length →
    ∃ items' : List (Nested β), shapeItems items = shapeItems items' ∧ leavesItems items' = values
  | [], [], _ => ⟨[], rfl, rfl⟩
  | t :: items, values, h => by
    rw [leavesItems, List.length_append] at h
    obtain ⟨t', hshape, hleaves⟩ := exists_fill t (values.take t.leaves.length)
      (by rw [List.length_take]; omega)
    obtain ⟨items', hshapes, hrest⟩ := exists_fillItems items (values.drop t.leaves.length)
      (by rw [List.length_drop]; omega)
    refine ⟨t' :: items', ?_, ?_⟩
    · rw [shapeItems, shapeItems, hshape, hshapes]
    · rw [leavesItems, hleaves, hrest, List.take_append_drop]

theorem exists_fillEntries : ∀ (entries : List (Text × Nested α)) (values : List β),
    (leavesEntries entries).length = values.length →
    ∃ entries' : List (Text × Nested β),
      shapeEntries entries = shapeEntries entries' ∧ leavesEntries entries' = values
  | [], [], _ => ⟨[], rfl, rfl⟩
  | (key, t) :: entries, values, h => by
    rw [leavesEntries, List.length_append] at h
    obtain ⟨t', hshape, hleaves⟩ := exists_fill t (values.take t.leaves.length)
      (by rw [List.length_take]; omega)
    obtain ⟨entries', hshapes, hrest⟩ := exists_fillEntries entries (values.drop t.leaves.length)
      (by rw [List.length_drop]; omega)
    refine ⟨(key, t') :: entries', ?_, ?_⟩
    · rw [shapeEntries, shapeEntries, hshape, hshapes]
    · rw [leavesEntries, hleaves, hrest, List.take_append_drop]

end

/-! ## Sorted keys -/

mutual

/-- The items of every dict are in the order of the keys. -/
def KeysSorted : Nested α → Prop
  | leaf _ => True
  | tuple items => KeysSortedItems items
  | list items => KeysSortedItems items
  | dict entries => entries.Pairwise KeyLe ∧ KeysSortedEntries entries

def KeysSortedItems : List (Nested α) → Prop
  | [] => True
  | t :: items => t.KeysSorted ∧ KeysSortedItems items

def KeysSortedEntries : List (Text × Nested α) → Prop
  | [] => True
  | (_, t) :: entries => t.KeysSorted ∧ KeysSortedEntries entries

end

theorem keysSortedEntries_iff {entries : List (Text × Nested α)} :
    KeysSortedEntries entries ↔ ∀ entry ∈ entries, entry.2.KeysSorted := by
  induction entries with
  | nil => exact iff_of_true trivial fun _ h => nomatch h
  | cons entry entries ih => rw [KeysSortedEntries, ih, List.forall_mem_cons]

theorem pairwise_insertionSort_keyLe (entries : List (Text × Nested α)) :
    (entries.insertionSort KeyLe).Pairwise KeyLe := by
  have : Std.Total (KeyLe (α := α)) := ⟨fun entry entry' => le_total entry.1 entry'.1⟩
  have : IsTrans (Text × Nested α) KeyLe := ⟨fun _ _ _ h h' => le_trans (α := Text) h h'⟩
  exact List.pairwise_insertionSort _ _

mutual

theorem keysSorted_sortKeys : ∀ t : Nested α, t.sortKeys.KeysSorted
  | leaf _ => trivial
  | tuple items => keysSorted_sortItems items
  | list items => keysSorted_sortItems items
  | dict entries => by
    refine ⟨pairwise_insertionSort_keyLe _, keysSortedEntries_iff.mpr fun entry hmem => ?_⟩
    rw [(List.perm_insertionSort _ _).mem_iff] at hmem
    exact keysSortedEntries_iff.mp (keysSorted_sortEntries entries) entry hmem

theorem keysSorted_sortItems : ∀ items : List (Nested α), KeysSortedItems (sortItems items)
  | [] => trivial
  | t :: items => ⟨keysSorted_sortKeys t, keysSorted_sortItems items⟩

theorem keysSorted_sortEntries : ∀ entries : List (Text × Nested α),
    KeysSortedEntries (sortEntries entries)
  | [] => trivial
  | (_, t) :: entries => ⟨keysSorted_sortKeys t, keysSorted_sortEntries entries⟩

end

mutual

theorem sortKeys_of_keysSorted : ∀ t : Nested α, t.KeysSorted → t.sortKeys = t
  | leaf _, _ => rfl
  | tuple items, h => by rw [sortKeys, sortItems_of_keysSorted items h]
  | list items, h => by rw [sortKeys, sortItems_of_keysSorted items h]
  | dict entries, h => by
    rw [sortKeys, sortEntries_of_keysSorted entries h.2, h.1.insertionSort_eq]

theorem sortItems_of_keysSorted : ∀ items : List (Nested α), KeysSortedItems items →
    sortItems items = items
  | [], _ => rfl
  | t :: items, h => by
    rw [sortItems, sortKeys_of_keysSorted t h.1, sortItems_of_keysSorted items h.2]

theorem sortEntries_of_keysSorted : ∀ entries : List (Text × Nested α), KeysSortedEntries entries →
    sortEntries entries = entries
  | [], _ => rfl
  | (_, t) :: entries, h => by
    rw [sortEntries, sortKeys_of_keysSorted t h.1, sortEntries_of_keysSorted entries h.2]

end

theorem shapeEntries_eq_map (entries : List (Text × Nested α)) :
    shapeEntries entries = entries.map fun entry => (entry.1, entry.2.shape) := by
  induction entries with
  | nil => rfl
  | cons entry entries ih => rw [shapeEntries, ih, List.map_cons]

mutual

/-- Whether the keys are sorted can be seen from the shape. -/
theorem keysSorted_shape : ∀ t : Nested α, t.shape.KeysSorted ↔ t.KeysSorted
  | leaf _ => Iff.rfl
  | tuple items => keysSorted_shapeItems items
  | list items => keysSorted_shapeItems items
  | dict entries => by
    rw [shape, KeysSorted, KeysSorted, keysSorted_shapeEntries entries, shapeEntries_eq_map,
      List.pairwise_map]
    rfl

theorem keysSorted_shapeItems : ∀ items : List (Nested α),
    KeysSortedItems (shapeItems items) ↔ KeysSortedItems items
  | [] => Iff.rfl
  | t :: items => and_congr (keysSorted_shape t) (keysSorted_shapeItems items)

theorem keysSorted_shapeEntries : ∀ entries : List (Text × Nested α),
    KeysSortedEntries (shapeEntries entries) ↔ KeysSortedEntries entries
  | [] => Iff.rfl
  | (_, t) :: entries => and_congr (keysSorted_shape t) (keysSorted_shapeEntries entries)

end

/-- What has the shape of a sorted structure is sorted. -/
theorem sortKeys_of_shape {t : Nested α} {t' : Nested β} (h : t.shape = t'.sortKeys.shape) :
    t.sortKeys = t := by
  apply sortKeys_of_keysSorted
  rw [← keysSorted_shape, h, keysSorted_shape]
  exact keysSorted_sortKeys t'

/-! ## Tuples as lists -/

mutual

theorem leaves_listed : ∀ t : Nested α, t.listed.leaves = t.leaves
  | leaf _ => rfl
  | tuple items => leavesItems_listed items
  | list items => leavesItems_listed items
  | dict entries => leavesEntries_listed entries

theorem leavesItems_listed : ∀ items : List (Nested α),
    leavesItems (listedItems items) = leavesItems items
  | [] => rfl
  | t :: items => by
    rw [listedItems, leavesItems, leavesItems, leaves_listed t, leavesItems_listed items]

theorem leavesEntries_listed : ∀ entries : List (Text × Nested α),
    leavesEntries (listedEntries entries) = leavesEntries entries
  | [] => rfl
  | (_, t) :: entries => by
    rw [listedEntries, leavesEntries, leavesEntries, leaves_listed t, leavesEntries_listed entries]

end

mutual

theorem shape_listed : ∀ t : Nested α, t.listed.shape = t.shape.listed
  | leaf _ => rfl
  | tuple items => congrArg list (shapeItems_listed items)
  | list items => congrArg list (shapeItems_listed items)
  | dict entries => congrArg dict (shapeEntries_listed entries)

theorem shapeItems_listed : ∀ items : List (Nested α),
    shapeItems (listedItems items) = listedItems (shapeItems items)
  | [] => rfl
  | t :: items => by
    rw [listedItems, shapeItems, shapeItems, listedItems, shape_listed t, shapeItems_listed items]

theorem shapeEntries_listed : ∀ entries : List (Text × Nested α),
    shapeEntries (listedEntries entries) = listedEntries (shapeEntries entries)
  | [] => rfl
  | (_, t) :: entries => by
    rw [listedEntries, shapeEntries, shapeEntries, listedEntries, shape_listed t,
      shapeEntries_listed entries]

end

/-! ## To flatten and to pack -/

/-- Packing as many values as were flattened gives a sorted structure that flattens to them. -/
theorem pack_spec (t : Nested α) {values : List β} (h : values.length = t.flatten.length) :
    ∃ t' : Nested β, pack values t = some t' ∧ t'.shape = t.sortKeys.shape ∧ t'.sortKeys = t' ∧
      t'.leaves = values := by
  obtain ⟨t', hshape, hleaves⟩ := exists_fill t.sortKeys values h.symm
  refine ⟨t', ?_, hshape.symm, sortKeys_of_shape hshape.symm, hleaves⟩
  have hfill := fill_leaves t.sortKeys t' [] hshape
  rw [List.append_nil, hleaves] at hfill
  rw [pack, hfill]
  rfl

/-- **Packing undoes flattening**, into any structure of the same shape. -/
theorem pack_flatten {t : Nested α} {t' : Nested β} (h : t.sortKeys.shape = t'.sortKeys.shape) :
    pack t'.flatten t = some t'.sortKeys := by
  have hfill := fill_leaves t.sortKeys t'.sortKeys [] h
  rw [List.append_nil] at hfill
  rw [pack, flatten, hfill]
  rfl

/-- Also if it is of the same shape only after its tuples have become lists. -/
theorem pack_flatten_listed {t : Nested α} {t' : Nested β}
    (h : t.sortKeys.listed.shape = t'.sortKeys.listed.shape) :
    ∃ packed, pack t'.flatten t = some packed ∧
      packed.sortKeys.listed = t'.sortKeys.listed := by
  have hlength : t'.flatten.length = t.flatten.length := by
    have hlisted := length_leaves _ _ h
    rw [leaves_listed, leaves_listed] at hlisted
    exact hlisted.symm
  obtain ⟨packed, hpack, hshape, hsorted, hleaves⟩ := pack_spec t hlength
  refine ⟨packed, hpack, ?_⟩
  rw [hsorted]
  apply ext
  · rw [shape_listed, hshape, ← shape_listed, h]
  · rw [leaves_listed, leaves_listed, hleaves]
    rfl

end Nested

end Drift
