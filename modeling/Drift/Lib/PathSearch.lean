/-
  Paths in a graph that is given by the list of its edges.

  `walks` lists all walks of a length from one node, each of them last node first, and `searchPath`
  takes the first one that arrives, shorter ones first.  It need not look beyond as many steps as
  there are edges: where a walk comes back to a node the part between can be left out
  (`exists_nodup_isChain`), and a walk that comes back nowhere takes a different edge with every
  step.  So what it returns is a path, and it returns nothing only if there is none
  (`isPathOf_of_searchPath`, `not_isPathOf_of_searchPath`).
-/
import Mathlib.Data.List.Chain
import Mathlib.Data.List.Nodup
import Mathlib.Data.List.Perm.Subperm

namespace Drift

variable {ν : Type} {R : ν → ν → Prop}

/-- A list of nodes along the edges, from the one to the other. -/
structure IsPathOf (edges : List (ν × ν)) (source target : ν) (nodes : List ν) : Prop where
  head : nodes.head? = some source
  last : nodes.getLast? = some target
  chain : nodes.IsChain fun a b => (a, b) ∈ edges

/-! ## Leaving out the detours -/

/-- A chain between two nodes can be had without repetition. -/
theorem exists_nodup_isChain : ∀ {nodes : List ν}, nodes.IsChain R →
    ∃ path : List ν, path.Nodup ∧ path.IsChain R ∧ path.head? = nodes.head? ∧
      path.getLast? = nodes.getLast?
  | [], _ => ⟨[], List.nodup_nil, .nil, rfl, rfl⟩
  | [node], _ => ⟨[node], List.nodup_singleton node, .singleton node, rfl, rfl⟩
  | node :: next :: rest, h => by
    obtain ⟨hedge, hrest⟩ := List.isChain_cons_cons.mp h
    obtain ⟨path, hnodup, hchain, hhead, hlast⟩ := exists_nodup_isChain hrest
    by_cases hmem : node ∈ path
    · -- the walk comes back to the node: go on from there at once
      obtain ⟨before, behind, rfl⟩ := List.append_of_mem hmem
      refine ⟨node :: behind, hnodup.of_append_right, hchain.suffix (List.suffix_append _ _), rfl, ?_⟩
      rw [List.getLast?_cons_cons, ← hlast, List.getLast?_append_cons]
    · refine ⟨node :: path, List.nodup_cons.mpr ⟨hmem, hnodup⟩, hchain.cons ?_, rfl, ?_⟩
      · intro first hfirst
        rw [hhead] at hfirst
        obtain rfl := Option.some.inj hfirst
        exact hedge
      · rw [List.getLast?_cons_cons, ← hlast]
        cases path with
        | nil => cases hhead
        | cons first path => rw [List.getLast?_cons_cons]

/-- Without repetition, a path has at most as many steps as there are edges. -/
theorem length_le_of_nodup {edges : List (ν × ν)} : ∀ {nodes : List ν}, nodes.Nodup →
    nodes.IsChain (fun a b => (a, b) ∈ edges) → nodes.length ≤ edges.length + 1 := by
  intro nodes hnodup hchain
  cases nodes with
  | nil => exact Nat.zero_le _
  | cons node nodes =>
    have hsub : nodes ⊆ edges.map Prod.snd := by
      intro later hlater
      obtain ⟨before, behind, rfl⟩ := List.append_of_mem hlater
      -- the node before it has an edge to it
      cases hlast : (node :: before).getLast? with
      | none => cases List.getLast?_eq_none_iff.mp hlast
      | some last =>
        rw [← List.cons_append] at hchain
        have hedge := (List.isChain_append.mp hchain).2.2 last hlast later rfl
        exact List.mem_map.mpr ⟨_, hedge, rfl⟩
    have hle := (List.subperm_of_subset (List.nodup_cons.mp hnodup).2 hsub).length_le
    rw [List.length_map] at hle
    exact Nat.succ_le_succ hle

/-! ## The search -/

variable [DecidableEq ν]

/-- The walks of so many steps from the source, last node first. -/
def walks (edges : List (ν × ν)) (source : ν) : Nat → List (List ν)
  | 0 => [[source]]
  | n + 1 => (walks edges source n).flatMap fun walk =>
    edges.filterMap fun edge => if walk.head? = some edge.1 then some (edge.2 :: walk) else none

/-- A path with as few steps as possible. -/
def searchPath (edges : List (ν × ν)) (source target : ν) : Option (List ν) :=
  (((List.range (edges.length + 1)).flatMap (walks edges source)).find? fun walk =>
    walk.head? = some target).map List.reverse

theorem mem_walks {edges : List (ν × ν)} {source : ν} : ∀ {n : Nat} {walk : List ν},
    walk ∈ walks edges source n ↔
      walk.getLast? = some source ∧ walk.IsChain (fun a b => (b, a) ∈ edges) ∧ walk.length = n + 1
  | 0, walk => by
    rw [walks, List.mem_singleton]
    constructor
    · rintro rfl
      exact ⟨rfl, .singleton source, rfl⟩
    · rintro ⟨hlast, -, hlength⟩
      obtain ⟨node, rfl⟩ := List.length_eq_one_iff.mp hlength
      rw [show node = source from Option.some.inj hlast]
  | n + 1, walk => by
    rw [walks, List.mem_flatMap]
    constructor
    · rintro ⟨before, hbefore, hwalk⟩
      obtain ⟨edge, hedge, hwalk⟩ := List.mem_filterMap.mp hwalk
      split at hwalk
      · rename_i hhead
        obtain rfl := Option.some.inj hwalk
        obtain ⟨hlast, hchain, hlength⟩ := mem_walks.mp hbefore
        obtain ⟨rest, rfl⟩ := List.head?_eq_some_iff.mp hhead
        exact ⟨by rw [List.getLast?_cons_cons, hlast], List.isChain_cons_cons.mpr ⟨hedge, hchain⟩,
          congrArg Nat.succ hlength⟩
      · cases hwalk
    · rintro ⟨hlast, hchain, hlength⟩
      rcases walk with _ | ⟨node, _ | ⟨next, rest⟩⟩
      · cases hlength
      · cases hlength
      · obtain ⟨hedge, hchain⟩ := List.isChain_cons_cons.mp hchain
        rw [List.getLast?_cons_cons] at hlast
        refine ⟨next :: rest, mem_walks.mpr ⟨hlast, hchain, Nat.succ.inj hlength⟩,
          List.mem_filterMap.mpr ⟨(next, node), hedge, ?_⟩⟩
        rw [List.head?_cons, if_pos rfl]

/-- **What is found is a path.** -/
theorem isPathOf_of_searchPath {edges : List (ν × ν)} {source target : ν} {nodes : List ν}
    (h : searchPath edges source target = some nodes) : IsPathOf edges source target nodes := by
  obtain ⟨walk, hfind, rfl⟩ := Option.map_eq_some_iff.mp h
  obtain ⟨n, -, hwalk⟩ := List.mem_flatMap.mp (List.mem_of_find?_eq_some hfind)
  obtain ⟨hlast, hchain, -⟩ := mem_walks.mp hwalk
  have hfound := List.find?_some hfind
  have hhead : walk.head? = some target := of_decide_eq_true hfound
  refine ⟨?_, ?_, List.isChain_reverse.mpr hchain⟩
  · rw [List.head?_reverse, hlast]
  · rw [List.getLast?_reverse, hhead]

/-- **Nothing is found only if there is no path.** -/
theorem not_isPathOf_of_searchPath {edges : List (ν × ν)} {source target : ν}
    (h : searchPath edges source target = none) (nodes : List ν) :
    ¬ IsPathOf edges source target nodes := by
  intro hpath
  obtain ⟨path, hnodup, hchain, hhead, hlast⟩ := exists_nodup_isChain hpath.chain
  rw [hpath.head] at hhead
  rw [hpath.last] at hlast
  have hne : path ≠ [] := by
    rintro rfl
    cases hhead
  have hpos := List.length_pos_iff.mpr hne
  have hlength := length_le_of_nodup hnodup hchain
  have hmem : path.reverse ∈ (List.range (edges.length + 1)).flatMap (walks edges source) := by
    refine List.mem_flatMap.mpr ⟨path.length - 1, List.mem_range.mpr (by omega), mem_walks.mpr ?_⟩
    refine ⟨by rw [List.getLast?_reverse, hhead], List.isChain_reverse.mpr hchain, ?_⟩
    rw [List.length_reverse]
    omega
  have hnone := List.find?_eq_none.mp (Option.map_eq_none_iff.mp h) path.reverse hmem
  rw [List.head?_reverse, hlast] at hnone
  exact hnone (decide_eq_true rfl)

end Drift
