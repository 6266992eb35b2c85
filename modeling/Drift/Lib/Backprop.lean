/-
  Reverse mode over a chain of layers.

  A layer is a function together with its vector-Jacobian product: `pull x g` takes a cotangent of
  the output at `x` to one of the input and those of the layer's parameters.  The vector-Jacobian
  product of a chain is that of the last layer, at the input that reaches it, followed by that of
  the chain before it; the cotangents of the parameters come out in the order of the layers.

  A chain may be cut anywhere (`chain_append`, `chainPull_append`), and the layers may be run
  backward one after the other on recorded inputs (`pullEach_reverse`).  Layers that work on parts
  of the values make a chain that does (`chain_restricts`, `chainPull_restricts`).
-/
import Mathlib.Data.List.Basic

namespace Drift

/-- A function with its vector-Jacobian product. -/
structure Layer (X Q : Type) where
  apply : X → X
  pull : X → X → X × List Q

namespace Layer

variable {X Q : Type}

/-- The composition. -/
def chain : List (Layer X Q) → X → X
  | [], x => x
  | layer :: layers, x => chain layers (layer.apply x)

/-- The input of every layer. -/
def chainInputs : List (Layer X Q) → X → List X
  | [], _ => []
  | layer :: layers, x => x :: chainInputs layers (layer.apply x)

/-- **The vector-Jacobian product of the composition.** -/
def chainPull : List (Layer X Q) → X → X → X × List Q
  | [], _, g => (g, [])
  | layer :: layers, x, g =>
    let later := chainPull layers (layer.apply x) g
    let here := layer.pull x later.1
    (here.1, here.2 ++ later.2)

theorem chain_append (xs ys : List (Layer X Q)) (x : X) :
    chain (xs ++ ys) x = chain ys (chain xs x) := by
  induction xs generalizing x with
  | nil => rfl
  | cons layer xs ih => exact ih (layer.apply x)

theorem chainPull_append (xs ys : List (Layer X Q)) (x g : X) :
    chainPull (xs ++ ys) x g =
      ((chainPull xs x (chainPull ys (chain xs x) g).1).1,
        (chainPull xs x (chainPull ys (chain xs x) g).1).2 ++ (chainPull ys (chain xs x) g).2) := by
  induction xs generalizing x with
  | nil => rfl
  | cons layer xs ih =>
    simp only [List.cons_append, chainPull, chain, ih (layer.apply x), List.append_assoc]

theorem length_chainInputs (layers : List (Layer X Q)) (x : X) :
    (chainInputs layers x).length = layers.length := by
  induction layers generalizing x with
  | nil => rfl
  | cons layer layers ih => exact congrArg (· + 1) (ih (layer.apply x))

theorem chainInputs_append (xs ys : List (Layer X Q)) (x : X) :
    chainInputs (xs ++ ys) x = chainInputs xs x ++ chainInputs ys (chain xs x) := by
  induction xs generalizing x with
  | nil => rfl
  | cons layer xs ih => exact congrArg (x :: ·) (ih (layer.apply x))

/-- Layers with their inputs, run backward in the order of the list: the cotangent, and those of
    the parameters layer by layer. -/
def pullEach : List (X × Layer X Q) → X → X × List (List Q)
  | [], g => (g, [])
  | (x, layer) :: items, g =>
    let here := layer.pull x g
    let rest := pullEach items here.1
    (rest.1, here.2 :: rest.2)

theorem pullEach_concat (items : List (X × Layer X Q)) (x : X) (layer : Layer X Q) (g : X) :
    pullEach (items ++ [(x, layer)]) g =
      ((layer.pull x (pullEach items g).1).1,
        (pullEach items g).2 ++ [(layer.pull x (pullEach items g).1).2]) := by
  induction items generalizing g with
  | nil => rfl
  | cons item items ih =>
    obtain ⟨y, layer'⟩ := item
    simp only [List.cons_append, pullEach, ih]

/-- **Backward over the recorded inputs**, from the last layer to the first. -/
theorem pullEach_reverse (layers : List (Layer X Q)) (x g : X) :
    (pullEach ((chainInputs layers x).zip layers).reverse g).1 = (chainPull layers x g).1 ∧
    (pullEach ((chainInputs layers x).zip layers).reverse g).2.reverse.flatten
      = (chainPull layers x g).2 := by
  induction layers generalizing x with
  | nil => exact ⟨rfl, rfl⟩
  | cons layer layers ih =>
    obtain ⟨hcot, hparams⟩ := ih (layer.apply x)
    simp only [chainInputs, List.zip_cons_cons, List.reverse_cons, pullEach_concat, chainPull]
    rw [hcot, List.reverse_append, List.reverse_singleton, List.singleton_append,
      List.flatten_cons, hparams]
    exact ⟨rfl, rfl⟩

/-! ## Parts of the values -/

section Restricts

variable {Y R : Type}

/-- On the values in `D`, the second layer does to a part of them what the first one does to the
    whole.  The parts are taken by `r`, and those of the parameters by `q`. -/
structure Restricts (D : X → Prop) (r : X → Y) (q : Q → R) (layer : Layer X Q) (part : Layer Y R) :
    Prop where
  mem_apply : ∀ x, D x → D (layer.apply x)
  mem_pull : ∀ x g, D x → D g → D (layer.pull x g).1
  apply : ∀ x, D x → part.apply (r x) = r (layer.apply x)
  pull : ∀ x g, D x → D g →
    part.pull (r x) (r g) = (r (layer.pull x g).1, (layer.pull x g).2.map q)

variable {D : X → Prop} {r : X → Y} {q : Q → R} {layers : List (Layer X Q)}
  {parts : List (Layer Y R)}

/-- **A chain of parts** computes the part of the chain, -/
theorem chain_restricts (h : List.Forall₂ (Restricts D r q) layers parts) {x : X} (hx : D x) :
    D (chain layers x) ∧ chain parts (r x) = r (chain layers x) := by
  induction h generalizing x with
  | nil => exact ⟨hx, rfl⟩
  | cons hlayer _ ih =>
    obtain ⟨hmem, heq⟩ := ih (hlayer.mem_apply x hx)
    refine ⟨hmem, ?_⟩
    rw [chain, hlayer.apply x hx]
    exact heq

/-- and so does its vector-Jacobian product. -/
theorem chainPull_restricts (h : List.Forall₂ (Restricts D r q) layers parts) {x g : X} (hx : D x)
    (hg : D g) : D (chainPull layers x g).1 ∧ chainPull parts (r x) (r g)
      = (r (chainPull layers x g).1, (chainPull layers x g).2.map q) := by
  induction h generalizing x with
  | nil => exact ⟨hg, rfl⟩
  | cons hlayer _ ih =>
    obtain ⟨hmem, heq⟩ := ih (hlayer.mem_apply x hx)
    refine ⟨hlayer.mem_pull x _ hx hmem, ?_⟩
    simp only [chainPull, hlayer.apply x hx, heq, hlayer.pull x _ hx hmem, List.map_append]

end Restricts

end Layer

end Drift
