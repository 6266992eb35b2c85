/-
  Imperative code that may raise: `EStateM ε σ` keeps the state that the code has reached when an
  exception leaves it, as an object mutated in place does.

  `Keeps R m` says that `m` relates the state it starts from to the one it leaves behind, whether it
  returns or raises.  For a preorder `R` it is closed under sequencing and loops, so a frame
  property of a long operation follows from its single writes.
-/
import Mathlib.Data.List.Basic

namespace Drift

variable {ε σ α β : Type}

/-- The state left behind. -/
def finalState : EStateM.Result ε σ α → σ
  | .ok _ s => s
  | .error _ s => s

@[simp] theorem finalState_ok (a : α) (s : σ) :
    finalState (.ok a s : EStateM.Result ε σ α) = s := rfl

@[simp] theorem finalState_error (e : ε) (s : σ) :
    finalState (.error e s : EStateM.Result ε σ α) = s := rfl

theorem bind_of_ok {m : EStateM ε σ α} {f : α → EStateM ε σ β} {s s' : σ} {a : α}
    (h : m s = .ok a s') : (m >>= f) s = f a s' := by
  show EStateM.bind m f s = _
  simp only [EStateM.bind, h]

theorem bind_of_error {m : EStateM ε σ α} {f : α → EStateM ε σ β} {s s' : σ} {e : ε}
    (h : m s = .error e s') : (m >>= f) s = .error e s' := by
  show EStateM.bind m f s = _
  simp only [EStateM.bind, h]

theorem bind_get {f : σ → EStateM ε σ β} (s : σ) : (get >>= f) s = f s s := rfl

theorem bind_modify {g : σ → σ} {f : PUnit → EStateM ε σ β} (s : σ) :
    (modify g >>= f) s = f () (g s) := rfl

theorem except_bind_eq_ok {γ : Type} {x : Except ε β} {f : β → Except ε γ} {c : γ} :
    x >>= f = .ok c ↔ ∃ b, x = .ok b ∧ f b = .ok c := by
  cases x with
  | error e => exact ⟨fun h => (nomatch h), fun ⟨_, h, _⟩ => (nomatch h)⟩
  | ok b => exact ⟨fun h => ⟨b, rfl, h⟩, fun ⟨b', h, hf⟩ => by cases h; exact hf⟩

theorem except_map_eq_ok {γ : Type} {x : Except ε β} {f : β → γ} {c : γ} :
    x.map f = .ok c ↔ ∃ b, x = .ok b ∧ f b = c := by
  cases x <;> simp [Except.map]

theorem except_map_eq_error {γ : Type} {x : Except ε β} {f : β → γ} {e : ε} :
    x.map f = .error e ↔ x = .error e := by
  cases x <;> simp [Except.map]

/-- A pure computation that may raise, as a part of an imperative one. -/
def liftExcept : Except ε α → EStateM ε σ α
  | .ok a => pure a
  | .error e => throw e

theorem liftExcept_eq_ok {x : Except ε α} {s s' : σ} {a : α} :
    (liftExcept x : EStateM ε σ α) s = .ok a s' ↔ x = .ok a ∧ s' = s := by
  cases x with
  | ok b =>
    show EStateM.Result.ok b s = .ok a s' ↔ _
    constructor
    · rintro ⟨⟩
      exact ⟨rfl, rfl⟩
    · rintro ⟨⟨⟩, rfl⟩
      rfl
  | error e =>
    show EStateM.Result.error e s = .ok a s' ↔ _
    constructor
    · rintro ⟨⟩
    · rintro ⟨⟨⟩, _⟩

/-- A sequence that returns has a first part that returns. -/
theorem bind_eq_ok {m : EStateM ε σ α} {f : α → EStateM ε σ β} {s s' : σ} {b : β} :
    (m >>= f) s = .ok b s' ↔ ∃ a s₁, m s = .ok a s₁ ∧ f a s₁ = .ok b s' := by
  cases h : m s with
  | ok a s₁ => simp [bind_of_ok h]
  | error e s₁ => simp [bind_of_error h]

/-- It has returned, not raised. -/
def returns : EStateM.Result ε σ α → Bool
  | .ok _ _ => true
  | .error _ _ => false

theorem exists_of_returns {r : EStateM.Result ε σ α} (h : returns r = true) :
    ∃ a s, r = .ok a s := by
  cases r with
  | ok a s => exact ⟨a, s, rfl⟩
  | error e s => nomatch h

theorem returns_of_eq_ok {r : EStateM.Result ε σ α} {a : α} {s : σ} (h : r = .ok a s) :
    returns r = true := h ▸ rfl

/-- `m` relates the state it starts from to the state it leaves behind. -/
def Keeps (R : σ → σ → Prop) (m : EStateM ε σ α) : Prop := ∀ s, R s (finalState (m s))

variable {R : σ → σ → Prop}

theorem keeps_pure (hrefl : ∀ s, R s s) (a : α) : Keeps R (pure a : EStateM ε σ α) :=
  fun s => hrefl s

/-- The rule for one starting state: the second part may use what the first has kept. -/
theorem keeps_bind_at (htrans : ∀ a b c, R a b → R b c → R a c) {m : EStateM ε σ α}
    {f : α → EStateM ε σ β} {s : σ} (hm : R s (finalState (m s)))
    (hf : ∀ a s₁, R s s₁ → R s₁ (finalState (f a s₁))) : R s (finalState ((m >>= f) s)) := by
  cases hms : m s with
  | ok a s₁ =>
    rw [hms] at hm
    rw [bind_of_ok hms]
    exact htrans _ _ _ hm (hf a s₁ hm)
  | error e s₁ =>
    rw [hms] at hm
    rw [bind_of_error hms]
    exact hm

theorem keeps_bind (htrans : ∀ a b c, R a b → R b c → R a c) {m : EStateM ε σ α}
    {f : α → EStateM ε σ β} (hm : Keeps R m) (hf : ∀ a, Keeps R (f a)) : Keeps R (m >>= f) :=
  fun s => keeps_bind_at htrans (hm s) fun a s₁ _ => hf a s₁

theorem keeps_forM (hrefl : ∀ s, R s s) (htrans : ∀ a b c, R a b → R b c → R a c)
    {f : β → EStateM ε σ PUnit} (hf : ∀ x, Keeps R (f x)) :
    ∀ xs : List β, Keeps R (xs.forM f)
  | [] => keeps_pure hrefl _
  | x :: xs => by
    show Keeps R (f x >>= fun _ => xs.forM f)
    exact keeps_bind htrans (hf x) fun _ => keeps_forM hrefl htrans hf xs

end Drift
