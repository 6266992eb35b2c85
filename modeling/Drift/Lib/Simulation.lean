/-
  Two programs side by side: one simulates the other if related states lead to related states.

  * Computations that may raise are alike when both return related values, or both raise
    (`Alike`).  Sequences of computations that are alike are alike (`Alike.bind`, `Alike.mapM`).
  * Two loops of attempts end alike if their attempts do (`retryLoop_simulates`).
  * A program that is driven by events and shows something at each of them has a `trace`; programs
    of which one simulates the other have the same one (`trace_eq_of_simulates`).
-/
import Drift.Lib.Retry
import Mathlib.Data.List.Forall2
import Mathlib.Data.Option.Basic

namespace Drift

variable {σ τ β γ ε : Type}

/-! ## Lists -/

section Lists

variable {R : β → γ → Prop}

/-- What is related element by element is related at every place. -/
theorem forall₂_getElem? : ∀ {xs : List β} {ys : List γ}, List.Forall₂ R xs ys → ∀ i : Nat,
    Option.Rel R xs[i]? ys[i]?
  | [], [], .nil, _ => .none
  | _ :: _, _ :: _, .cons h _, 0 => .some h
  | _ :: _, _ :: _, .cons _ h, i + 1 => forall₂_getElem? h i

theorem forall₂_set {x : β} {y : γ} (hxy : R x y) :
    ∀ {xs : List β} {ys : List γ}, List.Forall₂ R xs ys → ∀ i : Nat,
      List.Forall₂ R (xs.set i x) (ys.set i y)
  | [], [], .nil, _ => .nil
  | _ :: _, _ :: _, .cons _ h, 0 => .cons hxy h
  | _ :: _, _ :: _, .cons h₀ h, i + 1 => .cons h₀ (forall₂_set hxy h i)

theorem forall₂_modify {f : β → β} {g : γ → γ} (hfg : ∀ x y, R x y → R (f x) (g y)) :
    ∀ {xs : List β} {ys : List γ}, List.Forall₂ R xs ys → ∀ i : Nat,
      List.Forall₂ R (xs.modify i f) (ys.modify i g)
  | [], [], .nil, i => by cases i <;> exact .nil
  | _ :: _, _ :: _, .cons h hrest, 0 => .cons (hfg _ _ h) hrest
  | _ :: _, _ :: _, .cons h hrest, i + 1 => .cons h (forall₂_modify hfg hrest i)

end Lists

/-! ## Exceptions -/

/-- Both computations return, related values, or both raise. -/
inductive Alike (R : β → γ → Prop) : Except ε β → Except ε γ → Prop
  | ok {b : β} {c : γ} : R b c → Alike R (.ok b) (.ok c)
  | error (e e' : ε) : Alike R (.error e) (.error e')

namespace Alike

variable {R : β → γ → Prop} {x : Except ε β} {y : Except ε γ}

theorem imp {S : β → γ → Prop} (h : Alike R x y) (hRS : ∀ b c, R b c → S b c) : Alike S x y := by
  cases h with
  | ok hR => exact .ok (hRS _ _ hR)
  | error e e' => exact .error e e'

theorem refl {R : β → β → Prop} (hR : ∀ b, R b b) : ∀ x : Except ε β, Alike R x x
  | .ok b => .ok (hR b)
  | .error e => .error e e

theorem bind {β' γ' : Type} {S : β' → γ' → Prop} {f : β → Except ε β'} {g : γ → Except ε γ'}
    (h : Alike R x y) (hfg : ∀ b c, R b c → Alike S (f b) (g c)) : Alike S (x >>= f) (y >>= g) := by
  cases h with
  | ok hR => exact hfg _ _ hR
  | error e e' => exact .error e e'

/-- Element by element. -/
theorem mapM {β' γ' : Type} {S : β' → γ' → Prop} {f : β → Except ε β'} {g : γ → Except ε γ'}
    (hfg : ∀ b c, R b c → Alike S (f b) (g c)) :
    ∀ {bs : List β} {cs : List γ}, List.Forall₂ R bs cs →
      Alike (List.Forall₂ S) (bs.mapM f) (cs.mapM g) := by
  intro bs cs h
  induction h with
  | nil => exact .ok .nil
  | cons hR _ ih =>
    rw [List.mapM_cons, List.mapM_cons]
    exact (hfg _ _ hR).bind fun b c hS => ih.bind fun bs cs hSs => .ok (.cons hS hSs)

end Alike

/-! ## Loops of attempts -/

/-- Attempts end alike: neither comes to an end, or both fail, or neither fails. -/
def EndAlike (R : Bool → σ → τ → Prop) : Option (σ × Option ε) → Option (τ × Option ε) → Prop :=
  Option.Rel fun s t => s.2.isNone = t.2.isNone ∧ R s.2.isNone s.1 t.1

/-- **Two loops** whose attempts end alike end alike.  What relates the states may depend on how
    many attempts have just failed. -/
theorem retryLoop_simulates {α : Type} {finished : σ → Bool} {finished' : τ → Bool}
    {attempt : Nat → α → σ → Option (σ × Option ε)}
    {attempt' : Nat → α → τ → Option (τ × Option ε)} {maxRetries : Option Nat}
    (R : Nat → σ → τ → Prop) {Q : α → Prop}
    (hfinished : ∀ attemptNo s t, R attemptNo s t → finished s = finished' t)
    (hattempt : ∀ attemptNo a s t, R attemptNo s t → Q a →
      EndAlike (fun succeeded => R (if succeeded then 0 else attemptNo + 1))
        (attempt attemptNo a s) (attempt' attemptNo a t)) :
    ∀ {as : List α} {attemptNo : Nat} {s : σ} {t : τ}, (∀ a ∈ as, Q a) → R attemptNo s t →
      EndAlike (fun _ s t => ∃ attemptNo, R attemptNo s t)
        (retryLoop finished attempt maxRetries as attemptNo s)
        (retryLoop finished' attempt' maxRetries as attemptNo t) := by
  intro as
  induction as with
  | nil =>
    intro attemptNo s t _ hR
    rw [retryLoop, retryLoop, ← hfinished _ _ _ hR]
    cases finished s with
    | true => exact .some ⟨rfl, attemptNo, hR⟩
    | false => exact .none
  | cons a as ih =>
    intro attemptNo s t has hR
    obtain ⟨ha, has⟩ := List.forall_mem_cons.mp has
    rw [retryLoop, retryLoop, ← hfinished _ _ _ hR]
    cases finished s with
    | true => exact .some ⟨rfl, attemptNo, hR⟩
    | false =>
      have hends := hattempt attemptNo a s t hR ha
      rcases hleft : attempt attemptNo a s with _ | ⟨s', result⟩ <;>
        rcases hright : attempt' attemptNo a t with _ | ⟨t', result'⟩ <;>
        rw [hleft, hright] at hends
      · exact .none
      · cases hends
      · cases hends
      · obtain ⟨hsame, hR'⟩ : result.isNone = result'.isNone ∧ _ := by
          cases hends with
          | some h => exact h
        cases result with
        | none =>
          cases result' with
          | none => exact ih has hR'
          | some exc' => cases hsame
        | some exc =>
          cases result' with
          | none => cases hsame
          | some exc' =>
            simp only [Bool.false_eq_true, if_false]
            split
            · exact .some ⟨rfl, _, hR'⟩
            · exact ih has hR'

/-! ## Traces -/

section Traces

variable {ι ω : Type}

/-- What a program shows, event by event, until one leaves it without a state. -/
def trace (perform : σ → ι → Option (σ × ω)) : σ → List ι → List ω
  | _, [] => []
  | s, i :: is =>
    match perform s i with
    | none => []
    | some (s, shown) => shown :: trace perform s is

/-- **Simulation**: related states show the same, for every list of events. -/
theorem trace_eq_of_simulates {perform : σ → ι → Option (σ × ω)}
    {perform' : τ → ι → Option (τ × ω)} (R : σ → τ → Prop) {Q : ι → Prop}
    (hstep : ∀ s t i, R s t → Q i →
      Option.Rel (fun x y => R x.1 y.1 ∧ x.2 = y.2) (perform s i) (perform' t i)) :
    ∀ {is : List ι} {s : σ} {t : τ}, (∀ i ∈ is, Q i) → R s t →
      trace perform s is = trace perform' t is := by
  intro is
  induction is with
  | nil => exact fun _ _ => rfl
  | cons i is ih =>
    intro s t his hR
    obtain ⟨hi, his⟩ := List.forall_mem_cons.mp his
    have hrel := hstep s t i hR hi
    rw [trace, trace]
    cases hleft : perform s i with
    | none =>
      cases hright : perform' t i with
      | none => rfl
      | some y =>
        rw [hleft, hright] at hrel
        cases hrel
    | some x =>
      cases hright : perform' t i with
      | none =>
        rw [hleft, hright] at hrel
        cases hrel
      | some y =>
        rw [hleft, hright] at hrel
        obtain ⟨hR', hshown⟩ : R x.1 y.1 ∧ x.2 = y.2 := by
          cases hrel with
          | some h => exact h
        show x.2 :: _ = y.2 :: _
        rw [hshown, ih his hR']

end Traces

end Drift
