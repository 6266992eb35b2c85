/-
  Runs of a labelled transition system.

  A system is a partial function `step : σ → ι → Option σ`: the label says which of the things that
  can happen next does happen, and `none` says that it cannot happen in this state.  A program that
  is driven by its callers has their calls as labels; a concurrent one has (process, action)
  pairs, so that the lists of labels are its interleavings.

  Five rules carry the run-level results of the modules above:

  * `exec_invariant`   — an invariant kept by every step that meets the condition `C` holds at
                         the end of every run whose steps all meet `C`;
  * `allStates_of_allSteps` — and so it holds in every state such a run passes through;
  * `allSteps_of_allSteps` — and what every such step does from a state with the invariant, it does
                         in the run;
  * `allStates_iff_allSteps` — when, from a state where `P` holds, one step keeps `P` exactly if
                         it meets `C`, then a run stays inside `P` exactly if all its steps meet `C`;
  * `exec_history`     — what one more step keeps of a state and the steps that have led to it
                         holds at the end of every run and of its steps.
-/
import Mathlib.Data.List.Basic
import Mathlib.Data.List.Induction

namespace Drift

variable {σ ι : Type}

/-- The state a list of labels leads to, if each of them is possible in its turn. -/
def exec (step : σ → ι → Option σ) : σ → List ι → Option σ
  | s, [] => some s
  | s, i :: is => (step s i).bind fun s' => exec step s' is

/-- `P` holds in every state that the run passes through, the first one included. -/
def AllStates (step : σ → ι → Option σ) (P : σ → Prop) : σ → List ι → Prop
  | s, [] => P s
  | s, i :: is => P s ∧ ∀ s', step s i = some s' → AllStates step P s' is

/-- Every step of the run meets `C` in the state it starts from. -/
def AllSteps (step : σ → ι → Option σ) (C : σ → ι → Prop) : σ → List ι → Prop
  | _, [] => True
  | s, i :: is => C s i ∧ ∀ s', step s i = some s' → AllSteps step C s' is

variable {step : σ → ι → Option σ} {P : σ → Prop} {C D : σ → ι → Prop}

/-- A property of the next state, if there is one, can be decided there. -/
instance decidableForallNext {o : Option σ} {Q : σ → Prop} [h : ∀ s, Decidable (Q s)] :
    Decidable (∀ s, o = some s → Q s) :=
  match o with
  | none => isTrue fun _ h => nomatch h
  | some s => decidable_of_iff (Q s)
      ⟨fun hs _ he => Option.some.inj he ▸ hs, fun hall => hall s rfl⟩

instance decidableAllStates [∀ s, Decidable (P s)] :
    ∀ (is : List ι) (s : σ), Decidable (AllStates step P s is)
  | [], s => inferInstanceAs (Decidable (P s))
  | i :: is, s =>
    have : ∀ s', Decidable (AllStates step P s' is) := decidableAllStates is
    inferInstanceAs (Decidable (P s ∧ ∀ s', step s i = some s' → AllStates step P s' is))

instance decidableAllSteps [∀ s i, Decidable (C s i)] :
    ∀ (is : List ι) (s : σ), Decidable (AllSteps step C s is)
  | [], _ => isTrue trivial
  | i :: is, s =>
    have : ∀ s', Decidable (AllSteps step C s' is) := decidableAllSteps is
    inferInstanceAs (Decidable (C s i ∧ ∀ s', step s i = some s' → AllSteps step C s' is))

@[simp] theorem exec_nil (s : σ) : exec step s [] = some s := rfl

theorem exec_cons {s s' : σ} {i : ι} {is : List ι} :
    exec step s (i :: is) = some s' ↔ ∃ s₁, step s i = some s₁ ∧ exec step s₁ is = some s' := by
  simp [exec, Option.bind_eq_some_iff]

theorem exec_append {s s' : σ} {is js : List ι} :
    exec step s (is ++ js) = some s' ↔
      ∃ s₁, exec step s is = some s₁ ∧ exec step s₁ js = some s' := by
  induction is generalizing s with
  | nil => simp
  | cons i is ih =>
    simp only [List.cons_append, exec_cons, ih]
    constructor
    · rintro ⟨s₁, h₁, s₂, h₂, h₃⟩
      exact ⟨s₂, ⟨s₁, h₁, h₂⟩, h₃⟩
    · rintro ⟨s₂, ⟨s₁, h₁, h₂⟩, h₃⟩
      exact ⟨s₁, h₁, s₂, h₂, h₃⟩

/-- **The invariant rule.** -/
theorem exec_invariant (hstep : ∀ s i s', P s → C s i → step s i = some s' → P s') :
    ∀ {is : List ι} {s s' : σ}, P s → AllSteps step C s is → exec step s is = some s' → P s'
  | [], s, s', hs, _, he => by
    obtain rfl := Option.some.inj he
    exact hs
  | i :: is, s, s', hs, hc, he => by
    obtain ⟨s₁, h₁, h₂⟩ := exec_cons.mp he
    exact exec_invariant hstep (hstep s i s₁ hs hc.1 h₁) (hc.2 s₁ h₁) h₂

theorem allSteps_of_forall (h : ∀ s i, C s i) : ∀ (is : List ι) (s : σ), AllSteps step C s is := by
  intro is
  induction is with
  | nil => exact fun _ => trivial
  | cons i is ih => exact fun s => ⟨h s i, fun s' _ => ih s'⟩

theorem allSteps_of_forall_mem : ∀ {is : List ι}, (∀ i ∈ is, ∀ s, C s i) →
    ∀ s : σ, AllSteps step C s is
  | [], _, _ => trivial
  | i :: _, h, s => ⟨h i List.mem_cons_self s,
      fun s' _ => allSteps_of_forall_mem (fun j hj => h j (List.mem_cons_of_mem i hj)) s'⟩

/-- The invariant rule for a system whose every step keeps `P`. -/
theorem exec_invariant' (hstep : ∀ s i s', P s → step s i = some s' → P s') {is : List ι}
    {s s' : σ} (hs : P s) (he : exec step s is = some s') : P s' :=
  exec_invariant (C := fun _ _ => True) (fun s i s' h _ => hstep s i s' h) hs
    (allSteps_of_forall (fun _ _ => trivial) is s) he

/-- The invariant rule for a property of the state and of the labels that have led to it. -/
theorem exec_history {P : List ι → σ → Prop}
    (hstep : ∀ past s i s', P past s → step s i = some s' → P (past ++ [i]) s') {s₀ : σ}
    (h₀ : P [] s₀) : ∀ {is : List ι} {s : σ}, exec step s₀ is = some s → P is s := by
  intro is
  induction is using List.reverseRecOn with
  | nil =>
    intro s he
    obtain rfl := Option.some.inj he
    exact h₀
  | append_singleton past i ih =>
    intro s he
    obtain ⟨s₁, hpast, hlast⟩ := exec_append.mp he
    obtain ⟨s₂, hi, hnil⟩ := exec_cons.mp hlast
    obtain rfl := Option.some.inj hnil
    exact hstep past s₁ i s₂ (ih hpast) hi

theorem allStates_of_allSteps (hstep : ∀ s i s', P s → C s i → step s i = some s' → P s') :
    ∀ {is : List ι} {s : σ}, P s → AllSteps step C s is → AllStates step P s is
  | [], _, hs, _ => hs
  | i :: _, s, hs, hc =>
    ⟨hs, fun s' h => allStates_of_allSteps hstep (hstep s i s' hs hc.1 h) (hc.2 s' h)⟩

/-- What holds of every step that meets `C` from a state where `P` holds, when such a step keeps
    `P`. -/
theorem allSteps_of_allSteps
    (hstep : ∀ s i, P s → C s i → D s i ∧ ∀ s', step s i = some s' → P s') :
    ∀ {is : List ι} {s : σ}, P s → AllSteps step C s is → AllSteps step D s is
  | [], _, _, _ => trivial
  | i :: _, s, hs, hc =>
    have hd := hstep s i hs hc.1
    ⟨hd.1, fun s' h => allSteps_of_allSteps hstep (hd.2 s' h) (hc.2 s' h)⟩

/-- The same for a system whose every step keeps `P`. -/
theorem allStates_of_step (hstep : ∀ s i s', P s → step s i = some s' → P s') :
    ∀ {is : List ι} {s : σ}, P s → AllStates step P s is
  | [], _, hs => hs
  | i :: _, s, hs => ⟨hs, fun s' h => allStates_of_step hstep (hstep s i s' hs h)⟩

/-- Two conditions that are one from the states that a run whose steps all meet `H` passes
    through. -/
theorem allSteps_congr_of_allSteps {H : σ → ι → Prop}
    (hstep : ∀ s i, P s → H s i → (C s i ↔ D s i) ∧ ∀ s', step s i = some s' → P s') :
    ∀ {is : List ι} {s : σ}, P s → AllSteps step H s is →
      (AllSteps step C s is ↔ AllSteps step D s is)
  | [], _, _, _ => Iff.rfl
  | i :: _, s, hs, hH => by
    obtain ⟨hiff, hnext⟩ := hstep s i hs hH.1
    refine and_congr hiff (forall_congr' fun s' => imp_congr_right fun h => ?_)
    exact allSteps_congr_of_allSteps hstep (hnext s' h) (hH.2 s' h)

/-- The same for every run. -/
theorem allSteps_congr
    (hstep : ∀ s i, P s → (C s i ↔ D s i) ∧ ∀ s', step s i = some s' → P s') {is : List ι} {s : σ}
    (hs : P s) : AllSteps step C s is ↔ AllSteps step D s is :=
  allSteps_congr_of_allSteps (H := fun _ _ => True) (fun s i h _ => hstep s i h) hs
    (allSteps_of_forall (fun _ _ => trivial) is s)

/-- It holds at the beginning. -/
theorem AllStates.head {i : List ι} {s : σ} (h : AllStates step P s i) : P s := by
  cases i with
  | nil => exact h
  | cons i is => exact h.1

/-- What follows in one state follows in all. -/
theorem AllStates.imp {Q : σ → Prop} (hPQ : ∀ s, P s → Q s) : ∀ {is : List ι} {s : σ},
    AllStates step P s is → AllStates step Q s is
  | [], _, h => hPQ _ h
  | _ :: _, _, h => ⟨hPQ _ h.1, fun s' hs' => AllStates.imp hPQ (h.2 s' hs')⟩

theorem AllStates.and {Q : σ → Prop} : ∀ {is : List ι} {s : σ}, AllStates step P s is →
    AllStates step Q s is → AllStates step (fun s => P s ∧ Q s) s is
  | [], _, h, h' => ⟨h, h'⟩
  | _ :: _, _, h, h' => ⟨⟨h.1, h'.1⟩, fun s' hs' => (h.2 s' hs').and (h'.2 s' hs')⟩

/-- What the states with `P` hand on to each other. -/
theorem AllStates.and_invariant {Q : σ → Prop}
    (hstep : ∀ s i s', P s → Q s → step s i = some s' → P s' → Q s') : ∀ {is : List ι} {s : σ},
    Q s → AllStates step P s is → AllStates step (fun s => P s ∧ Q s) s is
  | [], _, hQ, h => ⟨h, hQ⟩
  | i :: _, s, hQ, h =>
    ⟨⟨h.1, hQ⟩, fun s' hs' => AllStates.and_invariant hstep
      (hstep s i s' h.1 hQ hs' (h.2 s' hs').head) (h.2 s' hs')⟩

theorem AllSteps.and : ∀ {is : List ι} {s : σ}, AllSteps step C s is → AllSteps step D s is →
    AllSteps step (fun s i => C s i ∧ D s i) s is
  | [], _, _, _ => trivial
  | _ :: _, _, h, h' => ⟨⟨h.1, h'.1⟩, fun s' hs' => (h.2 s' hs').and (h'.2 s' hs')⟩

/-- What holds of every step taken from a state where `P` holds. -/
theorem AllStates.allSteps (hPC : ∀ s i, P s → C s i) : ∀ {is : List ι} {s : σ},
    AllStates step P s is → AllSteps step C s is
  | [], _, _ => trivial
  | i :: _, s, h => ⟨hPC s i h.1, fun s' hs' => AllStates.allSteps hPC (h.2 s' hs')⟩

/-- A run passes only through states where `P` holds exactly if all its steps meet `C`, which is
    to hold of a label that is not possible. -/
theorem allStates_iff_allSteps
    (hstep : ∀ s i s', P s → D s i → step s i = some s' → (P s' ↔ C s i))
    (hnone : ∀ s i, step s i = none → C s i) :
    ∀ {is : List ι} {s : σ}, P s → AllSteps step D s is →
      (AllStates step P s is ↔ AllSteps step C s is)
  | [], _, hs, _ => iff_of_true hs trivial
  | i :: is, s, hs, hd => by
    cases h : step s i with
    | none =>
      -- the run ends here
      refine iff_of_true ⟨hs, fun s' h' => ?_⟩ ⟨hnone s i h, fun s' h' => ?_⟩
      · exact nomatch h.symm.trans h'
      · exact nomatch h.symm.trans h'
    | some s' =>
      have hiff := hstep s i s' hs hd.1 h
      constructor
      · rintro ⟨_, hrest⟩
        have hs' : P s' := (hrest s' h).head
        refine ⟨hiff.mp hs', fun s₁ h₁ => ?_⟩
        obtain rfl : s' = s₁ := Option.some.inj (h.symm.trans h₁)
        exact (allStates_iff_allSteps hstep hnone hs' (hd.2 s' h)).mp (hrest s' h)
      · rintro ⟨hc, hrest⟩
        have hs' : P s' := hiff.mpr hc
        refine ⟨hs, fun s₁ h₁ => ?_⟩
        obtain rfl : s' = s₁ := Option.some.inj (h.symm.trans h₁)
        exact (allStates_iff_allSteps hstep hnone hs' (hd.2 s' h)).mpr (hrest s' h)

end Drift
