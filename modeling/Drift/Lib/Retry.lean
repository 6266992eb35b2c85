/-
  Work that is done by attempts.

  A loop works until it is `finished`.  An attempt may get further or fail, and a failed attempt
  may change the state too; after a success the attempts are counted from zero again, and the
  `maxRetries`-th failure in a row is raised.  An attempt may also never come to an end (`none`),
  and then neither does the loop.

  What the attempts meet is a list, one element per attempt.  Such a list `Recovers` when there are
  enough good attempts in it and never too many others in a row.  `retryLoop_recovers` is the rule
  for a loop: an invariant that every attempt keeps, and a measure that a good attempt makes
  smaller.
-/
import Mathlib.Data.List.Basic

namespace Drift

variable {σ α ε : Type}

/-- The state the loop ends in, with the exception it raises if it does. -/
def retryLoop (finished : σ → Bool) (attempt : Nat → α → σ → Option (σ × Option ε))
    (maxRetries : Option Nat) : List α → Nat → σ → Option (σ × Option ε)
  | [], _, s => if finished s then some (s, none) else none
  | a :: as, attemptNo, s =>
    if finished s then some (s, none)
    else match attempt attemptNo a s with
      | none => none
      | some (s, none) => retryLoop finished attempt maxRetries as 0 s
      | some (s, some exc) =>
        if maxRetries = some (attemptNo + 1) then some (s, some exc)
        else retryLoop finished attempt maxRetries as (attemptNo + 1) s

/-- A loop from two states that the first attempt does not tell apart. -/
theorem retryLoop_congr_head {finished : σ → Bool}
    {attempt : Nat → α → σ → Option (σ × Option ε)} (maxRetries : Option Nat) {a : α}
    (as : List α) {attemptNo : Nat} {s s' : σ} (hs : finished s = false)
    (hs' : finished s' = false) (h : attempt attemptNo a s = attempt attemptNo a s') :
    retryLoop finished attempt maxRetries (a :: as) attemptNo s
      = retryLoop finished attempt maxRetries (a :: as) attemptNo s' := by
  simp only [retryLoop, hs, hs', h]
  rfl

/-- After `streak` failures in a row one more is not the last. -/
def MayRetry (maxRetries : Option Nat) (streak : Nat) : Prop :=
  ∀ m, maxRetries = some m → m = 0 ∨ streak + 1 < m

/-- `work` good attempts come, each after fewer than `maxRetries` others in a row, and every other
    attempt comes to an end.  Both may depend on how many failed just before. -/
inductive Recovers (Good Ends : Nat → α → Prop) (maxRetries : Option Nat) :
    Nat → Nat → List α → Prop
  | finished (streak : Nat) (as : List α) : Recovers Good Ends maxRetries 0 streak as
  | good {work streak : Nat} {a : α} {as : List α} : Good streak a →
      Recovers Good Ends maxRetries work 0 as →
      Recovers Good Ends maxRetries (work + 1) streak (a :: as)
  | bad {work streak : Nat} {a : α} {as : List α} : Ends streak a → MayRetry maxRetries streak →
      Recovers Good Ends maxRetries (work + 1) (streak + 1) as →
      Recovers Good Ends maxRetries (work + 1) streak (a :: as)

theorem MayRetry.ne {maxRetries : Option Nat} {streak attemptNo : Nat}
    (h : MayRetry maxRetries streak) (hle : attemptNo ≤ streak) :
    maxRetries ≠ some (attemptNo + 1) := by
  intro heq
  rcases h _ heq with h | h <;> omega

variable {Good Ends : Nat → α → Prop} {maxRetries : Option Nat}

/-- Less work needs no more attempts. -/
theorem Recovers.mono {work work' streak : Nat} {as : List α}
    (h : Recovers Good Ends maxRetries work streak as) (hle : work' ≤ work) :
    Recovers Good Ends maxRetries work' streak as := by
  induction h generalizing work' with
  | finished streak as =>
    obtain rfl := Nat.le_zero.mp hle
    exact .finished streak as
  | @good work streak a as hgood _ ih =>
    rcases work' with _ | work'
    · exact .finished streak _
    · exact .good hgood (ih (by omega))
  | @bad work streak a as hends hmay _ ih =>
    rcases work' with _ | work'
    · exact .finished streak _
    · exact .bad hends hmay (ih hle)

/-- Attempts that are good in one sense are good in a wider one. -/
theorem Recovers.imp {Good' Ends' : Nat → α → Prop}
    (hgood : ∀ streak a, Good streak a → Good' streak a)
    (hends : ∀ streak a, Ends streak a → Ends' streak a) {work streak : Nat} {as : List α}
    (h : Recovers Good Ends maxRetries work streak as) :
    Recovers Good' Ends' maxRetries work streak as := by
  induction h with
  | finished streak as => exact .finished streak as
  | good hfirst _ ih => exact .good (hgood _ _ hfirst) ih
  | bad hfirst hmay _ ih => exact .bad (hends _ _ hfirst) hmay ih

/-- Attempts that are made of others. -/
theorem Recovers.map {γ : Type} {f : γ → α} {work streak : Nat} {cs : List γ}
    (h : Recovers (fun streak c => Good streak (f c)) (fun streak c => Ends streak (f c)) maxRetries
      work streak cs) : Recovers Good Ends maxRetries work streak (cs.map f) := by
  induction h with
  | finished streak cs => exact .finished streak (cs.map f)
  | good hfirst _ ih => exact .good hfirst ih
  | bad hfirst hmay _ ih => exact .bad hfirst hmay ih

/-- What is known of all attempts is known of those that recover. -/
theorem Recovers.and {Q : α → Prop} {work streak : Nat} {as : List α}
    (h : Recovers Good Ends maxRetries work streak as) (hall : ∀ a ∈ as, Q a) :
    Recovers (fun streak a => Good streak a ∧ Q a) (fun streak a => Ends streak a ∧ Q a) maxRetries
      work streak as := by
  induction h with
  | finished streak as => exact .finished streak as
  | good hfirst _ ih =>
    obtain ⟨ha, hrest⟩ := List.forall_mem_cons.mp hall
    exact .good ⟨hfirst, ha⟩ (ih hrest)
  | bad hfirst hmay _ ih =>
    obtain ⟨ha, hrest⟩ := List.forall_mem_cons.mp hall
    exact .bad ⟨hfirst, ha⟩ hmay (ih hrest)

/-- What every attempt keeps, whether it fails or not, holds where the loop ends. -/
theorem retryLoop_invariant (finished : σ → Bool)
    (attempt : Nat → α → σ → Option (σ × Option ε)) (Inv : σ → Prop) {Q : α → Prop}
    (hstep : ∀ s attemptNo a s' result, Inv s → finished s = false → Q a →
      attempt attemptNo a s = some (s', result) → Inv s') :
    ∀ {as : List α} {attemptNo : Nat} {s s' : σ} {result : Option ε}, (∀ a ∈ as, Q a) → Inv s →
      retryLoop finished attempt maxRetries as attemptNo s = some (s', result) →
      Inv s' ∧ (result = none → finished s' = true) := by
  intro as
  induction as with
  | nil =>
    intro attemptNo s s' result _ hinv h
    cases hdone : finished s with
    | true =>
      rw [retryLoop, if_pos hdone] at h
      obtain ⟨rfl, rfl⟩ := Prod.mk.inj (Option.some.inj h)
      exact ⟨hinv, fun _ => hdone⟩
    | false => simp [retryLoop, hdone] at h
  | cons a as ih =>
    intro attemptNo s s' result has hinv h
    obtain ⟨ha, has⟩ := List.forall_mem_cons.mp has
    cases hdone : finished s with
    | true =>
      rw [retryLoop, if_pos hdone] at h
      obtain ⟨rfl, rfl⟩ := Prod.mk.inj (Option.some.inj h)
      exact ⟨hinv, fun _ => hdone⟩
    | false =>
      simp only [retryLoop, hdone] at h
      rcases hattempt : attempt attemptNo a s with _ | ⟨s₁, _ | exc⟩
      · simp [hattempt] at h
      · simp only [hattempt] at h
        exact ih has (hstep s attemptNo a s₁ none hinv hdone ha hattempt) h
      · simp only [hattempt] at h
        have hinv₁ := hstep s attemptNo a s₁ (some exc) hinv hdone ha hattempt
        by_cases hlast : maxRetries = some (attemptNo + 1)
        · rw [if_pos hlast] at h
          obtain ⟨rfl, rfl⟩ := Prod.mk.inj (Option.some.inj h)
          exact ⟨hinv₁, fun hnone => nomatch hnone⟩
        · rw [if_neg hlast] at h
          exact ih has hinv₁ h

/-- **The rule for a loop of attempts.**  The attempts are counted by `attemptNo`, on which the
    invariant may depend; a list that calls a successful attempt bad has the longer streak. -/
theorem retryLoop_recovers (finished : σ → Bool)
    (attempt : Nat → α → σ → Option (σ × Option ε)) (Inv : Nat → σ → Prop) (measure : σ → Nat)
    (hfinished : ∀ s attemptNo, Inv attemptNo s → measure s = 0 → finished s = true)
    (hgood : ∀ s attemptNo streak a, Inv attemptNo s → finished s = false → attemptNo ≤ streak →
      Good streak a →
      ∃ s', attempt attemptNo a s = some (s', none) ∧ Inv 0 s' ∧ measure s' < measure s)
    (hbad : ∀ s attemptNo streak a, Inv attemptNo s → finished s = false → attemptNo ≤ streak →
      Ends streak a →
      ∃ s' result, attempt attemptNo a s = some (s', result) ∧
        Inv (if result.isNone then 0 else attemptNo + 1) s' ∧ measure s' ≤ measure s)
    {work streak : Nat} {as : List α} (h : Recovers Good Ends maxRetries work streak as) :
    ∀ {attemptNo : Nat} {s : σ}, Inv attemptNo s → measure s ≤ work → attemptNo ≤ streak →
      ∃ s' attemptNo', retryLoop finished attempt maxRetries as attemptNo s = some (s', none) ∧
        Inv attemptNo' s' ∧ finished s' = true := by
  induction h with
  | finished streak as =>
    intro attemptNo s hinv hmeasure _
    have hdone := hfinished s attemptNo hinv (Nat.le_zero.mp hmeasure)
    refine ⟨s, attemptNo, ?_, hinv, hdone⟩
    cases as <;> rw [retryLoop, if_pos hdone]
  | @good work streak a as hgoodA _ ih =>
    intro attemptNo s hinv hmeasure hle
    cases hdone : finished s with
    | true => exact ⟨s, attemptNo, by rw [retryLoop, if_pos hdone], hinv, hdone⟩
    | false =>
      obtain ⟨s', hattempt, hinv', hless⟩ := hgood s attemptNo streak a hinv hdone hle hgoodA
      obtain ⟨s'', attemptNo', hloop, hend⟩ := ih hinv' (by omega) (Nat.le_refl 0)
      refine ⟨s'', attemptNo', ?_, hend⟩
      simp only [retryLoop, hdone, hattempt]
      exact hloop
  | @bad work streak a as hends hmay _ ih =>
    intro attemptNo s hinv hmeasure hle
    cases hdone : finished s with
    | true => exact ⟨s, attemptNo, by rw [retryLoop, if_pos hdone], hinv, hdone⟩
    | false =>
      obtain ⟨s', result, hattempt, hinv', hless⟩ := hbad s attemptNo streak a hinv hdone hle hends
      cases result with
      | none =>
        obtain ⟨s'', attemptNo', hloop, hend⟩ := ih hinv' (by omega) (Nat.zero_le _)
        refine ⟨s'', attemptNo', ?_, hend⟩
        simp only [retryLoop, hdone, hattempt]
        exact hloop
      | some exc =>
        obtain ⟨s'', attemptNo', hloop, hend⟩ := ih hinv' (by omega) (Nat.succ_le_succ hle)
        refine ⟨s'', attemptNo', ?_, hend⟩
        simp only [retryLoop, hdone, hattempt, if_neg (hmay.ne hle)]
        exact hloop

/-- As many attempts as there is work. -/
theorem Recovers.le_length {work streak : Nat} {as : List α}
    (h : Recovers Good Ends maxRetries work streak as) : work ≤ as.length := by
  induction h with
  | finished streak as => exact Nat.zero_le _
  | good _ _ ih => exact Nat.succ_le_succ ih
  | bad _ _ _ ih => exact Nat.le_succ_of_le ih

/-- All the attempts that are needed at least are good or come to an end. -/
theorem Recovers.forall_take {P : α → Prop} (hgood : ∀ streak a, Good streak a → P a)
    (hends : ∀ streak a, Ends streak a → P a) {work streak : Nat} {as : List α}
    (h : Recovers Good Ends maxRetries work streak as) : ∀ a ∈ as.take work, P a := by
  induction h with
  | finished streak as => exact fun a ha => nomatch (List.take_zero ▸ ha)
  | good hfirst _ ih =>
    intro a ha
    rcases List.mem_cons.mp (List.take_succ_cons ▸ ha) with rfl | ha
    · exact hgood _ _ hfirst
    · exact ih a ha
  | bad hfirst _ _ ih =>
    intro a ha
    rcases List.mem_cons.mp (List.take_succ_cons ▸ ha) with rfl | ha
    · exact hends _ _ hfirst
    · exact ih a (List.take_subset_take_left _ (Nat.le_succ _) ha)

/-- More attempts do not change a loop that has ended. -/
theorem retryLoop_append (finished : σ → Bool)
    (attempt : Nat → α → σ → Option (σ × Option ε)) (bs : List α) :
    ∀ {as : List α} {attemptNo : Nat} {s : σ} {result : σ × Option ε},
      retryLoop finished attempt maxRetries as attemptNo s = some result →
      retryLoop finished attempt maxRetries (as ++ bs) attemptNo s = some result := by
  intro as
  induction as with
  | nil =>
    intro attemptNo s result h
    cases hdone : finished s with
    | false => simp [retryLoop, hdone] at h
    | true =>
      rw [retryLoop, if_pos hdone] at h
      rw [List.nil_append, ← h]
      cases bs <;> rw [retryLoop, if_pos hdone]
  | cons a as ih =>
    intro attemptNo s result h
    rw [List.cons_append]
    cases hdone : finished s with
    | true =>
      rw [retryLoop, if_pos hdone] at h ⊢
      exact h
    | false =>
      simp only [retryLoop, hdone] at h ⊢
      rcases hattempt : attempt attemptNo a s with _ | ⟨s₁, _ | exc⟩
      · simp [hattempt] at h
      · simp only [hattempt] at h ⊢
        exact ih h
      · simp only [hattempt] at h ⊢
        by_cases hlast : maxRetries = some (attemptNo + 1)
        · rw [if_pos hlast] at h ⊢
          exact h
        · rw [if_neg hlast] at h ⊢
          exact ih h

/-- **A loop that is stuck**: when every retry fails and only leads to another state of this kind,
    the loop does not end without an exception. -/
theorem retryLoop_stuck (finished : σ → Bool)
    (attempt : Nat → α → σ → Option (σ × Option ε)) (Stuck : σ → Prop)
    (hmore : ∀ s, Stuck s → finished s = false)
    (hretry : ∀ s attemptNo a, Stuck s → 1 ≤ attemptNo →
      ∃ s' exc, attempt attemptNo a s = some (s', some exc) ∧ Stuck s') :
    ∀ {as : List α} {attemptNo : Nat} {s s' : σ}, Stuck s → 1 ≤ attemptNo →
      retryLoop finished attempt maxRetries as attemptNo s ≠ some (s', none) := by
  intro as
  induction as with
  | nil =>
    intro attemptNo s s' hstuck _ h
    simp [retryLoop, hmore s hstuck] at h
  | cons a as ih =>
    intro attemptNo s s' hstuck hno h
    obtain ⟨s₁, exc, hattempt, hstuck'⟩ := hretry s attemptNo a hstuck hno
    simp only [retryLoop, hmore s hstuck, hattempt] at h
    by_cases hlast : maxRetries = some (attemptNo + 1)
    · simp [if_pos hlast] at h
    · rw [if_neg hlast] at h
      exact ih hstuck' (Nat.le_succ_of_le hno) h

/-- A loop that gives up after attempts that all fail and leave everything as it is. -/
theorem retryLoop_idle {finished : σ → Bool} {attempt : Nat → α → σ → Option (σ × Option ε)}
    {m : Nat} {s s' : σ} {exc : ε} : ∀ {as : List α} {attemptNo : Nat}, attemptNo < m →
      (∀ i a, as[i]? = some a → attemptNo + i < m →
        ∃ exc, attempt (attemptNo + i) a s = some (s, some exc)) →
      retryLoop finished attempt (some m) as attemptNo s = some (s', some exc) → s' = s := by
  intro as
  induction as with
  | nil =>
    intro attemptNo _ _ h
    rw [retryLoop] at h
    split at h <;> nomatch h
  | cons a as ih =>
    intro attemptNo hlt hidle h
    cases hdone : finished s with
    | true =>
      rw [retryLoop, if_pos hdone] at h
      nomatch h
    | false =>
      obtain ⟨exc', hattempt⟩ := hidle 0 a rfl hlt
      rw [Nat.add_zero] at hattempt
      simp only [retryLoop, hdone, hattempt] at h
      by_cases hlast : some m = some (attemptNo + 1)
      · rw [if_pos hlast] at h
        exact (Prod.mk.inj (Option.some.inj h)).1.symm
      · rw [if_neg hlast] at h
        have hlt' : attemptNo + 1 < m := by
          have hne : m ≠ attemptNo + 1 := fun heq => hlast (congrArg some heq)
          omega
        refine ih hlt' (fun i b hb hi => ?_) h
        obtain ⟨exc'', hidle'⟩ := hidle (i + 1) b hb (by omega)
        rw [show attemptNo + (i + 1) = attemptNo + 1 + i by omega] at hidle'
        exact ⟨exc'', hidle'⟩

/-! ## Attempt by attempt -/

/-- The attempts of a loop, one after the other: the state in which each begins, its number and what
    it meets. -/
def retryTrace (finished : σ → Bool) (attempt : Nat → α → σ → Option (σ × Option ε))
    (maxRetries : Option Nat) : List α → Nat → σ → List (σ × Nat × α)
  | [], _, _ => []
  | a :: as, attemptNo, s =>
    if finished s then []
    else (s, attemptNo, a) :: match attempt attemptNo a s with
      | none => []
      | some (s, none) => retryTrace finished attempt maxRetries as 0 s
      | some (s, some _) =>
        if maxRetries = some (attemptNo + 1) then []
        else retryTrace finished attempt maxRetries as (attemptNo + 1) s

/-- What every attempt keeps holds where each of them begins. -/
theorem retryTrace_invariant (finished : σ → Bool)
    (attempt : Nat → α → σ → Option (σ × Option ε)) (Inv : σ → Prop) {Q : α → Prop}
    (hstep : ∀ s attemptNo a s' result, Inv s → finished s = false → Q a →
      attempt attemptNo a s = some (s', result) → Inv s') :
    ∀ {as : List α} {attemptNo : Nat} {s : σ}, (∀ a ∈ as, Q a) → Inv s →
      ∀ entry ∈ retryTrace finished attempt maxRetries as attemptNo s,
        Inv entry.1 ∧ finished entry.1 = false ∧ Q entry.2.2 := by
  intro as
  induction as with
  | nil => exact fun _ _ _ h => nomatch h
  | cons a as ih =>
    intro attemptNo s has hinv entry hentry
    obtain ⟨ha, has⟩ := List.forall_mem_cons.mp has
    cases hdone : finished s with
    | true =>
      rw [retryTrace, if_pos hdone] at hentry
      nomatch hentry
    | false =>
      simp only [retryTrace, hdone] at hentry
      rcases List.mem_cons.mp hentry with rfl | hentry
      · exact ⟨hinv, hdone, ha⟩
      rcases hattempt : attempt attemptNo a s with _ | ⟨s₁, _ | exc⟩
      · simp [hattempt] at hentry
      · simp only [hattempt] at hentry
        exact ih has (hstep s attemptNo a s₁ none hinv hdone ha hattempt) entry hentry
      · simp only [hattempt] at hentry
        split at hentry
        · nomatch hentry
        · exact ih has (hstep s attemptNo a s₁ (some exc) hinv hdone ha hattempt) entry hentry

/-- A loop whose attempts are, through `f`, those of another loop.  What the attempts meet is made
    of the same list. -/
theorem retryLoop_map {τ β γ : Type} {finished : σ → Bool}
    {attempt : Nat → α → σ → Option (σ × Option ε)} {finished' : τ → Bool}
    {attempt' : Nat → β → τ → Option (τ × Option ε)} (f : τ → σ) (g : γ → α) (g' : γ → β)
    (hfinished : ∀ t, finished (f t) = finished' t)
    (hattempt : ∀ attemptNo c t,
      attempt attemptNo (g c) (f t) = (attempt' attemptNo (g' c) t).map (Prod.map f id)) :
    ∀ (cs : List γ) (attemptNo : Nat) (t : τ),
      retryLoop finished attempt maxRetries (cs.map g) attemptNo (f t)
        = (retryLoop finished' attempt' maxRetries (cs.map g') attemptNo t).map (Prod.map f id) := by
  intro cs
  induction cs with
  | nil =>
    intro attemptNo t
    rw [List.map_nil, List.map_nil, retryLoop, retryLoop, hfinished]
    cases finished' t <;> rfl
  | cons c cs ih =>
    intro attemptNo t
    rw [List.map_cons, List.map_cons, retryLoop, retryLoop, hfinished, hattempt]
    cases finished' t with
    | true => rfl
    | false =>
      rcases attempt' attemptNo (g' c) t with _ | ⟨t', _ | exc⟩
      · rfl
      · exact ih 0 t'
      · by_cases hlast : maxRetries = some (attemptNo + 1)
        · simp only [Option.map_some, Prod.map, id_eq, if_pos hlast]
          exact rfl
        · simp only [Option.map_some, Prod.map, id_eq, if_neg hlast]
          exact ih (attemptNo + 1) t'

end Drift
