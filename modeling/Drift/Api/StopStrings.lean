/-
  `trim_stop_strings` of `api/server.py`: the text of a completion up to a stop string.

  Each stop string is searched in what the ones before it have left.  So a cut may fall into an
  occurrence that would have been found, and the text may end behind the first stop string that
  occurs in it: with the stop strings "bc" and "ab", "abc" becomes "a".

  The order does not matter, and the text is cut at the earliest occurrence, exactly if no stop
  string first occurs inside of one with the earliest occurrence (`trimStopStrings_orderless_iff`).
-/
import Drift.Lib.Text
import Mathlib.Data.List.Perm.Basic
import Mathlib.Data.Nat.Find
import Mathlib.Tactic.Push

namespace Drift

/-- `stop` of a request: a string, or a list of strings. -/
inductive Stop where
  | one (stopString : Text)
  | many (stopStrings : List Text)

namespace Stop

/-- `[stop] if isinstance(stop, str) else stop`. -/
def strings : Stop → List Text
  | .one stopString => [stopString]
  | .many stopStrings => stopStrings

/-- `not stop`. -/
def isEmpty : Stop → Bool
  | .one stopString => stopString.isEmpty
  | .many stopStrings => stopStrings.isEmpty

end Stop

/-- What the loop does with one stop string. -/
def cutAt (text stopString : Text) : Text :=
  match find stopString text with
  | none => text
  | some index => text.take index

/-- `trim_stop_strings`. -/
def trimStopStrings (text : Text) : Option Stop → Text
  | none => text
  | some stop => if stop.isEmpty then text else stop.strings.foldl cutAt text

/-! ## The cuts -/

section Cuts

variable {text stopString : Text} {stops : List Text} {m n : Nat}

theorem trimStopStrings_many (text : Text) (stops : List Text) :
    trimStopStrings text (some (.many stops)) = stops.foldl cutAt text := by
  rw [trimStopStrings]
  split
  · rename_i hempty
    obtain rfl := List.isEmpty_iff.mp hempty
    rfl
  · rfl

/-- Where the text ends behind a stop string, if it has ended at `n` before. -/
def cutLength (text : Text) (n : Nat) (stopString : Text) : Nat :=
  match find stopString text with
  | none => n
  | some p => if p + stopString.length ≤ n then p else n

theorem cutLength_le (text : Text) (n : Nat) (stopString : Text) :
    cutLength text n stopString ≤ n := by
  rw [cutLength]
  split
  · exact Nat.le_refl n
  · split <;> omega

theorem cutAt_take (hne : stopString ≠ []) :
    cutAt (text.take n) stopString = text.take (cutLength text n stopString) := by
  rw [cutAt, cutLength]
  cases hfind : find stopString text with
  | none =>
    rw [find_take_eq_none hne fun p hp => absurd (hfind.symm.trans hp) (nofun)]
  | some p =>
    by_cases hle : p + stopString.length ≤ n
    · rw [find_take hne hfind hle]
      simp only [if_pos hle]
      rw [List.take_take, Nat.min_eq_left (by omega)]
    · rw [find_take_eq_none hne fun q hq => by
        obtain rfl := Option.some.inj (hfind.symm.trans hq)
        omega]
      simp only [if_neg hle]

/-- **The loop** only moves the end of the text. -/
theorem foldl_cutAt (hne : ∀ s ∈ stops, s ≠ []) :
    stops.foldl cutAt (text.take n) = text.take (stops.foldl (cutLength text) n) := by
  induction stops generalizing n with
  | nil => rfl
  | cons s stops ih =>
    rw [List.foldl_cons, List.foldl_cons, cutAt_take (hne s List.mem_cons_self)]
    exact ih fun s hs => hne s (List.mem_cons_of_mem _ hs)

theorem trimStopStrings_eq (hne : ∀ s ∈ stops, s ≠ []) :
    trimStopStrings text (some (.many stops))
      = text.take (stops.foldl (cutLength text) text.length) := by
  rw [trimStopStrings_many, ← foldl_cutAt hne, List.take_length]

theorem foldl_cutLength_le (text : Text) : ∀ (stops : List Text) (n : Nat),
    stops.foldl (cutLength text) n ≤ n
  | [], n => Nat.le_refl n
  | s :: stops, n => Nat.le_trans (foldl_cutLength_le text stops _) (cutLength_le text n s)

/-- A stop string that has been searched does not fit any more. -/
theorem cutLength_self (hne : stopString ≠ []) (hn : n ≤ cutLength text m stopString) :
    cutLength text n stopString = n := by
  have hpos := List.length_pos_iff.mpr hne
  rw [cutLength] at hn ⊢
  split
  · rfl
  · rename_i p hfind
    simp only [hfind] at hn
    rw [if_neg]
    split at hn <;> omega

theorem foldl_cutLength_self (hne : ∀ s ∈ stops, s ≠ [])
    (hn : n ≤ stops.foldl (cutLength text) m) : stops.foldl (cutLength text) n = n := by
  induction stops generalizing m with
  | nil => rfl
  | cons s stops ih =>
    rw [List.foldl_cons] at hn ⊢
    have hlast := Nat.le_trans hn (foldl_cutLength_le text stops _)
    rw [cutLength_self (hne s List.mem_cons_self) hlast]
    exact ih (fun s hs => hne s (List.mem_cons_of_mem _ hs)) hn

/-- **Trimming twice** changes nothing. -/
theorem trimStopStrings_idem (hne : ∀ s ∈ stops, s ≠ []) :
    trimStopStrings (trimStopStrings text (some (.many stops))) (some (.many stops))
      = trimStopStrings text (some (.many stops)) := by
  have hcut : trimStopStrings text (some (.many stops))
      = text.take (stops.foldl (cutLength text) text.length) := trimStopStrings_eq hne
  rw [hcut, trimStopStrings_many, foldl_cutAt hne, foldl_cutLength_self hne (Nat.le_refl _)]

/-- The loop leaves the end where it is exactly if every stop string does. -/
theorem foldl_cutLength_eq_iff : stops.foldl (cutLength text) n = n ↔
    ∀ s ∈ stops, cutLength text n s = n := by
  induction stops with
  | nil => exact ⟨fun _ _ hs => absurd hs List.not_mem_nil, fun _ => rfl⟩
  | cons s stops ih =>
    rw [List.foldl_cons, List.forall_mem_cons, ← ih]
    constructor
    · intro h
      have hfirst : cutLength text n s = n := by
        have hle := cutLength_le text n s
        have hrest := foldl_cutLength_le text stops (cutLength text n s)
        omega
      rw [hfirst] at h
      exact ⟨hfirst, h⟩
    · rintro ⟨hfirst, hrest⟩
      rwa [hfirst]

/-- A stop string leaves the whole text exactly if it does not occur. -/
theorem cutLength_length_iff (hne : stopString ≠ []) :
    cutLength text text.length stopString = text.length ↔ find stopString text = none := by
  have hpos := List.length_pos_iff.mpr hne
  rw [cutLength]
  cases hfind : find stopString text with
  | none => exact ⟨fun _ => rfl, fun _ => rfl⟩
  | some p =>
    have hend := (find_eq_some_iff.mp hfind).1.add_length_le
    simp only [if_pos hend, reduceCtorEq, iff_false]
    omega

/-- **Nothing is trimmed** exactly if no stop string occurs. -/
theorem trimStopStrings_eq_self_iff (hne : ∀ s ∈ stops, s ≠ []) :
    trimStopStrings text (some (.many stops)) = text ↔ ∀ s ∈ stops, find s text = none := by
  have hend : text.take (stops.foldl (cutLength text) text.length) = text ↔
      stops.foldl (cutLength text) text.length = text.length := by
    have hle := foldl_cutLength_le text stops text.length
    constructor
    · intro h
      have hlength := congrArg List.length h
      rw [List.length_take] at hlength
      omega
    · intro h
      rw [h, List.take_length]
  rw [trimStopStrings_eq hne, hend, foldl_cutLength_eq_iff]
  exact forall₂_congr fun s hs => cutLength_length_iff (hne s hs)

end Cuts

/-! ## The earliest occurrence -/

/-- `result` is the text before the earliest occurrence of a stop string, or all of it if there is
    none. -/
def BeforeFirst (stops : List Text) (text result : Text) : Prop :=
  (result = text ∧ ∀ s ∈ stops, ∀ p, ¬ OccursAt s text p) ∨
    ∃ n, result = text.take n ∧ (∃ s ∈ stops, OccursAt s text n) ∧
      ∀ s ∈ stops, ∀ p < n, ¬ OccursAt s text p

/-- `m` is the first occurrence of `s`, and no stop string occurs before. -/
structure Earliest (stops : List Text) (text s : Text) (m : Nat) : Prop where
  mem : s ∈ stops
  found : find s text = some m
  first : ∀ s' ∈ stops, ∀ p, find s' text = some p → m ≤ p

/-- No stop string occurs, or no one first occurs inside of one that has the earliest occurrence. -/
def NoneInside (stops : List Text) (text : Text) : Prop :=
  (∀ s ∈ stops, find s text = none) ∨
    ∃ s m, Earliest stops text s m ∧
      ∀ s' ∈ stops, ∀ p, find s' text = some p → p ≤ m ∨ m + s.length ≤ p

section Earliest

variable {text s : Text} {stops : List Text} {m n : Nat}

theorem Earliest.occursAt (h : Earliest stops text s m) : OccursAt s text m :=
  (find_eq_some_iff.mp h.found).1

theorem Earliest.notBefore (h : Earliest stops text s m) :
    ∀ s' ∈ stops, ∀ p < m, ¬ OccursAt s' text p := by
  intro s' hs' p hp hoccurs
  cases hfind : find s' text with
  | none => exact find_eq_none_iff.mp hfind p hoccurs
  | some q =>
    have hm := h.first s' hs' q hfind
    exact (find_eq_some_iff.mp hfind).2 p (by omega) hoccurs

/-- The stop string with the earliest occurrence, the shortest one of them. -/
theorem exists_earliest (hsome : ∃ s ∈ stops, find s text ≠ none) :
    ∃ s m, Earliest stops text s m ∧
      ∀ s' ∈ stops, find s' text = some m → s.length ≤ s'.length := by
  obtain ⟨s₀, hs₀, hfound⟩ := hsome
  obtain ⟨p₀, hp₀⟩ := Option.ne_none_iff_exists'.mp hfound
  have hany : ∃ p, ∃ s ∈ stops, find s text = some p := ⟨p₀, s₀, hs₀, hp₀⟩
  classical
  have hshort : ∃ k, ∃ s ∈ stops, find s text = some (Nat.find hany) ∧ s.length = k := by
    obtain ⟨s, hs, hfind⟩ := Nat.find_spec hany
    exact ⟨_, s, hs, hfind, rfl⟩
  obtain ⟨s, hs, hfind, hlength⟩ := Nat.find_spec hshort
  refine ⟨s, Nat.find hany, ⟨hs, hfind, ?_⟩, ?_⟩
  · exact fun s' hs' p hp => Nat.find_min' hany ⟨s', hs', hp⟩
  · intro s' hs' hfind'
    rw [hlength]
    exact Nat.find_min' hshort ⟨s', hs', hfind', rfl⟩

/-- The text before the earliest occurrence is unique. -/
theorem Earliest.beforeFirst_iff (h : Earliest stops text s m) (hn : n ≤ text.length) :
    BeforeFirst stops text (text.take n) ↔ n = m := by
  constructor
  · rintro (⟨-, hnone⟩ | ⟨k, hk, ⟨s', hs', hoccurs⟩, hfirst⟩)
    · exact absurd h.occursAt (hnone s h.mem m)
    · have hkm : k = m := by
        rcases Nat.lt_trichotomy k m with hlt | heq | hgt
        · exact absurd hoccurs (h.notBefore s' hs' k hlt)
        · exact heq
        · exact absurd h.occursAt (hfirst s h.mem m hgt)
      have hlength := congrArg List.length hk
      have hmlt := h.occursAt.1
      rw [List.length_take, List.length_take] at hlength
      omega
  · rintro rfl
    exact Or.inr ⟨n, rfl, ⟨s, h.mem, h.occursAt⟩, h.notBefore⟩

/-- **One stop string**: the text ends at the earliest occurrence, or still has one in it. -/
theorem Earliest.cutLength (h : Earliest stops text s m)
    (hinside : ∀ s' ∈ stops, ∀ p, find s' text = some p → p ≤ m ∨ m + s.length ≤ p)
    {s' : Text} (hs' : s' ∈ stops) (hn : n = m ∨ m + s.length ≤ n) :
    cutLength text n s' = m ∨ m + s.length ≤ cutLength text n s' := by
  rw [Drift.cutLength]
  cases hfind : find s' text with
  | none => exact hn
  | some p =>
    have hm := h.first s' hs' p hfind
    have hp := hinside s' hs' p hfind
    by_cases hle : p + s'.length ≤ n
    · simp only [if_pos hle]
      omega
    · simp only [if_neg hle]
      exact hn

theorem Earliest.foldl (h : Earliest stops text s m) (hne : s ≠ [])
    (hinside : ∀ s' ∈ stops, ∀ p, find s' text = some p → p ≤ m ∨ m + s.length ≤ p) :
    ∀ {todo : List Text}, (∀ s' ∈ todo, s' ∈ stops) → ∀ {n}, n = m ∨ m + s.length ≤ n →
      (s ∈ todo ∨ n = m) → todo.foldl (Drift.cutLength text) n = m := by
  intro todo
  induction todo with
  | nil =>
    intro _ n _ hmem
    exact hmem.resolve_left List.not_mem_nil
  | cons s' todo ih =>
    intro hall n hn hmem
    have hpos := List.length_pos_iff.mpr hne
    rw [List.foldl_cons]
    have hs' := hall s' List.mem_cons_self
    have hstep := h.cutLength hinside hs' hn
    refine ih (fun t ht => hall t (List.mem_cons_of_mem _ ht)) hstep ?_
    -- once the text ends at the occurrence, it does
    have hkeep : n = m → Drift.cutLength text n s' = m := by
      intro hnm
      have hle := cutLength_le text n s'
      omega
    rcases hmem with hmem | hnm
    · rcases List.mem_cons.mp hmem with rfl | hmem
      · refine Or.inr ?_
        rcases hn with hnm | hn
        · exact hkeep hnm
        · rw [Drift.cutLength, h.found]
          exact if_pos hn
      · exact Or.inl hmem
    · exact Or.inr (hkeep hnm)

/-- **A cut inside** of the shortest one with the earliest occurrence hides it from all others. -/
theorem Earliest.foldl_ne (h : Earliest stops text s m)
    (hshort : ∀ s' ∈ stops, find s' text = some m → s.length ≤ s'.length) :
    ∀ {todo : List Text}, (∀ s' ∈ todo, s' ∈ stops) → ∀ {n}, m < n → n < m + s.length →
      m < todo.foldl (Drift.cutLength text) n := by
  intro todo
  induction todo with
  | nil => exact fun _ _ hn _ => hn
  | cons s' todo ih =>
    intro hall n hn hcut
    rw [List.foldl_cons]
    have hs' := hall s' List.mem_cons_self
    have hle := cutLength_le text n s'
    refine ih (fun t ht => hall t (List.mem_cons_of_mem _ ht)) ?_ (by omega)
    rw [Drift.cutLength]
    cases hfind : find s' text with
    | none => exact hn
    | some p =>
      by_cases hfits : p + s'.length ≤ n
      · simp only [if_pos hfits]
        have hm := h.first s' hs' p hfind
        refine Nat.lt_of_le_of_ne hm ?_
        rintro rfl
        have hlonger := hshort s' hs' hfind
        omega
      · simp only [if_neg hfits]
        exact hn

end Earliest

/-! ## The order of the stop strings -/

section Orders

variable {text : Text} {stops : List Text}

/-- The text is cut right in any order. -/
theorem NoneInside.beforeFirst (h : NoneInside stops text) (hne : ∀ s ∈ stops, s ≠ [])
    {stops' : List Text} (hperm : stops'.Perm stops) :
    BeforeFirst stops text (trimStopStrings text (some (.many stops'))) := by
  have hmem : ∀ s ∈ stops', s ∈ stops := fun s hs => hperm.mem_iff.mp hs
  have hne' : ∀ s ∈ stops', s ≠ [] := fun s hs => hne s (hmem s hs)
  rcases h with hnone | ⟨s, m, hearliest, hinside⟩
  · rw [(trimStopStrings_eq_self_iff hne').mpr fun s hs => hnone s (hmem s hs)]
    exact Or.inl ⟨rfl, fun s hs => find_eq_none_iff.mp (hnone s hs)⟩
  · rw [trimStopStrings_eq hne']
    have hend := hearliest.occursAt.add_length_le
    rw [hearliest.foldl (hne s hearliest.mem) hinside hmem (Or.inr hend)
      (Or.inl (hperm.mem_iff.mpr hearliest.mem))]
    exact (hearliest.beforeFirst_iff hearliest.occursAt.1).mpr rfl

/-- One that first occurs inside goes first, and the text ends there. -/
theorem exists_order (hne : ∀ s ∈ stops, s ≠ []) (h : ¬ NoneInside stops text) :
    ∃ stops' : List Text, stops'.Perm stops ∧
      ¬ BeforeFirst stops text (trimStopStrings text (some (.many stops'))) := by
  have hsome : ∃ s ∈ stops, find s text ≠ none := by
    by_contra hall
    push Not at hall
    exact h (Or.inl hall)
  obtain ⟨s, m, hearliest, hshort⟩ := exists_earliest hsome
  have hinside : ∃ s' ∈ stops, ∃ p, find s' text = some p ∧ m < p ∧ p < m + s.length := by
    by_contra hall
    push Not at hall
    refine h (Or.inr ⟨s, m, hearliest, fun s' hs' p hp => ?_⟩)
    exact (Nat.lt_or_ge m p).symm.imp_right fun hlt => hall s' hs' p hp hlt
  obtain ⟨s', hs', p, hfind, hlo, hhi⟩ := hinside
  have hperm : (s' :: stops.erase s').Perm stops := (List.perm_cons_erase hs').symm
  have hmem : ∀ t ∈ s' :: stops.erase s', t ∈ stops := fun t ht => hperm.mem_iff.mp ht
  refine ⟨s' :: stops.erase s', hperm, ?_⟩
  have hoccurs := (find_eq_some_iff.mp hfind).1
  have hfirst : cutLength text text.length s' = p := by
    rw [cutLength, hfind]
    exact if_pos hoccurs.add_length_le
  rw [trimStopStrings_eq fun t ht => hne t (hmem t ht), List.foldl_cons, hfirst]
  have hlater := hearliest.foldl_ne hshort
    (fun t ht => hmem t (List.mem_cons_of_mem _ ht)) hlo hhi
  have hle := Nat.le_trans (foldl_cutLength_le text (stops.erase s') p) hoccurs.1
  rw [hearliest.beforeFirst_iff hle]
  omega

/-- What is asked of the trimmed text: it ends before the earliest occurrence, whatever the order of
    the stop strings, and trimming it again changes nothing. -/
structure TrimsAtFirst (stops : List Text) (text : Text) : Prop where
  beforeFirst : BeforeFirst stops text (trimStopStrings text (some (.many stops)))
  orderless : ∀ stops' : List Text, stops'.Perm stops →
    trimStopStrings text (some (.many stops')) = trimStopStrings text (some (.many stops))
  idem : trimStopStrings (trimStopStrings text (some (.many stops))) (some (.many stops))
    = trimStopStrings text (some (.many stops))

theorem BeforeFirst.unique {result result' : Text} (h : BeforeFirst stops text result)
    (h' : BeforeFirst stops text result') : result = result' := by
  rcases h with ⟨rfl, hnone⟩ | ⟨n, rfl, ⟨s, hs, hoccurs⟩, hfirst⟩
  · rcases h' with ⟨rfl, -⟩ | ⟨n', -, ⟨s, hs, hoccurs⟩, -⟩
    · rfl
    · exact absurd hoccurs (hnone s hs n')
  · rcases h' with ⟨-, hnone⟩ | ⟨n', rfl, ⟨s', hs', hoccurs'⟩, hfirst'⟩
    · exact absurd hoccurs (hnone s hs n)
    · rcases Nat.lt_trichotomy n n' with hlt | rfl | hgt
      · exact absurd hoccurs (hfirst' s hs n hlt)
      · rfl
      · exact absurd hoccurs' (hfirst s' hs' n' hgt)

/-- **The order does not matter**, and the text ends before the earliest occurrence, exactly if no
    stop string first occurs inside of one with the earliest occurrence. -/
theorem trimStopStrings_orderless_iff (text : Text) (stops : List Text) (hne : ∀ s ∈ stops, s ≠ []) :
    TrimsAtFirst stops text ↔ NoneInside stops text := by
  constructor
  · intro h
    by_contra hinside
    obtain ⟨stops', hperm, hwrong⟩ := exists_order hne hinside
    exact hwrong (h.orderless stops' hperm ▸ h.beforeFirst)
  · intro h
    have hfirst := h.beforeFirst hne (List.Perm.refl stops)
    exact ⟨hfirst, fun stops' hperm => (h.beforeFirst hne hperm).unique hfirst,
      trimStopStrings_idem hne⟩

/-- "ab" and "bc" in "abc". -/
theorem trimStopStrings_orderless_iff_overlap :
    TrimsAtFirst ["bc".toList, "ab".toList] "abc".toList ↔
      NoneInside ["bc".toList, "ab".toList] "abc".toList :=
  trimStopStrings_orderless_iff _ _ (by decide)

/-- **The first stop string that is listed** destroys the other. -/
theorem overlap_keeps_text :
    ¬ TrimsAtFirst ["bc".toList, "ab".toList] "abc".toList := by
  intro h
  have hother := h.orderless ["ab".toList, "bc".toList] (List.Perm.swap _ _ _)
  revert hother
  decide

end Orders

end Drift
