/-
  Texts as lists: where a text occurs in another one, and cutting at a separator.

  `find sub text` is the first position at which `sub` occurs (`find_eq_some_iff`).  A text that is
  cut off behind that occurrence still has it there (`find_take`), and one that is cut inside it has
  none (`find_take_eq_none`).

  `partition` cuts at the first separator and `rpartition` at the last one; both find again what was
  put together around a separator that the one side does not have.
-/
import Mathlib.Data.List.Basic
import Mathlib.Order.Basic

namespace Drift

/-- A string. -/
abbrev Text := List Char

variable {α : Type} [DecidableEq α]

/-! ## Occurrences -/

/-- `sub` stands in `text` from position `p` on. -/
def OccursAt (sub text : List α) (p : Nat) : Prop := p ≤ text.length ∧ sub <+: text.drop p

instance (sub text : List α) (p : Nat) : Decidable (OccursAt sub text p) :=
  inferInstanceAs (Decidable (_ ∧ _))

/-- `text.find(sub)`; none is `-1`. -/
def find (sub : List α) : List α → Option Nat
  | [] => if sub = [] then some 0 else none
  | c :: text => if sub <+: c :: text then some 0 else (find sub text).map (· + 1)

section Occurrences

variable {sub text : List α} {p n : Nat}

omit [DecidableEq α] in
theorem occursAt_zero : OccursAt sub text 0 ↔ sub <+: text := by
  rw [OccursAt, List.drop_zero]
  exact and_iff_right (Nat.zero_le _)

omit [DecidableEq α] in
theorem occursAt_succ {c : α} : OccursAt sub (c :: text) (p + 1) ↔ OccursAt sub text p := by
  rw [OccursAt, OccursAt, List.length_cons, List.drop_succ_cons, Nat.succ_le_succ_iff]

omit [DecidableEq α] in
theorem occursAt_nil : OccursAt sub [] p ↔ p = 0 ∧ sub = [] := by
  rw [OccursAt, List.drop_nil, List.prefix_nil, List.length_nil, Nat.le_zero]

omit [DecidableEq α] in
/-- An occurrence fits. -/
theorem OccursAt.add_length_le (h : OccursAt sub text p) : p + sub.length ≤ text.length := by
  have hle := h.2.length_le
  rw [List.length_drop] at hle
  have hp := h.1
  omega

omit [DecidableEq α] in
/-- What stands in the first `n` elements stands in the text, and ends there. -/
theorem occursAt_take (hsub : sub ≠ []) :
    OccursAt sub (text.take n) p ↔ OccursAt sub text p ∧ p + sub.length ≤ n := by
  have hpos : 0 < sub.length := List.length_pos_iff.mpr hsub
  constructor
  · intro h
    have hle := h.add_length_le
    rw [List.length_take] at hle
    refine ⟨⟨by omega, h.2.trans ?_⟩, by omega⟩
    rw [List.drop_take]
    exact List.take_prefix _ _
  · rintro ⟨h, hn⟩
    have hle := h.add_length_le
    refine ⟨by rw [List.length_take]; omega, ?_⟩
    rw [List.drop_take, List.prefix_take_iff]
    exact ⟨h.2, by omega⟩

/-- **The first occurrence.** -/
theorem find_eq_some_iff : find sub text = some p ↔
    OccursAt sub text p ∧ ∀ q < p, ¬ OccursAt sub text q := by
  induction text generalizing p with
  | nil =>
    rw [find]
    split
    · rename_i hsub
      rw [occursAt_nil, Option.some.injEq]
      constructor
      · rintro rfl
        exact ⟨⟨rfl, hsub⟩, fun q hq => absurd hq (Nat.not_lt_zero q)⟩
      · rintro ⟨⟨rfl, -⟩, -⟩
        rfl
    · rename_i hsub
      rw [occursAt_nil]
      constructor
      · intro h
        nomatch h
      · intro h
        exact absurd h.1.2 hsub
  | cons c text ih =>
    rw [find]
    split
    · rename_i hfirst
      rw [Option.some.injEq]
      constructor
      · rintro rfl
        exact ⟨occursAt_zero.mpr hfirst, fun q hq => absurd hq (Nat.not_lt_zero q)⟩
      · rintro ⟨-, hnone⟩
        rcases Nat.eq_zero_or_pos p with rfl | hp
        · rfl
        · exact absurd (occursAt_zero.mpr hfirst) (hnone 0 hp)
    · rename_i hfirst
      rw [Option.map_eq_some_iff]
      constructor
      · rintro ⟨q, hq, rfl⟩
        obtain ⟨hq, hnone⟩ := ih.mp hq
        refine ⟨occursAt_succ.mpr hq, fun r hr => ?_⟩
        cases r with
        | zero => exact fun h => hfirst (occursAt_zero.mp h)
        | succ r => exact fun h => hnone r (by omega) (occursAt_succ.mp h)
      · rintro ⟨hp, hnone⟩
        cases p with
        | zero => exact absurd (occursAt_zero.mp hp) hfirst
        | succ p =>
          refine ⟨p, ih.mpr ⟨occursAt_succ.mp hp, fun q hq h => ?_⟩, rfl⟩
          exact hnone (q + 1) (by omega) (occursAt_succ.mpr h)

/-- `find` finds nothing exactly if nothing occurs. -/
theorem find_eq_none_iff : find sub text = none ↔ ∀ p, ¬ OccursAt sub text p := by
  constructor
  · intro hnone p
    induction p using Nat.strongRecOn with
    | ind p ih =>
      intro h
      rw [find_eq_some_iff.mpr ⟨h, ih⟩] at hnone
      nomatch hnone
  · intro hall
    cases hfind : find sub text with
    | none => rfl
    | some p => exact absurd (find_eq_some_iff.mp hfind).1 (hall p)

/-- An occurrence that is not cut off is found. -/
theorem find_take (hsub : sub ≠ []) (hfind : find sub text = some p) (hn : p + sub.length ≤ n) :
    find sub (text.take n) = some p := by
  obtain ⟨hp, hnone⟩ := find_eq_some_iff.mp hfind
  exact find_eq_some_iff.mpr ⟨(occursAt_take hsub).mpr ⟨hp, hn⟩,
    fun q hq h => hnone q hq ((occursAt_take hsub).mp h).1⟩

/-- If the first occurrence is cut off, all are. -/
theorem find_take_eq_none (hsub : sub ≠ [])
    (h : ∀ p, find sub text = some p → n < p + sub.length) : find sub (text.take n) = none := by
  rw [find_eq_none_iff]
  intro q hq
  obtain ⟨hq, hn⟩ := (occursAt_take hsub).mp hq
  cases hfind : find sub text with
  | none => exact find_eq_none_iff.mp hfind q hq
  | some p =>
    have hle : p ≤ q := by
      refine Nat.le_of_not_lt fun hlt => ?_
      exact (find_eq_some_iff.mp hfind).2 q hlt hq
    have hcut := h p hfind
    omega

end Occurrences

/-! ## Separators -/

/-- `text.partition(sep)` for a separator of one element: what stands before the first of them, and
    behind it. -/
def partition (sep : α) : List α → Option (List α × List α)
  | [] => none
  | c :: text =>
    if c = sep then some ([], text)
    else (partition sep text).map fun parts => (c :: parts.1, parts.2)

/-- `text.rpartition(sep)`: the same for the last one. -/
def rpartition (sep : α) (text : List α) : Option (List α × List α) :=
  (partition sep text.reverse).map fun parts => (parts.2.reverse, parts.1.reverse)

/-- A text is cut at the first separator, -/
theorem partition_eq_some_iff {sep : α} {text before behind : List α} :
    partition sep text = some (before, behind) ↔
      text = before ++ sep :: behind ∧ sep ∉ before := by
  induction text generalizing before with
  | nil => simp [partition]
  | cons c text ih =>
    rw [partition]
    split
    · rename_i hc
      subst hc
      rw [Option.some.injEq, Prod.mk.injEq]
      constructor
      · rintro ⟨rfl, rfl⟩
        exact ⟨rfl, List.not_mem_nil⟩
      · rintro ⟨htext, hmem⟩
        cases before with
        | nil => exact ⟨rfl, (List.cons.inj htext).2⟩
        | cons d before =>
          obtain ⟨rfl, -⟩ := List.cons.inj htext
          exact absurd List.mem_cons_self hmem
    · rename_i hc
      rw [Option.map_eq_some_iff]
      constructor
      · rintro ⟨⟨before', behind'⟩, hparts, heq⟩
        obtain ⟨rfl, rfl⟩ := Prod.mk.inj heq
        obtain ⟨rfl, hmem⟩ := ih.mp hparts
        exact ⟨rfl, fun h => (List.mem_cons.mp h).elim (fun h => hc h.symm) hmem⟩
      · rintro ⟨htext, hmem⟩
        cases before with
        | nil => exact absurd (List.cons.inj htext).1 hc
        | cons d before =>
          obtain ⟨rfl, rfl⟩ := List.cons.inj htext
          exact ⟨(before, behind), ih.mpr ⟨rfl, fun h => hmem (List.mem_cons_of_mem _ h)⟩, rfl⟩

/-- or at the last one. -/
theorem rpartition_eq_some_iff {sep : α} {text before behind : List α} :
    rpartition sep text = some (before, behind) ↔
      text = before ++ sep :: behind ∧ sep ∉ behind := by
  rw [rpartition, Option.map_eq_some_iff]
  constructor
  · rintro ⟨⟨behind', before'⟩, hparts, heq⟩
    obtain ⟨rfl, rfl⟩ := Prod.mk.inj heq
    obtain ⟨htext, hmem⟩ := partition_eq_some_iff.mp hparts
    refine ⟨?_, fun h => hmem (List.mem_reverse.mp h)⟩
    rw [← List.reverse_reverse text, htext]
    simp
  · rintro ⟨rfl, hmem⟩
    refine ⟨(behind.reverse, before.reverse), partition_eq_some_iff.mpr ⟨by simp, ?_⟩, by simp⟩
    exact fun h => hmem (List.mem_reverse.mp h)

/-! ## Both ends -/

/-- The text without what `p` holds of at its ends. -/
def stripBy (p : α → Bool) (text : List α) : List α :=
  ((text.dropWhile p).reverse.dropWhile p).reverse

section Strip

omit [DecidableEq α]

variable {p : α → Bool}

theorem dropWhile_append_of_all {pad text : List α} (hpad : ∀ c ∈ pad, p c = true) :
    (pad ++ text).dropWhile p = text.dropWhile p := by
  induction pad with
  | nil => rfl
  | cons c pad ih =>
    rw [List.cons_append, List.dropWhile_cons_of_pos (hpad c List.mem_cons_self)]
    exact ih fun d hd => hpad d (List.mem_cons_of_mem _ hd)

/-- A text with ends that `p` does not hold of is found in its padding. -/
theorem stripBy_padded {pad pad' text : List α} (hpad : ∀ c ∈ pad, p c = true)
    (hpad' : ∀ c ∈ pad', p c = true) (hfirst : ∀ c, text.head? = some c → p c = false)
    (hlast : ∀ c, text.getLast? = some c → p c = false) :
    stripBy p (pad ++ text ++ pad') = text := by
  have hends : ∀ {t : List α}, (∀ c, t.head? = some c → p c = false) → t.dropWhile p = t := by
    intro t ht
    cases t with
    | nil => rfl
    | cons c t =>
      exact List.dropWhile_cons_of_neg fun hc => absurd hc (by rw [ht c rfl]; exact nofun)
  have hback : ∀ c, text.reverse.head? = some c → p c = false := by
    intro c hc
    rw [List.head?_reverse] at hc
    exact hlast c hc
  have hpadBack : ∀ c ∈ pad'.reverse, p c = true := fun c hc => hpad' c (List.mem_reverse.mp hc)
  rw [stripBy, List.append_assoc, dropWhile_append_of_all hpad]
  cases text with
  | nil =>
    rw [List.nil_append, ← List.append_nil pad', dropWhile_append_of_all hpad']
    rfl
  | cons c text =>
    have hstart : (c :: text ++ pad').dropWhile p = c :: text ++ pad' := hends hfirst
    rw [hstart, List.reverse_append, dropWhile_append_of_all hpadBack, hends hback,
      List.reverse_reverse]

/-- A text without blanks at its ends stays, -/
theorem stripBy_self {text : List α} (hfirst : ∀ c, text.head? = some c → p c = false)
    (hlast : ∀ c, text.getLast? = some c → p c = false) : stripBy p text = text := by
  have h : stripBy p ([] ++ text ++ []) = text := stripBy_padded nofun nofun hfirst hlast
  rwa [List.nil_append, List.append_nil] at h

/-- and of blanks nothing is left. -/
theorem stripBy_blank {pad : List α} (hpad : ∀ c ∈ pad, p c = true) : stripBy p pad = [] := by
  have h : stripBy p (pad ++ [] ++ []) = [] := stripBy_padded hpad nofun nofun nofun
  rwa [List.append_nil, List.append_nil] at h

/-- A text and what `p` holds of at its end. -/
theorem exists_trimRight (p : α → Bool) (text : List α) : ∃ trimmed pad, text = trimmed ++ pad ∧
    (∀ c ∈ pad, p c = true) ∧ ∀ c, trimmed.getLast? = some c → p c = false := by
  refine ⟨(text.reverse.dropWhile p).reverse, (text.reverse.takeWhile p).reverse, ?_, ?_, ?_⟩
  · rw [← List.reverse_append, List.takeWhile_append_dropWhile, List.reverse_reverse]
  · intro c hc
    exact List.all_eq_true.mp (List.all_takeWhile) c (List.mem_reverse.mp hc)
  · intro c hc
    rw [List.getLast?_reverse] at hc
    have hhead := List.head?_dropWhile_not p text.reverse
    rw [hc] at hhead
    simpa using hhead

end Strip

/-! ## Ranges of characters -/

/-- The character is in one of these ranges of code points. -/
def inRanges (ranges : List (Nat × Nat)) (c : Char) : Bool :=
  ranges.any fun range => decide (range.1 ≤ c.toNat) && decide (c.toNat ≤ range.2)

/-- Ranges that do not overlap have no character in common. -/
theorem inRanges_disjoint {ranges ranges' : List (Nat × Nat)} {c : Char}
    (hdisjoint : ∀ range ∈ ranges, ∀ range' ∈ ranges',
      range.2 < range'.1 ∨ range'.2 < range.1)
    (h : inRanges ranges c = true) : inRanges ranges' c = false := by
  obtain ⟨range, hmem, hin⟩ := List.any_eq_true.mp h
  rw [Bool.and_eq_true, decide_eq_true_iff, decide_eq_true_iff] at hin
  refine Bool.eq_false_iff.mpr fun h' => ?_
  obtain ⟨range', hmem', hin'⟩ := List.any_eq_true.mp h'
  rw [Bool.and_eq_true, decide_eq_true_iff, decide_eq_true_iff] at hin'
  have hapart := hdisjoint range hmem range' hmem'
  omega

/-! ## Parts -/

omit [DecidableEq α] in
/-- Every part is in the text that is joined. -/
theorem infix_intercalate (sep : List α) {part : List α} : ∀ {parts : List (List α)},
    part ∈ parts → part <:+: sep.intercalate parts
  | [only], h => by
    obtain rfl := List.mem_singleton.mp h
    exact ⟨[], [], by rw [List.intercalate_singleton, List.nil_append, List.append_nil]⟩
  | first :: second :: parts, h => by
    rw [List.intercalate_cons_cons]
    rcases List.mem_cons.mp h with rfl | h
    · exact ⟨[], sep ++ sep.intercalate (second :: parts), by
        rw [List.nil_append, List.append_assoc]⟩
    · exact (infix_intercalate sep h).trans (List.suffix_append _ _).isInfix

omit [DecidableEq α] in
/-- What is joined has the separators and the characters of the parts. -/
theorem mem_intercalate {sep c : α} {parts : List (List α)} (h : c ∈ [sep].intercalate parts) :
    c = sep ∨ ∃ part ∈ parts, c ∈ part := by
  induction parts with
  | nil => exact absurd h List.not_mem_nil
  | cons part parts ih =>
    cases parts with
    | nil =>
      rw [List.intercalate_singleton] at h
      exact Or.inr ⟨part, List.mem_singleton_self part, h⟩
    | cons part' parts =>
      rw [List.intercalate_cons_cons, List.mem_append, List.mem_append, List.mem_singleton] at h
      rcases h with (h | h) | h
      · exact Or.inr ⟨part, List.mem_cons_self, h⟩
      · exact Or.inl h
      · rcases ih h with h | ⟨part'', hmem, h⟩
        · exact Or.inl h
        · exact Or.inr ⟨part'', List.mem_cons_of_mem _ hmem, h⟩

/-- An element of a text is the separator, or in one of its parts. -/
theorem mem_splitOn {sep c : α} {text : List α} (h : c ∈ text) :
    c = sep ∨ ∃ part ∈ text.splitOn sep, c ∈ part := by
  refine mem_intercalate ?_
  rwa [List.intercalate_splitOn]

end Drift
