/-
  What a server session keeps of the tokens: its position and its history.

  As long as no request fails, the history is the tokens that its server has been fed, cut by the
  rollbacks (`KeepsTokens`).  Then a step sends the new tokens only, whether the server has seen the
  ones before it or there are none.  Nothing here depends on the server.
-/
import Drift.Client.ServerSession

namespace Drift

open ServerInferenceSession

/-- What all rows of a batch have at one position. -/
abbrev Column (α : Type) := List (List α)

variable {σ κ α : Type} [Zero α]

/-- The history is these tokens, as many as the position says. -/
def HoldsTokens (position : Nat) (tokens : List (Column α)) : Option (Tensor α) → Prop
  | none => position = 0 ∧ tokens = []
  | some history => ∃ batch features, history.shape = [batch, position, features] ∧
      history.columns = tokens

/-- A server session at this position with these tokens in its history. -/
structure KeepsTokens (maxLength position : Nat) (serverSession : ServerInferenceSession σ α)
    (tokens : List (Column α)) : Prop where
  position_eq : serverSession.position = position
  maxLength_eq : serverSession.maxLength = maxLength
  history : HoldsTokens position tokens serverSession.history
  unstepped : serverSession.stepped = false → position = 0 ∧ serverSession.history = none

theorem HoldsTokens.length_eq {position : Nat} {tokens : List (Column α)}
    {history : Option (Tensor α)} (h : HoldsTokens position tokens history) :
    tokens.length = position := by
  cases history with
  | none =>
    obtain ⟨rfl, rfl⟩ := h
    rfl
  | some history =>
    obtain ⟨batch, features, hshape, rfl⟩ := h
    rw [Tensor.length_columns, hshape]
    rfl

variable {maxLength position : Nat} {tokens : List (Column α)}
  {serverSession serverSession' : ServerInferenceSession σ α}

theorem keepsTokens_new (span : RemoteSpanInfo) (uuid maxLength : Nat) (stream : σ) :
    KeepsTokens maxLength 0 (.new span uuid maxLength stream : ServerInferenceSession σ α) [] where
  position_eq := rfl
  maxLength_eq := rfl
  history := ⟨rfl, rfl⟩
  unstepped _ := ⟨rfl, rfl⟩

/-- A rollback cuts the history. -/
theorem KeepsTokens.setPosition (h : KeepsTokens maxLength position serverSession tokens)
    {start : Nat} (hstart : start ≤ position) :
    ∃ history, serverSession.setPosition start
        = .ok { serverSession with position := start, history := history } ∧
      KeepsTokens maxLength start { serverSession with position := start, history := history }
        (tokens.take start) := by
  unfold ServerInferenceSession.setPosition
  rw [if_pos (by rw [h.position_eq]; exact hstart)]
  have hhistory := h.history
  refine ⟨_, rfl, rfl, h.maxLength_eq, ?_, ?_⟩
  · simp only
    cases hcase : serverSession.history with
    | none =>
      rw [hcase] at hhistory
      obtain ⟨rfl, rfl⟩ := hhistory
      exact ⟨Nat.le_zero.mp hstart, List.take_nil⟩
    | some history =>
      rw [hcase] at hhistory
      obtain ⟨batch, features, hshape, rfl⟩ := hhistory
      rw [Option.bind_some, if_pos (by rw [hshape]; exact hstart)]
      rcases Nat.eq_zero_or_pos start with rfl | hpos
      · exact ⟨rfl, List.take_zero⟩
      · rw [if_pos hpos]
        exact ⟨batch, features, Tensor.shape_slice_first hshape hstart,
          Tensor.columns_slice hshape hstart⟩
  · intro hstepped
    obtain ⟨rfl, hempty⟩ := h.unstepped hstepped
    refine ⟨Nat.le_zero.mp hstart, ?_⟩
    simp only [hempty]
    rfl

/-- A step extends the history. -/
theorem KeepsTokens.extendHistory (h : KeepsTokens maxLength position serverSession tokens)
    {inputs history : Tensor α} {batch n features : Nat} (hshape : inputs.shape = [batch, n, features])
    (hextend : serverSession.extendHistory inputs = .ok history) :
    HoldsTokens (position + n) (tokens ++ inputs.columns) (some history) := by
  have hhistory := h.history
  unfold ServerInferenceSession.extendHistory at hextend
  cases hcase : serverSession.history with
  | none =>
    rw [hcase] at hhistory hextend
    obtain ⟨rfl, rfl⟩ := hhistory
    cases hextend
    exact ⟨batch, features, by rw [hshape, Nat.zero_add], rfl⟩
  | some old =>
    rw [hcase] at hhistory hextend
    obtain ⟨batch', features', hold, rfl⟩ := hhistory
    simp only at hextend
    rw [if_pos (by rw [hold, h.position_eq]; rfl), Tensor.lastTokens_self rfl] at hextend
    unfold catTokens at hextend
    split at hextend
    · rename_i hsame
      cases hextend
      rw [hold, hshape] at hsame
      cases hsame
      exact ⟨batch, features, Tensor.shape_cat_tokens hold hshape, Tensor.columns_cat hold hshape⟩
    · nomatch hextend

/-- Only the new tokens are sent: a server that has seen none is at position 0. -/
theorem KeepsTokens.sent_eq (h : KeepsTokens maxLength position serverSession tokens)
    {inputs sent : Tensor α} (hprepare : serverSession.prepare inputs = (serverSession', .ok sent)) :
    sent = inputs := by
  obtain ⟨history, -, hextend, -, -, rfl⟩ := prepare_eq_ok.mp hprepare
  unfold sentTokens
  cases hstepped : serverSession.stepped with
  | false =>
    rw [ServerInferenceSession.extendHistory, (h.unstepped hstepped).2] at hextend
    cases hextend
    rfl
  | true => exact Tensor.lastTokens_self rfl

/-- **A step of a server session** that is answered. -/
theorem KeepsTokens.step [LinearOrder κ] {servers : InferenceServers σ κ α} {step : StepInputs κ α}
    {outputs : Tensor α} {produced : List (κ × KVPair α)} {batch n features : Nat}
    (h : KeepsTokens maxLength position serverSession tokens)
    (hshape : step.inputs.shape = [batch, n, features])
    (hstep : serverSession.step servers none step = (serverSession', .ok (outputs, produced))) :
    ∃ response, servers.answer serverSession.stream (serverSession.stepRequest step.inputs step)
        = .ok (response, serverSession'.stream) ∧
      receive step.inputs response = .ok (outputs, produced) ∧
      KeepsTokens maxLength (position + n) serverSession' (tokens ++ step.inputs.columns) ∧
      serverSession'.stepped = true := by
  obtain ⟨history, sent, response, stream, hprepare, hanswer, hreceive, rfl⟩ := step_eq_ok.mp hstep
  obtain ⟨extended, -, hextend, -, hsession, -⟩ := prepare_eq_ok.mp hprepare
  obtain rfl := h.sent_eq hprepare
  cases hsession
  refine ⟨response, hanswer, hreceive, ⟨?_, h.maxLength_eq, h.extendHistory hshape hextend, ?_⟩, rfl⟩
  · show serverSession.position + step.inputs.shape.getD 1 0 = _
    rw [h.position_eq, hshape]
    rfl
  · intro hstepped
    nomatch hstepped

end Drift
