/-
  The two ways in which `api/server.py` answers: `sse_stream`, piece by piece, and the endpoints
  that send the whole text.

  The pieces come from a streamer.  A poll of it gives a piece, times out or says that there are no
  more; after a time-out the stream goes on unless the generation is over.  What is sent is what the
  pieces are, all of it: stop strings are cut out of the whole text only (`sseStream_content`), so
  the two ways agree exactly on the texts without them (`sseStream_agrees_iff`).

  Of a chunk, the content and the reason are modelled; the identifiers and times that are the same
  in all chunks are left out.
-/
import Drift.Api.StopStrings
import Drift.Python

namespace Drift

/-- What a poll of the streamer finds: `_next_piece`, or `queue.Empty` with `future.done()`. -/
inductive Poll where
  | piece (text : Text)
  | streamDone
  | empty (futureDone : Bool)

/-- `finish_reason` of a choice. -/
inductive FinishReason where
  | stop
  | length
deriving DecidableEq

/-- The payload of a chunk. -/
inductive Payload where
  /-- `{"delta": {"role": "assistant", "content": ""}}`. -/
  | role
  /-- `{"delta": {"content": piece}}`. -/
  | delta (content : Text)
  /-- `{"delta": {}}`. -/
  | emptyDelta
  | text (text : Text)
deriving DecidableEq

/-- A line of the stream. -/
inductive SseEvent where
  | chunk (payload : Payload) (reason : Option FinishReason)
  | error (exc : PyExc)
  /-- `data: [DONE]`. -/
  | done

/-- The text that a client reads off an event. -/
def SseEvent.content : SseEvent → Text
  | .chunk (.delta content) _ => content
  | .chunk (.text text) _ => text
  | _ => []

/-- `finish_reason`. -/
def finishReason (completionTokens maxNewTokens : Nat) : FinishReason :=
  if maxNewTokens ≤ completionTokens then .length else .stop

/-- The loop of `sse_stream`: the chunks it sends, unless it is still polling. -/
def ssePieces (chat : Bool) : List Poll → Option (List SseEvent)
  | [] => none
  | .empty true :: _ => some []
  | .empty false :: polls => ssePieces chat polls
  | .streamDone :: _ => some []
  | .piece piece :: polls => do
    let events ← ssePieces chat polls
    if piece = [] then some events
    else some (.chunk (if chat then .delta piece else .text piece) none :: events)

/-- The end of the stream; `generated` is the number of tokens, or what `generate` raised. -/
def sseEnd (chat : Bool) (maxNewTokens : Nat) (generated : Except PyExc Nat) : List SseEvent :=
  let last : Payload := if chat then .emptyDelta else .text []
  match generated with
  | .ok completionTokens =>
    [.chunk last (some (finishReason completionTokens maxNewTokens)), .done]
  | .error exc => [.error exc, .chunk last (some .stop), .done]

/-- `sse_stream`. -/
def sseStream (chat : Bool) (maxNewTokens : Nat) (polls : List Poll)
    (generated : Except PyExc Nat) : Option (List SseEvent) := do
  let events ← ssePieces chat polls
  some ((if chat then [.chunk .role none] else []) ++ events ++
    sseEnd chat maxNewTokens generated)

/-- The text that a stream carries. -/
def streamedText (events : List SseEvent) : Text := events.flatMap SseEvent.content

/-- The text of `chat_completions` and `completions` without `stream`. -/
def completionText (decoded : Text) (stop : Option Stop) : Text := trimStopStrings decoded stop

/-! ## The streamed text -/

/-- The streamer gives these pieces, some of them late, and ends, or `generate` dies behind the last
    one. -/
inductive Polls : List Text → List Poll → Prop where
  | done (rest : List Poll) : Polls [] (.streamDone :: rest)
  | died (rest : List Poll) : Polls [] (.empty true :: rest)
  | late {pieces : List Text} {polls : List Poll} : Polls pieces polls →
      Polls pieces (.empty false :: polls)
  | piece {pieces : List Text} {polls : List Poll} (text : Text) : Polls pieces polls →
      Polls (text :: pieces) (.piece text :: polls)

theorem streamedText_append (events events' : List SseEvent) :
    streamedText (events ++ events') = streamedText events ++ streamedText events' :=
  List.flatMap_append

theorem streamedText_sseEnd (chat : Bool) (maxNewTokens : Nat) (generated : Except PyExc Nat) :
    streamedText (sseEnd chat maxNewTokens generated) = [] := by
  cases generated <;> cases chat <;> rfl

theorem ssePieces_content (chat : Bool) {pieces : List Text} {polls : List Poll}
    (h : Polls pieces polls) :
    ∃ events, ssePieces chat polls = some events ∧ streamedText events = pieces.flatten := by
  induction h with
  | done rest => exact ⟨[], rfl, rfl⟩
  | died rest => exact ⟨[], rfl, rfl⟩
  | late _ ih => exact ih
  | @piece pieces polls text _ ih =>
    obtain ⟨events, hevents, hcontent⟩ := ih
    rw [ssePieces, hevents]
    by_cases htext : text = []
    · refine ⟨events, if_pos htext, ?_⟩
      rw [hcontent, htext]
      rfl
    · refine ⟨_, if_neg htext, ?_⟩
      rw [List.flatten_cons, ← hcontent]
      cases chat <;> rfl

/-- **The stream carries the pieces**, uncut. -/
theorem sseStream_content (chat : Bool) (maxNewTokens : Nat) (generated : Except PyExc Nat)
    {pieces : List Text} {polls : List Poll} (h : Polls pieces polls) :
    ∃ events, sseStream chat maxNewTokens polls generated = some events ∧
      streamedText events = pieces.flatten := by
  obtain ⟨events, hevents, hcontent⟩ := ssePieces_content chat h
  refine ⟨_, by rw [sseStream, hevents]; rfl, ?_⟩
  have hrole : streamedText (if chat then [.chunk .role none] else []) = [] := by
    cases chat <;> rfl
  rw [streamedText_append, streamedText_append, hrole, hcontent, streamedText_sseEnd,
    List.nil_append, List.append_nil]

/-- **Both ways carry the same text** exactly if no stop string occurs in it. -/
theorem sseStream_agrees_iff (chat : Bool) (maxNewTokens : Nat) (generated : Except PyExc Nat)
    {pieces : List Text} {polls : List Poll} {stops : List Text} (h : Polls pieces polls)
    (hne : ∀ s ∈ stops, s ≠ []) :
    ∃ events, sseStream chat maxNewTokens polls generated = some events ∧
      streamedText events = pieces.flatten ∧
      (streamedText events = completionText pieces.flatten (some (.many stops)) ↔
        ∀ s ∈ stops, ∀ p, ¬ OccursAt s pieces.flatten p) := by
  obtain ⟨events, hevents, hcontent⟩ := sseStream_content chat maxNewTokens generated h
  refine ⟨events, hevents, hcontent, ?_⟩
  rw [hcontent, completionText, eq_comm, trimStopStrings_eq_self_iff hne]
  exact forall₂_congr fun s _ => find_eq_none_iff

/-- A stop string over two pieces, and a piece that is late. -/
def splitPolls : List Poll :=
  [.piece "so EN".toList, .empty false, .piece "D on".toList, .streamDone]

theorem splitPolls_polls : Polls ["so EN".toList, "D on".toList] splitPolls :=
  .piece _ (.late (.piece _ (.done [])))

theorem sseStream_agrees_iff_split :
    ∃ events, sseStream true 8 splitPolls (.ok 3) = some events ∧
      streamedText events = ["so EN".toList, "D on".toList].flatten ∧
      (streamedText events
          = completionText ["so EN".toList, "D on".toList].flatten (some (.many ["END".toList])) ↔
        ∀ s ∈ ["END".toList], ∀ p, ¬ OccursAt s ["so EN".toList, "D on".toList].flatten p) :=
  sseStream_agrees_iff true 8 (.ok 3) splitPolls_polls (by decide)

/-- **A stop string is streamed**, and not in the whole text. -/
theorem stop_string_streamed :
    (sseStream true 8 splitPolls (.ok 3)).map streamedText = some "so END on".toList ∧
      completionText "so END on".toList (some (.many ["END".toList])) = "so ".toList ∧
      "so END on".toList ≠ "so ".toList := by
  decide

end Drift
