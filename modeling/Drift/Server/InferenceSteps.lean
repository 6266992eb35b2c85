/-
  `_iterate_inference_steps` of `server/handler.py`: one stream of steps out of two sources.

  The client sends its requests one after another; other servers push requests for the same steps
  into the session queue.  Two tasks wait for the two sources, and one that has not been used is
  kept for the next turn.  Whatever the order of arrivals, the loop takes the requests of each
  source in their order, none twice (`Merged.direct`, `Merged.pushes`), and yields of what it takes
  the first request for each step (`Merged.yielded`).  To serve what is yielded is to serve all that
  is taken, as a stream that skips what it has served before (`serveAll_keepNew`).

  A request without tensors ends the loop, and this is asked of a pushed request as well
  (`empty_push_ends`).  Timeouts are left out, and so is the consumer of the steps.
-/
import Drift.Lib.Run
import Drift.Server.PushOutputs

namespace Drift.InferenceSteps

variable {κ α : Type}

/-! ## The loop -/

/-- `anext_task` or `get_push_task`: `None`, pending or done. -/
inductive WaitTask (κ α : Type) where
  | absent
  | pending
  | done (request : ExpertRequest κ α)

inductive Source where
  | direct
  | push
deriving DecidableEq

/-- The loop while it waits, with what has arrived and is not taken by a task.  There is no session
    queue without a session id.  `taken` and `yielded` say what it has done so far. -/
structure StepsState (κ α : Type) where
  requests : List (ExpertRequest κ α) := []
  sessionQueue : Option (List (ExpertRequest κ α))
  anextTask : WaitTask κ α := .absent
  getPushTask : WaitTask κ α := .absent
  processedStepIds : List Nat := []
  nPushes : Nat := 0
  nLatePushes : Nat := 0
  finished : Bool := false
  taken : List (Source × ExpertRequest κ α)
  yielded : List (ExpertRequest κ α) := []

/-- `if task is None: task = asyncio.create_task(...)`. -/
def WaitTask.start : WaitTask κ α → WaitTask κ α
  | .absent => .pending
  | task => task

/-- `step_id is None or step_id not in processed_step_ids`, the other way round. -/
def isProcessed (processedStepIds : List Nat) (request : ExpertRequest κ α) : Bool :=
  request.metadata.stepId.any (· ∈ processedStepIds)

/-- The loop from the test of `request.tensors` to the next wait. -/
def StepsState.turn (s : StepsState κ α) (request : ExpertRequest κ α) : StepsState κ α :=
  if request.tensors.isEmpty then { s with finished := true }
  else
    let pushed := if request.metadata.pushed then 1 else 0
    let s := { s with nPushes := s.nPushes + pushed }
    let s := if isProcessed s.processedStepIds request then
        { s with nLatePushes := s.nLatePushes + pushed }
      else { s with
        yielded := s.yielded ++ [request]
        processedStepIds := s.processedStepIds ++ request.metadata.stepId.toList }
    { s with anextTask := s.anextTask.start, getPushTask := s.getPushTask.start }

/-- The loop is entered with the first request of the stream. -/
def start (firstRequest : ExpertRequest κ α) (hasSession : Bool) : StepsState κ α :=
  StepsState.turn
    { sessionQueue := if hasSession then some [] else none, taken := [(.direct, firstRequest)] }
    firstRequest

/-- What may happen next: a request arrives, a task gets its result, or the loop goes on. -/
inductive Input (κ α : Type) where
  | sends (request : ExpertRequest κ α)
  | pushes (request : ExpertRequest κ α)
  | anextDone
  | getPushDone
  | wake

/-- `request = await task`. -/
def StepsState.take (s : StepsState κ α) (source : Source) (request : ExpertRequest κ α) :
    StepsState κ α :=
  StepsState.turn { s with taken := s.taken ++ [(source, request)] } request

/-- One step; `asyncio.wait` returns when one of the tasks is done. -/
def step (s : StepsState κ α) : Input κ α → Option (StepsState κ α)
  | .sends request => some { s with requests := s.requests ++ [request] }
  | .pushes request => s.sessionQueue.map fun queue =>
    { s with sessionQueue := some (queue ++ [request]) }
  | .anextDone =>
    match s.anextTask, s.requests with
    | .pending, request :: requests =>
      some { s with anextTask := .done request, requests := requests }
    | _, _ => none
  | .getPushDone =>
    match s.getPushTask, s.sessionQueue with
    | .pending, some (request :: queue) =>
      some { s with getPushTask := .done request, sessionQueue := some queue }
    | _, _ => none
  | .wake =>
    if s.finished then none
    else match s.anextTask, s.getPushTask with
      | .done request, _ => some (({ s with anextTask := .absent }).take .direct request)
      | _, .done request => some (({ s with getPushTask := .absent }).take .push request)
      | _, _ => none

/-- The requests that the client has sent after the first one. -/
def Input.sent : Input κ α → Option (ExpertRequest κ α)
  | .sends request => some request
  | _ => none

def Input.pushed : Input κ α → Option (ExpertRequest κ α)
  | .pushes request => some request
  | _ => none

/-- Nothing more happens before another request arrives. -/
def AtRest (s : StepsState κ α) : Prop :=
  (step s .anextDone).isNone ∧ (step s .getPushDone).isNone ∧ (step s .wake).isNone

instance (s : StepsState κ α) : Decidable (AtRest s) := inferInstanceAs (Decidable (_ ∧ _))

/-! ## The first request for each step -/

/-- The step ids of these requests. -/
def stepIds (requests : List (ExpertRequest κ α)) : List Nat :=
  requests.filterMap (·.metadata.stepId)

/-- The requests without those for a step that was there before. -/
def keepNew : List Nat → List (ExpertRequest κ α) → List (ExpertRequest κ α)
  | _, [] => []
  | seen, request :: requests =>
    if isProcessed seen request then keepNew seen requests
    else request :: keepNew (seen ++ request.metadata.stepId.toList) requests

/-- A request is a repeat only when it carries a step id, and that id was seen before. -/
theorem isProcessed_iff {seen : List Nat} {request : ExpertRequest κ α} :
    isProcessed seen request = true ↔ ∃ stepId, request.metadata.stepId = some stepId ∧
      stepId ∈ seen := by
  rw [isProcessed]
  cases request.metadata.stepId <;> simp

theorem stepIds_append (xs ys : List (ExpertRequest κ α)) :
    stepIds (xs ++ ys) = stepIds xs ++ stepIds ys := List.filterMap_append

theorem stepIds_singleton (request : ExpertRequest κ α) :
    stepIds [request] = request.metadata.stepId.toList := by
  cases hstep : request.metadata.stepId <;> simp [stepIds, hstep]

theorem stepIds_cons (request : ExpertRequest κ α) (requests : List (ExpertRequest κ α)) :
    stepIds (request :: requests) = request.metadata.stepId.toList ++ stepIds requests := by
  rw [← stepIds_singleton, ← stepIds_append]
  rfl

/-- Filtering a longer stream filters its end with the ids that its beginning let through. -/
theorem keepNew_append : ∀ (seen : List Nat) (xs ys : List (ExpertRequest κ α)),
    keepNew seen (xs ++ ys) = keepNew seen xs ++ keepNew (seen ++ stepIds (keepNew seen xs)) ys
  | seen, [], ys => by
    show keepNew seen ys = keepNew (seen ++ []) ys
    rw [List.append_nil]
  | seen, request :: xs, ys => by
    rw [List.cons_append, keepNew, keepNew]
    split
    · exact keepNew_append seen xs ys
    · rw [keepNew_append, stepIds_cons, List.append_assoc, List.cons_append]

/-- One more request is kept, if its step was not there. -/
theorem keepNew_concat (requests : List (ExpertRequest κ α)) (request : ExpertRequest κ α) :
    keepNew [] (requests ++ [request]) =
      if isProcessed (stepIds (keepNew [] requests)) request then keepNew [] requests
      else keepNew [] requests ++ [request] := by
  rw [keepNew_append, List.nil_append, keepNew]
  split
  · exact List.append_nil _
  · rfl

theorem keepNew_sublist : ∀ (seen : List Nat) (requests : List (ExpertRequest κ α)),
    (keepNew seen requests).Sublist requests
  | _, [] => .slnil
  | seen, request :: requests => by
    rw [keepNew]
    split
    · exact (keepNew_sublist seen requests).cons request
    · exact (keepNew_sublist _ requests).cons_cons request

/-- **The ids that are kept** are the ids in the order of their first occurrences. -/
theorem stepIds_keepNew : ∀ (seen : List Nat) (requests : List (ExpertRequest κ α)),
    stepIds (keepNew seen requests) = ((stepIds requests).filter (· ∉ seen)).eraseDups
  | _, [] => rfl
  | seen, request :: requests => by
    rw [keepNew, stepIds_cons]
    cases hstep : request.metadata.stepId with
    | none =>
      rw [if_neg (by simp [isProcessed, hstep]), stepIds_cons, hstep, stepIds_keepNew]
      simp
    | some stepId =>
      by_cases hseen : stepId ∈ seen
      · rw [if_pos (isProcessed_iff.mpr ⟨stepId, hstep, hseen⟩), stepIds_keepNew,
          Option.toList_some, List.singleton_append, List.filter_cons_of_neg (by simpa using hseen)]
      · have hnew : ¬ isProcessed seen request = true := by
          rintro hprocessed
          obtain ⟨stepId', hstep', hmem⟩ := isProcessed_iff.mp hprocessed
          obtain rfl := Option.some.inj (hstep.symm.trans hstep')
          exact hseen hmem
        rw [if_neg hnew, stepIds_cons, hstep, stepIds_keepNew, Option.toList_some,
          List.singleton_append, List.singleton_append,
          List.filter_cons_of_pos (by simpa using hseen), List.eraseDups_cons, List.filter_filter]
        refine congrArg (fun ids => stepId :: List.eraseDups ids) (List.filter_congr ?_)
        intro stepId' _
        by_cases hid : stepId' = stepId <;> simp [hid]

theorem nodup_eraseDups {β : Type} [DecidableEq β] : ∀ xs : List β, xs.eraseDups.Nodup
  | [] => List.nodup_nil
  | x :: xs => by
    rw [List.eraseDups_cons, List.nodup_cons, List.mem_eraseDups]
    refine ⟨fun hmem => ?_, nodup_eraseDups _⟩
    simpa using (List.mem_filter.mp hmem).2
termination_by xs => xs.length
decreasing_by exact Nat.lt_succ_of_le (List.length_filter_le _ xs)

/-- A request that is not kept has an earlier one for its step that is. -/
theorem keepNew_covers (seen : List Nat) (before after : List (ExpertRequest κ α))
    (request : ExpertRequest κ α) :
    request ∈ keepNew seen (before ++ request :: after) ∨
      ∃ stepId, request.metadata.stepId = some stepId ∧
        stepId ∈ seen ++ stepIds (keepNew seen before) := by
  rw [keepNew_append, keepNew]
  by_cases hprocessed : isProcessed (seen ++ stepIds (keepNew seen before)) request = true
  · exact .inr (isProcessed_iff.mp hprocessed)
  · rw [if_neg hprocessed]
    exact .inl (List.mem_append_right _ List.mem_cons_self)

/-- A request that is let through leaves its step id behind, so a later copy is a repeat. -/
theorem deliver_new_processedStepIds [LinearOrder κ] [Zero α] [Add α] {cfg : PoolConfig}
    {stream stream' : InferenceStream κ α cfg} {request : ExpertRequest κ α}
    {response : Option (ExpertResponse κ α)} (hnew : stream.processed request = false)
    (hdeliver : deliver stream request = .ok (response, stream')) :
    stream'.processedStepIds = stream.processedStepIds ++ request.metadata.stepId.toList := by
  rw [deliver_new hnew] at hdeliver
  obtain ⟨result, hserve, hresult⟩ := except_map_eq_ok.mp hdeliver
  obtain ⟨served, last⟩ := result
  obtain ⟨_, _, _, _, -, -, -, hlast⟩ := serveNew_eq_ok.mp hserve
  obtain ⟨-, rfl⟩ := Prod.mk.inj hresult
  show last.processedStepIds = _
  rw [hlast]

/-- **Serving what is kept** gives the responses to all. -/
theorem serveAll_keepNew [LinearOrder κ] [Zero α] [Add α] {cfg : PoolConfig} :
    ∀ (requests : List (ExpertRequest κ α)) (stream : InferenceStream κ α cfg),
      serveAll stream (keepNew stream.processedStepIds requests) = serveAll stream requests
  | [], _ => rfl
  | request :: requests, stream => by
    have hkeep : keepNew stream.processedStepIds (request :: requests) =
        if stream.processed request then keepNew stream.processedStepIds requests
        else request ::
          keepNew (stream.processedStepIds ++ request.metadata.stepId.toList) requests := rfl
    rw [hkeep]
    cases hprocessed : stream.processed request with
    | true =>
      rw [if_pos rfl, serveAll_keepNew requests stream]
      exact (serveAll_skip [] requests hprocessed).symm
    | false =>
      rw [if_neg Bool.false_ne_true]
      cases hdeliver : deliver stream request with
      | error exc =>
        rw [serveAll, serveAll, hdeliver]
        rfl
      | ok result =>
        obtain ⟨response, stream'⟩ := result
        have hids : stream'.processedStepIds
            = stream.processedStepIds ++ request.metadata.stepId.toList :=
          deliver_new_processedStepIds hprocessed hdeliver
        rw [serveAll_of_deliver _ hdeliver, serveAll_of_deliver _ hdeliver, ← hids,
          serveAll_keepNew requests stream']

/-! ## The loop yields the first request for each step -/

/-- The requests that the loop was given while it went on. -/
def withTensors (taken : List (Source × ExpertRequest κ α)) : List (ExpertRequest κ α) :=
  (taken.map (·.2)).filter fun request => !request.tensors.isEmpty

/-- The requests taken from a source. -/
def takenFrom (source : Source) (taken : List (Source × ExpertRequest κ α)) :
    List (ExpertRequest κ α) :=
  (taken.filter fun entry => entry.1 = source).map (·.2)

/-- The result of a task that is done. -/
def WaitTask.result : WaitTask κ α → List (ExpertRequest κ α)
  | .done request => [request]
  | _ => []

/-- The loop goes on as long as the requests have tensors. -/
def Ended (s : StepsState κ α) : Prop :=
  ∃ entries source request, s.taken = entries ++ [(source, request)] ∧
    request.tensors.isEmpty = true ∧ ∀ entry ∈ entries, entry.2.tensors.isEmpty = false

/-- The state after these inputs. -/
structure Merged (firstRequest : ExpertRequest κ α) (past : List (Input κ α))
    (s : StepsState κ α) : Prop where
  yielded : s.yielded = keepNew [] (withTensors s.taken)
  processed : s.processedStepIds = stepIds s.yielded
  direct : takenFrom .direct s.taken ++ s.anextTask.result ++ s.requests
    = firstRequest :: past.filterMap Input.sent
  pushes : takenFrom .push s.taken ++ s.getPushTask.result ++ s.sessionQueue.getD []
    = past.filterMap Input.pushed
  ended : s.finished = true → Ended s
  waits : s.finished = false → (∀ entry ∈ s.taken, entry.2.tensors.isEmpty = false) ∧
    s.anextTask.start = s.anextTask ∧ s.getPushTask.start = s.getPushTask

theorem WaitTask.result_start (task : WaitTask κ α) : task.start.result = task.result := by
  cases task <;> rfl

theorem WaitTask.start_start (task : WaitTask κ α) : task.start.start = task.start := by
  cases task <;> rfl

theorem withTensors_concat (taken : List (Source × ExpertRequest κ α)) (source : Source)
    (request : ExpertRequest κ α) :
    withTensors (taken ++ [(source, request)]) =
      withTensors taken ++ if request.tensors.isEmpty then [] else [request] := by
  rw [withTensors, withTensors, List.map_append, List.filter_append]
  congr 1
  cases hempty : request.tensors.isEmpty <;> simp [hempty]

theorem takenFrom_concat (wanted : Source) (taken : List (Source × ExpertRequest κ α))
    (source : Source) (request : ExpertRequest κ α) :
    takenFrom wanted (taken ++ [(source, request)]) =
      takenFrom wanted taken ++ if source = wanted then [request] else [] := by
  rw [takenFrom, takenFrom, List.filter_append, List.map_append]
  congr 1
  by_cases hsource : source = wanted <;> simp [hsource]

/-- What taking a request leaves alone. -/
theorem take_frame (s : StepsState κ α) (source : Source) (request : ExpertRequest κ α) :
    (s.take source request).taken = s.taken ++ [(source, request)] ∧
      (s.take source request).requests = s.requests ∧
      (s.take source request).sessionQueue = s.sessionQueue ∧
      (s.take source request).anextTask.result = s.anextTask.result ∧
      (s.take source request).getPushTask.result = s.getPushTask.result := by
  rw [StepsState.take, StepsState.turn]
  split
  · exact ⟨rfl, rfl, rfl, rfl, rfl⟩
  · dsimp only
    split <;>
      exact ⟨rfl, rfl, rfl, WaitTask.result_start _, WaitTask.result_start _⟩

/-- A request with tensors is yielded, unless its step was processed. -/
theorem take_of_tensors (s : StepsState κ α) (source : Source) {request : ExpertRequest κ α}
    (htensors : request.tensors.isEmpty = false) :
    (s.take source request).finished = s.finished ∧
      (s.take source request).yielded =
        (if isProcessed s.processedStepIds request then s.yielded else s.yielded ++ [request]) ∧
      (s.take source request).processedStepIds =
        (if isProcessed s.processedStepIds request then s.processedStepIds
          else s.processedStepIds ++ request.metadata.stepId.toList) ∧
      (s.take source request).anextTask = s.anextTask.start ∧
      (s.take source request).getPushTask = s.getPushTask.start := by
  rw [StepsState.take, StepsState.turn, htensors]
  dsimp only
  rw [if_neg Bool.false_ne_true]
  split <;> exact ⟨rfl, rfl, rfl, rfl, rfl⟩

/-- A request without tensors ends the loop. -/
theorem take_of_empty (s : StepsState κ α) (source : Source) {request : ExpertRequest κ α}
    (hempty : request.tensors.isEmpty = true) :
    (s.take source request).finished = true ∧ (s.take source request).yielded = s.yielded ∧
      (s.take source request).processedStepIds = s.processedStepIds := by
  rw [StepsState.take, StepsState.turn, if_pos hempty]
  exact ⟨rfl, rfl, rfl⟩

variable {firstRequest : ExpertRequest κ α} {past : List (Input κ α)} {s s' : StepsState κ α}

/-- **A turn** keeps of the requests those for new steps. -/
theorem merged_take {source : Source} {request : ExpertRequest κ α}
    (hyielded : s.yielded = keepNew [] (withTensors s.taken))
    (hprocessed : s.processedStepIds = stepIds s.yielded)
    (hall : ∀ entry ∈ s.taken, entry.2.tensors.isEmpty = false) (hfinished : s.finished = false)
    (hdirect : takenFrom .direct (s.taken ++ [(source, request)]) ++ s.anextTask.result ++
      s.requests = firstRequest :: past.filterMap Input.sent)
    (hpushes : takenFrom .push (s.taken ++ [(source, request)]) ++ s.getPushTask.result ++
      s.sessionQueue.getD [] = past.filterMap Input.pushed) :
    Merged firstRequest past (s.take source request) := by
  obtain ⟨htaken, hrequests, hqueue, hanext, hget⟩ := take_frame s source request
  have hdirect' := hdirect
  have hpushes' := hpushes
  rw [← hanext, ← hrequests, ← htaken] at hdirect'
  rw [← hget, ← hqueue, ← htaken] at hpushes'
  cases hempty : request.tensors.isEmpty with
  | true =>
    obtain ⟨hend, hyield, hids⟩ := take_of_empty s source hempty
    refine ⟨?_, ?_, hdirect', hpushes', fun _ => ?_, fun hnot => ?_⟩
    · rw [hyield, htaken, withTensors_concat, hempty, hyielded]
      exact congrArg (keepNew []) (List.append_nil _).symm
    · rw [hids, hyield, hprocessed]
    · exact ⟨s.taken, source, request, htaken, hempty, hall⟩
    · exact absurd (hend.symm.trans hnot) (by decide)
  | false =>
    obtain ⟨hgoes, hyield, hids, htask, htask'⟩ := take_of_tensors s source hempty
    refine ⟨?_, ?_, hdirect', hpushes', fun hend => ?_, fun _ => ⟨?_, ?_, ?_⟩⟩
    · rw [hyield, htaken, withTensors_concat, hempty, if_neg Bool.false_ne_true, keepNew_concat,
        ← hyielded, ← hprocessed]
    · rw [hids, hyield]
      split
      · exact hprocessed
      · rw [stepIds_append, stepIds_singleton, hprocessed]
    · exact absurd (hfinished.symm.trans (hgoes.symm.trans hend)) (by decide)
    · intro entry hmem
      rcases List.mem_append.mp (htaken ▸ hmem) with hold | hnew
      · exact hall entry hold
      · rw [List.mem_singleton.mp hnew]
        exact hempty
    · rw [htask]
      exact WaitTask.start_start _
    · rw [htask']
      exact WaitTask.start_start _

theorem start_merged (firstRequest : ExpertRequest κ α) (hasSession : Bool) :
    Merged firstRequest [] (start firstRequest hasSession) := by
  have hnew : start firstRequest hasSession = StepsState.take
      { sessionQueue := if hasSession then some [] else none, taken := [] } .direct firstRequest :=
    rfl
  rw [hnew]
  refine merged_take rfl rfl (fun _ hmem => nomatch hmem) rfl rfl ?_
  cases hasSession <;> rfl

/-- The loop takes the direct request, if there is one, whatever the other task has. -/
theorem step_wake (hstep : step s .wake = some s') :
    s.finished = false ∧
      ((∃ request, s.anextTask = .done request ∧
          s' = ({ s with anextTask := .absent }).take .direct request) ∨
        ∃ request, s.getPushTask = .done request ∧
          s' = ({ s with getPushTask := .absent }).take .push request) := by
  rw [step] at hstep
  split at hstep
  · nomatch hstep
  · rename_i hnot
    refine ⟨Bool.eq_false_iff.mpr hnot, ?_⟩
    split at hstep
    · exact .inl ⟨_, ‹_›, (Option.some.inj hstep).symm⟩
    · exact .inr ⟨_, ‹_›, (Option.some.inj hstep).symm⟩
    · nomatch hstep

theorem filterMap_concat_of_none {ι β : Type} {f : ι → Option β} {x : ι} (xs : List ι)
    (hnone : f x = none) : (xs ++ [x]).filterMap f = xs.filterMap f := by
  rw [List.filterMap_append, List.filterMap_cons_none hnone]
  exact List.append_nil _

/-- **One step.** -/
theorem step_merged {input : Input κ α} (hs : Merged firstRequest past s)
    (hstep : step s input = some s') : Merged firstRequest (past ++ [input]) s' := by
  cases input with
  | sends request =>
    obtain rfl := Option.some.inj hstep
    refine ⟨hs.yielded, hs.processed, ?_, ?_, hs.ended, hs.waits⟩
    · show _ ++ _ ++ (s.requests ++ [request]) = _
      rw [← List.append_assoc, hs.direct, List.filterMap_append]
      rfl
    · rw [List.filterMap_append]
      exact hs.pushes.trans (List.append_nil _).symm
  | pushes request =>
    obtain ⟨queue, hqueue, rfl⟩ := Option.map_eq_some_iff.mp hstep
    refine ⟨hs.yielded, hs.processed, ?_, ?_, hs.ended, hs.waits⟩
    · rw [List.filterMap_append]
      exact hs.direct.trans (List.append_nil _).symm
    · have hpushes := hs.pushes
      rw [hqueue] at hpushes
      show _ ++ _ ++ (queue ++ [request]) = _
      rw [← List.append_assoc, List.filterMap_append, ← hpushes]
      rfl
  | anextDone =>
    have hsent := filterMap_concat_of_none past (f := Input.sent) (x := Input.anextDone) rfl
    have hpushed := filterMap_concat_of_none past (f := Input.pushed) (x := Input.anextDone) rfl
    cases htask : s.anextTask with
    | absent => simp only [step, htask, reduceCtorEq] at hstep
    | done request => simp only [step, htask, reduceCtorEq] at hstep
    | pending =>
      cases hrequests : s.requests with
      | nil => simp only [step, htask, hrequests, reduceCtorEq] at hstep
      | cons request requests =>
        simp only [step, htask, hrequests, Option.some.injEq] at hstep
        obtain rfl := hstep
        refine ⟨hs.yielded, hs.processed, ?_, hs.pushes.trans hpushed.symm, hs.ended,
          fun hgoes => ⟨(hs.waits hgoes).1, rfl, (hs.waits hgoes).2.2⟩⟩
        have hdirect := hs.direct
        rw [htask, hrequests] at hdirect
        show _ ++ [request] ++ requests = _
        rw [hsent, ← hdirect, List.append_assoc, List.append_assoc]
        rfl
  | getPushDone =>
    have hsent := filterMap_concat_of_none past (f := Input.sent) (x := Input.getPushDone) rfl
    have hpushed := filterMap_concat_of_none past (f := Input.pushed) (x := Input.getPushDone) rfl
    cases htask : s.getPushTask with
    | absent => simp only [step, htask, reduceCtorEq] at hstep
    | done request => simp only [step, htask, reduceCtorEq] at hstep
    | pending =>
      match hqueue : s.sessionQueue with
      | none => simp only [step, htask, hqueue, reduceCtorEq] at hstep
      | some [] => simp only [step, htask, hqueue, reduceCtorEq] at hstep
      | some (request :: queue) =>
        simp only [step, htask, hqueue, Option.some.injEq] at hstep
        obtain rfl := hstep
        refine ⟨hs.yielded, hs.processed, hs.direct.trans (hsent ▸ rfl), ?_, hs.ended,
          fun hgoes => ⟨(hs.waits hgoes).1, (hs.waits hgoes).2.1, rfl⟩⟩
        have hpushes := hs.pushes
        rw [htask, hqueue] at hpushes
        show _ ++ [request] ++ queue = _
        rw [hpushed, ← hpushes, List.append_assoc, List.append_assoc]
        rfl
  | wake =>
    have hsent := filterMap_concat_of_none past (f := Input.sent) (x := Input.wake) rfl
    have hpushed := filterMap_concat_of_none past (f := Input.pushed) (x := Input.wake) rfl
    obtain ⟨hgoes, ⟨request, htask, rfl⟩ | ⟨request, htask, rfl⟩⟩ := step_wake hstep
    · have hdirect := hs.direct
      rw [htask] at hdirect
      refine merged_take hs.yielded hs.processed (hs.waits hgoes).1 hgoes ?_ ?_
      · rw [takenFrom_concat, if_pos rfl, hsent, ← hdirect]
        exact congrArg (· ++ s.requests) (List.append_nil _)
      · rw [takenFrom_concat, if_neg (by decide), List.append_nil, hpushed]
        exact hs.pushes
    · have hpushes := hs.pushes
      rw [htask] at hpushes
      refine merged_take hs.yielded hs.processed (hs.waits hgoes).1 hgoes ?_ ?_
      · rw [takenFrom_concat, if_neg (by decide), List.append_nil, hsent]
        exact hs.direct
      · rw [takenFrom_concat, if_pos rfl, hpushed, ← hpushes]
        exact congrArg (· ++ s.sessionQueue.getD []) (List.append_nil _)

/-- **Every run.** -/
theorem run_merged {hasSession : Bool} {inputs : List (Input κ α)}
    (hrun : exec step (start firstRequest hasSession) inputs = some s) :
    Merged firstRequest inputs s :=
  exec_history (P := fun past s => Merged firstRequest past s)
    (fun _ _ _ _ hs hstep => step_merged hs hstep) (start_merged firstRequest hasSession) hrun

/-! ## At rest -/

/-- The steps that need no further request. -/
def Input.isInternal : Input κ α → Bool
  | .sends _ | .pushes _ => false
  | .anextDone | .getPushDone | .wake => true

/-- The requests that have arrived and are not taken count twice until a task has them. -/
def StepsState.waiting (s : StepsState κ α) : Nat :=
  2 * (s.requests.length + (s.sessionQueue.getD []).length) +
    (s.anextTask.result.length + s.getPushTask.result.length)

/-- Every internal step uses up one unit of waiting work, so the loop comes to rest. -/
theorem step_waiting {input : Input κ α} (hinternal : input.isInternal = true)
    (hstep : step s input = some s') : s'.waiting + 1 = s.waiting := by
  cases input with
  | sends request => nomatch hinternal
  | pushes request => nomatch hinternal
  | anextDone =>
    rw [step] at hstep
    split at hstep
    · rename_i htask hrequests
      obtain rfl := Option.some.inj hstep
      simp only [StepsState.waiting, htask, hrequests, WaitTask.result, List.length_cons,
        List.length_nil]
      omega
    · nomatch hstep
  | getPushDone =>
    rw [step] at hstep
    split at hstep
    · rename_i htask hqueue
      obtain rfl := Option.some.inj hstep
      simp only [StepsState.waiting, htask, hqueue, WaitTask.result, Option.getD_some,
        List.length_cons, List.length_nil]
      omega
    · nomatch hstep
  | wake =>
    obtain ⟨-, ⟨request, htask, rfl⟩ | ⟨request, htask, rfl⟩⟩ := step_wake hstep
    · obtain ⟨-, hrequests, hqueue, hanext, hget⟩ :=
        take_frame { s with anextTask := .absent } .direct request
      rw [StepsState.waiting, hrequests, hqueue, hanext, hget, StepsState.waiting, htask]
      simp only [WaitTask.result, List.length_cons, List.length_nil]
      omega
    · obtain ⟨-, hrequests, hqueue, hanext, hget⟩ :=
        take_frame { s with getPushTask := .absent } .push request
      rw [StepsState.waiting, hrequests, hqueue, hanext, hget, StepsState.waiting, htask]
      simp only [WaitTask.result, List.length_cons, List.length_nil]
      omega

/-- **The loop comes to rest** when nothing more arrives. -/
theorem internal_length_le : ∀ {inputs : List (Input κ α)} {s s' : StepsState κ α},
    (∀ input ∈ inputs, input.isInternal = true) → exec step s inputs = some s' →
    inputs.length ≤ s.waiting
  | [], _, _, _, _ => Nat.zero_le _
  | input :: inputs, s, s', hinternal, hrun => by
    obtain ⟨s₁, hstep, hrest⟩ := exec_cons.mp hrun
    have hless := step_waiting (hinternal input List.mem_cons_self) hstep
    have hle := internal_length_le (fun i hi => hinternal i (List.mem_cons_of_mem input hi)) hrest
    rw [List.length_cons]
    omega

/-- A loop that has not ended has taken all that the client has sent. -/
theorem Merged.direct_of_rest (hs : Merged firstRequest past s) (hrest : AtRest s)
    (hgoes : s.finished = false) :
    takenFrom .direct s.taken = firstRequest :: past.filterMap Input.sent := by
  obtain ⟨hanext, -, hwake⟩ := hrest
  obtain ⟨-, hstart, -⟩ := hs.waits hgoes
  have hdirect := hs.direct
  cases htask : s.anextTask with
  | absent =>
    rw [htask] at hstart
    nomatch hstart
  | done request =>
    simp only [step, hgoes, Bool.false_eq_true, if_false, htask, Option.isNone_some] at hwake
  | pending =>
    cases hrequests : s.requests with
    | nil =>
      rw [htask, hrequests, List.append_nil] at hdirect
      exact (List.append_nil _).symm.trans hdirect
    | cons request requests =>
      simp only [step, htask, hrequests, Option.isNone_some, Bool.false_eq_true] at hanext

/-- Two ways to cut a list at its first element of a kind. -/
theorem cut_unique {β : Type} {p : β → Bool} : ∀ {xs ys xs' ys' : List β} {x y : β},
    xs ++ x :: xs' = ys ++ y :: ys' → p x = true → p y = true → (∀ z ∈ xs, p z = false) →
    (∀ z ∈ ys, p z = false) → xs = ys
  | [], [], _, _, _, _, _, _, _, _, _ => rfl
  | [], z :: ys, _, _, _, _, heq, hx, _, _, hys => by
    obtain ⟨rfl, -⟩ := List.cons.inj heq
    exact absurd (hx.symm.trans (hys _ List.mem_cons_self)) (by decide)
  | z :: xs, [], _, _, _, _, heq, _, hy, hxs, _ => by
    obtain ⟨rfl, -⟩ := List.cons.inj heq
    exact absurd (hy.symm.trans (hxs _ List.mem_cons_self)) (by decide)
  | z :: xs, z' :: ys, _, _, _, _, heq, hx, hy, hxs, hys => by
    obtain ⟨rfl, hrest⟩ := List.cons.inj heq
    rw [cut_unique hrest hx hy (fun w hw => hxs w (List.mem_cons_of_mem z hw))
      fun w hw => hys w (List.mem_cons_of_mem z hw)]

/-- Every step that the client asks for before its empty request is yielded. -/
def YieldsDirect (firstRequest : ExpertRequest κ α) (inputs : List (Input κ α))
    (s : StepsState κ α) : Prop :=
  ∀ before last after, firstRequest :: inputs.filterMap Input.sent = before ++ last :: after →
    last.tensors.isEmpty = true → (∀ request ∈ before, request.tensors.isEmpty = false) →
    ∀ stepId ∈ stepIds before, stepId ∈ stepIds s.yielded

/-- The loop was ended by a push. -/
def EndedByPush (s : StepsState κ α) : Prop :=
  ∃ entries request, s.taken = entries ++ [(Source.push, request)] ∧
    request.tensors.isEmpty = true

theorem mem_withTensors {request : ExpertRequest κ α} {taken : List (Source × ExpertRequest κ α)} :
    request ∈ withTensors taken ↔ (∃ source, (source, request) ∈ taken) ∧
      request.tensors.isEmpty = false := by
  rw [withTensors, List.mem_filter, List.mem_map, Bool.not_eq_true']
  refine and_congr_left fun _ => ⟨?_, fun ⟨source, hmem⟩ => ⟨_, hmem, rfl⟩⟩
  rintro ⟨⟨source, request'⟩, hmem, rfl⟩
  exact ⟨source, hmem⟩

/-- The step of a request that was taken is yielded. -/
theorem Merged.stepId_yielded (hs : Merged firstRequest past s) {request : ExpertRequest κ α}
    (hmem : request ∈ withTensors s.taken) {stepId : Nat}
    (hstep : request.metadata.stepId = some stepId) : stepId ∈ stepIds s.yielded := by
  rw [hs.yielded, stepIds_keepNew, List.mem_eraseDups, List.mem_filter]
  exact ⟨List.mem_filterMap.mpr ⟨request, hmem, hstep⟩, by simp⟩

/-- At rest nothing that came straight from the client is left behind, unless a push ended the
    stream. -/
theorem Merged.yieldsDirect (hs : Merged firstRequest past s) (hrest : AtRest s) :
    EndedByPush s ∨ YieldsDirect firstRequest past s := by
  cases hgoes : s.finished with
  | false =>
    -- the empty request would have been taken
    refine .inr fun before last after hsplit hempty _ => ?_
    have hlast : last ∈ takenFrom .direct s.taken := by
      rw [hs.direct_of_rest hrest hgoes, hsplit]
      exact List.mem_append_right _ List.mem_cons_self
    obtain ⟨entry, hentry, rfl⟩ := List.mem_map.mp hlast
    have htensors := (hs.waits hgoes).1 entry (List.mem_filter.mp hentry).1
    exact absurd (hempty.symm.trans htensors) (by decide)
  | true =>
    obtain ⟨entries, source, request, htaken, hlast, hall⟩ := hs.ended hgoes
    cases source with
    | push => exact .inl ⟨entries, request, htaken, hlast⟩
    | direct =>
      refine .inr fun before last after hsplit hempty hbefore stepId hstep => ?_
      have hdirect := hs.direct
      rw [htaken, takenFrom_concat, if_pos rfl, hsplit, List.append_assoc, List.append_assoc]
        at hdirect
      have hentries : takenFrom .direct entries = before := by
        refine cut_unique hdirect hlast hempty (fun r hr => ?_) hbefore
        obtain ⟨entry, hentry, rfl⟩ := List.mem_map.mp hr
        exact hall entry (List.mem_filter.mp hentry).1
      obtain ⟨r, hr, hid⟩ := List.mem_filterMap.mp hstep
      rw [← hentries] at hr
      obtain ⟨⟨source, r'⟩, hentry, rfl⟩ := List.mem_map.mp hr
      have hmem := (List.mem_filter.mp hentry).1
      refine hs.stepId_yielded (mem_withTensors.mpr ⟨⟨source, ?_⟩, hall _ hmem⟩) hid
      rw [htaken]
      exact List.mem_append_left _ hmem

/-- A request that is taken is yielded, or an earlier one for its step was. -/
theorem Merged.yielded_or_earlier (hs : Merged firstRequest past s)
    {before after : List (Source × ExpertRequest κ α)} {entry : Source × ExpertRequest κ α}
    (hsplit : s.taken = before ++ entry :: after) (htensors : entry.2.tensors.isEmpty = false) :
    entry.2 ∈ s.yielded ∨ ∃ earlier ∈ before, earlier.2 ∈ s.yielded ∧
      ∃ stepId, earlier.2.metadata.stepId = some stepId ∧
        entry.2.metadata.stepId = some stepId := by
  have hwith : withTensors s.taken = withTensors before ++ entry.2 :: withTensors after := by
    rw [hsplit, withTensors, List.map_append, List.filter_append, List.map_cons,
      List.filter_cons_of_pos (by simp [htensors])]
    rfl
  rw [hs.yielded, hwith]
  rcases keepNew_covers [] (withTensors before) (withTensors after) entry.2 with
    hkept | ⟨stepId, hstep, hearlier⟩
  · exact .inl hkept
  · right
    rw [List.nil_append] at hearlier
    obtain ⟨request, hkept, hid⟩ := List.mem_filterMap.mp hearlier
    obtain ⟨⟨source, hmem⟩, -⟩ := mem_withTensors.mp ((keepNew_sublist _ _).subset hkept)
    refine ⟨(source, request), hmem, ?_, stepId, hid, hstep⟩
    rw [keepNew_append]
    exact List.mem_append_left _ hkept

/-- **Each step is yielded once**, in every run: the ids that are yielded are those of the requests
    with tensors that were taken, in the order in which they were taken first; each request that was
    taken is yielded, or an earlier one for its step was; and when the loop comes to rest, as it
    does, each step that the client asks for before its empty request is yielded, unless a
    pushed request without tensors has ended the loop. -/
theorem inference_steps_once (firstRequest : ExpertRequest κ α) (hasSession : Bool)
    (inputs : List (Input κ α)) (s : StepsState κ α)
    (hrun : exec step (start firstRequest hasSession) inputs = some s) :
    (stepIds s.yielded).Nodup ∧
    stepIds s.yielded = (stepIds (withTensors s.taken)).eraseDups ∧
    (∀ before entry after, s.taken = before ++ entry :: after → entry.2.tensors.isEmpty = false →
      entry.2 ∈ s.yielded ∨ ∃ earlier ∈ before, earlier.2 ∈ s.yielded ∧
        ∃ stepId, earlier.2.metadata.stepId = some stepId ∧
          entry.2.metadata.stepId = some stepId) ∧
    (AtRest s → EndedByPush s ∨ YieldsDirect firstRequest inputs s) ∧
    ∀ later s', (∀ input ∈ later, input.isInternal = true) → exec step s later = some s' →
      later.length ≤ s.waiting := by
  have hs := run_merged hrun
  have hids : stepIds s.yielded = (stepIds (withTensors s.taken)).eraseDups := by
    rw [hs.yielded, stepIds_keepNew, List.filter_eq_self.mpr fun _ _ => by simp]
  refine ⟨?_, hids, fun before entry after => hs.yielded_or_earlier, hs.yieldsDirect,
    fun later s' => internal_length_le⟩
  rw [hids]
  exact nodup_eraseDups _

/-- A step with one token. -/
def tokenStep (stepId : Nat) : ExpertRequest String Int where
  start := 0
  stop := 1
  tensors := [.floating (Tensor.zeros [1, 1, 1])]
  metadata := ⟨7, some stepId, [], none, none, [], false, none⟩

/-- A request that ends a stream. -/
def emptyRequest (pushed : Bool) : ExpertRequest String Int where
  start := 0
  stop := 1
  tensors := []
  metadata := ⟨7, none, [], none, none, [], pushed, none⟩

/-- Step 1 is pushed before the client asks for it; both tasks are done when the loop goes on. -/
def earlyPush : List (Input String Int) :=
  [.pushes (tokenStep 1), .sends (tokenStep 1), .getPushDone, .anextDone, .wake, .wake,
    .sends (emptyRequest false), .anextDone, .wake]

/-- The state after these inputs. -/
def after (inputs : List (Input String Int)) : StepsState String Int :=
  (exec step (start (tokenStep 0) true) inputs).getD (start (tokenStep 0) true)

theorem exec_after {inputs : List (Input String Int)}
    (hruns : (exec step (start (tokenStep 0) true) inputs).isSome = true) :
    exec step (start (tokenStep 0) true) inputs = some (after inputs) := by
  obtain ⟨s, hs⟩ := Option.isSome_iff_exists.mp hruns
  rw [after, hs]
  rfl

theorem inference_steps_once_early_push :
    (stepIds (after earlyPush).yielded).Nodup ∧
    stepIds (after earlyPush).yielded = (stepIds (withTensors (after earlyPush).taken)).eraseDups ∧
    (∀ before entry later, (after earlyPush).taken = before ++ entry :: later →
      entry.2.tensors.isEmpty = false →
      entry.2 ∈ (after earlyPush).yielded ∨ ∃ earlier ∈ before,
        earlier.2 ∈ (after earlyPush).yielded ∧ ∃ stepId,
          earlier.2.metadata.stepId = some stepId ∧ entry.2.metadata.stepId = some stepId) ∧
    (AtRest (after earlyPush) → EndedByPush (after earlyPush) ∨
      YieldsDirect (tokenStep 0) earlyPush (after earlyPush)) ∧
    ∀ later s', (∀ input ∈ later, input.isInternal = true) →
      exec step (after earlyPush) later = some s' → later.length ≤ (after earlyPush).waiting :=
  inference_steps_once (tokenStep 0) true earlyPush _ (exec_after (by decide +kernel))

example : stepIds (after earlyPush).yielded = [0, 1] ∧ AtRest (after earlyPush) ∧
    (after earlyPush).taken.length = 4 := by decide +kernel

/-- A push without tensors comes before the client asks for step 1. -/
def emptyPush : List (Input String Int) :=
  [.pushes (emptyRequest true), .getPushDone, .wake, .sends (tokenStep 1),
    .sends (emptyRequest false), .anextDone]

/-- Step 1 is not yielded: the loop has ended. -/
theorem empty_push_ends :
    exec step (start (tokenStep 0) true) emptyPush = some (after emptyPush) ∧
    AtRest (after emptyPush) ∧ ¬ YieldsDirect (tokenStep 0) emptyPush (after emptyPush) := by
  refine ⟨exec_after (by decide +kernel), by decide +kernel, fun hyields => ?_⟩
  have hone : 1 ∈ stepIds (after emptyPush).yielded := by
    refine hyields [tokenStep 0, tokenStep 1] (emptyRequest false) [] rfl rfl ?_ 1 (by decide)
    intro request hmem
    rcases List.mem_pair.mp hmem with rfl | rfl <;> rfl
  exact absurd hone (by decide +kernel)

end Drift.InferenceSteps
