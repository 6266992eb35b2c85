/-
  `_managed_session`, `_put_into_session_queue`, `_get_from_session_queue`, `_listen_to_event_queue`
  and `rpc_push` of `server/handler.py`: how a push finds the handler process that owns its session.

  Every handler has a table of the sessions it knows and their owners.  It is told of the sessions
  of the others through its event queue, into which all the others put, and which keeps the order
  of what one of them has put: the table lags behind.  A push that meets a handler that is not the
  owner goes to the owner through the same queues.

  The invariant (`Routed`) is about a table and the events on their way to it: what the table will
  say of a session, once the events that the owner has sent are delivered, is whether the session
  is open now (`Routed.views`).  Since an owner sends nothing to itself, its own table is always
  right, so a session that its table knows has a queue, and a session that ends is in both.
-/
import Drift.Lib.Run
import Drift.Lib.Effect
import Drift.Lib.ListPerm
import Drift.Wire
import Mathlib.Data.List.AList

namespace Drift.SessionRouting

variable {R : Type}

/-! ## The handlers -/

/-- What a handler may find in its event queue. -/
inductive Event (R : Type) where
  | newSession (sessionId handlerIndex : Nat)
  | endSession (sessionId handlerIndex : Nat)
  | push (sessionId : Nat) (request : R)
  | shutdown

/-- An event in the queue of the receiver.  The parent process has no index. -/
structure Message (R : Type) where
  sender : Option Nat
  receiver : Nat
  event : Event R

/-- The tables of a handler.  `closed` has the queues that were popped: the get task of a session
    may still wait on one. -/
structure HandlerState (R : Type) where
  sessionQueues : AList fun _ : Nat => List R := ∅
  sessionHandlers : AList fun _ : Nat => Nat := ∅
  closed : List (List (Option R)) := []
  listening : Bool := true

/-- A request that was put into a session queue. -/
structure Put (R : Type) where
  handlerIndex : Nat
  sessionId : Nat
  request : R

/-- All handlers of a server, with the events on their way.  `live` has the sessions whose
    `with` block is being executed, and by which handler. -/
structure System (R : Type) where
  handlers : Nat → HandlerState R := fun _ => {}
  inFlight : List (Message R) := []
  live : List (Nat × Nat) := []
  puts : List (Put R) := []

abbrev SystemM (R : Type) := EStateM PyExc (System R)

def System.setHandler (h : Nat) (state : HandlerState R) (s : System R) : System R :=
  { s with handlers := Function.update s.handlers h state }

/-- `put_nowait` of an event. -/
def System.send (message : Message R) (s : System R) : System R :=
  { s with inFlight := s.inFlight ++ [message] }

/-- The loop over the event queues of the other handlers. -/
def System.broadcast (numHandlers h : Nat) (event : Event R) (s : System R) : System R :=
  { s with inFlight := s.inFlight ++
      ((List.range numHandlers).filter (· ≠ h)).map fun otherIndex => ⟨some h, otherIndex, event⟩ }

/-- `self._session_queues[session_id].put_nowait(request)`. -/
def putIntoOwnQueue (h sessionId : Nat) (request : R) : SystemM R Unit := do
  let handler := (← get).handlers h
  match handler.sessionQueues.lookup sessionId with
  | none => throw .keyError
  | some queue => modify fun s =>
      { s.setHandler h { handler with
          sessionQueues := handler.sessionQueues.insert sessionId (queue ++ [request]) } with
        puts := s.puts ++ [⟨h, sessionId, request⟩] }

/-- `_managed_session`, up to the `yield`. -/
def enterSession (numHandlers h sessionId : Nat) : SystemM R Unit := do
  let handler := (← get).handlers h
  if sessionId ∈ handler.sessionQueues then
    throw (.assertionError s!"session id {sessionId} is not unique")
  else modify fun s =>
    let s := s.setHandler h { handler with
      sessionQueues := handler.sessionQueues.insert sessionId []
      sessionHandlers := handler.sessionHandlers.insert sessionId h }
    { s.broadcast numHandlers h (.newSession sessionId h) with
      live := s.live ++ [(sessionId, h)] }

/-- The `finally` of `_managed_session`, which does not depend on how the block is left. -/
def exitSession (numHandlers h sessionId : Nat) : SystemM R Unit := do
  let handler := (← get).handlers h
  modify fun s => { s with live := s.live.filter (· ≠ (sessionId, h)) }
  match handler.sessionQueues.lookup sessionId with
  | none => throw .keyError
  | some queue => do
    let handler := { handler with
      sessionQueues := handler.sessionQueues.erase sessionId
      closed := handler.closed ++ [queue.map some ++ [none]] }
    modify (System.setHandler h handler)
    if sessionId ∈ handler.sessionHandlers then
      modify fun s =>
        (s.setHandler h { handler with
          sessionHandlers := handler.sessionHandlers.erase sessionId }).broadcast
            numHandlers h (.endSession sessionId h)
    else throw .keyError

/-- `_put_into_session_queue`. -/
def putIntoSessionQueue (numHandlers h sessionId : Nat) (request : R) : SystemM R Unit := do
  match ((← get).handlers h).sessionHandlers.lookup sessionId with
  | none => pure ()
  | some handlerIndex =>
    if handlerIndex = h then putIntoOwnQueue h sessionId request
    else if handlerIndex < numHandlers then
      modify (System.send ⟨some h, handlerIndex, .push sessionId request⟩)
    else throw .indexError

/-- `_get_from_session_queue`; without a request in the queue it has to wait. -/
def getFromSessionQueue (h sessionId : Nat) : SystemM R (Option R) := do
  let handler := (← get).handlers h
  match handler.sessionHandlers.lookup sessionId with
  | none => throw .keyError
  | some owner =>
    if owner ≠ h then throw (.assertionError "session belongs to another handler")
    else match handler.sessionQueues.lookup sessionId with
      | none => throw .keyError
      | some [] => pure none
      | some (request :: queue) => do
        modify (System.setHandler h { handler with
          sessionQueues := handler.sessionQueues.insert sessionId queue })
        pure (some request)

/-- One turn of `_listen_to_event_queue`. -/
def listen (h : Nat) : Event R → SystemM R Unit
  | .shutdown => modify fun s => s.setHandler h { s.handlers h with listening := false }
  | .newSession sessionId payload => modify fun s => s.setHandler h { s.handlers h with
      sessionHandlers := (s.handlers h).sessionHandlers.insert sessionId payload }
  | .endSession sessionId _ => modify fun s => s.setHandler h { s.handlers h with
      sessionHandlers := (s.handlers h).sessionHandlers.erase sessionId }
  | .push sessionId payload => do
    if sessionId ∈ ((← get).handlers h).sessionQueues then putIntoOwnQueue h sessionId payload

/-- `rpc_push`; `sessionOf` is what it does before: `_check_uids` and reading the metadata. -/
def rpcPush (sessionOf : R → Except PyExc Nat) (numHandlers h : Nat) (request : R) :
    SystemM R Unit := do
  let sessionId ← liftExcept (sessionOf request)
  putIntoSessionQueue numHandlers h sessionId request

/-! ## Runs -/

/-- What may happen next. -/
inductive Input (R : Type) where
  | openSession (h sessionId : Nat)
  | closeSession (h sessionId : Nat)
  | rpcPush (h : Nat) (request : R)
  | deliver (sender : Option Nat) (receiver : Nat)
  | get (h sessionId : Nat)
  | shutdown (h : Nat)

/-- From this sender to this receiver. -/
def Message.isBetween (sender : Option Nat) (receiver : Nat) (message : Message R) : Bool :=
  message.sender = sender ∧ message.receiver = receiver

/-- What happens on an input, if it can happen. -/
def perform (sessionOf : R → Except PyExc Nat) (numHandlers : Nat) (s : System R) :
    Input R → Option (EStateM.Result PyExc (System R) Unit)
  | .openSession h sessionId =>
    if h < numHandlers then some (enterSession numHandlers h sessionId s) else none
  | .closeSession h sessionId =>
    if (sessionId, h) ∈ s.live then some (exitSession numHandlers h sessionId s) else none
  | .rpcPush h request =>
    if h < numHandlers then some (rpcPush sessionOf numHandlers h request s) else none
  | .deliver sender receiver =>
    if (s.handlers receiver).listening then
      (s.inFlight.find? (·.isBetween sender receiver)).map fun message =>
        listen receiver message.event
          { s with inFlight := s.inFlight.eraseP (·.isBetween sender receiver) }
    else none
  | .get h sessionId =>
    if (sessionId, h) ∈ s.live then
      some ((getFromSessionQueue h sessionId >>= fun _ => pure ()) s)
    else none
  | .shutdown h => some (.ok () (s.send ⟨none, h, .shutdown⟩))

/-- The state after that, whether it returns or raises. -/
def step (sessionOf : R → Except PyExc Nat) (numHandlers : Nat) (s : System R) (input : Input R) :
    Option (System R) :=
  (perform sessionOf numHandlers s input).map finalState

/-- The session that an input opens. -/
def Input.opened : Input R → Option Nat
  | .openSession _ sessionId => some sessionId
  | _ => none

/-- The request that an input calls `rpc_push` with. -/
def Input.pushed : Input R → Option R
  | .rpcPush _ request => some request
  | _ => none

def openedSessions (inputs : List (Input R)) : List Nat := inputs.filterMap Input.opened

def pushedRequests (inputs : List (Input R)) : List R := inputs.filterMap Input.pushed

/-! ## What is on its way -/

/-- The events that this sender has put and this receiver has not taken. -/
def System.eventsFrom (s : System R) (sender : Option Nat) (receiver : Nat) : List (Event R) :=
  (s.inFlight.filter (·.isBetween sender receiver)).map (·.event)

/-- What an event makes of the entry of a session. -/
def Event.apply (sessionId : Nat) (entry : Option Nat) : Event R → Option Nat
  | .newSession id handlerIndex => if id = sessionId then some handlerIndex else entry
  | .endSession id _ => if id = sessionId then none else entry
  | .push _ _ => entry
  | .shutdown => entry

/-- The entry of a session in the table of a handler. -/
def System.entry (s : System R) (h sessionId : Nat) : Option Nat :=
  (s.handlers h).sessionHandlers.lookup sessionId

/-- The entry of a session once all that this sender has put is delivered. -/
def System.view (s : System R) (sender h sessionId : Nat) : Option Nat :=
  (s.eventsFrom (some sender) h).foldl (Event.apply sessionId) (s.entry h sessionId)

/-- The request of an event. -/
def Event.pushed : Event R → Option R
  | .push _ request => some request
  | _ => none

/-- The requests that were put or will be when they are delivered. -/
def System.placed (s : System R) : List R :=
  s.puts.map (·.request) ++ s.inFlight.filterMap (·.event.pushed)

/-- An event is about a session of its sender, unless it is a push, which goes to the owner. -/
def Message.WellSent (sessionOf : R → Except PyExc Nat) (past : List (Input R))
    (message : Message R) : Prop :=
  match message.event with
  | .newSession id owner | .endSession id owner =>
    message.sender = some owner ∧ message.receiver ≠ owner ∧ Input.openSession owner id ∈ past
  | .push id request =>
    sessionOf request = .ok id ∧ Input.openSession message.receiver id ∈ past
  | .shutdown => message.sender = none

/-- A put is into the queue of the session that the request names, at the handler that has opened
    it. -/
def Put.WellPut (sessionOf : R → Except PyExc Nat) (past : List (Input R)) (put : Put R) : Prop :=
  sessionOf put.request = .ok put.sessionId ∧
    Input.openSession put.handlerIndex put.sessionId ∈ past

/-- The handlers after these inputs. -/
structure Routed (sessionOf : R → Except PyExc Nat) (numHandlers : Nat) (past : List (Input R))
    (s : System R) : Prop where
  owners : ∀ h id, Input.openSession h id ∈ past → h < numHandlers
  live : ∀ h id, (id, h) ∈ s.live → Input.openSession h id ∈ past
  queues : ∀ h id, id ∈ (s.handlers h).sessionQueues ↔ (id, h) ∈ s.live
  entries : ∀ h id owner, s.entry h id = some owner → Input.openSession owner id ∈ past
  messages : ∀ message ∈ s.inFlight, message.WellSent sessionOf past
  views : ∀ h < numHandlers, ∀ owner id, Input.openSession owner id ∈ past →
    s.view owner h id = if (id, owner) ∈ s.live then some owner else none
  puts : ∀ put ∈ s.puts, put.WellPut sessionOf past
  placed : s.placed.Subperm (pushedRequests past)

/-! ## Tables and events -/

section Views

variable {s s' : System R} {h id owner : Nat}

/-- A session starts or ends. -/
def Event.concerns (id : Nat) : Event R → Bool
  | .newSession id' _ | .endSession id' _ => id' = id
  | .push _ _ | .shutdown => false

theorem Event.apply_of_not_concerns {event : Event R} (hnot : event.concerns id = false)
    (entry : Option Nat) : Event.apply id entry event = entry := by
  cases event with
  | newSession id' payload => exact if_neg (of_decide_eq_false hnot)
  | endSession id' payload => exact if_neg (of_decide_eq_false hnot)
  | push id' request => rfl
  | shutdown => rfl

/-- News about other sessions leave a session's entry alone. -/
theorem foldl_apply_of_not_concerns : ∀ {events : List (Event R)} (entry : Option Nat),
    (∀ event ∈ events, event.concerns id = false) → events.foldl (Event.apply id) entry = entry
  | [], _, _ => rfl
  | event :: events, entry, hnot => by
    rw [List.foldl_cons, Event.apply_of_not_concerns (hnot event List.mem_cons_self)]
    exact foldl_apply_of_not_concerns entry fun e he => hnot e (List.mem_cons_of_mem event he)

/-- The events on their way to a handler from one sender are its messages in flight. -/
theorem mem_eventsFrom {sender : Option Nat} {event : Event R} :
    event ∈ s.eventsFrom sender h ↔ ⟨sender, h, event⟩ ∈ s.inFlight := by
  rw [System.eventsFrom, List.mem_map]
  constructor
  · rintro ⟨⟨sender', receiver', event'⟩, hfiltered, rfl⟩
    obtain ⟨hmem, hbetween⟩ := List.mem_filter.mp hfiltered
    obtain ⟨rfl, rfl⟩ : sender' = sender ∧ receiver' = h := of_decide_eq_true hbetween
    exact hmem
  · intro hmem
    exact ⟨_, List.mem_filter.mpr ⟨hmem, decide_eq_true ⟨rfl, rfl⟩⟩, rfl⟩

/-- The receivers of a broadcast among which only one counts. -/
theorem filter_range_eq (n : Nat) {j : Nat} :
    (List.range n).filter (fun x => decide (x = j)) = if j < n then [j] else [] := by
  rw [List.filter_eq]
  split
  · rename_i hlt
    rw [List.count_eq_one_of_mem List.nodup_range (List.mem_range.mpr hlt)]
    rfl
  · rename_i hge
    rw [List.count_eq_zero.mpr fun hmem => hge (List.mem_range.mp hmem)]
    rfl

/-- Every other handler gets the event from this one. -/
theorem eventsFrom_broadcast (numHandlers : Nat) (event : Event R) (sender : Option Nat)
    (receiver : Nat) :
    (s.broadcast numHandlers h event).eventsFrom sender receiver = s.eventsFrom sender receiver ++
      if sender = some h ∧ receiver ≠ h ∧ receiver < numHandlers then [event] else [] := by
  have hto : (((List.range numHandlers).filter (· ≠ h)).filter fun otherIndex =>
      (⟨some h, otherIndex, event⟩ : Message R).isBetween sender receiver)
      = if sender = some h ∧ receiver ≠ h ∧ receiver < numHandlers then [receiver] else [] := by
    rw [List.filter_filter]
    by_cases hother : sender = some h ∧ receiver ≠ h
    · obtain ⟨rfl, hne⟩ := hother
      have hpred : ∀ otherIndex,
          ((⟨some h, otherIndex, event⟩ : Message R).isBetween (some h) receiver
            && decide (otherIndex ≠ h)) = decide (otherIndex = receiver) := by
        intro otherIndex
        by_cases heq : otherIndex = receiver <;> simp [Message.isBetween, heq, hne]
      rw [List.filter_congr fun otherIndex _ => hpred otherIndex, filter_range_eq]
      simp [hne]
    · rw [if_neg fun hall => hother ⟨hall.1, hall.2.1⟩, List.filter_eq_nil_iff]
      intro otherIndex _ hboth
      rw [Bool.and_eq_true] at hboth
      obtain ⟨hsender, rfl⟩ := of_decide_eq_true hboth.1
      exact hother ⟨hsender.symm, of_decide_eq_true hboth.2⟩
  rw [System.eventsFrom, System.broadcast, List.filter_append, List.map_append, List.filter_map,
    List.map_map]
  congr 1
  show (((List.range numHandlers).filter (· ≠ h)).filter fun otherIndex =>
      (⟨some h, otherIndex, event⟩ : Message R).isBetween sender receiver).map _ = _
  rw [hto]
  split <;> rfl

/-- A handler that changes its own entry and tells the others: where the event has arrived or will,
    the entry is the new one. -/
theorem view_announce {numHandlers : Nat} {event : Event R} {entry : Option Nat}
    (hconcerns : ∀ id', id' ≠ id → event.concerns id' = false)
    (happly : ∀ old, Event.apply id old event = entry)
    (hflight : s'.inFlight = (s.broadcast numHandlers h event).inFlight)
    (hentry : ∀ j id', s'.entry j id' = if j = h ∧ id' = id then entry else s.entry j id')
    (hown : ∀ event' ∈ s.eventsFrom (some h) h, event'.concerns id = false) {j : Nat}
    (hj : j < numHandlers) :
    s'.view h j id = entry ∧ ∀ owner id', id' ≠ id → s'.view owner j id' = s.view owner j id' := by
  have hfrom : ∀ sender, s'.eventsFrom sender j = s.eventsFrom sender j ++
      if sender = some h ∧ j ≠ h ∧ j < numHandlers then [event] else [] := by
    intro sender
    rw [← eventsFrom_broadcast, System.eventsFrom, System.eventsFrom, hflight]
  constructor
  · rw [System.view, hfrom, hentry]
    by_cases hne : j = h
    · subst hne
      have hself : ¬ (some j = some j ∧ j ≠ j ∧ j < numHandlers) := fun hall => hall.2.1 rfl
      rw [if_neg hself, if_pos ⟨rfl, rfl⟩, List.append_nil]
      exact foldl_apply_of_not_concerns entry hown
    · have hother : some h = some h ∧ j ≠ h ∧ j < numHandlers := ⟨rfl, hne, hj⟩
      rw [if_pos hother, List.foldl_append]
      exact happly _
  · intro owner id' hid
    rw [System.view, System.view, hfrom, List.foldl_append, hentry, if_neg fun hall => hid hall.2]
    refine foldl_apply_of_not_concerns _ fun event' hmem => ?_
    split at hmem
    · rw [List.mem_singleton.mp hmem]
      exact hconcerns id' hid
    · nomatch hmem

/-- Taking the first event of a sender. -/
theorem eventsFrom_eraseP {sender : Option Nat} {message : Message R}
    (hfind : s.inFlight.find? (·.isBetween sender h) = some message)
    (hflight : s'.inFlight = s.inFlight.eraseP (·.isBetween sender h)) :
    message ∈ s.inFlight ∧ message.sender = sender ∧ message.receiver = h ∧
      s.inFlight.Perm (message :: s'.inFlight) ∧
      ∀ sender' receiver, s.eventsFrom sender' receiver =
        if sender' = sender ∧ receiver = h then message.event :: s'.eventsFrom sender' receiver
        else s'.eventsFrom sender' receiver := by
  obtain ⟨hfirst, before, after, hsplit, hbefore⟩ := List.find?_eq_some_iff_append.mp hfind
  have hnot : ∀ m ∈ before, ¬ m.isBetween sender h = true := by
    intro m hm hbetween
    have hfalse := hbefore m hm
    rw [hbetween] at hfalse
    nomatch hfalse
  obtain ⟨hsender, hreceiver⟩ := of_decide_eq_true hfirst
  have hrest : s'.inFlight = before ++ after := by
    rw [hflight, hsplit, List.eraseP_append_right _ hnot, List.eraseP_cons_of_pos hfirst]
  refine ⟨hsplit ▸ by simp, hsender, hreceiver, ?_, fun sender' receiver => ?_⟩
  · rw [hrest, hsplit]
    exact List.perm_middle
  · rw [System.eventsFrom, System.eventsFrom, hrest, hsplit, List.filter_append,
      List.filter_append, List.filter_cons]
    by_cases hboth : sender' = sender ∧ receiver = h
    · obtain ⟨rfl, rfl⟩ := hboth
      rw [if_pos hfirst, if_pos ⟨rfl, rfl⟩, List.filter_eq_nil_iff.mpr hnot]
      rfl
    · rw [if_neg hboth, if_neg]
      intro hbetween
      obtain ⟨hsender', hreceiver'⟩ := of_decide_eq_true hbetween
      exact hboth ⟨hsender'.symm.trans hsender, hreceiver'.symm.trans hreceiver⟩

end Views

/-! ## Sessions are opened once -/

section Past

variable {past : List (Input R)} {h h' id : Nat}

/-- A session id that is opened once belongs to one handler. -/
theorem openSession_unique (hunique : (openedSessions past).Nodup)
    (hopen : Input.openSession h id ∈ past) (hopen' : Input.openSession h' id ∈ past) : h = h' := by
  by_contra hne
  have hsymm : Std.Symm fun a a' : Input R => ∀ b, a.opened = some b → ∀ b', a'.opened = some b' →
      b ≠ b' := ⟨fun a a' hdiffer b' hb' b hb heq => hdiffer b hb b' hb' heq.symm⟩
  have hpair := List.pairwise_filterMap.mp hunique
  exact hpair.forall hopen hopen' (fun heq => hne (Input.openSession.inj heq).1) id rfl id rfl rfl

theorem openSession_fresh (hunique : (openedSessions (past ++ [.openSession h id])).Nodup) :
    Input.openSession h' id ∉ past := by
  intro hopen
  rw [openedSessions, List.filterMap_append, List.nodup_append] at hunique
  exact hunique.2.2 id (List.mem_filterMap.mpr ⟨_, hopen, rfl⟩) id (List.mem_singleton_self id) rfl

end Past

/-! ## What the operations do -/

section Operations

variable {sessionOf : R → Except PyExc Nat} {numHandlers : Nat} {past past' : List (Input R)}
  {s s' : System R} {h id : Nat}

/-- What was sent for a reason stays so when more has happened. -/
theorem Message.WellSent.mono {message : Message R} (hsub : ∀ owner id,
    Input.openSession owner id ∈ past → Input.openSession owner id ∈ past')
    (hsent : message.WellSent sessionOf past) : message.WellSent sessionOf past' := by
  obtain ⟨sender, receiver, event⟩ := message
  cases event with
  | newSession id' owner => exact ⟨hsent.1, hsent.2.1, hsub _ _ hsent.2.2⟩
  | endSession id' owner => exact ⟨hsent.1, hsent.2.1, hsub _ _ hsent.2.2⟩
  | push id' request => exact ⟨hsent.1, hsub _ _ hsent.2⟩
  | shutdown => exact hsent

/-- An event about a session comes from its owner and goes to another handler. -/
theorem Message.WellSent.of_concerns {message : Message R}
    (hsent : message.WellSent sessionOf past) (hconcerns : message.event.concerns id = true) :
    ∃ owner, message.sender = some owner ∧ message.receiver ≠ owner ∧
      Input.openSession owner id ∈ past := by
  obtain ⟨sender, receiver, event⟩ := message
  cases event with
  | newSession id' owner =>
    obtain rfl : id' = id := of_decide_eq_true hconcerns
    exact ⟨owner, hsent⟩
  | endSession id' owner =>
    obtain rfl : id' = id := of_decide_eq_true hconcerns
    exact ⟨owner, hsent⟩
  | push id' request => nomatch hconcerns
  | shutdown => nomatch hconcerns

/-- No handler tells itself of a session. -/
theorem Routed.own_events (hs : Routed sessionOf numHandlers past s) (h id : Nat) :
    ∀ event ∈ s.eventsFrom (some h) h, event.concerns id = false := by
  intro event hmem
  rw [← Bool.not_eq_true]
  intro hconcerns
  obtain ⟨owner, hsender, hreceiver, -⟩ :=
    (hs.messages _ (mem_eventsFrom.mp hmem)).of_concerns hconcerns
  exact hreceiver (Option.some.inj hsender)

/-- The table of the owner is right. -/
theorem Routed.own_entry (hs : Routed sessionOf numHandlers past s)
    (hopen : Input.openSession h id ∈ past) :
    s.entry h id = if (id, h) ∈ s.live then some h else none := by
  rw [← hs.views h (hs.owners h id hopen) h id hopen, System.view]
  exact (foldl_apply_of_not_concerns _ (hs.own_events h id)).symm

/-- The tables, the live sessions and the keys of the queues are the same. -/
structure SameTables (s s' : System R) : Prop where
  entry : ∀ h id, s'.entry h id = s.entry h id
  queues : ∀ h id, id ∈ (s'.handlers h).sessionQueues ↔ id ∈ (s.handlers h).sessionQueues
  live : s'.live = s.live

theorem SameTables.refl (s : System R) : SameTables s s := ⟨fun _ _ => rfl, fun _ _ => .rfl, rfl⟩

theorem handlers_setHandler (s : System R) (h : Nat) (state : HandlerState R) (j : Nat) :
    (s.setHandler h state).handlers j = if j = h then state else s.handlers j :=
  Function.update_apply s.handlers h state j

theorem entry_setHandler (s : System R) (h : Nat) (state : HandlerState R) (j id : Nat) :
    (s.setHandler h state).entry j id
      = if j = h then state.sessionHandlers.lookup id else s.entry j id := by
  rw [System.entry, handlers_setHandler]
  split <;> rfl

/-- A handler that changes neither its table nor the keys of its queues. -/
theorem sameTables_setHandler (s : System R) (h : Nat) (state : HandlerState R)
    (hhandlers : state.sessionHandlers = (s.handlers h).sessionHandlers)
    (hqueues : ∀ id, id ∈ state.sessionQueues ↔ id ∈ (s.handlers h).sessionQueues) :
    SameTables s (s.setHandler h state) where
  entry j id := by
    rw [entry_setHandler]
    split
    · rename_i hj
      rw [hhandlers, hj]
      rfl
    · rfl
  queues j id := by
    rw [handlers_setHandler]
    split
    · rename_i hj
      rw [hj]
      exact hqueues id
    · rfl
  live := rfl

theorem mem_insert_of_mem {ν : Type} {d : AList fun _ : Nat => ν} (hmem : id ∈ d) (value : ν)
    (id' : Nat) : id' ∈ d.insert id value ↔ id' ∈ d := by
  rw [AList.mem_insert]
  constructor
  · rintro (rfl | hmem')
    · exact hmem
    · exact hmem'
  · exact .inr

/-- A put into a handler's own queue adds the request there and changes no table. -/
theorem putIntoOwnQueue_spec (hmem : id ∈ (s.handlers h).sessionQueues) (request : R) :
    ∃ s', putIntoOwnQueue h id request s = .ok () s' ∧ SameTables s s' ∧
      s'.inFlight = s.inFlight ∧ s'.puts = s.puts ++ [⟨h, id, request⟩] := by
  obtain ⟨queue, hqueue⟩ := Option.isSome_iff_exists.mp (AList.lookup_isSome.mpr hmem)
  rw [putIntoOwnQueue, bind_get]
  simp only [hqueue]
  refine ⟨_, rfl, ?_, rfl, rfl⟩
  have hsame := sameTables_setHandler s h { s.handlers h with
    sessionQueues := (s.handlers h).sessionQueues.insert id (queue ++ [request]) }
    rfl (mem_insert_of_mem hmem _)
  exact ⟨hsame.entry, hsame.queues, hsame.live⟩

/-- **A push** is ignored, put or sent to the owner. -/
theorem putIntoSessionQueue_spec (hs : Routed sessionOf numHandlers past s) (h id : Nat)
    (request : R) :
    ∃ s', putIntoSessionQueue numHandlers h id request s = .ok () s' ∧ SameTables s s' ∧
      ((s'.inFlight = s.inFlight ∧ s'.puts = s.puts) ∨
        (s'.inFlight = s.inFlight ∧ s'.puts = s.puts ++ [⟨h, id, request⟩] ∧
          Input.openSession h id ∈ past) ∨
        (s'.puts = s.puts ∧ ∃ owner, Input.openSession owner id ∈ past ∧
          s'.inFlight = s.inFlight ++ [⟨some h, owner, .push id request⟩])) := by
  rw [putIntoSessionQueue, bind_get]
  cases hentry : s.entry h id with
  | none =>
    rw [System.entry] at hentry
    simp only [hentry]
    exact ⟨s, rfl, .refl s, .inl ⟨rfl, rfl⟩⟩
  | some owner =>
    have hopen := hs.entries h id owner hentry
    by_cases hown : owner = h
    · subst hown
      -- the table of the owner is right, so the session is open and has its queue
      have hlive : (id, owner) ∈ s.live := by
        by_contra hnot
        rw [hs.own_entry hopen, if_neg hnot] at hentry
        nomatch hentry
      obtain ⟨s', hput, hsame, hflight, hputs⟩ :=
        putIntoOwnQueue_spec ((hs.queues owner id).mpr hlive) request
      rw [System.entry] at hentry
      simp only [hentry, if_pos]
      exact ⟨s', hput, hsame, .inr (.inl ⟨hflight, hputs, hopen⟩)⟩
    · rw [System.entry] at hentry
      simp only [hentry, if_neg hown, if_pos (hs.owners owner id hopen)]
      exact ⟨_, rfl, ⟨fun _ _ => rfl, fun _ _ => .rfl, rfl⟩, .inr (.inr ⟨rfl, owner, hopen, rfl⟩)⟩

/-- A get leaves the tables alone and raises nothing while the session is open. -/
theorem getFromSessionQueue_spec (hs : Routed sessionOf numHandlers past s)
    (hlive : (id, h) ∈ s.live) :
    ∃ request s', getFromSessionQueue h id s = .ok request s' ∧ SameTables s s' ∧
      s'.inFlight = s.inFlight ∧ s'.puts = s.puts := by
  have hentry := hs.own_entry (hs.live h id hlive)
  rw [if_pos hlive, System.entry] at hentry
  obtain ⟨queue, hqueue⟩ :=
    Option.isSome_iff_exists.mp (AList.lookup_isSome.mpr ((hs.queues h id).mpr hlive))
  rw [getFromSessionQueue, bind_get]
  cases queue with
  | nil =>
    simp only [hentry, hqueue, ne_eq, not_true_eq_false, if_false]
    exact ⟨none, s, rfl, .refl s, rfl, rfl⟩
  | cons request queue =>
    simp only [hentry, hqueue, ne_eq, not_true_eq_false, if_false]
    exact ⟨some request, _, rfl, sameTables_setHandler s h _ rfl
      (mem_insert_of_mem ((hs.queues h id).mpr hlive) queue), rfl, rfl⟩

/-- Changing the table of a handler leaves the keys of all queues. -/
theorem queues_setHandler_table (s : System R) (h : Nat) (table : AList fun _ : Nat => Nat)
    (j id : Nat) : id ∈ ((s.setHandler h { s.handlers h with sessionHandlers := table }).handlers
      j).sessionQueues ↔ id ∈ (s.handlers j).sessionQueues := by
  rw [handlers_setHandler]
  split
  · rename_i hj
    rw [hj]
  · rfl

/-- **Taking an event** applies it to the table, and a push is put if the session has a queue. -/
theorem listen_spec (s : System R) (h : Nat) (event : Event R) :
    ∃ s', listen h event s = .ok () s' ∧
      (∀ j id, s'.entry j id = if j = h then event.apply id (s.entry j id) else s.entry j id) ∧
      (∀ j id, id ∈ (s'.handlers j).sessionQueues ↔ id ∈ (s.handlers j).sessionQueues) ∧
      s'.live = s.live ∧ s'.inFlight = s.inFlight ∧
      (s'.puts = s.puts ∨
        ∃ id request, event = .push id request ∧ s'.puts = s.puts ++ [⟨h, id, request⟩]) := by
  cases event with
  | newSession id owner =>
    refine ⟨_, rfl, fun j id' => ?_, fun j id' => ?_, rfl, rfl, .inl rfl⟩
    · rw [entry_setHandler]
      refine ite_congr rfl (fun hj => ?_) fun _ => rfl
      subst hj
      by_cases hid : id = id'
      · subst hid
        rw [AList.lookup_insert]
        exact (if_pos rfl).symm
      · rw [AList.lookup_insert_ne (Ne.symm hid)]
        exact (if_neg hid).symm
    · exact queues_setHandler_table s h _ j id'
  | endSession id owner =>
    refine ⟨_, rfl, fun j id' => ?_, fun j id' => ?_, rfl, rfl, .inl rfl⟩
    · rw [entry_setHandler]
      refine ite_congr rfl (fun hj => ?_) fun _ => rfl
      subst hj
      by_cases hid : id = id'
      · subst hid
        rw [AList.lookup_erase]
        exact (if_pos rfl).symm
      · rw [AList.lookup_erase_ne (Ne.symm hid)]
        exact (if_neg hid).symm
    · exact queues_setHandler_table s h _ j id'
  | push id request =>
    rw [listen, bind_get]
    by_cases hmem : id ∈ (s.handlers h).sessionQueues
    · obtain ⟨s', hput, hsame, hflight, hputs⟩ := putIntoOwnQueue_spec hmem request
      rw [if_pos hmem]
      refine ⟨s', hput, fun j id' => ?_, hsame.queues, hsame.live, hflight,
        .inr ⟨id, request, rfl, hputs⟩⟩
      rw [hsame.entry]
      exact (ite_self _).symm
    · rw [if_neg hmem]
      exact ⟨s, rfl, fun j id' => (ite_self _).symm, fun _ _ => .rfl, rfl, rfl, .inl rfl⟩
  | shutdown =>
    have hsame := sameTables_setHandler s h { s.handlers h with listening := false } rfl
      fun _ => .rfl
    refine ⟨_, rfl, fun j id' => ?_, hsame.queues, rfl, rfl, .inl rfl⟩
    show System.entry _ j id' = _
    rw [hsame.entry]
    exact (ite_self _).symm

/-! ## The invariant is kept -/

theorem mem_append_other {input : Input R} (hother : input.opened = none) (owner id : Nat) :
    Input.openSession owner id ∈ past ++ [input] ↔ Input.openSession owner id ∈ past := by
  rw [List.mem_append, List.mem_singleton]
  refine or_iff_left fun heq => ?_
  rw [← heq] at hother
  nomatch hother

theorem pushedRequests_append (past : List (Input R)) (input : Input R) :
    pushedRequests (past ++ [input]) = pushedRequests past ++ input.pushed.toList := by
  rw [pushedRequests, List.filterMap_append]
  cases hpushed : input.pushed with
  | none => rw [List.filterMap_cons_none hpushed]; rfl
  | some request => rw [List.filterMap_cons_some hpushed]; rfl

/-- A step that keeps the tables and sends news about other sessions keeps the view of this one. -/
theorem SameTables.view {sent : List (Message R)} (hflight : s'.inFlight = s.inFlight ++ sent)
    (hsent : ∀ message ∈ sent, message.event.concerns id = false) (hsame : SameTables s s')
    (owner h : Nat) : s'.view owner h id = s.view owner h id := by
  rw [System.view, System.view, System.eventsFrom, hflight, List.filter_append, List.map_append,
    List.foldl_append, hsame.entry]
  refine foldl_apply_of_not_concerns _ fun event hmem => ?_
  obtain ⟨message, hmessage, rfl⟩ := List.mem_map.mp hmem
  exact hsent message (List.mem_filter.mp hmessage).1

/-- A step that opens and closes nothing: what it sends is about no session's start or end. -/
theorem Routed.quiet (hs : Routed sessionOf numHandlers past s)
    (hpast : ∀ owner id, Input.openSession owner id ∈ past' ↔ Input.openSession owner id ∈ past)
    (hsame : SameTables s s') {sent : List (Message R)} (hflight : s'.inFlight = s.inFlight ++ sent)
    (hsent : ∀ message ∈ sent, message.WellSent sessionOf past ∧
      ∀ id, message.event.concerns id = false)
    (hputs : ∀ put ∈ s'.puts, put ∈ s.puts ∨ put.WellPut sessionOf past)
    (hplaced : s'.placed.Subperm (pushedRequests past')) :
    Routed sessionOf numHandlers past' s' where
  owners h id hopen := hs.owners h id ((hpast h id).mp hopen)
  live h id hlive := (hpast h id).mpr (hs.live h id (hsame.live ▸ hlive))
  queues h id := by rw [hsame.queues, hs.queues, hsame.live]
  entries h id owner hentry :=
    (hpast owner id).mpr (hs.entries h id owner (hsame.entry h id ▸ hentry))
  messages message hmem := by
    have hwell : message.WellSent sessionOf past := by
      rcases List.mem_append.mp (hflight ▸ hmem) with hold | hnew
      · exact hs.messages message hold
      · exact (hsent message hnew).1
    exact hwell.mono fun owner id => (hpast owner id).mpr
  views h hlt owner id hopen := by
    rw [hsame.view hflight fun message hmem => (hsent message hmem).2 id, hsame.live]
    exact hs.views h hlt owner id ((hpast owner id).mp hopen)
  puts put hmem := by
    have hwell : put.WellPut sessionOf past := (hputs put hmem).elim (hs.puts put) id
    exact ⟨hwell.1, (hpast _ _).mpr hwell.2⟩
  placed := hplaced

/-- A session starts or ends: its owner changes its own table and tells the others. -/
theorem Routed.announce (hs : Routed sessionOf numHandlers past s) (h id : Nat) (event : Event R)
    (entry : Option Nat) (hpast : ∀ input ∈ past, input ∈ past')
    (hopens : ∀ owner id', Input.openSession owner id' ∈ past' →
      Input.openSession owner id' ∈ past ∨ owner = h ∧ id' = id)
    (howner : ∀ owner, Input.openSession owner id ∈ past' → owner = h) (hlt : h < numHandlers)
    (hpushed : pushedRequests past' = pushedRequests past)
    (hconcerns : ∀ id', id' ≠ id → event.concerns id' = false) (hnot : event.pushed = none)
    (happly : ∀ old, Event.apply id old event = entry)
    (hsent : ∀ otherIndex, otherIndex ≠ h →
      (⟨some h, otherIndex, event⟩ : Message R).WellSent sessionOf past')
    (hflight : s'.inFlight = (s.broadcast numHandlers h event).inFlight)
    (hentry : ∀ j id', s'.entry j id' = if j = h ∧ id' = id then entry else s.entry j id')
    (hvalue : entry = if (id, h) ∈ s'.live then some h else none)
    (hopen : (id, h) ∈ s'.live → Input.openSession h id ∈ past')
    (hlive : ∀ owner id', id' ≠ id → ((id', owner) ∈ s'.live ↔ (id', owner) ∈ s.live))
    (hlive' : ∀ owner, (id, owner) ∈ s'.live → owner = h)
    (hqueues : ∀ j id', id' ∈ (s'.handlers j).sessionQueues ↔ (id', j) ∈ s'.live)
    (hputs : s'.puts = s.puts) : Routed sessionOf numHandlers past' s' where
  owners j id' hmem := by
    rcases hopens j id' hmem with hold | ⟨rfl, rfl⟩
    · exact hs.owners j id' hold
    · exact hlt
  live j id' hmem := by
    by_cases hid : id' = id
    · subst hid
      obtain rfl := hlive' j hmem
      exact hopen hmem
    · exact hpast _ (hs.live j id' ((hlive j id' hid).mp hmem))
  queues := hqueues
  entries j id' owner hmem := by
    rw [hentry] at hmem
    split at hmem
    · rename_i hboth
      obtain ⟨rfl, rfl⟩ := hboth
      rw [hvalue] at hmem
      split at hmem
      · rename_i hin
        obtain rfl := Option.some.inj hmem
        exact hopen hin
      · nomatch hmem
    · exact hpast _ (hs.entries j id' owner hmem)
  messages message hmem := by
    rcases List.mem_append.mp (hflight ▸ hmem) with hold | hnew
    · exact (hs.messages message hold).mono fun owner id' => hpast _
    · obtain ⟨otherIndex, hother, rfl⟩ := List.mem_map.mp hnew
      exact hsent otherIndex (of_decide_eq_true (List.mem_filter.mp hother).2)
  views j hj owner id' hmem := by
    obtain ⟨hview, hviews⟩ :=
      view_announce hconcerns happly hflight hentry (hs.own_events h id) hj
    by_cases hid : id' = id
    · subst hid
      obtain rfl := howner owner hmem
      rw [hview, hvalue]
    · rw [hviews owner id' hid, hs.views j hj owner id' ?_]
      · exact if_congr (hlive owner id' hid).symm rfl rfl
      · exact (hopens owner id' hmem).resolve_right fun hboth => hid hboth.2
  puts put hmem := by
    obtain ⟨hnamed, hown⟩ := hs.puts put (hputs ▸ hmem)
    exact ⟨hnamed, hpast _ hown⟩
  placed := by
    have hnone : ∀ receivers : List Nat, (receivers.map fun otherIndex =>
        (⟨some h, otherIndex, event⟩ : Message R)).filterMap (·.event.pushed) = [] := by
      intro receivers
      rw [List.filterMap_map, List.filterMap_eq_nil_iff]
      exact fun _ _ => hnot
    rw [System.placed, hputs, hflight, System.broadcast, List.filterMap_append, hnone,
      List.append_nil, hpushed]
    exact hs.placed

/-- **A session starts.** -/
theorem Routed.enterSession (hs : Routed sessionOf numHandlers past s) (hlt : h < numHandlers)
    (hfresh : ∀ owner, Input.openSession owner id ∉ past) :
    ∃ s', enterSession numHandlers h id s = .ok () s' ∧
      Routed sessionOf numHandlers (past ++ [.openSession h id]) s' := by
  have hnew : id ∉ (s.handlers h).sessionQueues := fun hmem =>
    hfresh h (hs.live h id ((hs.queues h id).mp hmem))
  rw [SessionRouting.enterSession, bind_get, if_neg hnew]
  refine ⟨_, rfl, ?_⟩
  have hnone : ∀ owner, (id, owner) ∉ s.live := fun owner hmem =>
    hfresh owner (hs.live owner id hmem)
  refine hs.announce h id (.newSession id h) (some h)
    (fun input hmem => List.mem_append_left _ hmem) ?_ ?_ hlt ?_ ?_ rfl (fun _ => if_pos rfl) ?_ rfl
    ?_ ?_ ?_ ?_ ?_ ?_ rfl
  · intro owner id' hmem
    rcases List.mem_append.mp hmem with hold | hlast
    · exact .inl hold
    · obtain ⟨rfl, rfl⟩ := Input.openSession.inj (List.mem_singleton.mp hlast)
      exact .inr ⟨rfl, rfl⟩
  · intro owner hmem
    rcases List.mem_append.mp hmem with hold | hlast
    · exact absurd hold (hfresh owner)
    · exact (Input.openSession.inj (List.mem_singleton.mp hlast)).1
  · exact (pushedRequests_append _ _).trans (List.append_nil _)
  · exact fun id' hid => decide_eq_false (Ne.symm hid)
  · intro otherIndex hother
    exact ⟨rfl, hother, List.mem_append_right _ (List.mem_singleton_self _)⟩
  · intro j id'
    show System.entry (s.setHandler h _) j id' = _
    rw [entry_setHandler]
    by_cases hj : j = h
    · subst hj
      by_cases hid : id' = id
      · subst hid
        rw [if_pos rfl, if_pos ⟨rfl, rfl⟩, AList.lookup_insert]
      · rw [if_pos rfl, if_neg fun hboth => hid hboth.2, AList.lookup_insert_ne hid]
        rfl
    · rw [if_neg hj, if_neg fun hboth => hj hboth.1]
  · exact (if_pos (List.mem_append_right _ (List.mem_singleton_self _))).symm
  · exact fun _ => List.mem_append_right _ (List.mem_singleton_self _)
  · intro owner id' hid
    show (id', owner) ∈ s.live ++ [(id, h)] ↔ _
    rw [List.mem_append, List.mem_singleton, Prod.mk.injEq]
    exact or_iff_left fun hboth => hid hboth.1
  · intro owner hmem
    rcases List.mem_append.mp hmem with hold | hlast
    · exact absurd hold (hnone owner)
    · exact (Prod.mk.inj (List.mem_singleton.mp hlast)).2
  · intro j id'
    show id' ∈ ((s.setHandler h _).handlers j).sessionQueues ↔ (id', j) ∈ s.live ++ [(id, h)]
    rw [handlers_setHandler, List.mem_append, List.mem_singleton, Prod.mk.injEq, ← hs.queues j id']
    by_cases hj : j = h
    · subst hj
      rw [if_pos rfl, AList.mem_insert]
      exact ⟨fun hmem => hmem.elim (fun hid => .inr ⟨hid, rfl⟩) .inl,
        fun hmem => hmem.elim .inr fun hboth => .inl hboth.1⟩
    · rw [if_neg hj]
      exact (or_iff_left fun hboth => hj hboth.2).symm

/-- **A session ends**: the handler finds it in both tables. -/
theorem Routed.exitSession (hs : Routed sessionOf numHandlers past s)
    (hunique : (openedSessions past).Nodup) (hlive : (id, h) ∈ s.live) :
    ∃ s', exitSession numHandlers h id s = .ok () s' ∧
      Routed sessionOf numHandlers (past ++ [.closeSession h id]) s' := by
  have hopen := hs.live h id hlive
  have hlt := hs.owners h id hopen
  obtain ⟨queue, hqueue⟩ :=
    Option.isSome_iff_exists.mp (AList.lookup_isSome.mpr ((hs.queues h id).mpr hlive))
  have hentry : (s.handlers h).sessionHandlers.lookup id = some h := by
    have hown := hs.own_entry hopen
    rw [if_pos hlive] at hown
    exact hown
  have hmem : id ∈ (s.handlers h).sessionHandlers :=
    AList.lookup_isSome.mp (Option.isSome_iff_exists.mpr ⟨h, hentry⟩)
  rw [SessionRouting.exitSession, bind_get, bind_modify]
  simp only [hqueue, bind_modify, hmem, if_true]
  refine ⟨_, rfl, ?_⟩
  have hgone : ∀ owner id', (id', owner) ∈ s.live.filter (· ≠ (id, h)) ↔
      (id', owner) ∈ s.live ∧ ¬ (id' = id ∧ owner = h) := by
    intro owner id'
    rw [List.mem_filter, decide_eq_true_iff, Ne, Prod.mk.injEq]
  have howner : ∀ owner, Input.openSession owner id ∈ past → owner = h := fun owner hmem' =>
    openSession_unique hunique hmem' hopen
  have hlast : ∀ owner id', Input.openSession owner id' ∈ past ++ [.closeSession h id] ↔
      Input.openSession owner id' ∈ past := mem_append_other rfl
  have hnot : (id, h) ∉ s.live.filter (· ≠ (id, h)) := fun hin => ((hgone h id).mp hin).2 ⟨rfl, rfl⟩
  refine hs.announce h id (.endSession id h) none
    (fun input hmem => List.mem_append_left _ hmem) (fun owner id' hmem' => .inl
      ((hlast owner id').mp hmem')) (fun owner hmem' => howner owner ((hlast owner id).mp hmem'))
    hlt ?_ ?_ rfl (fun _ => if_pos rfl) ?_ rfl ?_ (if_neg hnot).symm (fun hin => absurd hin hnot)
    ?_ ?_ ?_ rfl
  · exact (pushedRequests_append _ _).trans (List.append_nil _)
  · exact fun id' hid => decide_eq_false (Ne.symm hid)
  · exact fun otherIndex hother => ⟨rfl, hother, (hlast h id).mpr hopen⟩
  · intro j id'
    show System.entry (System.setHandler h _ (System.setHandler h _ _)) j id' = _
    rw [entry_setHandler, entry_setHandler]
    by_cases hj : j = h
    · subst hj
      by_cases hid : id' = id
      · subst hid
        rw [if_pos rfl, if_pos ⟨rfl, rfl⟩, AList.lookup_erase]
      · rw [if_pos rfl, if_neg fun hboth => hid hboth.2, AList.lookup_erase_ne hid]
        rfl
    · rw [if_neg hj, if_neg hj, if_neg fun hboth => hj hboth.1]
      rfl
  · intro owner id' hid
    exact (hgone owner id').trans (and_iff_left fun hboth => hid hboth.1)
  · exact fun owner hin => howner owner (hs.live owner id ((hgone owner id).mp hin).1)
  · intro j id'
    show id' ∈ ((System.setHandler h _ (System.setHandler h _ _)).handlers j).sessionQueues ↔
      (id', j) ∈ s.live.filter (· ≠ (id, h))
    rw [handlers_setHandler, handlers_setHandler, hgone]
    by_cases hj : j = h
    · subst hj
      rw [if_pos rfl, AList.mem_erase, hs.queues]
      exact ⟨fun hin => ⟨hin.2, fun hboth => hin.1 hboth.1⟩,
        fun hin => ⟨fun hid => hin.2 ⟨hid, rfl⟩, hin.1⟩⟩
    · rw [if_neg hj, if_neg hj]
      exact (hs.queues j id').trans (and_iff_left fun hboth => hj hboth.2).symm

theorem Event.apply_eq_some {event : Event R} {entry : Option Nat} {owner : Nat}
    (happly : event.apply id entry = some owner) :
    entry = some owner ∨ event = .newSession id owner := by
  cases event with
  | newSession id' payload =>
    by_cases hid : id' = id
    · subst hid
      rw [Event.apply, if_pos rfl] at happly
      obtain rfl := Option.some.inj happly
      exact .inr rfl
    · rw [Event.apply, if_neg hid] at happly
      exact .inl happly
  | endSession id' payload =>
    by_cases hid : id' = id
    · rw [Event.apply, if_pos hid] at happly
      nomatch happly
    · rw [Event.apply, if_neg hid] at happly
      exact .inl happly
  | push id' request => exact .inl happly
  | shutdown => exact .inl happly

/-- A request that leaves the queue of events is put or dropped. -/
theorem placed_subperm {message : Message R} (hperm : s.inFlight.Perm (message :: s'.inFlight))
    (hputs : s'.puts = s.puts ∨ ∃ id request, message.event = .push id request ∧
      s'.puts = s.puts ++ [⟨h, id, request⟩]) : s'.placed.Subperm s.placed := by
  have hsame : s.placed.Perm (s.puts.map (·.request) ++
      (message :: s'.inFlight).filterMap (·.event.pushed)) :=
    (hperm.filterMap _).append_left _
  rw [System.placed]
  rcases hputs with hputs | ⟨id, request, hevent, hputs⟩
  · rw [hputs]
    refine List.Subperm.trans (List.Sublist.subperm ?_) hsame.symm.subperm
    exact ((List.sublist_cons_self message _).filterMap _).append_left _
  · rw [hputs, List.map_append, List.append_assoc]
    refine List.Subperm.trans (List.Perm.subperm ?_) hsame.symm.subperm
    rw [List.filterMap_cons_some (by rw [hevent]; rfl)]
    exact .refl _

/-- **An event is taken.** -/
theorem Routed.deliver (hs : Routed sessionOf numHandlers past s)
    (hunique : (openedSessions past).Nodup) {sender : Option Nat} {message : Message R}
    (hfind : s.inFlight.find? (·.isBetween sender h) = some message) :
    ∃ s', listen h message.event
        { s with inFlight := s.inFlight.eraseP (·.isBetween sender h) } = .ok () s' ∧
      Routed sessionOf numHandlers (past ++ [.deliver sender h]) s' := by
  obtain ⟨s', hlisten, hentry, hqueues, hlive, hflight, hputs⟩ := listen_spec
    { s with inFlight := s.inFlight.eraseP (·.isBetween sender h) } h message.event
  obtain ⟨hmem, hsender, hreceiver, hperm, hfrom⟩ := eventsFrom_eraseP hfind hflight
  have hwell := hs.messages message hmem
  have hlast : ∀ owner id, Input.openSession owner id ∈ past ++ [.deliver sender h] ↔
      Input.openSession owner id ∈ past := mem_append_other rfl
  refine ⟨s', hlisten, ?_⟩
  constructor
  case owners => exact fun owner id hopen => hs.owners owner id ((hlast owner id).mp hopen)
  case live => exact fun owner id hin => (hlast owner id).mpr (hs.live owner id (hlive ▸ hin))
  case queues =>
    intro j id
    rw [hqueues, hlive]
    exact hs.queues j id
  case entries =>
    intro j id owner hin
    rw [hentry] at hin
    refine (hlast owner id).mpr ?_
    split at hin
    · rcases Event.apply_eq_some hin with hold | hnew
      · exact hs.entries j id owner hold
      · rw [Message.WellSent, hnew] at hwell
        exact hwell.2.2
    · exact hs.entries j id owner hin
  case messages =>
    intro message' hin
    have hold : message' ∈ s.inFlight := hperm.symm.subset (List.mem_cons_of_mem message hin)
    exact (hs.messages message' hold).mono fun owner id => (hlast owner id).mpr
  case views =>
    intro j hj owner id hopen
    have hopen' := (hlast owner id).mp hopen
    rw [hlive, ← hs.views j hj owner id hopen', System.view, System.view, hfrom, hentry]
    by_cases hj' : j = h
    · rw [if_pos hj']
      by_cases howner : some owner = sender
      · rw [if_pos ⟨howner, hj'⟩]
        rfl
      · rw [if_neg fun hboth => howner hboth.1, Event.apply_of_not_concerns]
        · rfl
        · -- only the owner sends what is about its session
          rw [← Bool.not_eq_true]
          intro hconcerns
          obtain ⟨owner', hsender', -, hopen''⟩ := hwell.of_concerns hconcerns
          obtain rfl := openSession_unique hunique hopen' hopen''
          exact howner (hsender'.symm.trans hsender)
    · rw [if_neg hj', if_neg fun hboth => hj' hboth.2]
      rfl
  case puts =>
    intro put hin
    have hput : put.WellPut sessionOf past := by
      rcases hputs with hsame | ⟨id, request, hevent, hnew⟩
      · exact hs.puts put (hsame ▸ hin)
      · rcases List.mem_append.mp (hnew ▸ hin) with hold | hput
        · exact hs.puts put hold
        · rw [List.mem_singleton.mp hput]
          rw [Message.WellSent, hevent, hreceiver] at hwell
          exact hwell
    exact ⟨hput.1, (hlast _ _).mpr hput.2⟩
  case placed =>
    refine (placed_subperm hperm hputs).trans ?_
    rw [pushedRequests_append]
    exact hs.placed.trans (List.sublist_append_left _ _).subperm

/-- **A push arrives** at any handler. -/
theorem Routed.push (hs : Routed sessionOf numHandlers past s) (h : Nat) (request : R) :
    Routed sessionOf numHandlers (past ++ [.rpcPush h request])
      (finalState (rpcPush sessionOf numHandlers h request s)) := by
  have hpast : ∀ owner id, Input.openSession owner id ∈ past ++ [.rpcPush h request] ↔
      Input.openSession owner id ∈ past := mem_append_other rfl
  have hpushed := pushedRequests_append past (.rpcPush h request)
  have hmore : s.placed.Subperm (pushedRequests (past ++ [.rpcPush h request])) := by
    rw [hpushed]
    exact hs.placed.trans (List.sublist_append_left _ _).subperm
  have hnext : (s.placed ++ [request]).Subperm (pushedRequests (past ++ [.rpcPush h request])) := by
    rw [hpushed]
    exact (List.subperm_append_right [request]).mpr hs.placed
  cases hsession : sessionOf request with
  | error exc =>
    rw [rpcPush, hsession]
    exact hs.quiet hpast (.refl s) (List.append_nil _).symm (fun _ hmem => nomatch hmem)
      (fun _ hmem => .inl hmem) hmore
  | ok id =>
    have hread : (liftExcept (sessionOf request) : SystemM R Nat) s = .ok id s := by
      rw [hsession]
      rfl
    obtain ⟨s', hput, hsame, hcases⟩ := putIntoSessionQueue_spec hs h id request
    rw [rpcPush, bind_of_ok hread, hput, finalState_ok]
    rcases hcases with ⟨hflight, hputs⟩ | ⟨hflight, hputs, hopen⟩ | ⟨hputs, owner, hopen, hflight⟩
    · -- ignored
      refine hs.quiet hpast hsame (hflight.trans (List.append_nil _).symm)
        (fun _ hmem => nomatch hmem) (fun _ hmem => .inl (hputs ▸ hmem)) ?_
      rw [System.placed, hputs, hflight]
      exact hmore
    · -- put into the handler's own queue
      refine hs.quiet hpast hsame (hflight.trans (List.append_nil _).symm)
        (fun _ hmem => nomatch hmem) (fun put hmem => ?_) ?_
      · rcases List.mem_append.mp (hputs ▸ hmem) with hold | hnew
        · exact .inl hold
        · rw [List.mem_singleton.mp hnew]
          exact .inr ⟨hsession, hopen⟩
      · refine List.Subperm.trans (List.Perm.subperm ?_) hnext
        rw [System.placed, hputs, hflight, List.map_append, List.append_assoc, System.placed,
          List.append_assoc]
        exact List.perm_append_comm.append_left _
    · -- sent to the owner
      refine hs.quiet hpast hsame hflight (fun message hmem => ?_)
        (fun _ hmem => .inl (hputs ▸ hmem)) ?_
      · rw [List.mem_singleton.mp hmem]
        exact ⟨⟨hsession, hopen⟩, fun _ => rfl⟩
      · refine List.Subperm.trans (List.Perm.subperm ?_) hnext
        rw [System.placed, hputs, hflight, List.filterMap_append, System.placed, List.append_assoc]
        exact .refl _

/-- **One step** keeps the invariant. -/
theorem step_routed {input : Input R} (hs : Routed sessionOf numHandlers past s)
    (hunique : (openedSessions (past ++ [input])).Nodup)
    (hstep : step sessionOf numHandlers s input = some s') :
    Routed sessionOf numHandlers (past ++ [input]) s' := by
  have hunique' : (openedSessions past).Nodup := by
    rw [openedSessions, List.filterMap_append] at hunique
    exact hunique.of_append_left
  obtain ⟨result, hperform, rfl⟩ := Option.map_eq_some_iff.mp hstep
  cases input with
  | openSession h id =>
    obtain ⟨hlt, hresult⟩ := Option.ite_none_right_eq_some.mp hperform
    obtain ⟨s', henter, hrouted⟩ := hs.enterSession hlt fun _ => openSession_fresh hunique
    rw [← Option.some.inj hresult, henter]
    exact hrouted
  | closeSession h id =>
    obtain ⟨hlive, hresult⟩ := Option.ite_none_right_eq_some.mp hperform
    obtain ⟨s', hexit, hrouted⟩ := hs.exitSession hunique' hlive
    rw [← Option.some.inj hresult, hexit]
    exact hrouted
  | rpcPush h request =>
    obtain ⟨-, hresult⟩ := Option.ite_none_right_eq_some.mp hperform
    rw [← Option.some.inj hresult]
    exact hs.push h request
  | deliver sender receiver =>
    obtain ⟨-, hresult⟩ := Option.ite_none_right_eq_some.mp hperform
    obtain ⟨message, hfind, hresult⟩ := Option.map_eq_some_iff.mp hresult
    obtain ⟨s', hlisten, hrouted⟩ := hs.deliver hunique' hfind
    rw [← hresult, hlisten]
    exact hrouted
  | get h id =>
    obtain ⟨hlive, hresult⟩ := Option.ite_none_right_eq_some.mp hperform
    obtain ⟨request, s', hget, hsame, hflight, hputs⟩ := getFromSessionQueue_spec hs hlive
    rw [← Option.some.inj hresult, bind_of_ok hget]
    show Routed sessionOf numHandlers _ s'
    refine hs.quiet (mem_append_other rfl) hsame (hflight.trans (List.append_nil _).symm)
      (fun _ hmem => nomatch hmem) (fun _ hmem => .inl (hputs ▸ hmem)) ?_
    rw [System.placed, hputs, hflight, pushedRequests_append]
    exact hs.placed.trans (List.sublist_append_left _ _).subperm
  | shutdown h =>
    rw [← Option.some.inj hperform, finalState_ok]
    have hsame : SameTables s (s.send ⟨none, h, .shutdown⟩) :=
      ⟨fun _ _ => rfl, fun _ _ => .rfl, rfl⟩
    have hflight : (s.send ⟨none, h, .shutdown⟩).inFlight = s.inFlight ++ [⟨none, h, .shutdown⟩] :=
      rfl
    refine hs.quiet (mem_append_other rfl) hsame hflight (fun message hmem => ?_)
      (fun _ hmem => .inl hmem) ?_
    · rw [List.mem_singleton.mp hmem]
      exact ⟨rfl, fun _ => rfl⟩
    · rw [pushedRequests_append, System.placed, System.send, List.filterMap_append]
      refine List.Subperm.trans (List.Perm.subperm ?_)
        (hs.placed.trans (List.sublist_append_left _ _).subperm)
      exact (List.append_nil _ ▸ .refl _)

/-- **Every run.** -/
theorem run_routed {inputs : List (Input R)} (hunique : (openedSessions inputs).Nodup)
    (hrun : exec (step sessionOf numHandlers) {} inputs = some s) :
    Routed sessionOf numHandlers inputs s := by
  refine exec_history (P := fun past s => (openedSessions past).Nodup →
    Routed sessionOf numHandlers past s) (fun past s input s' hs hstep hunique => ?_) (fun _ => ?_)
    hrun hunique
  · refine step_routed (hs ?_) hunique hstep
    rw [openedSessions, List.filterMap_append] at hunique
    exact hunique.of_append_left
  · exact
      { owners := fun h id hopen => nomatch hopen
        live := fun h id hmem => nomatch hmem
        queues := fun h id => iff_of_false (AList.notMem_empty id) List.not_mem_nil
        entries := fun h id owner hentry => by
          rw [System.entry, AList.lookup_empty] at hentry
          nomatch hentry
        messages := fun message hmem => nomatch hmem
        views := fun h hlt owner id hopen => nomatch hopen
        puts := fun put hmem => nomatch hmem
        placed := List.nil_subperm }

/-- **Pushes are routed safely**, in every run in which no session id is opened twice: each push is
    put at most once, into the queue of the session that it names, at the handler that has opened
    it; neither a push nor the end of an open session raises at any handler; and when all events
    are delivered, the tables of all handlers have exactly the open sessions, with their owners. -/
theorem pushes_routed (sessionOf : R → Except PyExc Nat) (numHandlers : Nat)
    (inputs : List (Input R)) (hunique : (openedSessions inputs).Nodup) (s : System R)
    (hrun : exec (step sessionOf numHandlers) {} inputs = some s) :
    (s.puts.map (·.request)).Subperm (pushedRequests inputs) ∧
    (∀ put ∈ s.puts, sessionOf put.request = .ok put.sessionId ∧
      Input.openSession put.handlerIndex put.sessionId ∈ inputs) ∧
    (∀ h id request, returns (putIntoSessionQueue numHandlers h id request s) = true) ∧
    (∀ h id, (id, h) ∈ s.live → returns (exitSession numHandlers h id s) = true) ∧
    (s.inFlight = [] → ∀ h < numHandlers, ∀ id owner,
      (s.handlers h).sessionHandlers.lookup id = some owner ↔ (id, owner) ∈ s.live) := by
  have hs := run_routed hunique hrun
  refine ⟨?_, hs.puts, fun h id request => ?_, fun h id hlive => ?_, ?_⟩
  · exact (List.sublist_append_left _ _).subperm.trans hs.placed
  · obtain ⟨s', hput, -⟩ := putIntoSessionQueue_spec hs h id request
    exact returns_of_eq_ok hput
  · obtain ⟨s', hexit, -⟩ := hs.exitSession hunique hlive
    exact returns_of_eq_ok hexit
  · intro hflight h hlt id owner
    have hview : ∀ sender, s.view sender h id = s.entry h id := by
      intro sender
      rw [System.view, System.eventsFrom, hflight]
      rfl
    constructor
    · intro hentry
      have hopen := hs.entries h id owner hentry
      by_contra hnot
      have hnone := hs.views h hlt owner id hopen
      rw [hview, if_neg hnot, System.entry, hentry] at hnone
      nomatch hnone
    · intro hlive
      have hsome := hs.views h hlt owner id (hs.live owner id hlive)
      rw [hview, if_pos hlive] at hsome
      exact hsome

end Operations

/-- Handler 0 opens session 7.  A push for it comes to handler 1 before the news, which ignores it,
    and again after the news; the second one is on its way when the session ends. -/
def lateNews : List (Input (Nat × String)) :=
  [.openSession 0 7, .rpcPush 1 (7, "first"), .deliver (some 0) 1, .rpcPush 1 (7, "second"),
    .rpcPush 0 (7, "third"), .closeSession 0 7, .deliver (some 1) 0, .deliver (some 0) 1]

/-- The end of that run. -/
def afterLateNews : System (Nat × String) :=
  (exec (step (fun request => .ok request.1) 2) {} lateNews).getD {}

theorem pushes_routed_late_news :
    (afterLateNews.puts.map (·.request)).Subperm (pushedRequests lateNews) ∧
    (∀ put ∈ afterLateNews.puts, (.ok put.request.1 : Except PyExc Nat) = .ok put.sessionId ∧
      Input.openSession put.handlerIndex put.sessionId ∈ lateNews) ∧
    (∀ h id request, returns (putIntoSessionQueue 2 h id request afterLateNews) = true) ∧
    (∀ h id, (id, h) ∈ afterLateNews.live → returns (exitSession 2 h id afterLateNews) = true) ∧
    (afterLateNews.inFlight = [] → ∀ h < 2, ∀ id owner,
      (afterLateNews.handlers h).sessionHandlers.lookup id = some owner ↔
        (id, owner) ∈ afterLateNews.live) :=
  pushes_routed (fun request => .ok request.1) 2 lateNews (by decide) afterLateNews (by
    obtain ⟨s, hs⟩ : ∃ s, exec (step (fun request : Nat × String => .ok request.1) 2) {} lateNews
        = some s := Option.isSome_iff_exists.mp (by decide +kernel)
    rw [afterLateNews, hs]
    rfl)

example : afterLateNews.puts.map (·.request) = [(7, "third")] ∧
    afterLateNews.inFlight.length = 0 := by decide +kernel

end Drift.SessionRouting
