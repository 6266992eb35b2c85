/-
  `ModuleAnnouncerThread` of `server/server.py`: the thread that declares the blocks of a server to
  the DHT, again and again, and `announce`, by which the container changes what it declares.

  Both threads work on one `server_info` object.  One turn of the thread's loop reads `state` at
  three places: before it pings the next servers, when `declare_active_modules` takes the contents
  that it sends, and in the test for `OFFLINE` that ends the loop.  The DHT call between the last
  two takes arbitrarily long.

  `announce(OFFLINE)` sets the state, sets the trigger and joins the thread.  When it comes between
  the declaration and the test, the thread ends without a further declaration, and what the DHT
  keeps is the state from before (`offline_lost`, `announce_between_lost`).  An announcement at any
  other moment is declared before it returns (`run_offline_declared`).

  The turn is cut where the other thread can come in between.  The entry of `model_info` that a
  public server stores after the test only takes time, so it is part of the step to the wait.

  The first statement of a turn divides by `bytes_per_token`.  Where that is zero the exception ends
  the thread before it has declared anything, and `announce(OFFLINE)` returns all the same
  (`run_never_declares`).  Exceptions of the calls into the DHT are not modelled.
-/
import Drift.Lib.Run
import Drift.Utils.Dht

namespace Drift

/-- `ServerInfo`: the fields that change while the server runs.  `ρ` is what the ping aggregator
    knows about the other servers. -/
structure ServerInfo (ρ : Type) where
  state : ServerState
  cacheTokensLeft : Option Int
  nextPings : Option ρ

/-- Where the thread stands in a turn of its loop. -/
inductive AnnouncerPhase where
  /-- At the head of the loop. -/
  | looping
  /-- The state was not `OFFLINE`: in `_ping_next_servers`. -/
  | pinging
  /-- Before `declare_active_modules`. -/
  | declaring
  /-- The contents are taken; the call runs, or has returned and the test is next. -/
  | declared
  /-- In `trigger.wait`. -/
  | waiting
  /-- Before `trigger.clear`. -/
  | clearing
  /-- The loop is left, or an exception has ended the thread. -/
  | finished
deriving DecidableEq

/-- Where the container thread stands in `announce`. -/
inductive ContainerPhase where
  | ready
  /-- The state is set, the trigger not yet. -/
  | announcing (state : ServerState)
  /-- In `self.join()`. -/
  | joining
deriving DecidableEq

/-- The announcer thread, the container thread and what they share. -/
structure Announcer (ρ : Type) where
  bytesPerToken : Int
  serverInfo : ServerInfo ρ
  trigger : Bool
  phase : AnnouncerPhase
  container : ContainerPhase
  /-- A call of `announce(OFFLINE)` has returned. -/
  offlineReturned : Bool
  /-- The values declared for the module uids, the last one first. -/
  declarations : List (ServerInfo ρ)

namespace Announcer

variable {ρ : Type}

/-- The thread when it starts. -/
def new (serverInfo : ServerInfo ρ) (bytesPerToken : Int) : Announcer ρ where
  bytesPerToken := bytesPerToken
  serverInfo := serverInfo
  trigger := false
  phase := .looping
  container := .ready
  offlineReturned := false
  declarations := []

/-- The head of the loop: `cache_tokens_left`, and the first look at the state.  A division by zero
    ends the thread. -/
def loopHead (bytesLeft : Int) (s : Announcer ρ) : Announcer ρ :=
  if s.bytesPerToken = 0 then { s with phase := .finished }
  else
    let info := { s.serverInfo with cacheTokensLeft := some (bytesLeft.fdiv s.bytesPerToken) }
    if info.state ≠ .offline then { s with serverInfo := info, phase := .pinging }
    else { s with serverInfo := { info with nextPings := none }, phase := .declaring }

/-- `next_pings`, once the pings are back. -/
def setNextPings (pings : ρ) (s : Announcer ρ) : Announcer ρ :=
  { s with serverInfo := { s.serverInfo with nextPings := some pings }, phase := .declaring }

/-- `declare_active_modules`: the contents are those of the moment of the call. -/
def declareActiveModules (s : Announcer ρ) : Announcer ρ :=
  { s with declarations := s.serverInfo :: s.declarations, phase := .declared }

/-- The test that ends the loop. -/
def testOffline (s : Announcer ρ) : Announcer ρ :=
  { s with phase := if s.serverInfo.state = .offline then .finished else .waiting }

/-- The next step of the thread, with what it reads from elsewhere: the bytes left in the cache and
    the round trip times.  `none` while it waits for the trigger, and at the end. -/
def run (bytesLeft : Int) (pings : ρ) (s : Announcer ρ) : Option (Announcer ρ) :=
  match s.phase with
  | .looping => some (s.loopHead bytesLeft)
  | .pinging => some (s.setNextPings pings)
  | .declaring => some s.declareActiveModules
  | .declared => some s.testOffline
  | .waiting => if s.trigger then some { s with phase := .clearing } else none
  | .clearing => some { s with trigger := false, phase := .looping }
  | .finished => none

/-- `trigger.wait` ends because the update period is over. -/
def waitTimesOut (s : Announcer ρ) : Option (Announcer ρ) :=
  match s.phase with
  | .waiting => some { s with phase := .clearing }
  | _ => none

/-- The container calls `announce`: the state is set. -/
def announce (state : ServerState) (s : Announcer ρ) : Option (Announcer ρ) :=
  match s.container with
  | .ready =>
    some { s with
      serverInfo := { s.serverInfo with state := state }
      container := .announcing state }
  | _ => none

/-- The rest of `announce`: the trigger, and for `OFFLINE` the join. -/
def finishAnnounce (s : Announcer ρ) : Option (Announcer ρ) :=
  match s.container with
  | .ready => none
  | .announcing .offline => some { s with trigger := true, container := .joining }
  | .announcing _ => some { s with trigger := true, container := .ready }
  | .joining =>
    match s.phase with
    | .finished => some { s with container := .ready, offlineReturned := true }
    | _ => none

/-- What can happen next. -/
inductive Event (ρ : Type) where
  | run (bytesLeft : Int) (pings : ρ)
  | waitTimesOut
  | announce (state : ServerState)
  | finishAnnounce

def step (s : Announcer ρ) : Event ρ → Option (Announcer ρ)
  | .run bytesLeft pings => s.run bytesLeft pings
  | .waitTimesOut => s.waitTimesOut
  | .announce state => s.announce state
  | .finishAnnounce => s.finishAnnounce

/-! ## What is declared at the end -/

/-- The state that the last declaration carries. -/
def lastDeclared (s : Announcer ρ) : Option ServerState := s.declarations.head?.map (·.state)

/-- When `announce(OFFLINE)` has returned, the last declaration carries `OFFLINE`. -/
def OfflineDeclared (s : Announcer ρ) : Prop :=
  s.offlineReturned = true → s.lastDeclared = some .offline

instance (s : Announcer ρ) : Decidable s.OfflineDeclared :=
  inferInstanceAs (Decidable (_ → _))

/-- `announce(OFFLINE)` does not set the state between a declaration and the test that follows. -/
def NotBetween (s : Announcer ρ) : Event ρ → Prop
  | .announce .offline => s.phase ≠ .declared
  | _ => True

instance decidableNotBetween (s : Announcer ρ) : ∀ e, Decidable (NotBetween s e)
  | .announce .offline => inferInstanceAs (Decidable (s.phase ≠ .declared))
  | .announce .joining | .announce .online => isTrue trivial
  | .run .. | .waitTimesOut | .finishAnnounce => isTrue trivial

/-- The invariant: a thread that has declared and will find `OFFLINE` has declared `OFFLINE`, and
    the join waits for its end. -/
structure Declares (s : Announcer ρ) : Prop where
  /-- The head of the loop does not raise. -/
  bytesPerToken : s.bytesPerToken ≠ 0
  declared : s.phase = .declared → s.serverInfo.state = .offline → s.lastDeclared = some .offline
  finished : s.phase = .finished → s.lastDeclared = some .offline
  returned : s.offlineReturned = true → s.phase = .finished

/-- A step of the thread that neither declares nor ends it. -/
theorem declares_of_quiet {s s' : Announcer ρ} (hs : s.Declares) (hunfinished : s.phase ≠ .finished)
    (hbytes : s'.bytesPerToken = s.bytesPerToken)
    (hreturned : s'.offlineReturned = s.offlineReturned) (hdeclared : s'.phase ≠ .declared)
    (hfinished : s'.phase ≠ .finished) : s'.Declares where
  bytesPerToken := hbytes ▸ hs.bytesPerToken
  declared h := absurd h hdeclared
  finished h := absurd h hfinished
  returned h := absurd (hs.returned (hreturned.symm.trans h)) hunfinished

/-- What the head of the loop does if it does not raise. -/
theorem loopHead_cases {s : Announcer ρ} (hbytes : s.bytesPerToken ≠ 0) (bytesLeft : Int) :
    (s.loopHead bytesLeft).bytesPerToken = s.bytesPerToken ∧
    (s.loopHead bytesLeft).offlineReturned = s.offlineReturned ∧
    ((s.loopHead bytesLeft).phase = .pinging ∨ (s.loopHead bytesLeft).phase = .declaring) := by
  unfold loopHead
  rw [if_neg hbytes]
  dsimp only
  split
  · exact ⟨rfl, rfl, Or.inl rfl⟩
  · exact ⟨rfl, rfl, Or.inr rfl⟩

theorem run_declares {s s' : Announcer ρ} {bytesLeft : Int} {pings : ρ} (hs : s.Declares)
    (h : s.run bytesLeft pings = some s') : s'.Declares := by
  unfold run at h
  cases hphase : s.phase with
  | looping =>
    rw [hphase] at h
    obtain rfl := Option.some.inj h
    obtain ⟨hbytes, hreturned, hloop⟩ := loopHead_cases hs.bytesPerToken bytesLeft
    apply declares_of_quiet hs (by simp [hphase]) hbytes hreturned
    · rcases hloop with h | h <;> simp [h]
    · rcases hloop with h | h <;> simp [h]
  | pinging =>
    rw [hphase] at h
    obtain rfl := Option.some.inj h
    exact declares_of_quiet hs (by simp [hphase]) rfl rfl (by simp [setNextPings])
      (by simp [setNextPings])
  | declaring =>
    rw [hphase] at h
    obtain rfl := Option.some.inj h
    refine ⟨hs.bytesPerToken, fun _ hoffline => ?_, fun hfin => (nomatch hfin), fun hret => ?_⟩
    · show some s.serverInfo.state = some .offline
      exact congrArg some hoffline
    · exact absurd (hs.returned hret) (by simp [hphase])
  | declared =>
    rw [hphase] at h
    obtain rfl := Option.some.inj h
    refine ⟨hs.bytesPerToken, fun hdecl _ => ?_, fun hfin => ?_, fun hret => ?_⟩
    · unfold testOffline at hdecl
      dsimp only at hdecl
      split at hdecl <;> nomatch hdecl
    · unfold testOffline at hfin
      dsimp only at hfin
      split at hfin
      · rename_i hoffline
        exact hs.declared hphase hoffline
      · nomatch hfin
    · exact absurd (hs.returned hret) (by simp [hphase])
  | waiting =>
    simp only [hphase] at h
    split at h
    · obtain rfl := Option.some.inj h
      exact declares_of_quiet hs (by simp [hphase]) rfl rfl (by simp) (by simp)
    · nomatch h
  | clearing =>
    rw [hphase] at h
    obtain rfl := Option.some.inj h
    exact declares_of_quiet hs (by simp [hphase]) rfl rfl (by simp) (by simp)
  | finished =>
    rw [hphase] at h
    nomatch h

theorem announce_declares {s s' : Announcer ρ} {state : ServerState} (hs : s.Declares)
    (hnot : NotBetween s (.announce state)) (h : s.announce state = some s') : s'.Declares := by
  unfold announce at h
  split at h
  · obtain rfl := Option.some.inj h
    refine ⟨hs.bytesPerToken, fun hdecl hoffline => ?_, hs.finished, hs.returned⟩
    -- the state can only have become `OFFLINE` here if the thread is elsewhere
    obtain rfl : state = .offline := hoffline
    exact absurd hdecl hnot
  · nomatch h

theorem finishAnnounce_declares {s s' : Announcer ρ} (hs : s.Declares)
    (h : s.finishAnnounce = some s') : s'.Declares := by
  unfold finishAnnounce at h
  cases hcontainer : s.container with
  | ready =>
    rw [hcontainer] at h
    nomatch h
  | announcing state =>
    cases state <;>
      · rw [hcontainer] at h
        obtain rfl := Option.some.inj h
        exact ⟨hs.bytesPerToken, hs.declared, hs.finished, hs.returned⟩
  | joining =>
    simp only [hcontainer] at h
    split at h
    · rename_i hfinished
      obtain rfl := Option.some.inj h
      exact ⟨hs.bytesPerToken, hs.declared, hs.finished, fun _ => hfinished⟩
    · nomatch h

theorem step_declares {s s' : Announcer ρ} {e : Event ρ} (hs : s.Declares) (hnot : NotBetween s e)
    (h : step s e = some s') : s'.Declares := by
  cases e with
  | run bytesLeft pings => exact run_declares hs h
  | waitTimesOut =>
    change s.waitTimesOut = some s' at h
    unfold waitTimesOut at h
    split at h
    · rename_i hphase
      obtain rfl := Option.some.inj h
      exact declares_of_quiet hs (by simp [hphase]) rfl rfl (by simp) (by simp)
    · nomatch h
  | announce state => exact announce_declares hs hnot h
  | finishAnnounce => exact finishAnnounce_declares hs h

theorem new_declares (serverInfo : ServerInfo ρ) {bytesPerToken : Int}
    (hbytes : bytesPerToken ≠ 0) : (new serverInfo bytesPerToken).Declares :=
  ⟨hbytes, fun h => (nomatch h), fun h => (nomatch h), fun h => (nomatch h)⟩

/-- **Shutting down announces `OFFLINE`** if the cache of a token takes bytes, in every run in which
    no `announce(OFFLINE)` sets the state between a declaration and the test that follows it. -/
theorem run_offline_declared (serverInfo : ServerInfo ρ) (bytesPerToken : Int)
    (events : List (Event ρ)) (hbytes : bytesPerToken ≠ 0)
    (h : AllSteps step NotBetween (new serverInfo bytesPerToken) events) :
    AllStates step OfflineDeclared (new serverInfo bytesPerToken) events := by
  have hall := allStates_of_allSteps
    (fun s e s' hs hnot hstep => step_declares hs hnot hstep)
    (new_declares serverInfo hbytes) h
  apply hall.imp
  intro s hs hreturned
  exact hs.finished (hs.returned hreturned)

/-- The blocks are declared as joining, come online and are shut down during the wait. -/
theorem run_offline_declared_example :
    AllStates step OfflineDeclared (new (⟨.joining, none, none⟩ : ServerInfo Unit) 1)
      [.run 8 (), .run 8 (), .run 8 (), .announce .online, .finishAnnounce, .run 8 (),
        .announce .offline, .finishAnnounce, .run 8 (), .run 8 (), .run 8 (), .run 8 (), .run 8 (),
        .finishAnnounce] :=
  run_offline_declared _ 1 _ (by decide) (by decide)

/-- **`OFFLINE` between the declaration and the test**: the thread ends and the DHT keeps `JOINING`.
    This is `ModuleContainer.create` when it fails to load a block. -/
theorem offline_lost :
    ¬ AllStates step OfflineDeclared (new (⟨.joining, none, none⟩ : ServerInfo Unit) 1)
      [.run 8 (), .run 8 (), .run 8 (), .announce .offline, .run 8 (), .finishAnnounce,
        .finishAnnounce] := by
  decide

/-! ## The condition is exact -/

/-- Where a run stands after an `OFFLINE` that came too late for its declaration. -/
structure Late (s : Announcer ρ) : Prop where
  last : s.lastDeclared ≠ some .offline
  phase : s.phase = .declared ∧ s.serverInfo.state = .offline ∧
    (s.container = .announcing .offline ∨ s.container = .joining) ∨ s.phase = .finished

theorem step_late {s s' : Announcer ρ} {e : Event ρ} (hs : s.Late) (h : step s e = some s') :
    s'.Late := by
  rcases hs.phase with ⟨hphase, hoffline, hcontainer⟩ | hphase
  · -- the thread has its test before it; the container is inside `announce(OFFLINE)`
    cases e with
    | run bytesLeft pings =>
      simp only [step, run, hphase] at h
      obtain rfl := Option.some.inj h
      refine ⟨hs.last, Or.inr ?_⟩
      show (if s.serverInfo.state = .offline then AnnouncerPhase.finished else .waiting) = _
      rw [if_pos hoffline]
    | waitTimesOut =>
      simp only [step, waitTimesOut, hphase] at h
      nomatch h
    | announce state =>
      rcases hcontainer with hcontainer | hcontainer <;>
        · simp only [step, announce, hcontainer] at h
          nomatch h
    | finishAnnounce =>
      rcases hcontainer with hcontainer | hcontainer
      · simp only [step, finishAnnounce, hcontainer] at h
        obtain rfl := Option.some.inj h
        exact ⟨hs.last, Or.inl ⟨hphase, hoffline, Or.inr rfl⟩⟩
      · simp only [step, finishAnnounce, hcontainer, hphase] at h
        nomatch h
  · -- the thread has ended: nothing declares any more
    cases e with
    | run bytesLeft pings =>
      simp only [step, run, hphase] at h
      nomatch h
    | waitTimesOut =>
      simp only [step, waitTimesOut, hphase] at h
      nomatch h
    | announce state =>
      unfold step announce at h
      dsimp only at h
      split at h
      · obtain rfl := Option.some.inj h
        exact ⟨hs.last, Or.inr hphase⟩
      · nomatch h
    | finishAnnounce =>
      unfold step finishAnnounce at h
      dsimp only at h
      rw [hphase] at h
      dsimp only at h
      split at h
      · nomatch h
      all_goals
        obtain rfl := Option.some.inj h
        exact ⟨hs.last, Or.inr rfl⟩

/-- **The condition is exact**: once `announce(OFFLINE)` has set the state between a declaration of
    another state and the test, the last declaration is never one of `OFFLINE` again. -/
theorem announce_between_lost {s s' : Announcer ρ} (hphase : s.phase = .declared)
    (hlast : s.lastDeclared ≠ some .offline) (h : s.announce .offline = some s')
    (events : List (Event ρ)) :
    AllStates step (fun s => s.lastDeclared ≠ some .offline) s' events := by
  have hlate : s'.Late := by
    unfold announce at h
    split at h
    · obtain rfl := Option.some.inj h
      exact ⟨hlast, Or.inl ⟨hphase, rfl, Or.inl rfl⟩⟩
    · nomatch h
  have hall : AllStates step Late s' events :=
    allStates_of_step (fun s e s' hs hstep => step_late hs hstep) hlate
  exact hall.imp fun s hs => hs.last

/-- A thread that the division ends, or is about to end. -/
structure Silent (s : Announcer ρ) : Prop where
  bytesPerToken : s.bytesPerToken = 0
  phase : s.phase = .looping ∨ s.phase = .finished
  declarations : s.declarations = []

theorem step_silent {s s' : Announcer ρ} {e : Event ρ} (hs : s.Silent) (h : step s e = some s') :
    s'.Silent := by
  cases e with
  | run bytesLeft pings =>
    rcases hs.phase with hphase | hphase
    · simp only [step, run, hphase, loopHead, if_pos hs.bytesPerToken] at h
      obtain rfl := Option.some.inj h
      exact ⟨hs.bytesPerToken, Or.inr rfl, hs.declarations⟩
    · simp only [step, run, hphase] at h
      nomatch h
  | waitTimesOut =>
    rcases hs.phase with hphase | hphase <;>
      · simp only [step, waitTimesOut, hphase] at h
        nomatch h
  | announce state =>
    unfold step announce at h
    dsimp only at h
    split at h
    · obtain rfl := Option.some.inj h
      exact ⟨hs.bytesPerToken, hs.phase, hs.declarations⟩
    · nomatch h
  | finishAnnounce =>
    unfold step finishAnnounce at h
    dsimp only at h
    split at h
    · nomatch h
    · obtain rfl := Option.some.inj h
      exact ⟨hs.bytesPerToken, hs.phase, hs.declarations⟩
    · obtain rfl := Option.some.inj h
      exact ⟨hs.bytesPerToken, hs.phase, hs.declarations⟩
    · split at h
      · obtain rfl := Option.some.inj h
        exact ⟨hs.bytesPerToken, hs.phase, hs.declarations⟩
      · nomatch h

/-- **Without bytes for a token nothing is ever declared**, in any run. -/
theorem run_never_declares (serverInfo : ServerInfo ρ) (events : List (Event ρ)) :
    AllStates step (fun s => s.declarations = []) (new serverInfo 0) events := by
  have hnew : (new serverInfo 0 : Announcer ρ).Silent := ⟨rfl, Or.inl rfl, rfl⟩
  have hall : AllStates step Silent (new serverInfo 0 : Announcer ρ) events :=
    allStates_of_step (fun s e s' hs hstep => step_silent hs hstep) hnew
  exact hall.imp fun s hs => hs.declarations

end Announcer

end Drift
