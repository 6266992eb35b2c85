/-
  The server sessions of an `InferenceSession` when attempts fail.

  In every state between two attempts the server sessions, if there are any, tile the model and are
  linked in order (`Arranged`).  The loop is always in front of a block where a session begins, and
  what has been served tiles the blocks before it (`InLoop`); this is what a failure does not
  disturb, and at the end of a step it says that every block has been served once.
-/
import Drift.Client.LinkedSession

namespace Drift

open ServerInferenceSession InferenceSession

variable {σ κ α : Type} [LinearOrder κ] [Zero α]

/-! ## What is to hold -/

/-- The spans of the server sessions. -/
def spansOf (session : InferenceSession σ α) : List RemoteSpanInfo :=
  session.serverSessions.map ServerInferenceSession.span

/-- The ids of the server sessions. -/
def idsOf (session : InferenceSession σ α) : List Nat :=
  session.serverSessions.map ServerInferenceSession.sessionId

/-- **The server sessions tile the model and are linked in order**, and an id belongs to one of them
    only. -/
structure Arranged (session : InferenceSession σ α) (nextSessions : List (Option Nat)) : Prop where
  tiles : session.serverSessions ≠ [] → Tiles 0 (spansOf session) session.numBlocks
  linked : Linked (idsOf session) nextSessions
  distinct : (idsOf session).Nodup
  drawn : ∀ id ∈ idsOf session, id < session.uuids

/-- What goes in comes out, through the requests that were answered. -/
def Relays : Tensor α → List (Handoff α) → Tensor α → Prop
  | inputs, [], outputs => inputs = outputs
  | inputs, handoff :: handoffs, outputs =>
    handoff.inputs = inputs ∧ Relays handoff.outputs handoffs outputs

/-- Where an attempt begins. -/
structure InLoop (numBlocks : Nat) (args : StepArgs α) (s : LinkedStep σ κ α) : Prop where
  blocks : s.state.session.numBlocks = numBlocks
  arranged : Arranged s.state.session s.nextSessions
  idx : s.state.serverIdx ≤ s.state.session.serverSessions.length
  front : Tiles 0 ((spansOf s.state.session).take s.state.serverIdx) s.state.blockIdx
  served : Tiles 0 (s.served.map Handoff.span) s.state.blockIdx
  relays : Relays args.inputs s.served s.state.inputs

/-- What `make_sequence` returns tiles the blocks asked for. -/
def RoutesTile (attempt : StepAttempt) : Prop :=
  ∀ startIndex endIndex spans, startIndex < endIndex →
    attempt.makeSequence startIndex endIndex = .ok spans → Tiles startIndex spans endIndex

/-! ## Replacing a session -/

theorem Tiles.unique : ∀ {spans : List RemoteSpanInfo} {lo hi hi' : Nat}, Tiles lo spans hi →
    Tiles lo spans hi' → hi = hi'
  | [], _, _, _, h, h' => h.symm.trans h'
  | _ :: _, _, _, _, h, h' => h.2.2.unique h'.2.2

/-- A span of a tiling, in place of which others tile the same blocks. -/
theorem tiles_splice {spans new : List RemoteSpanInfo} {i lo mid hi : Nat} {span : RemoteSpanInfo}
    (h : Tiles lo spans hi) (hfront : Tiles lo (spans.take i) mid) (hspan : spans[i]? = some span)
    (hnew : Tiles mid new span.stop) : Tiles lo (splice i new spans) hi := by
  obtain ⟨hlt, rfl⟩ := List.getElem?_eq_some_iff.mp hspan
  rw [← List.take_append_drop i spans] at h
  obtain ⟨mid', hfront', hrest⟩ := tiles_append.mp h
  obtain rfl := hfront'.unique hfront
  rw [List.drop_eq_getElem_cons hlt] at hrest
  exact tiles_append.mpr ⟨_, tiles_append.mpr ⟨_, hfront, hnew⟩, hrest.2.2⟩

/-- Behind the front of a tiling comes the span that begins there. -/
theorem Tiles.current {spans : List RemoteSpanInfo} {i lo mid hi : Nat} (h : Tiles lo spans hi)
    (hfront : Tiles lo (spans.take i) mid) (hlt : mid < hi) :
    ∃ span, spans[i]? = some span ∧ span.start = mid ∧ span.start < span.stop := by
  rw [← List.take_append_drop i spans] at h
  obtain ⟨mid', hfront', hrest⟩ := tiles_append.mp h
  obtain rfl := hfront'.unique hfront
  cases hdrop : spans.drop i with
  | nil =>
    rw [hdrop] at hrest
    exact absurd hrest (Nat.ne_of_lt hlt)
  | cons span rest =>
    rw [hdrop] at hrest
    refine ⟨span, ?_, hrest.1, hrest.2.1⟩
    have hget : (spans.drop i)[0]? = spans[i + 0]? := List.getElem?_drop
    rw [hdrop] at hget
    exact hget.symm

omit [LinearOrder κ] [Zero α] in
/-- The session that is to run begins where the loop stands. -/
theorem exists_current {session : InferenceSession σ α} {serverIdx blockIdx hi : Nat}
    (htiles : Tiles 0 (spansOf session) hi)
    (hfront : Tiles 0 ((spansOf session).take serverIdx) blockIdx) (hlt : blockIdx < hi) :
    ∃ serverSession, session.serverSessions[serverIdx]? = some serverSession ∧
      serverSession.span.start = blockIdx ∧
      serverSession.span.start < serverSession.span.stop := by
  obtain ⟨span, hspan, hstart, hlt⟩ := htiles.current hfront hlt
  rw [spansOf, List.getElem?_map] at hspan
  obtain ⟨serverSession, hget, rfl⟩ := Option.map_eq_some_iff.mp hspan
  exact ⟨serverSession, hget, hstart, hlt⟩

section Updated

variable {servers : InferenceServers σ κ α} {session : InferenceSession σ α}
  {serverIdx blockIdx : Nat} {attempt : StepAttempt}
  {updated : List (ServerInferenceSession σ α)}

omit [LinearOrder κ] [Zero α] in
/-- New sessions have the next ids. -/
theorem enterServerSessions_ids {maxLength : Nat} : ∀ {spans : List RemoteSpanInfo} {uuid : Nat}
    {sessions : List (ServerInferenceSession σ α)},
    enterServerSessions servers maxLength uuid spans = .ok sessions →
    sessions.map ServerInferenceSession.sessionId = List.range' uuid sessions.length := by
  intro spans
  induction spans with
  | nil =>
    intro uuid sessions h
    cases h
    rfl
  | cons span spans ih =>
    intro uuid sessions h
    obtain ⟨stream, -, h⟩ := except_bind_eq_ok.mp h
    obtain ⟨rest, hrest, h⟩ := except_bind_eq_ok.mp h
    cases h
    rw [List.map_cons, ih hrest, List.length_cons, List.range'_succ]
    rfl

omit [LinearOrder κ] [Zero α] in
theorem inheritHistory_fields (failed : Option (ServerInferenceSession σ α))
    (sessions : List (ServerInferenceSession σ α)) :
    (inheritHistory failed sessions).map ServerInferenceSession.span
        = sessions.map ServerInferenceSession.span ∧
      (inheritHistory failed sessions).map ServerInferenceSession.sessionId
        = sessions.map ServerInferenceSession.sessionId := by
  cases sessions with
  | nil => exact ⟨rfl, rfl⟩
  | cons first rest => cases failed <;> exact ⟨rfl, rfl⟩

omit [LinearOrder κ] [Zero α] in
/-- The sessions that `_update_sequence` puts in, up to the end of the failed one. -/
theorem updatedSessions_spec {updateEnd : Nat} (hroutes : RoutesTile attempt)
    (hend : session.serverSessions[serverIdx]?.elim session.numBlocks (·.span.stop) = updateEnd)
    (hlt : blockIdx < updateEnd)
    (h : updatedSessions servers session serverIdx blockIdx attempt = .ok updated) :
    Tiles blockIdx (updated.map ServerInferenceSession.span) updateEnd ∧
      updated.map ServerInferenceSession.sessionId
        = List.range' session.uuids updated.length := by
  unfold updatedSessions at h
  simp only [hend] at h
  obtain ⟨spans, hspans, h⟩ := except_bind_eq_ok.mp h
  have htiles := hroutes _ _ _ hlt hspans
  obtain ⟨spans', htrim, h⟩ := except_bind_eq_ok.mp h
  have htrim' : trimLast updateEnd spans = some spans' := orRaise_eq_ok.mp htrim
  rw [trimLast_of_tiles htiles hlt] at htrim'
  obtain rfl := Option.some.inj htrim'
  obtain ⟨sessions, henter, h⟩ := except_bind_eq_ok.mp h
  obtain rfl := Except.ok.inj h
  obtain ⟨hspan, hid⟩ := inheritHistory_fields session.serverSessions[serverIdx]? sessions
  have hlength : (inheritHistory session.serverSessions[serverIdx]? sessions).length
      = sessions.length := by
    rw [← List.length_map ServerInferenceSession.span, hspan, List.length_map]
  rw [hspan, hid, hlength]
  exact ⟨(enterServerSessions_spec henter).1 ▸ htiles, enterServerSessions_ids henter⟩

omit [LinearOrder κ] [Zero α] in
/-- There is one at least, and they are new, but for the history of the first. -/
theorem updatedSessions_new
    (h : updatedSessions servers session serverIdx blockIdx attempt = .ok updated) :
    ∃ sessions, updated = inheritHistory session.serverSessions[serverIdx]? sessions ∧
      sessions ≠ [] ∧
      ∀ serverSession ∈ sessions, ∃ span uuid stream, servers.connect span = .ok stream ∧
        serverSession = .new span uuid session.maxLength stream := by
  obtain ⟨spans, -, h⟩ := except_bind_eq_ok.mp h
  obtain ⟨spans', htrim, h⟩ := except_bind_eq_ok.mp h
  obtain ⟨sessions, henter, h⟩ := except_bind_eq_ok.mp h
  obtain ⟨hspans, hnew⟩ := enterServerSessions_spec henter
  refine ⟨sessions, (Except.ok.inj h).symm, ?_, hnew⟩
  rintro rfl
  rw [← hspans] at htrim
  exact trimLast_ne_nil (orRaise_eq_ok.mp htrim) rfl

omit [LinearOrder κ] [Zero α] in
/-- Sessions can be opened at servers that can be reached. -/
theorem exists_updatedSessions {updateEnd : Nat}
    (hconnect : ∀ span, ∃ stream, servers.connect span = .ok stream) (hroutes : RoutesTile attempt)
    (hend : session.serverSessions[serverIdx]?.elim session.numBlocks (·.span.stop) = updateEnd)
    (hlt : blockIdx < updateEnd)
    (hfound : ∃ spans, attempt.makeSequence blockIdx updateEnd = .ok spans) :
    ∃ updated, updatedSessions servers session serverIdx blockIdx attempt = .ok updated := by
  have henter : ∀ (spans : List RemoteSpanInfo) (uuid : Nat), ∃ sessions,
      enterServerSessions servers session.maxLength uuid spans = .ok sessions := by
    intro spans
    induction spans with
    | nil => exact fun _ => ⟨[], rfl⟩
    | cons span spans ih =>
      intro uuid
      obtain ⟨stream, hstream⟩ := hconnect span
      obtain ⟨sessions, hsessions⟩ := ih (uuid + 1)
      exact ⟨_, except_bind_eq_ok.mpr ⟨stream, hstream,
        except_bind_eq_ok.mpr ⟨sessions, hsessions, rfl⟩⟩⟩
  obtain ⟨spans, hspans⟩ := hfound
  have htrim := trimLast_of_tiles (hroutes _ _ _ hlt hspans) hlt
  obtain ⟨sessions, hsessions⟩ := henter spans session.uuids
  refine ⟨_, except_bind_eq_ok.mpr ⟨spans, ?_, except_bind_eq_ok.mpr ⟨spans, ?_,
    except_bind_eq_ok.mpr ⟨sessions, hsessions, rfl⟩⟩⟩⟩
  · rw [hend]
    exact hspans
  · rw [hend]
    exact orRaise_eq_ok.mpr htrim

omit [LinearOrder κ] [Zero α] in
/-- A session that only gets closed is still in its place. -/
theorem fields_modify_closed (sessions : List (ServerInferenceSession σ α)) (i : Nat) :
    (sessions.modify i ({ · with closed := true })).map ServerInferenceSession.span
        = sessions.map ServerInferenceSession.span ∧
      (sessions.modify i ({ · with closed := true })).map ServerInferenceSession.sessionId
        = sessions.map ServerInferenceSession.sessionId := by
  refine ⟨map_modify_of_eq ?_ sessions i, map_modify_of_eq ?_ sessions i⟩ <;> exact fun _ => rfl

omit [LinearOrder κ] [Zero α] in
/-- The arrangement depends on the spans and the ids only. -/
theorem Arranged.congr {session session' : InferenceSession σ α} {nextSessions : List (Option Nat)}
    (h : Arranged session nextSessions) (hspans : spansOf session' = spansOf session)
    (hids : idsOf session' = idsOf session) (hblocks : session'.numBlocks = session.numBlocks)
    (huuids : session'.uuids = session.uuids) : Arranged session' nextSessions := by
  obtain ⟨htiles, hlinked, hdistinct, hdrawn⟩ := h
  refine ⟨fun hne => ?_, hids ▸ hlinked, hids ▸ hdistinct, ?_⟩
  · rw [hspans, hblocks]
    refine htiles fun hnil => hne (List.map_eq_nil_iff.mp (hspans.trans ?_))
    rw [spansOf, hnil, List.map_nil]
  · rw [hids, huuids]
    exact hdrawn

omit [LinearOrder κ] [Zero α] in
/-- The blocks that are to be served anew: those of the failed session, or all if there is none. -/
theorem updateEnd_of_tiles
    (htiles : session.serverSessions ≠ [] → Tiles 0 (spansOf session) session.numBlocks)
    (hidx : serverIdx ≤ session.serverSessions.length)
    (hfront : Tiles 0 ((spansOf session).take serverIdx) blockIdx)
    (hlt : blockIdx < session.numBlocks) :
    ∃ updateEnd,
      session.serverSessions[serverIdx]?.elim session.numBlocks (·.span.stop) = updateEnd ∧
      blockIdx < updateEnd ∧ ∀ new, Tiles blockIdx new updateEnd →
        Tiles 0 (splice serverIdx new (spansOf session)) session.numBlocks := by
  cases hsessions : session.serverSessions with
  | nil =>
    rw [hsessions, List.length_nil] at hidx
    obtain rfl := Nat.le_zero.mp hidx
    have hnone : spansOf session = [] := by
      rw [spansOf, hsessions, List.map_nil]
    rw [hnone] at hfront ⊢
    obtain rfl : 0 = blockIdx := hfront
    refine ⟨_, rfl, hlt, fun new hnew => ?_⟩
    simpa [splice] using hnew
  | cons first rest =>
    have htiles := htiles (by simp [hsessions])
    obtain ⟨serverSession, hget, hstart, hne⟩ := exists_current htiles hfront hlt
    have hspan : (spansOf session)[serverIdx]? = some serverSession.span := by
      rw [spansOf, List.getElem?_map, hget]
      rfl
    rw [← hsessions, hget]
    exact ⟨serverSession.span.stop, rfl, by omega,
      fun new hnew => tiles_splice htiles hfront hspan hnew⟩

omit [LinearOrder κ] [Zero α] in
/-- **`_update_sequence` keeps the tiling**, whether it fails or not, and what lies before the
    failed session. -/
theorem updateSequence_tiles (hroutes : RoutesTile attempt)
    (htiles : session.serverSessions ≠ [] → Tiles 0 (spansOf session) session.numBlocks)
    (hidx : serverIdx ≤ session.serverSessions.length)
    (hfront : Tiles 0 ((spansOf session).take serverIdx) blockIdx)
    (hlt : blockIdx < session.numBlocks) {session' : InferenceSession σ α} {result : Option PyExc}
    (hupdate : session.updateSequence servers serverIdx blockIdx attempt = (session', result)) :
    (∃ sessions uuids,
        session' = { session with serverSessions := sessions, uuids := uuids }) ∧
      (session'.serverSessions ≠ [] → Tiles 0 (spansOf session') session.numBlocks) ∧
      serverIdx ≤ session'.serverSessions.length ∧
      (spansOf session').take serverIdx = (spansOf session).take serverIdx ∧
      (result = none → session'.serverSessions ≠ []) := by
  unfold InferenceSession.updateSequence at hupdate
  cases hupdated : updatedSessions servers session serverIdx blockIdx attempt with
  | error exc =>
    simp only [hupdated] at hupdate
    obtain ⟨rfl, rfl⟩ := Prod.mk.inj hupdate
    have hspans := (fields_modify_closed session.serverSessions serverIdx).1
    refine ⟨⟨_, _, rfl⟩, fun hne => ?_, ?_, congrArg (List.take serverIdx) hspans,
      fun hnone => nomatch hnone⟩
    · show Tiles 0 (List.map _ (session.serverSessions.modify serverIdx _)) session.numBlocks
      rw [hspans]
      exact htiles fun hnil => hne (by simp [hnil])
    · rw [List.length_modify]
      exact hidx
  | ok updated =>
    simp only [hupdated] at hupdate
    obtain ⟨rfl, rfl⟩ := Prod.mk.inj hupdate
    obtain ⟨updateEnd, hend, hltEnd, hwhole⟩ := updateEnd_of_tiles htiles hidx hfront hlt
    obtain ⟨hnew, -⟩ := updatedSessions_spec hroutes hend hltEnd hupdated
    have hspans : (splice serverIdx updated session.serverSessions).map ServerInferenceSession.span
        = splice serverIdx (updated.map ServerInferenceSession.span) (spansOf session) :=
      map_splice ServerInferenceSession.span serverIdx updated session.serverSessions
    have hsome : 0 < updated.length := by
      refine List.length_pos_iff.mpr ?_
      rintro rfl
      exact absurd hnew (Nat.ne_of_lt hltEnd)
    have hlength : (splice serverIdx updated session.serverSessions).length = _ :=
      length_splice hidx
    refine ⟨⟨_, _, rfl⟩, fun _ => ?_, ?_, ?_, fun _ => ?_⟩
    · show Tiles 0 ((splice serverIdx updated session.serverSessions).map _) session.numBlocks
      rw [hspans]
      exact hwhole _ hnew
    · show serverIdx ≤ (splice serverIdx updated session.serverSessions).length
      omega
    · show ((splice serverIdx updated session.serverSessions).map _).take serverIdx = _
      rw [hspans, take_splice (by rw [spansOf, List.length_map]; exact hidx)]
    · show splice serverIdx updated session.serverSessions ≠ []
      refine List.length_pos_iff.mp ?_
      omega

omit [LinearOrder κ] [Zero α] in
/-- **`_update_sequence` keeps the arrangement** too. -/
theorem LinkedSession.updateSequence_spec {s : LinkedSession σ α} (hroutes : RoutesTile attempt)
    (h : Arranged s.session s.nextSessions) (hidx : serverIdx ≤ s.session.serverSessions.length)
    (hfront : Tiles 0 ((spansOf s.session).take serverIdx) blockIdx)
    (hlt : blockIdx < s.session.numBlocks) {s' : LinkedSession σ α} {result : Option PyExc}
    (hupdate : s.updateSequence servers serverIdx blockIdx attempt = (s', result)) :
    s'.session.numBlocks = s.session.numBlocks ∧ s'.session.position = s.session.position ∧
      Arranged s'.session s'.nextSessions ∧ serverIdx ≤ s'.session.serverSessions.length ∧
      (spansOf s'.session).take serverIdx = (spansOf s.session).take serverIdx ∧
      (result = none → s'.session.serverSessions ≠ []) := by
  have hsession : s.session.updateSequence servers serverIdx blockIdx attempt
      = (s'.session, result) := by
    obtain ⟨hsession, hresult⟩ :=
      LinkedSession.updateSequence_session servers s serverIdx blockIdx attempt
    rw [hupdate] at hsession hresult
    exact Prod.ext hsession.symm hresult.symm
  obtain ⟨⟨sessions, uuids, hsame⟩, htiles', hidx', hfront', hne'⟩ :=
    updateSequence_tiles hroutes h.tiles hidx hfront hlt hsession
  refine ⟨by rw [hsame], by rw [hsame], ?_, hidx', hfront', hne'⟩
  have hblocks : s'.session.numBlocks = s.session.numBlocks := by rw [hsame]
  rw [← hblocks] at htiles'
  unfold LinkedSession.updateSequence at hupdate
  unfold InferenceSession.updateSequence at hupdate
  cases hupdated : updatedSessions servers s.session serverIdx blockIdx attempt with
  | error exc =>
    simp only [hupdated] at hupdate
    obtain ⟨rfl, rfl⟩ := Prod.mk.inj hupdate
    obtain ⟨hspans, hids⟩ := fields_modify_closed s.session.serverSessions serverIdx
    exact h.congr hspans hids rfl rfl
  | ok updated =>
    simp only [hupdated] at hupdate
    obtain ⟨rfl, rfl⟩ := Prod.mk.inj hupdate
    obtain ⟨htiles, hlinked, hdistinct, hdrawn⟩ := h
    have hidxIds : serverIdx ≤ (idsOf s.session).length := by
      rw [idsOf, List.length_map]
      exact hidx
    obtain ⟨updateEnd, hend, hltEnd, -⟩ := updateEnd_of_tiles htiles hidx hfront hlt
    obtain ⟨hnew, hnewIds⟩ := updatedSessions_spec hroutes hend hltEnd hupdated
    have hsome : updated ≠ [] := by
      rintro rfl
      exact absurd hnew (Nat.ne_of_lt hltEnd)
    -- the new list, with its ids
    let spliced := splice serverIdx updated s.session.serverSessions
    have hids : spliced.map ServerInferenceSession.sessionId
        = splice serverIdx (List.range' s.session.uuids updated.length) (idsOf s.session) := by
      rw [← hnewIds]
      exact map_splice ServerInferenceSession.sessionId serverIdx updated s.session.serverSessions
    have hfresh : ∀ id ∈ List.range' s.session.uuids updated.length, id ∉ idsOf s.session := by
      intro id hid hold
      have hge := (List.mem_range'_1.mp hid).1
      have hold := hdrawn id hold
      omega
    refine ⟨htiles', ?_, ?_, ?_⟩
    · show Linked (spliced.map ServerInferenceSession.sessionId)
        (updatedLinks (spliced.map ServerInferenceSession.sessionId) serverIdx updated.length
          s.nextSessions)
      have hne : List.range' s.session.uuids updated.length ≠ [] := by
        simpa [List.range'_eq_nil_iff] using hsome
      have hlinks := linked_splice hlinked hidxIds hne
      rw [List.length_range'] at hlinks
      rw [hids]
      exact hlinks
    · show (spliced.map ServerInferenceSession.sessionId).Nodup
      rw [hids]
      exact nodup_splice hdistinct List.nodup_range' hfresh
    · show ∀ id ∈ spliced.map ServerInferenceSession.sessionId,
        id < s.session.uuids + updated.length
      rw [hids]
      intro id hid
      rcases mem_splice hid with hid | hid
      · exact (List.mem_range'_1.mp hid).2
      · exact Nat.lt_of_lt_of_le (hdrawn id hid) (Nat.le_add_right _ _)

end Updated

/-! ## An attempt -/

section Attempt

variable {numBlocks : Nat} {args : StepArgs α} {s s' : LinkedStep σ κ α} {result : Option PyExc}

omit [LinearOrder κ] [Zero α] in
theorem InLoop.current (h : InLoop numBlocks args s) (hmore : s.finished = false)
    (hne : s.state.session.serverSessions ≠ []) :
    ∃ serverSession, s.state.session.serverSessions[s.state.serverIdx]? = some serverSession ∧
      serverSession.span.start = s.state.blockIdx ∧
      serverSession.span.start < serverSession.span.stop := by
  have hlt : s.state.blockIdx < s.state.session.numBlocks :=
    Nat.lt_of_not_le (of_decide_eq_false hmore)
  exact exists_current (h.arranged.tiles hne) h.front hlt

omit [LinearOrder κ] [Zero α] in
/-- Up to the request: the sessions are still arranged, and there is one to run. -/
theorem InLoop.prepare (h : InLoop numBlocks args s) (hmore : s.finished = false)
    {attemptNo : Nat} {a : ServedAttempt σ κ α} (hroutes : RoutesTile a.attempt)
    (hprepare : s.prepare attemptNo a = (s', result)) :
    InLoop numBlocks args s' ∧ s'.finished = false ∧
      (result = none → s'.state.session.serverSessions ≠ []) := by
  have hlt : s.state.blockIdx < s.state.session.numBlocks :=
    Nat.lt_of_not_le (of_decide_eq_false hmore)
  unfold LinkedStep.prepare at hprepare
  split at hprepare
  · rcases hupdate : LinkedSession.updateSequence a.servers ⟨s.state.session, s.nextSessions⟩
      s.state.serverIdx s.state.blockIdx a.attempt with ⟨linked, result'⟩
    rw [hupdate] at hprepare
    obtain ⟨rfl, rfl⟩ := Prod.mk.inj hprepare
    obtain ⟨hblocks, -, harranged, hidx, hfront, hne⟩ :=
      LinkedSession.updateSequence_spec hroutes h.arranged h.idx h.front hlt hupdate
    refine ⟨⟨hblocks.trans h.blocks, harranged, hidx, ?_, h.served, h.relays⟩, ?_, hne⟩
    · show Tiles 0 ((spansOf linked.session).take s.state.serverIdx) s.state.blockIdx
      rw [hfront]
      exact h.front
    · refine decide_eq_false ?_
      show ¬ linked.session.numBlocks ≤ s.state.blockIdx
      rw [hblocks]
      exact Nat.not_le_of_lt hlt
  · rename_i hno
    obtain ⟨rfl, rfl⟩ := Prod.mk.inj hprepare
    exact ⟨h, hmore, fun _ hnil => hno (Or.inl (List.isEmpty_iff.mpr hnil))⟩

theorem step_sessionId (servers : InferenceServers σ κ α) (failure : Option PyExc)
    (serverSession : ServerInferenceSession σ α) (step : StepInputs κ α) :
    (serverSession.step servers failure step).1.sessionId = serverSession.sessionId := by
  have hprepare : ∀ inputs, (serverSession.prepare inputs).1.sessionId
      = serverSession.sessionId := by
    intro inputs
    unfold ServerInferenceSession.prepare
    split
    · rfl
    · cases serverSession.extendHistory inputs <;> rfl
  have hid := hprepare step.inputs
  unfold ServerInferenceSession.step
  split
  · rename_i heq
    rw [heq] at hid
    exact hid
  · rename_i inputs heq
    rw [heq] at hid
    unfold exchange
    split
    · exact hid
    · simp only
      split <;> exact hid

omit [LinearOrder κ] [Zero α] in
/-- A session that has been used is still in its place. -/
theorem fields_set {sessions : List (ServerInferenceSession σ α)} {i : Nat}
    {serverSession serverSession' : ServerInferenceSession σ α}
    (hget : sessions[i]? = some serverSession) (hspan : serverSession'.span = serverSession.span)
    (hid : serverSession'.sessionId = serverSession.sessionId) :
    (sessions.set i serverSession').map ServerInferenceSession.span
        = sessions.map ServerInferenceSession.span ∧
      (sessions.set i serverSession').map ServerInferenceSession.sessionId
        = sessions.map ServerInferenceSession.sessionId := by
  obtain ⟨hlt, rfl⟩ := List.getElem?_eq_some_iff.mp hget
  constructor
  · rw [List.map_set, hspan, ← List.map_set, List.set_getElem_self]
  · rw [List.map_set, hid, ← List.map_set, List.set_getElem_self]

omit [LinearOrder κ] [Zero α] in
/-- One more answer. -/
theorem relays_concat {handoff : Handoff α} {outputs : Tensor α} :
    ∀ {handoffs : List (Handoff α)} {inputs : Tensor α}, Relays inputs handoffs handoff.inputs →
      handoff.outputs = outputs → Relays inputs (handoffs ++ [handoff]) outputs
  | [], _, h, hout => ⟨h.symm, hout⟩
  | _ :: _, _, h, hout => ⟨h.1, relays_concat h.2 hout⟩

/-- **The request keeps the loop in its place**: an answer moves it behind the span. -/
theorem InLoop.request (h : InLoop numBlocks args s) {serverSession : ServerInferenceSession σ α}
    (hget : s.state.session.serverSessions[s.state.serverIdx]? = some serverSession)
    (hstart : serverSession.span.start = s.state.blockIdx)
    (hlt : serverSession.span.start < serverSession.span.stop) {stepId : Nat}
    {a : ServedAttempt σ κ α} (hrequest : s.request args stepId a = (s', result)) :
    InLoop numBlocks args s' := by
  obtain ⟨hblocks, harranged, hidx, hfront, hserved, hrelays⟩ := h
  unfold LinkedStep.request requestSpan at hrequest
  simp only [hget] at hrequest
  by_cases hposition : serverSession.position = s.state.session.position
  · simp only [if_pos hposition] at hrequest
    have hspan := step_span a.servers a.attempt.failure serverSession
      (spanInputs args stepId serverSession.span s.state.inputs s.state.accumulatedSharedKv)
    have hid := step_sessionId a.servers a.attempt.failure serverSession
      (spanInputs args stepId serverSession.span s.state.inputs s.state.accumulatedSharedKv)
    rcases hstep : serverSession.step a.servers a.attempt.failure
      (spanInputs args stepId serverSession.span s.state.inputs s.state.accumulatedSharedKv)
      with ⟨serverSession', exc | ⟨outputs, produced⟩⟩ <;>
      rw [hstep] at hspan hid hrequest <;> obtain ⟨hspans, hids⟩ := fields_set hget hspan hid
    · -- the request fails
      obtain ⟨rfl, rfl⟩ := Prod.mk.inj hrequest
      refine ⟨hblocks, harranged.congr hspans hids rfl rfl, ?_, ?_, hserved, hrelays⟩
      · show s.state.serverIdx ≤ (s.state.session.serverSessions.set _ _).length
        rw [List.length_set]
        exact hidx
      · show Tiles 0 (List.take _ (List.map _ _)) _
        rw [hspans]
        exact hfront
    · -- the request is answered
      obtain ⟨rfl, rfl⟩ := Prod.mk.inj hrequest
      have hlength := (List.getElem?_eq_some_iff.mp hget).1
      have hspan' : (spansOf s.state.session)[s.state.serverIdx]? = some serverSession.span := by
        rw [spansOf, List.getElem?_map, hget]
        exact rfl
      refine ⟨hblocks, harranged.congr hspans hids rfl rfl, ?_, ?_, ?_, ?_⟩
      · show s.state.serverIdx + 1 ≤ (s.state.session.serverSessions.set _ _).length
        rw [List.length_set]
        exact hlength
      · show Tiles 0 (List.take (s.state.serverIdx + 1) (List.map _ _)) serverSession'.span.stop
        rw [hspans, List.take_add_one, show List.map _ _ = spansOf s.state.session from rfl, hspan',
          hspan]
        exact tiles_concat.mpr ⟨hstart ▸ hfront, hlt, rfl⟩
      · show Tiles 0 (List.map _ (s.served ++ [_])) serverSession'.span.stop
        rw [List.map_append, hspan]
        exact tiles_concat.mpr ⟨hstart ▸ hserved, hlt, rfl⟩
      · exact relays_concat hrelays rfl
  · -- the positions differ, and nothing is sent
    simp only [if_neg hposition] at hrequest
    obtain ⟨rfl, rfl⟩ := Prod.mk.inj hrequest
    exact ⟨hblocks, harranged, hidx, hfront, hserved, hrelays⟩

/-- One attempt, whether it fails or not. -/
theorem InLoop.attempt (h : InLoop numBlocks args s) (hmore : s.finished = false)
    {stepId attemptNo : Nat} {a : ServedAttempt σ κ α} (hroutes : RoutesTile a.attempt)
    (hattempt : s.attempt args stepId attemptNo a = some (s', result)) :
    InLoop numBlocks args s' := by
  unfold LinkedStep.attempt at hattempt
  rcases hprepare : s.prepare attemptNo a with ⟨prepared, exc | _⟩
  · rw [hprepare] at hattempt
    obtain ⟨hinLoop, hmore', hne⟩ := h.prepare hmore hroutes hprepare
    obtain ⟨serverSession, hget, hstart, hlt⟩ := hinLoop.current hmore' (hne rfl)
    exact hinLoop.request hget hstart hlt (Option.some.inj hattempt)
  · rw [hprepare] at hattempt
    obtain ⟨rfl, -⟩ := Prod.mk.inj (Option.some.inj hattempt)
    exact (h.prepare hmore hroutes hprepare).1

omit [LinearOrder κ] [Zero α] in
/-- The loop never gets behind the model. -/
theorem InLoop.blockIdx_le (h : InLoop numBlocks args s) : s.state.blockIdx ≤ numBlocks := by
  rw [← h.blocks]
  by_cases hnil : s.state.session.serverSessions = []
  · have hfront := h.front
    rw [spansOf, hnil, List.map_nil, List.take_nil] at hfront
    exact hfront ▸ Nat.zero_le _
  · have htiles := h.arranged.tiles hnil
    rw [← List.take_append_drop s.state.serverIdx (spansOf s.state.session)] at htiles
    obtain ⟨mid, hfront, hrest⟩ := tiles_append.mp htiles
    rw [h.front.unique hfront]
    exact hrest.le

omit [LinearOrder κ] [Zero α] in
theorem Arranged.startStep {s : LinkedSession σ α} (h : Arranged s.session s.nextSessions) :
    InLoop s.session.numBlocks args (s.startStep args : LinkedStep σ κ α) :=
  ⟨rfl, ⟨h.tiles, h.linked, h.distinct, fun id hid => Nat.lt_succ_of_lt (h.drawn id hid)⟩,
    Nat.zero_le _, rfl, rfl, rfl⟩

end Attempt

/-! ## Every run -/

/-- What a user does with a session. -/
inductive LinkedEvent (σ κ α : Type) where
  | step (inputs : Tensor α) (prompts : Option (Tensor α)) (hypoIds : Option (List Int))
      (perLayerInputs : Option (Tensor α)) (attempts : List (ServedAttempt σ κ α))
  | rollback (start : Nat)

/-- The session after an event.  A rollback that raises ends the run. -/
def LinkedSession.perform (s : LinkedSession σ α) :
    LinkedEvent σ κ α → Option (LinkedSession σ α)
  | .step inputs prompts hypoIds perLayerInputs attempts =>
    (s.step inputs prompts hypoIds perLayerInputs attempts).map (·.1)
  | .rollback start =>
    match s.session.setPosition start with
    | .error _ => none
    | .ok session => some ⟨session, s.nextSessions⟩

/-- The routes of an event tile what they are to serve; nothing is said of failures. -/
def LinkedEvent.RoutesTile : LinkedEvent σ κ α → Prop
  | .step _ _ _ _ attempts => ∀ a ∈ attempts, Drift.RoutesTile a.attempt
  | .rollback _ => True

/-- The attempts of a step. -/
def LinkedSession.trace (s : LinkedSession σ α) (args : StepArgs α)
    (attempts : List (ServedAttempt σ κ α)) :
    List (LinkedStep σ κ α × Nat × ServedAttempt σ κ α) :=
  retryTrace LinkedStep.finished (LinkedStep.attempt args s.session.uuids) s.session.maxRetries
    attempts 0 (s.startStep args)

/-- **What is promised of a step.**  The sessions are arranged when an attempt begins and when a
    session is to run, and that session begins where the loop stands.  A step that returns has sent
    what it got through all the blocks, from one answer to the next. -/
def StepArranged (s : LinkedSession σ α) : LinkedEvent σ κ α → Prop
  | .rollback _ => True
  | .step inputs prompts hypoIds perLayerInputs attempts =>
    ∀ args, s.session.checkStep inputs prompts hypoIds perLayerInputs = .ok args →
      (∀ entry ∈ s.trace args attempts,
        Arranged entry.1.state.session entry.1.nextSessions ∧
        ∀ prepared, entry.1.prepare entry.2.1 entry.2.2 = (prepared, none) →
          Arranged prepared.state.session prepared.nextSessions ∧
          ∃ serverSession,
            prepared.state.session.serverSessions[prepared.state.serverIdx]? = some serverSession ∧
            serverSession.span.start = prepared.state.blockIdx) ∧
      ∀ final, s.loop args attempts = some (final, none) →
        Tiles 0 (final.served.map Handoff.span) s.session.numBlocks ∧
        Relays args.inputs final.served final.state.inputs

section Runs

variable {s s' : LinkedSession σ α}

/-- Where the loop of a step ends. -/
theorem Arranged.loop (h : Arranged s.session s.nextSessions) {args : StepArgs α}
    {attempts : List (ServedAttempt σ κ α)} (hroutes : ∀ a ∈ attempts, RoutesTile a.attempt)
    {final : LinkedStep σ κ α} {result : Option PyExc}
    (hloop : s.loop args attempts = some (final, result)) :
    InLoop s.session.numBlocks args final ∧ (result = none → final.finished = true) :=
  retryLoop_invariant LinkedStep.finished (LinkedStep.attempt args s.session.uuids)
    (InLoop s.session.numBlocks args) (Q := fun a => RoutesTile a.attempt)
    (fun _ _ _ _ _ hinv hmore hroute hattempt => hinv.attempt hmore hroute hattempt) hroutes
    h.startStep hloop

/-- A step, whatever fails in it. -/
theorem Arranged.stepArranged (h : Arranged s.session s.nextSessions) (event : LinkedEvent σ κ α)
    (hroutes : event.RoutesTile) : StepArranged s event := by
  cases event with
  | rollback start => trivial
  | step inputs prompts hypoIds perLayerInputs attempts =>
    intro args _
    constructor
    · intro entry hentry
      obtain ⟨hinv, hmore, hroute⟩ := retryTrace_invariant LinkedStep.finished
        (LinkedStep.attempt args s.session.uuids) (InLoop s.session.numBlocks args)
        (fun _ _ _ _ _ hinv hmore hroute hattempt => hinv.attempt hmore hroute hattempt) hroutes
        h.startStep entry hentry
      refine ⟨hinv.arranged, fun prepared hprepare => ?_⟩
      obtain ⟨hinv', hmore', hne⟩ := hinv.prepare hmore hroute hprepare
      obtain ⟨serverSession, hget, hstart, -⟩ := hinv'.current hmore' (hne rfl)
      exact ⟨hinv'.arranged, serverSession, hget, hstart⟩
    · intro final hloop
      obtain ⟨hinv, hdone⟩ := h.loop hroutes hloop
      have hend : final.state.blockIdx = s.session.numBlocks := by
        have hle := hinv.blockIdx_le
        have hge : final.state.session.numBlocks ≤ final.state.blockIdx :=
          of_decide_eq_true (hdone rfl)
        rw [hinv.blocks] at hge
        omega
      exact ⟨hend ▸ hinv.served, hinv.relays⟩

theorem Arranged.perform (h : Arranged s.session s.nextSessions) (event : LinkedEvent σ κ α)
    (hroutes : event.RoutesTile) (hperform : s.perform event = some s') :
    Arranged s'.session s'.nextSessions := by
  cases event with
  | rollback start =>
    simp only [LinkedSession.perform] at hperform
    cases hset : s.session.setPosition start with
    | error exc =>
      rw [hset] at hperform
      nomatch hperform
    | ok session =>
      rw [hset] at hperform
      obtain rfl := Option.some.inj hperform
      obtain ⟨serverSessions, hsessions, hset⟩ := except_bind_eq_ok.mp hset
      obtain rfl := Except.ok.inj hset
      exact h.congr
        (map_eq_of_mapM (fun _ _ hset => (ServerInferenceSession.setPosition_fields hset).1) hsessions)
        (map_eq_of_mapM (fun _ _ hset => (ServerInferenceSession.setPosition_fields hset).2) hsessions)
        rfl rfl
  | step inputs prompts hypoIds perLayerInputs attempts =>
    obtain ⟨⟨s'', outcome⟩, hstep, rfl⟩ := Option.map_eq_some_iff.mp hperform
    unfold LinkedSession.step at hstep
    split at hstep
    · obtain ⟨rfl, -⟩ := Prod.mk.inj (Option.some.inj hstep)
      exact h
    · split at hstep
      · nomatch hstep
      · rename_i hloop
        obtain ⟨rfl, -⟩ := Prod.mk.inj (Option.some.inj hstep)
        exact (h.loop hroutes hloop).1.arranged
      · rename_i hloop
        obtain ⟨rfl, -⟩ := Prod.mk.inj (Option.some.inj hstep)
        exact (h.loop hroutes hloop).1.arranged.congr rfl rfl rfl rfl

omit [LinearOrder κ] [Zero α] in
theorem arranged_new (numBlocks : Nat) (maxRetries : Option Nat) (maxLength : Nat) :
    Arranged (LinkedSession.new σ α numBlocks maxRetries maxLength).session [] :=
  ⟨fun hne => absurd rfl hne, ⟨rfl, fun _ hi => absurd hi (Nat.not_lt_zero _)⟩, List.nodup_nil,
    fun _ hid => nomatch hid⟩

/-- **In every run**, whatever fails: between the calls the server sessions tile the model and are
    linked in order, and every step keeps what is promised of it. -/
theorem run_arranged (numBlocks : Nat) (maxRetries : Option Nat) (maxLength : Nat)
    (events : List (LinkedEvent σ κ α)) (hroutes : ∀ event ∈ events, event.RoutesTile) :
    AllStates LinkedSession.perform (fun s => Arranged s.session s.nextSessions)
        (.new σ α numBlocks maxRetries maxLength) events ∧
      AllSteps LinkedSession.perform StepArranged (.new σ α numBlocks maxRetries maxLength)
        events := by
  have hnew := arranged_new (σ := σ) (α := α) numBlocks maxRetries maxLength
  have hall : AllSteps (LinkedSession.perform (κ := κ)) (fun _ event => event.RoutesTile)
      (.new σ α numBlocks maxRetries maxLength) events :=
    allSteps_of_forall_mem (fun event hmem _ => hroutes event hmem) _
  constructor
  · exact allStates_of_allSteps (fun s event s' h hroute hs' => h.perform event hroute hs') hnew hall
  · exact allSteps_of_allSteps (P := fun s : LinkedSession σ α => Arranged s.session s.nextSessions)
      (fun s event h hroute =>
        ⟨h.stepArranged event hroute, fun s' hs' => h.perform event hroute hs'⟩) hnew hall

end Runs

/-- Servers that return what they get. -/
def loopbackServers : InferenceServers Unit Nat Int where
  connect _ := .ok ()
  answer _ request :=
    match request.tensors with
    | .floating inputs :: _ => .ok (⟨[inputs], []⟩, ())
    | _ => .error .typeError

/-- A path through a model of two blocks; it is the only one that is found. -/
def pathAttempt (spansContainingBlock : List (List RemoteSpanInfo)) (nodes : List RouteNode)
    (failure : Option PyExc) : StepAttempt where
  spansContainingBlock := spansContainingBlock
  findPath startIndex endIndex :=
    if startIndex = 0 ∧ endIndex = 2 then .ok nodes else .error (.missingBlocks [])
  failure := failure

theorem pathAttempt_routesTile {table : List (List RemoteSpanInfo)} {nodes : List RouteNode}
    (failure : Option PyExc) (h : IsPath table 0 2 nodes) :
    RoutesTile (pathAttempt table nodes failure) := by
  intro startIndex endIndex spans _ hspans
  refine StepAttempt.makeSequence_tiles (fun startIndex endIndex nodes' hfound => ?_) hspans
  simp only [pathAttempt] at hfound
  split at hfound
  · rename_i hends
    obtain ⟨rfl, rfl⟩ := hends
    obtain rfl := Except.ok.inj hfound
    exact h
  · nomatch hfound

/-- The server of both blocks fails, and two others take its place. -/
theorem run_arranged_two :
    let one : RemoteSpanInfo := ⟨0, 0, 2⟩
    let first : RemoteSpanInfo := ⟨1, 0, 1⟩
    let second : RemoteSpanInfo := ⟨2, 1, 2⟩
    let failing := pathAttempt [[one], [one]] [(0, 0), (0, 1), (0, 2)] (some .requestFailed)
    let working := pathAttempt [[first], [second]] [(1, 0), (1, 1), (2, 1), (2, 2)] none
    let events : List (LinkedEvent Unit Nat Int) :=
      [.step (Tensor.ofFn [1, 1, 1] fun _ => 7) none none none
        [⟨loopbackServers, failing⟩, ⟨loopbackServers, working⟩, ⟨loopbackServers, working⟩]]
    AllStates LinkedSession.perform (fun s => Arranged s.session s.nextSessions)
        (.new Unit Int 2 none 4) events ∧
      AllSteps LinkedSession.perform StepArranged (.new Unit Int 2 none 4) events := by
  intro one first second failing working events
  have hone : ∀ b < 2, one ∈ [[one], [one]].getD b [] := by decide
  have htwo : first ∈ [[first], [second]].getD 0 [] ∧ second ∈ [[first], [second]].getD 1 [] := by
    decide
  have hcompute : GraphEdge [[one], [one]] 0 2 (0, 0) (0, 1) :=
    GraphEdge.compute (by decide) (by decide) (hone 0 (by decide))
  have hcompute' : GraphEdge [[one], [one]] 0 2 (0, 1) (0, 2) :=
    GraphEdge.compute (by decide) (by decide) (hone 1 (by decide))
  have hfirst : GraphEdge [[first], [second]] 0 2 (1, 0) (1, 1) :=
    GraphEdge.compute (by decide) (by decide) htwo.1
  have hswitch : GraphEdge [[first], [second]] 0 2 (1, 1) (2, 1) :=
    GraphEdge.switch (by decide) (by decide) htwo.1 rfl htwo.2
  have hsecond : GraphEdge [[first], [second]] 0 2 (2, 1) (2, 2) :=
    GraphEdge.compute (by decide) (by decide) htwo.2
  have hfailing : RoutesTile failing := pathAttempt_routesTile _
    ⟨⟨0, rfl⟩, ⟨0, rfl⟩, .cons_cons hcompute (.cons_cons hcompute' (.singleton _))⟩
  have hworking : RoutesTile working := pathAttempt_routesTile _
    ⟨⟨1, rfl⟩, ⟨2, rfl⟩, .cons_cons hfirst (.cons_cons hswitch (.cons_cons hsecond (.singleton _)))⟩
  refine run_arranged 2 none 4 events fun event hmem => ?_
  obtain rfl := List.mem_singleton.mp hmem
  intro a ha
  simp only [List.mem_cons, List.not_mem_nil, or_false] at ha
  rcases ha with rfl | rfl | rfl
  · exact hfailing
  · exact hworking
  · exact hworking

end Drift
