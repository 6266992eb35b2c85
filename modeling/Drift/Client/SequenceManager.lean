/-
  `RemoteSequenceInfo` of `client/routing/sequence_info.py` and the methods of
  `RemoteSequenceManager` in `client/routing/sequence_manager.py` that change it.

  The servers of a block stand in a `RemoteModuleInfo` object, and a slice of a manager has the same
  objects as the manager that it is cut from.  The span tables are each manager's own.  They are
  sorted when the manager is made and when its update is completed; a failure takes the peer out of
  the objects only.  So does an update of one manager with what the others' tables are made of.

  The infos of an update are an argument, whatever the bans and the allowed servers make of them:
  `get_remote_module_infos` supplies one for each block asked for.  An update that a failure
  triggers is an event of its own.
-/
import Drift.Client.Routes

namespace Drift

/-- `RemoteModuleInfo.servers`.  The object keeps the uid of its block. -/
abbrev BlockServers := AList fun _ : Nat => Dht.ServerInfo Nat

/-- `RemoteModuleInfo`s for blocks, each given by its uid and its object. -/
def blockInfosOf (servers : List BlockServers) (blocks : List (Nat × Nat)) :
    List (Dht.RemoteModuleInfo Nat) :=
  blocks.map fun block => ⟨block.1, servers.getD block.2 ∅⟩

/-- `RemoteSequenceInfo`: `block_uids` with the addresses of `block_infos`, and what `_sort_spans`
    was given last, of which `spans_by_priority` and `spans_containing_block` are made. -/
structure RemoteSequenceInfo where
  blocks : List (Nat × Nat)
  sorted : List (Dht.RemoteModuleInfo Nat)

/-- The addresses of `block_infos`. -/
def RemoteSequenceInfo.addresses (info : RemoteSequenceInfo) : List Nat := info.blocks.map (·.2)

/-- The objects that managers share, and the managers.  `failed` is not in the source: the blocks
    and the peers of `on_request_failure` since an update was completed. -/
structure SequenceManagers where
  servers : List BlockServers
  managers : List RemoteSequenceInfo
  failed : List (Nat × Nat)

/-- `RemoteSequenceInfo.make_empty`. -/
def SequenceManagers.new (blockUids : List Nat) : SequenceManagers where
  servers := blockUids.map fun _ => ∅
  managers := [⟨blockUids.zipIdx, blockUids.map fun uid => ⟨uid, ∅⟩⟩]
  failed := []

/-- The loop of `update_`. -/
def assignServers : List (Nat × Nat) → List (Dht.RemoteModuleInfo Nat) → List BlockServers →
    Except PyExc (List BlockServers)
  | (uid, address) :: blocks, info :: infos, servers =>
    if uid = info.uid then assignServers blocks infos (servers.set address info.servers)
    else .error (.assertionError s!"The DHT entry for {uid} actually points to {info.uid}")
  | _, _, servers => .ok servers

/-- `update_`. -/
def RemoteSequenceInfo.update (info : RemoteSequenceInfo)
    (newBlockInfos : List (Dht.RemoteModuleInfo Nat)) (servers : List BlockServers) :
    Except PyExc (RemoteSequenceInfo × List BlockServers) :=
  if newBlockInfos.length = info.blocks.length then do
    let servers ← assignServers info.blocks newBlockInfos servers
    .ok ({ info with sorted := blockInfosOf servers info.blocks }, servers)
  else .error (.assertionError "")

/-- `info.servers.pop(peer_id, None)` for all blocks. -/
def popServers (peerId : Nat) (addresses : List Nat) (servers : List BlockServers) :
    List BlockServers :=
  addresses.foldl (fun servers address => servers.modify address (·.erase peerId)) servers

/-- The index of a manager. -/
inductive ManagerIndex where
  | int (i : Int)
  | slice (ix : PySlice)

/-- `slice(int(ix), int(ix) + 1, 1)`. -/
def ManagerIndex.toSlice : ManagerIndex → PySlice
  | .int i => ⟨some i, some (i + 1), some 1⟩
  | .slice ix => ix

/-- `RemoteSequenceInfo.__getitem__`.  The blocks keep their objects, the spans are sorted anew. -/
def RemoteSequenceInfo.slice (info : RemoteSequenceInfo) (ix : PySlice)
    (servers : List BlockServers) : Except PyExc RemoteSequenceInfo := do
  let indices ← ix.indices info.blocks.length
  let blocks := indices.filterMap fun i => info.blocks[i]?
  .ok ⟨blocks, blockInfosOf servers blocks⟩

/-- `RemoteSequenceManager.__getitem__`.  The manager that is made has to have a block. -/
def RemoteSequenceInfo.getitem (info : RemoteSequenceInfo) (ix : ManagerIndex)
    (servers : List BlockServers) : Except PyExc RemoteSequenceInfo := do
  let slice ← info.slice ix.toSlice servers
  if 0 < slice.blocks.length then .ok slice
  else .error (.assertionError "Sequences must contain at least one block")

/-- What happens to one of the managers. -/
inductive ManagerEvent where
  | update (newBlockInfos : List (Dht.RemoteModuleInfo Nat))
  | onRequestFailure (peerId : Option Nat)
  | getitem (ix : ManagerIndex)

/-- One event.  An update that raises is not completed: there is a manager and an info for each of
    its blocks. -/
def SequenceManagers.step (s : SequenceManagers) (event : Nat × ManagerEvent) :
    Option SequenceManagers :=
  s.managers[event.1]?.bind fun info =>
    match event.2 with
    | .update newBlockInfos =>
      match info.update newBlockInfos s.servers with
      | .ok (info, servers) => some ⟨servers, s.managers.set event.1 info, []⟩
      | .error _ => none
    -- `None` is a key of no dict
    | .onRequestFailure none => some s
    | .onRequestFailure (some peerId) =>
      some { s with
        servers := popServers peerId info.addresses s.servers
        failed := s.failed ++ info.addresses.map fun address => (address, peerId) }
    | .getitem ix =>
      match info.getitem ix s.servers with
      | .ok slice => some { s with managers := s.managers ++ [slice] }
      | .error _ => some s

/-! ## What the operations do to the objects -/

/-- An update that does not raise assigns to every block its new servers. -/
theorem assignServers_spec : ∀ {blocks : List (Nat × Nat)} {infos : List (Dht.RemoteModuleInfo Nat)}
    {servers servers' : List BlockServers}, infos.length = blocks.length →
    (blocks.map (·.2)).Nodup → (∀ address ∈ blocks.map (·.2), address < servers.length) →
    assignServers blocks infos servers = .ok servers' →
    servers'.length = servers.length ∧ blockInfosOf servers' blocks = infos ∧
      ∀ address ∉ blocks.map (·.2), servers'.getD address ∅ = servers.getD address ∅ := by
  intro blocks
  induction blocks with
  | nil =>
    intro infos servers servers' hlength _ _ h
    obtain rfl := List.length_eq_zero_iff.mp hlength
    obtain rfl := Except.ok.inj h
    exact ⟨rfl, rfl, fun _ _ => rfl⟩
  | cons block blocks ih =>
    intro infos servers servers' hlength hnodup hlt h
    obtain ⟨uid, address⟩ := block
    cases infos with
    | nil => nomatch hlength
    | cons info infos =>
      obtain ⟨hnotin, hnodup⟩ := List.nodup_cons.mp hnodup
      rw [assignServers] at h
      split at h
      case isFalse => nomatch h
      rename_i huid
      obtain ⟨hcount, hinfos, hother⟩ := ih (Nat.succ.inj hlength) hnodup
        (fun a ha => by rw [List.length_set]; exact hlt a (List.mem_cons_of_mem _ ha)) h
      have hhead : servers'.getD address ∅ = info.servers := by
        rw [hother address hnotin, List.getD_eq_getElem?_getD,
          List.getElem?_set_self (hlt address List.mem_cons_self)]
        exact rfl
      refine ⟨hcount.trans List.length_set, ?_, fun a ha => ?_⟩
      · show (⟨uid, servers'.getD address ∅⟩ : Dht.RemoteModuleInfo Nat)
            :: blockInfosOf servers' blocks = info :: infos
        rw [hhead, hinfos, huid]
      · obtain ⟨hne, ha⟩ := not_or.mp (fun hmem => ha (List.mem_cons.mpr hmem))
        rw [hother a ha, List.getD_eq_getElem?_getD, List.getElem?_set_ne (Ne.symm hne),
          List.getD_eq_getElem?_getD]

theorem assignServers_uids : ∀ {blocks : List (Nat × Nat)}
    {infos : List (Dht.RemoteModuleInfo Nat)} {servers : List BlockServers},
    infos.length = blocks.length →
    ((∃ servers', assignServers blocks infos servers = .ok servers') ↔
      infos.map (·.uid) = blocks.map (·.1)) := by
  intro blocks
  induction blocks with
  | nil =>
    intro infos servers hlength
    obtain rfl := List.length_eq_zero_iff.mp hlength
    exact iff_of_true ⟨servers, rfl⟩ rfl
  | cons block blocks ih =>
    intro infos servers hlength
    obtain ⟨uid, address⟩ := block
    cases infos with
    | nil => nomatch hlength
    | cons info infos =>
      rw [assignServers, List.map_cons, List.map_cons, List.cons.injEq]
      by_cases huid : uid = info.uid
      · rw [if_pos huid, ih (Nat.succ.inj hlength)]
        exact (and_iff_right huid.symm).symm
      · rw [if_neg huid]
        refine iff_of_false ?_ fun h => huid h.1.symm
        rintro ⟨_, h⟩
        nomatch h

/-- A failure takes the peer out of the objects of the manager's blocks. -/
theorem getD_popServers (peerId address : Nat) : ∀ {addresses : List Nat}
    {servers : List BlockServers}, addresses.Nodup → (∀ a ∈ addresses, a < servers.length) →
    (popServers peerId addresses servers).getD address ∅
      = if address ∈ addresses then (servers.getD address ∅).erase peerId
        else servers.getD address ∅ := by
  intro addresses
  induction addresses with
  | nil => exact fun _ _ => rfl
  | cons first addresses ih =>
    intro servers hnodup hlt
    obtain ⟨hnotin, hnodup⟩ := List.nodup_cons.mp hnodup
    have hrest := @ih (servers.modify first (·.erase peerId)) hnodup
      (fun a ha => by rw [List.length_modify]; exact hlt a (List.mem_cons_of_mem _ ha))
    rw [popServers, List.foldl_cons]
    refine hrest.trans ?_
    by_cases heq : address = first
    · subst heq
      rw [if_neg hnotin, if_pos List.mem_cons_self, List.getD_eq_getElem?_getD,
        List.getElem?_modify_eq, List.getD_eq_getElem?_getD,
        List.getElem?_eq_getElem (hlt address List.mem_cons_self)]
      exact rfl
    · have hsame : (servers.modify first (·.erase peerId)).getD address ∅
          = servers.getD address ∅ := by
        rw [List.getD_eq_getElem?_getD, List.getElem?_modify_ne _ _ (Ne.symm heq),
          List.getD_eq_getElem?_getD]
      rw [hsame]
      simp only [List.mem_cons, heq, false_or]

theorem length_popServers (peerId : Nat) (addresses : List Nat)
    (servers : List BlockServers) :
    (popServers peerId addresses servers).length = servers.length := by
  rw [popServers]
  induction addresses generalizing servers with
  | nil => rfl
  | cons address addresses ih => rw [List.foldl_cons, ih, List.length_modify]

/-- A slice has some of the blocks, none of them twice. -/
theorem getitem_spec {info slice : RemoteSequenceInfo} {ix : ManagerIndex}
    {servers : List BlockServers} (h : info.getitem ix servers = .ok slice)
    (hnodup : info.addresses.Nodup) :
    slice.sorted = blockInfosOf servers slice.blocks ∧ slice.addresses.Nodup ∧
      ∀ address ∈ slice.addresses, address ∈ info.addresses := by
  obtain ⟨sliced, hslice, h⟩ := except_bind_eq_ok.mp h
  split at h
  case isFalse => nomatch h
  obtain rfl := Except.ok.inj h
  obtain ⟨indices, hindices, hsliced⟩ := except_bind_eq_ok.mp hslice
  obtain rfl := Except.ok.inj hsliced
  have haddresses : (indices.filterMap fun i => info.blocks[i]?).map (·.2)
      = indices.filterMap fun i => info.addresses[i]? := by
    rw [List.map_filterMap]
    congr 1
    funext i
    rw [RemoteSequenceInfo.addresses, List.getElem?_map]
  refine ⟨rfl, ?_, fun address hmem => ?_⟩
  · rw [RemoteSequenceInfo.addresses, haddresses]
    refine (PySlice.nodup_indices hindices).filterMap fun i j address hi hj => ?_
    exact (List.getElem?_inj (List.getElem?_eq_some_iff.mp hi).1 hnodup).mp (hi.trans hj.symm)
  · rw [RemoteSequenceInfo.addresses, haddresses] at hmem
    obtain ⟨i, -, hi⟩ := List.mem_filterMap.mp hmem
    exact List.mem_of_getElem? hi

end Drift
