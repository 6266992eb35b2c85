/-
  `get_remote_module_infos` of `utils/dht.py`: what a client or a server reads from the DHT about
  the servers of the blocks.

  Under the uid of a block everyone may store what he likes, as an entry of his own.  An entry
  counts if its key is a peer id and its value passes the validation of `ServerInfo`; one that
  raises `TypeError` or `ValueError` is skipped, and so is a server without the adapter that is
  asked for.

  So of the honest entries nothing is lost, and whatever is listed was stored
  (`mem_getRemoteModuleInfos`).  What the proofs use of the records is where a server claims to be:
  `Dht.Truthful` says that it hosts the blocks at which it is listed as online and those that its
  record announces, and then the spans that `compute_spans` makes of the records lie where the
  servers are (`Dht.lookup_computeSpans_truthful`), whichever of the records are there.
-/
import Drift.Lib.Effect
import Drift.Utils.Dht
import Mathlib.Order.WithBot

namespace Drift.Dht

/-! ## The source -/

/-- A `ServerInfo` with `adapters`, which only the reader of the records looks at. -/
structure DeclaredInfo (P : Type) where
  serverInfo : ServerInfo P
  adapters : List String

/-- The value under a uid: a dict of subkeys and values, or something else. -/
inductive Metadata (S V : Type) where
  | dict (entries : List (S × V))
  | other

/-- A DHT, by what other packages do: `node.get_many` for one uid at an expiration time,
    `get_dht_time`, `PeerID.from_base58`, and the validation of pydantic in
    `ServerInfo.from_tuple`. -/
structure Node (S V P : Type) where
  get : WithTop ℚ → Nat → Option (Metadata S V)
  dhtTime : ℚ
  fromBase58 : S → Except PyExc P
  fromTuple : V → Except PyExc (DeclaredInfo P)

variable {S V P : Type} [DecidableEq P]

/-- The peer id and the info of an entry. -/
def Node.readEntry (node : Node S V P) (entry : S × V) : Except PyExc (P × DeclaredInfo P) := do
  let peerId ← node.fromBase58 entry.1
  let declared ← node.fromTuple entry.2
  .ok (peerId, declared)

/-- `active_adapter and active_adapter not in server_info.adapters`. -/
def lacksAdapter (activeAdapter : Option String) (declared : DeclaredInfo P) : Bool :=
  match activeAdapter with
  | none => false
  | some adapter => adapter ≠ "" && !declared.adapters.contains adapter

/-- The body of the inner loop of `_get_remote_module_infos`. -/
def Node.addServer (node : Node S V P) (activeAdapter : Option String)
    (servers : AList fun _ : P => ServerInfo P) (entry : S × V) :
    Except PyExc (AList fun _ : P => ServerInfo P) :=
  match node.readEntry entry with
  | .ok (peerId, declared) =>
    if lacksAdapter activeAdapter declared then .ok servers
    else .ok (servers.insert peerId declared.serverInfo)
  | .error .typeError => .ok servers
  | .error (.valueError _) => .ok servers
  | .error exc => .error exc

/-- `metadata.value.items()`; a block without a dict is skipped. -/
def Metadata.items : Option (Metadata S V) → List (S × V)
  | some (.dict entries) => entries
  | _ => []

/-- The time that the values have to be valid at. -/
def Node.readTime (node : Node S V P) (expirationTime : Option (WithTop ℚ)) (latest : Bool) :
    WithTop ℚ :=
  if latest then ⊤ else expirationTime.getD node.dhtTime

/-- `_get_remote_module_infos`. -/
def Node.getRemoteModuleInfos (node : Node S V P) (uids : List Nat) (activeAdapter : Option String)
    (expirationTime : Option (WithTop ℚ)) (latest : Bool) :
    Except PyExc (List (RemoteModuleInfo P)) :=
  if latest ∧ expirationTime ≠ none then
    .error (.assertionError "You should define either `expiration_time` or `latest`, not both")
  else
    uids.mapM fun uid => do
      let metadata := node.get (node.readTime expirationTime latest) uid
      let servers ← (Metadata.items metadata).foldlM (node.addServer activeAdapter) ∅
      .ok ⟨uid, servers⟩

/-! ## Which servers are listed -/

section Reading

variable {node : Node S V P} {activeAdapter : Option String}

/-- An entry that counts. -/
def Node.Declares (node : Node S V P) (activeAdapter : Option String) (entry : S × V) (peerId : P)
    (serverInfo : ServerInfo P) : Prop :=
  ∃ declared, node.readEntry entry = .ok (peerId, declared) ∧
    lacksAdapter activeAdapter declared = false ∧ declared.serverInfo = serverInfo

/-- One entry: it is listed, or nothing changes. -/
theorem Node.addServer_cases {servers servers' : AList fun _ : P => ServerInfo P} {entry : S × V}
    (h : node.addServer activeAdapter servers entry = .ok servers') :
    (∃ peerId serverInfo, node.Declares activeAdapter entry peerId serverInfo ∧
      servers' = servers.insert peerId serverInfo) ∨
    ((∀ peerId serverInfo, ¬ node.Declares activeAdapter entry peerId serverInfo) ∧
      servers' = servers) := by
  have hskip : ∀ exc, node.readEntry entry = .error exc →
      .ok servers = Except.ok (ε := PyExc) servers' →
      ((∀ peerId serverInfo, ¬ node.Declares activeAdapter entry peerId serverInfo) ∧
        servers' = servers) := by
    intro exc hread hsame
    refine ⟨?_, (Except.ok.inj hsame).symm⟩
    rintro peerId serverInfo ⟨declared, hdeclared, -⟩
    rw [hread] at hdeclared
    cases hdeclared
  unfold addServer at h
  split at h
  · rename_i peerId declared hread
    split at h
    · rename_i hlacks
      right
      refine ⟨?_, (Except.ok.inj h).symm⟩
      rintro peerId' serverInfo ⟨declared', hdeclared, hhas, -⟩
      obtain ⟨rfl, rfl⟩ := Prod.mk.inj (Except.ok.inj (hread.symm.trans hdeclared))
      rw [hlacks] at hhas
      cases hhas
    · rename_i hhas
      left
      exact ⟨peerId, declared.serverInfo, ⟨declared, hread, Bool.eq_false_iff.mpr hhas, rfl⟩,
        (Except.ok.inj h).symm⟩
  · rename_i hread
    exact .inr (hskip _ hread h)
  · rename_i hread
    exact .inr (hskip _ hread h)
  · cases h

/-- **The entries of a block**, read one after the other: a server that is listed has declared it,
    and one that has declared something is listed. -/
theorem Node.foldlM_addServer : ∀ {entries : List (S × V)}
    {servers servers' : AList fun _ : P => ServerInfo P},
    entries.foldlM (node.addServer activeAdapter) servers = .ok servers' →
    (∀ peerId serverInfo, servers'.lookup peerId = some serverInfo →
      servers.lookup peerId = some serverInfo ∨
        ∃ entry ∈ entries, node.Declares activeAdapter entry peerId serverInfo) ∧
    (∀ peerId, peerId ∈ servers ∨ (∃ entry ∈ entries, ∃ serverInfo,
      node.Declares activeAdapter entry peerId serverInfo) → peerId ∈ servers') := by
  intro entries
  induction entries with
  | nil =>
    intro servers servers' h
    cases h
    refine ⟨fun _ _ hlookup => .inl hlookup, fun peerId hmem => ?_⟩
    rcases hmem with hmem | ⟨_, hnone, -⟩
    · exact hmem
    · cases hnone
  | cons entry entries ih =>
    intro servers servers' h
    rw [List.foldlM_cons] at h
    obtain ⟨middle, hentry, hrest⟩ := except_bind_eq_ok.mp h
    obtain ⟨hlisted, hkept⟩ := ih hrest
    rcases addServer_cases hentry with ⟨declarer, info, hdeclares, rfl⟩ | ⟨hnone, rfl⟩
    · refine ⟨fun peerId serverInfo hlookup => ?_, fun peerId hmem => hkept peerId ?_⟩
      · rcases hlisted peerId serverInfo hlookup with hbefore | ⟨later, hlater, hdeclares'⟩
        · by_cases hpeer : peerId = declarer
          · subst hpeer
            rw [AList.lookup_insert] at hbefore
            cases hbefore
            exact .inr ⟨entry, List.mem_cons_self, hdeclares⟩
          · rw [AList.lookup_insert_ne hpeer] at hbefore
            exact .inl hbefore
        · exact .inr ⟨later, List.mem_cons_of_mem _ hlater, hdeclares'⟩
      · rw [AList.mem_insert]
        rcases hmem with hmem | ⟨other, hother, serverInfo, hdeclares'⟩
        · exact .inl (.inr hmem)
        · rcases List.mem_cons.mp hother with rfl | hother
          · -- an entry has one peer id
            obtain ⟨declared, hread, -⟩ := hdeclares
            obtain ⟨declared', hread', -⟩ := hdeclares'
            obtain ⟨rfl, -⟩ := Prod.mk.inj (Except.ok.inj (hread.symm.trans hread'))
            exact .inl (.inl rfl)
          · exact .inr ⟨other, hother, serverInfo, hdeclares'⟩
    · refine ⟨fun peerId serverInfo hlookup => ?_, fun peerId hmem => hkept peerId ?_⟩
      · rcases hlisted peerId serverInfo hlookup with hbefore | ⟨later, hlater, hdeclares'⟩
        · exact .inl hbefore
        · exact .inr ⟨later, List.mem_cons_of_mem _ hlater, hdeclares'⟩
      · rcases hmem with hmem | ⟨other, hother, serverInfo, hdeclares'⟩
        · exact .inl hmem
        · rcases List.mem_cons.mp hother with rfl | hother
          · exact absurd hdeclares' (hnone peerId serverInfo)
          · exact .inr ⟨other, hother, serverInfo, hdeclares'⟩

/-- The entries under a uid. -/
def Node.entries (node : Node S V P) (time : WithTop ℚ) (uid : Nat) : List (S × V) :=
  Metadata.items (node.get time uid)

/-- What an info says of the DHT: its servers are those that have declared themselves. -/
structure Node.Reads (node : Node S V P) (activeAdapter : Option String) (time : WithTop ℚ)
    (moduleInfo : RemoteModuleInfo P) : Prop where
  declared : ∀ peerId serverInfo, moduleInfo.servers.lookup peerId = some serverInfo →
    ∃ entry ∈ node.entries time moduleInfo.uid, node.Declares activeAdapter entry peerId serverInfo
  listed : ∀ entry ∈ node.entries time moduleInfo.uid, ∀ peerId serverInfo,
    node.Declares activeAdapter entry peerId serverInfo → peerId ∈ moduleInfo.servers

/-- **What is read**: an info for each uid. -/
theorem Node.getRemoteModuleInfos_reads {expirationTime : Option (WithTop ℚ)} {latest : Bool} :
    ∀ {uids : List Nat} {moduleInfos : List (RemoteModuleInfo P)},
    node.getRemoteModuleInfos uids activeAdapter expirationTime latest = .ok moduleInfos →
    moduleInfos.map (·.uid) = uids ∧ ∀ moduleInfo ∈ moduleInfos,
      node.Reads activeAdapter (node.readTime expirationTime latest) moduleInfo := by
  intro uids moduleInfos h
  unfold getRemoteModuleInfos at h
  split at h
  · cases h
  · induction uids generalizing moduleInfos with
    | nil =>
      cases h
      exact ⟨rfl, fun _ hnone => by cases hnone⟩
    | cons uid uids ih =>
      rw [List.mapM_cons] at h
      obtain ⟨moduleInfo, hfirst, h⟩ := except_bind_eq_ok.mp h
      obtain ⟨rest, hrest, h⟩ := except_bind_eq_ok.mp h
      obtain ⟨servers, hservers, hinfo⟩ := except_bind_eq_ok.mp hfirst
      obtain ⟨hlisted, hkept⟩ := foldlM_addServer hservers
      obtain ⟨huids, hall⟩ := ih hrest
      cases h
      cases hinfo
      refine ⟨congrArg (uid :: ·) huids, List.forall_mem_cons.mpr ⟨⟨?_, ?_⟩, hall⟩⟩
      · intro peerId serverInfo hlookup
        rcases hlisted peerId serverInfo hlookup with hempty | hentry
        · cases hempty
        · exact hentry
      · intro entry hentry peerId serverInfo hdeclares
        exact hkept peerId (.inr ⟨entry, hentry, serverInfo, hdeclares⟩)

/-- Reading raises nothing if no entry raises anything but `TypeError` and `ValueError`. -/
theorem Node.getRemoteModuleInfos_ok
    (hraises : ∀ entry exc, node.readEntry entry = .error exc →
      exc = .typeError ∨ ∃ message, exc = .valueError message) (uids : List Nat) :
    ∃ moduleInfos, node.getRemoteModuleInfos uids activeAdapter none true = .ok moduleInfos := by
  have hentry : ∀ servers entry,
      ∃ servers', node.addServer activeAdapter servers entry = .ok servers' := by
    intro servers entry
    unfold addServer
    cases hread : node.readEntry entry with
    | ok declared =>
      simp only
      split <;> exact ⟨_, rfl⟩
    | error exc =>
      rcases hraises entry exc hread with rfl | ⟨message, rfl⟩ <;> exact ⟨_, rfl⟩
  have hentries : ∀ (entries : List (S × V)) servers,
      ∃ servers', entries.foldlM (node.addServer activeAdapter) servers = .ok servers' := by
    intro entries
    induction entries with
    | nil => exact fun servers => ⟨servers, rfl⟩
    | cons entry entries ih =>
      intro servers
      obtain ⟨middle, hmiddle⟩ := hentry servers entry
      obtain ⟨servers', hservers'⟩ := ih middle
      exact ⟨servers', by rw [List.foldlM_cons, hmiddle]; exact hservers'⟩
  unfold getRemoteModuleInfos
  rw [if_neg (fun h => h.2 rfl)]
  apply exists_mapM_ok
  intro uid _
  obtain ⟨servers, hservers⟩ := hentries (Metadata.items (node.get (node.readTime none true) uid)) ∅
  exact ⟨⟨uid, servers⟩, by simp only [hservers]; rfl⟩

end Reading

/-! ## Where the servers are -/

section Ranges

variable {P : Type}

/-- What a server that hosts the blocks of a range may say of itself at a block. -/
structure Honest (range : Nat × Nat) (uid : Nat) (serverInfo : ServerInfo P) : Prop where
  lo : range.1 ≤ uid
  hi : uid < range.2
  announced : ∀ startBlock endBlock, serverInfo.startBlock = some startBlock →
    serverInfo.endBlock = some endBlock →
      range.1 ≤ startBlock ∧ startBlock ≤ uid ∧ uid < endBlock ∧ endBlock ≤ range.2

/-- **The servers listed as online host what they say.** -/
def Truthful [DecidableEq P] (ranges : P → Nat × Nat) (moduleInfo : RemoteModuleInfo P) : Prop :=
  ∀ peerId serverInfo, moduleInfo.servers.lookup peerId = some serverInfo →
    serverInfo.state = .online → Honest (ranges peerId) moduleInfo.uid serverInfo

/-- The server is listed as online at a block of the window. -/
def OnlineIn (entries : List (Option (ServerInfo P))) (k : Nat) : Prop :=
  ∃ serverInfo, entries[k]? = some (some serverInfo) ∧ serverInfo.state = .online

/-- **The invariant of the loop**: what is known of a server after `k` blocks of a window from the
    block `o` on. -/
structure SpanWithin (range : Nat × Nat) (o : Nat) (entries : List (Option (ServerInfo P))) (k : Nat)
    (span : Option (RemoteSpanInfo P)) : Prop where
  unseen : span = none → ∀ j < k, ¬ OnlineIn entries j
  within : ∀ found, span = some found → found.state = .online ∧ range.1 ≤ o + found.start ∧
    (o : Int) + found.stop ≤ range.2 ∧ found.start < k ∧
    ∀ j < k, OnlineIn entries j → found.start ≤ j ∧ (j : Int) < found.stop

variable {range : Nat × Nat} {o : Nat} {entries : List (Option (ServerInfo P))} {peerId : P}

/-- An entry that is no server online. -/
theorem SpanWithin.skip {k : Nat} {span : Option (RemoteSpanInfo P)}
    (h : SpanWithin range o entries k span) (hnot : ¬ OnlineIn entries k) :
    SpanWithin range o entries (k + 1) span := by
  have hold : ∀ j < k + 1, OnlineIn entries j → j < k := by
    intro j hj honline
    rcases Nat.lt_succ_iff_lt_or_eq.mp hj with hlt | rfl
    · exact hlt
    · exact absurd honline hnot
  refine ⟨fun hnone j hj honline => h.unseen hnone j (hold j hj honline) honline,
    fun found hfound => ?_⟩
  obtain ⟨hstate, hlo, hhi, hstart, hcovers⟩ := h.within found hfound
  exact ⟨hstate, hlo, hhi, Nat.lt_succ_of_lt hstart,
    fun j hj honline => hcovers j (hold j hj honline) honline⟩

/-- The span that an honest entry opens. -/
theorem newSpan_within {k n : Nat} {serverInfo : ServerInfo P} (peerId : P) (hk : k < n)
    (honline : serverInfo.state = .online) (honest : Honest range (o + k) serverInfo) :
    (newSpan o n k peerId serverInfo).state = .online ∧
      range.1 ≤ o + (newSpan o n k peerId serverInfo).start ∧
      (o : Int) + (newSpan o n k peerId serverInfo).stop ≤ range.2 ∧
      (newSpan o n k peerId serverInfo).start ≤ k ∧
      (k : Int) < (newSpan o n k peerId serverInfo).stop := by
  have hlo := honest.lo
  have hhi := honest.hi
  unfold newSpan
  split
  · rename_i startBlock endBlock hstart hend
    obtain ⟨hfrom, hstart', hend', hto⟩ := honest.announced startBlock endBlock hstart hend
    refine ⟨honline, ?_, ?_, ?_, ?_⟩
    · show range.1 ≤ o + (startBlock - o)
      omega
    · show (o : Int) + min ((endBlock : Int) - o) n ≤ range.2
      omega
    · show startBlock - o ≤ k
      omega
    · show (k : Int) < min ((endBlock : Int) - o) n
      omega
  · refine ⟨honline, hlo, ?_, Nat.le_refl k, ?_⟩
    · show (o : Int) + ((k : Int) + 1) ≤ range.2
      omega
    · show (k : Int) < (k : Int) + 1
      omega

/-- **The step**: the entry at the `k`-th block of the window, or none there. -/
theorem SpanWithin.step {k : Nat} {span : Option (RemoteSpanInfo P)}
    {entry : Option (ServerInfo P)} (h : SpanWithin range o entries k span)
    (hentry : entries[k]? = some entry)
    (honest : ∀ serverInfo, entry = some serverInfo → serverInfo.state = .online →
      Honest range (o + k) serverInfo) :
    SpanWithin range o entries (k + 1)
      (entrySpan o entries.length .online peerId span (entry, k)) := by
  have hk : k < entries.length := (List.getElem?_eq_some_iff.mp hentry).1
  by_cases honline : ∃ serverInfo, entry = some serverInfo ∧ serverInfo.state = .online
  · obtain ⟨serverInfo, rfl, hstate⟩ := honline
    have hhonest := honest serverInfo rfl hstate
    have hcounts : ¬ serverInfo.state.value < ServerState.online.value := by
      rw [hstate]
      exact Nat.lt_irrefl _
    simp only [entrySpan, if_neg hcounts]
    refine ⟨(fun hnone => by cases hnone), fun found hfound => ?_⟩
    obtain rfl := Option.some.inj hfound
    cases span with
    | none =>
      obtain ⟨hnew, hlo, hhi, hstart, hstop⟩ := newSpan_within peerId hk hstate hhonest
      refine ⟨hnew, hlo, hhi, Nat.lt_succ_of_le hstart, fun j hj hin => ?_⟩
      rcases Nat.lt_succ_iff_lt_or_eq.mp hj with hlt | rfl
      · exact absurd hin (h.unseen rfl j hlt)
      · exact ⟨hstart, hstop⟩
    | some opened =>
      obtain ⟨hopened, hlo, hhi, hstart, hcovers⟩ := h.within opened rfl
      have hsame : opened.state = serverInfo.state := hopened.trans hstate.symm
      have hmine := hhonest.hi
      rw [extendSpan, if_neg (by rw [hsame]; exact Nat.lt_irrefl _), if_pos hsame]
      refine ⟨hopened, hlo, ?_, Nat.lt_succ_of_lt hstart, fun j hj hin => ?_⟩
      · show (o : Int) + max opened.stop ((k : Int) + 1) ≤ range.2
        omega
      · show opened.start ≤ j ∧ (j : Int) < max opened.stop ((k : Int) + 1)
        rcases Nat.lt_succ_iff_lt_or_eq.mp hj with hlt | rfl
        · obtain ⟨hfrom, hto⟩ := hcovers j hlt hin
          omega
        · omega
  · have hnot : ¬ OnlineIn entries k := by
      rintro ⟨serverInfo, hget, hstate⟩
      exact honline ⟨serverInfo, Option.some.inj (hentry.symm.trans hget), hstate⟩
    rw [entrySpan_of_not_online (fun serverInfo heq hstate => honline ⟨serverInfo, heq, hstate⟩)]
    exact h.skip hnot

/-- **The run** over the entries of a window. -/
theorem foldl_entrySpan_within (peerId : P)
    (honest : ∀ k serverInfo, entries[k]? = some (some serverInfo) → serverInfo.state = .online →
      Honest range (o + k) serverInfo) :
    ∀ (rest : List (Option (ServerInfo P))) (k : Nat) (span : Option (RemoteSpanInfo P)),
      (∀ j, rest[j]? = entries[k + j]?) → SpanWithin range o entries k span →
      SpanWithin range o entries (k + rest.length)
        ((rest.zipIdx k).foldl (entrySpan o entries.length .online peerId) span) := by
  intro rest
  induction rest with
  | nil => exact fun k span _ h => h
  | cons entry rest ih =>
    intro k span hrest h
    have hentry : entries[k]? = some entry := (hrest 0).symm
    rw [List.zipIdx_cons, List.foldl_cons, List.length_cons,
      show k + (rest.length + 1) = k + 1 + rest.length by omega]
    apply ih
    · intro j
      rw [show k + 1 + j = k + (j + 1) by omega]
      exact hrest (j + 1)
    · exact h.step hentry fun serverInfo heq => honest k serverInfo (heq ▸ hentry)

end Ranges

section Spans

variable {P : Type} [LinearOrder P] {moduleInfos : List (RemoteModuleInfo P)} {o : Nat}
  {ranges : P → Nat × Nat}

/-- **The span of a server**, from truthful records: it lies in the range of the server, and
    contains every block at which the server is listed as online. -/
theorem lookup_computeSpans_truthful
    (huids : moduleInfos.map (·.uid) = List.range' o moduleInfos.length)
    (htruthful : ∀ moduleInfo ∈ moduleInfos, Truthful ranges moduleInfo) (peerId : P) :
    SpanWithin (ranges peerId) o (moduleInfos.map fun moduleInfo => moduleInfo.servers.lookup peerId)
      moduleInfos.length ((computeSpans moduleInfos .online).lookup peerId) := by
  generalize hentries : (moduleInfos.map fun moduleInfo => moduleInfo.servers.lookup peerId) = entries
  have hlength : moduleInfos.length = entries.length := by
    rw [← hentries, List.length_map]
  have honest : ∀ k serverInfo, entries[k]? = some (some serverInfo) →
      serverInfo.state = .online → Honest (ranges peerId) (o + k) serverInfo := by
    intro k serverInfo hget honline
    rw [← hentries, List.getElem?_map] at hget
    obtain ⟨moduleInfo, hinfo, hlookup⟩ := Option.map_eq_some_iff.mp hget
    have huid : moduleInfo.uid = o + k := by
      have hmap := congrArg (·[k]?) huids
      simp only [List.getElem?_map, hinfo, Option.map_some] at hmap
      have hk := (List.getElem?_eq_some_iff.mp hinfo).1
      rw [List.getElem?_range' hk, Nat.one_mul] at hmap
      exact Option.some.inj hmap
    rw [← huid]
    exact htruthful moduleInfo (List.mem_of_getElem? hinfo) peerId serverInfo hlookup honline
  rw [lookup_computeSpans, hentries, hlength]
  -- of no blocks it does not matter where they are
  have hoffset : entries = [] ∨ (moduleInfos.head?.map (·.uid)).getD 0 = o := by
    cases moduleInfos with
    | nil => exact .inl hentries.symm
    | cons moduleInfo moduleInfos => exact .inr (List.cons.inj huids).1
  rcases hoffset with rfl | hoffset
  · exact ⟨fun _ j hj => absurd hj (Nat.not_lt_zero j), fun _ h => by cases h⟩
  · rw [hoffset]
    have hrun := foldl_entrySpan_within peerId honest entries 0 none
      (fun j => by rw [Nat.zero_add])
      ⟨fun _ j hj => absurd hj (Nat.not_lt_zero j), fun _ h => by cases h⟩
    rw [Nat.zero_add] at hrun
    exact hrun

end Spans

end Drift.Dht
