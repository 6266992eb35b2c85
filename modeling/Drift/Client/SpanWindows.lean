/-
  What `compute_spans` of `utils/dht.py` makes of a window of the blocks, and
  `RemoteSequenceInfo.__getitem__` of `client/routing/sequence_info.py`.

  In a swarm where each server announces one state on one range of blocks, a window shows of each
  server the part of the range that lies in the window, counted from its first block, and nothing
  else (`computeSpans_window`).  It does not matter which of the records carry the range: the first
  one that is read opens the span where the range meets the window, and if it does not know where
  the range ends, the records behind it extend the span so far.

  So to slice a sequence is to clip its spans.
-/
import Drift.Client.SequenceManager

namespace Drift

/-! ## What servers announce -/

/-- One state on a range of blocks. -/
structure Announcement where
  state : ServerState
  start : Nat
  stop : Nat
  nonempty : start < stop

/-- A record is of the state, and carries the range or neither of its ends. -/
structure Announcement.Carried {P : Type} (announcement : Announcement)
    (serverInfo : Dht.ServerInfo P) : Prop where
  state : serverInfo.state = announcement.state
  range : serverInfo.startBlock = some announcement.start ∧
      serverInfo.endBlock = some announcement.stop ∨
    serverInfo.startBlock = none ∧ serverInfo.endBlock = none

/-- **A swarm** in which every server has a record at the blocks of its range, and at no others. -/
structure Announced {P : Type} [DecidableEq P] (blockInfos : List (Dht.RemoteModuleInfo P))
    (announcements : P → Option Announcement) : Prop where
  uids : ∀ (b : Nat) (blockInfo : Dht.RemoteModuleInfo P), blockInfos[b]? = some blockInfo →
    blockInfo.uid = b
  listed : ∀ (b : Nat) (blockInfo : Dht.RemoteModuleInfo P), blockInfos[b]? = some blockInfo →
    ∀ peerId serverInfo,
    blockInfo.servers.lookup peerId = some serverInfo →
      ∃ announcement, announcements peerId = some announcement ∧ announcement.start ≤ b ∧
        b < announcement.stop ∧ announcement.Carried serverInfo
  everywhere : ∀ (b : Nat) (blockInfo : Dht.RemoteModuleInfo P), blockInfos[b]? = some blockInfo →
    ∀ peerId announcement, announcements peerId = some announcement →
      announcement.start ≤ b → b < announcement.stop →
      (blockInfo.servers.lookup peerId).isSome

/-- A span without the record that it was made of. -/
@[ext] structure SeenSpan (P : Type) where
  peerId : P
  state : ServerState
  start : Int
  stop : Int
deriving DecidableEq

section

variable {P : Type}

def Dht.RemoteSpanInfo.seen (span : Dht.RemoteSpanInfo P) : SeenSpan P :=
  ⟨span.peerId, span.state, span.start, span.stop⟩

/-- The range that is announced. -/
def Announcement.seen (announcement : Announcement) (peerId : P) : SeenSpan P :=
  ⟨peerId, announcement.state, announcement.start, announcement.stop⟩

/-- **The intersection with a window**, shifted to its first block. -/
def SeenSpan.clip (o n : Nat) (span : SeenSpan P) : Option (SeenSpan P) :=
  if max span.start o < min span.stop (o + n) then
    some { span with
      start := max span.start o - o
      stop := min span.stop (o + n) - o }
  else none

/-- To clip twice is to clip to the window of the window. -/
theorem SeenSpan.clip_clip {p m o n : Nat} (h : o + n ≤ m) (span : SeenSpan P) :
    (span.clip p m).bind (·.clip o n) = span.clip (p + o) n := by
  obtain ⟨peerId, state, start, stop⟩ := span
  simp only [clip]
  by_cases houter : max start p < min stop (p + m)
  · simp only [if_pos houter, Option.bind_some]
    by_cases hinner : max start (p + o : Nat) < min stop ((p + o : Nat) + n)
    · rw [if_pos hinner, if_pos (by omega)]
      refine congrArg some (SeenSpan.ext rfl rfl ?_ ?_)
      · show max (max start p - p) o - o = max start (p + o : Nat) - (p + o : Nat)
        omega
      · show min (min stop (p + m) - p) (o + n) - o = min stop ((p + o : Nat) + n) - (p + o : Nat)
        omega
    · rw [if_neg hinner, if_neg (by omega)]
  · rw [if_neg houter, if_neg (by omega)]
    rfl

/-- Of a block of the window, it is the same whether it lies in the span or in what is clipped. -/
theorem SeenSpan.contains_of_clip {o n b : Nat} {span span' : SeenSpan P}
    (h : span.clip o n = some span') (hb : b < n) :
    span'.start ≤ b ∧ b < span'.stop ↔ span.start ≤ (o + b : Nat) ∧ (o + b : Nat) < span.stop := by
  rw [clip] at h
  split at h
  · obtain rfl := Option.some.inj h
    show max span.start o - o ≤ b ∧ (b : Int) < min span.stop (o + n) - o ↔ _
    omega
  · nomatch h

theorem SeenSpan.peerId_of_clip {o n : Nat} {span span' : SeenSpan P}
    (h : span.clip o n = some span') : span'.peerId = span.peerId := by
  rw [clip] at h
  split at h
  · obtain rfl := Option.some.inj h
    rfl
  · nomatch h

end

/-! ## The span of a server, record by record -/

section Window

variable {P : Type} {o n : Nat} {minState : ServerState} {peerId : P} {announcement : Announcement}

/-- **The invariant of the loop**: what is known of a server after `k` blocks of the window.  The
    end of the span may be known before its blocks are read. -/
structure SeenSoFar (announcement : Announcement) (o n : Nat) (peerId : P) (k : Nat)
    (span : Option (Dht.RemoteSpanInfo P)) : Prop where
  notYet : min announcement.stop (o + k) ≤ max announcement.start o → span = none
  opened : max announcement.start o < min announcement.stop (o + k) →
    ∃ opened, span = some opened ∧ opened.peerId = peerId ∧ opened.state = announcement.state ∧
      opened.start = announcement.start - o ∧
      min ((announcement.stop : Int) - o) k ≤ opened.stop ∧
      opened.stop ≤ min ((announcement.stop : Int) - o) n

/-- The span that a record of the range opens, at the first block of the window in the range. -/
theorem newSpan_seen {k : Nat} {serverInfo : Dht.ServerInfo P} (hk : k < n)
    (hcarried : announcement.Carried serverInfo) (hstart : announcement.start ≤ o + k)
    (hstop : o + k < announcement.stop) (hfirst : o + k ≤ max announcement.start o) :
    SeenSoFar announcement o n peerId (k + 1) (some (Dht.newSpan o n k peerId serverInfo)) := by
  refine ⟨fun h => by omega, fun _ => ⟨_, rfl, ?_⟩⟩
  rcases hcarried.range with ⟨hfrom, hto⟩ | ⟨hfrom, hto⟩
  · have hnew : Dht.newSpan o n k peerId serverInfo = ⟨peerId, announcement.start - o,
        min ((announcement.stop : Int) - o) n, serverInfo⟩ := by
      rw [Dht.newSpan, hfrom, hto]
    rw [hnew]
    refine ⟨rfl, hcarried.state, rfl, ?_, le_refl _⟩
    show _ ≤ min ((announcement.stop : Int) - o) n
    omega
  · have hnew : Dht.newSpan o n k peerId serverInfo = ⟨peerId, k, k + 1, serverInfo⟩ := by
      rw [Dht.newSpan, hfrom, hto]
    rw [hnew]
    refine ⟨rfl, hcarried.state, ?_, ?_, ?_⟩
    · show k = announcement.start - o
      omega
    · show _ ≤ (k : Int) + 1
      omega
    · show (k : Int) + 1 ≤ _
      omega

/-- **The step**: a record at the `k`-th block of the window, or none there. -/
theorem entrySpan_seen {k : Nat} {entry : Option (Dht.ServerInfo P)}
    {span : Option (Dht.RemoteSpanInfo P)} (hk : k < n)
    (hmin : minState.value ≤ announcement.state.value)
    (hlisted : ∀ serverInfo, entry = some serverInfo → announcement.start ≤ o + k ∧
      o + k < announcement.stop ∧ announcement.Carried serverInfo)
    (heverywhere : announcement.start ≤ o + k → o + k < announcement.stop → entry.isSome)
    (h : SeenSoFar announcement o n peerId k span) :
    SeenSoFar announcement o n peerId (k + 1)
      (Dht.entrySpan o n minState peerId span (entry, k)) := by
  cases entry with
  | none =>
    have hout : ¬ (announcement.start ≤ o + k ∧ o + k < announcement.stop) :=
      fun hin => nomatch heverywhere hin.1 hin.2
    refine ⟨fun hnone => h.notYet (by omega), fun hsome => ?_⟩
    obtain ⟨opened, rfl, hpeer, hstate, hstart, hlo, hhi⟩ := h.opened (by omega)
    exact ⟨opened, rfl, hpeer, hstate, hstart, by omega, hhi⟩
  | some serverInfo =>
    obtain ⟨hstart, hstop, hcarried⟩ := hlisted serverInfo rfl
    have hcounts : ¬ serverInfo.state.value < minState.value := by
      rw [hcarried.state]
      omega
    simp only [Dht.entrySpan, if_neg hcounts]
    by_cases hfirst : o + k ≤ max announcement.start o
    · rw [h.notYet (by omega)]
      exact newSpan_seen hk hcarried hstart hstop hfirst
    · -- a later record
      obtain ⟨opened, rfl, hpeer, hstate, hfrom, hlo, hhi⟩ := h.opened (by omega)
      have hsame : opened.state = serverInfo.state := hstate.trans hcarried.state.symm
      rw [Dht.extendSpan, if_neg (by rw [hsame]; omega), if_pos hsame]
      refine ⟨fun _ => by omega, fun _ => ⟨_, rfl, hpeer, hstate, hfrom, ?_, ?_⟩⟩
      · show _ ≤ max opened.stop ((k : Int) + 1)
        omega
      · show max opened.stop ((k : Int) + 1) ≤ _
        omega

/-- **The run** over the records of a window. -/
theorem foldl_entrySpan_seen (hmin : minState.value ≤ announcement.state.value) :
    ∀ (entries : List (Option (Dht.ServerInfo P))) (k : Nat) (span : Option (Dht.RemoteSpanInfo P)),
      k + entries.length = n →
      (∀ (j : Nat) (serverInfo : Dht.ServerInfo P), entries[j]? = some (some serverInfo) →
        announcement.start ≤ o + (k + j) ∧ o + (k + j) < announcement.stop ∧
          announcement.Carried serverInfo) →
      (∀ (j : Nat), j < entries.length → announcement.start ≤ o + (k + j) →
        o + (k + j) < announcement.stop → entries[j]? ≠ some none) →
      SeenSoFar announcement o n peerId k span →
      SeenSoFar announcement o n peerId n
        ((entries.zipIdx k).foldl (Dht.entrySpan o n minState peerId) span) := by
  intro entries
  induction entries with
  | nil =>
    intro k span hlength _ _ h
    obtain rfl : k = n := hlength
    exact h
  | cons entry entries ih =>
    intro k span hlength hlisted heverywhere h
    rw [List.length_cons] at hlength
    rw [List.zipIdx_cons, List.foldl_cons]
    refine ih (k + 1) _ (by omega) (fun j serverInfo hget => ?_) (fun j hlt hlo hhi => ?_) ?_
    · have hj := hlisted (j + 1) serverInfo hget
      rw [show k + 1 + j = k + (j + 1) by omega]
      exact hj
    · rw [show k + 1 + j = k + (j + 1) by omega] at hlo hhi
      exact heverywhere (j + 1) (Nat.succ_lt_succ hlt) hlo hhi
    · refine entrySpan_seen (by omega) hmin (fun serverInfo hentry => ?_) (fun hlo hhi => ?_) h
      · exact hlisted 0 serverInfo (congrArg some hentry)
      · exact Option.isSome_iff_ne_none.mpr fun hnone =>
          heverywhere 0 (Nat.succ_pos _) hlo hhi (congrArg some hnone)

end Window

/-! ## The spans of a window -/

section Swarm

variable {P : Type} [LinearOrder P] {blockInfos : List (Dht.RemoteModuleInfo P)}
  {announcements : P → Option Announcement} {o n : Nat}

omit [LinearOrder P] in
theorem getElem?_blockWindow {k : Nat} (hk : k < n) :
    (pySlice blockInfos o (o + n))[k]? = blockInfos[o + k]? := by
  rw [pySlice, List.getElem?_drop, List.getElem?_take_of_lt (by omega)]

omit [LinearOrder P] in
theorem length_blockWindow (h : o + n ≤ blockInfos.length) :
    (pySlice blockInfos o (o + n)).length = n := by
  rw [pySlice, List.length_drop, List.length_take]
  omega

omit [LinearOrder P] in
/-- A span that has been seen in the whole window. -/
theorem SeenSoFar.map_seen {announcement : Announcement} {peerId : P}
    {span : Option (Dht.RemoteSpanInfo P)} (h : SeenSoFar announcement o n peerId n span) :
    span.map Dht.RemoteSpanInfo.seen = (announcement.seen peerId).clip o n := by
  have hmeets : max ((announcement.seen peerId).start) o
      < min ((announcement.seen peerId).stop) (o + n) ↔
      max announcement.start o < min announcement.stop (o + n) := by
    show max (announcement.start : Int) o < min (announcement.stop : Int) (o + n) ↔ _
    omega
  rw [SeenSpan.clip]
  by_cases hin : max announcement.start o < min announcement.stop (o + n)
  · obtain ⟨opened, rfl, hpeer, hstate, hstart, hlo, hhi⟩ := h.opened hin
    rw [if_pos (hmeets.mpr hin)]
    refine congrArg some (SeenSpan.ext hpeer hstate ?_ ?_)
    · show (opened.start : Int) = max (announcement.start : Int) o - o
      omega
    · show opened.stop = min (announcement.stop : Int) (o + n) - o
      omega
  · rw [if_neg fun h => hin (hmeets.mp h), h.notYet (Nat.not_lt.mp hin)]
    rfl

/-- **Each server shows the part of its range that lies in the window**, if its state counts. -/
theorem lookup_computeSpans_window (hannounced : Announced blockInfos announcements)
    (minState : ServerState) (h : o + n ≤ blockInfos.length) (peerId : P) :
    ((Dht.computeSpans (pySlice blockInfos o (o + n)) minState).lookup peerId).map
        Dht.RemoteSpanInfo.seen
      = (announcements peerId).bind fun announcement =>
          if minState.value ≤ announcement.state.value then
            (announcement.seen peerId).clip o n
          else none := by
  have hget : ∀ (k : Nat) (entry : Option (Dht.ServerInfo P)),
      ((pySlice blockInfos o (o + n)).map fun moduleInfo => moduleInfo.servers.lookup peerId)[k]?
        = some entry → ∃ blockInfo, blockInfos[o + k]? = some blockInfo ∧
          blockInfo.servers.lookup peerId = entry := by
    intro k entry hentry
    obtain ⟨hk, -⟩ := List.getElem?_eq_some_iff.mp hentry
    rw [List.length_map, length_blockWindow h] at hk
    rw [List.getElem?_map, getElem?_blockWindow hk, Option.map_eq_some_iff] at hentry
    exact hentry
  have hlength : ((pySlice blockInfos o (o + n)).map fun moduleInfo =>
      moduleInfo.servers.lookup peerId).length = n := by
    rw [List.length_map, length_blockWindow h]
  -- of an empty window it does not matter where it is
  have hoffset : n = 0 ∨ ((pySlice blockInfos o (o + n)).head?.map (·.uid)).getD 0 = o := by
    refine (Nat.eq_zero_or_pos n).imp_right fun hpos => ?_
    rw [List.head?_eq_getElem?, getElem?_blockWindow hpos, Nat.add_zero,
      List.getElem?_eq_getElem (by omega)]
    exact hannounced.uids o _ (List.getElem?_eq_getElem _)
  rw [Dht.lookup_computeSpans, length_blockWindow h]
  generalize ((pySlice blockInfos o (o + n)).head?.map (·.uid)).getD 0 = blockOffset at hoffset ⊢
  generalize ((pySlice blockInfos o (o + n)).map fun moduleInfo =>
    moduleInfo.servers.lookup peerId) = entries at hget hlength ⊢
  -- who announces nothing, or a state that does not count
  have hbelow : (∀ announcement, announcements peerId = some announcement →
      announcement.state.value < minState.value) → entries.zipIdx.foldl
        (Dht.entrySpan blockOffset n minState peerId) none = none := by
    intro hlow
    refine Dht.foldl_entrySpan_of_below none _ fun entry hentry serverInfo hinfo => ?_
    obtain ⟨blockInfo, hblock, hlookup⟩ := hget entry.2 entry.1 (List.mk_mem_zipIdx_iff_getElem?.mp
      hentry)
    obtain ⟨announcement, hann, -, -, hcarried⟩ :=
      hannounced.listed _ blockInfo hblock peerId serverInfo (hlookup.trans hinfo)
    rw [hcarried.state]
    exact hlow announcement hann
  cases hann : announcements peerId with
  | none =>
    rw [hbelow fun announcement hsome => by rw [hann] at hsome; nomatch hsome]
    rfl
  | some announcement =>
    rw [Option.bind_some]
    by_cases hmin : minState.value ≤ announcement.state.value
    · rw [if_pos hmin]
      rcases hoffset with rfl | rfl
      · -- no block, so no span
        obtain rfl := List.length_eq_zero_iff.mp hlength
        refine (if_neg ?_).symm
        show ¬ max (announcement.start : Int) o < min (announcement.stop : Int) (o + (0 : Nat))
        omega
      · refine SeenSoFar.map_seen (foldl_entrySpan_seen hmin entries 0 none (by omega) ?_ ?_
          ⟨fun _ => rfl, fun hin => by omega⟩)
        · intro j serverInfo hentry
          obtain ⟨blockInfo, hblock, hlookup⟩ := hget j _ hentry
          obtain ⟨announcement', hann', hlo, hhi, hcarried⟩ :=
            hannounced.listed _ blockInfo hblock peerId serverInfo hlookup
          obtain rfl := Option.some.inj (hann.symm.trans hann')
          rw [Nat.zero_add]
          exact ⟨hlo, hhi, hcarried⟩
        · intro j _ hlo hhi hnone
          rw [Nat.zero_add] at hlo hhi
          obtain ⟨blockInfo, hblock, hlookup⟩ := hget j _ hnone
          have hsome := hannounced.everywhere _ blockInfo hblock peerId announcement hann hlo hhi
          rw [hlookup] at hsome
          nomatch hsome
    · rw [if_neg hmin, hbelow fun announcement' hsome => ?_]
      · rfl
      · obtain rfl := Option.some.inj (hann.symm.trans hsome)
        exact Nat.not_le.mp hmin

/-- A window of a window. -/
theorem pySlice_window {α : Type} (xs : List α) (p : Nat) {m o n : Nat} (h : o + n ≤ m) :
    pySlice (pySlice xs p (p + m)) o (o + n) = pySlice xs (p + o) (p + o + n) := by
  rw [pySlice, pySlice, pySlice, List.take_drop, List.take_take, List.drop_drop,
    Nat.min_eq_left (by omega), Nat.add_assoc]

end Swarm

/-! ## Slices -/

section Slices

/-- The indices of `[o:o + n]`. -/
theorem PySlice.indices_window {length o n : Nat} (h : o + n ≤ length) :
    PySlice.indices ⟨some o, some ((o + n : Nat) : Int), none⟩ length = .ok (List.range' o n) := by
  have hstart : PySlice.bound length 0 length 0 (some (o : Int)) = o := by
    rw [PySlice.bound, if_neg (by omega)]
    omega
  have hstop : PySlice.bound length 0 length length (some ((o + n : Nat) : Int)) = (o + n : Nat) := by
    rw [PySlice.bound, if_neg (by omega)]
    omega
  simp only [PySlice.indices, Option.getD_none, Int.reduceLT, if_false, hstart, hstop]
  have hcount : ((((o + n : Nat) : Int) - o + ((1 : Int).natAbs - 1)) / (1 : Int).natAbs).toNat
      = n := by
    rw [show (((1 : Int).natAbs : Nat) : Int) = 1 from rfl, Int.ediv_one]
    omega
  rw [if_neg (by decide), hcount, List.range'_eq_map_range]
  refine congrArg Except.ok (List.map_congr_left fun k _ => ?_)
  omega

theorem filterMap_range'_getElem? {α : Type} : ∀ (n : Nat) (xs : List α) (o : Nat),
    o + n ≤ xs.length → ((List.range' o n).filterMap fun i => xs[i]?) = pySlice xs o (o + n) := by
  intro n
  induction n with
  | zero =>
    intro xs o _
    rw [Nat.add_zero, pySlice, List.drop_take_self]
    rfl
  | succ n ih =>
    intro xs o h
    have ho : o < xs.length := by omega
    have hget : xs[o]? = some xs[o] := List.getElem?_eq_getElem ho
    have hslice : pySlice xs o (o + (n + 1)) = xs[o] :: pySlice xs (o + 1) (o + 1 + n) := by
      rw [pySlice, pySlice, List.drop_eq_getElem_cons (by rw [List.length_take]; omega),
        List.getElem_take, show o + 1 + n = o + (n + 1) by omega]
    rw [List.range'_succ, List.filterMap_cons, hget, ih xs (o + 1) (by omega), hslice]

/-- A slice of the blocks is a slice of their infos. -/
theorem slice_window (info : RemoteSequenceInfo) (servers : List BlockServers) {o n : Nat}
    (h : o + n ≤ info.blocks.length) :
    info.slice ⟨some o, some ((o + n : Nat) : Int), none⟩ servers
      = .ok ⟨pySlice info.blocks o (o + n),
          pySlice (blockInfosOf servers info.blocks) o (o + n)⟩ := by
  rw [RemoteSequenceInfo.slice, PySlice.indices_window h]
  show Except.ok _ = _
  rw [filterMap_range'_getElem? n info.blocks o h]
  simp only [blockInfosOf, pySlice, List.map_drop, List.map_take]

variable {P : Type} [LinearOrder P] {blockInfos : List (Dht.RemoteModuleInfo P)}

theorem mem_map_seen {span : SeenSpan P} :
    span ∈ (spansByPriority blockInfos).map Dht.RemoteSpanInfo.seen ↔
      ((Dht.computeSpans blockInfos .online).lookup span.peerId).map Dht.RemoteSpanInfo.seen
        = some span := by
  rw [List.mem_map, Option.map_eq_some_iff]
  constructor
  · rintro ⟨host, hhost, rfl⟩
    exact ⟨host, mem_spansByPriority.mp hhost, rfl⟩
  · rintro ⟨host, hhost, rfl⟩
    exact ⟨host, mem_spansByPriority.mpr hhost, rfl⟩

/-- A peer has one span. -/
theorem pairwise_spansByPriority (blockInfos : List (Dht.RemoteModuleInfo P)) :
    ((spansByPriority blockInfos).map Dht.RemoteSpanInfo.seen).Pairwise
      fun span span' => span.peerId ≠ span'.peerId := by
  have hperm : (spansByPriority blockInfos).Perm
      ((Dht.computeSpans blockInfos .online).entries.map (·.2)) :=
    (List.perm_insertionSort _ _).trans ((List.reverse_perm _).map _)
  rw [List.pairwise_map, hperm.pairwise_iff fun h => h.symm, List.pairwise_map]
  have hkeys := (Dht.computeSpans blockInfos .online).nodupKeys
  rw [List.NodupKeys, List.keys, List.Nodup, List.pairwise_map] at hkeys
  refine List.Pairwise.imp_of_mem (fun {entry entry'} hentry hentry' hne => ?_) hkeys
  have hpeer : ∀ entry ∈ (Dht.computeSpans blockInfos .online).entries,
      entry.2.peerId = entry.1 := by
    rintro ⟨peerId, span⟩ hmem
    exact (Dht.lookup_computeSpans_bounds (AList.mem_lookup_iff.mpr hmem)).1
  show entry.2.peerId ≠ entry'.2.peerId
  rw [hpeer entry hentry, hpeer entry' hentry']
  exact hne

theorem mem_map_spansContainingBlock {b : Nat} {span : SeenSpan P} :
    span ∈ ((spansContainingBlock blockInfos).getD b []).map Dht.RemoteSpanInfo.seen ↔
      span ∈ (spansByPriority blockInfos).map Dht.RemoteSpanInfo.seen ∧ span.start ≤ b ∧
        b < span.stop := by
  rw [List.mem_map, List.mem_map]
  constructor
  · rintro ⟨host, hhost, rfl⟩
    obtain ⟨hmem, hlo, hhi⟩ := mem_spansContainingBlock.mp hhost
    exact ⟨⟨host, hmem, rfl⟩, Int.ofNat_le.mpr hlo, hhi⟩
  · rintro ⟨⟨host, hmem, rfl⟩, hlo, hhi⟩
    exact ⟨host, mem_spansContainingBlock.mpr ⟨hmem, Int.ofNat_le.mp hlo, hhi⟩, rfl⟩

variable {announcements : P → Option Announcement} {p m o n : Nat}

/-- **The spans of a window of a window** are those of the outer one, clipped. -/
theorem mem_map_seen_window (hannounced : Announced blockInfos announcements)
    (hin : p + m ≤ blockInfos.length) (h : o + n ≤ m) {span : SeenSpan P} :
    span ∈ (spansByPriority (pySlice blockInfos (p + o) (p + o + n))).map Dht.RemoteSpanInfo.seen ↔
      ∃ whole ∈ (spansByPriority (pySlice blockInfos p (p + m))).map Dht.RemoteSpanInfo.seen,
        whole.clip o n = some span := by
  have hwindow := lookup_computeSpans_window hannounced .online
    (show (p + o) + n ≤ blockInfos.length by omega) span.peerId
  have hclip : ∀ announcement : Announcement,
      (announcement.seen span.peerId).clip (p + o) n
        = ((announcement.seen span.peerId).clip p m).bind (·.clip o n) :=
    fun announcement => (SeenSpan.clip_clip h _).symm
  have hwhole := lookup_computeSpans_window hannounced .online hin span.peerId
  have hboth : ((Dht.computeSpans (pySlice blockInfos (p + o) (p + o + n)) .online).lookup
      span.peerId).map Dht.RemoteSpanInfo.seen
      = (((Dht.computeSpans (pySlice blockInfos p (p + m)) .online).lookup span.peerId).map
          Dht.RemoteSpanInfo.seen).bind (·.clip o n) := by
    rw [hwindow, hwhole]
    cases announcements span.peerId with
    | none => rfl
    | some announcement =>
      rw [Option.bind_some, Option.bind_some, hclip]
      split
      · rfl
      · rfl
  rw [mem_map_seen, hboth, Option.bind_eq_some_iff]
  constructor
  · rintro ⟨whole, hlookup, hcut⟩
    refine ⟨whole, mem_map_seen.mpr ?_, hcut⟩
    rw [← SeenSpan.peerId_of_clip hcut]
    exact hlookup
  · rintro ⟨whole, hmem, hcut⟩
    refine ⟨whole, ?_, hcut⟩
    rw [SeenSpan.peerId_of_clip hcut]
    exact mem_map_seen.mp hmem

end Slices

/-! ## The whole and its windows -/

/-- **What servers announce is recovered in every window**, and a slice has the clipped spans of the
    sequence that it is cut from. -/
theorem computeSpans_window {blockInfos : List (Dht.RemoteModuleInfo Nat)}
    {announcements : Nat → Option Announcement} (hannounced : Announced blockInfos announcements) :
    (∀ (o n : Nat) (minState : ServerState) (peerId : Nat), o + n ≤ blockInfos.length →
      ((Dht.computeSpans (pySlice blockInfos o (o + n)) minState).lookup peerId).map
          Dht.RemoteSpanInfo.seen
        = (announcements peerId).bind fun announcement =>
            if minState.value ≤ announcement.state.value then
              (announcement.seen peerId).clip o n
            else none) ∧
    ∀ (info : RemoteSequenceInfo) (servers : List BlockServers) (p m o n : Nat),
      p + m ≤ blockInfos.length → o + n ≤ m →
      info.sorted = blockInfosOf servers info.blocks →
      blockInfosOf servers info.blocks = pySlice blockInfos p (p + m) →
      ∃ slice, info.slice ⟨some o, some ((o + n : Nat) : Int), none⟩ servers = .ok slice ∧
        ((spansByPriority slice.sorted).map Dht.RemoteSpanInfo.seen).Perm
          (((spansByPriority info.sorted).map Dht.RemoteSpanInfo.seen).filterMap (·.clip o n)) ∧
        ∀ b < n, ∀ span,
          span ∈ ((spansContainingBlock slice.sorted).getD b []).map Dht.RemoteSpanInfo.seen ↔
          span ∈ (((spansContainingBlock info.sorted).getD (o + b) []).map
            Dht.RemoteSpanInfo.seen).filterMap (·.clip o n) := by
  refine ⟨fun o n minState peerId h => lookup_computeSpans_window hannounced minState h peerId, ?_⟩
  intro info servers p m o n hin h hfresh hwhole
  have hlength : info.blocks.length = m := by
    rw [← length_blockWindow hin, ← hwhole, blockInfosOf, List.length_map]
  refine ⟨_, slice_window info servers (hlength.symm ▸ h), ?_, ?_⟩
  · rw [hfresh, hwhole, pySlice_window blockInfos p h]
    refine (List.perm_ext_iff_of_nodup ?_ ?_).mpr fun span => ?_
    · exact (pairwise_spansByPriority _).imp fun hne heq => hne (congrArg SeenSpan.peerId heq)
    · refine List.pairwise_filterMap.mpr ((pairwise_spansByPriority _).imp ?_)
      intro whole whole' hne span hspan span' hspan' heq
      apply hne
      rw [← SeenSpan.peerId_of_clip hspan, ← SeenSpan.peerId_of_clip hspan', heq]
    · rw [mem_map_seen_window hannounced hin h, List.mem_filterMap]
  · intro b hb span
    rw [hfresh, hwhole, pySlice_window blockInfos p h, mem_map_spansContainingBlock,
      mem_map_seen_window hannounced hin h, List.mem_filterMap]
    constructor
    · rintro ⟨⟨whole, hmem, hclip⟩, hlo, hhi⟩
      exact ⟨whole, mem_map_spansContainingBlock.mpr
        ⟨hmem, (SeenSpan.contains_of_clip hclip hb).mp ⟨hlo, hhi⟩⟩, hclip⟩
    · rintro ⟨whole, hmem, hclip⟩
      obtain ⟨hmem, hcontains⟩ := mem_map_spansContainingBlock.mp hmem
      exact ⟨⟨whole, hmem, hclip⟩, (SeenSpan.contains_of_clip hclip hb).mpr hcontains⟩

/-- Two servers on three blocks.  The first does not carry its range in the record of its first
    block. -/
def twoServers : List (Dht.RemoteModuleInfo Nat) :=
  [⟨0, [⟨7, ⟨.online, 1, none, none, none, none, none⟩⟩].toAList⟩,
    ⟨1, [⟨7, ⟨.online, 1, some 0, some 2, none, none, none⟩⟩,
      ⟨8, ⟨.online, 2, some 1, some 3, none, none, none⟩⟩].toAList⟩,
    ⟨2, [⟨8, ⟨.online, 2, none, none, none, none, none⟩⟩].toAList⟩]

def twoAnnouncements (peerId : Nat) : Option Announcement :=
  if peerId = 7 then some ⟨.online, 0, 2, Nat.two_pos⟩
  else if peerId = 8 then some ⟨.online, 1, 3, by decide⟩
  else none

theorem twoServers_announced : Announced twoServers twoAnnouncements := by
  refine ⟨?_, ?_, ?_⟩
  · intro b blockInfo hget
    rcases b with _ | _ | _ | b
    · obtain rfl := Option.some.inj hget
      rfl
    · obtain rfl := Option.some.inj hget
      rfl
    · obtain rfl := Option.some.inj hget
      rfl
    · cases hget
  · intro b blockInfo hget peerId serverInfo hlookup
    have hmem : peerId ∈ blockInfo.servers.keys :=
      AList.lookup_isSome.mp (Option.isSome_of_mem hlookup)
    rcases b with _ | _ | _ | b
    · obtain rfl := Option.some.inj hget
      obtain rfl : peerId = 7 := List.mem_singleton.mp hmem
      obtain rfl := Option.some.inj hlookup
      exact ⟨_, rfl, by decide, by decide, rfl, Or.inr ⟨rfl, rfl⟩⟩
    · obtain rfl := Option.some.inj hget
      rcases List.mem_pair.mp hmem with rfl | rfl
      · obtain rfl := Option.some.inj hlookup
        exact ⟨_, rfl, by decide, by decide, rfl, Or.inl ⟨rfl, rfl⟩⟩
      · obtain rfl := Option.some.inj hlookup
        exact ⟨_, rfl, by decide, by decide, rfl, Or.inl ⟨rfl, rfl⟩⟩
    · obtain rfl := Option.some.inj hget
      obtain rfl : peerId = 8 := List.mem_singleton.mp hmem
      obtain rfl := Option.some.inj hlookup
      exact ⟨_, rfl, by decide, by decide, rfl, Or.inr ⟨rfl, rfl⟩⟩
    · cases hget
  · intro b blockInfo hget peerId announcement hann hlo hhi
    rw [twoAnnouncements] at hann
    split at hann
    · rename_i hpeer
      subst hpeer
      obtain rfl := Option.some.inj hann
      rcases b with _ | _ | b
      · obtain rfl := Option.some.inj hget
        rfl
      · obtain rfl := Option.some.inj hget
        rfl
      · exact absurd hhi (by show ¬ b + 2 < 2; omega)
    · split at hann
      · rename_i hpeer
        subst hpeer
        obtain rfl := Option.some.inj hann
        rcases b with _ | _ | _ | b
        · exact absurd hlo (by decide)
        · obtain rfl := Option.some.inj hget
          rfl
        · obtain rfl := Option.some.inj hget
          rfl
        · exact absurd hhi (by show ¬ b + 3 < 3; omega)
      · cases hann

/-- The last two blocks, and the last one of these. -/
theorem computeSpans_window_two :
    ((Dht.computeSpans (pySlice twoServers 1 3) .joining).lookup 7).map Dht.RemoteSpanInfo.seen
        = some ⟨7, .online, 0, 1⟩ ∧
      ∃ slice, RemoteSequenceInfo.slice ⟨[(1, 0), (2, 1)], pySlice twoServers 1 3⟩
          ⟨some 1, some 2, none⟩ ((pySlice twoServers 1 3).map (·.servers)) = .ok slice ∧
        ((spansByPriority slice.sorted).map Dht.RemoteSpanInfo.seen).Perm [⟨8, .online, 0, 1⟩] := by
  obtain ⟨hwindow, hslice⟩ := computeSpans_window twoServers_announced
  refine ⟨(hwindow 1 2 .joining 7 (by decide)).trans rfl, ?_⟩
  obtain ⟨slice, hok, hperm, -⟩ := hslice ⟨[(1, 0), (2, 1)], pySlice twoServers 1 3⟩
    ((pySlice twoServers 1 3).map (·.servers)) 1 2 1 1 (by decide) (by decide) rfl rfl
  exact ⟨slice, hok, hperm.trans (List.Perm.of_eq (by decide))⟩

end Drift
