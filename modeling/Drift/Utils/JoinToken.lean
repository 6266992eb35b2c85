/-
  `utils/join_token.py`: a multiaddr as a token that is easier to share, and back.

  The token has no protocol of the host; it is inferred from the host, which is an address of IPv6
  in brackets, or else an address or a name.  For the multiaddrs of peers on TCP the two functions
  are inverse but for `dns4` and `dns6`, which become `dns` (`decode_encode`).  A list of both is
  cut at its commas, so a comma in a peer id cuts a token (`parseJoin_listed`, `comma_cuts_token`).

  `decode_join_token` does not look for slashes.  What it makes of a token has the shape of a
  multiaddr and comes back from its own token exactly if there is none in the token, no white space
  ends the peer id and no bracket stands in the zone of an address without brackets
  (`decodeJoinToken_plain_iff`).
-/
import Drift.Lib.Effect
import Drift.Python
import Drift.Strings
import Mathlib.Data.Bool.AllAny
import Mathlib.Tactic.Tauto

namespace Drift

/-- `SCHEME`. -/
def scheme : Text := "drift://".toList

/-- `_HOST_PROTOCOLS`. -/
def hostProtocols : List Text :=
  ["ip4".toList, "ip6".toList, "dns".toList, "dns4".toList, "dns6".toList]

/-- `repr` of a string without quotes and escapes. -/
def quoted (text : Text) : String := s!"'{String.ofList text}'"

def cannotEncode (maddr : Text) (why : String) : PyExc :=
  .valueError (s!"Cannot encode multiaddr {quoted maddr}: " ++ why)

/-- `encode_join_token`. -/
def encodeJoinToken (maddr : Text) : Except PyExc Text :=
  match (strip maddr).splitOn '/' with
  | [[], hostProto, host, transport, port, p2p, peerId] =>
    if hostProto ∉ hostProtocols then .error (cannotEncode maddr
      s!"unsupported host protocol /{String.ofList hostProto}")
    else if transport ≠ "tcp".toList then .error (cannotEncode maddr
      s!"only /tcp addresses are supported, got /{String.ofList transport}")
    else if p2p ≠ "p2p".toList then .error (cannotEncode maddr "expected a /p2p/<peer_id> suffix")
    else if ¬ strIsdigit port then .error (cannotEncode maddr
      s!"port {quoted port} is not numeric")
    else
      let hostPart := if hostProto = "ip6".toList then '[' :: host ++ [']'] else host
      .ok (scheme ++ peerId ++ '@' :: hostPart ++ ':' :: port)
  | _ => .error (cannotEncode maddr "expected /<host_proto>/<host>/tcp/<port>/p2p/<peer_id>")

/-- `_infer_host_protocol`. -/
def inferHostProtocol (host : Text) : Text :=
  match ipVersion host with
  | none => "dns".toList
  | some version => if version = 6 then "ip6".toList else "ip4".toList

def malformed (token : Text) (why : String) : PyExc :=
  .valueError (s!"Malformed join token {quoted token}: " ++ why)

/-- The host of an address with its protocol, and what stands behind it as the port.  A bracket
    closes at the first one, and a port begins behind the last colon. -/
def splitAddress (token address : Text) : Except PyExc (Text × Text × Text) :=
  if address.head? = some '[' then
    match partition ']' address with
    | some (bracketed, ':' :: port) => .ok ("ip6".toList, bracketed.drop 1, port)
    | _ => .error (malformed token "unterminated IPv6 host")
  else match rpartition ':' address with
    | none => .error (malformed token "expected <host>:<port>")
    | some (host, port) => .ok (inferHostProtocol host, host, port)

/-- A multiaddr of a peer on TCP. -/
def tcpMaddr (hostProto host port peerId : Text) : Text :=
  ['/'].intercalate [[], hostProto, host, "tcp".toList, port, "p2p".toList, peerId]

/-- `decode_join_token`. -/
def decodeJoinToken (token : Text) : Except PyExc Text := do
  let token := strip token
  if ¬ scheme <+: lower token then
    .error (.valueError s!"Not a join token (missing 'drift://' scheme): {quoted token}")
  else
    let expected := malformed token "expected drift://<peer_id>@<host>:<port>"
    let (peerId, address) ← orRaise expected (partition '@' (token.drop scheme.length))
    if peerId = [] ∨ address = [] then .error expected
    else
      let (hostProto, host, port) ← splitAddress token address
      if ¬ strIsdigit port then .error (malformed token s!"port {quoted port} is not numeric")
      else .ok (tcpMaddr hostProto host port peerId)

/-- What `parse_join` makes of an item. -/
def parseItem (item : Text) : Except PyExc (List Text) :=
  let item := strip item
  if item = [] then .ok []
  else if scheme <+: lower item then do
    let maddr ← decodeJoinToken item
    .ok [maddr]
  else if item.head? = some '/' then .ok [item]
  else .error (.valueError (s!"Cannot parse join address {quoted item}: expected a drift:// " ++
    "token or a /... multiaddr"))

/-- `parse_join`. -/
def parseJoin (value : Text) : Except PyExc (List Text) := do
  let maddrs ← (value.splitOn ',').mapM parseItem
  if maddrs.flatten = [] then
    .error (.valueError s!"No join addresses found in {quoted value}")
  else .ok maddrs.flatten

/-! ## Decoding -/

/-- The parts of the address in a token. -/
inductive AddressParts : Text → Bool → Text → Text → Prop where
  | bracketed {host port : Text} (hhost : ']' ∉ host) :
      AddressParts ('[' :: (host ++ ']' :: ':' :: port)) true host port
  | plain {host port : Text} (hhost : host.head? ≠ some '[') (hport : ':' ∉ port) :
      AddressParts (host ++ ':' :: port) false host port

/-- The protocol of a host, in brackets or not. -/
def hostProtoOf (bracketed : Bool) (host : Text) : Text :=
  if bracketed then "ip6".toList else inferHostProtocol host

/-- The parts of a token. -/
structure TokenParts (token peerId : Text) (bracketed : Bool) (host port : Text) : Prop where
  hasScheme : scheme <+: lower (strip token)
  body : ∃ address, (strip token).drop scheme.length = peerId ++ '@' :: address ∧
    AddressParts address bracketed host port
  peerId_ne : peerId ≠ []
  peerId_at : '@' ∉ peerId

/-- An address is split exactly when it is a host, in brackets or not, a colon and a port. -/
theorem splitAddress_eq_ok {token address hostProto host port : Text} :
    splitAddress token address = .ok (hostProto, host, port) ↔
      ∃ bracketed, AddressParts address bracketed host port ∧
        hostProto = hostProtoOf bracketed host := by
  rw [splitAddress]
  constructor
  · intro h
    split at h
    · rename_i hbracket
      split at h
      · rename_i bracketed port' hparts
        obtain ⟨haddress, hclose⟩ := partition_eq_some_iff.mp hparts
        cases h
        cases bracketed with
        | nil =>
          rw [haddress, List.nil_append, List.head?_cons, Option.some.injEq] at hbracket
          exact absurd hbracket (by decide)
        | cons c host =>
          rw [haddress, List.cons_append, List.head?_cons, Option.some.injEq] at hbracket
          subst hbracket
          refine ⟨true, ?_, rfl⟩
          rw [haddress]
          exact .bracketed fun hmem => hclose (List.mem_cons_of_mem _ hmem)
      · nomatch h
    · rename_i hplain
      split at h
      · nomatch h
      · rename_i host' port' hparts
        obtain ⟨haddress, hcolon⟩ := rpartition_eq_some_iff.mp hparts
        cases h
        refine ⟨false, ?_, rfl⟩
        rw [haddress] at hplain ⊢
        refine .plain (fun hhead => hplain ?_) hcolon
        rw [List.head?_append, hhead]
        rfl
  · rintro ⟨bracketed, hparts, rfl⟩
    cases hparts with
    | bracketed hhost =>
      have hclose : partition ']' ('[' :: (host ++ ']' :: ':' :: port))
          = some ('[' :: host, ':' :: port) := by
        refine partition_eq_some_iff.mpr ⟨rfl, fun hmem => ?_⟩
        rcases List.mem_cons.mp hmem with heq | hmem
        · exact absurd heq (by decide)
        · exact hhost hmem
      rw [if_pos (List.head?_cons), hclose]
      rfl
    | plain hhost hport =>
      have hsplit : rpartition ':' (host ++ ':' :: port) = some (host, port) :=
        rpartition_eq_some_iff.mpr ⟨rfl, hport⟩
      have hhead : (host ++ ':' :: port).head? ≠ some '[' := by
        cases host with
        | nil =>
          rw [List.nil_append, List.head?_cons, Ne, Option.some.injEq]
          decide
        | cons c host => exact hhost
      rw [if_neg hhead, hsplit]
      rfl

/-- **What a token is decoded to.** -/
theorem decodeJoinToken_eq_ok {token maddr : Text} :
    decodeJoinToken token = .ok maddr ↔ ∃ peerId bracketed host port,
      TokenParts token peerId bracketed host port ∧ strIsdigit port = true ∧
        maddr = tcpMaddr (hostProtoOf bracketed host) host port peerId := by
  rw [decodeJoinToken]
  simp only
  constructor
  · intro h
    split at h
    · nomatch h
    · rename_i hscheme
      obtain ⟨⟨peerId, address⟩, hparts, h⟩ := except_bind_eq_ok.mp h
      rw [orRaise_eq_ok] at hparts
      obtain ⟨hbody, hat⟩ := partition_eq_some_iff.mp hparts
      split at h
      · nomatch h
      · rename_i hne
        obtain ⟨⟨hostProto, host, port⟩, haddress, h⟩ := except_bind_eq_ok.mp h
        obtain ⟨bracketed, haddressParts, rfl⟩ := splitAddress_eq_ok.mp haddress
        split at h
        · nomatch h
        · rename_i hdigits
          cases h
          exact ⟨peerId, bracketed, host, port, ⟨Decidable.not_not.mp hscheme,
            ⟨address, hbody, haddressParts⟩, fun hnil => hne (Or.inl hnil), hat⟩,
            Decidable.not_not.mp hdigits, rfl⟩
  · rintro ⟨peerId, bracketed, host, port, ⟨hscheme, ⟨address, hbody, hparts⟩, hne, hat⟩, hdigits,
      rfl⟩
    have hpartition : partition '@' ((strip token).drop scheme.length) = some (peerId, address) :=
      partition_eq_some_iff.mpr ⟨hbody, hat⟩
    have haddress : address ≠ [] := by
      cases hparts with
      | bracketed _ => exact List.cons_ne_nil _ _
      | plain _ _ => exact List.append_ne_nil_of_right_ne_nil _ (List.cons_ne_nil _ _)
    have hsplit : splitAddress (strip token) address
        = .ok (hostProtoOf bracketed host, host, port) :=
      splitAddress_eq_ok.mpr ⟨bracketed, hparts, rfl⟩
    rw [if_neg (not_not.mpr hscheme), hpartition]
    show (if peerId = [] ∨ address = [] then _ else _) = _
    rw [if_neg (by tauto), hsplit]
    show (if ¬ strIsdigit port = true then _ else _) = _
    rw [if_neg (not_not.mpr hdigits)]

/-! ## Encoding -/

/-- The host as it stands in a token. -/
def hostPart (hostProto host : Text) : Text :=
  if hostProto = "ip6".toList then '[' :: host ++ [']'] else host

/-- The token of a multiaddr with these parts. -/
def joinToken (hostProto host port peerId : Text) : Text :=
  scheme ++ (peerId ++ '@' :: (hostPart hostProto host ++ ':' :: port))

section Encoding

variable {hostProto host port peerId : Text}

theorem strIsdigit_chars (hport : strIsdigit port = true) : port ≠ [] ∧ ∀ c ∈ port, isdigit c := by
  rw [strIsdigit, Bool.and_eq_true, List.all_eq_true] at hport
  refine ⟨?_, hport.2⟩
  rintro rfl
  exact absurd hport.1 (by decide)

theorem not_mem_of_digits (hport : strIsdigit port = true) {c : Char} (hc : isdigit c = false) :
    c ∉ port := by
  intro hmem
  rw [(strIsdigit_chars hport).2 c hmem] at hc
  nomatch hc

theorem tcpMaddr_eq (hostProto host port peerId : Text) : tcpMaddr hostProto host port peerId
    = '/' :: (hostProto ++ '/' :: (host ++ '/' :: ("tcp".toList ++ '/' :: (port ++ '/' ::
      ("p2p".toList ++ '/' :: peerId))))) := by
  simp [tcpMaddr, List.intercalate_cons_cons, List.intercalate_singleton]

theorem getLast?_append_cons (text : Text) (c : Char) (rest : Text) :
    (text ++ c :: rest).getLast? = some (rest.getLast?.getD c) := by
  rw [List.getLast?_append, List.getLast?_cons]
  rfl

/-- No white space is at these ends. -/
structure Trimmed (text : Text) : Prop where
  first : ∀ c, text.head? = some c → isspace c = false
  last : ∀ c, text.getLast? = some c → isspace c = false

/-- Blanks around a text without blanks at its ends are what `strip` takes away. -/
theorem Trimmed.strip_padded {text pad pad' : Text} (h : Trimmed text)
    (hpad : ∀ c ∈ pad, isspace c = true) (hpad' : ∀ c ∈ pad', isspace c = true) :
    strip (pad ++ text ++ pad') = text :=
  stripBy_padded hpad hpad' h.first h.last

theorem Trimmed.strip_self {text : Text} (h : Trimmed text) : strip text = text :=
  stripBy_self h.first h.last

theorem trimmed_tcpMaddr (hlast : ∀ c, peerId.getLast? = some c → isspace c = false) :
    Trimmed (tcpMaddr hostProto host port peerId) where
  first := by
    intro c hc
    rw [tcpMaddr_eq, List.head?_cons] at hc
    obtain rfl := Option.some.inj hc
    decide
  last := by
    intro c hc
    have hend : tcpMaddr hostProto host port peerId = ('/' :: (hostProto ++ '/' :: (host ++ '/' ::
        ("tcp".toList ++ '/' :: (port ++ '/' :: "p2p".toList))))) ++ '/' :: peerId := by
      rw [tcpMaddr_eq]
      simp
    rw [hend, getLast?_append_cons] at hc
    obtain rfl := Option.some.inj hc
    cases hpeer : peerId.getLast? with
    | none => decide
    | some c => exact hlast c hpeer

/-- The slashes of a multiaddr are those between its parts. -/
theorem splitOn_tcpMaddr (hproto : '/' ∉ hostProto) (hhost : '/' ∉ host) (hport : '/' ∉ port)
    (hpeer : '/' ∉ peerId) : (tcpMaddr hostProto host port peerId).splitOn '/'
      = [[], hostProto, host, "tcp".toList, port, "p2p".toList, peerId] := by
  refine List.splitOn_intercalate '/' ?_ (List.cons_ne_nil _ _)
  simp only [List.forall_mem_cons]
  exact ⟨List.not_mem_nil, hproto, hhost, by decide, hport, by decide, hpeer, nofun⟩

/-- **What a multiaddr is encoded to**, with white space around it. -/
theorem encodeJoinToken_of_strip {maddr : Text}
    (hmaddr : strip maddr = tcpMaddr hostProto host port peerId)
    (hproto : hostProto ∈ hostProtocols) (hhost : '/' ∉ host)
    (hport : strIsdigit port = true) (hpeer : '/' ∉ peerId) :
    encodeJoinToken maddr = .ok (joinToken hostProto host port peerId) := by
  have hslash : '/' ∉ hostProto := by
    revert hproto
    exact (by decide : ∀ proto ∈ hostProtocols, '/' ∉ proto) hostProto
  have hdigits : '/' ∉ port := not_mem_of_digits hport (by decide)
  rw [encodeJoinToken, hmaddr, splitOn_tcpMaddr hslash hhost hdigits hpeer]
  simp only
  rw [if_neg (not_not.mpr hproto), if_neg (not_not.mpr rfl), if_neg (not_not.mpr rfl),
    if_neg (not_not.mpr hport), joinToken, hostPart]
  simp only [List.append_assoc]
  rfl

theorem lower_append (text rest : Text) : lower (text ++ rest) = lower text ++ lower rest :=
  List.flatMap_append

theorem trimmed_joinToken (hport : strIsdigit port = true) :
    Trimmed (joinToken hostProto host port peerId) where
  first := by
    intro c hc
    obtain rfl : 'd' = c := Option.some.inj hc
    decide
  last := by
    obtain ⟨hne, hdigits⟩ := strIsdigit_chars hport
    intro c hc
    have hend : joinToken hostProto host port peerId
        = (scheme ++ peerId ++ '@' :: hostPart hostProto host) ++ ':' :: port := by
      rw [joinToken]
      simp only [List.append_assoc, List.cons_append]
    rw [hend, getLast?_append_cons, List.getLast?_eq_some_getLast hne] at hc
    obtain rfl := Option.some.inj hc
    exact isdigit_not_isspace (hdigits _ (List.getLast_mem hne))

/-- A token begins with the scheme, which is how `parse_join` tells it from a multiaddress. -/
theorem scheme_prefix_joinToken : scheme <+: lower (joinToken hostProto host port peerId) := by
  rw [joinToken, lower_append]
  exact (by decide : lower scheme = scheme) ▸ List.prefix_append _ _

/-- The parts of the token of a multiaddr. -/
theorem tokenParts_joinToken (hport : strIsdigit port = true) (hne : peerId ≠ [])
    (hat : '@' ∉ peerId) {bracketed : Bool}
    (hparts : AddressParts (hostPart hostProto host ++ ':' :: port) bracketed host port) :
    TokenParts (joinToken hostProto host port peerId) peerId bracketed host port := by
  have hstrip : strip (joinToken hostProto host port peerId)
      = joinToken hostProto host port peerId := (trimmed_joinToken hport).strip_self
  refine ⟨?_, ⟨_, ?_, hparts⟩, hne, hat⟩
  · rw [hstrip]
    exact scheme_prefix_joinToken
  · rw [hstrip, joinToken, List.drop_left]

/-- The address in the token of a multiaddr. -/
theorem addressParts_hostPart (hport : strIsdigit port = true)
    (hclose : hostProto = "ip6".toList → ']' ∉ host)
    (hopen : hostProto ≠ "ip6".toList → host.head? ≠ some '[') :
    AddressParts (hostPart hostProto host ++ ':' :: port) (decide (hostProto = "ip6".toList)) host
      port := by
  by_cases hproto : hostProto = "ip6".toList
  · rw [hostPart, if_pos hproto, decide_eq_true hproto]
    have haddress : '[' :: host ++ [']'] ++ ':' :: port = '[' :: (host ++ ']' :: ':' :: port) := by
      simp
    rw [haddress]
    exact .bracketed (hclose hproto)
  · rw [hostPart, if_neg hproto, decide_eq_false hproto]
    exact .plain (hopen hproto) (not_mem_of_digits hport (by decide))

end Encoding

/-! ## The round trip of a multiaddr -/

/-- No separator of multiaddrs, tokens and lists of them; letters, digits, dots and hyphens are
    none. -/
def isNameChar (c : Char) : Bool := !isspace c && decide (c ∉ ['/', ':', '[', ']', '@', ','])

/-- A host, with its protocol. -/
inductive HostOf : Text → Text → Prop where
  | ip4 {host : Text} (hhost : isIPv4 host = true) : HostOf "ip4".toList host
  | ip6 {host : Text} (hhost : isIPv6 host = true) (hzone : '%' ∉ host) : HostOf "ip6".toList host
  | name {hostProto host : Text}
      (hproto : hostProto ∈ ["dns".toList, "dns4".toList, "dns6".toList]) (hne : host ≠ [])
      (hchars : ∀ c ∈ host, isNameChar c = true) (hliteral : ipVersion host = none) :
      HostOf hostProto host

/-- A multiaddr of a peer that is worth sharing. -/
structure PeerMaddr where
  hostProto : Text
  host : Text
  port : Text
  peerId : Text
  hostOf : HostOf hostProto host
  portDigits : strIsdigit port = true
  peerId_ne : peerId ≠ []
  peerIdChars : ∀ c ∈ peerId, c ≠ '/' ∧ c ≠ '@' ∧ isspace c = false

namespace PeerMaddr

def text (m : PeerMaddr) : Text := tcpMaddr m.hostProto m.host m.port m.peerId

/-- The same with `dns` for `dns4` and `dns6`. -/
def collapsed (m : PeerMaddr) : Text :=
  tcpMaddr (if m.hostProto = "dns4".toList ∨ m.hostProto = "dns6".toList then "dns".toList
    else m.hostProto) m.host m.port m.peerId

end PeerMaddr

section RoundTrip

variable {hostProto host : Text}

/-- What a host consists of. -/
theorem HostOf.chars (h : HostOf hostProto host) :
    ∀ c ∈ host, isAddressChar c = true ∨ isNameChar c = true := by
  intro c hc
  cases h with
  | ip4 hhost => exact Or.inl (isIPv4_addressChars hhost hc)
  | ip6 hhost hzone => exact Or.inl (isIPv6_chars hhost hzone hc)
  | name _ _ hchars _ => exact Or.inr (hchars c hc)

/-- A character that neither an address nor a name may have is not in a host. -/
theorem HostOf.not_mem (h : HostOf hostProto host) {c : Char} (haddress : isAddressChar c = false)
    (hname : isNameChar c = false) : c ∉ host := by
  intro hc
  rcases h.chars c hc with hchar | hchar
  · rw [haddress] at hchar
    nomatch hchar
  · rw [hname] at hchar
    nomatch hchar

theorem HostOf.mem_hostProtocols (h : HostOf hostProto host) : hostProto ∈ hostProtocols := by
  cases h with
  | ip4 _ => decide
  | ip6 _ _ => decide
  | name hproto _ _ _ =>
    exact (by decide : ∀ proto ∈ ["dns".toList, "dns4".toList, "dns6".toList],
      proto ∈ hostProtocols) _ hproto

/-- **The protocol of a host is inferred.** -/
theorem HostOf.inferred (h : HostOf hostProto host) :
    hostProtoOf (decide (hostProto = "ip6".toList)) host
      = if hostProto = "dns4".toList ∨ hostProto = "dns6".toList then "dns".toList
        else hostProto := by
  cases h with
  | ip4 hhost =>
    show inferHostProtocol host = _
    rw [inferHostProtocol, ipVersion, if_pos hhost]
    decide
  | ip6 _ _ => rfl
  | name hproto _ _ hliteral =>
    have hinfer : inferHostProtocol host = "dns".toList := by
      rw [inferHostProtocol, hliteral]
    have hproto' : decide (hostProto = "ip6".toList) = false := by
      revert hproto
      exact (by decide : ∀ proto ∈ ["dns".toList, "dns4".toList, "dns6".toList],
        decide (proto = "ip6".toList) = false) hostProto
    rw [hproto']
    show inferHostProtocol host = _
    rw [hinfer]
    revert hproto
    exact (by decide : ∀ proto ∈ ["dns".toList, "dns4".toList, "dns6".toList],
      "dns".toList = if proto = "dns4".toList ∨ proto = "dns6".toList then "dns".toList
        else proto) hostProto

/-- The host and the port of a token are found again by splitting it. -/
theorem HostOf.addressParts (h : HostOf hostProto host) {port : Text}
    (hport : strIsdigit port = true) :
    AddressParts (hostPart hostProto host ++ ':' :: port) (decide (hostProto = "ip6".toList)) host
      port := by
  refine addressParts_hostPart hport (fun _ => h.not_mem (by decide) (by decide)) fun _ hhead => ?_
  exact h.not_mem (by decide) (by decide) (List.mem_of_mem_head? hhead)

/-- A multiaddress of a listening peer always encodes, to the token of its parts. -/
theorem PeerMaddr.encode (m : PeerMaddr) :
    encodeJoinToken m.text = .ok (joinToken m.hostProto m.host m.port m.peerId) := by
  have htrimmed : Trimmed m.text :=
    trimmed_tcpMaddr fun c hc => (m.peerIdChars c (List.mem_of_mem_getLast? hc)).2.2
  exact encodeJoinToken_of_strip htrimmed.strip_self m.hostOf.mem_hostProtocols
    (m.hostOf.not_mem (by decide) (by decide)) m.portDigits
    fun hmem => (m.peerIdChars _ hmem).1 rfl

/-- That token decodes to the multiaddress with the host protocol read off the host. -/
theorem PeerMaddr.decode (m : PeerMaddr) :
    decodeJoinToken (joinToken m.hostProto m.host m.port m.peerId) = .ok m.collapsed := by
  refine decodeJoinToken_eq_ok.mpr ⟨m.peerId, _, m.host, m.port,
    tokenParts_joinToken m.portDigits m.peerId_ne (fun hmem => (m.peerIdChars _ hmem).2.1 rfl)
      (m.hostOf.addressParts m.portDigits), m.portDigits, ?_⟩
  rw [m.hostOf.inferred]
  rfl

end RoundTrip

/-! ## Lists -/

/-- An item of a list, and the multiaddrs it stands for: a token or a multiaddr between white space,
    or nothing. -/
inductive ListedItem : Text → List Text → Prop where
  | blank {pad : Text} (hpad : ∀ c ∈ pad, isspace c = true) : ListedItem pad []
  | token {pad pad' token : Text} (m : PeerMaddr) (hcomma : ',' ∉ m.peerId)
      (hpad : ∀ c ∈ pad, isspace c = true) (hpad' : ∀ c ∈ pad', isspace c = true)
      (htoken : encodeJoinToken m.text = .ok token) :
      ListedItem (pad ++ token ++ pad') [m.collapsed]
  | maddr {pad pad' : Text} (m : PeerMaddr) (hcomma : ',' ∉ m.peerId)
      (hpad : ∀ c ∈ pad, isspace c = true) (hpad' : ∀ c ∈ pad', isspace c = true) :
      ListedItem (pad ++ m.text ++ pad') [m.text]

section Lists

theorem comma_not_mem_pad {pad : Text} (hpad : ∀ c ∈ pad, isspace c = true) : ',' ∉ pad := by
  intro hmem
  exact absurd (hpad ',' hmem) (by decide)

theorem PeerMaddr.trimmed (m : PeerMaddr) : Trimmed m.text :=
  trimmed_tcpMaddr fun c hc => (m.peerIdChars c (List.mem_of_mem_getLast? hc)).2.2

/-- The only commas are in the peer id. -/
theorem PeerMaddr.comma_not_mem (m : PeerMaddr) (hcomma : ',' ∉ m.peerId) :
    ',' ∉ m.text ∧ ',' ∉ joinToken m.hostProto m.host m.port m.peerId := by
  have hproto : ',' ∉ m.hostProto :=
    (by decide : ∀ proto ∈ hostProtocols, ',' ∉ proto) _ m.hostOf.mem_hostProtocols
  have hhost : ',' ∉ m.host := m.hostOf.not_mem (by decide) (by decide)
  have hport : ',' ∉ m.port := not_mem_of_digits m.portDigits (by decide)
  have hpart : ',' ∉ hostPart m.hostProto m.host := by
    rw [hostPart]
    split
    · simp [hhost]
    · exact hhost
  have hscheme : ',' ∉ scheme := by decide
  refine ⟨?_, ?_⟩
  · rw [PeerMaddr.text, tcpMaddr_eq]
    simp [hproto, hhost, hport, hcomma]
  · rw [joinToken]
    simp [hscheme, hcomma, hpart, hport]

/-- An item of a `--join` list has no comma, so splitting the list gives it back. -/
theorem ListedItem.comma_not_mem {item : Text} {maddrs : List Text} (h : ListedItem item maddrs) :
    ',' ∉ item := by
  cases h with
  | blank hpad => exact comma_not_mem_pad hpad
  | token m hcomma hpad hpad' htoken =>
    rw [m.encode] at htoken
    obtain rfl := Except.ok.inj htoken
    simp [comma_not_mem_pad hpad, comma_not_mem_pad hpad', (m.comma_not_mem hcomma).2]
  | maddr m hcomma hpad hpad' =>
    simp [comma_not_mem_pad hpad, comma_not_mem_pad hpad', (m.comma_not_mem hcomma).1]

/-- **One item.** -/
theorem ListedItem.parseItem {item : Text} {maddrs : List Text} (h : ListedItem item maddrs) :
    Drift.parseItem item = .ok maddrs := by
  rw [Drift.parseItem]
  cases h with
  | blank hpad =>
    have hstrip : strip item = [] := stripBy_blank hpad
    simp only [hstrip]
    rfl
  | token m hcomma hpad hpad' htoken =>
    rw [m.encode] at htoken
    obtain rfl := Except.ok.inj htoken
    have htrimmed : Trimmed (joinToken m.hostProto m.host m.port m.peerId) :=
      trimmed_joinToken m.portDigits
    have hne : joinToken m.hostProto m.host m.port m.peerId ≠ [] := List.cons_ne_nil _ _
    simp only [htrimmed.strip_padded hpad hpad', if_neg hne, if_pos scheme_prefix_joinToken,
      m.decode]
    rfl
  | maddr m hcomma hpad hpad' =>
    have hslash : m.text.head? = some '/' := by rw [PeerMaddr.text, tcpMaddr_eq, List.head?_cons]
    have hne : m.text ≠ [] := by
      intro hnil
      rw [hnil] at hslash
      nomatch hslash
    have hscheme : ¬ scheme <+: lower m.text := by
      rw [PeerMaddr.text, tcpMaddr_eq]
      rintro ⟨rest, heq⟩
      exact absurd (List.cons.inj heq).1 (by decide)
    simp only [m.trimmed.strip_padded hpad hpad', if_neg hne, if_neg hscheme, if_pos hslash]

/-- **A multiaddr comes back from its token**, and a list of tokens and multiaddrs gives what they
    stand for, in order. -/
theorem joinToken_roundTrip :
    (∀ m : PeerMaddr, ∃ token, encodeJoinToken m.text = .ok token ∧
      decodeJoinToken token = .ok m.collapsed) ∧
    ∀ (items : List Text) (maddrs : List (List Text)), List.Forall₂ ListedItem items maddrs →
      maddrs.flatten ≠ [] → parseJoin ([','].intercalate items) = .ok maddrs.flatten := by
  refine ⟨fun m => ⟨_, m.encode, m.decode⟩, fun items maddrs hitems hsome => ?_⟩
  have hne : items ≠ [] := by
    rintro rfl
    rw [List.forall₂_nil_left_iff.mp hitems] at hsome
    exact hsome rfl
  have hcomma : ∀ item ∈ items, ',' ∉ item := by
    intro item hitem
    obtain ⟨i, hi, rfl⟩ := List.getElem_of_mem hitem
    exact (hitems.get hi (hitems.length_eq ▸ hi)).comma_not_mem
  have hmap : items.mapM parseItem = .ok maddrs := by
    clear hne hcomma hsome
    induction hitems with
    | nil => rfl
    | cons hitem _ ih =>
      rw [List.mapM_cons, hitem.parseItem, ih]
      rfl
  rw [parseJoin, List.splitOn_intercalate ',' hcomma hne, hmap]
  show (if maddrs.flatten = [] then _ else _) = _
  rw [if_neg hsome]

/-- `/ip6/::1/tcp/5/p2p/Qm`. -/
def loopback : PeerMaddr where
  hostProto := "ip6".toList
  host := "::1".toList
  port := "5".toList
  peerId := "Qm".toList
  hostOf := .ip6 (by decide) (by decide)
  portDigits := by decide
  peerId_ne := by decide
  peerIdChars := List.all_iff_forall_prop.mp (by decide)

/-- `/dns4/a-b.example/tcp/443/p2p/Qn`. -/
def named : PeerMaddr where
  hostProto := "dns4".toList
  host := "a-b.example".toList
  port := "443".toList
  peerId := "Qn".toList
  hostOf := .name (by decide) (by decide) (List.all_iff_forall_prop.mp (by decide)) (by decide)
  portDigits := by decide
  peerId_ne := by decide
  peerIdChars := List.all_iff_forall_prop.mp (by decide)

theorem joinToken_roundTrip_pair :
    (∀ m : PeerMaddr, ∃ token, encodeJoinToken m.text = .ok token ∧
      decodeJoinToken token = .ok m.collapsed) ∧
    parseJoin ([','].intercalate
        [" ".toList ++ loopback.text ++ [], [] ++ "drift://Qn@a-b.example:443".toList ++ [], []])
      = .ok [[loopback.text], [named.collapsed], []].flatten :=
  ⟨joinToken_roundTrip.1, joinToken_roundTrip.2 _ _
    (.cons (.maddr loopback (by decide) (List.all_iff_forall_prop.mp (by decide))
        (List.forall_mem_nil _))
      (.cons (.token named (by decide) (List.forall_mem_nil _) (List.forall_mem_nil _) (by decide))
        (.cons (.blank (List.forall_mem_nil _)) .nil)))
    (by decide)⟩

/-- `/ip4/10.0.0.5/tcp/6000/p2p/Q,m`. -/
def commaPeer : PeerMaddr where
  hostProto := "ip4".toList
  host := "10.0.0.5".toList
  port := "6000".toList
  peerId := "Q,m".toList
  hostOf := .ip4 (by decide)
  portDigits := by decide
  peerId_ne := by decide
  peerIdChars := List.all_iff_forall_prop.mp (by decide)

/-- **A comma in a peer id** cuts its token. -/
theorem comma_cuts_token :
    encodeJoinToken commaPeer.text = .ok "drift://Q,m@10.0.0.5:6000".toList ∧
      ¬ parseJoin "drift://Q,m@10.0.0.5:6000".toList = .ok [commaPeer.text] := by
  decide

end Lists

/-! ## What is decoded -/

/-- A plain multiaddr, which comes back from its token. -/
structure PlainMaddr (maddr : Text) : Prop where
  shape : ∃ hostProto host port peerId,
    hostProto ∈ ["ip4".toList, "ip6".toList, "dns".toList] ∧ host ≠ [] ∧ '/' ∉ host ∧
      strIsdigit port = true ∧ peerId ≠ [] ∧ '/' ∉ peerId ∧
      maddr = tcpMaddr hostProto host port peerId
  roundTrip : ∃ token, encodeJoinToken maddr = .ok token ∧ decodeJoinToken token = .ok maddr

/-- A token with a host and without slashes behind the scheme, with no white space at the end of the
    peer id, and with no bracket in an address of IPv6 that stands without brackets. -/
def PlainToken (token : Text) : Prop :=
  '/' ∉ (strip token).drop scheme.length ∧ ∃ peerId bracketed host port,
    TokenParts token peerId bracketed host port ∧ host ≠ [] ∧
      (∀ c, peerId.getLast? = some c → isspace c = false) ∧
      (bracketed = false → ipVersion host = some 6 → ']' ∉ host)

section Plain

variable {token peerId host port : Text} {bracketed : Bool}

theorem hostProtoOf_mem (bracketed : Bool) (host : Text) :
    hostProtoOf bracketed host ∈ ["ip4".toList, "ip6".toList, "dns".toList] := by
  rw [hostProtoOf]
  split
  · decide
  · rw [inferHostProtocol]
    split
    · decide
    · split <;> decide

/-- A host that is put in brackets, or not, as its protocol asks keeps it. -/
theorem hostProtoOf_again (bracketed : Bool) (host : Text) :
    hostProtoOf (decide (hostProtoOf bracketed host = "ip6".toList)) host
      = hostProtoOf bracketed host := by
  by_cases hproto : hostProtoOf bracketed host = "ip6".toList
  · rw [decide_eq_true hproto, hproto]
    rfl
  · rw [decide_eq_false hproto]
    cases bracketed with
    | true => exact absurd rfl hproto
    | false => rfl

/-- The slashes of a token are those of its host and of its peer id. -/
theorem TokenParts.slash_iff (h : TokenParts token peerId bracketed host port)
    (hport : strIsdigit port = true) :
    '/' ∉ (strip token).drop scheme.length ↔ '/' ∉ host ∧ '/' ∉ peerId := by
  have hdigits : '/' ∉ port := not_mem_of_digits hport (by decide)
  obtain ⟨address, hbody, hparts⟩ := h.body
  rw [hbody]
  cases hparts <;> simp [hdigits] <;> tauto

/-- Without brackets only an IPv6 address is given the protocol `ip6`. -/
theorem ipVersion_of_inferred (h : hostProtoOf false host = "ip6".toList) :
    ipVersion host = some 6 := by
  replace h : inferHostProtocol host = "ip6".toList := h
  rw [inferHostProtocol] at h
  split at h
  · exact absurd h (by decide)
  · rename_i version hversion
    split at h
    · rename_i hsix
      rw [hversion, hsix]
    · exact absurd h (by decide)

/-- **The address of the token** of a decoded multiaddr: brackets may be put around the host, which
    is then read up to the first one that closes. -/
theorem AddressParts.reencoded {address : Text} (h : AddressParts address bracketed host port)
    (hport : strIsdigit port = true)
    (hzone : bracketed = false → ipVersion host = some 6 → ']' ∉ host) :
    AddressParts (hostPart (hostProtoOf bracketed host) host ++ ':' :: port)
      (decide (hostProtoOf bracketed host = "ip6".toList)) host port := by
  cases h with
  | bracketed hclose => exact addressParts_hostPart hport (fun _ => hclose) fun hne => absurd rfl hne
  | plain hopen _ =>
    refine addressParts_hostPart hport (fun hproto => hzone rfl ?_) fun _ => hopen
    exact ipVersion_of_inferred hproto

/-- A token has its peer id up to the first `@`. -/
theorem TokenParts.joinToken {hostProto host' port' peerId' : Text}
    (h : TokenParts (Drift.joinToken hostProto host port peerId) peerId' bracketed host' port')
    (hport : strIsdigit port = true) (hat : '@' ∉ peerId) :
    peerId' = peerId ∧
      AddressParts (hostPart hostProto host ++ ':' :: port) bracketed host' port' := by
  obtain ⟨address, hbody, hparts⟩ := h.body
  have htrimmed : Trimmed (Drift.joinToken hostProto host port peerId) := trimmed_joinToken hport
  rw [htrimmed.strip_self, Drift.joinToken, List.drop_left] at hbody
  have hfirst : partition '@' (peerId ++ '@' :: (hostPart hostProto host ++ ':' :: port))
      = some (peerId, hostPart hostProto host ++ ':' :: port) :=
    partition_eq_some_iff.mpr ⟨rfl, hat⟩
  have hsecond : partition '@' (peerId ++ '@' :: (hostPart hostProto host ++ ':' :: port))
      = some (peerId', address) :=
    partition_eq_some_iff.mpr ⟨hbody, h.peerId_at⟩
  obtain ⟨rfl, rfl⟩ := Prod.mk.inj (Option.some.inj (hfirst.symm.trans hsecond))
  exact ⟨rfl, hparts⟩

/-- A host in brackets that is read back has no closing one. -/
theorem AddressParts.close_not_mem {host' port' : Text}
    (h : AddressParts ('[' :: host ++ [']'] ++ ':' :: port) bracketed host' port')
    (hport : strIsdigit port = true) (hport' : strIsdigit port' = true) : ']' ∉ host := by
  have hdigits : ']' ∉ port := not_mem_of_digits hport (by decide)
  have hdigits' : ']' ∉ port' := not_mem_of_digits hport' (by decide)
  generalize haddress : '[' :: host ++ [']'] ++ ':' :: port = address at h
  cases h with
  | bracketed hclose =>
    have hcount := congrArg (List.count ']') haddress
    simp only [List.count_append, List.count_cons, List.count_nil, List.count_eq_zero.mpr hdigits,
      List.count_eq_zero.mpr hdigits', List.count_eq_zero.mpr hclose] at hcount
    refine List.count_eq_zero.mp ?_
    simp at hcount
    omega
  | plain hopen _ =>
    exfalso
    cases host' with
    | nil => exact absurd (List.cons.inj haddress).1 (by decide)
    | cons c host' =>
      obtain rfl := (List.cons.inj haddress).1
      exact hopen rfl

/-- The slashes of a multiaddr are all between its parts. -/
theorem slash_of_tcpMaddr_eq {hostProto hostProto' host' port' peerId' : Text}
    (heq : tcpMaddr hostProto host port peerId = tcpMaddr hostProto' host' port' peerId')
    (hproto' : '/' ∉ hostProto') (hhost' : '/' ∉ host') (hport' : '/' ∉ port')
    (hpeer' : '/' ∉ peerId') : '/' ∉ host ∧ '/' ∉ peerId := by
  have hcount := congrArg (List.count '/') heq
  rw [tcpMaddr_eq, tcpMaddr_eq] at hcount
  simp only [List.count_append, List.count_cons, List.count_eq_zero.mpr hproto',
    List.count_eq_zero.mpr hhost', List.count_eq_zero.mpr hport',
    List.count_eq_zero.mpr hpeer'] at hcount
  constructor
  · refine List.count_eq_zero.mp ?_
    omega
  · refine List.count_eq_zero.mp ?_
    omega

/-- **What a plain token is decoded to** is plain. -/
theorem PlainToken.plainMaddr (h : PlainToken token) {maddr : Text}
    (hdecode : decodeJoinToken token = .ok maddr) : PlainMaddr maddr := by
  obtain ⟨hslash, peerId, bracketed, host, port, hparts, hhost, hlast, hzone⟩ := h
  obtain ⟨address, hbody, haddress⟩ := hparts.body
  -- the port that is decoded is that of these parts
  have hport : strIsdigit port = true := by
    by_contra hport
    have hpartition : partition '@' ((strip token).drop scheme.length) = some (peerId, address) :=
      partition_eq_some_iff.mpr ⟨hbody, hparts.peerId_at⟩
    have hsplit : splitAddress (strip token) address
        = .ok (hostProtoOf bracketed host, host, port) :=
      splitAddress_eq_ok.mpr ⟨bracketed, haddress, rfl⟩
    have hne : ¬ (peerId = [] ∨ address = []) := by
      rintro (hnil | rfl)
      · exact hparts.peerId_ne hnil
      · nomatch hsplit
    rw [decodeJoinToken] at hdecode
    simp only at hdecode
    rw [if_neg (not_not.mpr hparts.hasScheme), hpartition] at hdecode
    replace hdecode : (if peerId = [] ∨ address = [] then _ else _) = Except.ok maddr := hdecode
    rw [if_neg hne, hsplit] at hdecode
    replace hdecode : (if ¬ strIsdigit port = true then _ else _) = Except.ok maddr := hdecode
    rw [if_pos hport] at hdecode
    nomatch hdecode
  obtain ⟨hhostSlash, hpeerSlash⟩ := (hparts.slash_iff hport).mp hslash
  have hmaddr : maddr = tcpMaddr (hostProtoOf bracketed host) host port peerId := by
    have hagain := decodeJoinToken_eq_ok.mpr ⟨peerId, bracketed, host, port, hparts, hport, rfl⟩
    exact Except.ok.inj (hdecode.symm.trans hagain)
  have hproto := hostProtoOf_mem bracketed host
  have hprotocol : hostProtoOf bracketed host ∈ hostProtocols :=
    (by decide : ∀ proto ∈ ["ip4".toList, "ip6".toList, "dns".toList], proto ∈ hostProtocols) _
      hproto
  have htrimmed : Trimmed (tcpMaddr (hostProtoOf bracketed host) host port peerId) :=
    trimmed_tcpMaddr hlast
  refine ⟨⟨_, host, port, peerId, hproto, hhost, hhostSlash, hport, hparts.peerId_ne, hpeerSlash,
    hmaddr⟩, _, ?_, decodeJoinToken_eq_ok.mpr ⟨peerId, _, host, port,
      tokenParts_joinToken hport hparts.peerId_ne hparts.peerId_at
        (haddress.reencoded hport hzone), hport, ?_⟩⟩
  · exact encodeJoinToken_of_strip (hmaddr ▸ htrimmed.strip_self) hprotocol hhostSlash hport
      hpeerSlash
  · -- a host is inferred to be what it was
    rw [hmaddr, hostProtoOf_again]

/-- **A decoded multiaddr that is plain** comes from a plain token. -/
theorem PlainMaddr.plainToken {maddr : Text} (h : PlainMaddr maddr)
    (hdecode : decodeJoinToken token = .ok maddr) : PlainToken token := by
  obtain ⟨peerId, bracketed, host, port, hparts, hport, rfl⟩ := decodeJoinToken_eq_ok.mp hdecode
  obtain ⟨⟨hostProto', host', port', peerId', hproto', hhost', hhostSlash', hport', -, hpeerSlash',
    heq⟩, token', hencode, hdecode'⟩ := h
  have hprotoSlash' : '/' ∉ hostProto' :=
    (by decide : ∀ proto ∈ ["ip4".toList, "ip6".toList, "dns".toList], '/' ∉ proto) _ hproto'
  have hportSlash' : '/' ∉ port' := not_mem_of_digits hport' (by decide)
  obtain ⟨hhostSlash, hpeerSlash⟩ :=
    slash_of_tcpMaddr_eq heq hprotoSlash' hhostSlash' hportSlash' hpeerSlash'
  have hproto := hostProtoOf_mem bracketed host
  have hprotoSlash : '/' ∉ hostProtoOf bracketed host :=
    (by decide : ∀ proto ∈ ["ip4".toList, "ip6".toList, "dns".toList], '/' ∉ proto) _ hproto
  have hportSlash : '/' ∉ port := not_mem_of_digits hport (by decide)
  have hprotocol : hostProtoOf bracketed host ∈ hostProtocols :=
    (by decide : ∀ proto ∈ ["ip4".toList, "ip6".toList, "dns".toList], proto ∈ hostProtocols) _
      hproto
  have hhost : host ≠ [] := by
    have hsplit := congrArg (List.splitOn '/') heq
    rw [splitOn_tcpMaddr hprotoSlash hhostSlash hportSlash hpeerSlash,
      splitOn_tcpMaddr hprotoSlash' hhostSlash' hportSlash' hpeerSlash'] at hsplit
    injection hsplit with _ hsplit
    injection hsplit with _ hsplit
    injection hsplit with hsame _
    rw [hsame]
    exact hhost'
  -- encoding strips the multiaddr
  obtain ⟨trimmed, pad, rfl, hpad, hlast⟩ := exists_trimRight isspace peerId
  have htrimmed : Trimmed (tcpMaddr (hostProtoOf bracketed host) host port trimmed) :=
    trimmed_tcpMaddr hlast
  have hpadded : tcpMaddr (hostProtoOf bracketed host) host port (trimmed ++ pad)
      = [] ++ tcpMaddr (hostProtoOf bracketed host) host port trimmed ++ pad := by
    simp [tcpMaddr_eq]
  have hstrip : strip (tcpMaddr (hostProtoOf bracketed host) host port (trimmed ++ pad))
      = tcpMaddr (hostProtoOf bracketed host) host port trimmed := by
    rw [hpadded]
    exact htrimmed.strip_padded nofun hpad
  have htoken := encodeJoinToken_of_strip hstrip hprotocol hhostSlash hport
    fun hmem => hpeerSlash (List.mem_append_left _ hmem)
  obtain rfl := Except.ok.inj (hencode.symm.trans htoken)
  obtain ⟨peerId₂, bracketed₂, host₂, port₂, hparts₂, hport₂, heq₂⟩ :=
    decodeJoinToken_eq_ok.mp hdecode'
  have hat : '@' ∉ trimmed := fun hmem => hparts.peerId_at (List.mem_append_left _ hmem)
  obtain ⟨rfl, haddress₂⟩ := hparts₂.joinToken hport hat
  have hpadNil : pad = [] := by
    cases hend : pad.getLast? with
    | none => exact List.getLast?_eq_none_iff.mp hend
    | some c =>
      exfalso
      have hspace := hpad c (List.mem_of_mem_getLast? hend)
      have hdecoded : Trimmed (tcpMaddr (hostProtoOf bracketed₂ host₂) host₂ port₂ peerId₂) :=
        trimmed_tcpMaddr hlast
      rw [← heq₂, hpadded, List.nil_append] at hdecoded
      have hnot := hdecoded.last c (by rw [List.getLast?_append, hend]; rfl)
      rw [hspace] at hnot
      nomatch hnot
  subst hpadNil
  rw [List.append_nil] at hparts hpeerSlash
  refine ⟨(hparts.slash_iff hport).mpr ⟨hhostSlash, hpeerSlash⟩, peerId₂, bracketed, host, port,
    hparts, hhost, hlast, fun hplain hsix => ?_⟩
  subst hplain
  have hproto6 : hostProtoOf false host = "ip6".toList := by
    show inferHostProtocol host = _
    rw [inferHostProtocol, hsix]
    rfl
  rw [hproto6, hostPart, if_pos rfl] at haddress₂
  exact haddress₂.close_not_mem hport hport₂

/-- **A token is decoded to a plain multiaddr** exactly if it is a plain token. -/
theorem decodeJoinToken_plain_iff {maddr : Text} (hdecode : decodeJoinToken token = .ok maddr) :
    PlainMaddr maddr ↔ PlainToken token :=
  ⟨fun h => h.plainToken hdecode, fun h => h.plainMaddr hdecode⟩

theorem decodeJoinToken_plain_iff_ip4 :
    PlainMaddr "/ip4/10.0.0.5/tcp/6000/p2p/Qm".toList ↔
      PlainToken " drift://Qm@10.0.0.5:6000".toList :=
  decodeJoinToken_plain_iff (by decide)

/-- **A relay** in a token. -/
theorem relay_in_token :
    decodeJoinToken "drift://Qm/p2p-circuit/p2p/Qn@10.0.0.5:6000".toList
        = .ok "/ip4/10.0.0.5/tcp/6000/p2p/Qm/p2p-circuit/p2p/Qn".toList ∧
      ¬ PlainMaddr "/ip4/10.0.0.5/tcp/6000/p2p/Qm/p2p-circuit/p2p/Qn".toList := by
  refine ⟨by decide, fun h => ?_⟩
  obtain ⟨token, hencode, -⟩ := h.roundTrip
  have hraises : ∃ exc, encodeJoinToken
      "/ip4/10.0.0.5/tcp/6000/p2p/Qm/p2p-circuit/p2p/Qn".toList = .error exc := ⟨_, rfl⟩
  obtain ⟨exc, hraises⟩ := hraises
  rw [hraises] at hencode
  nomatch hencode

end Plain

end Drift
