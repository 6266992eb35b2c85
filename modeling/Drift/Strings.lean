/-
  The methods of strings that the models below share, and `ipaddress`.

  `str.isspace` and `str.isdigit` go by the tables of Unicode: a digit need not be one of ASCII.
  The octets of an IPv4 address and the hextets of an IPv6 address have ASCII digits only.  Of an
  address only the version matters.
-/
import Drift.Lib.Text

namespace Drift

/-! ## Characters -/

/-- The white space of Unicode, and the separators of ASCII. -/
def spaceRanges : List (Nat × Nat) :=
  [(0x9, 0xd), (0x1c, 0x20), (0x85, 0x85), (0xa0, 0xa0), (0x1680, 0x1680), (0x2000, 0x200a),
    (0x2028, 0x2029), (0x202f, 0x202f), (0x205f, 0x205f), (0x3000, 0x3000)]

/-- The characters with the property `Numeric_Type=Digit` or `Numeric_Type=Decimal`. -/
def digitRanges : List (Nat × Nat) :=
  [(0x30, 0x39), (0xb2, 0xb3), (0xb9, 0xb9), (0x660, 0x669), (0x6f0, 0x6f9), (0x7c0, 0x7c9),
    (0x966, 0x96f), (0x9e6, 0x9ef), (0xa66, 0xa6f), (0xae6, 0xaef), (0xb66, 0xb6f),
    (0xbe6, 0xbef), (0xc66, 0xc6f), (0xce6, 0xcef), (0xd66, 0xd6f), (0xde6, 0xdef),
    (0xe50, 0xe59), (0xed0, 0xed9), (0xf20, 0xf29), (0x1040, 0x1049), (0x1090, 0x1099),
    (0x1369, 0x1371), (0x17e0, 0x17e9), (0x1810, 0x1819), (0x1946, 0x194f), (0x19d0, 0x19da),
    (0x1a80, 0x1a89), (0x1a90, 0x1a99), (0x1b50, 0x1b59), (0x1bb0, 0x1bb9), (0x1c40, 0x1c49),
    (0x1c50, 0x1c59), (0x2070, 0x2070), (0x2074, 0x2079), (0x2080, 0x2089), (0x2460, 0x2468),
    (0x2474, 0x247c), (0x2488, 0x2490), (0x24ea, 0x24ea), (0x24f5, 0x24fd), (0x24ff, 0x24ff),
    (0x2776, 0x277e), (0x2780, 0x2788), (0x278a, 0x2792), (0xa620, 0xa629), (0xa8d0, 0xa8d9),
    (0xa900, 0xa909), (0xa9d0, 0xa9d9), (0xa9f0, 0xa9f9), (0xaa50, 0xaa59), (0xabf0, 0xabf9),
    (0xff10, 0xff19), (0x104a0, 0x104a9), (0x10a40, 0x10a43), (0x10d30, 0x10d39),
    (0x10e60, 0x10e68), (0x11052, 0x1105a), (0x11066, 0x1106f), (0x110f0, 0x110f9),
    (0x11136, 0x1113f), (0x111d0, 0x111d9), (0x112f0, 0x112f9), (0x11450, 0x11459),
    (0x114d0, 0x114d9), (0x11650, 0x11659), (0x116c0, 0x116c9), (0x11730, 0x11739),
    (0x118e0, 0x118e9), (0x11950, 0x11959), (0x11c50, 0x11c59), (0x11d50, 0x11d59),
    (0x11da0, 0x11da9), (0x16a60, 0x16a69), (0x16ac0, 0x16ac9), (0x16b50, 0x16b59),
    (0x1d7ce, 0x1d7ff), (0x1e140, 0x1e149), (0x1e2f0, 0x1e2f9), (0x1e950, 0x1e959),
    (0x1f100, 0x1f10a), (0x1fbf0, 0x1fbf9)]

def isspace (c : Char) : Bool := inRanges spaceRanges c

def isdigit (c : Char) : Bool := inRanges digitRanges c

theorem isdigit_not_isspace {c : Char} (h : isdigit c = true) : isspace c = false :=
  inRanges_disjoint (by decide) h

/-! ## Strings -/

/-- `text.isdigit()`. -/
def strIsdigit (text : Text) : Bool := !text.isEmpty && text.all isdigit

/-- `text.strip()`. -/
def strip (text : Text) : Text := stripBy isspace text

/-- The lower case of a character.  Outside ASCII, only the two characters matter whose lower case
    has a letter of ASCII in it: the dotted capital I and the sign for kelvin. -/
def lowerChar (c : Char) : Text :=
  if c.toNat = 0x130 then ['i', Char.ofNat 0x307]
  else if c.toNat = 0x212a then ['k']
  else [c.toLower]

/-- `text.lower()`. -/
def lower (text : Text) : Text := text.flatMap lowerChar

/-! ## Addresses -/

/-- `0` to `9`. -/
def isAsciiDigit (c : Char) : Bool := decide ('0' ≤ c) && decide (c ≤ '9')

def decimalValue (text : Text) : Nat :=
  text.foldl (fun value c => value * 10 + (c.toNat - '0'.toNat)) 0

/-- `_parse_octet`: a decimal from 0 to 255 without leading zeros. -/
def isOctet (text : Text) : Bool :=
  !text.isEmpty && text.all isAsciiDigit && decide (text.length ≤ 3) &&
    (decide (text = ['0']) || decide (text.head? ≠ some '0')) && decide (decimalValue text ≤ 255)

/-- `IPv4Address(text)` does not raise. -/
def isIPv4 (text : Text) : Bool :=
  let octets := text.splitOn '.'
  decide (octets.length = 4) && octets.all isOctet

def isHexDigit (c : Char) : Bool :=
  isAsciiDigit c || (decide ('a' ≤ c) && decide (c ≤ 'f')) || (decide ('A' ≤ c) && decide (c ≤ 'F'))

/-- `_parse_hextet`. -/
def isHextet (text : Text) : Bool :=
  !text.isEmpty && text.all isHexDigit && decide (text.length ≤ 4)

/-- `_ip_int_from_string` of IPv6 on the parts between the colons.  Two colons stand for zeros,
    once; only there may a part be empty. -/
def areIPv6Parts (parts : List Text) : Bool :=
  let inner := parts.tail.dropLast
  let skipIndex := inner.idxOf [] + 1
  decide (3 ≤ parts.length) && decide (parts.length ≤ 9) &&
    parts.all (fun part => part.isEmpty || isHextet part) &&
    if inner.count [] = 0 then
      decide (parts.length = 8) && decide (parts.head? ≠ some []) &&
        decide (parts.getLast? ≠ some [])
    else
      let partsHi := if parts.head? = some [] then skipIndex - 1 else skipIndex
      let rest := parts.length - skipIndex - 1
      let partsLo := if parts.getLast? = some [] then rest - 1 else rest
      decide (inner.count [] = 1) && (decide (parts.head? ≠ some []) || decide (partsHi = 0)) &&
        (decide (parts.getLast? ≠ some []) || decide (partsLo = 0)) &&
        decide (partsHi + partsLo ≤ 7)

/-- An IPv4 address at the end stands for two parts. -/
def ipv6Parts (text : Text) : Option (List Text) :=
  let parts := text.splitOn ':'
  match parts.getLast? with
  | none => none
  | some last =>
    if '.' ∈ last then
      if isIPv4 last ∧ 3 ≤ parts.length then some (parts.dropLast ++ [['0'], ['0']]) else none
    else some parts

/-- `_split_scope_id`. -/
def splitScopeId (text : Text) : Option Text :=
  match partition '%' text with
  | none => some text
  | some (address, scopeId) => if scopeId = [] ∨ '%' ∈ scopeId then none else some address

/-- `IPv6Address(text)` does not raise. -/
def isIPv6 (text : Text) : Bool :=
  if '/' ∈ text then false
  else match splitScopeId text with
    | none => false
    | some address => ((ipv6Parts address).map areIPv6Parts).getD false

/-- `ip_address(text).version`, unless it raises. -/
def ipVersion (text : Text) : Option Nat :=
  if isIPv4 text then some 4 else if isIPv6 text then some 6 else none

/-! ## The characters of an address -/

/-- The characters of addresses without a zone: hexadecimal digits, dots and colons. -/
def isAddressChar (c : Char) : Bool := isHexDigit c || decide (c = '.') || decide (c = ':')

theorem isIPv4_chars {text : Text} (h : isIPv4 text = true) {c : Char} (hc : c ∈ text) :
    isAsciiDigit c = true ∨ c = '.' := by
  rw [isIPv4, Bool.and_eq_true, List.all_eq_true] at h
  have hparts : c = '.' ∨ ∃ octet ∈ text.splitOn '.', c ∈ octet := mem_splitOn hc
  rcases hparts with rfl | ⟨octet, hmem, hc⟩
  · exact Or.inr rfl
  · have hoctet := h.2 octet hmem
    simp only [isOctet, Bool.and_eq_true, List.all_eq_true] at hoctet
    exact Or.inl (hoctet.1.1.1.2 c hc)

theorem isIPv4_addressChars {text : Text} (h : isIPv4 text = true) {c : Char} (hc : c ∈ text) :
    isAddressChar c = true := by
  rw [isAddressChar, isHexDigit]
  rcases isIPv4_chars h hc with hdigit | rfl
  · rw [hdigit]
    rfl
  · decide

theorem areIPv6Parts_chars {parts : List Text} (h : areIPv6Parts parts = true) {part : Text}
    (hpart : part ∈ parts) {c : Char} (hc : c ∈ part) : isAddressChar c = true := by
  have hall : parts.all (fun part => part.isEmpty || isHextet part) = true := by
    simp only [areIPv6Parts, Bool.and_eq_true] at h
    exact h.1.2
  have hhextet := List.all_eq_true.mp hall part hpart
  cases part with
  | nil => exact absurd hc List.not_mem_nil
  | cons d part =>
    rw [List.isEmpty_cons, Bool.false_or] at hhextet
    simp only [isHextet, Bool.and_eq_true, List.all_eq_true] at hhextet
    rw [isAddressChar, hhextet.1.2 c hc]
    rfl

theorem isIPv6_chars {text : Text} (h : isIPv6 text = true) (hzone : '%' ∉ text) {c : Char}
    (hc : c ∈ text) : isAddressChar c = true := by
  have haddress : splitScopeId text = some text := by
    rw [splitScopeId]
    cases hparts : partition '%' text with
    | none => rfl
    | some parts =>
      obtain ⟨htext, -⟩ := partition_eq_some_iff.mp hparts
      exact absurd (by rw [htext]; simp) hzone
  rw [isIPv6] at h
  split at h
  · nomatch h
  · rw [haddress] at h
    simp only [ipv6Parts] at h
    cases hlast : (text.splitOn ':').getLast? with
    | none =>
      rw [hlast] at h
      nomatch h
    | some last =>
      rw [hlast] at h
      have hmem := List.mem_of_getLast? hlast
      have hsplit : c = ':' ∨ ∃ part ∈ text.splitOn ':', c ∈ part := mem_splitOn hc
      rcases hsplit with rfl | ⟨part, hpart, hc⟩
      · decide
      · simp only at h
        by_cases hdot : '.' ∈ last
        · rw [if_pos hdot] at h
          split at h
          · rename_i hipv4
            -- the part is the address at the end, or one of the parts before
            rw [← List.dropLast_append_getLast? last hlast] at hpart
            rcases List.mem_append.mp hpart with hpart | hpart
            · exact areIPv6Parts_chars h (List.mem_append_left _ hpart) hc
            · obtain rfl := List.mem_singleton.mp hpart
              exact isIPv4_addressChars hipv4.1 hc
          · nomatch h
        · rw [if_neg hdot] at h
          exact areIPv6Parts_chars h hpart hc

end Drift
