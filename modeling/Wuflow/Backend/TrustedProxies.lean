/-
**The configured trusted proxies** (`server.go`).

* `parseTrustedProxies` — a list of addresses and ranges, or the default.
* `contains_iff_stands` — an element that is accepted contains what it stands for.
* `trusted_proxies_exact` — a proxy is trusted iff an element stands for its address, and every accepted
  element does for some address.
-/

import Wuflow.Backend.ClientIP
import Wuflow.Net.Prefix

namespace Wuflow

open Netip (Addr Prefix parseAddr parsePrefix)

/-! ### The configuration -/

/-- The ranges of `defaultTrustedProxies`. -/
def defaultRanges : List String :=
  ["127.0.0.0/8", "10.0.0.0/8", "172.16.0.0/12", "192.168.0.0/16", "::1/128", "fc00::/7"]

def defaultTrustedProxies : List Prefix := defaultRanges.filterMap parsePrefix

/-- `parseTrustedProxy`, whose errors are all reported as one. -/
def parseTrustedProxy (entry : String) : Option Prefix :=
  if '/' ∈ entry.toList then
    match parsePrefix entry with
    | none => none
    | some range =>
        -- client addresses are unmapped
        if range.addr.is4In6 then none else some (range.addr.network range.bits)
  else
    match parseAddr entry with
    | none => none
    | some addr =>
        if addr.zone ≠ "" then none
        else
          let addr := addr.unmap
          some { addr, bits := addr.bitLen }

/-- The loop over the elements. -/
def parseEntries : List String → Except String (List Prefix)
  | [] => .ok []
  | entry :: rest =>
      let entry := trimSpace entry
      if entry = "" then parseEntries rest
      else match parseTrustedProxy entry with
        | none => .error ("invalid trusted proxy '" ++ entry ++ "': must be an IP or CIDR without zone")
        | some range => (parseEntries rest).map (range :: ·)

def parseTrustedProxies (s : String) : Except String (List Prefix) :=
  (parseEntries (splitComma s)).map fun ranges => if ranges = [] then defaultTrustedProxies else ranges

/-! ### What the elements stand for -/

/-- The elements that are not empty. -/
def elements (s : String) : List String := ((splitComma s).map trimSpace).filter (· ≠ "")

/-- An element stands for the addresses that have the first `n` bits of an address: all of them if it is an
address, which is taken unmapped. -/
inductive Stands : String → Addr → Nat → Prop
  | address {entry : String} {addr : Addr} (plain : '/' ∉ entry.toList) (parsed : parseAddr entry = some addr)
      (zoneless : addr.zone = "") : Stands entry addr.unmap addr.unmap.bitLen
  | range {ip : String} {addr : Addr} {n : Nat} (parsed : parseAddr ip = some addr) (zoneless : addr.zone = "")
      (fits : n ≤ addr.bitLen) : Stands (ip ++ "/" ++ toString n) addr n

theorem unmap_of_not_4In6 {addr : Addr} (unmapped : addr.is4In6 = false) : addr.unmap = addr := by
  cases addr with
  | v4 bits => rfl
  | v6 hi lo zone => exact if_neg (Bool.eq_false_iff.mp unmapped)

theorem withZone_of_zoneless {addr : Addr} (zoneless : addr.zone = "") : addr.withZone "" = addr := by
  cases addr with
  | v4 bits => rfl
  | v6 hi lo zone => exact congrArg (Addr.v6 hi lo) zoneless.symm

theorem zone_unmap {addr : Addr} (zoneless : addr.zone = "") : addr.unmap.zone = "" := by
  cases addr with
  | v4 bits => rfl
  | v6 hi lo zone =>
      unfold Addr.unmap
      dsimp only
      split
      next => rfl
      next => exact zoneless

theorem zone_withZone (addr : Addr) : (addr.withZone "").zone = "" := by
  cases addr with
  | v4 bits => rfl
  | v6 hi lo zone => rfl

section Elements

variable {entry : String} {range : Prefix}

/-- An element that is accepted as a range. -/
theorem parseTrustedProxy_slash (slash : '/' ∈ entry.toList)
    (accepted : parseTrustedProxy entry = some range) :
    ∃ addr n, parsePrefix entry = some { addr, bits := n } ∧ addr.is4In6 = false ∧
      range = addr.network n := by
  unfold parseTrustedProxy at accepted
  rw [if_pos slash] at accepted
  split at accepted
  next => exact nomatch accepted
  next parsed same =>
    split at accepted
    next => exact nomatch accepted
    next unmapped => exact ⟨parsed.addr, parsed.bits, same, Bool.eq_false_iff.mpr unmapped,
      (Option.some.inj accepted).symm⟩

/-- An element that is accepted as an address. -/
theorem parseTrustedProxy_plain (plain : '/' ∉ entry.toList)
    (accepted : parseTrustedProxy entry = some range) :
    ∃ addr, parseAddr entry = some addr ∧ addr.zone = "" ∧
      range = { addr := addr.unmap, bits := addr.unmap.bitLen } := by
  unfold parseTrustedProxy at accepted
  rw [if_neg plain] at accepted
  split at accepted
  next => exact nomatch accepted
  next addr parsed =>
    split at accepted
    next => exact nomatch accepted
    next zoneless => exact ⟨addr, parsed, Classical.not_not.mp zoneless, (Option.some.inj accepted).symm⟩

theorem network_contains_iff {addr x : Addr} {n : Nat} (fits : n ≤ addr.bitLen) (zoneless : x.zone = "") :
    (addr.network n).contains x = true ↔ Addr.Agree n x addr := by
  have same := Netip.network_agree fits
  have bits : (addr.network n).bits = n := by cases addr <;> rfl
  rw [Netip.Prefix.contains_iff (by rw [bits, same.family]; exact fits) zoneless, bits]
  exact ⟨fun agree => agree.trans same, fun agree => agree.trans same.symm⟩

/-- **An element that is accepted contains what it stands for.** -/
theorem contains_iff_stands (accepted : parseTrustedProxy entry = some range) {x : Addr} (zoneless : x.zone = "") :
    range.contains x = true ↔ ∃ addr n, Stands entry addr n ∧ Addr.Agree n x addr := by
  by_cases slash : '/' ∈ entry.toList
  · obtain ⟨addr, n, parsed, _, rfl⟩ := parseTrustedProxy_slash slash accepted
    obtain ⟨ip, text, address, noZone, fits⟩ := Netip.parsePrefix_iff.mp parsed
    rw [network_contains_iff fits zoneless]
    constructor
    · intro agree
      exact ⟨addr, n, text ▸ .range address noZone fits, agree⟩
    · rintro ⟨addr', n', stands, agree⟩
      cases stands with
      | address plain => exact absurd slash plain
      | range address' noZone' fits' =>
          rw [Netip.parsePrefix_iff.mpr ⟨_, rfl, address', noZone', fits'⟩] at parsed
          cases parsed
          exact agree
  · obtain ⟨addr, parsed, noZone, rfl⟩ := parseTrustedProxy_plain slash accepted
    rw [Netip.Prefix.contains_iff (Nat.le_refl _) zoneless]
    constructor
    · intro agree
      exact ⟨_, _, .address slash parsed noZone, agree⟩
    · rintro ⟨addr', n', stands, agree⟩
      cases stands with
      | address _ parsed' =>
          cases parsed.symm.trans parsed'
          exact agree
      | range => exact absurd (by simp) slash

/-- Its own address is matched. -/
theorem matched_of_accepted (accepted : parseTrustedProxy entry = some range) :
    ∃ ip, isTrustedProxy [range] ip = true := by
  have matched : ∀ {ip : String} {addr : Addr}, parseAddr ip = some addr → addr.zone = "" →
      range.contains addr.unmap = true → isTrustedProxy [range] ip = true := by
    intro ip addr parsed zoneless contains
    have address : parseIP ip = some addr.unmap := by
      unfold parseIP
      rw [parsed, Option.map_some, withZone_of_zoneless zoneless]
    unfold isTrustedProxy
    rw [address]
    exact List.any_eq_true.mpr ⟨range, List.mem_cons_self, contains⟩
  by_cases slash : '/' ∈ entry.toList
  · obtain ⟨addr, n, parsed, unmapped, rfl⟩ := parseTrustedProxy_slash slash accepted
    obtain ⟨ip, _, address, noZone, fits⟩ := Netip.parsePrefix_iff.mp parsed
    refine ⟨ip, matched address noZone ?_⟩
    rw [unmap_of_not_4In6 unmapped, network_contains_iff fits noZone]
    exact Addr.Agree.refl n addr
  · obtain ⟨addr, parsed, noZone, rfl⟩ := parseTrustedProxy_plain slash accepted
    refine ⟨entry, matched parsed noZone ?_⟩
    exact (Netip.Prefix.contains_iff (Nat.le_refl _) (zone_unmap noZone)).mpr (Addr.Agree.refl _ _)

end Elements

/-! ### The whole list -/

/-- Ranges that were read from elements, one by one. -/
def ReadFrom (entries : List String) (ranges : List Prefix) : Prop :=
  entries.map parseTrustedProxy = ranges.map some

section ReadFrom

variable {entries : List String} {ranges : List Prefix}

theorem ReadFrom.cons {entry : String} {range : Prefix} (here : parseTrustedProxy entry = some range)
    (rest : ReadFrom entries ranges) : ReadFrom (entry :: entries) (range :: ranges) := by
  unfold ReadFrom at rest ⊢
  rw [List.map_cons, List.map_cons, here, rest]

/-- Every range was read from an element. -/
theorem ReadFrom.entry (read : ReadFrom entries ranges) {range : Prefix} (member : range ∈ ranges) :
    ∃ entry ∈ entries, parseTrustedProxy entry = some range :=
  List.mem_map.mp (read ▸ List.mem_map_of_mem member)

/-- A range was read from every element. -/
theorem ReadFrom.range (read : ReadFrom entries ranges) {entry : String} (member : entry ∈ entries) :
    ∃ range ∈ ranges, parseTrustedProxy entry = some range := by
  have inside : parseTrustedProxy entry ∈ ranges.map some := read ▸ List.mem_map_of_mem member
  obtain ⟨range, among, same⟩ := List.mem_map.mp inside
  exact ⟨range, among, same.symm⟩

/-- A list of ranges contains what its elements stand for. -/
theorem ReadFrom.contains_iff (read : ReadFrom entries ranges) {x : Addr} (zoneless : x.zone = "") :
    trustedProxyContains ranges x = true ↔
      ∃ entry ∈ entries, ∃ net n, Stands entry net n ∧ Addr.Agree n x net := by
  unfold trustedProxyContains
  rw [List.any_eq_true]
  constructor
  · rintro ⟨range, member, contains⟩
    obtain ⟨entry, among, accepted⟩ := read.entry member
    exact ⟨entry, among, (contains_iff_stands accepted zoneless).mp contains⟩
  · rintro ⟨entry, among, stands⟩
    obtain ⟨range, member, accepted⟩ := read.range among
    exact ⟨range, member, (contains_iff_stands accepted zoneless).mpr stands⟩

end ReadFrom

theorem parseEntries_readFrom {entries : List String} {ranges : List Prefix}
    (accepted : parseEntries entries = .ok ranges) :
    ReadFrom ((entries.map trimSpace).filter (· ≠ "")) ranges := by
  induction entries generalizing ranges with
  | nil =>
      cases accepted
      rfl
  | cons entry entries ih =>
      unfold parseEntries at accepted
      dsimp only at accepted
      rw [List.map_cons]
      by_cases empty : trimSpace entry = ""
      · rw [if_pos empty] at accepted
        rw [List.filter_cons_of_neg (by simpa using empty)]
        exact ih accepted
      · rw [if_neg empty] at accepted
        rw [List.filter_cons_of_pos (by simpa using empty)]
        split at accepted
        next => exact nomatch accepted
        next range parsed =>
          cases rest : parseEntries entries with
          | error message =>
              rw [rest] at accepted
              exact nomatch accepted
          | ok others =>
              rw [rest] at accepted
              cases accepted
              exact .cons parsed (ih rest)

theorem defaultTrustedProxies_readFrom : ReadFrom defaultRanges defaultTrustedProxies := by
  have read : defaultRanges.map parseTrustedProxy = defaultTrustedProxies.map some := by decide +kernel
  exact read

/-- The elements that are configured, or the default. -/
def configured (s : String) : List String := if elements s = [] then defaultRanges else elements s

theorem parseTrustedProxies_readFrom {s : String} {ranges : List Prefix}
    (accepted : parseTrustedProxies s = .ok ranges) : ReadFrom (configured s) ranges := by
  unfold parseTrustedProxies at accepted
  cases parsed : parseEntries (splitComma s) with
  | error message =>
      rw [parsed] at accepted
      exact nomatch accepted
  | ok found =>
      rw [parsed] at accepted
      have result : (if found = [] then defaultTrustedProxies else found) = ranges := Except.ok.inj accepted
      have read : ReadFrom (elements s) found := parseEntries_readFrom parsed
      have empty : elements s = [] ↔ found = [] := by
        rw [← List.map_eq_nil_iff (f := parseTrustedProxy), read, List.map_eq_nil_iff]
      rw [← result]
      unfold configured
      by_cases none_ : found = []
      · rw [if_pos none_, if_pos (empty.mpr none_)]
        exact defaultTrustedProxies_readFrom
      · rw [if_neg none_, if_neg (mt empty.mp none_)]
        exact read

/-- **The trusted proxies are exactly those that are configured**, and every element that is accepted is
matched by some text. -/
theorem trusted_proxies_exact {s : String} {ranges : List Prefix}
    (accepted : parseTrustedProxies s = .ok ranges) :
    (∀ ip addr, parseAddr ip = some addr →
      (isTrustedProxy ranges ip = true ↔
        ∃ entry ∈ configured s, ∃ net n, Stands entry net n ∧ Addr.Agree n (addr.withZone "").unmap net)) ∧
    ∀ range ∈ ranges, ∃ ip, isTrustedProxy [range] ip = true := by
  have read := parseTrustedProxies_readFrom accepted
  constructor
  · intro ip addr parsed
    have address : parseIP ip = some (addr.withZone "").unmap := by
      unfold parseIP
      rw [parsed, Option.map_some]
    unfold isTrustedProxy
    rw [address]
    exact read.contains_iff (zone_unmap (zone_withZone addr))
  · intro range member
    obtain ⟨entry, _, accepted⟩ := read.entry member
    exact matched_of_accepted accepted

/-- A mapped address with a zone lies in a range that is written with host bits. -/
theorem mapped_address_trusted :
    isTrustedProxy [⟨.v4 0x0a2a0000, 16⟩, ⟨.v6 0 1 "", 128⟩] "::ffff:10.42.7.5%eth0" = true ↔
      ∃ entry ∈ configured " 10.42.1.9/16,, ::1", ∃ net n, Stands entry net n ∧
        Addr.Agree n (Addr.withZone (.v6 0 0xffff0a2a0705 "eth0") "").unmap net :=
  (trusted_proxies_exact (by decide +kernel)).1 _ _ (by decide +kernel)

end Wuflow
