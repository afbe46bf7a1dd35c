/-
**The client's IP address** (`utils.go`).

* `GetClientIP` — from the peer, or from the configured header of a trusted proxy.
* `getClientIP_eq_reference` — the first entry from the right that is not a trusted proxy decides.
* `getClientIP_eq_of_shared` — what stands left of that entry makes no difference.
* `client_ip_unforgeable` — both.
-/

import Wuflow.Model.Validation
import Wuflow.Net.Addr

namespace Wuflow

open Netip (Addr Prefix parseAddr)

/-! ### The request -/

/-- What `GetClientIP` reads of an `http.Request`: the peer, and the header's lines by canonical key. -/
structure IPRequest where
  remoteAddr : String
  header : String → List String

/-- A character of a header name. -/
def validHeaderField (c : Char) : Bool := c.isAlphanum || "!#$%&'*+-.^_`|~".toList.contains c

/-- The first letter and each one after a hyphen in upper case, the others in lower case. -/
def canonicalChars : Bool → List Char → List Char
  | _, [] => []
  | upper, c :: rest => (if upper then c.toUpper else c.toLower) :: canonicalChars (c == '-') rest

/-- `CanonicalMIMEHeaderKey`: a key with another character is kept as it is. -/
def canonicalMIMEHeaderKey (key : String) : String :=
  if key.toList.all validHeaderField then String.ofList (canonicalChars true key.toList) else key

/-- `Header.Values`. -/
def IPRequest.values (r : IPRequest) (key : String) : List String := r.header (canonicalMIMEHeaderKey key)

/-- The host of `net.SplitHostPort`. -/
def splitHostPort (hostport : List Char) : Option (List Char) :=
  -- the port starts after the last colon
  let port := hostport.rtakeWhile (· ≠ ':')
  let host := (hostport.rdropWhile (· ≠ ':')).dropLast
  if ':' ∉ hostport then none
  else match hostport with
    | '[' :: rest =>
        let inside := rest.takeWhile (· ≠ ']')
        -- the first `]` stands just before the last colon
        if host = '[' :: inside ++ [']'] ∧ '[' ∉ inside ∧ '[' ∉ port ∧ ']' ∉ port then some inside else none
    | _ => if ':' ∈ host ∨ '[' ∈ hostport ∨ ']' ∈ hostport then none else some host

/-- `remoteAddrIP`. -/
def remoteAddrIP (r : IPRequest) : String :=
  match splitHostPort r.remoteAddr.toList with
  | none => r.remoteAddr
  | some host => String.ofList host

/-! ### The header -/

/-- An address without its zone, an IPv4 address in an IPv6 one as IPv4. -/
def parseIP (ip : String) : Option Addr := (parseAddr ip).map fun addr => (addr.withZone "").unmap

def trustedProxyContains (trustedProxies : List Prefix) (addr : Addr) : Bool :=
  trustedProxies.any fun p => p.contains addr

def isTrustedProxy (trustedProxies : List Prefix) (ip : String) : Bool :=
  match parseIP ip with
  | none => false
  | some addr => trustedProxyContains trustedProxies addr

/-- The loop over the entries from the right, after `addr`. -/
def fromTheRight (trustedProxies : List Prefix) (addr : Option Addr) : List String → Option String
  | [] => some ((addr.map Addr.text).getD "invalid IP")
  | entry :: rest =>
      match parseIP (trimSpace entry) with
      | none => none
      | some parsed =>
          if !trustedProxyContains trustedProxies parsed then some parsed.text
          else fromTheRight trustedProxies (some parsed) rest

/-- `strings.Split(s, ",")`. -/
def splitComma (s : String) : List String := (s.toList.splitOn ',').map String.ofList

def clientIPFromHeader (remoteIPHeader : String) (trustedProxies : List Prefix) (r : IPRequest) :
    Option String :=
  let value := ",".intercalate (r.values remoteIPHeader)
  if value == "" then none else fromTheRight trustedProxies none (splitComma value).reverse

/-- `GetClientIP`. -/
def getClientIP (remoteIPHeader : String) (trustedProxies : List Prefix) (r : IPRequest) : String :=
  let peer := remoteAddrIP r
  if remoteIPHeader == "" || !isTrustedProxy trustedProxies peer then peer
  else match clientIPFromHeader remoteIPHeader trustedProxies r with
    | some ip => ip
    | none => peer

/-! ### The reference -/

/-- The entries of all the header's lines. -/
def IPRequest.entries (r : IPRequest) (remoteIPHeader : String) : List String :=
  (r.values remoteIPHeader).flatMap fun line => (splitComma line).map trimSpace

/-- The search ends at an entry that is no address or no trusted proxy. -/
def Stops (trustedProxies : List Prefix) (entry : String) : Bool :=
  match parseIP entry with
  | none => true
  | some addr => !trustedProxyContains trustedProxies addr

/-- What an entry says: its address in canonical form, or nothing. -/
def clientOf (peer entry : String) : String := ((parseIP entry).map Addr.text).getD peer

/-- **The client's IP address**, by the list of the entries: the rightmost one where the search ends, or
else the leftmost one. -/
def clientAmong (peer : String) (trustedProxies : List Prefix) (entries : List String) : String :=
  match entries.reverse.find? (Stops trustedProxies), entries.head? with
  | some entry, _ => clientOf peer entry
  | none, some leftmost => clientOf peer leftmost
  | none, none => peer

def referenceIP (remoteIPHeader : String) (trustedProxies : List Prefix) (r : IPRequest) : String :=
  if remoteIPHeader = "" ∨ isTrustedProxy trustedProxies (remoteAddrIP r) = false then remoteAddrIP r
  else clientAmong (remoteAddrIP r) trustedProxies (r.entries remoteIPHeader)

/-! ### The search -/

section Search

variable {remoteIPHeader : String} {trustedProxies : List Prefix}

theorem stops_of_invalid {entry : String} (invalid : parseIP entry = none) :
    Stops trustedProxies entry = true := by
  unfold Stops
  rw [invalid]

theorem stops_of_parsed {entry : String} {addr : Addr} (parsed : parseIP entry = some addr) :
    Stops trustedProxies entry = !trustedProxyContains trustedProxies addr := by
  unfold Stops
  rw [parsed]

/-- The search ends at the first entry that stops it. -/
theorem fromTheRight_of_find {entries : List String} {entry : String}
    (found : (entries.map trimSpace).find? (Stops trustedProxies) = some entry) (addr : Option Addr) :
    fromTheRight trustedProxies addr entries = (parseIP entry).map Addr.text := by
  induction entries generalizing addr with
  | nil => exact nomatch found
  | cons first entries ih =>
      rw [List.map_cons, List.find?_cons] at found
      unfold fromTheRight
      cases parsed : parseIP (trimSpace first) with
      | none =>
          rw [stops_of_invalid parsed] at found
          cases found
          rw [parsed]
          rfl
      | some here =>
          rw [stops_of_parsed parsed] at found
          by_cases untrusted : (!trustedProxyContains trustedProxies here) = true
          · rw [untrusted] at found
            cases found
            rw [parsed]
            exact if_pos untrusted
          · rw [Bool.eq_false_iff.mpr untrusted] at found
            exact (if_neg untrusted).trans (ih found (some here))

/-- If all entries are trusted proxies, the search ends at the last one. -/
theorem fromTheRight_of_trusted {entries : List String}
    (trusted : (entries.map trimSpace).find? (Stops trustedProxies) = none) (addr : Option Addr) {last : String}
    (ends : (entries.map trimSpace).getLast? = some last) :
    fromTheRight trustedProxies addr entries = (parseIP last).map Addr.text := by
  induction entries generalizing addr with
  | nil => exact nomatch ends
  | cons first entries ih =>
      have here : Stops trustedProxies (trimSpace first) = false :=
        Bool.eq_false_iff.mpr (List.find?_eq_none.mp trusted _ List.mem_cons_self)
      have rest : (entries.map trimSpace).find? (Stops trustedProxies) = none :=
        List.find?_eq_none.mpr fun e member => List.find?_eq_none.mp trusted e (List.mem_cons_of_mem _ member)
      unfold fromTheRight
      cases parsed : parseIP (trimSpace first) with
      | none =>
          rw [stops_of_invalid parsed] at here
          exact nomatch here
      | some addr' =>
          have contained : ¬ (!trustedProxyContains trustedProxies addr') = true := by
            rw [stops_of_parsed parsed] at here
            exact Bool.eq_false_iff.mp here
          refine (if_neg contained).trans ?_
          cases entries with
          | nil =>
              have last_ : trimSpace first = last := Option.some.inj ends
              rw [← last_, parsed]
              rfl
          | cons second entries => exact ih rest (some addr') ends

theorem splitComma_ne_nil (s : String) : splitComma s ≠ [] := by
  unfold splitComma
  simp

/-- The header's lines are split alike one by one. -/
theorem entries_eq_split {r : IPRequest} (some_ : r.values remoteIPHeader ≠ []) :
    r.entries remoteIPHeader = (splitComma (",".intercalate (r.values remoteIPHeader))).map trimSpace := by
  have lines : (r.values remoteIPHeader).map String.toList ≠ [] := by simpa using some_
  have split := @Join.splitOn_intercalate ',' _ lines
  unfold IPRequest.entries splitComma
  rw [String.toList_intercalate, show (",".toList : List Char) = [','] from rfl, split]
  simp [List.flatMap_map, List.map_flatMap]

theorem clientIPFromHeader_eq (r : IPRequest) (peer : String) :
    (clientIPFromHeader remoteIPHeader trustedProxies r).getD peer =
      clientAmong peer trustedProxies (r.entries remoteIPHeader) := by
  unfold clientIPFromHeader
  by_cases noLine : r.values remoteIPHeader = []
  · -- no line, no entry
    have entries : r.entries remoteIPHeader = [] := by
      unfold IPRequest.entries
      rw [noLine]
      rfl
    rw [noLine, entries]
    rfl
  · rw [entries_eq_split noLine]
    by_cases empty : ",".intercalate (r.values remoteIPHeader) = ""
    · -- one empty entry
      have stops : Stops trustedProxies "" = true := rfl
      have among : clientAmong peer trustedProxies [""] = peer := by
        unfold clientAmong
        rw [List.reverse_singleton, List.find?_cons_of_pos stops]
        rfl
      rw [empty]
      exact among.symm
    · dsimp only
      unfold clientAmong
      rw [if_neg (by simpa using empty), ← List.map_reverse]
      cases found : ((splitComma (",".intercalate (r.values remoteIPHeader))).reverse.map trimSpace).find?
          (Stops trustedProxies) with
      | some entry =>
          rw [fromTheRight_of_find found none]
          rfl
      | none =>
          obtain ⟨leftmost, rest, entries⟩ :=
            List.exists_cons_of_ne_nil (splitComma_ne_nil (",".intercalate (r.values remoteIPHeader)))
          have ends : ((splitComma (",".intercalate (r.values remoteIPHeader))).reverse.map trimSpace).getLast? =
              some (trimSpace leftmost) := by
            rw [entries]
            simp
          rw [fromTheRight_of_trusted found none ends, entries]
          rfl

/-- **`GetClientIP` is the reference.** -/
theorem getClientIP_eq_reference (r : IPRequest) :
    getClientIP remoteIPHeader trustedProxies r = referenceIP remoteIPHeader trustedProxies r := by
  have header := @clientIPFromHeader_eq remoteIPHeader trustedProxies r (remoteAddrIP r)
  unfold getClientIP referenceIP
  by_cases asPeer : (remoteIPHeader == "" || !isTrustedProxy trustedProxies (remoteAddrIP r)) = true
  · have same : remoteIPHeader = "" ∨ isTrustedProxy trustedProxies (remoteAddrIP r) = false := by
      simpa using asPeer
    exact (if_pos asPeer).trans (if_pos same).symm
  · have other : ¬ (remoteIPHeader = "" ∨ isTrustedProxy trustedProxies (remoteAddrIP r) = false) := by
      simpa using asPeer
    refine (if_neg asPeer).trans (Eq.trans ?_ (if_neg other).symm)
    rw [← header]
    cases clientIPFromHeader remoteIPHeader trustedProxies r <;> rfl

/-- What stands left of an entry that stops the search makes no difference. -/
theorem clientAmong_append {peer : String} {shared : List String}
    (stops : ∃ entry ∈ shared, Stops trustedProxies entry = true) (left : List String) :
    clientAmong peer trustedProxies (left ++ shared) = clientAmong peer trustedProxies shared := by
  obtain ⟨entry, member, stop⟩ := stops
  have found : (shared.reverse.find? (Stops trustedProxies)).isSome = true :=
    List.find?_isSome.mpr ⟨entry, List.mem_reverse.mpr member, stop⟩
  obtain ⟨first, found⟩ := Option.isSome_iff_exists.mp found
  unfold clientAmong
  rw [List.reverse_append, List.find?_append, found]
  rfl

/-- **The client's IP address cannot be forged**: it is the reference's, and two requests of one peer whose
entries agree from the right up to one that stops the search get the same. -/
theorem client_ip_unforgeable (remoteIPHeader : String) (trustedProxies : List Prefix) :
    (∀ r, getClientIP remoteIPHeader trustedProxies r = referenceIP remoteIPHeader trustedProxies r) ∧
    ∀ r r' left left' shared, remoteAddrIP r = remoteAddrIP r' →
      r.entries remoteIPHeader = left ++ shared → r'.entries remoteIPHeader = left' ++ shared →
      (∃ entry ∈ shared, Stops trustedProxies entry = true) →
      getClientIP remoteIPHeader trustedProxies r = getClientIP remoteIPHeader trustedProxies r' := by
  refine ⟨fun r => getClientIP_eq_reference r, ?_⟩
  intro r r' left left' shared samePeer entries entries' stops
  rw [getClientIP_eq_reference, getClientIP_eq_reference]
  unfold referenceIP
  rw [samePeer, entries, entries', clientAmong_append stops, clientAmong_append stops]

end Search

/-- A request of a proxy with these header lines. -/
def forwarded (lines : List String) : IPRequest :=
  { remoteAddr := "10.42.0.5:41000", header := fun key => if key = "X-Forwarded-For" then lines else [] }

/-- A forged entry makes no difference. -/
theorem forged_entry_ignored :
    getClientIP "X-Forwarded-For" [⟨.v4 0x0a000000, 8⟩] (forwarded ["1.1.1.1", "203.0.113.7, 10.42.0.1"]) =
      getClientIP "X-Forwarded-For" [⟨.v4 0x0a000000, 8⟩] (forwarded ["203.0.113.7,10.42.0.1"]) := by
  refine (client_ip_unforgeable "X-Forwarded-For" [⟨.v4 0x0a000000, 8⟩]).2 _ _ ["1.1.1.1"] []
    ["203.0.113.7", "10.42.0.1"] rfl ?_ ?_ ⟨"203.0.113.7", List.mem_cons_self, ?_⟩
  all_goals decide +kernel

end Wuflow
