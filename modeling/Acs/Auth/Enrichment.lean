import Acs.Data.IpAddress
import Acs.Protocol.Request
import Acs.Security.Pii

/-! Operator header enrichment: an MSISDN a gateway asserts, honoured from trusted addresses only. -/

namespace Acs

/-- The headers of a request, one for each name. -/
abbrev Headers := List (String × String)

namespace Enrichment
open IpAddress

structure EnrichmentResult where
  msisdn : Option String
  trusted : Bool
  reason : String

variable (py : PyText) (lower : String → String)

def networks (cidrs : List String) : List Network := cidrs.filterMap parseNetwork

def splitComma (s : String) : List String := (s.toList.splitOn ',').map String.ofList

/-- The address to evaluate for trust: the entry that the closest hop appended. -/
def clientAddress (peer forwardedFor : Option String) : Option String :=
  match orElseText forwardedFor "" with
  | "" => peer
  | text =>
    match (((splitComma text).map py.strip).filter (· ≠ "")).getLast? with
    | some last => some last
    | none => peer

def isTrustedPeer (address : Option String) (cidrs : List String) : Bool :=
  match orElseText address "" with
  | "" => false
  | text =>
    match parseAddress text with
    | none => false
    | some ip => (networks cidrs).any (·.contains ip)

/-- The value of a header in whatever case; of names that differ in case only, the last counts. -/
def headerValue (headers : Headers) (name : String) : Option String :=
  (headers.reverse.find? fun header => lower header.1 = lower name).map Prod.snd

/-- `value[len(prefix):]`, if the value starts with the prefix. -/
def withoutPrefix (start : String) (value : List Char) : List Char :=
  if start.toList.isPrefixOf value then value.drop start.length else value

def stripChar (c : Char) (value : List Char) : List Char :=
  ((value.dropWhile (· = c)).reverse.dropWhile (· = c)).reverse

/-- The number inside a header value that may be quoted, and a `tel:` or `sip:` URI. -/
def numberIn (raw : String) : String :=
  let value := stripChar '"' (py.strip raw).toList
  let value := withoutPrefix "sip:" (withoutPrefix "tel:" value)
  String.ofList ((value.takeWhile (· ≠ '@')).takeWhile (· ≠ ';'))

/-- Extract an enriched MSISDN, but only from a trusted peer. -/
def resolveEnrichedIdentity (settings : Settings) (headers : Headers)
    (peer forwardedFor : Option String) (headerName : String) (trustedCidrs : List String) :
    EnrichmentResult :=
  if trustedCidrs.isEmpty then ⟨none, false, "disabled"⟩
  else
    match orElseText (headerValue lower headers headerName) "" with
    | "" => ⟨none, false, "absent"⟩
    | raw =>
      if isTrustedPeer (clientAddress py peer forwardedFor) trustedCidrs then
        match normaliseMsisdn py settings (numberIn py raw) with
        | none => ⟨none, true, "malformed_value"⟩
        | some msisdn => ⟨some msisdn, true, "trusted"⟩
      else ⟨none, false, "untrusted_peer"⟩

/-- What an enriched number rests on: a header that names it, seen from a trusted network. -/
structure Asserted (settings : Settings) (headers : Headers) (peer forwardedFor : Option String)
    (headerName : String) (trustedCidrs : List String) (msisdn : String) : Prop where
  named : ∃ raw, headerValue lower headers headerName = some raw ∧
    normaliseMsisdn py settings (numberIn py raw) = some msisdn
  trusted : ∃ address ip network, clientAddress py peer forwardedFor = some address ∧
    parseAddress address = some ip ∧ network ∈ networks trustedCidrs ∧ network.contains ip = true

variable {py lower}

theorem dropWhile_of_not_mem {c : Char} {l : List Char} (h : c ∉ l) :
    l.dropWhile (· = c) = l := by
  cases l with
  | nil => rfl
  | cons x l =>
    have hx : x ≠ c := fun heq => h (heq ▸ List.mem_cons_self)
    exact List.dropWhile_cons_of_neg (by simpa using hx)

theorem stripChar_of_not_mem {c : Char} {l : List Char} (h : c ∉ l) : stripChar c l = l := by
  have hreverse : c ∉ l.reverse := fun hmem => h (List.mem_reverse.1 hmem)
  unfold stripChar
  rw [dropWhile_of_not_mem h, dropWhile_of_not_mem hreverse, List.reverse_reverse]

theorem orElseText_ne {value : Option String} (h : orElseText value "" ≠ "") :
    value = some (orElseText value "") := by
  cases value with
  | none => exact absurd rfl h
  | some v =>
    by_cases hv : v = ""
    · simp [orElseText, hv] at h
    · simp [orElseText, hv]

theorem trusted_of_isTrustedPeer {address : Option String} {cidrs : List String}
    (h : isTrustedPeer address cidrs = true) :
    ∃ text ip network, address = some text ∧ parseAddress text = some ip ∧
      network ∈ networks cidrs ∧ network.contains ip = true := by
  unfold isTrustedPeer at h
  split at h
  · cases h
  · next text hne =>
    have htext := orElseText_ne hne
    split at h
    · cases h
    · next ip hip =>
      obtain ⟨network, hmem, hcontains⟩ := List.any_eq_true.mp h
      exact ⟨_, ip, network, htext, hip, hmem, hcontains⟩

theorem asserted_of_resolve {settings : Settings} {headers : Headers}
    {peer forwardedFor : Option String} {headerName msisdn : String} {trustedCidrs : List String}
    (h : (resolveEnrichedIdentity py lower settings headers peer forwardedFor headerName
      trustedCidrs).msisdn = some msisdn) :
    Asserted py lower settings headers peer forwardedFor headerName trustedCidrs msisdn := by
  unfold resolveEnrichedIdentity at h
  split at h
  · cases h
  · split at h
    · cases h
    · next raw hne =>
      have hraw := orElseText_ne hne
      split at h
      · next htrusted =>
        split at h
        · cases h
        · next number hnumber =>
          obtain rfl := Option.some.inj h
          exact ⟨⟨_, hraw, hnumber⟩, trusted_of_isTrustedPeer htrusted⟩
      · cases h

section Forwarded
variable {a : String}

theorem splitComma_concat (p : String) (ha : ',' ∉ a.toList) :
    splitComma (p ++ "," ++ a) = splitComma p ++ [a] := by
  have hlist : (p ++ "," ++ a).toList = p.toList ++ ',' :: a.toList := by simp
  rw [splitComma, hlist, List.splitOn_append_cons_self, List.splitOn_eq_singleton ha, List.map_append,
    List.map_singleton, String.ofList_toList]
  rfl

/-- The closest hop's entry decides, whatever stands in front of it. -/
theorem clientAddress_concat (peer : Option String) (p : String) (ha : ',' ∉ a.toList)
    (hblank : py.strip a ≠ "") :
    clientAddress py peer (some (p ++ "," ++ a)) = some (py.strip a) := by
  have hlast : (((splitComma (p ++ "," ++ a)).map py.strip).filter (· ≠ "")).getLast? =
      some (py.strip a) := by
    rw [splitComma_concat p ha, List.map_append, List.filter_append, List.map_singleton,
      List.filter_cons_of_pos (by simpa using hblank), List.filter_nil, List.getLast?_concat]
  have hsome : p ++ "," ++ a ≠ "" := by
    intro hempty
    have hlist := congrArg String.toList hempty
    simp at hlist
  unfold clientAddress
  rw [orElseText, if_neg hsome]
  split
  · next hempty => exact absurd hempty hsome
  · rw [hlast]

theorem clientAddress_alone (peer : Option String) (ha : ',' ∉ a.toList) (hsome : a ≠ "")
    (hblank : py.strip a ≠ "") : clientAddress py peer (some a) = some (py.strip a) := by
  have hparts : splitComma a = [a] := by
    rw [splitComma, List.splitOn_eq_singleton ha, List.map_singleton, String.ofList_toList]
  unfold clientAddress
  rw [orElseText, if_neg hsome]
  split
  · exact absurd rfl hsome
  · rw [hparts, List.map_singleton, List.filter_cons_of_pos (by simpa using hblank)]
    rfl

variable {settings : Settings} {headers : Headers} {peer : Option String} {headerName : String}
  {trustedCidrs : List String}

theorem trusted_of_resolve {forwardedFor : Option String} {address msisdn : String}
    (haddress : clientAddress py peer forwardedFor = some address)
    (h : (resolveEnrichedIdentity py lower settings headers peer forwardedFor headerName
      trustedCidrs).msisdn = some msisdn) :
    ∃ ip network, parseAddress address = some ip ∧ network ∈ networks trustedCidrs ∧
      network.contains ip = true := by
  obtain ⟨found, ip, network, hfound, hip, hnetwork, hcontains⟩ := (asserted_of_resolve h).trusted
  obtain rfl : address = found := Option.some.inj (haddress.symm.trans hfound)
  exact ⟨ip, network, hip, hnetwork, hcontains⟩

/-- What the caller writes in front of the balancer's entry changes nothing, and a number is only
returned when that entry, trimmed, is an address of a trusted network. -/
theorem forwarded_prefix (settings : Settings) (headers : Headers) (peer : Option String)
    (headerName : String) (trustedCidrs : List String) (ha : ',' ∉ a.toList)
    (hblank : py.strip a ≠ "") (hempty : py.strip "" = "") (p : String) :
    resolveEnrichedIdentity py lower settings headers peer (some (p ++ "," ++ a)) headerName
        trustedCidrs =
      resolveEnrichedIdentity py lower settings headers peer (some a) headerName trustedCidrs ∧
    ∀ msisdn, (resolveEnrichedIdentity py lower settings headers peer (some (p ++ "," ++ a))
        headerName trustedCidrs).msisdn = some msisdn →
      ∃ ip network, parseAddress (py.strip a) = some ip ∧ network ∈ networks trustedCidrs ∧
        network.contains ip = true := by
  have hsome : a ≠ "" := by
    rintro rfl
    exact hblank hempty
  have hconcat := @clientAddress_concat py _ peer p ha hblank
  refine ⟨?_, fun msisdn => trusted_of_resolve hconcat⟩
  unfold resolveEnrichedIdentity
  rw [hconcat, clientAddress_alone peer ha hsome hblank]

end Forwarded

/-- An attacker's address in front of the balancer's. -/
theorem forwarded_prefix_untrusted :
    resolveEnrichedIdentity asciiText id {} [("X-3GPP-Intended-Identity", "tel:+821012345678")]
        (some "10.0.0.1") (some ("10.0.0.1" ++ "," ++ "203.0.113.9")) "X-3GPP-Intended-Identity"
        ["10.0.0.0/8"] =
      resolveEnrichedIdentity asciiText id {} [("X-3GPP-Intended-Identity", "tel:+821012345678")]
        (some "10.0.0.1") (some "203.0.113.9") "X-3GPP-Intended-Identity" ["10.0.0.0/8"] :=
  ( forwarded_prefix {} _ _ _ _ (by decide) (by decide) rfl "10.0.0.1").1

end Enrichment
end Acs
