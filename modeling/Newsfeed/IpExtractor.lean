import Newsfeed.HttpHeaders
import Newsfeed.IpAddresses
import Newsfeed.SeparatedLists

/-! # The rate-limit key of a request

Behind trusted proxies the key is taken from `X-Forwarded-For`, scanned from the right.
An entry that is no address does not end the scan, so what comes before it can be chosen
by the client.
-/
namespace IpExtractor

open TextOperations HttpHeaders IpAddresses SeparatedLists

structure SecureIpExtractor where
  trustProxy : Bool
  trustedCidrs : List IpNet
  deriving DecidableEq, Repr

structure Request where
  connectInfo : Option IpAddr
  headers : HeaderMap

def localhost : IpAddr := .v4 0x7F000001

def Request.peerIp (req : Request) : IpAddr := req.connectInfo.getD localhost

namespace SecureIpExtractor

variable (x : SecureIpExtractor)

def isTrusted (ip : IpAddr) : Bool := x.trustedCidrs.any fun cidr => cidr.contains ip

def rightmostUntrusted : List Text → Option IpAddr → Option IpAddr
  | [], candidate => candidate
  | entry :: entries, candidate =>
    match parseIpAddr (trim entry) with
    | none => rightmostUntrusted entries candidate
    | some ip =>
      if x.isTrusted ip then rightmostUntrusted entries (some ip) else some ip

/-- The address of `X-Forwarded-For`, when the header is visible ASCII. -/
def forwardedIp (req : Request) : Option IpAddr :=
  ((req.headers.get "x-forwarded-for").bind HeaderValue.toStr).bind fun t =>
    x.rightmostUntrusted (t.splitOn ',').reverse none

/-- The address of `X-Real-IP`, which is not trimmed. -/
def realIp (req : Request) : Option IpAddr :=
  ((req.headers.get "x-real-ip").bind HeaderValue.toStr).bind parseIpAddr

/-- `extract`; it never fails. -/
def extract (req : Request) : IpAddr :=
  if !x.trustProxy then req.peerIp
  else if !x.isTrusted req.peerIp then req.peerIp
  else
    match x.forwardedIp req with
    | some ip => ip
    | none => (realIp req).getD req.peerIp

end SecureIpExtractor

def comma : UInt8 := 44

/-- An entry of a header with commas between the entries. -/
structure Entry where
  bytes : List UInt8
  valid : ∀ b ∈ bytes, isHeaderByte b = true ∧ b ≠ comma

namespace Entry

def isVisible (e : Entry) : Bool := e.bytes.all isVisibleAscii

def text (e : Entry) : Text := e.bytes.map fun b => Char.ofNat b.toNat

def ip (e : Entry) : Option IpAddr :=
  if e.isVisible then parseIpAddr (trim e.text) else none

theorem isVisible_of_ip {e : Entry} {a : IpAddr} (h : e.ip = some a) : e.isVisible = true := by
  by_contra hno
  rw [ip, if_neg hno] at h
  cases h

theorem ip_of_isVisible {e : Entry} (h : e.isVisible = true) :
    parseIpAddr (trim e.text) = e.ip := by
  rw [ip, if_pos h]

theorem comma_not_mem (e : Entry) : ',' ∉ e.text := by
  intro hmem
  obtain ⟨b, hb, heq⟩ := List.mem_map.mp hmem
  have hcode : ∀ n : Fin 256, Char.ofNat n = ',' → n = 44 := by decide +kernel
  have hb44 := hcode ⟨b.toNat, b.toNat_lt⟩ heq
  exact (e.valid b hb).2 (UInt8.toNat_inj.mp (congrArg Fin.val hb44))

end Entry

def headerValue (entries : List Entry) : HeaderValue where
  bytes := [comma].intercalate (entries.map Entry.bytes)
  valid := by
    rw [all_intercalate (by decide), List.all_eq_true]
    intro bytes hbytes
    obtain ⟨e, _, rfl⟩ := List.mem_map.mp hbytes
    exact List.all_eq_true.mpr fun b hb => (e.valid b hb).1

theorem toStr_headerValue (entries : List Entry) :
    (headerValue entries).toStr =
      if entries.all Entry.isVisible then some ([','].intercalate (entries.map Entry.text))
      else none := by
  have hvisible : (headerValue entries).bytes.all isVisibleAscii = entries.all Entry.isVisible := by
    rw [headerValue, all_intercalate (by decide), List.all_map]
    rfl
  have htext : (headerValue entries).bytes.map (fun b => Char.ofNat b.toNat) =
      [','].intercalate (entries.map Entry.text) := by
    rw [headerValue, map_intercalate, List.map_map]
    rfl
  rw [HeaderValue.toStr, hvisible, htext]

def request (peer : Option IpAddr) (headers : HeaderMap) (entries : List Entry) : Request where
  connectInfo := peer
  headers := ("x-forwarded-for", headerValue entries) :: headers

section Scan

variable {x : SecureIpExtractor} {peer : Option IpAddr} {headers : HeaderMap}

theorem forwardedIp_request {entries : List Entry} (hne : entries ≠ []) :
    x.forwardedIp (request peer headers entries) =
      if entries.all Entry.isVisible then
        x.rightmostUntrusted (entries.reverse.map Entry.text) none
      else none := by
  have hget : (request peer headers entries).headers.get "x-forwarded-for" =
      some (headerValue entries) := rfl
  rw [SecureIpExtractor.forwardedIp, hget, Option.bind_some, toStr_headerValue]
  split
  · have hsplit : ([','].intercalate (entries.map Entry.text)).splitOn ',' =
        entries.map Entry.text := by
      refine List.splitOn_intercalate ',' ?_ (by simpa using hne)
      intro t ht
      obtain ⟨e, _, rfl⟩ := List.mem_map.mp ht
      exact e.comma_not_mem
    rw [Option.bind_some, hsplit, List.map_reverse]
  · rfl

theorem rightmostUntrusted_trusted {entries : List Entry}
    (h : ∀ a ∈ entries, ∃ ip, a.ip = some ip ∧ x.isTrusted ip = true) (candidate : Option IpAddr) :
    ∃ candidate', ∀ rest, x.rightmostUntrusted (entries.map Entry.text ++ rest) candidate =
      x.rightmostUntrusted rest candidate' := by
  induction entries generalizing candidate with
  | nil => exact ⟨candidate, fun rest => rfl⟩
  | cons a entries ih =>
    obtain ⟨ip, hip, htrusted⟩ := h a List.mem_cons_self
    obtain ⟨candidate', hrest⟩ := ih (fun b hb => h b (List.mem_cons_of_mem a hb)) (some ip)
    refine ⟨candidate', fun rest => ?_⟩
    rw [← hrest rest, List.map_cons, List.cons_append, SecureIpExtractor.rightmostUntrusted,
      Entry.ip_of_isVisible (Entry.isVisible_of_ip hip), hip]
    dsimp only
    rw [if_pos htrusted]

variable {e : Entry} {before trusted : List Entry}

theorem trusted_reverse (h : ∀ a ∈ trusted, ∃ ip, a.ip = some ip ∧ x.isTrusted ip = true) :
    ∀ a ∈ trusted.reverse, ∃ ip, a.ip = some ip ∧ x.isTrusted ip = true :=
  fun a ha => h a (List.mem_reverse.mp ha)

theorem forwardedIp_of_untrusted
    (htrusted : ∀ a ∈ trusted, ∃ ip, a.ip = some ip ∧ x.isTrusted ip = true) {ip : IpAddr}
    (hip : e.ip = some ip) (hfree : x.isTrusted ip = false)
    (hbefore : ∀ a ∈ before, a.isVisible = true) :
    x.forwardedIp (request peer headers (before ++ e :: trusted)) = some ip := by
  have hvisible : (before ++ e :: trusted).all Entry.isVisible = true := by
    rw [List.all_eq_true]
    intro a ha
    rcases List.mem_append.mp ha with ha | ha
    · exact hbefore a ha
    · rcases List.mem_cons.mp ha with rfl | ha
      · exact Entry.isVisible_of_ip hip
      · obtain ⟨b, hb, _⟩ := htrusted a ha
        exact Entry.isVisible_of_ip hb
  obtain ⟨candidate, hrest⟩ := rightmostUntrusted_trusted (trusted_reverse htrusted) none
  rw [forwardedIp_request (by simp), if_pos hvisible]
  simp only [List.reverse_append, List.reverse_cons, List.map_append, List.append_assoc,
    List.map_cons, List.singleton_append]
  rw [hrest, SecureIpExtractor.rightmostUntrusted,
    Entry.ip_of_isVisible (Entry.isVisible_of_ip hip), hip]
  dsimp only
  rw [if_neg (by rw [hfree]; exact Bool.false_ne_true)]

theorem forwardedIp_of_skipped
    (htrusted : ∀ a ∈ trusted, ∃ ip, a.ip = some ip ∧ x.isTrusted ip = true)
    (hvisible : e.isVisible = true) (hip : e.ip = none) {a : Entry} {ip : IpAddr}
    (ha : a.ip = some ip) :
    x.forwardedIp (request peer headers ([a] ++ e :: trusted)) = some ip := by
  have hall : ([a] ++ e :: trusted).all Entry.isVisible = true := by
    rw [List.all_eq_true]
    intro b hb
    simp only [List.singleton_append, List.mem_cons] at hb
    rcases hb with rfl | rfl | hb
    · exact Entry.isVisible_of_ip ha
    · exact hvisible
    · obtain ⟨c, hc, _⟩ := htrusted b hb
      exact Entry.isVisible_of_ip hc
  obtain ⟨candidate, hrest⟩ := rightmostUntrusted_trusted (trusted_reverse htrusted) none
  rw [forwardedIp_request (by simp), if_pos hall]
  simp only [List.reverse_cons, List.map_append, List.append_assoc, List.map_cons, List.map_nil,
    List.singleton_append]
  rw [hrest, SecureIpExtractor.rightmostUntrusted, Entry.ip_of_isVisible hvisible, hip]
  dsimp only
  rw [SecureIpExtractor.rightmostUntrusted, Entry.ip_of_isVisible (Entry.isVisible_of_ip ha), ha]
  dsimp only
  split
  · rfl
  · rfl

theorem forwardedIp_of_unread {entries : List Entry} {a : Entry} (ha : a ∈ entries)
    (hunread : a.isVisible = false) : x.forwardedIp (request peer headers entries) = none := by
  rw [forwardedIp_request (List.ne_nil_of_mem ha), if_neg]
  intro hall
  rw [List.all_eq_true.mp hall a ha] at hunread
  cases hunread

end Scan

def fallbackIp (peer : Option IpAddr) (headers : HeaderMap) : IpAddr :=
  (SecureIpExtractor.realIp ⟨peer, headers⟩).getD (peer.getD localhost)

def key (x : SecureIpExtractor) (peer : Option IpAddr) (headers : HeaderMap)
    (entries : List Entry) : IpAddr := x.extract (request peer headers entries)

section Key

variable {x : SecureIpExtractor} {peer : Option IpAddr} (hproxy : x.trustProxy = true)
  (hpeer : x.isTrusted (peer.getD localhost) = true) (headers : HeaderMap)
include hproxy hpeer

theorem key_eq (entries : List Entry) :
    key x peer headers entries =
      (x.forwardedIp (request peer headers entries)).getD (fallbackIp peer headers) := by
  have htrusted : x.isTrusted (request peer headers entries).peerIp = true := hpeer
  rw [key, SecureIpExtractor.extract, hproxy, htrusted]
  cases x.forwardedIp (request peer headers entries) <;> rfl

theorem key_of_unread {entries : List Entry} {a : Entry} (ha : a ∈ entries)
    (hunread : a.isVisible = false) : key x peer headers entries = fallbackIp peer headers := by
  rw [key_eq hproxy hpeer, forwardedIp_of_unread ha hunread, Option.getD_none]

variable {e : Entry} {trusted : List Entry}
  (htrusted : ∀ a ∈ trusted, ∃ ip, a.ip = some ip ∧ x.isTrusted ip = true)
include htrusted

theorem key_of_address {ip : IpAddr} (hip : e.ip = some ip) (huntrusted : x.isTrusted ip = false)
    {before : List Entry} (hbefore : ∀ a ∈ before, a.isVisible = true) :
    key x peer headers (before ++ e :: trusted) = ip := by
  rw [key_eq hproxy hpeer, forwardedIp_of_untrusted htrusted hip huntrusted hbefore,
    Option.getD_some]

theorem key_of_skipped (hvisible : e.isVisible = true) (hip : e.ip = none) {a : Entry}
    {ip : IpAddr} (ha : a.ip = some ip) : key x peer headers ([a] ++ e :: trusted) = ip := by
  rw [key_eq hproxy hpeer, forwardedIp_of_skipped htrusted hvisible hip ha, Option.getD_some]

end Key

def entryOf (t : String) (h : ∀ b ∈ asciiBytes t.toList, isHeaderByte b = true ∧ b ≠ comma) :
    Entry := ⟨asciiBytes t.toList, h⟩

def oneEntry : Entry := entryOf "1.1.1.1" (List.all_iff_forall_prop.mp (by decide))

def twoEntry : Entry := entryOf "2.2.2.2" (List.all_iff_forall_prop.mp (by decide))

def unreadEntry : Entry := ⟨[255], List.all_iff_forall_prop.mp (by decide)⟩

/-- The entries `before` are the client's, `e` is the entry of the outermost trusted proxy.
Over visible ASCII the key does not depend on the client exactly when `e` is an address or
not visible ASCII. Over all header bytes an address must also be that of `X-Real-IP`, or of
the peer where that header has none. -/
theorem key_independent_iff (x : SecureIpExtractor) (peer : Option IpAddr) (headers : HeaderMap)
    (hproxy : x.trustProxy = true) (hpeer : x.isTrusted (peer.getD localhost) = true) (e : Entry)
    (trusted : List Entry) (he : ∀ ip, e.ip = some ip → x.isTrusted ip = false)
    (htrusted : ∀ a ∈ trusted, ∃ ip, a.ip = some ip ∧ x.isTrusted ip = true) :
    ((∀ before before' : List Entry, (∀ a ∈ before ++ before', a.isVisible = true) →
        key x peer headers (before ++ e :: trusted) =
          key x peer headers (before' ++ e :: trusted)) ↔
      (e.isVisible = true → e.ip.isSome = true)) ∧
    ((∀ before before' : List Entry, key x peer headers (before ++ e :: trusted) =
        key x peer headers (before' ++ e :: trusted)) ↔
      (e.isVisible = true → e.ip = some (fallbackIp peer headers))) := by
  have hself : ∀ before : List Entry, e ∈ before ++ e :: trusted := by
    intro before
    exact List.mem_append_right before List.mem_cons_self
  have hunread : e.isVisible ≠ true → ∀ before : List Entry,
      key x peer headers (before ++ e :: trusted) = fallbackIp peer headers := by
    intro hinvisible before
    exact key_of_unread hproxy hpeer headers (hself before) (Bool.eq_false_iff.mpr hinvisible)
  -- two addresses before an entry that is passed over give two keys
  have hdependent : e.isVisible = true → e.ip = none →
      key x peer headers ([oneEntry] ++ e :: trusted) ≠
        key x peer headers ([twoEntry] ++ e :: trusted) := by
    intro hvisible hip
    have hone : oneEntry.ip = some (.v4 0x01010101) := by decide
    have htwo : twoEntry.ip = some (.v4 0x02020202) := by decide
    rw [key_of_skipped hproxy hpeer headers htrusted hvisible hip hone,
      key_of_skipped hproxy hpeer headers htrusted hvisible hip htwo]
    decide
  refine ⟨⟨fun hsame hvisible => ?_, fun hread before before' hvisible => ?_⟩,
    ⟨fun hsame hvisible => ?_, fun hread before before' => ?_⟩⟩
  · cases hip : e.ip with
    | some ip => rfl
    | none => exact absurd (hsame [oneEntry] [twoEntry] (by decide)) (hdependent hvisible hip)
  · by_cases hshown : e.isVisible = true
    · obtain ⟨ip, hip⟩ := Option.isSome_iff_exists.mp (hread hshown)
      rw [key_of_address hproxy hpeer headers htrusted hip (he ip hip)
          fun a ha => hvisible a (List.mem_append_left before' ha),
        key_of_address hproxy hpeer headers htrusted hip (he ip hip)
          fun a ha => hvisible a (List.mem_append_right before ha)]
    · rw [hunread hshown before, hunread hshown before']
  · cases hip : e.ip with
    | none => exact absurd (hsame [oneEntry] [twoEntry]) (hdependent hvisible hip)
    | some ip =>
      -- an entry that is not visible makes the whole header unread
      have hkeys := hsame [] [unreadEntry]
      have hmem : unreadEntry ∈ [unreadEntry] ++ e :: trusted := List.mem_cons_self
      rw [key_of_address hproxy hpeer headers htrusted hip (he ip hip) (by simp),
        key_of_unread hproxy hpeer headers hmem (by decide)] at hkeys
      rw [hkeys]
  · by_cases hshown : e.isVisible = true
    · have hip := hread hshown
      have hfallback : ∀ before : List Entry,
          key x peer headers (before ++ e :: trusted) = fallbackIp peer headers := by
        intro before
        by_cases hall : ∀ a ∈ before, a.isVisible = true
        · exact key_of_address hproxy hpeer headers htrusted hip (he _ hip) hall
        · push Not at hall
          obtain ⟨a, ha, hno⟩ := hall
          exact key_of_unread hproxy hpeer headers (List.mem_append_left _ ha)
            (Bool.eq_false_iff.mpr hno)
      rw [hfallback before, hfallback before']
    · rw [hunread hshown before, hunread hshown before']

def tenNetwork : SecureIpExtractor := ⟨true, [.v4 0x0A000000 8]⟩

def proxyIp : IpAddr := .v4 0x0A000001

def clientEntry : Entry := entryOf "203.0.113.195" (List.all_iff_forall_prop.mp (by decide))

def proxyEntry : Entry := entryOf " 10.0.0.5" (List.all_iff_forall_prop.mp (by decide))

def unknownEntry : Entry := entryOf " unknown" (List.all_iff_forall_prop.mp (by decide))

theorem proxyEntry_trusted :
    ∀ a ∈ [proxyEntry], ∃ ip, a.ip = some ip ∧ tenNetwork.isTrusted ip = true := by
  intro a ha
  rw [List.mem_singleton.mp ha]
  exact ⟨.v4 0x0A000005, by decide, by decide⟩

theorem client_key_independent :
    key tenNetwork (some proxyIp) [] ([oneEntry] ++ clientEntry :: [proxyEntry]) =
      key tenNetwork (some proxyIp) [] ([twoEntry] ++ clientEntry :: [proxyEntry]) := by
  have hip : clientEntry.ip = some (.v4 0xCB0071C3) := by decide
  refine (key_independent_iff tenNetwork (some proxyIp) [] rfl (by decide) clientEntry [proxyEntry]
    ?_ proxyEntry_trusted).1.mpr ?_ [oneEntry] [twoEntry] ?_
  · intro ip h
    rw [hip] at h
    cases h
    decide
  · intro _
    rw [hip]
    rfl
  · exact List.all_iff_forall_prop.mp (by decide)

/-- Before an entry `unknown`, the client chooses its key. -/
theorem unknown_key_chosen :
    unknownEntry.ip = none ∧
      key tenNetwork (some proxyIp) [] ([oneEntry] ++ unknownEntry :: [proxyEntry]) =
        .v4 0x01010101 ∧
      key tenNetwork (some proxyIp) [] ([twoEntry] ++ unknownEntry :: [proxyEntry]) =
        .v4 0x02020202 := by
  have hip : unknownEntry.ip = none := by decide
  have hone : oneEntry.ip = some (.v4 0x01010101) := by decide
  have htwo : twoEntry.ip = some (.v4 0x02020202) := by decide
  refine ⟨hip, ?_, ?_⟩
  · exact key_of_skipped rfl (by decide) [] proxyEntry_trusted (by decide) hip hone
  · exact key_of_skipped rfl (by decide) [] proxyEntry_trusted (by decide) hip htwo

end IpExtractor
