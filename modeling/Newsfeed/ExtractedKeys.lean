import Newsfeed.ForwardedLines

/-! # What the rate-limit key is

The key by cases on the addresses that the request forwards, over the bytes of the
header value. The extractor agrees as long as the value can be read as text: one byte
outside visible ASCII hides every entry of the line.
-/
namespace ExtractedKeys

open TextOperations SeparatedLists HttpHeaders IpAddresses IpExtractor ForwardedLines

def charOf (b : UInt8) : Char := Char.ofNat b.toNat

theorem charOf_comma {b : UInt8} (h : charOf b = charOf comma) : b = comma := by
  have hcode : ∀ n : Fin 256, Char.ofNat n = ',' → n = 44 := by decide +kernel
  have hb := hcode ⟨b.toNat, b.toNat_lt⟩ h
  exact UInt8.toNat_inj.mp (congrArg Fin.val hb)

def entryIp (bytes : List UInt8) : Option IpAddr :=
  if bytes.all isVisibleAscii then parseIpAddr (trim (bytes.map charOf)) else none

def forwardedAddresses (v : HeaderValue) : List IpAddr :=
  (v.bytes.splitOn comma).filterMap entryIp

theorem isVisible_of_mem {v : HeaderValue} (h : isVisible v = true) {entry : List UInt8}
    (hentry : entry ∈ v.bytes.splitOn comma) : entry.all isVisibleAscii = true := by
  have hjoin : ([comma].intercalate (v.bytes.splitOn comma)).all isVisibleAscii = true := by
    rw [List.intercalate_splitOn]
    exact h
  rw [all_intercalate (by decide)] at hjoin
  exact List.all_eq_true.mp hjoin entry hentry

theorem forwardedAddresses_of_isVisible {v : HeaderValue} (h : isVisible v = true) :
    forwardedAddresses v = addresses (text v) := by
  have htext : (text v).splitOn ',' = (v.bytes.splitOn comma).map (List.map charOf) :=
    splitOn_map (f := charOf) (c := comma) fun _ _ => charOf_comma
  rw [forwardedAddresses, addresses, htext, List.filterMap_map]
  apply List.filterMap_congr
  intro entry hentry
  rw [entryIp, if_pos (isVisible_of_mem h hentry)]
  rfl

def Outside (x : SecureIpExtractor) (ip : IpAddr) : Prop :=
  ∀ cidr ∈ x.trustedCidrs, cidr.contains ip = false

instance (x : SecureIpExtractor) (ip : IpAddr) : Decidable (Outside x ip) :=
  inferInstanceAs (Decidable (∀ cidr ∈ x.trustedCidrs, _))

theorem outside_iff {x : SecureIpExtractor} {ip : IpAddr} :
    Outside x ip ↔ x.isTrusted ip = false := by
  rw [Outside, SecureIpExtractor.isTrusted, List.any_eq_false]
  apply forall₂_congr
  intro cidr _
  rw [Bool.not_eq_true]

def proxiedKey (x : SecureIpExtractor) (forwarded : List IpAddr) (fallback : IpAddr) : IpAddr :=
  match (forwarded.filter fun ip => Outside x ip).getLast? with
  | some ip => ip
  | none =>
    match forwarded with
    | first :: _ => first
    | [] => fallback

/-- The key of a request that forwards the addresses `forwarded`. -/
def specifiedKey (x : SecureIpExtractor) (req : Request) (forwarded : List IpAddr) : IpAddr :=
  if x.trustProxy = false ∨ Outside x req.peerIp then req.peerIp
  else proxiedKey x forwarded ((SecureIpExtractor.realIp req).getD req.peerIp)

def entriesOf (req : Request) : List IpAddr :=
  match req.headers.get "x-forwarded-for" with
  | none => []
  | some v => forwardedAddresses v

/-- The entries of a header value that `to_str` accepts. -/
def readEntries (req : Request) : List IpAddr :=
  match req.headers.get "x-forwarded-for" with
  | none => []
  | some v => if isVisible v then forwardedAddresses v else []

theorem forwardedIp_eq (x : SecureIpExtractor) (req : Request) :
    x.forwardedIp req = chosen x (readEntries req) := by
  rw [SecureIpExtractor.forwardedIp, readEntries]
  cases req.headers.get "x-forwarded-for" with
  | none => rfl
  | some v =>
    rw [Option.bind_some, toStr_eq]
    by_cases hvisible : isVisible v = true
    · simp only [hvisible, ↓reduceIte, Option.bind_some]
      rw [rightmostUntrusted_splitOn, forwardedAddresses_of_isVisible hvisible]
    · simp only [hvisible, ↓reduceIte, Option.bind_none, Bool.false_eq_true]
      rfl

theorem getD_chosen (x : SecureIpExtractor) (forwarded : List IpAddr) (fallback : IpAddr) :
    (chosen x forwarded).getD fallback = proxiedKey x forwarded fallback := by
  have hfilter : (forwarded.filter fun ip => !x.isTrusted ip) =
      forwarded.filter fun ip => Outside x ip := by
    apply List.filter_congr
    intro ip _
    simp [outside_iff]
  rw [chosen, hfilter]
  unfold proxiedKey
  cases (forwarded.filter fun ip => Outside x ip).getLast? with
  | some ip => rfl
  | none =>
    cases forwarded with
    | nil => rfl
    | cons first _ => rfl

/-- The extractor on every request: a value that is not text has no entries. -/
theorem extract_eq_specifiedKey (x : SecureIpExtractor) (req : Request) :
    x.extract req = specifiedKey x req (readEntries req) := by
  rw [specifiedKey, SecureIpExtractor.extract, forwardedIp_eq]
  by_cases hdirect : x.trustProxy = false
  · simp [hdirect]
  · by_cases houtside : Outside x req.peerIp
    · have hpeer := outside_iff.mp houtside
      simp [houtside, hpeer]
    · have hpeer := mt outside_iff.mpr houtside
      rw [Bool.not_eq_false] at hdirect hpeer
      simp only [hdirect, hpeer, houtside, Bool.true_eq_false, or_self, ↓reduceIte, Bool.not_true]
      rw [← getD_chosen]
      cases chosen x (readEntries req) with
      | none => rfl
      | some ip => rfl

/-- A value with the entries `1.1.1.1` and one byte that is not ASCII. -/
def unreadLine : HeaderValue where
  bytes := asciiBytes "1.1.1.1,".toList ++ [255]
  valid := by decide

def unreadRequest : Request := linesRequest (some proxyIp) [] [unreadLine]

/-- The unread entry also hides the address before it. -/
theorem unread_entry_hides :
    entriesOf unreadRequest = [.v4 0x01010101] ∧
      specifiedKey tenNetwork unreadRequest (entriesOf unreadRequest) = .v4 0x01010101 ∧
      tenNetwork.extract unreadRequest ≠
        specifiedKey tenNetwork unreadRequest (entriesOf unreadRequest) := by
  refine ⟨?_, ?_, ?_⟩
  · decide +kernel
  · decide +kernel
  · decide +kernel

end ExtractedKeys
