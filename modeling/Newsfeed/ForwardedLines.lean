import Newsfeed.IpExtractor

/-! # `X-Forwarded-For` on several lines

The extractor reads the first line only. A request whose list is split over lines and the
request with the joined list can have different keys.
-/
namespace ForwardedLines

open TextOperations HttpHeaders IpAddresses IpExtractor

def addresses (t : Text) : List IpAddr := (t.splitOn ',').filterMap fun e => parseIpAddr (trim e)

theorem addresses_append (t u : Text) :
    addresses (t ++ ',' :: u) = addresses t ++ addresses u := by
  rw [addresses, List.splitOn_append_cons_self, List.filterMap_append, addresses, addresses]

theorem trim_blank (e : Text) : trim (' ' :: e) = trim e := by
  rw [trim, trim, trimBy, trimBy, List.dropWhile_cons_of_pos (by decide)]

theorem addresses_blank (t : Text) : addresses (' ' :: t) = addresses t := by
  obtain ⟨e, es, hsplit⟩ := List.exists_cons_of_ne_nil (List.splitOn_ne_nil ',' t)
  rw [addresses, List.splitOn_cons_eq_if_modifyHead, if_neg (by decide), hsplit,
    List.modifyHead_cons, List.filterMap_cons, trim_blank, addresses, hsplit, List.filterMap_cons]

theorem addresses_joined (t : Text) (ts : List Text) :
    addresses (t ++ ts.flatMap fun u => ',' :: ' ' :: u) =
      addresses t ++ ts.flatMap addresses := by
  induction ts generalizing t with
  | nil => simp
  | cons u ts ih =>
    rw [List.flatMap_cons, List.cons_append, addresses_append, List.cons_append, addresses_blank,
      ih, List.flatMap_cons]

section Scan

variable (x : SecureIpExtractor)

/-- The last address outside the trusted networks, or else the first address. -/
def chosen (ips : List IpAddr) : Option IpAddr :=
  ((ips.filter fun ip => !x.isTrusted ip).getLast?).or ips.head?

theorem rightmostUntrusted_eq (entries : List Text) (candidate : Option IpAddr) :
    x.rightmostUntrusted entries candidate =
      let ips := entries.filterMap fun e => parseIpAddr (trim e)
      ((ips.find? fun ip => !x.isTrusted ip).or ips.getLast?).or candidate := by
  induction entries generalizing candidate with
  | nil => rfl
  | cons e entries ih =>
    rw [SecureIpExtractor.rightmostUntrusted]
    cases hip : parseIpAddr (trim e) with
    | none => simp [ih, hip]
    | some ip =>
      dsimp only
      by_cases htrusted : x.isTrusted ip = true
      · rw [if_pos htrusted, ih]
        simp [hip, htrusted, List.getLast?_cons]
      · rw [if_neg htrusted]
        simp [hip, htrusted]

theorem rightmostUntrusted_splitOn (t : Text) :
    x.rightmostUntrusted (t.splitOn ',').reverse none = chosen x (addresses t) := by
  rw [rightmostUntrusted_eq]
  simp only [List.filterMap_reverse, List.getLast?_reverse, Option.or_none]
  rw [chosen, addresses, ← List.head?_reverse, ← List.filter_reverse, List.head?_filter]

end Scan

def isVisible (v : HeaderValue) : Bool := v.bytes.all isVisibleAscii

def text (v : HeaderValue) : Text := v.bytes.map fun b => Char.ofNat b.toNat

theorem toStr_eq (v : HeaderValue) :
    v.toStr = if isVisible v then some (text v) else none := rfl

def joined (v : HeaderValue) (vs : List HeaderValue) : HeaderValue where
  bytes := v.bytes ++ vs.flatMap fun u => 44 :: 32 :: u.bytes
  valid := by
    rw [List.all_append, Bool.and_eq_true, List.all_flatMap, List.all_eq_true (l := vs)]
    refine ⟨v.valid, fun u _ => ?_⟩
    rw [List.all_cons, List.all_cons, u.valid]
    rfl

def linesRequest (peer : Option IpAddr) (headers : HeaderMap) (lines : List HeaderValue) :
    Request := ⟨peer, lines.map (fun v => ("x-forwarded-for", v)) ++ headers⟩

theorem isVisible_joined (v : HeaderValue) (vs : List HeaderValue) :
    isVisible (joined v vs) = (isVisible v && vs.all isVisible) := by
  rw [isVisible, joined, List.all_append, List.all_flatMap]
  rfl

theorem text_joined (v : HeaderValue) (vs : List HeaderValue) :
    text (joined v vs) = text v ++ (vs.map text).flatMap fun u => ',' :: ' ' :: u := by
  rw [text, joined, List.map_append, List.map_flatMap, List.flatMap_map]
  rfl

section Key

variable {x : SecureIpExtractor} {peer : Option IpAddr} {headers : HeaderMap}

theorem forwardedIp_line (v : HeaderValue) (vs : List HeaderValue) :
    x.forwardedIp (linesRequest peer headers (v :: vs)) =
      if isVisible v then chosen x (addresses (text v)) else none := by
  have hget : (linesRequest peer headers (v :: vs)).headers.get "x-forwarded-for" = some v := rfl
  rw [SecureIpExtractor.forwardedIp, hget, Option.bind_some, toStr_eq]
  by_cases hvisible : isVisible v = true
  · rw [if_pos hvisible, if_pos hvisible, Option.bind_some]
    exact rightmostUntrusted_splitOn x (text v)
  · rw [if_neg hvisible, if_neg hvisible, Option.bind_none]

theorem realIp_lines (lines : List HeaderValue) :
    SecureIpExtractor.realIp (linesRequest peer headers lines) =
      SecureIpExtractor.realIp ⟨peer, headers⟩ := by
  have hget : (linesRequest peer headers lines).headers.get "x-real-ip" =
      headers.get "x-real-ip" := by
    rw [HeaderMap.get, linesRequest, List.find?_append, List.find?_eq_none.mpr, Option.none_or,
      HeaderMap.get]
    intro h hh
    obtain ⟨v, _, rfl⟩ := List.mem_map.mp hh
    change ¬ (("x-forwarded-for" == "x-real-ip") = true)
    decide
  rw [SecureIpExtractor.realIp, hget, SecureIpExtractor.realIp]

theorem extract_lines (hproxy : x.trustProxy = true)
    (hpeer : x.isTrusted (peer.getD localhost) = true) (lines : List HeaderValue) :
    x.extract (linesRequest peer headers lines) =
      (x.forwardedIp (linesRequest peer headers lines)).getD (fallbackIp peer headers) := by
  have htrusted : x.isTrusted (linesRequest peer headers lines).peerIp = true := hpeer
  rw [SecureIpExtractor.extract, hproxy, htrusted, realIp_lines]
  cases x.forwardedIp (linesRequest peer headers lines) <;> rfl

end Key

/-- The addresses of the later lines, when all of them can be read. -/
def laterAddresses (vs : List HeaderValue) : Option (List IpAddr) :=
  if vs.all isVisible then some (vs.flatMap fun v => addresses (text v)) else none

/-- The later lines do not matter for a first line with the addresses `first`. One that cannot
be read leaves the fallback, so the first line must choose nothing else. Otherwise their last
address outside the networks must be the one that the first line leads to, and when they have
none their first address only counts if the first line has no address at all. -/
def KeepsKey (x : SecureIpExtractor) (fallback : IpAddr) (first : List IpAddr) :
    Option (List IpAddr) → Prop
  | none => ∀ ip ∈ chosen x first, ip = fallback
  | some later =>
    match (later.filter fun ip => !x.isTrusted ip).getLast? with
    | some ip => (chosen x first).getD fallback = ip
    | none => first = [] → ∀ ip ∈ later.head?, ip = fallback

theorem getD_eq_iff {x : SecureIpExtractor} {fallback : IpAddr} (first : List IpAddr)
    (later : Option (List IpAddr)) :
    (chosen x first).getD fallback = (later.bind fun ips => chosen x (first ++ ips)).getD fallback ↔
      KeepsKey x fallback first later := by
  cases later with
  | none =>
    rw [KeepsKey, Option.bind_none, Option.getD_none]
    cases chosen x first with
    | none => simp
    | some ip => simp
  | some ips =>
    rw [KeepsKey, Option.bind_some]
    have happend : chosen x (first ++ ips) = ((ips.filter fun ip => !x.isTrusted ip).getLast?).or
        ((first.filter fun ip => !x.isTrusted ip).getLast?.or (first.head?.or ips.head?)) := by
      rw [chosen, List.filter_append, List.getLast?_append, List.head?_append, Option.or_assoc]
    rw [happend]
    cases (ips.filter fun ip => !x.isTrusted ip).getLast? with
    | some ip => rw [Option.some_or, Option.getD_some]
    | none =>
      rw [Option.none_or]
      cases first with
      | nil =>
        cases ips.head? with
        | none => simp [chosen]
        | some ip => simp [chosen, eq_comm]
      | cons a first =>
        rw [chosen, List.head?_cons, Option.some_or]
        simp

/-- The request with several lines and the one with the joined value have the same key exactly
when the proxy is not trusted, the first line cannot be read, or the later ones keep the key. -/
theorem split_lines_iff (x : SecureIpExtractor) (peer : Option IpAddr) (headers : HeaderMap)
    (v : HeaderValue) (vs : List HeaderValue) :
    x.extract (linesRequest peer headers (v :: vs)) =
        x.extract (linesRequest peer headers [joined v vs]) ↔
      (x.trustProxy = true → x.isTrusted (peer.getD localhost) = true → isVisible v = true →
        KeepsKey x (fallbackIp peer headers) (addresses (text v)) (laterAddresses vs)) := by
  by_cases hproxy : x.trustProxy = true
  · by_cases hpeer : x.isTrusted (peer.getD localhost) = true
    · rw [extract_lines hproxy hpeer, extract_lines hproxy hpeer, forwardedIp_line,
        forwardedIp_line, isVisible_joined, text_joined, addresses_joined]
      by_cases hvisible : isVisible v = true
      · have hlater : (if (isVisible v && vs.all isVisible) = true then
            chosen x (addresses (text v) ++ (vs.map text).flatMap addresses) else none) =
            (laterAddresses vs).bind fun ips => chosen x (addresses (text v) ++ ips) := by
          rw [laterAddresses, hvisible, Bool.true_and, List.flatMap_map]
          split
          · rfl
          · rfl
        rw [hlater, if_pos hvisible, getD_eq_iff]
        exact ⟨fun h _ _ _ => h, fun h => h hproxy hpeer hvisible⟩
      · have hinvisible := Bool.eq_false_iff.mpr hvisible
        simp [hinvisible]
    · have hdirect : ∀ lines,
          x.extract (linesRequest peer headers lines) = peer.getD localhost := by
        intro lines
        have hno : x.isTrusted (linesRequest peer headers lines).peerIp = false :=
          Bool.eq_false_iff.mpr hpeer
        rw [SecureIpExtractor.extract, hproxy, hno]
        rfl
      rw [hdirect, hdirect]
      exact iff_of_true rfl fun _ h => absurd h hpeer
  · have hdirect : ∀ lines, x.extract (linesRequest peer headers lines) = peer.getD localhost := by
      intro lines
      rw [SecureIpExtractor.extract, Bool.eq_false_iff.mpr hproxy]
      rfl
    rw [hdirect, hdirect]
    exact iff_of_true rfl fun h => absurd h hproxy

def lineOf (t : String) (h : (asciiBytes t.toList).all isHeaderByte = true) : HeaderValue :=
  ⟨asciiBytes t.toList, h⟩

def clientLine : HeaderValue := lineOf "1.1.1.1" (by decide)

def proxyLine : HeaderValue := lineOf "2.2.2.2" (by decide)

/-- Behind a trusted proxy that adds a line of its own, the client's line is the one read. -/
theorem second_line_ignored :
    tenNetwork.extract (linesRequest (some proxyIp) [] [clientLine, proxyLine]) =
        .v4 0x01010101 ∧
      tenNetwork.extract (linesRequest (some proxyIp) [] [joined clientLine [proxyLine]]) =
        .v4 0x02020202 := by
  constructor
  · decide
  · decide

end ForwardedLines
