import Newsfeed.CudHandlers
import Mathlib.Data.Finset.Insert
import Mathlib.Data.Finset.Dedup

/-! # API keys

The configured keys are hex digests, split, trimmed, collected in a set and decoded at startup.
A request is authenticated by the digest of its key against all of them.
-/
namespace ApiKeys

open TextOperations HttpHeaders FallibleOperations CudHandlers

structure Digest where
  bytes : List UInt8
  length_eq : bytes.length = 32
  deriving DecidableEq

def Digest.ofBytes (bytes : List UInt8) : Option Digest :=
  if h : bytes.length = 32 then some ⟨bytes, h⟩ else none

/-- `val` of the hex crate. -/
def hexVal (c : Char) : Option UInt8 :=
  if 65 ≤ c.toNat ∧ c.toNat ≤ 70 then some (.ofNat (c.toNat - 65 + 10))
  else if 97 ≤ c.toNat ∧ c.toNat ≤ 102 then some (.ofNat (c.toNat - 97 + 10))
  else if 48 ≤ c.toNat ∧ c.toNat ≤ 57 then some (.ofNat (c.toNat - 48))
  else none

/-- The bytes that the hex crate decodes, as documented: two digits a byte, the high half first,
in either case. A text of odd length and any other character are errors. -/
def decodeBytes : Text → Option (List UInt8)
  | [] => some []
  | [_] => none
  | hi :: lo :: key =>
    match hexVal hi, hexVal lo with
    | some h, some l => (decodeBytes key).map fun bytes => (h <<< 4 ||| l) :: bytes
    | _, _ => none

/-- `hex::decode_to_slice` into 32 bytes. Its errors are not told apart by the caller, and a
character outside ASCII is no hex digit in any of its bytes. -/
def decodeToSlice (key : Text) : Option Digest := (decodeBytes key).bind Digest.ofBytes

def IsHexDigit (c : Char) : Prop :=
  ('0' ≤ c ∧ c ≤ '9') ∨ ('a' ≤ c ∧ c ≤ 'f') ∨ ('A' ≤ c ∧ c ≤ 'F')

def IsHexKey (key : Text) : Prop := key.length = 64 ∧ ∀ c ∈ key, IsHexDigit c

theorem hexVal_isSome {c : Char} : (∃ v, hexVal c = some v) ↔ IsHexDigit c := by
  have hle : ∀ a b : Char, a ≤ b ↔ a.toNat ≤ b.toNat := fun a b => Iff.rfl
  have hval : (∃ v, hexVal c = some v) ↔ (65 ≤ c.toNat ∧ c.toNat ≤ 70) ∨
      (97 ≤ c.toNat ∧ c.toNat ≤ 102) ∨ (48 ≤ c.toNat ∧ c.toNat ≤ 57) := by
    rw [hexVal]
    split_ifs <;> simp_all
  rw [hval, IsHexDigit, hle, hle, hle, hle, hle, hle]
  show _ ↔ (48 ≤ c.toNat ∧ c.toNat ≤ 57) ∨ (97 ≤ c.toNat ∧ c.toNat ≤ 102) ∨
    (65 ≤ c.toNat ∧ c.toNat ≤ 70)
  omega

theorem hexVal_toLower (c : Char) : hexVal c.toLower = hexVal c := by
  rw [hexVal, hexVal, toNat_toLower]
  by_cases hupper : 65 ≤ c.toNat ∧ c.toNat ≤ 90
  · rw [if_pos hupper]
    by_cases hhex : c.toNat ≤ 70
    · rw [if_neg (by omega), if_pos (by omega), if_pos ⟨hupper.1, hhex⟩]
      congr 2
    · rw [if_neg (by omega), if_neg (by omega), if_neg (by omega), if_neg (by omega),
        if_neg (by omega), if_neg (by omega)]
  · rw [if_neg hupper]

theorem decodeBytes_isSome {key : Text} :
    (∃ bytes, decodeBytes key = some bytes) ↔ key.length % 2 = 0 ∧ ∀ c ∈ key, IsHexDigit c := by
  fun_induction decodeBytes key with
  | case1 => simp
  | case2 c => simp
  | case3 hi lo key h l hl hh ih =>
    have hlength : (hi :: lo :: key).length % 2 = key.length % 2 := Nat.add_mod_right key.length 2
    rw [hlength, List.forall_mem_cons, List.forall_mem_cons]
    have hhi := hexVal_isSome.mp ⟨h, hh⟩
    have hlo := hexVal_isSome.mp ⟨l, hl⟩
    simp [hhi, hlo, ih]
  | case4 hi lo key hno =>
    constructor
    · rintro ⟨bytes, hbytes⟩
      cases hbytes
    · rintro ⟨-, hdigits⟩
      obtain ⟨h, hh⟩ := hexVal_isSome.mpr (hdigits hi (by simp))
      obtain ⟨l, hl⟩ := hexVal_isSome.mpr (hdigits lo (by simp))
      exact absurd hl (hno h l hh)

theorem decodeBytes_length {key : Text} {bytes : List UInt8} (h : decodeBytes key = some bytes) :
    key.length = 2 * bytes.length := by
  fun_induction decodeBytes key generalizing bytes with
  | case1 =>
    cases h
    rfl
  | case2 c => cases h
  | case3 hi lo key v w hw hv ih =>
    obtain ⟨tail, htail, rfl⟩ := Option.map_eq_some_iff.mp h
    rw [List.length_cons, List.length_cons, List.length_cons, ih htail]
    omega
  | case4 hi lo key hno => cases h

theorem decodeBytes_lowerAscii (key : Text) : decodeBytes (lowerAscii key) = decodeBytes key := by
  fun_induction decodeBytes key with
  | case1 => rfl
  | case2 c => rfl
  | case3 hi lo key h l hl hh ih =>
    rw [lowerAscii] at ih
    rw [lowerAscii, List.map_cons, List.map_cons, decodeBytes, hexVal_toLower, hexVal_toLower, hh,
      hl, ih]
  | case4 hi lo key hno =>
    rw [lowerAscii, List.map_cons, List.map_cons, decodeBytes, hexVal_toLower, hexVal_toLower]
    split
    · next h l hh hl => exact absurd hl (hno h l hh)
    · rfl

theorem decodeToSlice_isSome {key : Text} :
    (∃ digest, decodeToSlice key = some digest) ↔ IsHexKey key := by
  rw [decodeToSlice, IsHexKey]
  constructor
  · intro h
    rcases h with ⟨digest, hdigest⟩
    obtain ⟨bytes, hbytes, hlength⟩ := Option.bind_eq_some_iff.mp hdigest
    rw [Digest.ofBytes] at hlength
    split at hlength
    · next h32 =>
      refine ⟨?_, (decodeBytes_isSome.mp ⟨bytes, hbytes⟩).2⟩
      rw [decodeBytes_length hbytes, h32]
    · cases hlength
  · intro h
    rcases h with ⟨hlength, hdigits⟩
    obtain ⟨bytes, hbytes⟩ := decodeBytes_isSome.mpr ⟨by rw [hlength], hdigits⟩
    have h32 : bytes.length = 32 := by
      have := decodeBytes_length hbytes
      omega
    exact ⟨⟨bytes, h32⟩, by rw [hbytes, Option.bind_some, Digest.ofBytes, dif_pos h32]⟩

theorem decodeToSlice_lowerAscii (key : Text) :
    decodeToSlice (lowerAscii key) = decodeToSlice key := by
  rw [decodeToSlice, decodeBytes_lowerAscii, decodeToSlice]

inductive DbError where
  | config (message : Text)
  | connection (message : Text)
  deriving DecidableEq

structure AppConfig where
  apiKeys : Text
  rateLimitRps : Nat

structure DatabaseConfig where
  dbPoolMax : Nat

/-- The trimmed entries between the commas, without the empty ones. -/
def entries (apiKeys : Text) : List Text :=
  ((apiKeys.splitOn ',').map trim).filter fun s => !s.isEmpty

def AppConfig.apiKeysSet (app : AppConfig) : Finset Text := (entries app.apiKeys).toFinset

/-- A hash set is visited in an order of its own, each key once. -/
structure Iteration (set : Finset Text) where
  keys : List Text
  nodup : keys.Nodup
  mem_iff : ∀ key, key ∈ keys ↔ key ∈ set

structure AppState (Db : Type) where
  db : Db
  apiKeys : List Digest
  isHealthy : Bool

def poolConnectionsPerRps : Nat := 10

/-- Rates beyond 32 bits count as the largest one. -/
def requiredPoolSize (rateLimitRps : Nat) : Nat :=
  max (min rateLimitRps (2 ^ 32 - 1) / poolConnectionsPerRps) 1

def poolTooSmall (app : AppConfig) (db : DatabaseConfig) : Text :=
  "Boot-time assertion failed: DB_POOL_MAX (".toList ++ (toString db.dbPoolMax).toList ++
    ") is dangerously low compared to RATE_LIMIT_RPS (".toList ++
    (toString app.rateLimitRps).toList ++ "). Must be >= ".toList ++
    (toString (requiredPoolSize app.rateLimitRps)).toList ++
    " to prevent thread starvation.".toList

def noKeys : Text :=
  ("API_KEYS must contain at least one key. " ++
    "Run scripts/generate-api-key.sh to generate one.").toList

def malformedKey (key : Text) : Text :=
  "API_KEYS contains malformed hex string (prefix '".toList ++ key.take 8 ++
    "...'). Must be 64 hex characters.".toList

def decodeKey (key : Text) : Except DbError Digest :=
  match decodeToSlice key with
  | some digest => .ok digest
  | none => .error (.config (malformedKey key))

/-- The key-loading stage, which ends at the first key that does not decode. -/
def loadApiKeys {set : Finset Text} (it : Iteration set) : Except DbError (List Digest) :=
  if it.keys.isEmpty then .error (.config noKeys) else it.keys.mapM decodeKey

/-- `AppState::init`, with the outcome of connecting to the database. -/
def AppState.init {Db : Type} (app : AppConfig) (db : DatabaseConfig)
    (it : Iteration app.apiKeysSet) (connect : Except DbError Db) : Except DbError (AppState Db) :=
  if db.dbPoolMax < requiredPoolSize app.rateLimitRps then
    .error (.config (poolTooSmall app db))
  else
    match loadApiKeys it with
    | .error e => .error e
    | .ok apiKeys =>
      match connect with
      | .error e => .error e
      | .ok pool => .ok ⟨pool, apiKeys, true⟩

section Middleware

variable (sha256 : List UInt8 → Digest)

/-- All keys are compared, whatever the first comparisons give. -/
def isApiKeyValid (providedKey : Text) (validKeys : List Digest) : Bool :=
  if providedKey.isEmpty then false
  else validKeys.foldl (fun isValid key => isValid || key == sha256 (asciiBytes providedKey)) false

inductive MiddlewareResponse where
  | next (headers : HeaderMap)
  | unauthorized (body : ApiErrorResponse)

def apiKeyMiddleware {Db : Type} (state : AppState Db) (headers : HeaderMap) :
    MiddlewareResponse :=
  let providedKey := ((headers.get "x-api-key").bind HeaderValue.toStr).getD []
  if isApiKeyValid sha256 providedKey state.apiKeys then .next headers
  else .unauthorized (.withCode "UNAUTHORIZED" "Unauthorized".toList)

theorem foldl_or {α : Type*} (p : α → Bool) (xs : List α) (b : Bool) :
    xs.foldl (fun isValid x => isValid || p x) b = (b || xs.any p) := by
  induction xs generalizing b with
  | nil => simp
  | cons x xs ih => rw [List.foldl_cons, ih, List.any_cons, Bool.or_assoc]

theorem isApiKeyValid_iff (key : Text) (validKeys : List Digest) :
    isApiKeyValid sha256 key validKeys = true ↔ key ≠ [] ∧ sha256 (asciiBytes key) ∈ validKeys := by
  rw [isApiKeyValid, foldl_or, Bool.false_or]
  cases key with
  | nil => simp
  | cons c key => simp

theorem asciiBytes_text (bytes : List UInt8) :
    asciiBytes (bytes.map fun b => Char.ofNat b.toNat) = bytes := by
  rw [asciiBytes, List.map_map]
  refine (List.map_congr_left fun b _ => ?_).trans (List.map_id bytes)
  have hvalid : Nat.isValidChar b.toNat := Or.inl (lt_trans b.toNat_lt (by decide))
  have hcode : (Char.ofNat b.toNat).toNat = b.toNat := by
    rw [Char.ofNat, dif_pos hvalid]
    rfl
  show UInt8.ofNat (Char.ofNat b.toNat).toNat = b
  rw [hcode, UInt8.ofNat_toNat]

theorem apiKeyMiddleware_next {Db : Type} {state : AppState Db} {headers : HeaderMap}
    {value : HeaderValue} (h : headers.get "x-api-key" = some value) :
    apiKeyMiddleware sha256 state headers = .next headers ↔
      value.bytes ≠ [] ∧ value.bytes.all isVisibleAscii = true ∧
        sha256 value.bytes ∈ state.apiKeys := by
  rw [apiKeyMiddleware, h, Option.bind_some, HeaderValue.toStr]
  by_cases hvisible : value.bytes.all isVisibleAscii = true
  · rw [if_pos hvisible, Option.getD_some]
    have hvalid := isApiKeyValid_iff sha256 (value.bytes.map fun b => Char.ofNat b.toNat)
      state.apiKeys
    rw [asciiBytes_text, ne_eq, List.map_eq_nil_iff] at hvalid
    split
    · next hkey => simp [hvisible, hvalid.mp hkey]
    · next hkey =>
      rw [hvalid] at hkey
      simpa [hvisible] using hkey
  · rw [if_neg hvisible, Option.getD_none]
    simp [isApiKeyValid, hvisible]

theorem apiKeyMiddleware_absent {Db : Type} {state : AppState Db} {headers : HeaderMap}
    (h : headers.get "x-api-key" = none) : apiKeyMiddleware sha256 state headers =
      .unauthorized (.withCode "UNAUTHORIZED" "Unauthorized".toList) := by
  rw [apiKeyMiddleware, h]
  rfl

theorem apiKeyMiddleware_unauthorized {Db : Type} {state : AppState Db} {headers : HeaderMap}
    (h : apiKeyMiddleware sha256 state headers ≠ .next headers) :
    apiKeyMiddleware sha256 state headers =
      .unauthorized (.withCode "UNAUTHORIZED" "Unauthorized".toList) := by
  rw [apiKeyMiddleware] at h ⊢
  split at h
  · exact absurd rfl h
  · next hkey => rw [if_neg hkey]

end Middleware

section Loading

variable {app : AppConfig} {db : DatabaseConfig} {set : Finset Text} {it : Iteration set}

theorem decodeKey_ok {key : Text} {digest : Digest} :
    decodeKey key = .ok digest ↔ decodeToSlice key = some digest := by
  rw [decodeKey]
  cases decodeToSlice key with
  | none => simp
  | some d => simp

theorem loadApiKeys_mem {digests : List Digest} (h : loadApiKeys it = .ok digests)
    {digest : Digest} : digest ∈ digests ↔ ∃ key ∈ set, decodeToSlice key = some digest := by
  rw [loadApiKeys] at h
  split at h
  · cases h
  · have hdecoded := mapM_eq_ok.mp h
    constructor
    · intro hmem
      obtain ⟨key, hkey, hdigest⟩ := forall₂_right hdecoded hmem
      exact ⟨key, (it.mem_iff key).mp hkey, decodeKey_ok.mp hdigest⟩
    · rintro ⟨key, hkey, hdigest⟩
      obtain ⟨d, hd, hkd⟩ := forall₂_left hdecoded ((it.mem_iff key).mpr hkey)
      rw [decodeKey_ok.mp hkd, Option.some.injEq] at hdigest
      rwa [← hdigest]

theorem loadApiKeys_ok : (∃ digests, loadApiKeys it = .ok digests) ↔
    set ≠ ∅ ∧ ∀ key ∈ set, IsHexKey key := by
  have hempty : it.keys.isEmpty = true ↔ set = ∅ := by
    rw [List.isEmpty_iff, List.eq_nil_iff_forall_not_mem, Finset.eq_empty_iff_forall_notMem]
    exact forall_congr' fun key => not_congr (it.mem_iff key)
  rw [loadApiKeys]
  split
  · next hnil => simp [hempty.mp hnil]
  · next hne =>
    have hdecodes : ∀ key, (∃ d, decodeKey key = .ok d) ↔ IsHexKey key := by
      intro key
      simp only [decodeKey_ok]
      exact decodeToSlice_isSome
    rw [mapM_succeeds]
    simp only [hdecodes, it.mem_iff]
    rw [hempty] at hne
    exact (and_iff_right hne).symm

end Loading

def trimmedEntries (apiKeys : Text) : List Text := (apiKeys.splitOn ',').map trim

def FailsBeforeConnecting (Db : Type) (app : AppConfig) (db : DatabaseConfig)
    (it : Iteration app.apiKeysSet) : Prop :=
  ∃ e, ∀ connect : Except DbError Db, AppState.init app db it connect = .error e

def Malformed (apiKeys : Text) : Prop :=
  (∀ entry ∈ trimmedEntries apiKeys, entry = []) ∨
    ∃ entry ∈ trimmedEntries apiKeys, entry ≠ [] ∧ ¬ IsHexKey entry

/-- A non-empty visible-ASCII value whose digest is the decoding of an entry. -/
def Authenticates (sha256 : List UInt8 → Digest) (apiKeys : Text) (value : HeaderValue) : Prop :=
  value.bytes ≠ [] ∧ value.bytes.all isVisibleAscii = true ∧
    ∃ entry ∈ trimmedEntries apiKeys, decodeToSlice entry = some (sha256 value.bytes)

/-- The same keys up to order, repetition, surrounding blanks and the case of the digits. -/
def SameKeys (apiKeys apiKeys' : Text) : Prop :=
  ∀ key ≠ [], key ∈ (trimmedEntries apiKeys).map lowerAscii ↔
    key ∈ (trimmedEntries apiKeys').map lowerAscii

section Startup

variable {Db : Type} {app : AppConfig} {db : DatabaseConfig} {it : Iteration app.apiKeysSet}

theorem mem_apiKeysSet {key : Text} :
    key ∈ app.apiKeysSet ↔ key ∈ trimmedEntries app.apiKeys ∧ key ≠ [] := by
  rw [AppConfig.apiKeysSet, List.mem_toFinset, entries, List.mem_filter, trimmedEntries]
  cases key with
  | nil => simp
  | cons c key => simp

theorem not_malformed : ¬ Malformed app.apiKeys ↔
    app.apiKeysSet ≠ ∅ ∧ ∀ key ∈ app.apiKeysSet, IsHexKey key := by
  rw [Malformed, not_or, ← Finset.nonempty_iff_ne_empty, Finset.Nonempty]
  simp only [mem_apiKeysSet, and_imp]
  push Not
  exact Iff.rfl

theorem failsBeforeConnecting_iff (hpool : requiredPoolSize app.rateLimitRps ≤ db.dbPoolMax) :
    FailsBeforeConnecting Db app db it ↔ Malformed app.apiKeys := by
  have hload : (∃ digests, loadApiKeys it = .ok digests) ↔ _ := loadApiKeys_ok
  rw [← not_iff_not, not_malformed, ← hload, FailsBeforeConnecting]
  simp only [AppState.init, if_neg (not_lt.mpr hpool)]
  cases loadApiKeys it with
  | error e => simpa using ⟨e, fun _ => rfl⟩
  | ok digests =>
    simp only [Except.ok.injEq, exists_eq', iff_true]
    rintro ⟨e, h⟩
    have hfirst := h (.error (.connection []))
    have hsecond := h (.error (.config []))
    simp only [Except.error.injEq] at hfirst hsecond
    rw [← hfirst] at hsecond
    cases hsecond

theorem init_ok {connect : Except DbError Db} {state : AppState Db}
    (h : AppState.init app db it connect = .ok state) : loadApiKeys it = .ok state.apiKeys := by
  rw [AppState.init] at h
  split at h
  · cases h
  · split at h
    · cases h
    · next apiKeys hload =>
      split at h
      · cases h
      · cases h
        exact hload

theorem authenticates_iff (sha256 : List UInt8 → Digest) {connect : Except DbError Db}
    {state : AppState Db} (h : AppState.init app db it connect = .ok state) {headers : HeaderMap}
    {value : HeaderValue} (hget : headers.get "x-api-key" = some value) :
    apiKeyMiddleware sha256 state headers = .next headers ↔
      Authenticates sha256 app.apiKeys value := by
  rw [apiKeyMiddleware_next sha256 hget, loadApiKeys_mem (init_ok h), Authenticates]
  simp only [mem_apiKeysSet]
  have hempty : ∀ digest, decodeToSlice [] ≠ some digest := by
    intro digest hdigest
    have hlength := (decodeToSlice_isSome.mp ⟨digest, hdigest⟩).1
    cases hlength
  refine and_congr_right fun _ => and_congr_right fun _ => exists_congr fun key => ?_
  constructor
  · rintro ⟨⟨hkey, -⟩, hdigest⟩
    exact ⟨hkey, hdigest⟩
  · rintro ⟨hkey, hdigest⟩
    refine ⟨⟨hkey, ?_⟩, hdigest⟩
    rintro rfl
    exact hempty _ hdigest

end Startup

section SameKeys

variable {apiKeys apiKeys' : Text}

theorem SameKeys.symm (h : SameKeys apiKeys apiKeys') : SameKeys apiKeys' apiKeys :=
  fun key hkey => (h key hkey).symm

theorem SameKeys.counterpart (h : SameKeys apiKeys apiKeys') {entry : Text}
    (hmem : entry ∈ trimmedEntries apiKeys) (hne : entry ≠ []) :
    ∃ entry' ∈ trimmedEntries apiKeys', entry' ≠ [] ∧ lowerAscii entry' = lowerAscii entry := by
  have hlower : lowerAscii entry ≠ [] := by
    intro hnil
    exact hne (List.map_eq_nil_iff.mp hnil)
  obtain ⟨entry', hmem', heq⟩ :=
    List.mem_map.mp ((h _ hlower).mp (List.mem_map_of_mem hmem))
  refine ⟨entry', hmem', ?_, heq⟩
  rintro rfl
  exact hlower heq.symm

theorem decodeToSlice_congr {entry entry' : Text} (h : lowerAscii entry' = lowerAscii entry) :
    decodeToSlice entry' = decodeToSlice entry := by
  rw [← decodeToSlice_lowerAscii, h, decodeToSlice_lowerAscii]

theorem isHexKey_congr {entry entry' : Text} (h : lowerAscii entry' = lowerAscii entry) :
    IsHexKey entry' ↔ IsHexKey entry := by
  rw [← decodeToSlice_isSome, ← decodeToSlice_isSome, decodeToSlice_congr h]

theorem SameKeys.malformed (h : SameKeys apiKeys apiKeys') (hbad : Malformed apiKeys) :
    Malformed apiKeys' := by
  rcases hbad with hempty | ⟨entry, hmem, hne, hhex⟩
  · left
    intro entry' hmem'
    by_contra hne'
    obtain ⟨entry, hmem, hne, -⟩ := h.symm.counterpart hmem' hne'
    exact hne (hempty entry hmem)
  · obtain ⟨entry', hmem', hne', hlower⟩ := h.counterpart hmem hne
    exact Or.inr ⟨entry', hmem', hne', fun hhex' => hhex ((isHexKey_congr hlower).mp hhex')⟩

theorem SameKeys.authenticates (h : SameKeys apiKeys apiKeys') {sha256 : List UInt8 → Digest}
    {value : HeaderValue} (hvalue : Authenticates sha256 apiKeys value) :
    Authenticates sha256 apiKeys' value := by
  rcases hvalue with ⟨hne, hvisible, entry, hmem, hdigest⟩
  have hentry : entry ≠ [] := by
    rintro rfl
    have hlength := (decodeToSlice_isSome.mp ⟨_, hdigest⟩).1
    cases hlength
  obtain ⟨entry', hmem', -, hlower⟩ := h.counterpart hmem hentry
  exact ⟨hne, hvisible, entry', hmem', (decodeToSlice_congr hlower).trans hdigest⟩

end SameKeys

theorem middleware_congr {Db : Type} {app app' : AppConfig} {db db' : DatabaseConfig}
    {it : Iteration app.apiKeysSet} {it' : Iteration app'.apiKeysSet}
    (sha256 : List UInt8 → Digest) (hsame : SameKeys app.apiKeys app'.apiKeys)
    {connect connect' : Except DbError Db} {state state' : AppState Db}
    (h : AppState.init app db it connect = .ok state)
    (h' : AppState.init app' db' it' connect' = .ok state') (headers : HeaderMap) :
    apiKeyMiddleware sha256 state headers = apiKeyMiddleware sha256 state' headers := by
  cases hget : headers.get "x-api-key" with
  | none => rw [apiKeyMiddleware_absent sha256 hget, apiKeyMiddleware_absent sha256 hget]
  | some value =>
    have hiff := (authenticates_iff sha256 h hget).trans
      (Iff.trans ⟨hsame.authenticates, hsame.symm.authenticates⟩
        (authenticates_iff sha256 h' hget).symm)
    by_cases hnext : apiKeyMiddleware sha256 state headers = .next headers
    · rw [hnext, hiff.mp hnext]
    · rw [apiKeyMiddleware_unauthorized sha256 hnext,
        apiKeyMiddleware_unauthorized sha256 (mt hiff.mpr hnext)]

/-- Startup refuses exactly the malformed lists of keys, a value is authenticated exactly when
it is a configured key, and another spelling of the same keys changes neither. -/
theorem authentication_exact {Db : Type} (sha256 : List UInt8 → Digest) (app : AppConfig)
    (db : DatabaseConfig) (hpool : requiredPoolSize app.rateLimitRps ≤ db.dbPoolMax)
    (it : Iteration app.apiKeysSet) :
    (FailsBeforeConnecting Db app db it ↔ Malformed app.apiKeys) ∧
    (∀ (connect : Except DbError Db) state, AppState.init app db it connect = .ok state →
      ∀ headers value, HeaderMap.get headers "x-api-key" = some value →
        (apiKeyMiddleware sha256 state headers = .next headers ↔
          Authenticates sha256 app.apiKeys value)) ∧
    ∀ app' db' (it' : Iteration app'.apiKeysSet),
      requiredPoolSize app'.rateLimitRps ≤ db'.dbPoolMax → SameKeys app.apiKeys app'.apiKeys →
        (FailsBeforeConnecting Db app db it ↔ FailsBeforeConnecting Db app' db' it') ∧
        ∀ (connect connect' : Except DbError Db) state state',
          AppState.init app db it connect = .ok state →
          AppState.init app' db' it' connect' = .ok state' →
          ∀ headers, apiKeyMiddleware sha256 state headers =
            apiKeyMiddleware sha256 state' headers := by
  refine ⟨failsBeforeConnecting_iff hpool, ?_, ?_⟩
  · intro connect state hinit headers value hget
    exact authenticates_iff sha256 hinit hget
  · intro app' db' it' hpool' hsame
    constructor
    · rw [failsBeforeConnecting_iff hpool, failsBeforeConnecting_iff hpool']
      exact ⟨hsame.malformed, hsame.symm.malformed⟩
    · intro connect connect' state state' hinit hinit' headers
      exact middleware_congr sha256 hsame hinit hinit' headers

/-- A set can be visited in the order of its entries. -/
def AppConfig.iteration (app : AppConfig) : Iteration app.apiKeysSet where
  keys := (entries app.apiKeys).dedup
  nodup := List.nodup_dedup _
  mem_iff key := by rw [List.mem_dedup, AppConfig.apiKeysSet, List.mem_toFinset]

def sampleKey : Text := List.replicate 64 'A'

/-- An upper-case key behind a blank, and an empty entry. -/
def sampleApp : AppConfig := ⟨' ' :: sampleKey ++ [','], 10⟩

def sampleDigest : Digest := ⟨List.replicate 32 0xAA, by decide⟩

def sampleValue : HeaderValue := ⟨asciiBytes "test_key".toList, by decide⟩

theorem sample_key_authenticated :
    ¬ FailsBeforeConnecting Unit sampleApp ⟨2⟩ sampleApp.iteration ∧
      ∃ state, AppState.init sampleApp ⟨2⟩ sampleApp.iteration (.ok ()) = .ok state ∧
        apiKeyMiddleware (fun _ => sampleDigest) state [("x-api-key", sampleValue)] =
          .next [("x-api-key", sampleValue)] := by
  have hexact := @authentication_exact Unit (fun _ => sampleDigest) sampleApp ⟨2⟩ (by decide)
    sampleApp.iteration
  have hentries : trimmedEntries sampleApp.apiKeys = [sampleKey, []] := by
    decide +kernel
  have hdigest : decodeToSlice (sampleKey) = some sampleDigest := by decide +kernel
  constructor
  · rw [hexact.1, Malformed, hentries]
    have hkey := decodeToSlice_isSome.mp ⟨_, hdigest⟩
    intro h
    rcases h with hempty | ⟨entry, hmem, hne, hhex⟩
    · cases hempty _ List.mem_cons_self
    · rcases List.mem_pair.mp hmem with rfl | rfl
      · exact hhex hkey
      · exact hne rfl
  · have hinit : AppState.init sampleApp ⟨2⟩ sampleApp.iteration (.ok ()) =
        .ok ⟨(), [sampleDigest], true⟩ := by
      have hkeys : sampleApp.iteration.keys = [sampleKey] := by decide +kernel
      have hload : [sampleKey].mapM decodeKey = .ok [sampleDigest] :=
        mapM_eq_ok.mpr (.cons (decodeKey_ok.mpr hdigest) .nil)
      rw [AppState.init, if_neg (by decide), loadApiKeys, hkeys, if_neg (by decide), hload]
    refine ⟨_, hinit, ?_⟩
    rw [hexact.2.1 _ _ hinit _ _ rfl]
    refine ⟨by decide, by decide, sampleKey, ?_, hdigest⟩
    rw [hentries]
    exact List.mem_cons_self

end ApiKeys
