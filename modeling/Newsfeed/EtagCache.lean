import Newsfeed.CudHandlers
import Newsfeed.SeparatedLists

/-! # Reading with a cache validator

A `GET` is answered with an entity tag: a hash of the newest modification date and the
parameters, or of the body when there is no such date. A client that sends the tag back
is told that nothing changed. The hash is a parameter, since it comes from a crate.
-/
namespace EtagCache

open TextOperations JsonText FeedModels HttpHeaders CudHandlers SeparatedLists

def hexDigits : Nat → Nat → Text
  | 0, _ => []
  | n + 1, h => hexDigits n (h / 16) ++ [hexDigit (h % 16)]

/-- `format!("\"\x7bhash:016x\x7d\"")`. -/
def formatEtag (hash : UInt64) : Text := '\"' :: (hexDigits 16 hash.toNat ++ ['\"'])

theorem hexDigit_injective {m n : Nat} (hm : m < 16) (hn : n < 16) (h : hexDigit m = hexDigit n) :
    m = n := by
  have hm' := hexValue_hexDigit ⟨m, hm⟩
  have hn' := hexValue_hexDigit ⟨n, hn⟩
  simp only at hm' hn'
  rw [h, hn', Option.some.injEq] at hm'
  exact hm'.symm

theorem hexDigits_injective {n : Nat} {g h : Nat} (hg : g < 16 ^ n) (hh : h < 16 ^ n)
    (heq : hexDigits n g = hexDigits n h) : g = h := by
  induction n generalizing g h with
  | zero => omega
  | succ n ih =>
    rw [hexDigits, hexDigits] at heq
    obtain ⟨hinit, hlast⟩ := List.append_inj' heq rfl
    have hmod := hexDigit_injective (Nat.mod_lt g (by omega)) (Nat.mod_lt h (by omega))
      (List.cons.inj hlast).1
    rw [Nat.pow_succ] at hg hh
    have hdiv := ih (Nat.div_lt_of_lt_mul (by omega)) (Nat.div_lt_of_lt_mul (by omega)) hinit
    omega

theorem formatEtag_injective {g h : UInt64} (heq : formatEtag g = formatEtag h) : g = h := by
  have hdigits := (List.append_inj' (List.cons.inj heq).2 rfl).1
  exact UInt64.toNat_inj.mp (hexDigits_injective g.toNat_lt h.toNat_lt hdigits)

theorem hexDigits_ascii (n h : Nat) : ∀ c ∈ hexDigits n h, c.toNat < 256 := by
  have hdigit : ∀ d : Fin 16, (hexDigit d.val).toNat < 256 := by decide
  induction n generalizing h with
  | zero => simp [hexDigits]
  | succ n ih =>
    intro c hc
    rw [hexDigits, List.mem_append, List.mem_singleton] at hc
    rcases hc with hc | rfl
    · exact ih _ c hc
    · exact hdigit ⟨h % 16, Nat.mod_lt h (by omega)⟩

theorem formatEtag_ascii (hash : UInt64) : ∀ c ∈ formatEtag hash, c.toNat < 256 := by
  intro c hc
  rw [formatEtag, List.mem_cons, List.mem_append, List.mem_singleton] at hc
  rcases hc with rfl | hc | rfl
  · decide
  · exact hexDigits_ascii _ _ c hc
  · decide

theorem asciiBytes_injective {t u : Text} (ht : ∀ c ∈ t, c.toNat < 256)
    (hu : ∀ c ∈ u, c.toNat < 256) (h : asciiBytes t = asciiBytes u) : t = u := by
  induction t generalizing u with
  | nil => cases u with
    | nil => rfl
    | cons d u => cases h
  | cons c t ih =>
    cases u with
    | nil => cases h
    | cons d u =>
      obtain ⟨hcd, htail⟩ := List.cons.inj h
      have hc := ht c List.mem_cons_self
      have hd := hu d List.mem_cons_self
      have hcode := congrArg UInt8.toNat hcd
      rw [UInt8.toNat_ofNat_of_lt' hc, UInt8.toNat_ofNat_of_lt' hd] at hcode
      rw [Char.toNat_inj.mp hcode, ih (fun c hc => ht c (List.mem_cons_of_mem _ hc))
        (fun d hd => hu d (List.mem_cons_of_mem _ hd)) htail]

abbrev GetBody := ApiResponse NewsFeedRow NewsFeedRow

def processed (rows : List NewsFeedRow) : GetBody := .success "Processed request" rows

def bodyText (rows : List NewsFeedRow) : Text :=
  render compact ((processed rows).toJson NewsFeedRow.toJson NewsFeedRow.toJson)

theorem bodyText_injective {rows rows' : List NewsFeedRow} (h : bodyText rows = bodyText rows') :
    rows = rows' := by
  have hjson := render_injective compact h
  simp only [ApiResponse.toJson, processed, ApiResponse.success, List.isEmpty_nil, ↓reduceIte,
    List.append_nil, Json.obj.injEq, List.cons.injEq, Prod.mk.injEq, true_and, and_true,
    Json.arr.injEq] at hjson
  exact List.map_injective_iff.mpr (fun _ _ => NewsFeedRow.toJson_injective) hjson.2

theorem bodyText_head (rows : List NewsFeedRow) : (bodyText rows).head? = some '\x7b' := rfl

/-- The two queries of a `GET`, answered by one state of the table. -/
structure Store where
  maxModifiedDate : Except DbError (Option Text)
  extractFeed : ExtractParams → Except DbError (List NewsFeedRow)

inductive GetResponse where
  | failure (statusCode : Nat) (body : ApiErrorResponse)
  | notModified (etag : Text)
  | ok (etag : Text) (body : GetBody)
  deriving DecidableEq, Repr

/-- `If-None-Match` is compared byte by byte. -/
def ifNoneMatch (headers : HeaderMap) (etag : Text) : Bool :=
  match headers.get "if-none-match" with
  | none => false
  | some value => value.bytes == asciiBytes etag

def etagInput (maxDate : Text) (params : ExtractParams) : Text :=
  maxDate ++ '_' :: render compact params.toJson

theorem limit_injective {a b : Option Nat}
    (h : (match a with
        | none => Json.null
        | some n => .num (.ofNat n)) =
      match b with
        | none => Json.null
        | some n => .num (.ofNat n)) : a = b := by
  cases a with
  | none =>
    cases b with
    | none => rfl
    | some n => cases h
  | some m =>
    cases b with
    | none => cases h
    | some n =>
      have htext := congrArg NumberLiteral.text (Json.num.inj h)
      exact congrArg some (toDigits_injective htext)

theorem sort_injective {a b : Option SortOrder}
    (h : a.map SortOrder.asStr = b.map SortOrder.asStr) : a = b := by
  revert h
  rcases a with _ | a
  · rcases b with _ | b
    · simp
    · simp
  · rcases b with _ | b
    · simp
    · cases a <;> cases b <;> decide

/-- An absent filter is `null` and a present one a string, so nothing is confused. -/
theorem toJson_injective {p q : ExtractParams} (h : p.toJson = q.toJson) : p = q := by
  simp only [ExtractParams.toJson, Json.obj.injEq, List.cons.injEq, Prod.mk.injEq, true_and,
    and_true] at h
  obtain ⟨htitle, himage, hfeed, hactual, hlimit, hsort⟩ := h
  cases p
  cases q
  simp only [ExtractParams.mk.injEq]
  exact ⟨optionText_injective htitle, optionText_injective himage, optionText_injective hfeed,
    optionText_injective hactual, limit_injective hlimit,
    sort_injective (optionText_injective hsort)⟩

/-- The date ends at the first underscore and the rest is JSON: two queries never share
the text that is hashed. -/
theorem etagInput_injective (d₁ d₂ : Text) (p₁ p₂ : ExtractParams) (h₁ : '_' ∉ d₁)
    (h₂ : '_' ∉ d₂) (h : etagInput d₁ p₁ = etagInput d₂ p₂) : d₁ = d₂ ∧ p₁ = p₂ := by
  obtain ⟨hdate, hjson⟩ := split_unique h₁ h₂ h
  exact ⟨hdate, toJson_injective (render_injective compact hjson)⟩

theorem etagInput_injective_quoted :
    let date := "2026-08-01T12:00:00Z".toList
    let params : ExtractParams := ⟨some "a\"_\\".toList, none, none, none, some 25, some .asc⟩
    date = date ∧ params = params := by
  intro date params
  exact etagInput_injective date date params params (by decide) (by decide) rfl

section Handler

variable (xxh64 : Text → UInt64)

def etagOf (t : Text) : Text := formatEtag (xxh64 t)

def dbEtag (params : ExtractParams) (store : Store) : Option Text :=
  match store.maxModifiedDate with
  | .ok (some maxDate) => some (etagOf xxh64 (etagInput maxDate params))
  | .ok none => none
  | .error _ => none

/-- `handler` of `GET /api/v1/newsfeed`. -/
def handler (headers : HeaderMap) (rawParams : Text → Option Text) (store : Store) : GetResponse :=
  match validateHeaders headers false with
  | .error e => .failure 400 (.withCode "INVALID_HEADER" e.toText)
  | .ok () =>
    let params := ExtractParams.fromMap rawParams
    let dbTag := dbEtag xxh64 params store
    match dbTag.filter (ifNoneMatch headers) with
    | some etag => .notModified etag
    | none =>
      match store.extractFeed params with
      | .error _ => .failure 500 (.withCode "DB_ERROR" "Internal Server Error".toList)
      | .ok rows =>
        let etag := dbTag.getD (etagOf xxh64 (bodyText rows))
        if ifNoneMatch headers etag then .notModified etag else .ok etag (processed rows)

end Handler

def hashedText (params : ExtractParams) (store : Store) : Option Text :=
  match store.maxModifiedDate with
  | .ok (some maxDate) => some (etagInput maxDate params)
  | .ok none => (store.extractFeed params).toOption.map bodyText
  | .error _ => (store.extractFeed params).toOption.map bodyText

variable {xxh64 : Text → UInt64} {headers : HeaderMap} {rawParams : Text → Option Text}
  {store : Store}

theorem hashedText_cases (params : ExtractParams) (store : Store) :
    (∃ maxDate, store.maxModifiedDate = .ok (some maxDate) ∧
        hashedText params store = some (etagInput maxDate params)) ∨
      (∀ maxDate, store.maxModifiedDate ≠ .ok (some maxDate)) ∧
        hashedText params store = (store.extractFeed params).toOption.map bodyText := by
  unfold hashedText
  cases store.maxModifiedDate with
  | error e => exact Or.inr ⟨by simp, rfl⟩
  | ok o =>
    cases o with
    | none => exact Or.inr ⟨by simp, rfl⟩
    | some d => exact Or.inl ⟨d, rfl, rfl⟩

theorem handler_ok {etag : Text} {body : GetBody}
    (h : handler xxh64 headers rawParams store = .ok etag body) :
    ∃ rows t, store.extractFeed (.fromMap rawParams) = .ok rows ∧ body = processed rows ∧
      hashedText (.fromMap rawParams) store = some t ∧ etag = etagOf xxh64 t := by
  unfold handler at h
  split at h
  · cases h
  simp only at h
  split at h
  · cases h
  split at h
  · cases h
  next rows hrows =>
  split at h
  · cases h
  cases h
  refine ⟨rows, ?_⟩
  unfold dbEtag hashedText
  rw [hrows]
  cases store.maxModifiedDate with
  | error e => exact ⟨_, rfl, rfl, rfl, rfl⟩
  | ok o => cases o <;> exact ⟨_, rfl, rfl, rfl, rfl⟩

theorem handler_notModified (hvalid : validateHeaders headers false = .ok ()) :
    (∃ etag, handler xxh64 headers rawParams store = .notModified etag) ↔
      ∃ t, hashedText (.fromMap rawParams) store = some t ∧
        ifNoneMatch headers (etagOf xxh64 t) = true := by
  unfold handler dbEtag hashedText
  rw [hvalid]
  simp only
  have hbody : (∃ etag, (match store.extractFeed (.fromMap rawParams) with
        | .error _ => GetResponse.failure 500 (.withCode "DB_ERROR" "Internal Server Error".toList)
        | .ok rows =>
          if ifNoneMatch headers (etagOf xxh64 (bodyText rows)) = true then
            .notModified (etagOf xxh64 (bodyText rows))
          else .ok (etagOf xxh64 (bodyText rows)) (processed rows)) = .notModified etag) ↔
      ∃ t, (store.extractFeed (.fromMap rawParams)).toOption.map bodyText = some t ∧
        ifNoneMatch headers (etagOf xxh64 t) = true := by
    cases store.extractFeed (.fromMap rawParams) with
    | error e => simp [Except.toOption]
    | ok rows => by_cases hm : ifNoneMatch headers (etagOf xxh64 (bodyText rows)) <;>
        simp [Except.toOption, hm]
  cases store.maxModifiedDate with
  | error e => exact hbody
  | ok o =>
    cases o with
    | none => exact hbody
    | some d =>
      simp only [Option.filter_some, Option.some.injEq, exists_eq_left', Option.getD_some]
      by_cases hm : ifNoneMatch headers (etagOf xxh64 (etagInput d (.fromMap rawParams))) = true
      · simp only [hm, ↓reduceIte, iff_true]
        exact ⟨_, rfl⟩
      · rw [if_neg hm]
        cases store.extractFeed (.fromMap rawParams) <;> simp [hm]

end EtagCache
