import Newsfeed.PostgresEtag

/-! # Revalidation while the date query comes and goes

A request takes its tag from the newest date when it gets one, and from the body otherwise.
The table is the same in both requests; whether the date query succeeds need not be.
-/
namespace EtagAvailability

open TextOperations FeedModels HttpHeaders CudHandlers EtagCache
open PostgresEtag

inductive DateQuery where
  | succeeds
  | fails (e : DbError)
  deriving DecidableEq, Repr

/-- What the two queries find in a table, on any engine. -/
structure Contents where
  newestDate : Option Text
  extractFeed : ExtractParams → Except DbError (List NewsFeedRow)

def Contents.seen (c : Contents) (q : DateQuery) : Store where
  maxModifiedDate :=
    match q with
    | .succeeds => .ok c.newestDate
    | .fails e => .error e
  extractFeed := c.extractFeed

def TagFromDate (c : Contents) (q : DateQuery) : Prop := q = .succeeds ∧ c.newestDate.isSome = true

/-- Both tags are taken from the date, or both from the body. -/
def SameSource (c : Contents) (q q' : DateQuery) : Prop := TagFromDate c q ↔ TagFromDate c q'

def Collides (xxh64 : Text → UInt64) (c : Contents) (params : ExtractParams) : Prop :=
  ∃ date ∈ c.newestDate, ∃ rows, c.extractFeed params = .ok rows ∧
    xxh64 (etagInput date params) = xxh64 (bodyText rows)

variable {xxh64 : Text → UInt64} {c : Contents} {q q' : DateQuery} {params : ExtractParams}
  {rows : List NewsFeedRow}

theorem hashedText_fromDate {date : Text} (hdate : c.newestDate = some date)
    (h : TagFromDate c q) : hashedText params (c.seen q) = some (etagInput date params) := by
  rcases h with ⟨rfl, _⟩
  simp only [hashedText, Contents.seen, hdate]

theorem hashedText_fromBody (hrows : c.extractFeed params = .ok rows) (h : ¬ TagFromDate c q) :
    hashedText params (c.seen q) = some (bodyText rows) := by
  cases q with
  | fails e => simp [hashedText, Contents.seen, hrows, Except.toOption]
  | succeeds =>
    have hnone : c.newestDate = none := by
      by_contra hsome
      exact h ⟨rfl, Option.isSome_iff_ne_none.mpr hsome⟩
    simp [hashedText, Contents.seen, hnone, hrows, Except.toOption]

/-- The texts hashed by two requests have one hash exactly when they come from one source,
but for a collision. -/
theorem same_hash_iff (hrows : c.extractFeed params = .ok rows) {t t' : Text}
    (ht : hashedText params (c.seen q) = some t) (ht' : hashedText params (c.seen q') = some t') :
    xxh64 t = xxh64 t' ↔ SameSource c q q' ∨ Collides xxh64 c params := by
  have hcollides : ∀ date, c.newestDate = some date →
      (Collides xxh64 c params ↔ xxh64 (etagInput date params) = xxh64 (bodyText rows)) := by
    intro date hdate
    constructor
    · rintro ⟨date', hdate', rows', hrows', heq⟩
      cases hdate.symm.trans hdate'
      cases hrows.symm.trans hrows'
      exact heq
    · intro heq
      exact ⟨date, hdate, rows, hrows, heq⟩
  by_cases hq : TagFromDate c q
  · obtain ⟨date, hdate⟩ := Option.isSome_iff_exists.mp hq.2
    cases (hashedText_fromDate hdate hq).symm.trans ht
    by_cases hq' : TagFromDate c q'
    · cases (hashedText_fromDate hdate hq').symm.trans ht'
      exact iff_of_true rfl (Or.inl (iff_of_true hq hq'))
    · cases (hashedText_fromBody hrows hq').symm.trans ht'
      rw [← hcollides date hdate]
      exact (or_iff_right fun h : SameSource c q q' => hq' (h.mp hq)).symm
  · cases (hashedText_fromBody hrows hq).symm.trans ht
    by_cases hq' : TagFromDate c q'
    · obtain ⟨date, hdate⟩ := Option.isSome_iff_exists.mp hq'.2
      cases (hashedText_fromDate hdate hq').symm.trans ht'
      rw [eq_comm, ← hcollides date hdate]
      exact (or_iff_right fun h : SameSource c q q' => hq (h.mpr hq')).symm
    · cases (hashedText_fromBody hrows hq').symm.trans ht'
      exact iff_of_true rfl (Or.inl (iff_of_false hq hq'))

theorem validHeaders_of_notModified {headers : HeaderMap} {rawParams : Text → Option Text}
    {store : Store} {tag : Text} (h : handler xxh64 headers rawParams store = .notModified tag) :
    validateHeaders headers false = .ok () := by
  cases hv : validateHeaders headers false with
  | ok u => rfl
  | error e =>
    simp only [handler, hv] at h
    cases h

/-- A `GET` with the tag of an earlier answer is told that nothing changed exactly when its
headers are accepted and both tags come from one source, but for a collision. -/
theorem revalidated_iff (xxh64 : Text → UInt64) (c : Contents) (q q' : DateQuery)
    (rawParams : Text → Option Text) (headers headers' : HeaderMap) (etag : Text) (body : GetBody)
    (hfirst : handler xxh64 headers rawParams (c.seen q) = .ok etag body)
    (hsent : ∃ value, headers'.get "if-none-match" = some value ∧ value.bytes = asciiBytes etag) :
    (∃ tag, handler xxh64 headers' rawParams (c.seen q') = .notModified tag) ↔
      validateHeaders headers' false = .ok () ∧
        (SameSource c q q' ∨ Collides xxh64 c (.fromMap rawParams)) := by
  obtain ⟨rows, t, hrows, rfl, ht, rfl⟩ := handler_ok hfirst
  rcases hsent with ⟨value, hvalue, hbytes⟩
  have hrows' : c.extractFeed (.fromMap rawParams) = .ok rows := hrows
  constructor
  · rintro ⟨tag, h⟩
    have hvalid := validHeaders_of_notModified h
    obtain ⟨t', ht', hmatch⟩ := (handler_notModified hvalid).mp ⟨tag, h⟩
    exact ⟨hvalid, (same_hash_iff hrows' ht ht').mp ((ifNoneMatch_iff hvalue hbytes).mp hmatch)⟩
  · rintro ⟨hvalid, hsource⟩
    rw [handler_notModified hvalid]
    obtain ⟨t', ht'⟩ : ∃ t', hashedText (.fromMap rawParams) (c.seen q') = some t' := by
      by_cases hq' : TagFromDate c q'
      · obtain ⟨date, hdate⟩ := Option.isSome_iff_exists.mp hq'.2
        exact ⟨_, hashedText_fromDate hdate hq'⟩
      · exact ⟨_, hashedText_fromBody hrows' hq'⟩
    exact ⟨t', ht', (ifNoneMatch_iff hvalue hbytes).mpr ((same_hash_iff hrows' ht ht').mpr hsource)⟩

open PostgresProcedures in
def postgresContents {sv : Server} (t : Newsfeed sv) : Contents where
  newestDate := maxModifiedDate sv t.rows
  extractFeed := (store t).extractFeed

open PostgresProcedures in
/-- With no failure these are the answers of the engine. -/
theorem seen_postgresContents {sv : Server} (t : Newsfeed sv) :
    (postgresContents t).seen .succeeds = store t := rfl

open PostgresProcedures PostgresExtract in
/-- The seedless hash, on the three texts that are hashed below. -/
def bodyXxh64 (t : Text) : UInt64 :=
  if t = bodyText (sampleTable.rows.map (selectRow sampleServer)) then 0x3d8fa1f00756d9c0
  else sampleXxh64 t

def sampleContents : Contents := postgresContents PostgresProcedures.sampleTable

open PostgresProcedures PostgresExtract in
theorem sample_revalidated :
    ∃ tag, handler bodyXxh64 (clientHeaders (some noonTag)) noParams
      (sampleContents.seen .succeeds) = .notModified tag :=
  (revalidated_iff bodyXxh64 sampleContents .succeeds .succeeds noParams (clientHeaders none)
    (clientHeaders (some noonTag)) "\"a1c7db755ee70891\"".toList
    (processed (sampleTable.rows.map (selectRow sampleServer))) (by decide +kernel)
    ⟨noonTag, rfl, rfl⟩).mpr ⟨by decide +kernel, Or.inl Iff.rfl⟩

open PostgresProcedures PostgresExtract in
/-- The date query succeeds for the first request and fails for the second, which is answered
with the whole body under another tag. -/
theorem hiccup_not_revalidated :
    handler bodyXxh64 (clientHeaders none) noParams (sampleContents.seen .succeeds) =
        .ok "\"a1c7db755ee70891\"".toList
          (processed (sampleTable.rows.map (selectRow sampleServer))) ∧
      handler bodyXxh64 (clientHeaders (some noonTag)) noParams
          (sampleContents.seen (.fails (.sql .cancelled))) =
        .ok "\"3d8fa1f00756d9c0\"".toList
          (processed (sampleTable.rows.map (selectRow sampleServer))) :=
  ⟨by decide +kernel, by decide +kernel⟩

end EtagAvailability
