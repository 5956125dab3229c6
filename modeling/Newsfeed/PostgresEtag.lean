import Newsfeed.EtagCache
import Newsfeed.PostgresExtract

/-! # PostgreSQL: is a tag that still matches a proof that nothing changed?

Inserts and updates write a date later than all others. Deletes write nothing: the tag
stays the same as long as one of the newest rows is there.
-/
namespace PostgresEtag

open TextOperations FallibleOperations RelationalTables OrderedSelection FeedModels HttpHeaders
open CudHandlers EtagCache PostgresProcedures PostgresExtract

variable {sv : Server} {isRfc3339 : Text → Bool} {now : Timestamp}

/-- `SELECT CAST(MAX(modified_date) AS VARCHAR) FROM newsfeed`. -/
def maxModifiedDate (sv : Server) (rows : List Row) : Option Text :=
  (rows.filterMap Row.modifiedDate).max?.map sv.timestampText

def store (t : Newsfeed sv) : Store where
  maxModifiedDate := .ok (maxModifiedDate sv t.rows)
  extractFeed := fun params => (extractFeed sv params t.rows).mapError DbError.sql

def afterBatch (isRfc3339 : Text → Bool) (t : Newsfeed sv) (b : Timestamp × AcceptedBatch) :
    Newsfeed sv :=
  (cudFeed isRfc3339 (postgres sv b.1) b.2.mode.optionMode b.2.body.items t).1

def afterBatches (isRfc3339 : Text → Bool) (batches : List (Timestamp × AcceptedBatch))
    (t : Newsfeed sv) : Newsfeed sv := batches.foldl (afterBatch isRfc3339) t

theorem Updates.modifiedDate {parsed : List ParsedItem} {r r' : Row}
    (h : PostgresProcedures.Updates now parsed r r') : r' = r ∨ r'.modifiedDate = some now := by
  obtain ⟨_, rfl⟩ | ⟨_, _, _, _, _, _, _, _, rfl⟩ := h
  · exact Or.inl rfl
  · exact Or.inr rfl

theorem cudStatement_rows {mode : OptionMode} {elements : List JsonText.Json}
    {rows rows' : List Row} {statuses : List StatusRow}
    (h : cudStatement sv now mode elements rows = .ok (rows', statuses)) :
    ∀ r ∈ rows', r ∈ rows ∨ r.modifiedDate = some now := by
  intro r hr
  rcases cudStatement_changes sv h with ⟨parsed, new, hnew, rfl⟩ | ⟨parsed, hupdated⟩ | ⟨keep, rfl⟩
  · rcases List.mem_append.mp hr with hr | hr
    · exact Or.inl hr
    · obtain ⟨_, _, _, _, _, _, _, _, rfl⟩ := hnew.written r hr
      exact Or.inr rfl
  · obtain ⟨q, hq, hrow⟩ := forall₂_right hupdated hr
    rcases Updates.modifiedDate hrow with rfl | hdate
    · exact Or.inl hq
    · exact Or.inr hdate
  · exact Or.inl (List.mem_of_mem_filter hr)

theorem afterBatch_rows (t : Newsfeed sv) (b : Timestamp × AcceptedBatch) :
    ∀ r ∈ (afterBatch isRfc3339 t b).rows, r ∈ t.rows ∨ r.modifiedDate = some b.1 := by
  rcases cudFeed_cases sv isRfc3339 b.1 b.2.mode.optionMode b.2.body.items t with
    ⟨_, _, hfeed⟩ | ⟨t', _, hst, hfeed⟩
  · rw [afterBatch, hfeed]
    exact fun r hr => Or.inl hr
  · rw [afterBatch, hfeed]
    exact cudStatement_rows hst

theorem afterBatches_rows (batches : List (Timestamp × AcceptedBatch)) (t : Newsfeed sv) :
    ∀ r ∈ (afterBatches isRfc3339 batches t).rows,
      r ∈ t.rows ∨ ∃ b ∈ batches, r.modifiedDate = some b.1 := by
  induction batches generalizing t with
  | nil => exact fun r hr => Or.inl hr
  | cons b batches ih =>
    intro r hr
    rcases ih (afterBatch isRfc3339 t b) r hr with hr | ⟨c, hc, hdate⟩
    · rcases afterBatch_rows t b r hr with hr | hdate
      · exact Or.inl hr
      · exact Or.inr ⟨b, List.mem_cons_self, hdate⟩
    · exact Or.inr ⟨c, List.mem_cons_of_mem b hc, hdate⟩

theorem maxModifiedDate_eq_some {rows : List Row} {text : Text} :
    maxModifiedDate sv rows = some text ↔
      ∃ m, sv.timestampText m = text ∧ (∃ r ∈ rows, r.modifiedDate = some m) ∧
        ∀ r ∈ rows, ∀ d ∈ r.modifiedDate, d ≤ m := by
  rw [maxModifiedDate, Option.map_eq_some_iff]
  refine exists_congr fun m => ?_
  rw [List.max?_eq_some_iff]
  simp only [List.mem_filterMap, forall_exists_index, and_imp, Option.mem_def]
  constructor
  · rintro ⟨⟨hm, hle⟩, htext⟩
    exact ⟨htext, hm, fun r hr d hd => hle d r hr hd⟩
  · rintro ⟨htext, hm, hle⟩
    exact ⟨⟨hm, fun d r hr hd => hle r hr d hd⟩, htext⟩

/-- One of the newest rows of `old` is still there. -/
def KeepsNewest (old new : List Row) : Prop :=
  ∃ m, (∃ r ∈ new, r ∈ old ∧ r.modifiedDate = some m) ∧ ∀ r ∈ old, ∀ d ∈ r.modifiedDate, d ≤ m

/-- With writes dated later than all old rows, the newest date stays the same exactly when
nothing was written and one of the newest rows is still there. -/
theorem same_maxModifiedDate {old new : List Row} {text : Text}
    (hold : maxModifiedDate sv old = some text)
    (hnew : ∀ r ∈ new, r ∈ old ∨ ∃ d, r.modifiedDate = some d ∧ ∀ q ∈ old, ∀ c ∈ q.modifiedDate,
      c < d) :
    maxModifiedDate sv new = some text ↔ new ⊆ old ∧ KeepsNewest old new := by
  obtain ⟨m, rfl, ⟨q, hq, hqm⟩, hle⟩ := maxModifiedDate_eq_some.mp hold
  constructor
  · intro hsame
    obtain ⟨m', htext, ⟨r, hr, hrm⟩, hle'⟩ := maxModifiedDate_eq_some.mp hsame
    have hm : m' = m := sv.timestampText_injective m' m htext
    subst hm
    have hsub : new ⊆ old := by
      intro a ha
      rcases hnew a ha with ha' | ⟨d, had, hlater⟩
      · exact ha'
      · have hlow := hle' a ha d had
        have hhigh := hlater q hq m' hqm
        exact absurd hlow (not_le.mpr hhigh)
    exact ⟨hsub, m', ⟨r, hr, hsub hr, hrm⟩, hle⟩
  · rintro ⟨hsub, m', ⟨r, hr, hr', hrm⟩, hle'⟩
    have hm : m' = m := le_antisymm (hle r hr' m' hrm) (hle' q hq m hqm)
    subst hm
    exact maxModifiedDate_eq_some.mpr
      ⟨m', rfl, ⟨r, hr, hrm⟩, fun a ha d hd => hle a (hsub ha) d hd⟩

theorem date_of_etagInput {d d' : Text} {params : ExtractParams}
    (h : etagInput d params = etagInput d' params) : d = d' :=
  List.append_cancel_right h

theorem etagInput_ne_bodyText {t : Newsfeed sv} {d : Text} (hd : maxModifiedDate sv t.rows = some d)
    (params : ExtractParams) (rows : List NewsFeedRow) : etagInput d params ≠ bodyText rows := by
  obtain ⟨m, rfl, _⟩ := maxModifiedDate_eq_some.mp hd
  intro heq
  have hhead := bodyText_head rows
  rw [← heq, etagInput] at hhead
  cases htext : sv.timestampText m with
  | nil =>
    rw [htext] at hhead
    cases hhead
  | cons c cs =>
    rw [htext] at hhead
    apply sv.timestampText_head m
    rw [htext]
    exact hhead

theorem same_answer {t t' : Newsfeed sv} {params : ExtractParams} {answer : List NewsFeedRow}
    (hsub : t'.rows ⊆ t.rows) (h : extractFeed sv params t.rows = .ok answer) :
    extractFeed sv params t'.rows = .ok answer ↔
      ∀ r ∈ t.rows, selectRow sv r ∈ answer → r ∈ t'.rows := by
  unfold extractFeed at h ⊢
  rcases extractRows_cases sv params with ⟨e, he⟩ | ⟨limit, hok⟩
  · rw [he] at h
    cases h
  rw [hok] at h ⊢
  have hanswer := Except.ok.inj h
  simp only [Except.map] at hanswer ⊢
  generalize effectiveSort sv (params.sort.map SortOrder.asStr) = sort at *
  have hlisted : ∀ u : Newsfeed sv, select (rowOrder sv sort) (satisfies sv (paramFilters params))
      limit u.rows ⊆ u.rows := fun u a ha =>
    List.mem_of_mem_filter ((List.mem_insertionSort _).mp (List.mem_of_mem_take ha))
  constructor
  · intro hsame r hr hmem
    have hsame' := Except.ok.inj hsame
    rw [← hsame'] at hmem
    obtain ⟨q, hq, heq⟩ := List.mem_map.mp hmem
    have hq' := hlisted t' hq
    rw [← selectRow_inj t (hsub hq') hr heq]
    exact hq'
  · intro hkeep
    have hselect := select_eq_of_subset (k := limit) (p := satisfies sv (paramFilters params))
      (rowOrder_discerns sv sort t) t.primaryKey.nodup t'.primaryKey.nodup hsub ?_
    · simp only [select] at hselect
      rw [hselect, hanswer]
    · intro r hr
      apply hkeep r (hlisted t hr)
      rw [← hanswer]
      exact List.mem_map_of_mem hr

/-- Rows of the answer were deleted, nothing was written, and one of the newest rows is
still there. -/
structure UnseenDelete (sv : Server) (old new : List Row) (answer : List NewsFeedRow) : Prop where
  nothingWritten : new ⊆ old
  keepsNewest : KeepsNewest old new
  listedGone : ∃ r ∈ old, selectRow sv r ∈ answer ∧ r ∉ new

section Answers

variable {xxh64 : Text → UInt64} {rawParams : Text → Option Text}

theorem ifNoneMatch_iff {headers : HeaderMap} {value : HeaderValue} {s t : Text}
    (hvalue : headers.get "if-none-match" = some value)
    (hsent : value.bytes = asciiBytes (etagOf xxh64 s)) :
    ifNoneMatch headers (etagOf xxh64 t) = true ↔ xxh64 s = xxh64 t := by
  unfold ifNoneMatch
  rw [hvalue]
  simp only [hsent, beq_iff_eq]
  constructor
  · intro hbytes
    have htag := asciiBytes_injective (formatEtag_ascii _) (formatEtag_ascii _) hbytes
    exact formatEtag_injective htag
  · intro hhash
    rw [etagOf, etagOf, hhash]

theorem extractFeed_of_store {t : Newsfeed sv} {params : ExtractParams} {rows : List NewsFeedRow}
    (h : (store t).extractFeed params = .ok rows) : extractFeed sv params t.rows = .ok rows := by
  simp only [store] at h
  cases hrows : extractFeed sv params t.rows with
  | error e => rw [hrows] at h; cases h
  | ok rows' => rw [hrows] at h; cases h; rfl

/-- The same text is hashed again when the newest date is the same, or when there is none
both times and the answer is the same. -/
theorem hashedText_eq {t t' : Newsfeed sv} {params : ExtractParams} {text : Text}
    {rows : List NewsFeedRow} (hrows : extractFeed sv params t.rows = .ok rows)
    (h : hashedText params (store t) = some text) (h' : hashedText params (store t') = some text) :
    (∃ d, maxModifiedDate sv t.rows = some d ∧ maxModifiedDate sv t'.rows = some d) ∨
      extractFeed sv params t'.rows = .ok rows := by
  have hbody : ∀ u : Newsfeed sv, ((store u).extractFeed params).toOption.map bodyText = some text →
      ∃ answer, extractFeed sv params u.rows = .ok answer ∧ bodyText answer = text := by
    intro u hu
    obtain ⟨answer, hanswer, htext⟩ := Option.map_eq_some_iff.mp hu
    refine ⟨answer, extractFeed_of_store ?_, htext⟩
    cases hx : (store u).extractFeed params with
    | error e => rw [hx] at hanswer; cases hanswer
    | ok rows' => rw [hx] at hanswer; cases hanswer; rfl
  rcases hashedText_cases params (store t) with ⟨d, hd, hin⟩ | ⟨_, hin⟩
  · rcases hashedText_cases params (store t') with ⟨d', hd', hin'⟩ | ⟨_, hin'⟩
    · rw [hin] at h
      rw [hin'] at h'
      have hsame : d = d' := date_of_etagInput
        ((Option.some.inj h).trans (Option.some.inj h').symm)
      exact Or.inl ⟨d, Except.ok.inj hd, hsame ▸ Except.ok.inj hd'⟩
    · rw [hin] at h
      rw [hin'] at h'
      obtain ⟨answer, _, htext⟩ := hbody t' h'
      exact absurd ((Option.some.inj h).trans htext.symm)
        (etagInput_ne_bodyText (Except.ok.inj hd) params answer)
  · right
    rw [hin] at h
    obtain ⟨answer, hanswer, htext⟩ := hbody t h
    rw [hrows] at hanswer
    rcases hashedText_cases params (store t') with ⟨d', hd', hin'⟩ | ⟨_, hin'⟩
    · rw [hin'] at h'
      exact absurd ((Option.some.inj h').trans htext.symm)
        (etagInput_ne_bodyText (Except.ok.inj hd') params answer)
    · rw [hin'] at h'
      obtain ⟨answer', hanswer', htext'⟩ := hbody t' h'
      rw [hanswer', bodyText_injective (htext'.trans htext.symm), ← hanswer]

end Answers

/-- A `GET` with the tag of an earlier answer is told that nothing changed only if the
answer is still the same, unless the change was an unseen delete. -/
theorem notModified_sound_iff (sv : Server) (isRfc3339 : Text → Bool) (xxh64 : Text → UInt64)
    (start : Newsfeed sv) (batches : List (Timestamp × AcceptedBatch))
    (rawParams : Text → Option Text) (headers headers' : HeaderMap) (etag : Text) (body : GetBody)
    (hfirst : handler xxh64 headers rawParams (store start) = .ok etag body)
    (hlater : ∀ b ∈ batches, ∀ r ∈ start.rows, ∀ d ∈ r.modifiedDate, d < b.1)
    (hsent : ∃ value, headers'.get "if-none-match" = some value ∧ value.bytes = asciiBytes etag)
    (hcollision : ∀ a ∈ hashedText (.fromMap rawParams) (store start),
      ∀ b ∈ hashedText (.fromMap rawParams) (store (afterBatches isRfc3339 batches start)),
        xxh64 a = xxh64 b → a = b) :
    ((∃ tag, handler xxh64 headers' rawParams (store (afterBatches isRfc3339 batches start)) =
          .notModified tag) →
        extractFeed sv (.fromMap rawParams) (afterBatches isRfc3339 batches start).rows =
          .ok body.result) ↔
      ¬ (validateHeaders headers' false = .ok () ∧
        UnseenDelete sv start.rows (afterBatches isRfc3339 batches start).rows body.result) := by
  obtain ⟨rows, text, hrows, rfl, htext, rfl⟩ := handler_ok hfirst
  obtain ⟨value, hvalue, hbytes⟩ := hsent
  have hanswer := extractFeed_of_store hrows
  have hresult : (processed rows).result = rows := rfl
  rw [hresult]
  have hnew : ∀ r ∈ (afterBatches isRfc3339 batches start).rows, r ∈ start.rows ∨
      ∃ d, r.modifiedDate = some d ∧ ∀ q ∈ start.rows, ∀ c ∈ q.modifiedDate, c < d := by
    intro r hr
    rcases afterBatches_rows batches start r hr with hr | ⟨b, hb, hdate⟩
    · exact Or.inl hr
    · exact Or.inr ⟨b.1, hdate, hlater b hb⟩
  generalize afterBatches isRfc3339 batches start = current at *
  constructor
  · rintro hsound ⟨hvalid, hdelete⟩
    obtain ⟨r, hr, hlisted, hgone⟩ := hdelete.listedGone
    have hsame : hashedText (.fromMap rawParams) (store current) = some text := by
      rcases hashedText_cases (.fromMap rawParams) (store start) with ⟨d, hd, hin⟩ | ⟨hnone, _⟩
      · have hcurrent := (same_maxModifiedDate (Except.ok.inj hd) hnew).mpr
          ⟨hdelete.nothingWritten, hdelete.keepsNewest⟩
        rw [← htext, hin, hashedText, store, hcurrent]
      · obtain ⟨m, ⟨q, _, hq, hqm⟩, hle⟩ := hdelete.keepsNewest
        have hmax : maxModifiedDate sv start.rows = some (sv.timestampText m) :=
          maxModifiedDate_eq_some.mpr ⟨m, rfl, ⟨q, hq, hqm⟩, hle⟩
        exact absurd (congrArg Except.ok hmax) (hnone _)
    have hagain := hsound ((handler_notModified hvalid).mpr
      ⟨text, hsame, (ifNoneMatch_iff hvalue hbytes).mpr rfl⟩)
    exact hgone ((same_answer hdelete.nothingWritten hanswer).mp hagain r hr hlisted)
  · rintro hno ⟨tag, hnotModified⟩
    have hvalid : validateHeaders headers' false = .ok () := by
      cases hv : validateHeaders headers' false with
      | ok u => rfl
      | error e =>
        simp only [handler, hv] at hnotModified
        cases hnotModified
    obtain ⟨text', htext', hmatch⟩ := (handler_notModified hvalid).mp ⟨tag, hnotModified⟩
    have hsame : text = text' :=
      hcollision text htext text' htext' ((ifNoneMatch_iff hvalue hbytes).mp hmatch)
    rcases hashedText_eq hanswer htext (hsame ▸ htext') with ⟨d, hd, hd'⟩ | hagain
    · obtain ⟨hsub, hkeeps⟩ := (same_maxModifiedDate hd hnew).mp hd'
      rw [same_answer hsub hanswer]
      intro r hr hlisted
      by_contra hgone
      exact hno ⟨hvalid, hsub, hkeeps, r, hr, hlisted, hgone⟩
    · exact hagain

def clientHeaders (etag : Option HeaderValue) : HeaderMap :=
  ("accept", ⟨asciiBytes "application/json".toList, by decide⟩) ::
    (etag.map fun value => ("if-none-match", value)).toList

def noParams : Text → Option Text := fun _ => none

/-- The seedless hash, on the two texts that are hashed below. -/
def sampleXxh64 (t : Text) : UInt64 :=
  if t = etagInput "2026-08-01 12:00:00".toList (.fromMap noParams) then 0xa1c7db755ee70891
  else if t = bodyText [] then 0x25371dfa2a1d80dc
  else 0

def noonTag : HeaderValue := ⟨asciiBytes "\"a1c7db755ee70891\"".toList, by decide⟩

def deleteHello : AcceptedBatch :=
  ⟨.delete, CudPayload.single helloItem, ⟨rfl, by decide⟩⟩

theorem hello_deleted :
    afterBatches sampleRfc3339 [(noon + 1, deleteHello)] sampleTable = emptyTable := by
  apply Newsfeed.ext
  rw [afterBatches, List.foldl_cons, List.foldl_nil, afterBatch]
  exact (cudFeed_of_statement sampleServer sampleRfc3339
    [⟨"Success".toList, "Record(s) deleted".toList⟩] rfl).1

/-- The delete leaves no row of the newest date, so the tag changes with it. -/
theorem hello_deleted_seen :
    (∃ tag, handler sampleXxh64 (clientHeaders (some noonTag)) noParams
        (store (afterBatches sampleRfc3339 [(noon + 1, deleteHello)] sampleTable)) =
        .ok tag (processed [])) ∧
      ((∃ tag, handler sampleXxh64 (clientHeaders (some noonTag)) noParams
          (store (afterBatches sampleRfc3339 [(noon + 1, deleteHello)] sampleTable)) =
          .notModified tag) →
        extractFeed sampleServer (.fromMap noParams)
            (afterBatches sampleRfc3339 [(noon + 1, deleteHello)] sampleTable).rows =
          .ok (sampleTable.rows.map (selectRow sampleServer))) := by
  have hseen : ¬ UnseenDelete sampleServer sampleTable.rows
      (afterBatches sampleRfc3339 [(noon + 1, deleteHello)] sampleTable).rows
      (sampleTable.rows.map (selectRow sampleServer)) := by
    rw [hello_deleted]
    rintro ⟨_, ⟨m, ⟨r, hr, _⟩, _⟩, _⟩
    cases hr
  constructor
  · rw [hello_deleted]
    exact ⟨etagOf sampleXxh64 (bodyText []), by decide +kernel⟩
  refine (notModified_sound_iff sampleServer sampleRfc3339 sampleXxh64 sampleTable
    [(noon + 1, deleteHello)] noParams (clientHeaders none) (clientHeaders (some noonTag))
    "\"a1c7db755ee70891\"".toList (processed (sampleTable.rows.map (selectRow sampleServer)))
    (by decide +kernel) ?_ ⟨noonTag, rfl, rfl⟩ ?_).mpr fun h => hseen h.2
  · intro b hb r hr d hd
    rw [List.mem_singleton] at hb
    rw [sampleTable, List.mem_singleton] at hr
    rw [hr] at hd
    cases hd
    rw [hb]
    decide
  · rw [hello_deleted]
    decide +kernel

def twoRows : Newsfeed sampleServer :=
  ⟨[sampleRow "New" noon, sampleRow "Old" (noon - 1)], distinctOn_iff_nodup.mpr (by decide)⟩

def newRowOnly : Newsfeed sampleServer := ⟨[sampleRow "New" noon], List.pairwise_singleton _ _⟩

def deleteOld : AcceptedBatch :=
  ⟨.delete, CudPayload.single ⟨sampleItem "Old", by decide⟩, ⟨rfl, by decide⟩⟩

theorem old_deleted :
    afterBatches sampleRfc3339 [(noon + 1, deleteOld)] twoRows = newRowOnly := by
  apply Newsfeed.ext
  rw [afterBatches, List.foldl_cons, List.foldl_nil, afterBatch]
  exact (cudFeed_of_statement sampleServer sampleRfc3339
    [⟨"Success".toList, "Record(s) deleted".toList⟩] rfl).1

/-- A client has read `Old` and `New`; `Old` is deleted, `New` is the newest row; the
client is told that nothing changed. -/
theorem old_deleted_unseen :
    handler sampleXxh64 (clientHeaders none) noParams (store twoRows) =
        .ok "\"a1c7db755ee70891\"".toList (processed (twoRows.rows.map (selectRow sampleServer))) ∧
      handler sampleXxh64 (clientHeaders (some noonTag)) noParams
          (store (afterBatches sampleRfc3339 [(noon + 1, deleteOld)] twoRows)) =
        .notModified "\"a1c7db755ee70891\"".toList ∧
      extractFeed sampleServer (.fromMap noParams)
          (afterBatches sampleRfc3339 [(noon + 1, deleteOld)] twoRows).rows =
        .ok [selectRow sampleServer (sampleRow "New" noon)] ∧
      [selectRow sampleServer (sampleRow "New" noon)] ≠
        twoRows.rows.map (selectRow sampleServer) := by
  rw [old_deleted]
  refine ⟨by decide +kernel, by decide +kernel, rfl, ?_⟩
  intro heq
  have hlength := congrArg List.length heq
  cases hlength

end PostgresEtag
