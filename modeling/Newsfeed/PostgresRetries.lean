import Newsfeed.PostgresConstraints

/-! # PostgreSQL: the same batch once more

After a batch has been carried out, running it again finds nothing to do: every insert
conflicts, every update compares as equal, every title to delete is gone.
-/
namespace PostgresRetries

open TextOperations FallibleOperations JsonText RelationalTables FeedModels HttpHeaders
open CudHandlers PayloadRows PostgresProcedures PostgresConstraints

variable {sv : Server} {now now' : Timestamp} {items : List CudParams}
  {rows rows' rows'' : List Row} {statuses statuses' : List StatusRow}

theorem reads_unique {item : CudParams} {p q : ParsedItem} (hp : Reads sv item p)
    (hq : Reads sv item q) : p = q := by
  have hdate := Except.ok.inj (hp.publishDate.symm.trans hq.publishDate)
  cases p
  cases q
  simp only [ParsedItem.mk.injEq]
  exact ⟨hp.title.trans hq.title.symm, hp.imageurl.trans hq.imageurl.symm,
    hp.feedurl.trans hq.feedurl.symm, hp.actualurl.trans hq.actualurl.symm, hdate⟩

theorem parsed_unique {parsed parsed' : List ParsedItem} (h : List.Forall₂ (Reads sv) items parsed)
    (h' : List.Forall₂ (Reads sv) items parsed') : parsed = parsed' := by
  induction h generalizing parsed' with
  | nil =>
    cases h'
    rfl
  | cons hp _ ih =>
    cases h' with
    | cons hq hrest => rw [reads_unique hp hq, ih hrest]

theorem parsed_of_title {parsed : List ParsedItem}
    (htitles : (items.filterMap CudParams.title).Nodup)
    (h : List.Forall₂ (Reads sv) items parsed) {p q : ParsedItem} (hp : p ∈ parsed)
    (hq : q ∈ parsed) {t : Text} (hpt : p.title = some t) (hqt : q.title = some t) : p = q := by
  obtain ⟨item, hitem, hread⟩ := forall₂_right h hp
  obtain ⟨item', hitem', hread'⟩ := forall₂_right h hq
  have hsame := eq_of_title htitles hitem hitem' (hread.title.symm.trans hpt)
    (hread'.title.symm.trans hqt)
  exact reads_unique hread (hsame ▸ hread')

def AllSkipped (items : List CudParams) (statuses : List StatusRow) : Prop :=
  statuses.length = items.length ∧ ∀ s ∈ statuses, s.result.status = .skipped

theorem allSkipped_map {f : CudParams → StatusRow}
    (h : ∀ item ∈ items, (f item).result.status = .skipped) : AllSkipped items (items.map f) := by
  refine ⟨List.length_map _, ?_⟩
  intro s hs
  obtain ⟨item, hitem, rfl⟩ := List.mem_map.mp hs
  exact h item hitem

theorem insert_again (hacc : ∀ item ∈ items, item.Accepted) (hkey : DistinctOn (titleKey sv) rows)
    (h : cudStatement sv now .insertFeed (items.map CudParams.toJson) rows = .ok (rows', statuses))
    (h' : cudStatement sv now' .insertFeed (items.map CudParams.toJson) rows' =
      .ok (rows'', statuses')) : rows'' = rows' ∧ AllSkipped items statuses' := by
  have hkey' : DistinctOn (titleKey sv) rows' := cudStatement_primaryKey sv hkey h
  obtain ⟨parsed, new, hreads, hnew, rfl, _⟩ := insert_ok sv hacc hkey h
  obtain ⟨parsed', new', hreads', hnew', rfl, rfl⟩ := insert_ok sv hacc hkey' h'
  have hnone : new' = [] := by
    by_contra hne
    obtain ⟨r, hr⟩ := List.exists_mem_of_ne_nil new' hne
    obtain ⟨p, hp, title, feedurl, date, ht, _, _, rfl⟩ := hnew'.written r hr
    rw [← parsed_unique hreads hreads'] at hp
    obtain ⟨q, hq, u, hu, heq⟩ := hnew.covered p hp
    rw [ht, Option.some.injEq] at hu
    obtain ⟨_, _, hdisjoint⟩ := List.pairwise_append.mp (hnew'.fresh hkey')
    exact hdisjoint q hq _ hr (hu ▸ heq)
  rw [hnone]
  exact ⟨List.append_nil _, allSkipped_map fun item _ => rfl⟩

theorem sameValues_updatedRow {r : Row} {p : ParsedItem} {feedurl : Text} {date : Timestamp}
    (hf : p.feedurl = some feedurl) (hd : p.publishDate = some date) :
    SameValues (updatedRow now r feedurl date p) p := ⟨rfl, hf.symm, rfl, hd.symm⟩

theorem sameValues_of_updates {parsed : List ParsedItem}
    (htitles : (items.filterMap CudParams.title).Nodup)
    (hreads : List.Forall₂ (Reads sv) items parsed) {r r' : Row} (h : Updates now parsed r r') :
    ∀ p ∈ parsed, p.title = some r'.title → SameValues r' p := by
  intro p hp ht
  rw [h.title] at ht
  rcases h with ⟨hall, rfl⟩ | ⟨q, hq, hqt, _, feedurl, date, hf, hd, rfl⟩
  · exact hall p hp ht
  · rw [parsed_of_title htitles hreads hp hq ht hqt]
    exact sameValues_updatedRow hf hd

theorem updates_iff_eq {parsed : List ParsedItem} {r r' : Row}
    (h : ∀ p ∈ parsed, p.title = some r.title → SameValues r p) :
    Updates now parsed r r' ↔ r = r' := by
  constructor
  · rintro (⟨_, hsame⟩ | ⟨p, hp, ht, hne, _⟩)
    · exact hsame.symm
    · exact absurd (h p hp ht) hne
  · rintro rfl
    exact Or.inl ⟨h, rfl⟩

theorem update_again (hacc : ∀ item ∈ items, item.Accepted)
    (htitles : (items.filterMap CudParams.title).Nodup) (hkey : DistinctOn (titleKey sv) rows)
    (h : cudStatement sv now .updateFeed (items.map CudParams.toJson) rows = .ok (rows', statuses))
    (h' : cudStatement sv now' .updateFeed (items.map CudParams.toJson) rows' =
      .ok (rows'', statuses')) : rows'' = rows' ∧ AllSkipped items statuses' := by
  have hkey' : DistinctOn (titleKey sv) rows' := cudStatement_primaryKey sv hkey h
  obtain ⟨parsed, _, hreads, hrows, _⟩ := update_ok sv hacc hkey h
  obtain ⟨parsed', updated', hreads', hrows', _, hmem', rfl⟩ := update_ok sv hacc hkey' h'
  obtain rfl := parsed_unique hreads hreads'
  have hequal : List.Forall₂ Eq rows' rows'' := by
    refine (forall₂_congr_left fun r' hr' r'' => ?_).mp hrows'
    obtain ⟨r, _, hr⟩ := forall₂_right hrows hr'
    exact updates_iff_eq (sameValues_of_updates htitles hreads hr)
  have hsame : rows'' = rows' := (List.forall₂_eq_eq_eq ▸ hequal).symm
  have hnone : updated' = [] := by
    rw [List.eq_nil_iff_forall_not_mem]
    intro t ht
    obtain ⟨rr, hrr, hne, _⟩ := (hmem' t).mp ht
    exact hne ((List.forall₂_iff_zip.mp hequal).2 hrr)
  refine ⟨hsame, ?_⟩
  rw [hnone]
  refine allSkipped_map fun item _ => ?_
  cases rows'.find? fun r => joinsTitle item.title r.title with
  | none => rfl
  | some r => rfl

theorem delete_again (hkey : DistinctOn (titleKey sv) rows)
    (h : cudStatement sv now .deleteFeed (items.map CudParams.toJson) rows = .ok (rows', statuses))
    (h' : cudStatement sv now' .deleteFeed (items.map CudParams.toJson) rows' =
      .ok (rows'', statuses')) : rows'' = rows' ∧ AllSkipped items statuses' := by
  have hkey' : DistinctOn (titleKey sv) rows' := cudStatement_primaryKey sv hkey h
  obtain ⟨_, hrows, _⟩ := delete_ok sv hkey h
  obtain ⟨_, hrows', rfl⟩ := delete_ok sv hkey' h'
  have hgone : rows'.filter (deleteMatches (items.map CudParams.title)) = [] := by
    rw [hrows, List.filter_filter]
    simp
  constructor
  · rw [hrows', hrows, List.filter_filter]
    simp
  · rw [hgone]
    exact allSkipped_map fun item _ => rfl

variable (now') in
theorem completes_again (batch : AcceptedBatch) (t t' : Newsfeed sv)
    (h : cudStatement sv now batch.mode.optionMode (batch.body.items.map CudParams.toJson) t.rows =
      .ok (t'.rows, statuses)) :
    ∃ result, cudStatement sv now' batch.mode.optionMode (batch.body.items.map CudParams.toJson)
      t'.rows = .ok result := by
  refine (succeeds_or_fails _).resolve_right fun hraised => ?_
  have hno : ¬ ∃ e, cudStatement sv now batch.mode.optionMode
      (batch.body.items.map CudParams.toJson) t.rows = .error e := by
    rintro ⟨e, he⟩
    rw [h] at he
    cases he
  rw [statement_raises] at hraised hno
  refine hno (hraised.imp_right ?_)
  rintro ⟨hmode, item, hitem, hfeed, r', hr', ht⟩
  refine ⟨hmode, item, hitem, hfeed, ?_⟩
  rcases batch with ⟨mode, body, hdup, hreq⟩
  cases hmode
  obtain ⟨parsed, _, _, hrows, _⟩ := update_ok sv body.accepted t.primaryKey h
  obtain ⟨r, hr, hupdates⟩ := forall₂_right hrows hr'
  exact ⟨r, hr, hupdates.title ▸ ht⟩

variable (now') in
theorem statement_again (batch : AcceptedBatch) (t t' : Newsfeed sv)
    (h : cudStatement sv now batch.mode.optionMode (batch.body.items.map CudParams.toJson) t.rows =
      .ok (t'.rows, statuses)) :
    ∃ statuses', cudStatement sv now' batch.mode.optionMode
        (batch.body.items.map CudParams.toJson) t'.rows = .ok (t'.rows, statuses') ∧
      AllSkipped batch.body.items statuses' := by
  obtain ⟨⟨rows'', statuses'⟩, h'⟩ := completes_again now' batch t t' h
  have hagain : rows'' = t'.rows ∧ AllSkipped batch.body.items statuses' := by
    rcases batch with ⟨mode, body, hdup, hreq⟩
    cases mode with
    | insert => exact insert_again body.accepted t.primaryKey h h'
    | update =>
      exact update_again body.accepted (checkDuplicates_ok.mp hdup) t.primaryKey h h'
    | delete => exact delete_again t.primaryKey h h'
  rw [hagain.1] at h'
  exact ⟨statuses', h', hagain.2⟩

/-- A batch that has been carried out changes nothing when it is sent again: every item is
reported as skipped, and the request is answered with 200. -/
theorem retry_harmless (sv : Server) (isRfc3339 : Text → Bool) (now now' : Timestamp)
    (batch : AcceptedBatch) (headers : HeaderMap) (t : Newsfeed sv) (results : List CudResult)
    (hheaders : validateHeaders headers true = .ok ())
    (h : (cudFeed isRfc3339 (postgres sv now) batch.mode.optionMode batch.body.items t).2 =
      .ok results) :
    let t' := (cudFeed isRfc3339 (postgres sv now) batch.mode.optionMode batch.body.items t).1
    (∃ results', cudFeed isRfc3339 (postgres sv now') batch.mode.optionMode batch.body.items t' =
        (t', .ok results') ∧
      results'.length = batch.body.items.length ∧ ∀ r ∈ results', r.status = .skipped) ∧
    (processCud isRfc3339 (postgres sv now') headers batch.body batch.mode.optionMode t').1 = t' ∧
    (processCud isRfc3339 (postgres sv now') headers batch.body batch.mode.optionMode
      t').2.statusCode = 200 := by
  intro t'
  obtain ⟨statuses, hst, _⟩ := statement_of_cudFeed sv isRfc3339 h
  obtain ⟨statuses', hst', hlength, hskipped⟩ := statement_again now' batch t t' hst
  obtain ⟨hrows, hresults⟩ := cudFeed_of_statement sv isRfc3339 statuses' hst'
  have htable := Newsfeed.ext hrows
  have hall : ∀ r ∈ statuses'.map StatusRow.result, r.status = .skipped := by
    intro r hr
    obtain ⟨s, hs, rfl⟩ := List.mem_map.mp hr
    exact hskipped s hs
  have hprocess :=
    processCud_of_results isRfc3339 (postgres sv now') hheaders batch.accepted hresults
  refine ⟨⟨_, Prod.ext htable hresults, ?_, hall⟩, ?_, ?_⟩
  · rw [List.length_map, hlength]
  · rw [hprocess]
    exact htable
  · rw [hprocess, handleCudLogic_of_no_error]
    · rw [if_neg]
      rintro ⟨_, r, hr, hsuccess⟩
      rw [hall r hr] at hsuccess
      cases hsuccess
    · intro r hr
      rw [hall r hr]
      simp

theorem accept_valid : (asciiBytes "application/json".toList).all isHeaderByte = true := by decide

theorem contentType_valid :
    (asciiBytes "application/json; charset=utf-8".toList).all isHeaderByte = true := by decide

def jsonHeaders : HeaderMap :=
  [("accept", ⟨_, accept_valid⟩), ("content-type", ⟨_, contentType_valid⟩)]

def helloInsert : AcceptedBatch := ⟨.insert, CudPayload.single helloItem, ⟨rfl, by decide⟩⟩

theorem hello_retried :
    (processCud sampleRfc3339 (postgres sampleServer (noon + 1)) jsonHeaders helloInsert.body
      helloInsert.mode.optionMode (cudFeed sampleRfc3339 (postgres sampleServer noon)
        helloInsert.mode.optionMode helloInsert.body.items emptyTable).1).2.statusCode = 200 := by
  have hheaders : validateHeaders jsonHeaders true = .ok () := by decide +kernel
  have hinsert : cudStatement sampleServer noon helloInsert.mode.optionMode
      (helloInsert.body.items.map CudParams.toJson) emptyTable.rows =
      .ok ([sampleRow "Hello" noon], [⟨"Success".toList, "Record(s) inserted".toList⟩]) := rfl
  exact (retry_harmless sampleServer sampleRfc3339 noon (noon + 1) helloInsert jsonHeaders
    emptyTable _ hheaders (cudFeed_of_statement sampleServer sampleRfc3339 _ hinsert).2).2.2

end PostgresRetries
