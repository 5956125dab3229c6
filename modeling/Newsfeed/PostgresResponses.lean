import Newsfeed.PostgresProcedures

/-! # PostgreSQL: responses and table changes

A failed request leaves the table as it was. A successful one reports, item by
item, what happened to the rows with exactly that item's title.
-/
namespace PostgresResponses

open TextOperations FallibleOperations JsonText RelationalTables FeedModels HttpHeaders CudHandlers
open PayloadRows PostgresProcedures

variable {sv : Server} {now : Timestamp} {items : List CudParams} {rows rows' : List Row}
  {statuses : List StatusRow}

/-- The statuses of a batch agree with the rows it touched. -/
structure Agrees (rows rows' : List Row) (items : List CudParams) (statuses : List StatusRow) :
    Prop where
  statuses : List.Forall₂ (fun item (s : StatusRow) => s.result.status = .success ↔
    ∃ r ∈ touchedRows Row.title rows rows', item.title = some r.title) items statuses
  titles : ∀ r ∈ touchedRows Row.title rows rows', ∃ item ∈ items, item.title = some r.title

theorem agrees_of_map {f : CudParams → StatusRow} (titles : List Text)
    (hf : ∀ item ∈ items, (f item).result.status = .success ↔ ∃ t ∈ titles, item.title = some t)
    (htouched : ∀ t, t ∈ titles ↔ ∃ r ∈ touchedRows Row.title rows rows', r.title = t)
    (hitems : ∀ t ∈ titles, ∃ item ∈ items, item.title = some t) :
    Agrees rows rows' items (items.map f) where
  statuses := by
    rw [List.forall₂_map_right_iff, List.forall₂_same]
    intro item hitem
    rw [hf item hitem]
    constructor
    · rintro ⟨t, ht, heq⟩
      obtain ⟨r, hr, rfl⟩ := (htouched t).mp ht
      exact ⟨r, hr, heq⟩
    · rintro ⟨r, hr, heq⟩
      exact ⟨r.title, (htouched r.title).mpr ⟨r, hr, rfl⟩, heq⟩
  titles := fun r hr => hitems r.title ((htouched r.title).mpr ⟨r, hr, rfl⟩)

theorem exact_key (h : DistinctOn (titleKey sv) rows) : DistinctOn Row.title rows :=
  DistinctOn.of_comp (f := sv.lower) h

theorem insertStatus_success {t : Option Text} :
    (insertStatus t).result.status = .success ↔ t.isSome = true := by
  cases t <;> simp [insertStatus, StatusRow.result]

theorem updateStatus_success {t : Option Text} {r : Option Row} :
    (updateStatus t r).result.status = .success ↔ t.isSome = true := by
  cases t <;> cases r <;> simp [updateStatus, StatusRow.result]

theorem deleteStatus_success {t : Option Text} :
    (deleteStatus t).result.status = .success ↔ t.isSome = true := by
  cases t <;> simp [deleteStatus, StatusRow.result]

theorem insert_agrees (hacc : ∀ item ∈ items, item.Accepted) (hkey : DistinctOn (titleKey sv) rows)
    (h : cudStatement sv now .insertFeed (items.map CudParams.toJson) rows =
      .ok (rows', statuses)) :
    Agrees rows rows' items statuses := by
  obtain ⟨parsed, new, hreads, hnew, rfl, rfl⟩ := insert_ok sv hacc hkey h
  have hdistinct := exact_key (hnew.fresh hkey)
  refine agrees_of_map (new.map Row.title) (fun item _ => ?_) (fun t => ?_) (fun t ht => ?_)
  · rw [insertStatus_success, find?_joinsTitle_isSome]
  · simp only [List.mem_map, mem_touchedRows_append hdistinct]
  · have hmem : some t ∈ parsed.map ParsedItem.title :=
      hnew.titles.subset (by simpa using ht)
    rw [titles_of_reads sv hreads, List.mem_map] at hmem
    exact hmem

theorem update_agrees (hacc : ∀ item ∈ items, item.Accepted) (hkey : DistinctOn (titleKey sv) rows)
    (h : cudStatement sv now .updateFeed (items.map CudParams.toJson) rows =
      .ok (rows', statuses)) :
    Agrees rows rows' items statuses := by
  obtain ⟨parsed, updated, hreads, hrows, _, hmem, rfl⟩ := update_ok sv hacc hkey h
  have htitles : List.Forall₂ (fun a b : Row => b.title = a.title) rows rows' :=
    hrows.imp fun _ _ hu => hu.title
  refine agrees_of_map updated (fun item _ => ?_) (fun t => ?_) (fun t ht => ?_)
  · rw [updateStatus_success, find?_joinsTitle_isSome]
  · rw [hmem]
    constructor
    · rintro ⟨rr, hrr, hne, rfl⟩
      exact ⟨rr.2, (mem_touchedRows_rewrite (exact_key hkey) htitles).mpr ⟨rr, hrr, hne, rfl⟩,
        (List.forall₂_iff_zip.mp htitles).2 hrr⟩
    · rintro ⟨r, hr, rfl⟩
      obtain ⟨rr, hrr, hne, rfl⟩ := (mem_touchedRows_rewrite (exact_key hkey) htitles).mp hr
      exact ⟨rr, hrr, hne, ((List.forall₂_iff_zip.mp htitles).2 hrr).symm⟩
  · obtain ⟨rr, hrr, hne, rfl⟩ := (hmem t).mp ht
    obtain ⟨_, heq⟩ | ⟨p, hp, hpt, _⟩ := (List.forall₂_iff_zip.mp hrows).2 hrr
    · exact absurd heq.symm hne
    · have hmem : some rr.1.title ∈ items.map CudParams.title := by
        rw [← titles_of_reads sv hreads, ← hpt]
        exact List.mem_map_of_mem hp
      exact List.mem_map.mp hmem

theorem delete_agrees (hkey : DistinctOn (titleKey sv) rows)
    (h : cudStatement sv now .deleteFeed (items.map CudParams.toJson) rows =
      .ok (rows', statuses)) :
    Agrees rows rows' items statuses := by
  obtain ⟨_, rfl, rfl⟩ := delete_ok sv hkey h
  refine agrees_of_map
    ((rows.filter (deleteMatches (items.map CudParams.title))).map Row.title)
    (fun item _ => ?_) (fun t => ?_) (fun t ht => ?_)
  · rw [deleteStatus_success, find?_joinsTitle_isSome]
  · simp only [List.mem_map, List.mem_filter, mem_touchedRows_filter (exact_key hkey),
      Bool.not_eq_false']
  · obtain ⟨r, hr, rfl⟩ := List.mem_map.mp ht
    exact List.mem_map.mp (deleteMatches_iff.mp (List.mem_filter.mp hr).2)

theorem statement_agrees (mode : CudMode) (hacc : ∀ item ∈ items, item.Accepted)
    (hkey : DistinctOn (titleKey sv) rows)
    (h : cudStatement sv now mode.optionMode (items.map CudParams.toJson) rows =
      .ok (rows', statuses)) :
    Agrees rows rows' items statuses := by
  cases mode with
  | insert => exact insert_agrees hacc hkey h
  | update => exact update_agrees hacc hkey h
  | delete => exact delete_agrees hkey h

theorem status_ne_error (s : StatusRow) : s.result.status ≠ .error := by
  unfold StatusRow.result
  split <;> simp

/-- What a successful answer says about the tables before and after. -/
structure Truthful (mode : CudMode) (body : CudPayload) (t t' : Newsfeed sv)
    (statusCode : Nat) (response : ApiResponse CudResult CudParams) : Prop where
  noFailures : response.failedItems = []
  count : response.count = body.items.length
  statuses : List.Forall₂ (fun item (result : CudResult) => result.status = .success ↔
    ∃ r ∈ touchedRows Row.title t.rows t'.rows, item.title = some r.title) body.items
      response.result
  successes : response.result.countP (fun r => r.status == .success) =
    (touchedRows Row.title t.rows t'.rows).length
  untouched : ∀ r, (∀ ir ∈ body.items.zip response.result, ir.2.status = .success →
    ir.1.title ≠ some r.title) → (r ∈ t.rows ↔ r ∈ t'.rows)
  primaryKey : DistinctOn (titleKey sv) t'.rows
  created : statusCode = 201 ↔ mode = .insert ∧ insertedRows Row.title t.rows t'.rows ≠ []

theorem Agrees.results (h : Agrees rows rows' items statuses) :
    List.Forall₂ (fun item (result : CudResult) => result.status = .success ↔
      ∃ r ∈ touchedRows Row.title rows rows', item.title = some r.title) items
      (statuses.map StatusRow.result) := List.forall₂_map_right_iff.mpr h.statuses

theorem exists_success {results : List CudResult}
    (htitles : ∀ r ∈ touchedRows Row.title rows rows', ∃ item ∈ items, item.title = some r.title)
    (hresults : List.Forall₂ (fun item (result : CudResult) => result.status = .success ↔
      ∃ r ∈ touchedRows Row.title rows rows', item.title = some r.title) items results) :
    ∀ r ∈ touchedRows Row.title rows rows', ∃ ir ∈ items.zip results,
      ir.2.status = .success ∧ ir.1.title = some r.title := by
  intro r hr
  obtain ⟨item, hitem, ht⟩ := htitles r hr
  obtain ⟨result, hmem⟩ := forall₂_zip_left hresults hitem
  exact ⟨_, hmem, ((List.forall₂_iff_zip.mp hresults).2 hmem).mpr ⟨r, hr, ht⟩, ht⟩

theorem created_iff (hacc : ∀ item ∈ items, item.Accepted) (hkey : DistinctOn (titleKey sv) rows)
    (hst : cudStatement sv now .insertFeed (items.map CudParams.toJson) rows =
      .ok (rows', statuses)) :
    (∃ r ∈ statuses.map StatusRow.result, r.status = .success) ↔
      insertedRows Row.title rows rows' ≠ [] := by
  have hagrees := insert_agrees hacc hkey hst
  have hresults := hagrees.results
  obtain ⟨_, new, _, hnew, hrows, _⟩ := insert_ok sv hacc hkey hst
  have hnewkey := exact_key (hnew.fresh hkey)
  have hinserted : insertedRows Row.title rows rows' = new := by
    rw [hrows, insertedRows_append hnewkey]
  rw [hinserted]
  constructor
  · rintro ⟨result, hresult, hsuccess⟩
    obtain ⟨item, _, hiff⟩ := forall₂_right hresults hresult
    obtain ⟨r, hr, _⟩ := hiff.mp hsuccess
    rw [hrows, mem_touchedRows_append hnewkey] at hr
    exact List.ne_nil_of_mem hr
  · intro hne
    obtain ⟨r, hr⟩ := List.exists_mem_of_ne_nil new hne
    rw [← mem_touchedRows_append hnewkey, ← hrows] at hr
    obtain ⟨ir, hir, hsuccess, _⟩ := exists_success hagrees.titles hresults r hr
    exact ⟨ir.2, (List.of_mem_zip hir).2, hsuccess⟩

theorem truthful_of_agrees {mode : CudMode} {body : CudPayload} {t t' : Newsfeed sv}
    (hacc : Accepts body mode.optionMode)
    (hst : cudStatement sv now mode.optionMode (body.items.map CudParams.toJson) t.rows =
      .ok (t'.rows, statuses)) :
    Truthful mode body t t'
      (if mode.optionMode = .insertFeed ∧
          ∃ r ∈ statuses.map StatusRow.result, r.status = .success then 201 else 200)
      (.success "Processed request" (statuses.map StatusRow.result)) := by
  have hagrees := statement_agrees mode body.accepted t.primaryKey hst
  have hresults := hagrees.results
  have hdistinct : DistinctOn Row.title (touchedRows Row.title t.rows t'.rows) :=
    touchedRows_distinct (exact_key t.primaryKey) (exact_key t'.primaryKey)
  constructor
  · rfl
  · exact hresults.length_eq.symm
  · exact hresults
  · have hcount := countP_success CudParams.title
      ((touchedRows Row.title t.rows t'.rows).map Row.title)
      (distinctOn_iff_nodup.mp hdistinct) (checkDuplicates_ok.mp hacc.duplicates) (by
        intro k hk
        obtain ⟨r, hr, rfl⟩ := List.mem_map.mp hk
        exact hagrees.titles r hr)
      (hresults.imp fun item result hir => by rw [hir]; simp)
    rw [List.length_map] at hcount
    exact hcount
  · intro r hr
    refine mem_iff_of_untouched Row.title fun q hq heq => ?_
    obtain ⟨ir, hir, hsuccess, ht⟩ := exists_success hagrees.titles hresults q hq
    exact hr ir hir hsuccess (by rw [ht, heq])
  · exact t'.primaryKey
  · cases mode with
    | update => simp [CudMode.optionMode]
    | delete => simp [CudMode.optionMode]
    | insert =>
      rw [← created_iff body.accepted t.primaryKey hst]
      simp [CudMode.optionMode]

/-- The answer to a request tells the truth about the table: an error leaves it
unchanged, a success reports every item by what happened to its title. -/
theorem processCud_truthful (sv : Server) (isRfc3339 : Text → Bool) (now : Timestamp)
    (headers : HeaderMap) (body : CudPayload) (mode : CudMode) (t : Newsfeed sv) :
    let answer := processCud isRfc3339 (postgres sv now) headers body mode.optionMode t
    (400 ≤ answer.2.statusCode → answer.1 = t) ∧
      (answer.2.statusCode < 400 → ∃ response, answer.2.body = .response response ∧
        Truthful mode body t answer.1 answer.2.statusCode response) := by
  intro answer
  rcases processCud_cases isRfc3339 (postgres sv now) headers body mode.optionMode t with
    ⟨hcode, hsame⟩ | ⟨hacc, ⟨e, he, hout⟩ | ⟨results, hres, hout⟩⟩
  · exact ⟨fun _ => hsame, fun hlt => absurd hlt (Nat.not_lt.mpr hcode)⟩
  · rcases cudFeed_cases sv isRfc3339 now mode.optionMode body.items t with
      ⟨_, _, hfeed⟩ | ⟨_, _, _, hfeed⟩
    · have hanswer : answer = (t, .failure 500 "DB_ERROR" "Internal Server Error".toList) := by
        rw [hfeed] at hout
        exact hout
      rw [hanswer]
      exact ⟨fun _ => rfl, fun hlt => absurd hlt (by simp [CudResponse.failure])⟩
    · rw [hfeed] at he
      cases he
  · rcases cudFeed_cases sv isRfc3339 now mode.optionMode body.items t with
      ⟨_, _, hfeed⟩ | ⟨t', statuses, hst, hfeed⟩
    · rw [hfeed] at hres
      cases hres
    · rw [hfeed] at hres hout
      cases hres
      have hanswer : answer = (t', handleCudLogic (statuses.map StatusRow.result)
        mode.optionMode) :=
        hout
      have hnoerror : ∀ r ∈ statuses.map StatusRow.result, r.status ≠ .error := by
        intro r hr
        obtain ⟨s, _, rfl⟩ := List.mem_map.mp hr
        exact status_ne_error s
      rw [hanswer, handleCudLogic_of_no_error mode.optionMode hnoerror]
      refine ⟨fun hcode => ?_, fun _ => ⟨_, rfl, truthful_of_agrees hacc hst⟩⟩
      simp only at hcode
      split at hcode <;> omega

end PostgresResponses
