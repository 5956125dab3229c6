import Newsfeed.PostgresResponses
import Newsfeed.PostgresExtract

/-! # PostgreSQL: reading a row back by one of its values

A write stores what the client sent, a read rewrites the filter first. The row comes
back exactly when the rewriting leaves the value as it is, up to case.
-/
namespace PostgresReadBack

open TextOperations FallibleOperations RelationalTables FeedModels CudHandlers
open PayloadRows ExtractFilters PostgresProcedures PostgresResponses PostgresExtract

def column (f : FilterField) (r : Row) : Option Text :=
  match f with
  | .title => some r.title
  | .imageUrl => r.imageurl
  | .feedUrl => some r.feedurl
  | .actualUrl => r.actualurl

variable {sv : Server} {isRfc3339 : Text → Bool} {now : Timestamp}

/-- Rows whose value is `v`, ignoring case. -/
def holds (sv : Server) (f : FilterField) (v : Text) (r : Row) : Bool :=
  (SqlLogic.sqlEq (citextEq sv) (column f r) (some v)).holds

theorem nulFree_of_contains {item : CudParams} (h : containsNul item.toJson = false)
    (f : FilterField) {v : Text} (hv : f.value item = some v) : '\x00' ∉ v := by
  have hoption : ∀ {o : Option Text}, containsNul (optionText o) = false → o = some v →
      '\x00' ∉ v := by
    rintro o ho rfl hmem
    simp [optionText, containsNul, hmem] at ho
  simp only [CudParams.toJson, containsNul, anyMemberContainsNul, Bool.or_eq_false_iff] at h
  obtain ⟨⟨_, h1⟩, ⟨_, h2⟩, ⟨_, h3⟩, ⟨_, h4⟩, _⟩ := h
  cases f with
  | title => exact hoption h1 hv
  | imageUrl => exact hoption h2 hv
  | feedUrl => exact hoption h3 hv
  | actualUrl => exact hoption h4 hv

theorem inserted_row {body : CudPayload} {table : Newsfeed sv} {results : List CudResult}
    (hacc : Accepts body .insertFeed)
    (h : (cudFeed isRfc3339 (postgres sv now) .insertFeed body.items table).2 = .ok results)
    {item : CudParams} {result : CudResult} (hmem : (item, result) ∈ body.items.zip results)
    (hsuccess : result.status = .success) :
    ∃ r ∈ (cudFeed isRfc3339 (postgres sv now) .insertFeed body.items table).1.rows,
      r ∉ table.rows ∧ containsNul item.toJson = false ∧
        ∀ f : FilterField, column f r = f.value item := by
  obtain ⟨statuses, hst, rfl⟩ := statement_of_cudFeed sv isRfc3339 h
  obtain ⟨parsed, new, hreads, hnew, hrows, rfl⟩ := insert_ok sv body.accepted table.primaryKey hst
  have hall : List.Forall₂ (fun item (result : CudResult) => result =
      (insertStatus ((new.map Row.title).find? (joinsTitle item.title))).result) body.items
      ((body.items.map fun item =>
        insertStatus ((new.map Row.title).find? (joinsTitle item.title))).map
          StatusRow.result) := by
    rw [List.map_map, List.forall₂_map_right_iff, List.forall₂_same]
    exact fun _ _ => rfl
  have hresult := (List.forall₂_iff_zip.mp hall).2 hmem
  rw [hresult, insertStatus_success, find?_joinsTitle_isSome] at hsuccess
  obtain ⟨t, ht, hitem⟩ := hsuccess
  obtain ⟨r, hr, rfl⟩ := List.mem_map.mp ht
  obtain ⟨p, hp, title, feedurl, date, hpt, hpf, _, hrow⟩ := hnew.written r hr
  obtain ⟨item', hitem', hread⟩ := forall₂_right hreads hp
  have htitle : r.title = title := by rw [hrow]; rfl
  have hsame : item' = item := by
    refine eq_of_title (checkDuplicates_ok.mp hacc.duplicates) hitem' (List.of_mem_zip hmem).1
      (t := r.title) ?_ hitem
    rw [← hread.title, hpt, htitle]
  subst hsame
  refine ⟨r, ?_, ?_, hread.noNul, ?_⟩
  · rw [hrows]
    exact List.mem_append_right _ hr
  · intro hold
    obtain ⟨_, _, hdisjoint⟩ := List.pairwise_append.mp (hnew.fresh table.primaryKey)
    exact hdisjoint r hold r hr rfl
  · intro f
    rw [hrow]
    cases f with
    | title => exact hpt.symm.trans hread.title
    | imageUrl => exact hread.imageurl
    | feedUrl => exact hpf.symm.trans hread.feedurl
    | actualUrl => exact hread.actualurl

theorem sanitise_head {maxLength : Nat} (hpos : 0 < maxLength) {t w : Text}
    (h : sanitise isKept maxLength ('h' :: t) = some w) : ∃ u, w = 'h' :: u := by
  obtain ⟨hw, hne⟩ := nullIfEmpty_eq_some.mp h
  have hkept : isKept 'h' = true := rfl
  have homit : omitFirst isKept ('h' :: t) =
      'h' :: collapseFirstRun (replaceFirst (fun c => !isKept c) ' ' t) := by
    simp [omitFirst, replaceFirst, hkept, collapseFirstRun]
  obtain ⟨n, rfl⟩ : ∃ n, maxLength = n + 1 := ⟨maxLength - 1, by omega⟩
  rw [homit, List.take_succ_cons, trimSpaces, trimBy, List.dropWhile_cons_of_neg (by decide)] at hw
  have hpre := List.rdropWhile_prefix isSpace
    (l := 'h' :: (collapseFirstRun (replaceFirst (fun c => !isKept c) ' ' t)).take n)
  rw [hw] at hpre
  obtain ⟨c, u, rfl⟩ := List.exists_cons_of_ne_nil hne
  exact ⟨u, by rw [(List.cons_prefix_cons.mp hpre).1]⟩

theorem lower_ne_null {u : Text} : sv.lower ('h' :: u) ≠ "null".toList := by
  intro h
  have hascii := sv.lower_eq_null _ h
  simp [lowerAscii] at hascii

theorem valid_url_head {v : Text} (h : ValidUrl v) : ∃ t, v = 'h' :: t := by
  obtain ⟨_, hscheme | hscheme⟩ := h
  all_goals
    obtain ⟨t, rfl⟩ := List.isPrefixOf_iff_prefix.mp hscheme
    exact ⟨_, rfl⟩

theorem filter_ne_null {f : FilterField} {item : CudParams} (hacc : item.Accepted)
    (hf : f = .imageUrl ∨ f = .actualUrl) {v w : Text} (hv : f.value item = some v)
    (hsan : sanitise isKept f.maxLength v = some w) : sv.lower w ≠ "null".toList := by
  have hurl : ValidUrl v := by
    rcases hf with rfl | rfl
    · exact hacc.imageUrl v hv
    · exact hacc.actualUrl v hv
  have hpos : 0 < f.maxLength := by cases f <;> decide
  obtain ⟨t, rfl⟩ := valid_url_head hurl
  obtain ⟨u, rfl⟩ := sanitise_head hpos hsan
  exact lower_ne_null

def onlyFilter (f : FilterField) (w : Text) : Filters :=
  match f with
  | .title => ⟨some w, none, none, none⟩
  | .imageUrl => ⟨none, some w, none, none⟩
  | .feedUrl => ⟨none, none, some w, none⟩
  | .actualUrl => ⟨none, none, none, some w⟩

theorem paramFilters_query {f : FilterField} {v w : Text} {limit : Nat} (sort : Option SortOrder)
    (hsan : sanitise isKept f.maxLength v = some w) :
    paramFilters (f.query v limit sort) = onlyFilter f w := by
  cases f with
  | title => exact congrArg (fun x => Filters.mk x none none none) hsan
  | imageUrl => exact congrArg (fun x => Filters.mk none x none none) hsan
  | feedUrl => exact congrArg (fun x => Filters.mk none none x none) hsan
  | actualUrl => exact congrArg (fun x => Filters.mk none none none x) hsan

section OnlyFilter

variable {f : FilterField} {w : Text}
  (hnull : f = .imageUrl ∨ f = .actualUrl → sv.lower w ≠ "null".toList)
include hnull

theorem satisfies_onlyFilter : satisfies sv (onlyFilter f w) = holds sv f w := by
  funext r
  cases f with
  | title => simp [onlyFilter, satisfies, matchesFilter, matchesNullable, holds, column]
  | imageUrl =>
    have hw := hnull (Or.inl rfl)
    simp only [onlyFilter, satisfies, matchesFilter, matchesNullable, hw, ↓reduceIte, holds,
      column, Bool.true_and, Bool.and_true]
  | feedUrl => simp [onlyFilter, satisfies, matchesFilter, matchesNullable, holds, column]
  | actualUrl =>
    have hw := hnull (Or.inr rfl)
    simp only [onlyFilter, satisfies, matchesFilter, matchesNullable, hw, ↓reduceIte, holds,
      column, Bool.true_and]

theorem misspelledNulls_onlyFilter :
    misspelledNulls sv (onlyFilter f w).imageurl = 0 ∧
      misspelledNulls sv (onlyFilter f w).actualurl = 0 := by
  have hzero : sv.lower w ≠ "null".toList → misspelledNulls sv (some w) = 0 := by
    intro hw
    simp only [misspelledNulls, hw, false_and, ↓reduceIte]
  cases f with
  | title => exact ⟨rfl, rfl⟩
  | imageUrl => exact ⟨hzero (hnull (Or.inl rfl)), rfl⟩
  | feedUrl => exact ⟨rfl, rfl⟩
  | actualUrl => exact ⟨rfl, hzero (hnull (Or.inr rfl))⟩

end OnlyFilter

theorem query_rows {f : FilterField} {v w : Text} {limit : Nat} (sort : Option SortOrder)
    (hnul : '\x00' ∉ v) (hsan : sanitise isKept f.maxLength v = some w)
    (hnull : f = .imageUrl ∨ f = .actualUrl → sv.lower w ≠ "null".toList)
    (hlimit : 1 ≤ limit ∧ limit ≤ 100) (rows : List Row) :
    ∃ order, extractRows sv (f.query v limit sort) rows =
      .ok (((rows.filter (holds sv f w)).insertionSort (rowOrder sv order)).take limit) := by
  have hfree : nulFree (f.query v limit sort) := by
    intro x hx t ht hmem
    cases f <;>
      simp only [FilterField.query, List.mem_cons, List.not_mem_nil, or_false] at hx <;>
      rcases hx with rfl | rfl | rfl | rfl <;> cases ht <;> exact hnul hmem
  have heff : effectiveLimit ((f.query v limit sort).limit.map (Nat.toDigits 10)) = .ok limit := by
    have h := effectiveLimit_of_range ⟨limit, by omega⟩ hlimit.1
    cases f <;> exact h
  have hfilters : paramFilters (f.query v limit sort) = onlyFilter f w :=
    paramFilters_query sort hsan
  obtain ⟨himage, hactual⟩ := misspelledNulls_onlyFilter hnull
  have hrows := extractRows_of_regular sv hfree heff (by rw [hfilters]; exact himage)
    (by rw [hfilters]; exact hactual) rows
  rw [hfilters, satisfies_onlyFilter hnull] at hrows
  exact ⟨_, hrows⟩

/-- A row that an insert reported as a success is read back by one of its values exactly
when the rewriting of the filter keeps the value, ignoring case. -/
theorem inserted_row_read_back_iff (sv : Server) (isRfc3339 : Text → Bool) (now : Timestamp)
    (table : Newsfeed sv) (body : CudPayload) (results : List CudResult)
    (hacc : Accepts body .insertFeed)
    (h : (cudFeed isRfc3339 (postgres sv now) .insertFeed body.items table).2 = .ok results)
    (item : CudParams) (result : CudResult) (hmem : (item, result) ∈ body.items.zip results)
    (hsuccess : result.status = .success) (f : FilterField) (v w : Text)
    (hv : f.value item = some v) (hsan : sanitise isKept f.maxLength v = some w)
    (limit : Nat) (hlimit : 1 ≤ limit ∧ limit ≤ 100) (sort : Option SortOrder)
    (hcount : ((cudFeed isRfc3339 (postgres sv now) .insertFeed body.items table).1.rows.countP
      (holds sv f v)) ≤ limit) :
    ∃ r ∈ (cudFeed isRfc3339 (postgres sv now) .insertFeed body.items table).1.rows,
      r ∉ table.rows ∧ (∀ g : FilterField, column g r = g.value item) ∧
      ∃ answer, extractFeed sv (f.query v limit sort)
          (cudFeed isRfc3339 (postgres sv now) .insertFeed body.items table).1.rows = .ok answer ∧
        (selectRow sv r ∈ answer ↔ sv.lower w = sv.lower v) := by
  generalize hfeed : cudFeed isRfc3339 (postgres sv now) .insertFeed body.items table = fed at *
  obtain ⟨r, hr, hnew, hnonul, hcolumns⟩ := inserted_row hacc (by rw [hfeed]; exact h) hmem hsuccess
  rw [hfeed] at hr
  have haccepted := body.accepted item (List.of_mem_zip hmem).1
  obtain ⟨order, hrows⟩ := query_rows sort (nulFree_of_contains hnonul f hv) hsan
    (fun hf => filter_ne_null haccepted hf hv hsan) hlimit fed.1.rows
  refine ⟨r, hr, hnew, hcolumns, _, by rw [extractFeed, hrows]; rfl, ?_⟩
  have hvalue : column f r = some v := by rw [hcolumns, hv]
  have hholds : holds sv f w r = true ↔ sv.lower w = sv.lower v := by
    simp only [holds, hvalue, SqlLogic.sqlEq_some_some, SqlLogic.Truth.holds_iff,
      SqlLogic.Truth.ofBool_eq_true, citextEq_iff]
    exact eq_comm
  have hselect : ∀ l : List Row, (∀ q ∈ l, q ∈ fed.1.rows) →
      (selectRow sv r ∈ l.map (selectRow sv) ↔ r ∈ l) := by
    intro l hl
    constructor
    · intro hin
      obtain ⟨q, hq, heq⟩ := List.mem_map.mp hin
      rw [← selectRow_inj fed.1 (hl q hq) hr heq]
      exact hq
    · exact List.mem_map_of_mem
  rw [hselect _ fun q hq => ?_]
  · constructor
    · intro hin
      have hin' := List.mem_of_mem_take hin
      rw [List.mem_insertionSort, List.mem_filter] at hin'
      exact hholds.mp hin'.2
    · intro heq
      have hsame : holds sv f w = holds sv f v := by
        funext q
        cases hq : column f q with
        | none => simp only [holds, hq, SqlLogic.sqlEq]
        | some u => simp only [holds, hq, SqlLogic.sqlEq_some_some, citextEq, heq]
      rw [List.take_of_length_le]
      · rw [List.mem_insertionSort, List.mem_filter]
        exact ⟨hr, hholds.mpr heq⟩
      · rw [List.length_insertionSort, hsame, ← List.countP_eq_length_filter]
        exact hcount
  · have hq' := List.mem_of_mem_take hq
    rw [List.mem_insertionSort, List.mem_filter] at hq'
    exact hq'.1

theorem hello_read_back :
    ∃ r ∈ (cudFeed sampleRfc3339 (postgres sampleServer noon) .insertFeed
        (CudPayload.single helloItem).items emptyTable).1.rows,
      r ∉ emptyTable.rows ∧ (∀ g : FilterField, column g r = g.value (sampleItem "Hello")) ∧
      ∃ answer, extractFeed sampleServer (FilterField.title.query "Hello".toList 25 none)
          (cudFeed sampleRfc3339 (postgres sampleServer noon) .insertFeed
            (CudPayload.single helloItem).items emptyTable).1.rows = .ok answer ∧
        selectRow sampleServer r ∈ answer := by
  have hfeed : (cudFeed sampleRfc3339 (postgres sampleServer noon) .insertFeed
        (CudPayload.single helloItem).items emptyTable).1.rows = [sampleRow "Hello" noon] ∧
      (cudFeed sampleRfc3339 (postgres sampleServer noon) .insertFeed
        (CudPayload.single helloItem).items emptyTable).2 =
          .ok [⟨.success, "Record(s) inserted".toList, none⟩] :=
    cudFeed_of_statement sampleServer sampleRfc3339
      [⟨"Success".toList, "Record(s) inserted".toList⟩] rfl
  have hcount : (cudFeed sampleRfc3339 (postgres sampleServer noon) .insertFeed
      (CudPayload.single helloItem).items emptyTable).1.rows.countP
        (holds sampleServer .title "Hello".toList) ≤ 25 := by
    rw [hfeed.1]
    decide
  obtain ⟨r, hr, hnew, hcolumns, answer, hanswer, hread⟩ := inserted_row_read_back_iff
    sampleServer sampleRfc3339 noon emptyTable (CudPayload.single helloItem) _ ⟨rfl, by decide⟩
    hfeed.2 (sampleItem "Hello") ⟨.success, "Record(s) inserted".toList, none⟩ List.mem_cons_self
    rfl .title "Hello".toList "Hello".toList rfl (by decide) 25 (by decide) none hcount
  exact ⟨r, hr, hnew, hcolumns, answer, hanswer, hread.mpr rfl⟩

/-- A title with a character outside the class of the reader is stored as it is, and the
title filter, rewritten to `Tea time`, does not find it. -/
theorem title_not_read_back :
    (cudFeed sampleRfc3339 (postgres sampleServer noon) .insertFeed [sampleItem "Tea ☕ time"]
        emptyTable).2 = .ok [⟨.success, "Record(s) inserted".toList, none⟩] ∧
      extractFeed sampleServer (FilterField.title.query "Tea ☕ time".toList 25 none)
        (cudFeed sampleRfc3339 (postgres sampleServer noon) .insertFeed [sampleItem "Tea ☕ time"]
          emptyTable).1.rows = .ok [] := by
  have hfeed : (cudFeed sampleRfc3339 (postgres sampleServer noon) .insertFeed
        [sampleItem "Tea ☕ time"] emptyTable).1.rows = [sampleRow "Tea ☕ time" noon] ∧
      (cudFeed sampleRfc3339 (postgres sampleServer noon) .insertFeed
        [sampleItem "Tea ☕ time"] emptyTable).2 =
          .ok [⟨.success, "Record(s) inserted".toList, none⟩] :=
    cudFeed_of_statement sampleServer sampleRfc3339
      [⟨"Success".toList, "Record(s) inserted".toList⟩] rfl
  refine ⟨hfeed.2, ?_⟩
  rw [hfeed.1]
  rfl

end PostgresReadBack
