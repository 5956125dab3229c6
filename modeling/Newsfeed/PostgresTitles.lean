import Newsfeed.PostgresResponses
import Newsfeed.PostgresExtract

/-! # PostgreSQL: when does a title exist?

The primary key and the title filter ignore case, the joins of update and delete do
not. The four operations agree on a title unless the table has it in another case only.
-/
namespace PostgresTitles

open TextOperations FallibleOperations RelationalTables FeedModels CudHandlers
open PayloadRows PostgresProcedures PostgresResponses PostgresExtract

variable {sv : Server} {isRfc3339 : Text → Bool} {now : Timestamp} {table : Newsfeed sv}
  {title : Text} {item : CudParams} {results : List CudResult}

def ReportsExists (results : List CudResult) : Prop :=
  ∃ r ∈ results, r.message = "SKIPPED_EXISTS".toList

def ReportsNotFound (results : List CudResult) : Prop :=
  ∃ r ∈ results, r.message = "SKIPPED_NOT_FOUND".toList

def ReportsSuccess (results : List CudResult) : Prop := ∃ r ∈ results, r.status = .success

def titleQuery (title : Text) (limit : Option Nat) (sort : Option SortOrder) : ExtractParams where
  title := some title
  imageUrl := none
  feedUrl := none
  actualUrl := none
  limit := limit
  sort := sort

def Finds (table : Newsfeed sv) (params : ExtractParams) : Prop :=
  ∃ rows, extractFeed sv params table.rows = .ok rows ∧ rows ≠ []

def HasTitle (table : Newsfeed sv) (title : Text) : Prop :=
  ∃ r ∈ table.rows, sv.lower r.title = sv.lower title

def HasExactTitle (table : Newsfeed sv) (title : Text) : Prop := ∃ r ∈ table.rows, r.title = title

theorem insertStatus_message {t : Option Text} :
    (insertStatus t).result.message = "SKIPPED_EXISTS".toList ↔ ¬ t.isSome = true := by
  cases t <;> simp [insertStatus, StatusRow.result]

theorem updateStatus_message {t : Option Text} {r : Option Row} :
    (updateStatus t r).result.message = "SKIPPED_NOT_FOUND".toList ↔
      ¬ t.isSome = true ∧ ¬ r.isSome = true := by
  cases t <;> cases r <;> simp [updateStatus, StatusRow.result]

theorem insert_reports (hacc : item.Accepted) (ht : item.title = some title)
    (h : (cudFeed isRfc3339 (postgres sv now) .insertFeed [item] table).2 = .ok results) :
    ReportsExists results ↔ HasTitle table title := by
  obtain ⟨statuses, hst, rfl⟩ := statement_of_cudFeed sv isRfc3339 h
  obtain ⟨parsed, new, hreads, hnew, _, rfl⟩ :=
    insert_ok sv (by simpa using hacc) table.primaryKey hst
  have hparsed := titles_of_reads sv hreads
  rw [List.map_singleton, ht] at hparsed
  have hreport : ReportsExists (([item].map fun item =>
      insertStatus ((new.map Row.title).find? (joinsTitle item.title))).map StatusRow.result) ↔
      title ∉ new.map Row.title := by
    simp only [ReportsExists, List.map_cons, List.map_nil, List.mem_singleton, exists_eq_left,
      insertStatus_message, find?_joinsTitle_isSome, ht, Option.some.injEq]
    rw [exists_eq_right']
  rw [hreport]
  constructor
  · intro hno
    have hnone : new = [] := by
      by_contra hne
      obtain ⟨r, hr⟩ := List.exists_mem_of_ne_nil new hne
      have hmem := hnew.titles.subset (List.mem_map_of_mem hr)
      rw [hparsed, List.mem_singleton, Option.some.injEq] at hmem
      exact hno (List.mem_map.mpr ⟨r, hr, hmem⟩)
    obtain ⟨p, hp⟩ : ∃ p, p ∈ parsed := List.exists_mem_of_ne_nil parsed (by
      rintro rfl
      cases hparsed)
    obtain ⟨r, hr, u, hu, heq⟩ := hnew.covered p hp
    have hpt : p.title = some title := by
      have hmem := List.mem_map_of_mem (f := ParsedItem.title) hp
      rw [hparsed] at hmem
      exact List.mem_singleton.mp hmem
    rw [hnone, List.append_nil] at hr
    rw [hpt, Option.some.injEq] at hu
    exact ⟨r, hr, hu ▸ heq⟩
  · rintro ⟨r, hr, heq⟩ hmem
    obtain ⟨q, hq, rfl⟩ := List.mem_map.mp hmem
    obtain ⟨_, _, hdisjoint⟩ := List.pairwise_append.mp (hnew.fresh table.primaryKey)
    exact hdisjoint r hr q hq heq

theorem update_reports (hacc : item.Accepted) (ht : item.title = some title)
    (h : (cudFeed isRfc3339 (postgres sv now) .updateFeed [item] table).2 = .ok results) :
    ¬ ReportsNotFound results ↔ HasExactTitle table title := by
  obtain ⟨statuses, hst, rfl⟩ := statement_of_cudFeed sv isRfc3339 h
  obtain ⟨parsed, updated, _, _, hsub, _, rfl⟩ :=
    update_ok sv (by simpa using hacc) table.primaryKey hst
  have hrow : (table.rows.find? fun r => joinsTitle (some title) r.title).isSome = true ↔
      HasExactTitle table title := by
    rw [List.find?_isSome]
    refine exists_congr fun r => and_congr_right fun _ => ?_
    rw [joinsTitle_iff, Option.some.injEq, eq_comm]
  have hupdated : (updated.find? (joinsTitle (some title))).isSome = true →
      HasExactTitle table title := by
    intro hsome
    obtain ⟨u, hu, heq⟩ := find?_joinsTitle_isSome.mp hsome
    obtain ⟨r, hr, rfl⟩ := List.mem_map.mp (hsub.subset hu)
    exact ⟨r, hr, (Option.some.inj heq).symm⟩
  simp only [ReportsNotFound, List.map_cons, List.map_nil, List.mem_singleton, exists_eq_left,
    updateStatus_message, ht, not_and_or, Classical.not_not]
  exact ⟨fun hor => hor.elim hupdated hrow.mp, fun hex => Or.inr (hrow.mpr hex)⟩

theorem delete_reports (ht : item.title = some title)
    (h : (cudFeed isRfc3339 (postgres sv now) .deleteFeed [item] table).2 = .ok results) :
    ReportsSuccess results ↔ HasExactTitle table title := by
  obtain ⟨statuses, hst, rfl⟩ := statement_of_cudFeed sv isRfc3339 h
  obtain ⟨_, _, rfl⟩ := delete_ok sv table.primaryKey hst
  simp only [ReportsSuccess, List.map_cons, List.map_nil, List.mem_singleton, exists_eq_left,
    deleteStatus_success, find?_joinsTitle_isSome, ht, Option.some.injEq, List.mem_map,
    List.mem_filter, deleteMatches_iff]
  constructor
  · rintro ⟨u, ⟨r, ⟨hr, _⟩, rfl⟩, heq⟩
    exact ⟨r, hr, heq.symm⟩
  · rintro ⟨r, hr, rfl⟩
    exact ⟨r.title, ⟨r, ⟨hr, rfl⟩, rfl⟩, rfl⟩

theorem titleQuery_finds (table : Newsfeed sv) {limit : Option Nat} (sort : Option SortOrder)
    (hlimit : ∀ n ∈ limit, 1 ≤ n ∧ n ≤ 100) (hsan : sanitise isKept 255 title = some title) :
    Finds table (titleQuery title limit sort) ↔ HasTitle table title := by
  have hnul : nulFree (titleQuery title limit sort) := by
    intro x hx t ht hmem
    simp only [titleQuery, List.mem_cons, List.not_mem_nil, or_false] at hx
    rcases hx with rfl | rfl | rfl | rfl
    · cases ht
      have hkept := sanitise_fixed isKept_blank hsan _ hmem
      rw [isKept_nul] at hkept
      cases hkept
    · cases ht
    · cases ht
    · cases ht
  obtain ⟨n, hn, heff⟩ : ∃ n, 1 ≤ n ∧ effectiveLimit (limit.map (Nat.toDigits 10)) = .ok n := by
    cases hl : limit with
    | none => exact ⟨25, by omega, rfl⟩
    | some n =>
      obtain ⟨h1, h100⟩ := hlimit n hl
      exact ⟨n, h1, effectiveLimit_of_range ⟨n, by omega⟩ h1⟩
  have hfilters : paramFilters (titleQuery title limit sort) = ⟨some title, none, none, none⟩ := by
    simp [paramFilters, filters, titleQuery, hsan]
  have hrows := extractRows_of_regular sv hnul heff (by rw [hfilters]; rfl)
    (by rw [hfilters]; rfl) table.rows
  have hasks : ∀ r, satisfies sv ⟨some title, none, none, none⟩ r = true ↔
      sv.lower r.title = sv.lower title := by
    intro r
    simp [satisfies, matchesFilter, matchesNullable]
  rw [Finds, extractFeed, hrows, hfilters]
  constructor
  · rintro ⟨rows, hout, hne⟩
    cases hout
    obtain ⟨r, hr⟩ := List.exists_mem_of_ne_nil _ fun hnil => hne (List.map_eq_nil_iff.mpr hnil)
    have hmem := List.mem_of_mem_take hr
    rw [List.mem_insertionSort, List.mem_filter, hasks] at hmem
    exact ⟨r, hmem⟩
  · rintro ⟨r, hr, heq⟩
    refine ⟨_, rfl, ?_⟩
    have hmem : r ∈ (table.rows.filter (satisfies sv ⟨some title, none, none, none⟩)).insertionSort
        (rowOrder sv (effectiveSort sv (sort.map SortOrder.asStr))) := by
      rw [List.mem_insertionSort, List.mem_filter, hasks]
      exact ⟨hr, heq⟩
    rw [ne_eq, List.map_eq_nil_iff, List.take_eq_nil_iff, not_or]
    exact ⟨by omega, List.ne_nil_of_mem hmem⟩

/-- The four operations agree on whether the title exists. -/
def OperationsAgree (inserted updated deleted : List CudResult) (found : Prop) : Prop :=
  (ReportsExists inserted ↔ ReportsSuccess deleted) ∧
    (ReportsSuccess deleted ↔ ¬ ReportsNotFound updated) ∧ (¬ ReportsNotFound updated ↔ found)

/-- On any table, one-item batches for a title and the title filter agree exactly when
the table has this very title or none that differs from it in case only. -/
theorem operations_agree_iff (sv : Server) (isRfc3339 : Text → Bool)
    (nowInsert nowUpdate nowDelete : Timestamp) (table : Newsfeed sv) (title : Text)
    (toInsert toUpdate toDelete : AcceptedItem) (limit : Option Nat) (sort : Option SortOrder)
    (hi : toInsert.val.title = some title) (hu : toUpdate.val.title = some title)
    (hd : toDelete.val.title = some title) (hlimit : ∀ n ∈ limit, 1 ≤ n ∧ n ≤ 100)
    (hsan : sanitise isKept 255 title = some title) (inserted updated deleted : List CudResult)
    (hinsert : (cudFeed isRfc3339 (postgres sv nowInsert) .insertFeed [toInsert.val] table).2 =
      .ok inserted)
    (hupdate : (cudFeed isRfc3339 (postgres sv nowUpdate) .updateFeed [toUpdate.val] table).2 =
      .ok updated)
    (hdelete : (cudFeed isRfc3339 (postgres sv nowDelete) .deleteFeed [toDelete.val] table).2 =
      .ok deleted) :
    OperationsAgree inserted updated deleted (Finds table (titleQuery title limit sort)) ↔
      (HasExactTitle table title ∨ ¬ HasTitle table title) := by
  have hfinds := titleQuery_finds table sort hlimit hsan
  rw [OperationsAgree, insert_reports toInsert.property hi hinsert,
    update_reports toUpdate.property hu hupdate, delete_reports hd hdelete, hfinds]
  have hexact : HasExactTitle table title → HasTitle table title := by
    rintro ⟨r, hr, rfl⟩
    exact ⟨r, hr, rfl⟩
  tauto

theorem operations_agree_on_hello :
    OperationsAgree [⟨.skipped, "SKIPPED_EXISTS".toList, none⟩]
      [⟨.skipped, "SKIPPED_EXISTS".toList, none⟩] [⟨.success, "Record(s) deleted".toList, none⟩]
      (Finds sampleTable (titleQuery "Hello".toList (some 25) none)) :=
  (operations_agree_iff sampleServer sampleRfc3339 (noon + 1) (noon + 1) (noon + 1) sampleTable
    "Hello".toList helloItem helloItem
    helloItem (some 25) none rfl rfl rfl (by simp) (by decide) _ _ _
    (cudFeed_of_statement sampleServer sampleRfc3339 [⟨"Skipped".toList, "SKIPPED_EXISTS".toList⟩]
      rfl).2
    (cudFeed_of_statement sampleServer sampleRfc3339 [⟨"Skipped".toList, "SKIPPED_EXISTS".toList⟩]
      rfl).2
    (cudFeed_of_statement sampleServer sampleRfc3339
      [⟨"Success".toList, "Record(s) deleted".toList⟩] rfl).2).mpr
    (Or.inl ⟨sampleRow "Hello" noon, List.mem_cons_self, rfl⟩)

/-- With only `Hello` in the table, `hello` exists for an insert and for the title filter,
but not for an update or a delete. -/
theorem operations_disagree_on_case :
    (cudFeed sampleRfc3339 (postgres sampleServer (noon + 1)) .insertFeed [sampleItem "hello"]
        sampleTable).2 = .ok [⟨.skipped, "SKIPPED_EXISTS".toList, none⟩] ∧
      (cudFeed sampleRfc3339 (postgres sampleServer (noon + 1)) .updateFeed [sampleItem "hello"]
        sampleTable).2 = .ok [⟨.skipped, "SKIPPED_NOT_FOUND".toList, none⟩] ∧
      (cudFeed sampleRfc3339 (postgres sampleServer (noon + 1)) .deleteFeed [sampleItem "hello"]
        sampleTable).2 = .ok [⟨.skipped, "SKIPPED_NOT_FOUND".toList, none⟩] ∧
      Finds sampleTable (titleQuery "hello".toList (some 25) none) ∧
      ¬ OperationsAgree [⟨.skipped, "SKIPPED_EXISTS".toList, none⟩]
        [⟨.skipped, "SKIPPED_NOT_FOUND".toList, none⟩]
        [⟨.skipped, "SKIPPED_NOT_FOUND".toList, none⟩]
        (Finds sampleTable (titleQuery "hello".toList (some 25) none)) := by
  refine ⟨(cudFeed_of_statement sampleServer sampleRfc3339
      [⟨"Skipped".toList, "SKIPPED_EXISTS".toList⟩] rfl).2,
    (cudFeed_of_statement sampleServer sampleRfc3339
      [⟨"Skipped".toList, "SKIPPED_NOT_FOUND".toList⟩] rfl).2,
    (cudFeed_of_statement sampleServer sampleRfc3339
      [⟨"Skipped".toList, "SKIPPED_NOT_FOUND".toList⟩] rfl).2, ?_, ?_⟩
  · exact (titleQuery_finds sampleTable none (by simp) (by decide)).mpr ⟨_, List.mem_cons_self, rfl⟩
  · rintro ⟨hinsert, _, _⟩
    obtain ⟨r, hr, hsuccess⟩ := hinsert.mp ⟨_, List.mem_cons_self, rfl⟩
    rw [List.mem_singleton] at hr
    rw [hr] at hsuccess
    cases hsuccess

end PostgresTitles
