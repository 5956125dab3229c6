import Newsfeed.PostgresExtract

/-! # Pages of the newsfeed

How the answers to requests that differ in `limit` or in `sort` alone go together: the
limit passes from the query string through the clamp of `ExtractParams::from_map` and the
rewriting of `extractnewsfeed` unchanged, and the order tells all rows of a table apart.
-/
namespace ExtractPages

open TextOperations FeedModels CudHandlers ExtractFilters PostgresProcedures PostgresExtract
open OrderedSelection

abbrev QueryMap := Text → Option Text

def SameExcept (name : String) (map map' : QueryMap) : Prop :=
  ∀ n, n ≠ name.toList → map n = map' n

/-- `limit` after the default and the clamp of `from_map`. -/
def pageLimit (map : QueryMap) : Nat :=
  max 1 (min (((map "limit".toList).bind parseU32).getD 25) 100)

theorem fromMap_limit (map : QueryMap) :
    (ExtractParams.fromMap map).limit = some (pageLimit map) := rfl

theorem pageLimit_range (map : QueryMap) : 1 ≤ pageLimit map ∧ pageLimit map ≤ 100 := by
  rw [pageLimit]
  omega

theorem effectiveLimit_pageLimit (map : QueryMap) :
    effectiveLimit (some (Nat.toDigits 10 (pageLimit map))) = .ok (pageLimit map) := by
  have hrange := pageLimit_range map
  exact effectiveLimit_of_range ⟨pageLimit map, Nat.lt_succ_of_le hrange.2⟩ hrange.1

variable {sv : Server}

structure Answerable (sv : Server) (params : ExtractParams) : Prop where
  nul : nulFree params
  image : misspelledNulls sv (paramFilters params).imageurl = 0
  actual : misspelledNulls sv (paramFilters params).actualurl = 0

def pageOrder (sv : Server) (params : ExtractParams) : SortOrder :=
  effectiveSort sv (params.sort.map SortOrder.asStr)

theorem nulFree_of_check {params : ExtractParams}
    (h : ([some OptionMode.extractFeed.asStr.toList, params.title, params.imageUrl,
      params.feedUrl, params.actualUrl, params.limit.map (Nat.toDigits 10),
      params.sort.map SortOrder.asStr].any fun p => p.any fun t => t.contains '\x00') = false) :
    nulFree params := by
  intro x hx t ht hmem
  have hall : x ∈ [some OptionMode.extractFeed.asStr.toList, params.title, params.imageUrl,
      params.feedUrl, params.actualUrl, params.limit.map (Nat.toDigits 10),
      params.sort.map SortOrder.asStr] := by
    simp only [List.mem_cons, List.not_mem_nil, or_false] at hx ⊢
    tauto
  have hno := List.any_eq_false.mp h x hall
  rw [Option.mem_def.mp ht, Option.any_some, List.contains_iff_mem] at hno
  exact hno hmem

theorem extractRows_page {map : QueryMap} {rows page : List Row}
    (h : extractRows sv (.fromMap map) rows = .ok page) :
    Answerable sv (.fromMap map) ∧
      page = select (rowOrder sv (pageOrder sv (.fromMap map)))
        (satisfies sv (paramFilters (.fromMap map))) (pageLimit map) rows := by
  have hlimit := effectiveLimit_pageLimit map
  by_cases hcheck : ([some OptionMode.extractFeed.asStr.toList,
      (ExtractParams.fromMap map).title, (ExtractParams.fromMap map).imageUrl,
      (ExtractParams.fromMap map).feedUrl, (ExtractParams.fromMap map).actualUrl,
      (ExtractParams.fromMap map).limit.map (Nat.toDigits 10),
      (ExtractParams.fromMap map).sort.map SortOrder.asStr].any
        fun p => p.any fun t => t.contains '\x00') = true
  · rw [extractRows, extractnewsfeed, if_pos hcheck] at h
    cases h
  · rw [extractRows, extractnewsfeed, if_neg hcheck, optionMode_kept, if_pos rfl, fromMap_limit,
      Option.map_some, hlimit] at h
    simp only [runQuery_eq] at h
    have hnul := nulFree_of_check (Bool.eq_false_iff.mpr hcheck)
    by_cases hnulls : misspelledNulls sv (paramFilters (.fromMap map)).imageurl = 0 ∧
        misspelledNulls sv (paramFilters (.fromMap map)).actualurl = 0
    · rw [paramFilters] at hnulls
      rw [if_pos hnulls] at h
      cases h
      exact ⟨⟨hnul, hnulls.1, hnulls.2⟩, rfl⟩
    · rw [paramFilters] at hnulls
      rw [if_neg hnulls] at h
      cases h

theorem extractRows_of_answerable {map : QueryMap} (h : Answerable sv (.fromMap map))
    (rows : List Row) :
    extractRows sv (.fromMap map) rows =
      .ok (select (rowOrder sv (pageOrder sv (.fromMap map)))
        (satisfies sv (paramFilters (.fromMap map))) (pageLimit map) rows) :=
  extractRows_of_regular sv h.nul (effectiveLimit_pageLimit map) h.image h.actual rows

section Neighbours

variable {map map' : QueryMap}

theorem fromMap_of_same_limit (h : SameExcept "limit" map map') :
    ExtractParams.fromMap map' =
      { ExtractParams.fromMap map with limit := some (pageLimit map') } := by
  simp only [ExtractParams.fromMap, ← h "title".toList (by decide),
    ← h "image_url".toList (by decide), ← h "feed_url".toList (by decide),
    ← h "actual_url".toList (by decide), ← h "sort".toList (by decide)]
  rfl

theorem fromMap_of_same_sort (h : SameExcept "sort" map map') :
    ExtractParams.fromMap map' =
      { ExtractParams.fromMap map with sort := (ExtractParams.fromMap map').sort } := by
  simp only [ExtractParams.fromMap, ← h "title".toList (by decide),
    ← h "image_url".toList (by decide), ← h "feed_url".toList (by decide),
    ← h "actual_url".toList (by decide), ← h "limit".toList (by decide)]

theorem Answerable.of_filters {params : ExtractParams} (h : Answerable sv params)
    (limit : Option Nat) (sort : Option SortOrder) :
    Answerable sv { params with limit := limit, sort := sort } :=
  ⟨h.nul, h.image, h.actual⟩

theorem pageOrder_desc {params : ExtractParams} (h : params.sort = some .desc) :
    pageOrder sv params = .desc := by
  have hsanitised : (some SortOrder.desc.asStr).bind (sanitise isLetter 255) =
      some "desc".toList := by decide
  have hlower := sv.lower_letters "desc".toList (List.all_iff_forall_prop.mp (by decide))
  rw [pageOrder, h, Option.map_some, effectiveSort, hsanitised]
  simp only [hlower, ↓reduceIte]

theorem pageOrder_asc {params : ExtractParams} (h : params.sort ≠ some .desc) :
    pageOrder sv params = .asc := by
  have hsanitised : (some SortOrder.asc.asStr).bind (sanitise isLetter 255) =
      some "asc".toList := by decide
  have hlower := sv.lower_letters "asc".toList (List.all_iff_forall_prop.mp (by decide))
  rw [pageOrder, effectiveSort]
  cases hsort : params.sort with
  | none => rfl
  | some order =>
    cases order with
    | asc =>
      rw [Option.map_some, hsanitised]
      simp only [hlower]
      rfl
    | desc => exact absurd hsort h

theorem longer_page {t : Newsfeed sv} {page : List Row} (hsame : SameExcept "limit" map map')
    (hle : pageLimit map ≤ pageLimit map')
    (h : extractRows sv (.fromMap map) t.rows = .ok page) :
    ∃ page', extractRows sv (.fromMap map') t.rows = .ok page' ∧ page <+: page' := by
  obtain ⟨hanswer, rfl⟩ := extractRows_page h
  have hmap := fromMap_of_same_limit hsame
  have hanswer' : Answerable sv (.fromMap map') := by
    rw [hmap]
    exact hanswer.of_filters _ _
  refine ⟨_, extractRows_of_answerable hanswer' t.rows, ?_⟩
  rw [hmap]
  exact select_prefix hle t.rows

theorem reversed_page {t : Newsfeed sv} {page : List Row} (hsame : SameExcept "sort" map map')
    (hasc : (ExtractParams.fromMap map).sort ≠ some .desc)
    (hdesc : (ExtractParams.fromMap map').sort = some .desc)
    (hle : (t.rows.filter (satisfies sv (paramFilters (.fromMap map)))).length ≤ pageLimit map)
    (h : extractRows sv (.fromMap map) t.rows = .ok page) :
    extractRows sv (.fromMap map') t.rows = .ok page.reverse := by
  obtain ⟨hanswer, rfl⟩ := extractRows_page h
  have hmap := fromMap_of_same_sort hsame
  have hanswer' : Answerable sv (.fromMap map') := by
    rw [hmap]
    exact hanswer.of_filters _ _
  have hlimit : pageLimit map' = pageLimit map := by
    rw [pageLimit, pageLimit, hsame "limit".toList (by decide)]
  have hfilters : paramFilters (.fromMap map') = paramFilters (.fromMap map) := by
    rw [hmap]
    rfl
  rw [extractRows_of_answerable hanswer', pageOrder_desc hdesc, pageOrder_asc hasc, hlimit,
    hfilters]
  exact congrArg Except.ok
    (select_converse (rowOrder_discerns sv .asc t) (fun _ _ => Iff.rfl) hle)

end Neighbours

def matching (t : Newsfeed sv) (map : QueryMap) : Nat :=
  t.rows.countP (satisfies sv (paramFilters (.fromMap map)))

/-- A page has as many rows as match, up to the limit. It is the beginning of the page with a
higher limit, and when it holds all matching rows the descending page is its reverse. -/
theorem pages_consistent (sv : Server) (t : Newsfeed sv) (map : QueryMap)
    (page : List NewsFeedRow) (h : extractFeed sv (.fromMap map) t.rows = .ok page) :
    ∃ limit, (ExtractParams.fromMap map).limit = some limit ∧ 1 ≤ limit ∧ limit ≤ 100 ∧
      page.length = min limit (matching t map) ∧
      (∀ map' limit', SameExcept "limit" map map' →
        (ExtractParams.fromMap map').limit = some limit' → limit ≤ limit' →
          ∃ page', extractFeed sv (.fromMap map') t.rows = .ok page' ∧ page <+: page') ∧
      (∀ map', SameExcept "sort" map map' → (ExtractParams.fromMap map).sort ≠ some .desc →
        (ExtractParams.fromMap map').sort = some .desc → matching t map ≤ limit →
          extractFeed sv (.fromMap map') t.rows = .ok page.reverse) := by
  obtain ⟨rows, hrows, rfl⟩ := FallibleOperations.map_ok h
  have hmatching : matching t map =
      (t.rows.filter (satisfies sv (paramFilters (.fromMap map)))).length :=
    List.countP_eq_length_filter
  refine ⟨pageLimit map, rfl, (pageLimit_range map).1, (pageLimit_range map).2, ?_, ?_, ?_⟩
  · rw [List.length_map, (extractRows_page hrows).2, length_select, hmatching]
  · intro map' limit' hsame hlimit' hle
    cases hlimit'
    obtain ⟨rows', hrows', hprefix⟩ := longer_page hsame hle hrows
    refine ⟨rows'.map (selectRow sv), ?_, hprefix.map _⟩
    rw [extractFeed, hrows']
    rfl
  · intro map' hsame hasc hdesc hle
    rw [hmatching] at hle
    rw [extractFeed, reversed_page hsame hasc hdesc hle hrows, ← List.map_reverse]
    rfl

def twoRows : Newsfeed sampleServer where
  rows := [sampleRow "Hello" noon, sampleRow "World" noon]
  primaryKey := List.pairwise_pair.mpr (by decide)

/-- `?limit=1` -/
def firstOnly : QueryMap := fun n => if n = "limit".toList then some "1".toList else none

/-- The page of one row is the beginning of the page with the default limit. -/
theorem two_rows_paged :
    ∃ page', extractFeed sampleServer (.fromMap fun _ => none) twoRows.rows = .ok page' ∧
      [selectRow sampleServer (sampleRow "Hello" noon)] <+: page' := by
  have hsame : SameExcept "limit" firstOnly fun _ => none := fun n hn => if_neg hn
  obtain ⟨limit, hlimit, _, _, _, hlonger, _⟩ := pages_consistent sampleServer twoRows firstOnly
    [selectRow sampleServer (sampleRow "Hello" noon)] (by decide +kernel)
  have hone : limit = 1 := by
    have heq : (ExtractParams.fromMap firstOnly).limit = some 1 := by decide
    rw [heq] at hlimit
    exact (Option.some.inj hlimit).symm
  exact hlonger (fun _ => none) 25 hsame (by decide) (by omega)

end ExtractPages
