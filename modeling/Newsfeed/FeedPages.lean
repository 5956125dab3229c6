import Newsfeed.ExtractPages
import Newsfeed.FeedStore
import Newsfeed.SuppliedFilters

/-! # Pages of the store

What the extract procedures are for: the entries that have the values asked for, in the
order of their dates and titles, up to the limit. It is what the engines return as long
as they take the values of the filters as they are given.
-/
namespace FeedPages

open TextOperations SqlLogic RelationalTables KeyedStore FeedModels ExtractFilters OrderedSelection
open ExtractPages FeedStore
open SuppliedFilters (isNullable)

def asked (params : ExtractParams) (e : Entry) : Bool :=
  [FilterField.title, .imageUrl, .feedUrl, .actualUrl].all fun f =>
    (f.supplied params).all fun t => decide (f.value e.item = some t)

structure Ranking where
  dates : Text → Text → Ordering
  titles : Text → Text → Ordering

def Ranking.compare (k : Ranking) (e f : Entry) : Ordering :=
  (k.dates e.publishDate f.publishDate).then (k.titles e.title f.title)

def Ranking.before (k : Ranking) (sort : SortOrder) (e f : Entry) : Prop :=
  match sort with
  | .asc => (k.compare e f).isLE = true
  | .desc => (k.compare f e).isLE = true

instance (k : Ranking) (sort : SortOrder) : DecidableRel (k.before sort) := fun a b => by
  cases sort <;> exact inferInstanceAs (Decidable (_ = true))

/-- Descending order must be asked for. -/
def askedOrder (params : ExtractParams) : SortOrder := params.sort.getD .asc

def page (k : Ranking) (map : QueryMap) (es : List Entry) : List Entry :=
  select (k.before (askedOrder (.fromMap map))) (asked (.fromMap map)) (pageLimit map) es

def shown (dateText : Text → Option Text) (e : Entry) : NewsFeedRow :=
  ⟨some e.title, e.imageUrl, some e.feedUrl, e.actualUrl, dateText e.publishDate⟩

section Pages

variable {k : Ranking} {map : QueryMap} {es : List Entry} {e : Entry}

theorem asked_iff {params : ExtractParams} : asked params e = true ↔
    ∀ f : FilterField, ∀ t ∈ f.supplied params, f.value e.item = some t := by
  have hfields : ∀ f : FilterField, f ∈ [FilterField.title, .imageUrl, .feedUrl, .actualUrl] := by
    intro f
    cases f <;> decide
  simp only [asked, List.all_eq_true, hfields, forall_const, Option.all_eq_true, decide_eq_true_eq,
    Option.mem_def]

theorem page_of_title (hes : DistinctOn Entry.title es) {t : Text}
    (htitle : map "title".toList = some t) (himage : map "image_url".toList = none)
    (hfeed : map "feed_url".toList = none) (hactual : map "actual_url".toList = none) :
    page k map es = (lookup Entry.title es t).toList := by
  have hasked : ∀ f : Entry, asked (.fromMap map) f = decide (f.title = t) := by
    intro f
    simp only [asked, FilterField.supplied, FilterField.value, ExtractParams.fromMap, htitle,
      himage, hfeed, hactual, Entry.item, List.all_cons, List.all_nil, Option.all_none,
      Option.all_some, Bool.and_true, Option.some.injEq]
  have hfilter : es.filter (asked (.fromMap map)) = (lookup Entry.title es t).toList := by
    rw [List.filter_congr fun f _ => hasked f, lookup]
    exact filter_key hes t
  have hlimit := (pageLimit_range map).1
  rw [page, select, hfilter]
  cases lookup Entry.title es t with
  | none => simp
  | some f => exact List.take_of_length_le hlimit

end Pages

/-- An engine leaves the values of the filters as they are, takes none of them for `null` where
that asks for rows without a value, and in the columns in use finds nothing equal to them but
themselves. -/
structure Given (sanitise : FilterField → Text → Option Text) (asksNull : Text → Bool)
    (equal : Text → Text → Bool) (U : Set Entry) (params : ExtractParams) : Prop where
  kept : ∀ f : FilterField, ∀ t ∈ f.supplied params, sanitise f t = some t
  notNull : ∀ f : FilterField, isNullable f = true → ∀ t ∈ f.supplied params, asksNull t = false
  exact : ∀ f : FilterField, ∀ t ∈ f.supplied params, ∀ e ∈ U, ∀ u ∈ f.value e.item,
    equal u t = decide (u = t)

def given (params : ExtractParams) : Filters :=
  ⟨params.title, params.imageUrl, params.feedUrl, params.actualUrl⟩

variable {sanitise : FilterField → Text → Option Text} {asksNull : Text → Bool}
  {equal : Text → Text → Bool} {U : Set Entry} {params : ExtractParams} {e : Entry}

theorem Given.filters (h : Given sanitise asksNull equal U params) {filters : Filters}
    (hfilters : ∀ f : FilterField, f.rewritten filters = (f.supplied params).bind (sanitise f)) :
    filters = given params := by
  have hsame : ∀ f : FilterField, f.rewritten filters = f.supplied params := by
    intro f
    rw [hfilters f]
    cases ht : f.supplied params with
    | none => rfl
    | some t => exact h.kept f t ht
  cases filters
  rw [given, Filters.mk.injEq]
  exact ⟨hsame .title, hsame .imageUrl, hsame .feedUrl, hsame .actualUrl⟩

theorem Given.holds (h : Given sanitise asksNull equal U params) (he : e ∈ U) {f : FilterField}
    {t : Text} (ht : f.supplied params = some t) :
    (sqlEq equal (f.value e.item) (some t)).holds = decide (f.value e.item = some t) := by
  cases hv : f.value e.item with
  | none => rfl
  | some u =>
    rw [sqlEq_some_some, h.exact f t ht e he u hv]
    by_cases hut : u = t
    · simp [hut, Truth.holds, Truth.ofBool]
    · simp [hut, Truth.holds, Truth.ofBool]

theorem asked_of_tests {plain nullable : Option Text → Option Text → Bool}
    (hplain : ∀ f : FilterField, ∀ t, f.supplied params = some t →
      plain (f.value e.item) (some t) = decide (f.value e.item = some t))
    (hnullable : ∀ f : FilterField, isNullable f = true → ∀ t, f.supplied params = some t →
      nullable (f.value e.item) (some t) = decide (f.value e.item = some t))
    (hplainNone : ∀ c, plain c none = true) (hnullableNone : ∀ c, nullable c none = true) :
    (plain (some e.title) params.title && nullable e.imageUrl params.imageUrl &&
      plain (some e.feedUrl) params.feedUrl && nullable e.actualUrl params.actualUrl) =
        asked params e := by
  have htitle : plain (some e.title) params.title =
      params.title.all fun t => decide (some e.title = some t) := by
    cases ht : params.title with
    | none => exact hplainNone _
    | some t => exact hplain .title t ht
  have himage : nullable e.imageUrl params.imageUrl =
      params.imageUrl.all fun t => decide (e.imageUrl = some t) := by
    cases ht : params.imageUrl with
    | none => exact hnullableNone _
    | some t => exact hnullable .imageUrl rfl t ht
  have hfeed : plain (some e.feedUrl) params.feedUrl =
      params.feedUrl.all fun t => decide (some e.feedUrl = some t) := by
    cases ht : params.feedUrl with
    | none => exact hplainNone _
    | some t => exact hplain .feedUrl t ht
  have hactual : nullable e.actualUrl params.actualUrl =
      params.actualUrl.all fun t => decide (e.actualUrl = some t) := by
    cases ht : params.actualUrl with
    | none => exact hnullableNone _
    | some t => exact hnullable .actualUrl rfl t ht
  rw [htitle, himage, hfeed, hactual]
  simp only [asked, List.all_cons, List.all_nil, Bool.and_true, Bool.and_assoc]
  rfl

theorem then_titles {dates titles rest : Ordering} (h : titles = .eq → rest = .eq) :
    dates.then (titles.then rest) = dates.then titles := by
  cases titles with
  | eq => rw [h rfl]; rfl
  | _ => rfl

/-- The rows of a table and the entries they stand for are sorted alike. -/
theorem select_holds {β : Type} {R : β → Entry → Prop} {rows : List β} {es : List Entry}
    (h : Holds R U rows es) {k : Ranking} {p : β → Bool} {q : Entry → Bool} {n : ℕ}
    {c : β → β → Ordering} {o : SortOrder → β → β → Prop} [∀ sort, DecidableRel (o sort)]
    (hasc : ∀ r r', o .asc r r' ↔ (c r r').isLE = true)
    (hdesc : ∀ r r', o .desc r r' ↔ (c r' r).isLE = true)
    (hpq : ∀ r e, Stands R U r e → p r = q e)
    (hcompare : ∀ r e r' e', Stands R U r e → Stands R U r' e' → (e.title = e'.title → e = e') →
      c r r' = k.compare e e') (sort : SortOrder) :
    List.Forall₂ R (select (o sort) p n rows) (select (k.before sort) q n es) := by
  have hmem : List.Forall₂ (fun r e => Stands R U r e ∧ e ∈ es) rows es := by
    have hzip := h.rows
    rw [List.forall₂_iff_get] at hzip ⊢
    exact ⟨hzip.1, fun i hi hi' => ⟨hzip.2 i hi hi', List.get_mem es ⟨i, hi'⟩⟩⟩
  have hselect := select_represented (r := o sort) (s := k.before sort) (p := p) (q := q)
    (k := n) (fun r e hr => hpq r e hr.1) (fun r e r' e' hr hr' => by
      cases sort with
      | asc =>
        rw [hasc, hcompare r e r' e' hr.1 hr'.1 (h.titles.eq_of_mem hr.2 hr'.2)]
        rfl
      | desc =>
        rw [hdesc, hcompare r' e' r e hr'.1 hr.1 (h.titles.eq_of_mem hr'.2 hr.2)]
        rfl) hmem
  exact hselect.imp fun r e hr => hr.1.1

theorem rows_shown {β : Type} {R : β → Entry → Prop} {rows : List β} {es : List Entry}
    {selectRow : β → NewsFeedRow} {dateText : Text → Option Text} (h : List.Forall₂ R rows es)
    (hrow : ∀ r e, R r e → selectRow r = shown dateText e) :
    rows.map selectRow = es.map (shown dateText) := by
  rw [← List.forall₂_eq_eq_eq, List.forall₂_map_left_iff, List.forall₂_map_right_iff]
  exact h.imp hrow

end FeedPages
