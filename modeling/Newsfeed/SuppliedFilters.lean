import Newsfeed.MariadbExtract
import Newsfeed.MssqlExtract
import Newsfeed.PostgresReadBack

/-! # Supplied filters

The extract procedures rewrite a filter before they use it, and leave out a filter of
which nothing remains. What remains is what the returned rows satisfy.
-/
namespace SuppliedFilters

open TextOperations FallibleOperations SqlLogic FeedModels CudHandlers ExtractFilters

def isNullable : FilterField → Bool
  | .imageUrl => true
  | .actualUrl => true
  | _ => false

def column (f : FilterField) (r : NewsFeedRow) : Option Text :=
  match f with
  | .title => r.titlereturn
  | .imageUrl => r.imageurlreturn
  | .feedUrl => r.feedurlreturn
  | .actualUrl => r.actualurlreturn

inductive Reading where
  | postgres (sv : PostgresProcedures.Server) (table : PostgresProcedures.Newsfeed sv)
  | mariadb (sv : MariadbExtract.Server) (v : MariadbExtract.UserVariables)
      (rows : List MariadbProcedures.Row)
  | mssql (sv : MssqlExtract.ReadingServer) (table : MssqlProcedures.NewsFeed sv.toServer)

namespace Reading

variable (s : Reading)

def extractFeed (params : ExtractParams) : Except SqlError (List NewsFeedRow) :=
  match s with
  | postgres sv table => PostgresExtract.extractFeed sv params table.rows
  | mariadb sv v rows => MariadbExtract.extractFeed sv params v rows
  | mssql sv table => MssqlExtract.extractFeed sv params table.rows

/-- What the procedure makes of a filter, if anything is left of it. -/
def sanitise (f : FilterField) (t : Text) : Option Text :=
  match s with
  | postgres _ _ => PostgresExtract.sanitise PostgresExtract.isKept f.maxLength t
  | mariadb sv _ _ => MariadbExtract.sanitise sv MariadbExtract.filterClass f.maxLength t
  | mssql sv _ =>
    match MssqlExtract.sanitise sv MssqlExtract.omitTitle f.maxLength (some t) with
    | .error _ => none
    | .ok u => u.map OmitCharacters.decode

def equal (a b : Text) : Bool :=
  match s with
  | postgres sv _ => PostgresProcedures.citextEq sv a b
  | mariadb sv _ _ => sv.coll.eq a b
  | mssql sv _ => MssqlProcedures.textEq sv.toServer a b

/-- The text is `null`, in the engine's spellings. -/
def asksNull (t : Text) : Bool :=
  match s with
  | postgres sv _ => sv.lower t == "null".toList
  | mariadb sv _ _ => MariadbExtract.asksNull sv t
  | mssql sv _ => MssqlExtract.asksNull sv (some t)

/-- The value of a column satisfies a filter. -/
def Satisfies (f : FilterField) (value : Option Text) (u : Text) : Prop :=
  if isNullable f && s.asksNull u then value = none
  else ∃ v, value = some v ∧ s.equal v u = true

/-- A filter of the query that is left after the rewriting, and is `null`. -/
def nullAsked (params : ExtractParams) (f : FilterField) : Bool :=
  ((f.supplied params).bind (s.sanitise f)).any s.asksNull

/-- On SQL Server the filter on `actual_url` is covered when it is `null` exactly if the one
on `image_url` is. -/
def Covered (params : ExtractParams) (f : FilterField) : Prop :=
  match s with
  | mssql _ _ => f = .actualUrl → s.nullAsked params .imageUrl = s.nullAsked params .actualUrl
  | _ => True

end Reading

section Engines

variable {f : FilterField} {value : Option Text} {t u : Text} {params : ExtractParams}

theorem satisfies_of_required {s : Reading} (hf : isNullable f = false)
    (h : ∃ v, value = some v ∧ s.equal v u = true) : s.Satisfies f value u := by
  rw [Reading.Satisfies, hf, Bool.false_and, if_neg Bool.false_ne_true]
  exact h

theorem satisfies_of_nullable {s : Reading} (hf : isNullable f = true)
    (h : if s.asksNull u then value = none else ∃ v, value = some v ∧ s.equal v u = true) :
    s.Satisfies f value u := by
  rw [Reading.Satisfies, hf, Bool.true_and]
  exact h

theorem satisfies_of_matches {s : Reading} {filters : Filters} {row : NewsFeedRow}
    {plain nullable : Option Text → Option Text → Bool}
    (hplain : ∀ c, plain c (some u) = true → ∃ v, c = some v ∧ s.equal v u = true)
    (hnullable : ∀ c, nullable c (some u) = true → if s.asksNull u then c = none
      else ∃ v, c = some v ∧ s.equal v u = true)
    (h : (plain row.titlereturn filters.title && nullable row.imageurlreturn filters.imageurl &&
      plain row.feedurlreturn filters.feedurl &&
      nullable row.actualurlreturn filters.actualurl) = true)
    (hu : f.rewritten filters = some u) : s.Satisfies f (column f row) u := by
  simp only [Bool.and_eq_true] at h
  obtain ⟨⟨⟨htitle, himage⟩, hfeed⟩, hactual⟩ := h
  cases f with
  | title =>
    rw [show filters.title = some u from hu] at htitle
    exact satisfies_of_required rfl (hplain _ htitle)
  | imageUrl =>
    rw [show filters.imageurl = some u from hu] at himage
    exact satisfies_of_nullable rfl (hnullable _ himage)
  | feedUrl =>
    rw [show filters.feedurl = some u from hu] at hfeed
    exact satisfies_of_required rfl (hplain _ hfeed)
  | actualUrl =>
    rw [show filters.actualurl = some u from hu] at hactual
    exact satisfies_of_nullable rfl (hnullable _ hactual)

theorem postgres_rewritten (f : FilterField) (params : ExtractParams) :
    f.rewritten (PostgresExtract.paramFilters params) =
      (f.supplied params).bind (PostgresExtract.sanitise PostgresExtract.isKept f.maxLength) := by
  cases f <;> rfl

theorem postgres_satisfies {sv : PostgresProcedures.Server} {table : PostgresProcedures.Newsfeed sv}
    {filters : Filters} {r : PostgresProcedures.Row}
    (h : PostgresExtract.satisfies sv filters r = true) (hu : f.rewritten filters = some u) :
    (Reading.postgres sv table).Satisfies f (column f (PostgresExtract.selectRow sv r)) u := by
  have hplain : ∀ c, PostgresExtract.matchesFilter sv c (some u) = true →
      ∃ w, c = some w ∧ (Reading.postgres sv table).equal w u = true := by
    intro c hc
    rw [PostgresExtract.matchesFilter, Truth.holds_iff, sqlEq_eq_true] at hc
    obtain ⟨w, _, hw, ⟨⟩, heq⟩ := hc
    exact ⟨w, hw, heq⟩
  refine satisfies_of_matches hplain (fun c hc => ?_) h hu
  rw [PostgresExtract.matchesNullable] at hc
  by_cases hnull : sv.lower u = "null".toList
  · rw [if_pos hnull] at hc
    rw [Reading.asksNull, if_pos (beq_iff_eq.mpr hnull)]
    exact Option.isNone_iff_eq_none.mp hc
  · rw [if_neg hnull] at hc
    rw [Reading.asksNull, if_neg (mt beq_iff_eq.mp hnull)]
    exact hplain c hc

theorem mariadb_rewritten (sv : MariadbExtract.Server) (f : FilterField) (params : ExtractParams) :
    f.rewritten (MariadbExtract.paramFilters sv params) = (f.supplied params).bind
      (MariadbExtract.sanitise sv MariadbExtract.filterClass f.maxLength) := by
  cases f <;> rfl

theorem mariadb_satisfies {sv : MariadbExtract.Server} {v : MariadbExtract.UserVariables}
    {rows : List MariadbProcedures.Row} {filters : Filters} {r : MariadbProcedures.Row}
    (h : MariadbExtract.satisfies sv filters r = true) (hu : f.rewritten filters = some u) :
    (Reading.mariadb sv v rows).Satisfies f (column f (MariadbExtract.selectRow sv r)) u := by
  have hplain : ∀ c, MariadbExtract.matchesFilter sv c (some u) = true →
      ∃ w, c = some w ∧ (Reading.mariadb sv v rows).equal w u = true := by
    intro c hc
    rw [MariadbExtract.matchesFilter, Truth.holds_iff, sqlEq_eq_true] at hc
    obtain ⟨w, _, hw, ⟨⟩, heq⟩ := hc
    exact ⟨w, hw, heq⟩
  refine satisfies_of_matches hplain (fun c hc => ?_) h hu
  rw [MariadbExtract.matchesNullable] at hc
  by_cases hnull : MariadbExtract.asksNull sv u = true
  · rw [if_pos hnull] at hc
    rw [Reading.asksNull, if_pos hnull]
    exact Option.isNone_iff_eq_none.mp hc
  · rw [if_neg hnull] at hc
    rw [Reading.asksNull, if_neg hnull]
    exact hplain c hc

theorem mssql_rewritten {sv : MssqlExtract.ReadingServer}
    (table : MssqlProcedures.NewsFeed sv.toServer)
    {filters : Filters} (h : MssqlExtract.paramFilters sv params = .ok filters) (f : FilterField) :
    f.rewritten filters = (f.supplied params).bind ((Reading.mssql sv table).sanitise f) := by
  obtain ⟨htitle, himage, hfeed, hactual⟩ := MssqlExtract.filters_eq_ok.mp h
  have hone : ∀ (x : Option Text) (y : Option Text) (n : Nat),
      (MssqlExtract.sanitise sv MssqlExtract.omitTitle n x).map (Option.map OmitCharacters.decode) =
        .ok y → y = x.bind fun t =>
          match MssqlExtract.sanitise sv MssqlExtract.omitTitle n (some t) with
          | .error _ => none
          | .ok u => u.map OmitCharacters.decode := by
    intro x y n hy
    cases x with
    | none => exact (Except.ok.inj hy).symm
    | some t =>
      rw [Option.bind_some]
      cases hsan : MssqlExtract.sanitise sv MssqlExtract.omitTitle n (some t) with
      | error e =>
        rw [hsan] at hy
        cases hy
      | ok u =>
        rw [hsan] at hy
        exact (Except.ok.inj hy).symm
  cases f with
  | title => exact hone _ _ _ htitle
  | imageUrl => exact hone _ _ _ himage
  | feedUrl => exact hone _ _ _ hfeed
  | actualUrl => exact hone _ _ _ hactual

theorem mssql_satisfies {sv : MssqlExtract.ReadingServer}
    {table : MssqlProcedures.NewsFeed sv.toServer}
    {filters : Filters} {r : MssqlProcedures.Row}
    (h : MssqlExtract.matchesWhere sv filters r = true) (hu : f.rewritten filters = some u)
    (hcovered : f = .actualUrl →
      filters.imageurl.any (Reading.mssql sv table).asksNull =
        filters.actualurl.any (Reading.mssql sv table).asksNull) :
    (Reading.mssql sv table).Satisfies f (column f (MssqlExtract.selectRow sv r)) u := by
  obtain ⟨htitle, himage, hfeed, hactual⟩ := (MssqlExtract.matchesWhere_iff filters r).mp h
  have hasks : ∀ x : Option Text, MssqlExtract.asksNull sv x =
      x.any (Reading.mssql sv table).asksNull := by
    intro x
    cases x <;> rfl
  cases f with
  | title => exact satisfies_of_required rfl ⟨r.title, rfl, htitle u hu⟩
  | imageUrl =>
    have hsome : filters.imageurl = some u := hu
    have himage' := himage u hsome
    rw [hasks, hsome, Option.any_some] at himage'
    exact satisfies_of_nullable rfl himage'
  | feedUrl => exact satisfies_of_required rfl ⟨r.feedurl, rfl, hfeed u hu⟩
  | actualUrl =>
    have hsome : filters.actualurl = some u := hu
    have hactual' := hactual u hsome
    rw [hasks, hcovered rfl, hsome, Option.any_some] at hactual'
    exact satisfies_of_nullable rfl hactual'

end Engines

/-- What the rewriting leaves of a supplied filter is satisfied by every returned row. -/
theorem supplied_filter_applied (s : Reading) (params : ExtractParams) {rows : List NewsFeedRow}
    (h : s.extractFeed params = .ok rows) {r : NewsFeedRow} (hr : r ∈ rows) {f : FilterField}
    {t u : Text} (ht : f.supplied params = some t) (hu : s.sanitise f t = some u)
    (hcovered : s.Covered params f) : s.Satisfies f (column f r) u := by
  have hbound : (f.supplied params).bind (s.sanitise f) = some u := by
    rw [ht, Option.bind_some, hu]
  cases s with
  | postgres sv table =>
    obtain ⟨result, hresult, rfl⟩ := map_ok h
    obtain ⟨q, hq, rfl⟩ := List.mem_map.mp hr
    obtain ⟨_, hsat⟩ := PostgresExtract.mem_of_extractRows hresult hq
    exact postgres_satisfies hsat ((postgres_rewritten f params).trans hbound)
  | mariadb sv v table =>
    obtain ⟨result, hresult, rfl⟩ := map_ok h
    obtain ⟨q, hq, rfl⟩ := List.mem_map.mp hr
    obtain ⟨_, hsat⟩ := MariadbExtract.mem_of_extractRows hresult hq
    exact mariadb_satisfies hsat ((mariadb_rewritten sv f params).trans hbound)
  | mssql sv table =>
    obtain ⟨result, hresult, rfl⟩ := map_ok h
    obtain ⟨q, hq, rfl⟩ := List.mem_map.mp hr
    obtain ⟨_, filters, hfilters, hsat⟩ := MssqlExtract.mem_of_extractRows hresult hq
    have hrewritten := mssql_rewritten table hfilters
    refine mssql_satisfies hsat ((hrewritten f).trans hbound) fun hf => ?_
    have hasked := hcovered hf
    unfold Reading.nullAsked at hasked
    rw [← hrewritten, ← hrewritten] at hasked
    exact hasked

def helloReading : Reading :=
  .postgres PostgresProcedures.sampleServer PostgresProcedures.sampleTable

def helloRow : NewsFeedRow :=
  PostgresExtract.selectRow PostgresProcedures.sampleServer
    (PostgresProcedures.sampleRow "Hello" PostgresProcedures.noon)

def titleOnly (title : String) : ExtractParams := FilterField.title.query title.toList 25 none

theorem hello_satisfied :
    helloReading.Satisfies .title (column .title helloRow) "hello".toList := by
  have hrows : helloReading.extractFeed (titleOnly "hello") = .ok [helloRow] := rfl
  exact supplied_filter_applied helloReading (titleOnly "hello") hrows List.mem_cons_self rfl
    (by decide) trivial

/-- Nothing is left of the symbol, so all rows are returned. -/
theorem symbol_ignored :
    (∃ c ∈ "☕".toList, isSpace c = false) ∧
      helloReading.extractFeed (titleOnly "☕") = .ok [helloRow] ∧
        ¬ helloReading.Satisfies .title (column .title helloRow) "☕".toList := by
  refine ⟨⟨'☕', by decide, by decide⟩, rfl, ?_⟩
  rintro ⟨v, hv, heq⟩
  cases hv
  exact absurd heq (by decide)

end SuppliedFilters
