import Newsfeed.ExtractFilters
import Newsfeed.PostgresProcedures
import Newsfeed.OrderedSelection

/-! # PostgreSQL: reading the newsfeed table

`extractnewsfeed` rewrites its parameters, builds the text of a query from those that
are left, and binds their values to the placeholders of the text. The query is kept
as its conditions, with the numbers of their placeholders.
-/
namespace PostgresExtract

open TextOperations FallibleOperations JsonText SqlLogic FeedModels CudHandlers
open ExtractFilters PostgresProcedures

/-- The complement of `omitTitle`, `omitImageURL`, `omitFeedURL` and `omitActualURL`. -/
def isKept (c : Char) : Bool := isFilterChar c || c == '\\'

theorem isKept_blank : isKept ' ' = true := by decide

set_option maxRecDepth 4000 in
theorem isKept_nul : isKept '\x00' = false := by decide

def isLetter (c : Char) : Bool := c.isAlpha

def isLimitChar (c : Char) : Bool := c.isDigit || c == '-'

/-- `regexp_replace` without the flag `g`: the first forbidden character becomes a blank,
the first run of blanks becomes one blank. -/
def omitFirst (kept : Char → Bool) (t : Text) : Text :=
  collapseFirstRun (replaceFirst (fun c => !kept c) ' ' t)

def sanitise (kept : Char → Bool) (maxLength : Nat) (t : Text) : Option Text :=
  nullIfEmpty (trimSpaces ((omitFirst kept t).take maxLength))

def sanitiseLimit (t : Text) : Option Text := nullIfEmpty (trimSpaces (omitFirst isLimitChar t))

def isInputSpace (c : Char) : Bool := c == ' ' || (9 ≤ c.toNat && c.toNat ≤ 13)

/-- `CAST(x AS int)`: blanks around an optional sign and digits, in range. -/
def castInt (t : Text) : Option ℤ :=
  let t := trimBy isInputSpace t
  let digits := if t.head? = some '-' ∨ t.head? = some '+' then t.tail else t
  let n : ℤ := Nat.ofDigitChars 10 digits 0
  let value := if t.head? = some '-' then -n else n
  if digits.isEmpty ∨ ¬ digits.all Char.isDigit then none
  else if -2 ^ 31 ≤ value ∧ value < 2 ^ 31 then some value
  else none

/-- `limit`: 25 unless it is given and between 1 and 100. -/
def effectiveLimit (limit : Option Text) : Except SqlError Nat :=
  match limit.bind sanitiseLimit with
  | none => .ok 25
  | some t =>
    match castInt t with
    | none => .error .invalidInteger
    | some n => if 1 ≤ n ∧ n ≤ 100 then .ok n.toNat else .ok 25

variable (sv : Server)

/-- `sort`: ascending unless it is `desc` in any case. -/
def effectiveSort (sort : Option Text) : SortOrder :=
  match sort.bind (sanitise isLetter 255) with
  | none => .asc
  | some t => if sv.lower t = "desc".toList then .desc else .asc

/-- Conditions of the `WHERE` clause. Placeholders are numbered from 1. -/
inductive Condition where
  | titleIs (placeholder : Nat)
  | imageurlIs (placeholder : Nat)
  | imageurlNull
  | feedurlIs (placeholder : Nat)
  | actualurlIs (placeholder : Nat)
  | actualurlNull
  deriving DecidableEq, Repr

def Condition.placeholders : Condition → List Nat
  | .titleIs n => [n]
  | .imageurlIs n => [n]
  | .imageurlNull => []
  | .feedurlIs n => [n]
  | .actualurlIs n => [n]
  | .actualurlNull => []

/-- `dSQLWhere` and `countInput` while the clause is built. -/
structure WhereClause where
  conditions : List Condition
  countInput : Nat

def WhereClause.bindNext (w : WhereClause) (c : Nat → Condition) : WhereClause :=
  ⟨w.conditions ++ [c w.countInput], w.countInput + 1⟩

def WhereClause.plain (w : WhereClause) (c : Condition) : WhereClause :=
  ⟨w.conditions ++ [c], w.countInput⟩

def WhereClause.nullable (w : WhereClause) (x : Option Text) (is : Nat → Condition)
    (isNull : Condition) : WhereClause :=
  match x with
  | none => w
  | some t => if sv.lower t = "null".toList then w.plain isNull else w.bindNext is

def WhereClause.required (w : WhereClause) (x : Option Text) (is : Nat → Condition) : WhereClause :=
  match x with
  | none => w
  | some _ => w.bindNext is

def whereClause (f : Filters) : WhereClause :=
  ((((WhereClause.mk [] 1).required f.title .titleIs).nullable sv f.imageurl .imageurlIs
    .imageurlNull).required f.feedurl .feedurlIs).nullable sv f.actualurl .actualurlIs
    .actualurlNull

inductive Argument where
  | citext (t : Text)
  | int (n : Nat)
  deriving DecidableEq, Repr

/-- A filter is bound unless it is exactly `null`. -/
def boundUnlessNull (x : Option Text) : List Argument :=
  match x with
  | none => []
  | some t => if t = "null".toList then [] else [.citext t]

def boundIfGiven (x : Option Text) : List Argument := (x.map Argument.citext).toList

/-- The `USING` list. The source writes one `EXECUTE` for each combination of filters that
are given and not `null`; each of them binds what is given, in this order. -/
def arguments (f : Filters) (limit : Nat) : List Argument :=
  boundIfGiven f.title ++ boundUnlessNull f.imageurl ++ boundIfGiven f.feedurl ++
    boundUnlessNull f.actualurl ++ [.int limit]

/-- The value a placeholder stands for in a comparison with a `citext` column. -/
def citextArgument (args : List Argument) (placeholder : Nat) : Option Text :=
  match args[placeholder - 1]? with
  | some (.citext t) => some t
  | _ => none

def intArgument (args : List Argument) (placeholder : Nat) : Option Nat :=
  match args[placeholder - 1]? with
  | some (.int n) => some n
  | _ => none

def Condition.truth (args : List Argument) (r : Row) : Condition → Truth
  | .titleIs n => sqlEq (citextEq sv) (some r.title) (citextArgument args n)
  | .imageurlIs n => sqlEq (citextEq sv) r.imageurl (citextArgument args n)
  | .imageurlNull => isNull r.imageurl
  | .feedurlIs n => sqlEq (citextEq sv) (some r.feedurl) (citextArgument args n)
  | .actualurlIs n => sqlEq (citextEq sv) r.actualurl (citextArgument args n)
  | .actualurlNull => isNull r.actualurl

def matchesWhere (args : List Argument) (conditions : List Condition) (r : Row) : Bool :=
  conditions.all fun c => (c.truth sv args r).holds

/-- `citext` values are ordered by the collation of their lower-case forms. -/
def compareText (a b : Text) : Ordering := sv.collate (sv.lower a) (sv.lower b)

/-- Ascending order puts `NULL`s last. -/
def compareNullable (a b : Option Text) : Ordering :=
  match a, b with
  | some a, some b => compareText sv a b
  | some _, none => .lt
  | none, some _ => .gt
  | none, none => .eq

/-- `order by publish_date, title, imageurl, feedurl, actualurl`. -/
def compareRows (a b : Row) : Ordering :=
  (compare a.publishDate b.publishDate).then <| (compareText sv a.title b.title).then <|
    (compareNullable sv a.imageurl b.imageurl).then <|
      (compareText sv a.feedurl b.feedurl).then (compareNullable sv a.actualurl b.actualurl)

/-- Descending order is the reverse of ascending order, `NULL`s first. -/
def rowOrder (sort : SortOrder) (a b : Row) : Prop :=
  match sort with
  | .asc => (compareRows sv a b).isLE = true
  | .desc => (compareRows sv b a).isLE = true

instance (sort : SortOrder) : DecidableRel (rowOrder sv sort) := fun a b => by
  cases sort <;> exact inferInstanceAs (Decidable (_ = true))

def selectRow (r : Row) : NewsFeedRow where
  titlereturn := some r.title
  imageurlreturn := r.imageurl
  feedurlreturn := some r.feedurl
  actualurlreturn := r.actualurl
  publishdatereturn := some (sv.toChar r.publishDate)

/-- The rows that the dynamic query returns: filtered, ordered, cut. A placeholder of
the wrong type or without a value raises. -/
def runQuery (w : WhereClause) (sort : SortOrder) (args : List Argument) (rows : List Row) :
    Except SqlError (List Row) :=
  if (w.conditions.flatMap Condition.placeholders).all fun n => (citextArgument args n).isSome then
    match intArgument args w.countInput with
    | none => .error .placeholders
    | some limit =>
      .ok (((rows.filter (matchesWhere sv args w.conditions)).insertionSort
        (rowOrder sv sort)).take limit)
  else .error .placeholders

def filters (title imageurl feedurl actualurl : Option Text) : Filters where
  title := title.bind (sanitise isKept 255)
  imageurl := imageurl.bind (sanitise isKept 255)
  feedurl := feedurl.bind (sanitise isKept 768)
  actualurl := actualurl.bind (sanitise isKept 255)

/-- `extractnewsfeed`; a `text` parameter cannot hold a NUL. -/
def extractnewsfeed (optionMode title imageurl feedurl actualurl limit sort : Option Text)
    (rows : List Row) : Except SqlError (List Row) :=
  if [optionMode, title, imageurl, feedurl, actualurl, limit, sort].any fun p =>
      p.any fun t => t.contains '\x00' then .error .nulCharacter
  else if optionMode.bind (sanitise isLetter 255) = some "extractNewsFeed".toList then
    match effectiveLimit limit with
    | .error e => .error e
    | .ok limit =>
      let f := filters title imageurl feedurl actualurl
      runQuery sv (whereClause sv f) (effectiveSort sv sort) (arguments f limit) rows
  else .ok []

def extractRows (params : ExtractParams) (rows : List Row) : Except SqlError (List Row) :=
  extractnewsfeed sv (some OptionMode.extractFeed.asStr.toList) params.title params.imageUrl
    params.feedUrl params.actualUrl (params.limit.map (Nat.toDigits 10))
    (params.sort.map SortOrder.asStr) rows

def extractFeed (params : ExtractParams) (rows : List Row) : Except SqlError (List NewsFeedRow) :=
  (extractRows sv params rows).map (List.map (selectRow sv))

def matchesFilter (column : Option Text) : Option Text → Bool
  | none => true
  | some t => (sqlEq (citextEq sv) column (some t)).holds

def matchesNullable (column : Option Text) : Option Text → Bool
  | none => true
  | some t =>
    if sv.lower t = "null".toList then column.isNone else matchesFilter sv column (some t)

def satisfies (f : Filters) (r : Row) : Bool :=
  matchesFilter sv (some r.title) f.title && matchesNullable sv r.imageurl f.imageurl &&
    matchesFilter sv (some r.feedurl) f.feedurl && matchesNullable sv r.actualurl f.actualurl

/-- How many filters are `null` in a spelling other than lower case. -/
def misspelledNulls : Option Text → Nat
  | none => 0
  | some t => if sv.lower t = "null".toList ∧ t ≠ "null".toList then 1 else 0

/-- The clause built so far, the values bound so far, what both ask of a row, and how
many placeholders the clause is behind. -/
structure Aligned (w : WhereClause) (args : List Argument) (asks : Row → Bool) (lag : Nat) :
    Prop where
  texts : ∀ a ∈ args, ∃ t, a = .citext t
  first : 1 ≤ w.countInput
  count : w.countInput + lag = args.length + 1
  earlier : ∀ n ∈ w.conditions.flatMap Condition.placeholders, 1 ≤ n ∧ n < w.countInput
  truth : lag = 0 → ∀ rest r, matchesWhere sv (args ++ rest) w.conditions r = asks r

variable {sv} {w : WhereClause} {args : List Argument} {asks : Row → Bool} {lag : Nat}

theorem aligned_start (sv : Server) : Aligned sv ⟨[], 1⟩ [] (fun _ => true) 0 where
  texts := by simp
  first := Nat.le_refl 1
  count := rfl
  earlier := by simp
  truth := fun _ _ _ => rfl

theorem citextArgument_last (args rest : List Argument) (t : Text) :
    citextArgument (args ++ .citext t :: rest) (args.length + 1) = some t := by
  simp [citextArgument]

theorem matchesWhere_append (conditions : List Condition) (c : Condition) (r : Row) :
    matchesWhere sv args (conditions ++ [c]) r =
      (matchesWhere sv args conditions r && (c.truth sv args r).holds) := by
  simp [matchesWhere]

theorem texts_append (h : ∀ a ∈ args, ∃ t, a = Argument.citext t) (t : Text) :
    ∀ a ∈ args ++ [Argument.citext t], ∃ t, a = .citext t := by
  intro a ha
  rcases List.mem_append.mp ha with ha | ha
  · exact h a ha
  · exact ⟨t, List.mem_singleton.mp ha⟩

theorem Aligned.bindNext (h : Aligned sv w args asks lag) {is : Nat → Condition}
    {column : Row → Option Text} (hp : ∀ n, (is n).placeholders = [n])
    (ht : ∀ args r n, (is n).truth sv args r =
      sqlEq (citextEq sv) (column r) (citextArgument args n))
    (t : Text) :
    Aligned sv (w.bindNext is) (args ++ [.citext t])
      (fun r => asks r && matchesFilter sv (column r) (some t)) lag where
  texts := texts_append h.texts t
  first := Nat.le_succ_of_le h.first
  count := by
    have := h.count
    simp only [WhereClause.bindNext, List.length_append, List.length_singleton]
    omega
  earlier := by
    intro n hn
    have hfirst := h.first
    simp only [WhereClause.bindNext, List.flatMap_append, List.flatMap_singleton, hp,
      List.mem_append, List.mem_singleton] at hn ⊢
    rcases hn with hn | rfl
    · have := h.earlier n hn
      omega
    · omega
  truth := by
    intro hlag rest r
    have hcount : w.countInput = args.length + 1 := by
      have := h.count
      omega
    rw [WhereClause.bindNext, matchesWhere_append, List.append_assoc, h.truth hlag, ht, hcount,
      List.singleton_append, citextArgument_last]
    rfl

theorem Aligned.plain (h : Aligned sv w args asks lag) {c : Condition} {test : Row → Bool}
    (hp : c.placeholders = []) (ht : ∀ args r, (c.truth sv args r).holds = test r) :
    Aligned sv (w.plain c) args (fun r => asks r && test r) lag where
  texts := h.texts
  first := h.first
  count := h.count
  earlier := by
    intro n hn
    simp only [WhereClause.plain, List.flatMap_append, List.flatMap_singleton, hp,
      List.append_nil] at hn
    exact h.earlier n hn
  truth := by
    intro hlag rest r
    rw [WhereClause.plain, matchesWhere_append, h.truth hlag, ht]

theorem Aligned.skip (h : Aligned sv w args asks lag) (t : Text) (asks' : Row → Bool) :
    Aligned sv w (args ++ [.citext t]) asks' (lag + 1) where
  texts := texts_append h.texts t
  first := h.first
  count := by
    have := h.count
    rw [List.length_append, List.length_singleton]
    omega
  earlier := h.earlier
  truth := fun hlag => absurd hlag (Nat.succ_ne_zero lag)

theorem Aligned.required (h : Aligned sv w args asks lag) (is : Nat → Condition)
    (column : Row → Option Text) (hp : ∀ n, (is n).placeholders = [n])
    (ht : ∀ args r n, (is n).truth sv args r =
      sqlEq (citextEq sv) (column r) (citextArgument args n))
    (x : Option Text) :
    Aligned sv (w.required x is) (args ++ boundIfGiven x)
      (fun r => asks r && matchesFilter sv (column r) x) lag := by
  cases x with
  | none => simpa [WhereClause.required, boundIfGiven, matchesFilter] using h
  | some t => exact h.bindNext hp ht t

theorem lower_null : sv.lower "null".toList = "null".toList :=
  sv.lower_letters _ (List.all_iff_forall_prop.mp (by decide))

theorem Aligned.nullable (h : Aligned sv w args asks lag) (is : Nat → Condition)
    (isNull : Condition) (column : Row → Option Text) (hp : ∀ n, (is n).placeholders = [n])
    (ht : ∀ args r n, (is n).truth sv args r =
      sqlEq (citextEq sv) (column r) (citextArgument args n))
    (hpn : isNull.placeholders = [])
    (htn : ∀ args r, (isNull.truth sv args r).holds = (column r).isNone) (x : Option Text) :
    Aligned sv (w.nullable sv x is isNull) (args ++ boundUnlessNull x)
      (fun r => asks r && matchesNullable sv (column r) x) (lag + misspelledNulls sv x) := by
  cases x with
  | none => simpa [WhereClause.nullable, boundUnlessNull, matchesNullable, misspelledNulls] using h
  | some t =>
    simp only [WhereClause.nullable, boundUnlessNull, matchesNullable, misspelledNulls]
    by_cases hnull : sv.lower t = "null".toList
    · by_cases hexact : t = "null".toList
      · simp only [hexact, lower_null, ↓reduceIte, ne_eq, not_true_eq_false, and_false,
          List.append_nil, Nat.add_zero]
        exact h.plain hpn htn
      · simp only [hnull, hexact, ↓reduceIte, ne_eq, not_false_eq_true, and_self]
        exact (h.plain hpn htn).skip t _
    · have hexact : t ≠ "null".toList := by
        rintro rfl
        exact hnull lower_null
      simp only [hnull, hexact, ↓reduceIte, false_and, Nat.add_zero]
      exact h.bindNext hp ht t

theorem aligned_filters (sv : Server) (f : Filters) :
    Aligned sv (whereClause sv f)
      (boundIfGiven f.title ++ boundUnlessNull f.imageurl ++ boundIfGiven f.feedurl ++
        boundUnlessNull f.actualurl) (satisfies sv f)
      (misspelledNulls sv f.imageurl + misspelledNulls sv f.actualurl) := by
  have htitle := (aligned_start sv).required .titleIs (fun r => some r.title) (fun _ => rfl)
    (fun _ _ _ => rfl) f.title
  have himage := htitle.nullable .imageurlIs .imageurlNull Row.imageurl (fun _ => rfl)
    (fun _ _ _ => rfl) rfl
    (fun _ _ => isNull_holds) f.imageurl
  have hfeed := himage.required .feedurlIs (fun r => some r.feedurl) (fun _ => rfl)
    (fun _ _ _ => rfl) f.feedurl
  have hactual := hfeed.nullable .actualurlIs .actualurlNull Row.actualurl (fun _ => rfl)
    (fun _ _ _ => rfl) rfl
    (fun _ _ => isNull_holds) f.actualurl
  have hasks : satisfies sv f = fun r => satisfies sv f r := rfl
  rw [hasks]
  simpa [whereClause, satisfies] using hactual

/-- The whole query: it raises when a `null` is misspelled, and otherwise returns the
first rows, in order, of those that satisfy the filters. -/
theorem runQuery_eq (f : Filters) (sort : SortOrder) (limit : Nat) (rows : List Row) :
    runQuery sv (whereClause sv f) sort (arguments f limit) rows =
      if misspelledNulls sv f.imageurl = 0 ∧ misspelledNulls sv f.actualurl = 0 then
        .ok (((rows.filter (satisfies sv f)).insertionSort (rowOrder sv sort)).take limit)
      else .error .placeholders := by
  have h := aligned_filters sv f
  generalize hargs : boundIfGiven f.title ++ boundUnlessNull f.imageurl ++ boundIfGiven f.feedurl ++
    boundUnlessNull f.actualurl = args at h
  have harguments : arguments f limit = args ++ [.int limit] := by rw [arguments, hargs]
  have hbound : ((whereClause sv f).conditions.flatMap Condition.placeholders).all
      (fun n => (citextArgument (args ++ [.int limit]) n).isSome) = true := by
    rw [List.all_eq_true]
    intro n hn
    obtain ⟨hn1, hn2⟩ := h.earlier n hn
    have hcount := h.count
    have hlt : n - 1 < args.length := by omega
    obtain ⟨t, ht⟩ := h.texts _ (List.getElem_mem hlt)
    simp [citextArgument, List.getElem?_append_left hlt, List.getElem?_eq_getElem hlt, ht]
  have hcount := h.count
  have hfirst := h.first
  rw [harguments, runQuery, if_pos hbound]
  split_ifs with hnone
  · have hlast : (whereClause sv f).countInput - 1 = args.length := by omega
    have hmatches : matchesWhere sv (args ++ [.int limit]) (whereClause sv f).conditions =
        satisfies sv f := funext fun r => h.truth (by omega) [.int limit] r
    simp only [intArgument, hlast, List.getElem?_concat_length, hmatches]
  · have hlt : (whereClause sv f).countInput - 1 < args.length := by omega
    obtain ⟨t, ht⟩ := h.texts _ (List.getElem_mem hlt)
    simp [intArgument, List.getElem?_append_left hlt, List.getElem?_eq_getElem hlt, ht]

theorem sanitise_sublist {kept : Char → Bool} {maxLength : Nat} {t u : Text}
    (h : sanitise kept maxLength t = some u) :
    u.Sublist (replaceFirst (fun c => !kept c) ' ' t) := by
  obtain ⟨rfl, _⟩ := nullIfEmpty_eq_some.mp h
  exact (trimBy_sublist isSpace _).trans
    ((List.take_sublist maxLength _).trans (collapseFirstRun_sublist _))

theorem sanitise_fixed {kept : Char → Bool} (hblank : kept ' ' = true) {maxLength : Nat} {t : Text}
    (h : sanitise kept maxLength t = some t) : ∀ c ∈ t, kept c = true := by
  have hsub := sanitise_sublist h
  have heq := hsub.eq_of_length (replaceFirst_length _ _ t).symm
  intro c hc
  simpa using replaceFirst_eq_self (by simpa using hblank) heq.symm c hc

def paramFilters (params : ExtractParams) : Filters :=
  filters params.title params.imageUrl params.feedUrl params.actualUrl

def nulFree (params : ExtractParams) : Prop :=
  ∀ x ∈ [params.title, params.imageUrl, params.feedUrl, params.actualUrl], ∀ t ∈ x, '\x00' ∉ t

theorem optionMode_kept :
    (some OptionMode.extractFeed.asStr.toList).bind (sanitise isLetter 255) =
      some "extractNewsFeed".toList := by decide

theorem effectiveLimit_of_range :
    ∀ n : Fin 101, 1 ≤ n.val → effectiveLimit (some (Nat.toDigits 10 n)) = .ok n.val := by decide

theorem nul_check_eq_false {params : ExtractParams} (h : nulFree params) :
    ([some OptionMode.extractFeed.asStr.toList, params.title, params.imageUrl, params.feedUrl,
      params.actualUrl, params.limit.map (Nat.toDigits 10), params.sort.map SortOrder.asStr].any
        fun p => p.any fun t => t.contains '\x00') = false := by
  have hlimit : ∀ n, (Nat.toDigits 10 n).contains '\x00' = false := by
    intro n
    by_contra hc
    have hmem : '\x00' ∈ Nat.toDigits 10 n := by simpa using hc
    exact absurd (toDigits_all_digits n _ hmem) (by decide)
  have hfilter : ∀ x ∈ [params.title, params.imageUrl, params.feedUrl, params.actualUrl],
      (x.any fun t => t.contains '\x00') = false := by
    intro x hx
    cases hxt : x with
    | none => rfl
    | some t => simpa using h x hx t hxt
  simp only [List.mem_cons, List.not_mem_nil, or_false, forall_eq_or_imp, forall_eq] at hfilter
  obtain ⟨h1, h2, h3, h4⟩ := hfilter
  simp only [List.any_cons, List.any_nil, h1, h2, h3, h4, Bool.or_false, Bool.false_or,
    Bool.or_eq_false_iff]
  refine ⟨by decide, ?_, ?_⟩
  · cases params.limit with
    | none => rfl
    | some n => exact hlimit n
  · cases params.sort with
    | none => rfl
    | some o => cases o <;> decide

/-- With usable parameters the first rows in order are returned, of those that satisfy
the filters as they were rewritten. -/
theorem extractRows_of_regular (sv : Server) {params : ExtractParams} {limit : Nat}
    (hnul : nulFree params)
    (hlimit : effectiveLimit (params.limit.map (Nat.toDigits 10)) = .ok limit)
    (hi : misspelledNulls sv (paramFilters params).imageurl = 0)
    (ha : misspelledNulls sv (paramFilters params).actualurl = 0) (rows : List Row) :
    extractRows sv params rows =
      .ok (((rows.filter (satisfies sv (paramFilters params))).insertionSort
        (rowOrder sv (effectiveSort sv (params.sort.map SortOrder.asStr)))).take limit) := by
  have hcheck := nul_check_eq_false hnul
  rw [paramFilters] at hi ha ⊢
  rw [extractRows, extractnewsfeed, hcheck, if_neg Bool.false_ne_true, optionMode_kept, if_pos rfl,
    hlimit]
  simp only [runQuery_eq, hi, ha, and_self, ↓reduceIte]

theorem extractRows_cases (sv : Server) (params : ExtractParams) :
    (∃ e, ∀ rows, extractRows sv params rows = .error e) ∨
      ∃ limit, ∀ rows, extractRows sv params rows =
        .ok (((rows.filter (satisfies sv (paramFilters params))).insertionSort
          (rowOrder sv (effectiveSort sv (params.sort.map SortOrder.asStr)))).take limit) := by
  simp only [extractRows, extractnewsfeed, optionMode_kept, ↓reduceIte]
  split_ifs with hcheck
  · exact Or.inl ⟨_, fun _ => rfl⟩
  cases hlimit : effectiveLimit (params.limit.map (Nat.toDigits 10)) with
  | error e => exact Or.inl ⟨e, fun _ => rfl⟩
  | ok limit =>
    simp only [runQuery_eq, paramFilters]
    split_ifs
    · exact Or.inr ⟨limit, fun _ => rfl⟩
    · exact Or.inl ⟨_, fun _ => rfl⟩

theorem mem_of_extractRows {params : ExtractParams} {rows result : List Row}
    (h : extractRows sv params rows = .ok result) {r : Row} (hr : r ∈ result) :
    r ∈ rows ∧ satisfies sv (paramFilters params) r = true := by
  obtain ⟨e, he⟩ | ⟨limit, hok⟩ := extractRows_cases sv params
  · rw [he] at h
    cases h
  · rw [hok] at h
    cases h
    have hmem := List.mem_of_mem_take hr
    rw [List.mem_insertionSort, List.mem_filter] at hmem
    exact hmem

section Order

open OrderedSelection RelationalTables

variable (sv : Server)

theorem compareText_trans : Std.TransCmp (compareText sv) :=
  transCmp_comap sv.collate_trans sv.lower

theorem compareNullable_trans : Std.TransCmp (compareNullable sv) := by
  have hside : Ordering.gt ≠ .eq := by decide
  exact transCmp_option (compareText_trans sv) hside (fun _ _ => rfl) rfl (fun _ => rfl)
    fun _ => rfl

theorem compareRows_trans : Std.TransCmp (compareRows sv) := by
  have h1 : Std.TransCmp fun a b : Row => compare a.publishDate b.publishDate :=
    transCmp_comap inferInstance Row.publishDate
  have h2 := transCmp_comap (compareText_trans sv) Row.title
  have h3 := transCmp_comap (compareNullable_trans sv) Row.imageurl
  have h4 := transCmp_comap (compareText_trans sv) Row.feedurl
  have h5 := transCmp_comap (compareNullable_trans sv) Row.actualurl
  exact inferInstanceAs (Std.TransCmp (compareLex _ (compareLex _ (compareLex _ (compareLex _ _)))))

instance (sort : SortOrder) : Std.Total (rowOrder sv sort) where
  total := by
    intro a b
    cases sort with
    | asc => exact isLE_total (compareRows_trans sv) a b
    | desc => exact isLE_total (compareRows_trans sv) b a

instance (sort : SortOrder) : IsTrans Row (rowOrder sv sort) where
  trans := by
    have h := compareRows_trans sv
    intro a b c hab hbc
    cases sort with
    | asc => exact h.isLE_trans hab hbc
    | desc => exact h.isLE_trans hbc hab

theorem titleKey_of_compareRows {a b : Row} (h : compareRows sv a b = .eq) :
    titleKey sv a = titleKey sv b := by
  simp only [compareRows, Ordering.then_eq_eq] at h
  exact sv.collate_eq _ _ h.2.1

theorem rowOrder_discerns (sort : SortOrder) (t : Newsfeed sv) :
    Discerns (rowOrder sv sort) t.rows := by
  have horiented := (compareRows_trans sv).toOrientedCmp
  intro a ha b hb hab hba
  apply t.primaryKey.eq_of_mem ha hb
  apply titleKey_of_compareRows
  cases sort with
  | asc => exact Std.OrientedCmp.isLE_antisymm hab hba
  | desc => exact Std.OrientedCmp.isLE_antisymm hba hab

end Order

theorem selectRow_inj (t : Newsfeed sv) {q r : Row} (hq : q ∈ t.rows) (hr : r ∈ t.rows)
    (h : selectRow sv q = selectRow sv r) : q = r := by
  have htitle : q.title = r.title := by simpa [selectRow] using congrArg NewsFeedRow.titlereturn h
  exact t.primaryKey.eq_of_mem hq hr (congrArg sv.lower htitle)

end PostgresExtract
