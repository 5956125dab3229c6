import Newsfeed.MariadbSessions

/-! # MariaDB: the query that a call stands for

The text of `extractnewsfeed` and its `EXECUTE` statements against the plain query: filter,
sort, take. Under one case-insensitive collation `LOWER(x) = 'null'` and `x <> 'null'` never
disagree, so some of the branches of the `EXECUTE` are dead.
-/
namespace MariadbQueries

open TextOperations SqlLogic FeedModels CudHandlers ExtractFilters OrderedSelection
open MariadbProcedures MariadbExtract MariadbSessions

/-- The collation does not see the case of letters, and tells different letters apart. -/
structure CaseInsensitive (sv : MariadbExtract.Server) : Prop where
  lower : ∀ t, sv.coll.key (sv.lower t) = sv.coll.key t
  letters : ∀ a b : Text, (∀ c ∈ a ++ b, Char.isAlpha c = true) →
    (sv.coll.key a = sv.coll.key b ↔ lowerAscii a = lowerAscii b)

section Plain

variable (sv : MariadbExtract.Server)

def holdsValue (column : Option Text) (t : Text) : Bool := column.any fun v => sv.coll.eq v t

/-- A filter on a column that cannot be asked for `NULL`. -/
def plainFilter (column x : Option Text) : Bool := x.all fun t => holdsValue sv column t

def plainNullable (column x : Option Text) : Bool :=
  x.all fun t => if sv.coll.eq t "null".toList then column.isNone else holdsValue sv column t

def plainMatches (f : Filters) (r : Row) : Bool :=
  plainFilter sv r.title f.title && plainNullable sv r.imageurl f.imageurl &&
    plainFilter sv r.feedurl f.feedurl && plainNullable sv r.actualurl f.actualurl

def plainLimit : Option ℤ → Nat
  | none => 25
  | some n => if 1 ≤ n ∧ n ≤ 100 then n.toNat else 25

def plainOrder (sort : Option Text) : SortOrder :=
  if sort.any fun t => sv.coll.eq t "desc".toList then .desc else .asc

/-- The first rows, in the chosen order, of those that match every filter. -/
def plainQuery (f : Filters) (limit : Option ℤ) (sort : Option Text) (rows : List Row) :
    List Row :=
  select (rowOrder sv (plainOrder sv sort)) (plainMatches sv f) (plainLimit limit) rows

def started (limit sort : Option Text) (v : UserVariables) : UserVariables :=
  { reset v with
    limit := some (effectiveLimit limit)
    sort := some (effectiveSort sv sort) }

def prepared (f : Filters) (limit sort : Option Text) (v : UserVariables) : UserVariables :=
  prepare sv (built sv f (started sv limit sort v))

def executed (f : Filters) (limit sort : Option Text) (v : UserVariables) (rows : List Row) :
    Except SqlError (List Row) :=
  match (prepared sv f limit sort v).queryStatement with
  | none => .error .placeholders
  | some q =>
    execute sv q (usingArguments sv (prepared sv f limit sort v) f.imageurl f.actualurl) rows

theorem extractnewsfeed_eq {optionMode title imageurl feedurl actualurl limit sort : Option Text}
    (hfits : [("optionMode", optionMode), ("title", title), ("imageurl", imageurl),
      ("feedurl", feedurl), ("actualurl", actualurl), ("limit", limit),
      ("sort", sort)].find? isTooLong = none)
    (hmode : (equalsText sv (optionMode.bind (sanitise sv letters 255))
      "extractNewsFeed").holds = true) (v : UserVariables) (rows : List Row) :
    (MariadbExtract.extractnewsfeed sv optionMode title imageurl feedurl actualurl limit sort v
        rows).2 =
      executed sv (filters sv title imageurl feedurl actualurl) (limit.bind (sanitiseLimit sv))
        (sort.bind (sanitise sv letters 255)) v rows := by
  rw [MariadbExtract.extractnewsfeed, hfits]
  dsimp only
  rw [if_pos hmode]
  rfl

end Plain

theorem count_conditionText (c : Condition) :
    (conditionText c).toList.count '?' = if c.hasMarker then 1 else 0 := by
  cases c <;> decide

theorem count_conditions (cs : List Condition) :
    (cs.flatMap fun c => " AND ".toList ++ (conditionText c).toList).count '?' =
      cs.countP Condition.hasMarker := by
  induction cs with
  | nil => rfl
  | cons c cs ih =>
    have hand : " AND ".toList.count '?' = 0 := by decide
    rw [List.flatMap_cons, List.count_append, List.count_append, hand, Nat.zero_add, ih,
      count_conditionText, List.countP_cons, Nat.add_comm]

theorem count_whereText (cs : List Condition) :
    (whereText cs).count '?' = cs.countP Condition.hasMarker := by
  cases cs with
  | nil => rfl
  | cons c cs =>
    have hwhere : " WHERE ".toList.count '?' = 0 := by decide
    rw [whereText, List.isEmpty_cons, if_neg Bool.false_ne_true, clauseText, List.count_append,
      List.count_append, hwhere, count_conditions, count_conditionText, List.countP_cons,
      Nat.zero_add, Nat.add_comm]

theorem count_queryText (q : Query) : (queryText q).count '?' = q.markers := by
  have hselect : selectText.count '?' = 0 := by decide +kernel
  have horder : (orderText q.sort).count '?' = 1 := by cases q.sort <;> decide +kernel
  rw [queryText, List.count_append, List.count_append, hselect, horder, count_whereText,
    Query.markers, Nat.zero_add]

/-- The value that the column of a condition is compared with. -/
def expected (f : Filters) : Condition → Option Text
  | .titleIs => f.title
  | .imageurlIs => f.imageurl
  | .imageurlNull => none
  | .feedurlIs => f.feedurl
  | .actualurlIs => f.actualurl
  | .actualurlNull => none

def boundValue (x : Option Text) : Argument :=
  match x with
  | none => .null
  | some t => .text t

/-- A value for each marker: that of its column, and the limit for the last one. -/
structure Supplies (f : Filters) (limit : ℤ) (q : Query) (args : List Argument) : Prop where
  count : args.length = (queryText q).count '?'
  values : args = ((q.conditions.filter Condition.hasMarker).map fun c =>
    boundValue (expected f c)) ++ [.int limit]

def Binds (f : Filters) (part : Part) : Prop :=
  part.args = (part.conditions.filter Condition.hasMarker).map fun c => boundValue (expected f c)

section Values

variable {sv : MariadbExtract.Server} {f : Filters}

theorem Binds.append {p q : Part} (hp : Binds f p) (hq : Binds f q) : Binds f (p.append q) := by
  rw [Binds, Part.append, List.filter_append, List.map_append, ← hp, ← hq]

theorem filterPart_binds {c : Condition} (hc : c.hasMarker = true) :
    Binds f (filterPart sv c (expected f c)) := by
  unfold Binds filterPart
  cases hx : expected f c with
  | none => rfl
  | some t => simp [hc, hx, boundValue]

theorem asksNull_eq (h : CaseInsensitive sv) (t : Text) :
    asksNull sv t = sv.coll.eq t "null".toList := by
  rw [asksNull, isNullText, equalsText, sqlEq_some_some, Collation.eq, h.lower, Collation.eq]
  cases sv.coll.key t == sv.coll.key "null".toList <;> rfl

theorem notNullText_eq (t : Text) :
    notNullText sv (some t) = !sv.coll.eq t "null".toList := by
  rw [notNullText, equalsText, sqlEq_some_some]
  cases sv.coll.eq t "null".toList <;> rfl

theorem isUnbound_eq_false (h : CaseInsensitive sv) (x : Option Text) : isUnbound sv x = false := by
  cases x with
  | none => rfl
  | some t =>
    rw [isUnbound, Option.any_some, asksNull_eq h, notNullText_eq, Bool.not_not, Bool.and_comm,
      Bool.and_not_self]

theorem nullablePart_binds (h : CaseInsensitive sv) {is isNull : Condition}
    (his : is.hasMarker = true) (hnull : isNull.hasMarker = false) :
    Binds f (nullablePart sv is isNull (expected f is)) := by
  unfold Binds nullablePart
  cases hx : expected f is with
  | none => rfl
  | some t =>
    simp only [asksNull_eq h, notNullText_eq]
    cases sv.coll.eq t "null".toList with
    | true => simp [hnull]
    | false => simp [his, hx, boundValue]

theorem wholePart_binds (h : CaseInsensitive sv) (f : Filters) : Binds f (wholePart sv f) := by
  have htitle : Binds f (filterPart sv .titleIs f.title) := filterPart_binds rfl
  have himage : Binds f (nullablePart sv .imageurlIs .imageurlNull f.imageurl) :=
    nullablePart_binds h rfl rfl
  have hfeed : Binds f (filterPart sv .feedurlIs f.feedurl) := filterPart_binds rfl
  have hactual : Binds f (nullablePart sv .actualurlIs .actualurlNull f.actualurl) :=
    nullablePart_binds h rfl rfl
  exact ((htitle.append himage).append hfeed).append hactual

theorem wholePart_missing (h : CaseInsensitive sv) (f : Filters) :
    (wholePart sv f).missing = 0 := by
  simp only [wholePart, Part.append, filterPart, nullablePart, isUnbound_eq_false h,
    Bool.false_eq_true, ↓reduceIte]

end Values

section Reading

variable {sv : MariadbExtract.Server}

theorem matchesFilter_eq (column x : Option Text) :
    matchesFilter sv column x = plainFilter sv column x := by
  cases x with
  | none => rfl
  | some t =>
    rw [matchesFilter, plainFilter, Option.all_some, holdsValue]
    cases column with
    | none => rfl
    | some v =>
      rw [sqlEq_some_some, Option.any_some]
      cases sv.coll.eq v t <;> rfl

theorem matchesNullable_eq (h : CaseInsensitive sv) (column x : Option Text) :
    matchesNullable sv column x = plainNullable sv column x := by
  cases x with
  | none => rfl
  | some t =>
    rw [matchesNullable, plainNullable, Option.all_some, asksNull_eq h, matchesFilter_eq]
    rfl

theorem satisfies_eq (h : CaseInsensitive sv) (f : Filters) :
    satisfies sv f = plainMatches sv f := by
  funext r
  rw [satisfies, plainMatches, matchesFilter_eq, matchesFilter_eq, matchesNullable_eq h,
    matchesNullable_eq h]

theorem effectiveLimit_eq (limit : Option Text) :
    effectiveLimit limit = (plainLimit (limit.map castSigned) : ℤ) := by
  cases limit with
  | none => rfl
  | some t =>
    rw [effectiveLimit, Option.map_some, plainLimit]
    split
    · next h => rw [Int.toNat_of_nonneg (by omega)]
    · rfl

theorem equalsText_holds (t : Text) (s : String) :
    (equalsText sv (some t) s).holds = sv.coll.eq t s.toList := by
  rw [equalsText, sqlEq_some_some]
  cases sv.coll.eq t s.toList <;> rfl

theorem eq_lower (h : CaseInsensitive sv) (t u : Text) :
    sv.coll.eq (sv.lower t) u = sv.coll.eq t u := by
  rw [Collation.eq, h.lower, Collation.eq]

theorem asc_ne_desc (h : CaseInsensitive sv) :
    sv.coll.eq "asc".toList "desc".toList = false := by
  have hkeys := h.letters "asc".toList "desc".toList (List.all_iff_forall_prop.mp (by decide))
  rw [← Bool.not_eq_true, Collation.eq_iff, hkeys]
  decide

theorem orderOfSort_eq (t : Text) :
    orderOfSort sv t = if sv.coll.eq t "desc".toList then .desc else .asc := by
  rw [orderOfSort, equalsText_holds]

theorem orderOfSort_effectiveSort (h : CaseInsensitive sv) (sort : Option Text) :
    orderOfSort sv (effectiveSort sv sort) = plainOrder sv sort := by
  have hdefault : orderOfSort sv "asc".toList = .asc := by
    rw [orderOfSort_eq, asc_ne_desc h, if_neg Bool.false_ne_true]
  cases sort with
  | none => exact hdefault
  | some t =>
    rw [effectiveSort, plainOrder, Option.any_some, equalsText_holds, equalsText_holds, eq_lower h,
      eq_lower h]
    by_cases hdesc : sv.coll.eq t "desc".toList = true
    · rw [hdesc, Bool.true_or, if_pos rfl, if_pos rfl, orderOfSort_eq, if_pos hdesc]
    · rw [if_neg hdesc]
      split
      · rw [orderOfSort_eq, if_neg hdesc]
      · exact hdefault

theorem prepared_eq (sv : MariadbExtract.Server) (f : Filters) (limit sort : Option Text)
    (v : UserVariables) :
    (prepared sv f limit sort v).queryStatement =
      some ⟨(wholePart sv f).conditions, orderOfSort sv (effectiveSort sv sort)⟩ ∧
    usingArguments sv (prepared sv f limit sort v) f.imageurl f.actualurl =
      (wholePart sv f).args ++ [.int (effectiveLimit limit)] := by
  have hreset : (started sv limit sort v).dSQLWhere = [] := rfl
  obtain ⟨hwhere, hsort, hargs⟩ := built_eq sv f hreset rfl rfl rfl rfl
  refine ⟨?_, hargs⟩
  rw [prepared, prepare, hwhere, hsort]
  rfl

/-- For sanitised parameters the `EXECUTE` supplies the markers of the prepared statement, and
what the call returns is the plain query. -/
theorem extract_refines_plain (sv : MariadbExtract.Server) (h : CaseInsensitive sv) (f : Filters)
    (limit sort : Option Text) (v : UserVariables) (rows : List Row) :
    (∃ q, (prepared sv f limit sort v).queryStatement = some q ∧
      Supplies f (plainLimit (limit.map castSigned)) q
        (usingArguments sv (prepared sv f limit sort v) f.imageurl f.actualurl)) ∧
    executed sv f limit sort v rows = .ok (plainQuery sv f (limit.map castSigned) sort rows) := by
  have hmissing := wholePart_missing h f
  constructor
  · obtain ⟨hquery, hargs⟩ := prepared_eq sv f limit sort v
    refine ⟨_, hquery, ?_⟩
    rw [hargs, effectiveLimit_eq]
    constructor
    · have hcount := (wholePart_aligned sv f).count
      rw [hmissing, Nat.add_zero] at hcount
      rw [count_queryText, Query.markers, List.length_append, List.length_singleton, hcount]
    · rw [← wholePart_binds h f]
  · have hstart : ∃ u : UserVariables, started sv limit sort v = { reset u with
        limit := some (effectiveLimit limit)
        sort := some (effectiveSort sv sort) } := ⟨v, rfl⟩
    obtain ⟨q, hq, hexecute⟩ :=
      query_eq f (effectiveLimit limit) (effectiveSort sv sort) hstart rows
    rw [executed, prepared, hq]
    dsimp only
    rw [hexecute, if_pos hmissing, plainQuery, orderOfSort_effectiveSort h, satisfies_eq h,
      effectiveLimit_eq, Int.toNat_natCast]

end Reading

def asciiServer : MariadbExtract.Server where
  coll := .ascii
  letters_visible := Collation.ascii_letters_visible
  lower := lowerAscii
  sameLetter := fun a b => a.toLower == b.toLower
  sameLetter_refl := fun c => beq_self_eq_true c.toLower
  dateFormat := some

theorem asciiServer_caseInsensitive : CaseInsensitive asciiServer where
  lower := lowerAscii_lowerAscii
  letters := fun _ _ _ => Iff.rfl

def freshVariables : UserVariables := ⟨none, [], none, none, none, none, none, none, none⟩

def sampleRow (title : String) (imageurl : Option Text) : Row :=
  ⟨some title.toList, imageurl, some "https://example.org/feed".toList, none, some noonText, none,
    none⟩

/-- `?image_url=NULL&sort=DESC` asks for the rows without an image. -/
theorem upper_null_queried :
    executed asciiServer ⟨none, some "NULL".toList, none, none⟩ none (some "DESC".toList)
        freshVariables [sampleRow "Hello" none, sampleRow "World" (some "x".toList)] =
      .ok [sampleRow "Hello" none] := by
  rw [(extract_refines_plain asciiServer asciiServer_caseInsensitive _ none _ freshVariables _).2]
  decide

end MariadbQueries
