import Newsfeed.ExtractFilters
import Newsfeed.MssqlProcedures
import Newsfeed.OmitCharacters
import Newsfeed.OrderedSelection

/-! # SQL Server: reading the newsfeed table

`extractNewsFeed` rewrites its parameters, puts a query together and executes it with all
of them as named parameters, so that no value can end up at the wrong place.
-/
namespace MssqlExtract

open TextOperations FallibleOperations SqlLogic FeedModels CudHandlers ExtractFilters
open OrderedSelection OmitCharacters MssqlProcedures

structure ReadingServer extends MssqlProcedures.Server where
  lower : Text → Text
  /-- `format(x, 'yyyy-MM-dd HH:mm:ss.ffffff', 'en-us')` -/
  format : Timestamp → Text

def commaList (chars : List Char) : NVarChar := encode ([','].intercalate (chars.map fun c => [c]))

def letters : List Char := "ABCDEFGHIJKLMNOPQRSTUVWXYZabcdefghijklmnopqrstuvwxyz".toList

def digits : List Char := "0123456789".toList

def omitOptionMode : NVarChar := commaList (digits ++ letters)

/-- `@omitTitle`, `@omitImageURL`, `@omitFeedURL` and `@omitActualURL`. A comma in the list
makes two empty elements. -/
def omitTitle : NVarChar := commaList (letters ++ digits ++ keptSymbols)

def omitLimit : NVarChar := commaList ('-' :: digits)

def omitSort : NVarChar := commaList letters

/-- An `nvarchar` as an `int`: blanks around an optional sign and digits, in range. No digits
at all are zero. -/
def castInt (s : NVarChar) : Except SqlError ℤ :=
  let t := trimSpaces (decode s)
  let unsigned := if t.head? = some '-' ∨ t.head? = some '+' then t.tail else t
  let n : ℤ := Nat.ofDigitChars 10 unsigned 0
  let value := if t.head? = some '-' then -n else n
  if unsigned.all Char.isDigit ∧ -2 ^ 31 ≤ value ∧ value < 2 ^ 31 then .ok value
  else .error .invalidInteger

section Procedure

variable (sv : ReadingServer)

/-- The rewriting of one parameter, `NULL` or not. -/
def sanitise (characters : NVarChar) (maxLength : Nat) (x : Option Text) :
    Except SqlError (Option NVarChar) :=
  match x with
  | none => .ok none
  | some t =>
    (omitCharacters sv.coll (encode t) characters).map fun result =>
      result.bind fun s => nullIfBlank sv.coll (trimBlanks (substring s 1 maxLength))

def sanitiseLimit (x : Option Text) : Except SqlError (Option NVarChar) :=
  match x with
  | none => .ok none
  | some t =>
    (omitCharacters sv.coll (encode t) omitLimit).map fun result =>
      result.bind fun s => nullIfBlank sv.coll (trimBlanks s)

/-- `@limit`: 25 unless it is given and between 1 and 100. -/
def effectiveLimit (limit : Option NVarChar) : Except SqlError Nat :=
  match limit with
  | none => .ok 25
  | some s => (castInt s).map fun n => if 1 ≤ n ∧ n ≤ 100 then n.toNat else 25

def equalsText (x : Option Text) (s : String) : Truth :=
  sqlEq (textEq sv.toServer) x (some s.toList)

def effectiveSort (sort : Option NVarChar) : SortOrder :=
  let text := sort.map decode
  let known := (equalsText sv (text.map sv.lower) "desc").or
    (equalsText sv (text.map sv.lower) "asc")
  if known.not.holds || sort.isNone then .asc
  else if (equalsText sv text "desc").holds then .desc
  else .asc

inductive Condition where
  | titleIs
  | imageurlIs
  | imageurlNull
  | feedurlIs
  | actualurlIs
  | actualurlNull
  deriving DecidableEq, Repr

def asksNull (x : Option Text) : Bool := (equalsText sv (x.map sv.lower) "null").holds

def titleConditions (title : Option Text) : List Condition :=
  match title with
  | none => []
  | some _ => [.titleIs]

def imageurlConditions (imageurl : Option Text) : List Condition :=
  match imageurl with
  | none => []
  | some _ => if asksNull sv imageurl then [.imageurlNull] else [.imageurlIs]

def feedurlConditions (feedurl : Option Text) : List Condition :=
  match feedurl with
  | none => []
  | some _ => [.feedurlIs]

/-- The source tests `@imageurl` here too. -/
def actualurlConditions (imageurl actualurl : Option Text) : List Condition :=
  match actualurl with
  | none => []
  | some _ => if asksNull sv imageurl then [.actualurlNull] else [.actualurlIs]

def whereClause (f : Filters) : List Condition :=
  titleConditions f.title ++ imageurlConditions sv f.imageurl ++ feedurlConditions f.feedurl ++
    actualurlConditions sv f.imageurl f.actualurl

def Condition.truth (f : Filters) (r : Row) : Condition → Truth
  | .titleIs => sqlEq (textEq sv.toServer) (some r.title) f.title
  | .imageurlIs => sqlEq (textEq sv.toServer) r.imageurl f.imageurl
  | .imageurlNull => isNull r.imageurl
  | .feedurlIs => sqlEq (textEq sv.toServer) (some r.feedurl) f.feedurl
  | .actualurlIs => sqlEq (textEq sv.toServer) r.actualurl f.actualurl
  | .actualurlNull => isNull r.actualurl

def matchesWhere (f : Filters) (r : Row) : Bool :=
  (whereClause sv f).all fun c => (c.truth sv f r).holds

def compareText (a b : Text) : Ordering := compare (sv.coll.key a) (sv.coll.key b)

/-- `NULL`s are lowest. -/
def compareNullable (a b : Option Text) : Ordering :=
  match a, b with
  | some a, some b => compareText sv a b
  | some _, none => .gt
  | none, some _ => .lt
  | none, none => .eq

/-- `order by nf.publish_date, nf.title, nf.imageurl, nf.feedurl, nf.actualurl`. -/
def compareRows (a b : Row) : Ordering :=
  (compare a.publishDate b.publishDate).then <| (compareText sv a.title b.title).then <|
    (compareNullable sv a.imageurl b.imageurl).then <|
      (compareText sv a.feedurl b.feedurl).then (compareNullable sv a.actualurl b.actualurl)

def rowOrder (sort : SortOrder) (a b : Row) : Prop :=
  match sort with
  | .asc => (compareRows sv a b).isLE = true
  | .desc => (compareRows sv b a).isLE = true

instance (sort : SortOrder) : DecidableRel (rowOrder sv sort) := fun a b => by
  cases sort <;> exact inferInstanceAs (Decidable (_ = true))

def filters (title imageurl feedurl actualurl : Option Text) : Except SqlError Filters := do
  let title ← sanitise sv omitTitle 255 title
  let imageurl ← sanitise sv omitTitle 255 imageurl
  let feedurl ← sanitise sv omitTitle 768 feedurl
  let actualurl ← sanitise sv omitTitle 255 actualurl
  return ⟨title.map decode, imageurl.map decode, feedurl.map decode, actualurl.map decode⟩

def extractNewsFeed (optionMode title imageurl feedurl actualurl limit sort : Option Text)
    (rows : List Row) : Except SqlError (List Row) := do
  let optionMode ← sanitise sv omitOptionMode 255 optionMode
  let f ← filters sv title imageurl feedurl actualurl
  let limit ← sanitiseLimit sv limit
  let sort ← sanitise sv omitSort 255 sort
  if (equalsText sv (optionMode.map decode) "extractNewsFeed").holds then
    let top ← effectiveLimit limit
    return select (rowOrder sv (effectiveSort sv sort)) (matchesWhere sv f) top rows
  else return []

def selectRow (r : Row) : NewsFeedRow where
  titlereturn := some r.title
  imageurlreturn := r.imageurl
  feedurlreturn := some r.feedurl
  actualurlreturn := r.actualurl
  publishdatereturn := some (sv.format r.publishDate)

def extractRows (params : ExtractParams) (rows : List Row) : Except SqlError (List Row) :=
  extractNewsFeed sv (some OptionMode.extractFeed.asStr.toList) params.title params.imageUrl
    params.feedUrl params.actualUrl (params.limit.map (Nat.toDigits 10))
    (params.sort.map SortOrder.asStr) rows

def extractFeed (params : ExtractParams) (rows : List Row) : Except SqlError (List NewsFeedRow) :=
  (extractRows sv params rows).map (List.map (selectRow sv))

end Procedure

variable {sv : ReadingServer}

def paramFilters (sv : ReadingServer) (params : ExtractParams) : Except SqlError Filters :=
  filters sv params.title params.imageUrl params.feedUrl params.actualUrl

theorem filters_eq_ok {title imageurl feedurl actualurl : Option Text} {f : Filters} :
    filters sv title imageurl feedurl actualurl = .ok f ↔
      ((sanitise sv omitTitle 255 title).map (Option.map decode) = .ok f.title ∧
        (sanitise sv omitTitle 255 imageurl).map (Option.map decode) = .ok f.imageurl ∧
        (sanitise sv omitTitle 768 feedurl).map (Option.map decode) = .ok f.feedurl ∧
        (sanitise sv omitTitle 255 actualurl).map (Option.map decode) = .ok f.actualurl) := by
  obtain ⟨ft, fi, ff, fa⟩ := f
  unfold filters
  cases sanitise sv omitTitle 255 title <;> cases sanitise sv omitTitle 255 imageurl <;>
    cases sanitise sv omitTitle 768 feedurl <;> cases sanitise sv omitTitle 255 actualurl <;>
      simp [bind, Except.bind, pure, Except.pure, Except.map]

theorem mem_of_extractRows {params : ExtractParams} {rows result : List Row}
    (h : extractRows sv params rows = .ok result) {r : Row} (hr : r ∈ result) :
    r ∈ rows ∧ ∃ f, paramFilters sv params = .ok f ∧ matchesWhere sv f r = true := by
  obtain ⟨optionMode, _, h⟩ := bind_ok h
  obtain ⟨f, hf, h⟩ := bind_ok h
  obtain ⟨limit, _, h⟩ := bind_ok h
  obtain ⟨sort, _, h⟩ := bind_ok h
  by_cases hmode : (equalsText sv (optionMode.map decode) "extractNewsFeed").holds = true
  · rw [if_pos hmode] at h
    obtain ⟨top, _, h⟩ := bind_ok h
    cases h
    have hmem := List.mem_of_mem_take hr
    rw [List.mem_insertionSort, List.mem_filter] at hmem
    exact ⟨hmem.1, f, hf, hmem.2⟩
  · rw [if_neg hmode] at h
    cases h
    cases hr

/-- What the clause asks of a row: the tests on `title`, `imageurl` and `feedurl` look at
their own parameter, the one on `actualurl` at that of `imageurl`. -/
theorem matchesWhere_iff (f : Filters) (r : Row) :
    matchesWhere sv f r = true ↔
      (∀ t, f.title = some t → textEq sv.toServer r.title t = true) ∧
        (∀ t, f.imageurl = some t → if asksNull sv f.imageurl then r.imageurl = none
          else ∃ i, r.imageurl = some i ∧ textEq sv.toServer i t = true) ∧
        (∀ t, f.feedurl = some t → textEq sv.toServer r.feedurl t = true) ∧
        ∀ t, f.actualurl = some t → if asksNull sv f.imageurl then r.actualurl = none
          else ∃ a, r.actualurl = some a ∧ textEq sv.toServer a t = true := by
  have htitle : ((titleConditions f.title).all fun c => (c.truth sv f r).holds) = true ↔
      ∀ t, f.title = some t → textEq sv.toServer r.title t = true := by
    cases ht : f.title with
    | none => simp [titleConditions]
    | some t => simp [titleConditions, Condition.truth, ht]
  have himage : ((imageurlConditions sv f.imageurl).all fun c => (c.truth sv f r).holds) = true ↔
      ∀ t, f.imageurl = some t → if asksNull sv f.imageurl then r.imageurl = none
        else ∃ i, r.imageurl = some i ∧ textEq sv.toServer i t = true := by
    cases hi : f.imageurl with
    | none => simp [imageurlConditions]
    | some t =>
      by_cases hnull : asksNull sv (some t) = true
      · simp [imageurlConditions, Condition.truth, hnull]
      · simp [imageurlConditions, Condition.truth, hi, hnull]
  have hfeed : ((feedurlConditions f.feedurl).all fun c => (c.truth sv f r).holds) = true ↔
      ∀ t, f.feedurl = some t → textEq sv.toServer r.feedurl t = true := by
    cases hf : f.feedurl with
    | none => simp [feedurlConditions]
    | some t => simp [feedurlConditions, Condition.truth, hf]
  have hactual : ((actualurlConditions sv f.imageurl f.actualurl).all fun c =>
      (c.truth sv f r).holds) = true ↔
      ∀ t, f.actualurl = some t → if asksNull sv f.imageurl then r.actualurl = none
        else ∃ a, r.actualurl = some a ∧ textEq sv.toServer a t = true := by
    cases ha : f.actualurl with
    | none => simp [actualurlConditions]
    | some t =>
      by_cases hnull : asksNull sv f.imageurl = true
      · simp [actualurlConditions, Condition.truth, hnull]
      · simp [actualurlConditions, Condition.truth, ha, hnull]
  rw [matchesWhere, whereClause, List.all_append, List.all_append, List.all_append,
    Bool.and_eq_true, Bool.and_eq_true, Bool.and_eq_true, htitle, himage, hfeed, hactual, and_assoc,
    and_assoc]

end MssqlExtract
