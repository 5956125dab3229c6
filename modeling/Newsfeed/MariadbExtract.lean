import Newsfeed.ExtractFilters
import Newsfeed.MariadbProcedures
import Newsfeed.OrderedSelection

/-! # MariaDB: reading the newsfeed table

`extractnewsfeed` puts a query together in user variables, which outlive the call, and
executes it with the variables it has set. The markers of the query have no numbers: the
values are taken from left to right, and there must be one for each marker.
-/
namespace MariadbExtract

open TextOperations SqlLogic FeedModels CudHandlers ExtractFilters OrderedSelection
open MariadbProcedures

structure Server where
  /-- The default collation. -/
  coll : Collation
  /-- A text with an ASCII letter is not taken for the empty one. -/
  letters_visible : ∀ t, (∃ c ∈ t, Char.isAlpha c = true) → coll.key t ≠ coll.key []
  lower : Text → Text
  /-- Characters that regular expressions do not tell apart, as spellings of one letter. -/
  sameLetter : Char → Char → Bool
  sameLetter_refl : ∀ c, sameLetter c c = true
  /-- `date_format(x, '%Y-%m-%d %H:%i:%s.%f')`, `NULL` for what is not a date -/
  dateFormat : Text → Option Text

def letters : List Char := "abcdefghijklmnopqrstuvwxyzABCDEFGHIJKLMNOPQRSTUVWXYZ".toList

def digits : List Char := "0123456789".toList

/-- The characters of `omitTitle`, `omitImageURL`, `omitFeedURL` and `omitActualURL`. -/
def filterClass : List Char := letters ++ digits ++ keptSymbols

/-- The characters of `omitLimit`. -/
def limitClass : List Char := digits ++ ['-']

/-- `CAST(x AS SIGNED)`: an optional sign and the digits after it. What does not fit into 64
bits unsigned is cut, what does not fit signed becomes negative. -/
def castSigned (t : Text) : ℤ :=
  let t := t.dropWhile isSpace
  let unsigned := if t.head? = some '-' ∨ t.head? = some '+' then t.tail else t
  let n := Nat.ofDigitChars 10 (unsigned.takeWhile Char.isDigit) 0
  if t.head? = some '-' then -(min n (2 ^ 63) : Nat)
  else if n < 2 ^ 63 then n
  else (min n (2 ^ 64 - 1) : Nat) - 2 ^ 64

section Procedure

variable (sv : Server)

def inClass (chars : List Char) (c : Char) : Bool := chars.any (sv.sameLetter c)

/-- The two nested `REGEXP_REPLACE`, which replace every match. -/
def omitEach (chars : List Char) (t : Text) : Text :=
  collapseRuns (replaceEach (fun c => !inClass sv chars c) ' ' t)

/-- `IF x = '' THEN SET x = NULLIF(x, '')`. -/
def nullIfBlank (t : Text) : Option Text := if sv.coll.eq t [] then none else some t

/-- The rewriting of one parameter. -/
def sanitise (chars : List Char) (maxLength : Nat) (t : Text) : Option Text :=
  nullIfBlank sv (trimSpaces ((omitEach sv chars t).take maxLength))

def sanitiseLimit (t : Text) : Option Text :=
  nullIfBlank sv (trimSpaces (omitEach sv limitClass t))

def equalsText (x : Option Text) (s : String) : Truth := sqlEq sv.coll.eq x (some s.toList)

def notNullText (x : Option Text) : Bool := (equalsText sv x "null").not.holds

def isNullText (x : Option Text) : Bool := (equalsText sv x "null").holds

/-- `LOWER(x) = 'null'`: the filter asks for rows without a value. -/
def asksNull (t : Text) : Bool := isNullText sv (some (sv.lower t))

def effectiveLimit (limit : Option Text) : ℤ :=
  match limit with
  | none => 25
  | some t => if 1 ≤ castSigned t ∧ castSigned t ≤ 100 then castSigned t else 25

def effectiveSort (sort : Option Text) : Text :=
  match sort with
  | none => "asc".toList
  | some t =>
    if (equalsText sv (some (sv.lower t)) "desc").holds ||
        (equalsText sv (some (sv.lower t)) "asc").holds then t
    else "asc".toList

inductive Condition where
  | titleIs
  | imageurlIs
  | imageurlNull
  | feedurlIs
  | actualurlIs
  | actualurlNull
  deriving DecidableEq, Repr

def Condition.hasMarker : Condition → Bool
  | .imageurlNull => false
  | .actualurlNull => false
  | _ => true

def Condition.column (r : Row) : Condition → Option Text
  | .titleIs => r.title
  | .imageurlIs => r.imageurl
  | .imageurlNull => r.imageurl
  | .feedurlIs => r.feedurl
  | .actualurlIs => r.actualurl
  | .actualurlNull => r.actualurl

/-- The text of a query: its conditions and its order. It ends in `limit ?`. -/
structure Query where
  conditions : List Condition
  sort : SortOrder
  deriving DecidableEq, Repr

def Query.markers (q : Query) : Nat := q.conditions.countP Condition.hasMarker + 1

/-- The user variables and the prepared statement of a connection. -/
structure UserVariables where
  dSQL : Option Query
  dSQLWhere : List Condition
  title : Option Text
  imageurl : Option Text
  feedurl : Option Text
  actualurl : Option Text
  limit : Option ℤ
  sort : Option Text
  queryStatement : Option Query
  deriving DecidableEq, Repr

def reset (v : UserVariables) : UserVariables :=
  { dSQL := none
    dSQLWhere := []
    title := none
    imageurl := none
    feedurl := none
    actualurl := none
    limit := none
    sort := none
    queryStatement := v.queryStatement }

def addTitle (title : Option Text) (v : UserVariables) : UserVariables :=
  match title with
  | none => v
  | some t => { v with dSQLWhere := [.titleIs], title := some t }

def addImageurl (imageurl : Option Text) (v : UserVariables) : UserVariables :=
  match imageurl with
  | none => v
  | some t =>
    if asksNull sv t then { v with dSQLWhere := v.dSQLWhere ++ [.imageurlNull] }
    else { v with dSQLWhere := v.dSQLWhere ++ [.imageurlIs], imageurl := some t }

def addFeedurl (feedurl : Option Text) (v : UserVariables) : UserVariables :=
  match feedurl with
  | none => v
  | some t => { v with dSQLWhere := v.dSQLWhere ++ [.feedurlIs], feedurl := some t }

def addActualurl (actualurl : Option Text) (v : UserVariables) : UserVariables :=
  match actualurl with
  | none => v
  | some t =>
    if asksNull sv t then { v with dSQLWhere := v.dSQLWhere ++ [.actualurlNull] }
    else { v with dSQLWhere := v.dSQLWhere ++ [.actualurlIs], actualurl := some t }

/-- `PREPARE queryStatement FROM @dSQL`. -/
def prepare (v : UserVariables) : UserVariables :=
  let q : Query := ⟨v.dSQLWhere, if (equalsText sv v.sort "desc").holds then .desc else .asc⟩
  { v with dSQL := some q, queryStatement := some q }

inductive Argument where
  | text (t : Text)
  | int (n : ℤ)
  | null
  deriving DecidableEq, Repr

def limitArgument (v : UserVariables) : Argument :=
  match v.limit with
  | none => .null
  | some n => .int n

/-- The `USING` list of the `EXECUTE` that the variables lead to. -/
def usingArguments (v : UserVariables) (imageurl actualurl : Option Text) : List Argument :=
  let limit := limitArgument v
  match v.title, v.imageurl, v.feedurl, v.actualurl with
  | some t, none, none, none => [.text t, limit]
  | some t, some i, none, none =>
    if notNullText sv imageurl then [.text t, .text i, limit] else [.text t, limit]
  | some t, some i, some f, none =>
    if notNullText sv imageurl then [.text t, .text i, .text f, limit]
    else [.text t, .text f, limit]
  | some t, some i, none, some a =>
    if notNullText sv imageurl && notNullText sv actualurl then [.text t, .text i, .text a, limit]
    else if isNullText sv imageurl && notNullText sv actualurl then [.text t, .text a, limit]
    else if notNullText sv imageurl && isNullText sv actualurl then [.text t, .text i, limit]
    else [.text t, limit]
  | some t, none, some f, some a =>
    if notNullText sv actualurl then [.text t, .text f, .text a, limit]
    else [.text t, .text f, limit]
  | some t, none, some f, none => [.text t, .text f, limit]
  | some t, none, none, some a =>
    if notNullText sv actualurl then [.text t, .text a, limit] else [.text t, limit]
  | none, some i, some f, some a =>
    if notNullText sv imageurl && notNullText sv actualurl then [.text i, .text f, .text a, limit]
    else if isNullText sv imageurl && notNullText sv actualurl then [.text f, .text a, limit]
    else if notNullText sv imageurl && isNullText sv actualurl then [.text i, .text f, limit]
    else [.text f, limit]
  | none, some i, some f, none =>
    if notNullText sv imageurl then [.text i, .text f, limit] else [.text f, limit]
  | none, some i, none, some a =>
    if notNullText sv imageurl && notNullText sv actualurl then [.text i, .text a, limit]
    else if isNullText sv imageurl && notNullText sv actualurl then [.text a, limit]
    else if notNullText sv imageurl && isNullText sv actualurl then [.text i, limit]
    else [limit]
  | none, none, some f, some a =>
    if notNullText sv actualurl then [.text f, .text a, limit] else [.text f, limit]
  | none, some i, none, none =>
    if notNullText sv imageurl then [.text i, limit] else [limit]
  | none, none, some f, none => [.text f, limit]
  | none, none, none, some a =>
    if notNullText sv actualurl then [.text a, limit] else [limit]
  | some t, some i, some f, some a =>
    if notNullText sv imageurl && notNullText sv actualurl then
      [.text t, .text i, .text f, .text a, limit]
    else if isNullText sv imageurl && notNullText sv actualurl then
      [.text t, .text f, .text a, limit]
    else if notNullText sv imageurl && isNullText sv actualurl then
      [.text t, .text i, .text f, limit]
    else [.text t, .text f, limit]
  | none, none, none, none => [limit]

def Argument.asText : Argument → Option Text
  | .text t => some t
  | _ => none

def matchesWhere (r : Row) : List Condition → List Argument → Bool
  | [], _ => true
  | c :: cs, args =>
    if c.hasMarker then
      match args with
      | [] => false
      | a :: args => (sqlEq sv.coll.eq (c.column r) a.asText).holds && matchesWhere r cs args
    else (isNull (c.column r)).holds && matchesWhere r cs args

def compareText (a b : Text) : Ordering := compare (sv.coll.key a) (sv.coll.key b)

/-- `NULL`s are lowest. -/
def compareNullable (a b : Option Text) : Ordering :=
  match a, b with
  | some a, some b => compareText sv a b
  | some _, none => .gt
  | none, some _ => .lt
  | none, none => .eq

/-- `order by nf.publishdate, nf.title, nf.imageurl, nf.feedurl, nf.actualurl`. -/
def compareRows (a b : Row) : Ordering :=
  (compareNullable sv a.publishdate b.publishdate).then <|
    (compareNullable sv a.title b.title).then <| (compareNullable sv a.imageurl b.imageurl).then <|
      (compareNullable sv a.feedurl b.feedurl).then (compareNullable sv a.actualurl b.actualurl)

def rowOrder (sort : SortOrder) (a b : Row) : Prop :=
  match sort with
  | .asc => (compareRows sv a b).isLE = true
  | .desc => (compareRows sv b a).isLE = true

instance (sort : SortOrder) : DecidableRel (rowOrder sv sort) := fun a b => by
  cases sort <;> exact inferInstanceAs (Decidable (_ = true))

/-- `EXECUTE queryStatement USING ...`: a value for every marker, an integer for the limit. Rows
that the `ORDER BY` cannot tell apart keep their order in the table, which MariaDB leaves
open. -/
def execute (q : Query) (args : List Argument) (rows : List Row) : Except SqlError (List Row) :=
  if args.length = q.markers then
    match args.getLast? with
    | some (.int n) =>
      .ok (select (rowOrder sv q.sort) (fun r => matchesWhere sv r q.conditions args) n.toNat rows)
    | _ => .error .placeholders
  else .error .placeholders

def maxTextBytes : Nat := 65535

def isTooLong (p : String × Option Text) : Bool := p.2.any fun t => maxTextBytes < utf8Len t

/-- `extractnewsfeed`, with what it leaves in the connection. -/
def extractnewsfeed (optionMode title imageurl feedurl actualurl limit sort : Option Text)
    (v : UserVariables) (rows : List Row) : UserVariables × Except SqlError (List Row) :=
  match [("optionMode", optionMode), ("title", title), ("imageurl", imageurl), ("feedurl", feedurl),
      ("actualurl", actualurl), ("limit", limit), ("sort", sort)].find? isTooLong with
  | some (column, _) => (v, .error (.dataTooLong column))
  | none =>
    let optionMode := optionMode.bind (sanitise sv letters 255)
    let title := title.bind (sanitise sv filterClass 255)
    let imageurl := imageurl.bind (sanitise sv filterClass 255)
    let feedurl := feedurl.bind (sanitise sv filterClass 768)
    let actualurl := actualurl.bind (sanitise sv filterClass 255)
    let limit := limit.bind (sanitiseLimit sv)
    let sort := sort.bind (sanitise sv letters 255)
    if (equalsText sv optionMode "extractNewsFeed").holds then
      let v := { reset v with
        limit := some (effectiveLimit limit)
        sort := some (effectiveSort sv sort) }
      let v := prepare sv <| addActualurl sv actualurl <| addFeedurl feedurl <|
        addImageurl sv imageurl <| addTitle title v
      match v.queryStatement with
      | none => (v, .error .placeholders)
      | some q => (v, execute sv q (usingArguments sv v imageurl actualurl) rows)
    else (reset v, .ok [])

def selectRow (r : Row) : NewsFeedRow where
  titlereturn := r.title
  imageurlreturn := r.imageurl
  feedurlreturn := r.feedurl
  actualurlreturn := r.actualurl
  publishdatereturn := r.publishdate.bind sv.dateFormat

def extractRows (params : ExtractParams) (v : UserVariables) (rows : List Row) :
    UserVariables × Except SqlError (List Row) :=
  extractnewsfeed sv (some OptionMode.extractFeed.asStr.toList) params.title params.imageUrl
    params.feedUrl params.actualUrl (params.limit.map (Nat.toDigits 10))
    (params.sort.map SortOrder.asStr) v rows

def extractFeed (params : ExtractParams) (v : UserVariables) (rows : List Row) :
    Except SqlError (List NewsFeedRow) :=
  (extractRows sv params v rows).2.map (List.map (selectRow sv))

end Procedure

def filters (sv : Server) (title imageurl feedurl actualurl : Option Text) : Filters where
  title := title.bind (sanitise sv filterClass 255)
  imageurl := imageurl.bind (sanitise sv filterClass 255)
  feedurl := feedurl.bind (sanitise sv filterClass 768)
  actualurl := actualurl.bind (sanitise sv filterClass 255)

def paramFilters (sv : Server) (params : ExtractParams) : Filters :=
  filters sv params.title params.imageUrl params.feedUrl params.actualUrl

section Query

variable (sv : Server)

def matchesFilter (column : Option Text) : Option Text → Bool
  | none => true
  | some t => (sqlEq sv.coll.eq column (some t)).holds

def matchesNullable (column : Option Text) : Option Text → Bool
  | none => true
  | some t => if asksNull sv t then column.isNone else matchesFilter sv column (some t)

def satisfies (f : Filters) (r : Row) : Bool :=
  matchesFilter sv r.title f.title && matchesNullable sv r.imageurl f.imageurl &&
    matchesFilter sv r.feedurl f.feedurl && matchesNullable sv r.actualurl f.actualurl

def isUnbound (x : Option Text) : Bool := x.any fun t => !asksNull sv t && !notNullText sv (some t)

/-- Part of a clause, the values for its markers, what it asks of a row, and how many
values are missing. -/
structure Part where
  conditions : List Condition
  args : List Argument
  asks : Row → Bool
  missing : Nat

structure Part.Aligned (part : Part) : Prop where
  count : part.conditions.countP Condition.hasMarker = part.args.length + part.missing
  truth : part.missing = 0 → ∀ rest r,
    matchesWhere sv r part.conditions (part.args ++ rest) = part.asks r

def Part.append (p q : Part) : Part where
  conditions := p.conditions ++ q.conditions
  args := p.args ++ q.args
  asks r := p.asks r && q.asks r
  missing := p.missing + q.missing

def filterPart (c : Condition) (x : Option Text) : Part where
  conditions := match x with
    | none => []
    | some _ => [c]
  args := (x.map Argument.text).toList
  asks r := matchesFilter sv (c.column r) x
  missing := 0

def nullablePart (is isNull : Condition) (x : Option Text) : Part where
  conditions := match x with
    | none => []
    | some t => if asksNull sv t then [isNull] else [is]
  args := match x with
    | none => []
    | some t => if !asksNull sv t && notNullText sv (some t) then [.text t] else []
  asks r := matchesNullable sv (is.column r) x
  missing := if isUnbound sv x then 1 else 0

variable {sv}

theorem matchesWhere_cons (r : Row) (c : Condition) (cs : List Condition) (args : List Argument) :
    matchesWhere sv r (c :: cs) args =
      if c.hasMarker then
        match args with
        | [] => false
        | a :: args => (sqlEq sv.coll.eq (c.column r) a.asText).holds && matchesWhere sv r cs args
      else (isNull (c.column r)).holds && matchesWhere sv r cs args := rfl

theorem matchesWhere_append {cs ds : List Condition} {args rest : List Argument} (r : Row)
    (h : cs.countP Condition.hasMarker = args.length) :
    matchesWhere sv r (cs ++ ds) (args ++ rest) =
      (matchesWhere sv r cs args && matchesWhere sv r ds rest) := by
  induction cs generalizing args with
  | nil =>
    have hnil : args = [] := List.eq_nil_of_length_eq_zero h.symm
    have hstart : matchesWhere sv r [] [] = true := rfl
    rw [hnil, List.nil_append, List.nil_append, hstart, Bool.true_and]
  | cons c cs ih =>
    rw [List.cons_append, matchesWhere_cons, matchesWhere_cons]
    by_cases hc : c.hasMarker = true
    · rw [List.countP_cons_of_pos hc] at h
      cases args with
      | nil => cases h
      | cons a args =>
        rw [List.length_cons] at h
        simp only [hc, ↓reduceIte, List.cons_append, ih (Nat.succ.inj h), Bool.and_assoc]
    · rw [List.countP_cons_of_neg hc] at h
      simp only [hc, Bool.false_eq_true, ↓reduceIte, ih h, Bool.and_assoc]

theorem Part.Aligned.append {p q : Part} (hp : p.Aligned sv) (hq : q.Aligned sv) :
    (p.append q).Aligned sv where
  count := by
    have hcount := hp.count
    have hcount' := hq.count
    simp only [Part.append, List.countP_append, List.length_append]
    omega
  truth := by
    intro hmissing rest r
    have hsum : p.missing + q.missing = 0 := hmissing
    have hcount : p.conditions.countP Condition.hasMarker = p.args.length := by
      have := hp.count
      omega
    have hpart := hp.truth (by omega) [] r
    rw [List.append_nil] at hpart
    simp only [Part.append, List.append_assoc]
    rw [matchesWhere_append r hcount, hpart, hq.truth (by omega)]

theorem filterPart_aligned {c : Condition} (hc : c.hasMarker = true) (x : Option Text) :
    (filterPart sv c x).Aligned sv := by
  cases x with
  | none => exact ⟨rfl, fun _ _ _ => rfl⟩
  | some t =>
    refine ⟨?_, fun _ rest r => ?_⟩
    · simp [filterPart, hc]
    · simp [filterPart, matchesWhere, hc, matchesFilter, Argument.asText]

theorem nullablePart_aligned {is isNull : Condition} (his : is.hasMarker = true)
    (hnull : isNull.hasMarker = false) (hcolumn : ∀ r, isNull.column r = is.column r)
    (x : Option Text) : (nullablePart sv is isNull x).Aligned sv := by
  cases x with
  | none => exact ⟨rfl, fun _ _ _ => rfl⟩
  | some t =>
    by_cases hasks : asksNull sv t = true
    · refine ⟨?_, fun _ rest r => ?_⟩
      · simp [nullablePart, isUnbound, hasks, hnull]
      · simp [nullablePart, matchesWhere, matchesNullable, hasks, hnull, hcolumn]
    · by_cases hbound : notNullText sv (some t) = true
      · refine ⟨?_, fun _ rest r => ?_⟩
        · simp [nullablePart, isUnbound, hasks, hbound, his]
        · simp [nullablePart, matchesWhere, matchesNullable, matchesFilter, hasks, hbound, his,
            Argument.asText]
      · refine ⟨?_, fun hmissing => ?_⟩
        · simp [nullablePart, isUnbound, hasks, hbound, his]
        · simp [nullablePart, isUnbound, hasks, hbound] at hmissing

def wholePart (sv : Server) (f : Filters) : Part :=
  (((filterPart sv .titleIs f.title).append
    (nullablePart sv .imageurlIs .imageurlNull f.imageurl)).append
      (filterPart sv .feedurlIs f.feedurl)).append
        (nullablePart sv .actualurlIs .actualurlNull f.actualurl)

theorem wholePart_aligned (sv : Server) (f : Filters) : (wholePart sv f).Aligned sv := by
  have htitle : (filterPart sv .titleIs f.title).Aligned sv := filterPart_aligned rfl f.title
  have hnullImage : ∀ r, Condition.column r .imageurlNull = Condition.column r .imageurlIs :=
    fun _ => rfl
  have himage : (nullablePart sv .imageurlIs .imageurlNull f.imageurl).Aligned sv :=
    nullablePart_aligned rfl rfl hnullImage f.imageurl
  have hfeed : (filterPart sv .feedurlIs f.feedurl).Aligned sv := filterPart_aligned rfl f.feedurl
  have hnullActual : ∀ r, Condition.column r .actualurlNull = Condition.column r .actualurlIs :=
    fun _ => rfl
  have hactual : (nullablePart sv .actualurlIs .actualurlNull f.actualurl).Aligned sv :=
    nullablePart_aligned rfl rfl hnullActual f.actualurl
  exact ((htitle.append himage).append hfeed).append hactual

theorem isNullText_of_given {t : Text} :
    isNullText sv (some t) = !notNullText sv (some t) := by
  unfold isNullText notNullText equalsText
  rw [sqlEq_some_some]
  cases sv.coll.eq t "null".toList <;> rfl

def boundUnlessNull (sv : Server) (x : Option Text) : List Argument :=
  match x with
  | none => []
  | some t => if notNullText sv (some t) then [.text t] else []

/-- Every `EXECUTE` binds the variables that are set, and not `null`, in the same order. -/
theorem usingArguments_eq {v : UserVariables} {imageurl actualurl : Option Text}
    (hi : ∀ t, v.imageurl = some t → imageurl = some t)
    (ha : ∀ t, v.actualurl = some t → actualurl = some t) :
    usingArguments sv v imageurl actualurl =
      (v.title.map Argument.text).toList ++ boundUnlessNull sv v.imageurl ++
        (v.feedurl.map Argument.text).toList ++ boundUnlessNull sv v.actualurl ++
          [limitArgument v] := by
  unfold usingArguments
  cases himage : v.imageurl with
  | none =>
    cases hactual : v.actualurl with
    | none => cases v.title <;> cases v.feedurl <;> rfl
    | some a =>
      rw [ha a hactual]
      cases v.title <;> cases v.feedurl <;> simp only [boundUnlessNull] <;>
        cases notNullText sv (some a) <;> rfl
  | some i =>
    rw [hi i himage]
    cases hactual : v.actualurl with
    | none =>
      cases v.title <;> cases v.feedurl <;> simp only [boundUnlessNull] <;>
        cases notNullText sv (some i) <;> rfl
    | some a =>
      rw [ha a hactual]
      cases v.title <;> cases v.feedurl <;>
        simp only [boundUnlessNull, isNullText_of_given] <;>
          cases notNullText sv (some i) <;> cases notNullText sv (some a) <;> rfl

def built (sv : Server) (f : Filters) (v : UserVariables) : UserVariables :=
  addActualurl sv f.actualurl <| addFeedurl f.feedurl <| addImageurl sv f.imageurl <|
    addTitle f.title v

theorem addTitle_spec (sv : Server) (x : Option Text) (v : UserVariables)
    (hwhere : v.dSQLWhere = [])
    (ht : v.title = none) :
    addTitle x v = { v with
      dSQLWhere := (filterPart sv .titleIs x).conditions
      title := x } := by
  cases x with
  | none => rw [addTitle, filterPart, ← hwhere, ← ht]
  | some t => rfl

theorem addFeedurl_spec (sv : Server) (x : Option Text) (v : UserVariables)
    (hf : v.feedurl = none) :
    addFeedurl x v = { v with
      dSQLWhere := v.dSQLWhere ++ (filterPart sv .feedurlIs x).conditions
      feedurl := x } := by
  cases x with
  | none => rw [addFeedurl, filterPart, List.append_nil, ← hf]
  | some t => rfl

theorem addImageurl_spec (sv : Server) (x : Option Text) (v : UserVariables)
    (hi : v.imageurl = none) :
    addImageurl sv x v = { v with
      dSQLWhere := v.dSQLWhere ++ (nullablePart sv .imageurlIs .imageurlNull x).conditions
      imageurl := x.filter fun t => !asksNull sv t } := by
  cases x with
  | none => rw [addImageurl, nullablePart, List.append_nil, Option.filter_none, ← hi]
  | some t =>
    rw [addImageurl, nullablePart, Option.filter_some]
    cases asksNull sv t with
    | true => simp [← hi]
    | false => simp

theorem addActualurl_spec (sv : Server) (x : Option Text) (v : UserVariables)
    (ha : v.actualurl = none) :
    addActualurl sv x v = { v with
      dSQLWhere := v.dSQLWhere ++ (nullablePart sv .actualurlIs .actualurlNull x).conditions
      actualurl := x.filter fun t => !asksNull sv t } := by
  cases x with
  | none => rw [addActualurl, nullablePart, List.append_nil, Option.filter_none, ← ha]
  | some t =>
    rw [addActualurl, nullablePart, Option.filter_some]
    cases asksNull sv t with
    | true => simp [← ha]
    | false => simp

theorem boundUnlessNull_filter (is isNull : Condition) (x : Option Text) :
    boundUnlessNull sv (x.filter fun t => !asksNull sv t) = (nullablePart sv is isNull x).args := by
  cases x with
  | none => rfl
  | some t =>
    rw [nullablePart, Option.filter_some]
    cases asksNull sv t with
    | true => rfl
    | false => simp [boundUnlessNull]

theorem built_eq (sv : Server) (f : Filters) {v : UserVariables} (hwhere : v.dSQLWhere = [])
    (ht : v.title = none) (hi : v.imageurl = none) (hf : v.feedurl = none)
    (ha : v.actualurl = none) :
    (built sv f v).dSQLWhere = (wholePart sv f).conditions ∧ (built sv f v).sort = v.sort ∧
      usingArguments sv (built sv f v) f.imageurl f.actualurl =
        (wholePart sv f).args ++ [limitArgument v] := by
  have hbuilt : built sv f v = { v with
      dSQLWhere := (wholePart sv f).conditions
      title := f.title
      imageurl := f.imageurl.filter fun t => !asksNull sv t
      feedurl := f.feedurl
      actualurl := f.actualurl.filter fun t => !asksNull sv t } := by
    rw [built, addTitle_spec sv f.title v hwhere ht, addImageurl_spec, addFeedurl_spec sv,
      addActualurl_spec]
    · rfl
    · exact ha
    · exact hf
    · exact hi
  rw [hbuilt]
  refine ⟨rfl, rfl, ?_⟩
  rw [usingArguments_eq (fun t h => (Option.filter_eq_some_iff.mp h).1)
    fun t h => (Option.filter_eq_some_iff.mp h).1]
  rw [boundUnlessNull_filter .imageurlIs .imageurlNull,
    boundUnlessNull_filter .actualurlIs .actualurlNull]
  rfl

theorem wholePart_asks (f : Filters) : (wholePart sv f).asks = satisfies sv f := rfl

/-- The query raises when a value is missing, and otherwise returns the first rows, in
order, of those that satisfy the filters. -/
theorem execute_eq (f : Filters) (sort : SortOrder) (n : ℤ) (rows : List Row) :
    execute sv ⟨(wholePart sv f).conditions, sort⟩ ((wholePart sv f).args ++ [.int n]) rows =
      if (wholePart sv f).missing = 0 then
        .ok (select (rowOrder sv sort) (satisfies sv f) n.toNat rows)
      else .error .placeholders := by
  have haligned := wholePart_aligned sv f
  have hcount := haligned.count
  rw [execute, Query.markers, List.length_append, List.length_singleton, List.getLast?_concat]
  dsimp only
  by_cases hmissing : (wholePart sv f).missing = 0
  · have hmatches : (fun r => matchesWhere sv r (wholePart sv f).conditions
        ((wholePart sv f).args ++ [.int n])) = satisfies sv f := by
      funext r
      rw [haligned.truth hmissing, wholePart_asks]
    rw [if_pos (by omega), if_pos hmissing, hmatches]
  · rw [if_neg (by omega), if_neg hmissing]

theorem inClass_of_mem (sv : Server) {chars : List Char} {c : Char} (h : c ∈ chars) :
    inClass sv chars c = true :=
  List.any_eq_true.mpr ⟨c, h, sv.sameLetter_refl c⟩

theorem sanitise_word {t : Text} (hletters : ∀ c ∈ t, c ∈ letters)
    (hfits : trimSpaces ((collapseRuns t).take 255) = t) (hword : ∃ c ∈ t, Char.isAlpha c = true) :
    sanitise sv letters 255 t = some t := by
  have hkept : replaceEach (fun c => !inClass sv letters c) ' ' t = t := by
    refine (List.map_congr_left fun c hc => ?_).trans (List.map_id _)
    have hc' := inClass_of_mem sv (hletters c hc)
    simp only [hc', Bool.not_true, Bool.false_eq_true, ↓reduceIte, id_eq]
  have hvisible : sv.coll.eq t [] = false := by
    rw [← Bool.not_eq_true, Collation.eq_iff]
    exact sv.letters_visible t hword
  rw [sanitise, omitEach, hkept, hfits, nullIfBlank, hvisible]
  rfl

theorem optionMode_kept :
    (equalsText sv ((some OptionMode.extractFeed.asStr.toList).bind (sanitise sv letters 255))
      "extractNewsFeed").holds = true := by
  have hsome : sanitise sv letters 255 OptionMode.extractFeed.asStr.toList =
      some "extractNewsFeed".toList :=
    sanitise_word (List.all_iff_forall_prop.mp (by decide)) (by decide)
      ⟨'e', by decide, by decide⟩
  rw [Option.bind_some, hsome, equalsText, sqlEq_some_some, Collation.eq_refl]
  rfl

def orderOfSort (sv : Server) (sort : Text) : SortOrder :=
  if (equalsText sv (some sort) "desc").holds then .desc else .asc

theorem query_eq (f : Filters) (limit : ℤ) (sort : Text) {start : UserVariables}
    (hstart : ∃ v, start = { reset v with limit := some limit, sort := some sort })
    (rows : List Row) :
    ∃ q, (prepare sv (built sv f start)).queryStatement = some q ∧
      execute sv q (usingArguments sv (prepare sv (built sv f start)) f.imageurl f.actualurl) rows =
        if (wholePart sv f).missing = 0 then
          .ok (select (rowOrder sv (orderOfSort sv sort)) (satisfies sv f) limit.toNat rows)
        else .error .placeholders := by
  obtain ⟨v, rfl⟩ := hstart
  refine ⟨_, rfl, ?_⟩
  have hreset : ({ reset v with limit := some limit, sort := some sort } :
      UserVariables).dSQLWhere = [] := rfl
  obtain ⟨hwhere, hsort, hargs⟩ := built_eq sv f hreset rfl rfl rfl rfl
  have hprepared : ∀ w : UserVariables, usingArguments sv (prepare sv w) f.imageurl f.actualurl =
      usingArguments sv w f.imageurl f.actualurl := fun _ => rfl
  rw [hprepared, hargs, hwhere, hsort]
  exact execute_eq f _ limit rows

def callLimit (sv : Server) (params : ExtractParams) : ℤ :=
  effectiveLimit ((params.limit.map (Nat.toDigits 10)).bind (sanitiseLimit sv))

def callSort (sv : Server) (params : ExtractParams) : SortOrder :=
  orderOfSort sv (effectiveSort sv
    ((params.sort.map SortOrder.asStr).bind (sanitise sv letters 255)))

def tooLong (params : ExtractParams) : Option (String × Option Text) :=
  [("optionMode", some OptionMode.extractFeed.asStr.toList), ("title", params.title),
    ("imageurl", params.imageUrl), ("feedurl", params.feedUrl), ("actualurl", params.actualUrl),
    ("limit", params.limit.map (Nat.toDigits 10)),
    ("sort", params.sort.map SortOrder.asStr)].find? isTooLong

theorem extractRows_of_fits (sv : Server) {params : ExtractParams} (hfits : tooLong params = none)
    (v : UserVariables) (rows : List Row) :
    (extractRows sv params v rows).2 =
      if (wholePart sv (paramFilters sv params)).missing = 0 then
        .ok (select (rowOrder sv (callSort sv params)) (satisfies sv (paramFilters sv params))
          (callLimit sv params).toNat rows)
      else .error .placeholders := by
  unfold tooLong at hfits
  unfold extractRows extractnewsfeed
  rw [hfits]
  simp only [optionMode_kept, ↓reduceIte]
  obtain ⟨q, hq, hexecute⟩ := query_eq (paramFilters sv params) (callLimit sv params)
    (effectiveSort sv ((params.sort.map SortOrder.asStr).bind (sanitise sv letters 255)))
    ⟨v, rfl⟩ rows
  cases hq
  exact hexecute

/-- Whether a call raises, and which rows it returns, depends on the parameters and the
table alone. -/
theorem extractRows_cases (sv : Server) (params : ExtractParams) :
    (∃ e, ∀ v rows, (extractRows sv params v rows).2 = .error e) ∨
      ∀ v rows, (extractRows sv params v rows).2 =
        .ok (select (rowOrder sv (callSort sv params)) (satisfies sv (paramFilters sv params))
          (callLimit sv params).toNat rows) := by
  cases hlong : tooLong params with
  | some p =>
    refine Or.inl ⟨.dataTooLong p.1, fun v rows => ?_⟩
    unfold tooLong at hlong
    unfold extractRows extractnewsfeed
    rw [hlong]
  | none =>
    by_cases hmissing : (wholePart sv (paramFilters sv params)).missing = 0
    · refine Or.inr fun v rows => ?_
      rw [extractRows_of_fits sv hlong, if_pos hmissing]
    · refine Or.inl ⟨.placeholders, fun v rows => ?_⟩
      rw [extractRows_of_fits sv hlong, if_neg hmissing]

theorem mem_of_extractRows {params : ExtractParams} {v : UserVariables} {rows result : List Row}
    (h : (extractRows sv params v rows).2 = .ok result) {r : Row} (hr : r ∈ result) :
    r ∈ rows ∧ satisfies sv (paramFilters sv params) r = true := by
  rcases extractRows_cases sv params with ⟨e, he⟩ | hok
  · rw [he] at h
    cases h
  · rw [hok] at h
    cases h
    have hmem := List.mem_of_mem_take hr
    rw [List.mem_insertionSort, List.mem_filter] at hmem
    exact hmem

end Query

section Order

variable (sv : Server)

theorem compareText_trans : Std.TransCmp (compareText sv) :=
  transCmp_comap (c := compare) inferInstance sv.coll.key

theorem compareNullable_trans : Std.TransCmp (compareNullable sv) := by
  have hside : Ordering.lt ≠ .eq := by decide
  exact transCmp_option (compareText_trans sv) hside (fun _ _ => rfl) rfl (fun _ => rfl)
    fun _ => rfl

theorem compareRows_trans : Std.TransCmp (compareRows sv) := by
  have h1 := transCmp_comap (compareNullable_trans sv) Row.publishdate
  have h2 := transCmp_comap (compareNullable_trans sv) Row.title
  have h3 := transCmp_comap (compareNullable_trans sv) Row.imageurl
  have h4 := transCmp_comap (compareNullable_trans sv) Row.feedurl
  have h5 := transCmp_comap (compareNullable_trans sv) Row.actualurl
  exact inferInstanceAs (Std.TransCmp (compareLex _ (compareLex _ (compareLex _ (compareLex _ _)))))

instance (sort : SortOrder) : Std.Total (rowOrder sv sort) where
  total := by
    intro a b
    cases sort with
    | asc => exact isLE_total (compareRows_trans sv) a b
    | desc => exact isLE_total (compareRows_trans sv) b a

instance (sort : SortOrder) : IsTrans Row (rowOrder sv sort) where
  trans := by
    have h := compareRows_trans sv
    intro a b c hab hbc
    cases sort with
    | asc => exact h.isLE_trans hab hbc
    | desc => exact h.isLE_trans hbc hab

end Order

end MariadbExtract
