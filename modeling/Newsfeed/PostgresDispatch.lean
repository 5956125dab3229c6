import Newsfeed.PostgresExtract
import Newsfeed.SqlClauses

/-! # PostgreSQL: the query text and its `EXECUTE` statements

`extractnewsfeed` decides twice what a call asks for: while it appends conditions to
`dSQLWhere` and counts placeholders, and again when it picks one of sixteen `EXECUTE`
statements. The two disagree on what the filter `null` is.
-/
namespace PostgresDispatch

open TextOperations FallibleOperations SqlLogic FeedModels CudHandlers ExtractFilters
open PostgresProcedures PostgresExtract SqlClauses

/-- `dSQLWhere` and `countInput`. -/
structure Building where
  dSQLWhere : Text
  countInput : Nat
  deriving DecidableEq, Repr

/-- `trim(x) = trim('')`. -/
def isBlank (t : Text) : Bool := trimSpaces t == []

def connective : Text := " and ".toList

def Building.include (b : Building) (condition : Text) : Building :=
  { b with dSQLWhere := addCondition isBlank connective b.dSQLWhere condition }

/-- A condition `column = $n`, with the next number. -/
def Building.includeNext (b : Building) (condition : Text) : Building :=
  ⟨(b.include (condition ++ placeholder b.countInput)).dSQLWhere, b.countInput + 1⟩

def addTitle (title : Option Text) (b : Building) : Building :=
  match title with
  | none => b
  | some _ => ⟨"nf.title = ".toList ++ placeholder b.countInput, b.countInput + 1⟩

def addFeedurl (feedurl : Option Text) (b : Building) : Building :=
  match feedurl with
  | none => b
  | some _ => b.includeNext "nf.feedurl = ".toList

section Procedure

variable (sv : Server)

def addImageurl (imageurl : Option Text) (b : Building) : Building :=
  match imageurl with
  | none => b
  | some t =>
    if sv.lower t = "null".toList then b.include "nf.imageurl is null".toList
    else b.includeNext "nf.imageurl = ".toList

def addActualurl (actualurl : Option Text) (b : Building) : Building :=
  match actualurl with
  | none => b
  | some t =>
    if sv.lower t = "null".toList then b.include "nf.actualurl is null".toList
    else b.includeNext "nf.actualurl = ".toList

def buildWhere (f : Filters) : Building :=
  addActualurl sv f.actualurl <| addFeedurl f.feedurl <| addImageurl sv f.imageurl <|
    addTitle f.title ⟨[], 1⟩

def selectText : Text :=
  "select\n      cast(nf.title as text),\n      cast(nf.imageurl as text),\n".toList ++
    "      cast(nf.feedurl as text),\n      cast(nf.actualurl as text),\n".toList ++
    "      cast(to_char(nf.publish_date, 'YYYY-MM-DD HH24:MI:SS.US') as text)\n".toList ++
    "      from newsfeed nf".toList

def orderText : SortOrder → Text
  | .desc => " order by nf.publish_date desc, nf.title desc, nf.imageurl desc, ".toList ++
      "nf.feedurl desc, nf.actualurl desc".toList
  | .asc => " order by nf.publish_date asc, nf.title asc, nf.imageurl asc, ".toList ++
      "nf.feedurl asc, nf.actualurl asc".toList

/-- `dSQL` as it is executed. -/
def dynamicSql (f : Filters) (sort : SortOrder) : Text :=
  let b := buildWhere sv f
  selectText ++ withKeyword isBlank " where ".toList b.dSQLWhere ++ orderText sort ++
    (" limit ".toList ++ placeholder b.countInput)

end Procedure

/-- `x <> 'null'` for a filter that is given. -/
def notNullText (t : Text) : Bool := t != "null".toList

def isNullText (t : Text) : Bool := t == "null".toList

/-- The `USING` lists in the order of the source. -/
def usingArguments (f : Filters) (limit : Nat) : List Argument :=
  let limit := Argument.int limit
  match f.title, f.imageurl, f.feedurl, f.actualurl with
  | some t, none, none, none => [.citext t, limit]
  | some t, some i, none, none =>
    if notNullText i then [.citext t, .citext i, limit] else [.citext t, limit]
  | some t, some i, some f, none =>
    if notNullText i then [.citext t, .citext i, .citext f, limit]
    else [.citext t, .citext f, limit]
  | some t, some i, none, some a =>
    if notNullText i && notNullText a then [.citext t, .citext i, .citext a, limit]
    else if isNullText i && notNullText a then [.citext t, .citext a, limit]
    else if notNullText i && isNullText a then [.citext t, .citext i, limit]
    else [.citext t, limit]
  | some t, none, some f, some a =>
    if notNullText a then [.citext t, .citext f, .citext a, limit]
    else [.citext t, .citext f, limit]
  | some t, none, some f, none => [.citext t, .citext f, limit]
  | some t, none, none, some a =>
    if notNullText a then [.citext t, .citext a, limit] else [.citext t, limit]
  | none, some i, some f, some a =>
    if notNullText i && notNullText a then [.citext i, .citext f, .citext a, limit]
    else if isNullText i && notNullText a then [.citext f, .citext a, limit]
    else if notNullText i && isNullText a then [.citext i, .citext f, limit]
    else [.citext f, limit]
  | none, some i, some f, none =>
    if notNullText i then [.citext i, .citext f, limit] else [.citext f, limit]
  | none, some i, none, some a =>
    if notNullText i && notNullText a then [.citext i, .citext a, limit]
    else if isNullText i && notNullText a then [.citext a, limit]
    else if notNullText i && isNullText a then [.citext i, limit]
    else [limit]
  | none, none, some f, some a =>
    if notNullText a then [.citext f, .citext a, limit] else [.citext f, limit]
  | none, some i, none, none => if notNullText i then [.citext i, limit] else [limit]
  | none, none, some f, none => [.citext f, limit]
  | none, none, none, some a => if notNullText a then [.citext a, limit] else [limit]
  | some t, some i, some f, some a =>
    if notNullText i && notNullText a then [.citext t, .citext i, .citext f, .citext a, limit]
    else if isNullText i && notNullText a then [.citext t, .citext f, .citext a, limit]
    else if notNullText i && isNullText a then [.citext t, .citext i, .citext f, limit]
    else [.citext t, .citext f, limit]
  | none, none, none, none => [limit]

theorem isNullText_eq (t : Text) : isNullText t = !notNullText t := by
  rw [isNullText, notNullText, bne, Bool.not_not]

theorem boundUnlessNull_some (t : Text) :
    boundUnlessNull (some t) = if notNullText t then [.citext t] else [] := by
  rw [boundUnlessNull, notNullText]
  simp

/-- Every `EXECUTE` binds the filters that are given, and not `null`, in the same order. -/
theorem usingArguments_eq (f : Filters) (limit : Nat) :
    usingArguments f limit = arguments f limit := by
  rcases f with ⟨title, imageurl, feedurl, actualurl⟩
  unfold usingArguments arguments
  cases imageurl with
  | none =>
    cases actualurl with
    | none => cases title <;> cases feedurl <;> rfl
    | some a =>
      cases title <;> cases feedurl <;> simp only [boundUnlessNull_some] <;>
        cases notNullText a <;> rfl
  | some i =>
    cases actualurl with
    | none =>
      cases title <;> cases feedurl <;> simp only [boundUnlessNull_some] <;>
        cases notNullText i <;> rfl
    | some a =>
      cases title <;> cases feedurl <;> simp only [boundUnlessNull_some, isNullText_eq] <;>
        cases notNullText i <;> cases notNullText a <;> rfl

def conditionText : Condition → Text
  | .titleIs n => "nf.title = ".toList ++ placeholder n
  | .imageurlIs n => "nf.imageurl = ".toList ++ placeholder n
  | .imageurlNull => "nf.imageurl is null".toList
  | .feedurlIs n => "nf.feedurl = ".toList ++ placeholder n
  | .actualurlIs n => "nf.actualurl = ".toList ++ placeholder n
  | .actualurlNull => "nf.actualurl is null".toList

theorem blankTest : BlankTest isBlank 'n' where
  empty := rfl
  visible := by
    intro t ht
    rw [isBlank, beq_eq_false_iff_ne]
    exact List.ne_nil_of_mem (mem_trimBy ht (by decide))

theorem n_mem_conditionText (c : Condition) : 'n' ∈ conditionText c := by
  cases c with
  | titleIs n => exact List.mem_append_left _ (by decide)
  | imageurlIs n => exact List.mem_append_left _ (by decide)
  | imageurlNull => decide
  | feedurlIs n => exact List.mem_append_left _ (by decide)
  | actualurlIs n => exact List.mem_append_left _ (by decide)
  | actualurlNull => decide

theorem n_mem_conditionTexts (cs : List Condition) : ∀ c ∈ cs.map conditionText, 'n' ∈ c := by
  intro c hc
  obtain ⟨d, _, rfl⟩ := List.mem_map.mp hc
  exact n_mem_conditionText d

/-- The variables spell the conditions, and count their placeholders. -/
structure Spells (b : Building) (w : WhereClause) : Prop where
  dSQLWhere : b.dSQLWhere = clauseText connective (w.conditions.map conditionText)
  countInput : b.countInput = w.countInput

section Spelling

variable {b : Building} {w : WhereClause}

theorem Spells.include (h : Spells b w) (c : Condition) :
    Spells (b.include (conditionText c)) (w.plain c) where
  dSQLWhere := by
    rw [Building.include, h.dSQLWhere, blankTest.addCondition_eq (n_mem_conditionTexts _),
      WhereClause.plain, List.map_append, List.map_singleton]
  countInput := h.countInput

theorem Spells.includeNext (h : Spells b w) {condition : Text} {is : Nat → Condition}
    (his : ∀ n, conditionText (is n) = condition ++ placeholder n) :
    Spells (b.includeNext condition) (w.bindNext is) where
  dSQLWhere := by
    have hclause := (h.include (is w.countInput)).dSQLWhere
    rw [his, ← h.countInput] at hclause
    rw [Building.includeNext, hclause, WhereClause.bindNext, WhereClause.plain, h.countInput]
  countInput := by rw [Building.includeNext, WhereClause.bindNext, h.countInput]

variable (sv : Server)

theorem spells_title (title : Option Text) :
    Spells (addTitle title ⟨[], 1⟩) ((WhereClause.mk [] 1).required title .titleIs) := by
  cases title with
  | none => exact ⟨rfl, rfl⟩
  | some t => exact ⟨rfl, rfl⟩

theorem Spells.addFeedurl (h : Spells b w) (feedurl : Option Text) :
    Spells (addFeedurl feedurl b) (w.required feedurl .feedurlIs) := by
  cases feedurl with
  | none => exact h
  | some t => exact h.includeNext fun _ => rfl

theorem Spells.addImageurl (h : Spells b w) (imageurl : Option Text) :
    Spells (addImageurl sv imageurl b)
      (w.nullable sv imageurl .imageurlIs .imageurlNull) := by
  cases imageurl with
  | none => exact h
  | some t =>
    rw [PostgresDispatch.addImageurl, WhereClause.nullable]
    split
    · exact h.include .imageurlNull
    · exact h.includeNext fun _ => rfl

theorem Spells.addActualurl (h : Spells b w) (actualurl : Option Text) :
    Spells (addActualurl sv actualurl b)
      (w.nullable sv actualurl .actualurlIs .actualurlNull) := by
  cases actualurl with
  | none => exact h
  | some t =>
    rw [PostgresDispatch.addActualurl, WhereClause.nullable]
    split
    · exact h.include .actualurlNull
    · exact h.includeNext fun _ => rfl

theorem spells_buildWhere (f : Filters) : Spells (buildWhere sv f) (whereClause sv f) :=
  (((spells_title f.title).addImageurl sv f.imageurl).addFeedurl f.feedurl).addActualurl sv
    f.actualurl

end Spelling

theorem placeholderNumbers_conditionText (c : Condition) :
    placeholderNumbers (conditionText c) = c.placeholders := by
  have hbefore : ∀ t : Text, '$' ∉ t → ∀ n, placeholderNumbers (t ++ placeholder n) = [n] := by
    intro t ht n
    rw [placeholderNumbers_before, placeholderNumbers_of_not_mem ht, List.nil_append]
  cases c with
  | titleIs n => exact hbefore _ (by decide) n
  | imageurlIs n => exact hbefore _ (by decide) n
  | imageurlNull => exact placeholderNumbers_of_not_mem (by decide)
  | feedurlIs n => exact hbefore _ (by decide) n
  | actualurlIs n => exact hbefore _ (by decide) n
  | actualurlNull => exact placeholderNumbers_of_not_mem (by decide)

theorem conditionText_head (c : Condition) (t : Text) :
    (conditionText c ++ t).takeWhile Char.isDigit = [] := by
  cases c <;> rfl

theorem placeholderNumbers_where (cs : List Condition) :
    placeholderNumbers (withKeyword isBlank " where ".toList
        (clauseText connective (cs.map conditionText))) =
      cs.flatMap Condition.placeholders := by
  have hheads : ∀ t ∈ cs.map conditionText, t.takeWhile Char.isDigit = [] := by
    intro t ht
    obtain ⟨c, _, rfl⟩ := List.mem_map.mp ht
    rw [← List.append_nil (conditionText c)]
    exact conditionText_head c []
  have hclause : placeholderNumbers (clauseText connective (cs.map conditionText)) =
      cs.flatMap Condition.placeholders := by
    rw [placeholderNumbers_clauseText (fun _ => rfl) (by decide) hheads, List.flatMap_map]
    simp only [placeholderNumbers_conditionText]
  rw [blankTest.withKeyword_eq (n_mem_conditionTexts cs)]
  cases cs with
  | nil => rfl
  | cons c cs =>
    have hhead : (clauseText connective ((c :: cs).map conditionText)).takeWhile Char.isDigit =
        [] := conditionText_head c _
    rw [List.map_cons, List.isEmpty_cons, if_neg Bool.false_ne_true, ← List.map_cons,
      placeholderNumbers_append hhead, hclause, placeholderNumbers_of_not_mem (by decide),
      List.nil_append]

theorem placeholderNumbers_dynamicSql (sv : Server) (f : Filters) (sort : SortOrder) :
    placeholderNumbers (dynamicSql sv f sort) =
      (whereClause sv f).conditions.flatMap Condition.placeholders ++
        [(whereClause sv f).countInput] := by
  have hspells := spells_buildWhere sv f
  have horder : (orderText sort).takeWhile Char.isDigit = [] := by cases sort <;> rfl
  have hplain : '$' ∉ orderText sort := by cases sort <;> decide +kernel
  have hselect : '$' ∉ selectText := by decide +kernel
  have hwhere : (withKeyword isBlank " where ".toList (clauseText connective
      ((whereClause sv f).conditions.map conditionText))).takeWhile Char.isDigit = [] := by
    rw [blankTest.withKeyword_eq (n_mem_conditionTexts _)]
    split
    · rfl
    · rfl
  rw [dynamicSql, hspells.dSQLWhere, hspells.countInput, ← List.append_assoc,
    placeholderNumbers_before, placeholderNumbers_append (by rfl),
    placeholderNumbers_append horder, placeholderNumbers_append hwhere, placeholderNumbers_where,
    placeholderNumbers_of_not_mem hplain, placeholderNumbers_of_not_mem hselect,
    placeholderNumbers_of_not_mem (by decide), List.nil_append, List.append_nil, List.append_nil]

/-- The value that the column of a condition is compared with. -/
def expected (f : Filters) : Condition → Option Text
  | .titleIs _ => f.title
  | .imageurlIs _ => f.imageurl
  | .imageurlNull => none
  | .feedurlIs _ => f.feedurl
  | .actualurlIs _ => f.actualurl
  | .actualurlNull => none

structure Bound (f : Filters) (w : WhereClause) (args : List Argument) : Prop where
  count : w.countInput = args.length + 1
  numbers : w.conditions.flatMap Condition.placeholders = List.range' 1 args.length
  values : ∀ c ∈ w.conditions, ∀ k ∈ c.placeholders, ∀ rest,
    (args ++ rest)[k - 1]? = (expected f c).map Argument.citext

section Bound

variable {f : Filters} {w : WhereClause} {args : List Argument}

theorem bound_start (f : Filters) : Bound f ⟨[], 1⟩ [] where
  count := rfl
  numbers := rfl
  values := by
    intro c hc
    cases hc

theorem Bound.bindNext (h : Bound f w args) {is : Nat → Condition} {t : Text}
    (hp : ∀ n, (is n).placeholders = [n]) (ht : ∀ n, expected f (is n) = some t) :
    Bound f (w.bindNext is) (args ++ [.citext t]) where
  count := by rw [WhereClause.bindNext, h.count, List.length_append, List.length_singleton]
  numbers := by
    rw [WhereClause.bindNext, List.flatMap_append, List.flatMap_singleton, hp, h.numbers, h.count,
      List.length_append, List.length_singleton, List.range'_1_concat, Nat.add_comm 1]
  values := by
    intro c hc k hk rest
    rw [WhereClause.bindNext] at hc
    rw [List.append_assoc]
    rcases List.mem_append.mp hc with hc | hc
    · exact h.values c hc k hk _
    · rw [List.mem_singleton.mp hc, hp, List.mem_singleton] at hk
      rw [List.mem_singleton.mp hc, ht, hk, h.count, Nat.add_sub_cancel]
      simp

theorem Bound.plain (h : Bound f w args) {c : Condition} (hp : c.placeholders = []) :
    Bound f (w.plain c) args where
  count := h.count
  numbers := by
    rw [WhereClause.plain, List.flatMap_append, List.flatMap_singleton, hp, List.append_nil,
      h.numbers]
  values := by
    intro d hd k hk rest
    rw [WhereClause.plain] at hd
    rcases List.mem_append.mp hd with hd | hd
    · exact h.values d hd k hk rest
    · rw [List.mem_singleton.mp hd, hp] at hk
      cases hk

theorem Bound.required (h : Bound f w args) (is : Nat → Condition) {x : Option Text}
    (hp : ∀ n, (is n).placeholders = [n]) (hx : ∀ n, expected f (is n) = x) :
    Bound f (w.required x is) (args ++ boundIfGiven x) := by
  cases x with
  | none =>
    rw [boundIfGiven, Option.map_none, Option.toList_none, List.append_nil]
    exact h
  | some t => exact h.bindNext hp hx

/-- A filter that is not a misspelled `null` is bound exactly when it has a placeholder. -/
theorem Bound.nullable {sv : Server} (h : Bound f w args) (is : Nat → Condition)
    (isNull : Condition) {x : Option Text} (hp : ∀ n, (is n).placeholders = [n])
    (hpn : isNull.placeholders = []) (hx : ∀ n, expected f (is n) = x)
    (hspelled : misspelledNulls sv x = 0) :
    Bound f (w.nullable sv x is isNull) (args ++ boundUnlessNull x) := by
  cases x with
  | none =>
    rw [boundUnlessNull, List.append_nil]
    exact h
  | some t =>
    rw [WhereClause.nullable, boundUnlessNull]
    by_cases hnull : sv.lower t = "null".toList
    · have hexact : t = "null".toList := by
        by_contra hne
        rw [misspelledNulls, if_pos ⟨hnull, hne⟩] at hspelled
        cases hspelled
      rw [if_pos hnull, if_pos hexact, List.append_nil]
      exact h.plain hpn
    · have hexact : t ≠ "null".toList := by
        intro heq
        rw [heq, lower_null] at hnull
        exact hnull rfl
      rw [if_neg hnull, if_neg hexact]
      exact h.bindNext hp hx

end Bound

theorem bound_whereClause {sv : Server} {f : Filters} (hi : misspelledNulls sv f.imageurl = 0)
    (ha : misspelledNulls sv f.actualurl = 0) :
    Bound f (whereClause sv f) (boundIfGiven f.title ++ boundUnlessNull f.imageurl ++
      boundIfGiven f.feedurl ++ boundUnlessNull f.actualurl) := by
  have htitle := (bound_start f).required .titleIs (fun _ => rfl) fun _ => rfl
  have himage := htitle.nullable .imageurlIs .imageurlNull (fun _ => rfl) rfl (fun _ => rfl) hi
  have hfeed := himage.required .feedurlIs (fun _ => rfl) fun _ => rfl
  exact hfeed.nullable .actualurlIs .actualurlNull (fun _ => rfl) rfl (fun _ => rfl) ha

/-- `countInput` is one more than the placeholders of the clause. -/
def Counted (w : WhereClause) : Prop :=
  w.countInput = (w.conditions.flatMap Condition.placeholders).length + 1

theorem Counted.required {w : WhereClause} (h : Counted w) (is : Nat → Condition)
    (hp : ∀ n, (is n).placeholders = [n]) (x : Option Text) : Counted (w.required x is) := by
  cases x with
  | none => exact h
  | some t =>
    rw [Counted, WhereClause.required, WhereClause.bindNext, List.flatMap_append,
      List.flatMap_singleton, hp, List.length_append, List.length_singleton, ← h]

theorem Counted.nullable {w : WhereClause} (h : Counted w) (sv : Server) (is : Nat → Condition)
    (isNull : Condition) (hp : ∀ n, (is n).placeholders = [n]) (hpn : isNull.placeholders = [])
    (x : Option Text) : Counted (w.nullable sv x is isNull) := by
  cases x with
  | none => exact h
  | some t =>
    rw [WhereClause.nullable]
    split
    · rw [Counted, WhereClause.plain, List.flatMap_append, List.flatMap_singleton, hpn,
        List.append_nil]
      exact h
    · exact h.required is hp (some t)

theorem counted_whereClause (sv : Server) (f : Filters) : Counted (whereClause sv f) := by
  have hstart : Counted ⟨[], 1⟩ := rfl
  have htitle := hstart.required .titleIs (fun _ => rfl) f.title
  have himage := htitle.nullable sv .imageurlIs .imageurlNull (fun _ => rfl) rfl f.imageurl
  have hfeed := himage.required .feedurlIs (fun _ => rfl) f.feedurl
  exact hfeed.nullable sv .actualurlIs .actualurlNull (fun _ => rfl) rfl f.actualurl

/-- Every placeholder of the query has a value, and it is the one its column, or the limit,
is for. -/
structure Binds (sv : Server) (f : Filters) (sort : SortOrder) (limit : Nat) : Prop where
  count : (placeholderNumbers (dynamicSql sv f sort)).length = (usingArguments f limit).length
  numbers : placeholderNumbers (dynamicSql sv f sort) =
    List.range' 1 (usingArguments f limit).length
  columns : ∀ c ∈ (whereClause sv f).conditions, ∀ k ∈ c.placeholders,
    (usingArguments f limit)[k - 1]? = (expected f c).map Argument.citext
  limit : (usingArguments f limit)[(whereClause sv f).countInput - 1]? = some (.int limit)

theorem length_usingArguments (sv : Server) (f : Filters) (limit : Nat) :
    (usingArguments f limit).length =
      (whereClause sv f).countInput +
        (misspelledNulls sv f.imageurl + misspelledNulls sv f.actualurl) := by
  rw [(aligned_filters sv f).count, usingArguments_eq, arguments, List.length_append,
    List.length_singleton]

theorem binds_iff_spelled (sv : Server) (f : Filters) (sort : SortOrder) (limit : Nat) :
    Binds sv f sort limit ↔
      misspelledNulls sv f.imageurl = 0 ∧ misspelledNulls sv f.actualurl = 0 := by
  constructor
  · intro h
    have hcount := h.count
    rw [placeholderNumbers_dynamicSql, List.length_append, List.length_singleton,
      length_usingArguments sv, ← counted_whereClause sv f] at hcount
    omega
  · intro hspelled
    have hbound : Bound f (whereClause sv f) (boundIfGiven f.title ++
        boundUnlessNull f.imageurl ++ boundIfGiven f.feedurl ++ boundUnlessNull f.actualurl) :=
      bound_whereClause hspelled.1 hspelled.2
    have hargs : usingArguments f limit = boundIfGiven f.title ++ boundUnlessNull f.imageurl ++
        boundIfGiven f.feedurl ++ boundUnlessNull f.actualurl ++ [.int limit] :=
      usingArguments_eq f limit
    generalize boundIfGiven f.title ++ boundUnlessNull f.imageurl ++ boundIfGiven f.feedurl ++
      boundUnlessNull f.actualurl = args at hbound hargs
    have hnumbers : placeholderNumbers (dynamicSql sv f sort) =
        List.range' 1 (usingArguments f limit).length := by
      rw [placeholderNumbers_dynamicSql, hbound.numbers, hbound.count, hargs, List.length_append,
        List.length_singleton, List.range'_1_concat, Nat.add_comm 1]
    refine ⟨?_, hnumbers, ?_, ?_⟩
    · rw [hnumbers, List.length_range']
    · intro c hc k hk
      rw [hargs]
      exact hbound.values c hc k hk _
    · rw [hargs, hbound.count, Nat.add_sub_cancel, List.getElem?_concat_length]

/-- The filter does not ask for rows without a value in a spelling other than `null`. -/
def SpelledNull (sv : Server) (x : Option Text) : Prop :=
  ∀ t, x = some t → sv.lower t = "null".toList → t = "null".toList

theorem misspelledNulls_eq_zero {sv : Server} {x : Option Text} :
    misspelledNulls sv x = 0 ↔ SpelledNull sv x := by
  cases x with
  | none =>
    apply iff_of_true rfl
    intro t ht
    cases ht
  | some t =>
    rw [misspelledNulls]
    simp [SpelledNull]

/-- A call without NULs runs the query with the values of its `EXECUTE`. -/
theorem extractnewsfeed_eq (sv : Server) {title imageurl feedurl actualurl limit sort : Option Text}
    {n : Nat} (hlimit : effectiveLimit limit = .ok n) (rows : List Row) :
    extractnewsfeed sv (some "extractNewsFeed".toList) title imageurl feedurl actualurl limit sort
        rows =
      if [some "extractNewsFeed".toList, title, imageurl, feedurl, actualurl, limit, sort].any
          fun p => p.any fun t => t.contains '\x00' then .error .nulCharacter
      else
        let f := filters title imageurl feedurl actualurl
        runQuery sv (whereClause sv f) (effectiveSort sv sort) (usingArguments f n) rows := by
  have hmode : (some "extractNewsFeed".toList).bind (sanitise isLetter 255) =
      some "extractNewsFeed".toList := optionMode_kept
  rw [extractnewsfeed, hmode, if_pos rfl, hlimit]
  dsimp only
  rw [usingArguments_eq]

/-- The query of a call and its `EXECUTE` agree, and the call does not raise for a
placeholder, exactly when no nullable filter is `null` in another spelling. -/
theorem bindings_agree_iff (sv : Server) (title imageurl feedurl actualurl limit sort : Option Text)
    (n : Nat) (hlimit : effectiveLimit limit = .ok n) :
    (Binds sv (filters title imageurl feedurl actualurl) (effectiveSort sv sort) n ∧
        ∀ rows, extractnewsfeed sv (some "extractNewsFeed".toList) title imageurl feedurl
          actualurl limit sort rows ≠ .error .placeholders) ↔
      SpelledNull sv (filters title imageurl feedurl actualurl).imageurl ∧
        SpelledNull sv (filters title imageurl feedurl actualurl).actualurl := by
  rw [binds_iff_spelled, misspelledNulls_eq_zero, misspelledNulls_eq_zero]
  apply and_iff_left_of_imp
  intro hspelled rows hraise
  rw [← misspelledNulls_eq_zero, ← misspelledNulls_eq_zero] at hspelled
  rw [extractnewsfeed_eq sv hlimit] at hraise
  split at hraise
  · cases hraise
  · dsimp only at hraise
    rw [usingArguments_eq, runQuery_eq, if_pos hspelled] at hraise
    cases hraise

theorem lower_null_agrees :
    Binds sampleServer (filters none (some "null".toList) none none) .asc 25 := by
  have hspelled : SpelledNull sampleServer (filters none (some "null".toList) none none).imageurl ∧
      SpelledNull sampleServer (filters none (some "null".toList) none none).actualurl := by
    rw [← misspelledNulls_eq_zero, ← misspelledNulls_eq_zero]
    decide
  exact ((bindings_agree_iff sampleServer none (some "null".toList) none none none none 25
    (by decide)).mpr hspelled).1

/-- `?image_url=NULL`: the text of the query has one placeholder, for the limit, and the
first of two values is the filter. -/
theorem upper_null_misbound :
    placeholderNumbers (dynamicSql sampleServer (filters none (some "NULL".toList) none none)
        .asc) = [1] ∧
      usingArguments (filters none (some "NULL".toList) none none) 25 =
        [.citext "NULL".toList, .int 25] ∧
      ¬ Binds sampleServer (filters none (some "NULL".toList) none none) .asc 25 ∧
      extractnewsfeed sampleServer (some "extractNewsFeed".toList) none (some "NULL".toList) none
        none (some "25".toList) none sampleTable.rows = .error .placeholders := by
  refine ⟨by decide +kernel, by decide, ?_, by decide +kernel⟩
  rw [binds_iff_spelled]
  decide

end PostgresDispatch
