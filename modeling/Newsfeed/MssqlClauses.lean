import Newsfeed.MssqlExtract
import Newsfeed.SqlClauses

/-! # SQL Server: what the clause of a query means

Four blocks of `extractNewsFeed` append to one text. The block for `@actualurl` tests
`@imageurl` for `null`, so what it asks of a row depends on another parameter.
-/
namespace MssqlClauses

open TextOperations SqlLogic ExtractFilters OrderedSelection MssqlProcedures MssqlExtract
open SqlClauses

def connective : Text := " and ".toList

section Text

variable (sv : ReadingServer)

/-- `ltrim(rtrim(x)) = ltrim(rtrim(''))`. -/
def isBlank (t : Text) : Bool := textEq sv.toServer (trimSpaces t) []

def includeCondition (dSQLWhere : Text) (condition : String) : Text :=
  addCondition (isBlank sv) connective dSQLWhere condition.toList

def addTitle (title : Option Text) (dSQLWhere : Text) : Text :=
  match title with
  | none => dSQLWhere
  | some _ => "nf.title = @_titleString".toList

def addImageurl (imageurl : Option Text) (dSQLWhere : Text) : Text :=
  match imageurl with
  | none => dSQLWhere
  | some _ =>
    if asksNull sv imageurl then includeCondition sv dSQLWhere "nf.imageurl is null"
    else includeCondition sv dSQLWhere "nf.imageurl = @_imageurlString"

def addFeedurl (feedurl : Option Text) (dSQLWhere : Text) : Text :=
  match feedurl with
  | none => dSQLWhere
  | some _ => includeCondition sv dSQLWhere "nf.feedurl = @_feedurlString"

/-- The source tests `@imageurl` here too. -/
def addActualurl (imageurl actualurl : Option Text) (dSQLWhere : Text) : Text :=
  match actualurl with
  | none => dSQLWhere
  | some _ =>
    if asksNull sv imageurl then includeCondition sv dSQLWhere "nf.actualurl is null"
    else includeCondition sv dSQLWhere "nf.actualurl = @_actualurlString"

def buildWhere (f : Filters) : Text :=
  withKeyword (isBlank sv) " where ".toList <|
    addActualurl sv f.imageurl f.actualurl <| addFeedurl sv f.feedurl <|
      addImageurl sv f.imageurl <| addTitle f.title []

end Text

def conditionText : Condition → String
  | .titleIs => "nf.title = @_titleString"
  | .imageurlIs => "nf.imageurl = @_imageurlString"
  | .imageurlNull => "nf.imageurl is null"
  | .feedurlIs => "nf.feedurl = @_feedurlString"
  | .actualurlIs => "nf.actualurl = @_actualurlString"
  | .actualurlNull => "nf.actualurl is null"

def spelled (cs : List Condition) : Text :=
  clauseText connective (cs.map fun c => (conditionText c).toList)

section Spelling

variable (sv : ReadingServer)

theorem blankTest : BlankTest (isBlank sv) 'n' where
  empty := by
    rw [isBlank, textEq, Collation.eq_iff]
    rfl
  visible := by
    intro t ht
    have hmem : 'n' ∈ trimSpaces t := mem_trimBy ht (by decide)
    rw [isBlank, textEq, ← Bool.not_eq_true, Collation.eq_iff]
    exact sv.letters_visible _ ⟨'n', hmem, by decide⟩

theorem n_mem_conditionTexts (cs : List Condition) :
    ∀ t ∈ cs.map fun c => (conditionText c).toList, 'n' ∈ t := by
  intro t ht
  obtain ⟨c, _, rfl⟩ := List.mem_map.mp ht
  cases c <;> decide

theorem include_spelled (cs : List Condition) (c : Condition) :
    includeCondition sv (spelled cs) (conditionText c) = spelled (cs ++ [c]) := by
  rw [includeCondition, spelled, (blankTest sv).addCondition_eq (n_mem_conditionTexts cs), spelled,
    List.map_append, List.map_singleton]

theorem addTitle_spelled (title : Option Text) :
    addTitle title (spelled []) = spelled (titleConditions title) := by
  cases title with
  | none => rfl
  | some t => rfl

theorem addImageurl_spelled (imageurl : Option Text) (cs : List Condition) :
    addImageurl sv imageurl (spelled cs) = spelled (cs ++ imageurlConditions sv imageurl) := by
  cases imageurl with
  | none => rw [addImageurl, imageurlConditions, List.append_nil]
  | some t =>
    rw [addImageurl, imageurlConditions]
    split
    · exact include_spelled sv cs .imageurlNull
    · exact include_spelled sv cs .imageurlIs

theorem addFeedurl_spelled (feedurl : Option Text) (cs : List Condition) :
    addFeedurl sv feedurl (spelled cs) = spelled (cs ++ feedurlConditions feedurl) := by
  cases feedurl with
  | none => rw [addFeedurl, feedurlConditions, List.append_nil]
  | some t => exact include_spelled sv cs .feedurlIs

theorem addActualurl_spelled (imageurl actualurl : Option Text) (cs : List Condition) :
    addActualurl sv imageurl actualurl (spelled cs) =
      spelled (cs ++ actualurlConditions sv imageurl actualurl) := by
  cases actualurl with
  | none => rw [addActualurl, actualurlConditions, List.append_nil]
  | some t =>
    rw [addActualurl, actualurlConditions]
    split
    · exact include_spelled sv cs .actualurlNull
    · exact include_spelled sv cs .actualurlIs

/-- The text that the procedure puts together spells the conditions that rows are tested with. -/
theorem buildWhere_eq (f : Filters) :
    buildWhere sv f = if (whereClause sv f).isEmpty then []
      else " where ".toList ++ spelled (whereClause sv f) := by
  have hstart : addTitle f.title [] = spelled (titleConditions f.title) := addTitle_spelled f.title
  rw [buildWhere, hstart, addImageurl_spelled, addFeedurl_spelled,
    addActualurl_spelled, ← whereClause, spelled,
    (blankTest sv).withKeyword_eq (n_mem_conditionTexts _), List.isEmpty_map]

end Spelling

def NullableMeans (sv : ReadingServer) (column : Option Text) (x : Option Text) : Prop :=
  ∀ t, x = some t → if asksNull sv x then column = none
    else ∃ v, column = some v ∧ textEq sv.toServer v t = true

structure OthersMean (sv : ReadingServer) (f : Filters) (r : Row) : Prop where
  title : ∀ t, f.title = some t → textEq sv.toServer r.title t = true
  feedurl : ∀ t, f.feedurl = some t → textEq sv.toServer r.feedurl t = true
  imageurl : NullableMeans sv r.imageurl f.imageurl

/-- What the parameters say of a row, each of its own column. -/
def Means (sv : ReadingServer) (f : Filters) (r : Row) : Prop :=
  OthersMean sv f r ∧ NullableMeans sv r.actualurl f.actualurl

/-- What the clause asks of `actualurl`. -/
def ActualurlAsked (sv : ReadingServer) (f : Filters) (r : Row) : Prop :=
  ∀ t, f.actualurl = some t → if asksNull sv f.imageurl then r.actualurl = none
    else ∃ a, r.actualurl = some a ∧ textEq sv.toServer a t = true

/-- `@actualurl` is given, and is `null` when `@imageurl` is not or the other way round. -/
def TestsDiffer (sv : ReadingServer) (f : Filters) : Prop :=
  f.actualurl.isSome = true ∧ asksNull sv f.imageurl ≠ asksNull sv f.actualurl

instance (sv : ReadingServer) (f : Filters) : Decidable (TestsDiffer sv f) :=
  inferInstanceAs (Decidable (_ ∧ _))

/-- A row on which `is null` and `= @actualurl` answer differently from each other. -/
def ActualurlDecides (sv : ReadingServer) (f : Filters) (r : Row) : Prop :=
  ∀ t, f.actualurl = some t → ∀ a, r.actualurl = some a → textEq sv.toServer a t = true

section Meaning

variable {sv : ReadingServer} {f : Filters} {r : Row}

theorem matchesWhere_iff_asked :
    matchesWhere sv f r = true ↔ OthersMean sv f r ∧ ActualurlAsked sv f r := by
  rw [matchesWhere_iff]
  constructor
  · intro h
    rcases h with ⟨htitle, himage, hfeed, hactual⟩
    exact ⟨⟨htitle, hfeed, himage⟩, hactual⟩
  · intro h
    exact ⟨h.1.title, h.1.imageurl, h.1.feedurl, h.2⟩

theorem asked_of_same (h : ¬ TestsDiffer sv f) :
    ActualurlAsked sv f r ↔ NullableMeans sv r.actualurl f.actualurl := by
  apply forall₂_congr
  intro t ht
  have hsame : asksNull sv f.imageurl = asksNull sv f.actualurl := by
    by_contra hne
    exact h ⟨by rw [ht]; rfl, hne⟩
  rw [hsame]

theorem asked_of_differ (h : TestsDiffer sv f) :
    (ActualurlAsked sv f r ↔ NullableMeans sv r.actualurl f.actualurl) ↔
      ¬ ActualurlDecides sv f r := by
  obtain ⟨t, ht⟩ := Option.isSome_iff_exists.mp h.1
  have hne := h.2
  simp only [ActualurlAsked, NullableMeans, ActualurlDecides, ht, Option.some.injEq,
    forall_eq'] at hne ⊢
  cases himage : asksNull sv f.imageurl with
  | false =>
    have hactual : asksNull sv (some t) = true := by
      rw [himage] at hne
      exact Bool.eq_true_of_not_eq_false fun heq => hne heq.symm
    rw [hactual]
    cases r.actualurl with
    | none => simp
    | some a => simp
  | true =>
    have hactual : asksNull sv (some t) = false := by
      rw [himage] at hne
      exact Bool.eq_false_of_not_eq_true fun heq => hne heq.symm
    rw [hactual]
    cases r.actualurl with
    | none => simp
    | some a => simp

/-- The row is tested for what the parameters say unless it passes the other three tests
and the wrong one decides. -/
theorem row_tested_iff :
    (matchesWhere sv f r = true ↔ Means sv f r) ↔
      (TestsDiffer sv f → OthersMean sv f r → ¬ ActualurlDecides sv f r) := by
  rw [matchesWhere_iff_asked, Means, and_congr_right_iff]
  by_cases hdiffer : TestsDiffer sv f
  · rw [asked_of_differ hdiffer]
    simp [hdiffer]
  · simp [asked_of_same hdiffer, hdiffer]

/-- A row with a `NULL` for `actualurl` that passes the other three tests. -/
def nullRow (sv : ReadingServer) (f : Filters) : Row where
  title := f.title.getD []
  imageurl := if asksNull sv f.imageurl then none else f.imageurl
  feedurl := f.feedurl.getD []
  actualurl := none
  publishDate := 0
  createdDate := 0
  modifiedDate := none

theorem nullRow_others (sv : ReadingServer) (f : Filters) : OthersMean sv f (nullRow sv f) where
  title := by
    intro t ht
    rw [nullRow, ht]
    exact Collation.eq_refl _ t
  feedurl := by
    intro t ht
    rw [nullRow, ht]
    exact Collation.eq_refl _ t
  imageurl := by
    intro t ht
    rw [nullRow]
    by_cases hnull : asksNull sv f.imageurl = true
    · simp [hnull]
    · simp only [hnull, Bool.false_eq_true, ↓reduceIte]
      exact ⟨t, ht, Collation.eq_refl _ t⟩

end Meaning

/-- For every row the clause, whose text is `buildWhere_eq`, means what the parameters say
exactly when the row is not decided by the wrong test; for all rows, exactly when `@actualurl`
is absent or is `null` if and only if `@imageurl` is. -/
theorem clause_means_iff (sv : ReadingServer) (f : Filters) :
    (∀ r, (matchesWhere sv f r = true ↔ Means sv f r) ↔
      (TestsDiffer sv f → OthersMean sv f r → ¬ ActualurlDecides sv f r)) ∧
    ((∀ r, matchesWhere sv f r = true ↔ Means sv f r) ↔
      f.actualurl = none ∨ asksNull sv f.imageurl = asksNull sv f.actualurl) := by
  apply And.intro fun r => row_tested_iff
  have hsame : ¬ TestsDiffer sv f ↔
      f.actualurl = none ∨ asksNull sv f.imageurl = asksNull sv f.actualurl := by
    rw [TestsDiffer, not_and_or, Bool.not_eq_true, Option.isSome_eq_false_iff,
      Option.isNone_iff_eq_none, not_ne_iff]
  rw [← hsame]
  constructor
  · intro h hdiffer
    have hrow := row_tested_iff.mp (h (nullRow sv f)) hdiffer (nullRow_others sv f)
    apply hrow
    intro t _ a ha
    cases ha
  · intro h r
    rw [row_tested_iff]
    exact fun hdiffer => absurd hdiffer h

def sampleReading : ReadingServer where
  toServer := sampleServer
  lower := lowerAscii
  format := fun _ => []

/-- `?actual_url=null` -/
def nullActualurl : Filters := ⟨none, none, none, some "null".toList⟩

def plainRow : Row := ⟨"Hello".toList, none, "https://example.org/feed".toList, none, noon, noon,
  none⟩

/-- The row without an `actualurl` is asked for, and is not found: the clause compares its
`NULL` with the text `null`. -/
theorem plainRow_missed :
    buildWhere sampleReading nullActualurl =
        " where nf.actualurl = @_actualurlString".toList ∧
      ¬ (matchesWhere sampleReading nullActualurl plainRow = true ↔
        Means sampleReading nullActualurl plainRow) := by
  refine ⟨by decide, ?_⟩
  rw [row_tested_iff]
  intro h
  have hothers : OthersMean sampleReading nullActualurl plainRow := by
    refine ⟨?_, ?_, ?_⟩
    · intro t ht
      cases ht
    · intro t ht
      cases ht
    · intro t ht
      cases ht
  apply h (by decide) hothers
  intro t _ a ha
  cases ha

end MssqlClauses
