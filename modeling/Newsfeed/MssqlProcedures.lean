import Newsfeed.PayloadRows
import Newsfeed.RelationalTables
import Newsfeed.SqlLogic
import Newsfeed.StatementInterleaving

/-! # SQL Server: the newsfeed table and its batch procedure

Titles are the primary key, under the collation of the database. What a call has parsed
and returned is in its own table variables. A statement that fails changes nothing, the
statements after it find nothing to write, and the driver reports the error.
-/
namespace MssqlProcedures

open TextOperations FallibleOperations JsonText SqlLogic RelationalTables FeedModels CudHandlers
open PayloadRows StatementInterleaving

/-- Microseconds. -/
abbrev Timestamp := ℤ

structure Server where
  coll : Collation
  /-- A text with an ASCII letter is not taken for the empty one. -/
  letters_visible : ∀ t, (∃ c ∈ t, Char.isAlpha c = true) → coll.key t ≠ coll.key []
  /-- `TRY_CAST(x AS datetime2(6))` -/
  tryCast : Text → Option Timestamp

structure Row where
  title : Text
  imageurl : Option Text
  feedurl : Text
  actualurl : Option Text
  publishDate : Timestamp
  createdDate : Timestamp
  modifiedDate : Option Timestamp
  deriving DecidableEq, Repr

structure ParsedItem where
  title : Option Text
  imageurl : Option Text
  feedurl : Option Text
  actualurl : Option Text
  publishDate : Option Timestamp
  deriving DecidableEq, Repr

/-- The variables of a call; `returned` is `@inserted`, `@updated` or `@deleted`. -/
structure Variables where
  parsed : List ParsedItem
  returned : List Text
  json : Option Text
  resultSet : List (Option Text)
  deriving DecidableEq, Repr

/-- `JSON_VALUE(value, path)` is an `nvarchar(4000)`, `NULL` when the value is longer. -/
def jsonValue (name : String) (element : Json) : Option Text :=
  (column name element).filter fun t => utf16Len t ≤ 4000

/-- Assigning to an `nvarchar(n)` column raises when the text is longer. -/
def assign (column : String) (n : Nat) (x : Option Text) : Except SqlError (Option Text) :=
  if x.all fun t => utf16Len t ≤ n then .ok x else .error (.dataTooLong column)

section Procedure

variable (sv : Server)

def textEq (a b : Text) : Bool := sv.coll.eq a b

/-- `x IS NOT NULL AND TRIM(x) <> ''`. -/
def isGiven (x : Option Text) : Bool :=
  ((isNull x).not.and (sqlEq (textEq sv) (x.map trimSpaces) (some [])).not).holds

/-- The filter of the parsing statement is the same in every mode. -/
def isParsed (element : Json) : Bool :=
  isGiven sv (jsonValue "title" element) && isGiven sv (jsonValue "feed_url" element) &&
    isGiven sv (jsonValue "publish_date" element)

/-- `NULLIF(TRIM(x), '')`. -/
def nullifBlank (x : Option Text) : Option Text :=
  x.bind fun s => if textEq sv (trimSpaces s) [] then none else some (trimSpaces s)

def parseItem (element : Json) : Except SqlError ParsedItem := do
  let title ← assign "title" 255 (jsonValue "title" element)
  let imageurl ← assign "imageurl" 255 (nullifBlank sv (jsonValue "image_url" element))
  let feedurl ← assign "feedurl" 768 (jsonValue "feed_url" element)
  let actualurl ← assign "actualurl" 255 (nullifBlank sv (jsonValue "actual_url" element))
  let publishDate := (jsonValue "publish_date" element).bind sv.tryCast
  return ⟨title, imageurl, feedurl, actualurl, publishDate⟩

def parseItems (elements : List Json) : Except SqlError (List ParsedItem) :=
  (elements.filter (isParsed sv)).mapM (parseItem sv)

/-- `nf.title = p.title`. -/
def titleMatches (p : ParsedItem) (nf : Row) : Bool :=
  (sqlEq (textEq sv) (some nf.title) p.title).holds

/-- `p.title = i.title` where the right side is a returned title. -/
def joinsTitle (p : ParsedItem) (returned : Text) : Bool :=
  (sqlEq (textEq sv) p.title (some returned)).holds

def newRow (now : Timestamp) (title feedurl : Text) (publishDate : Timestamp) (p : ParsedItem) :
    Row := ⟨title, p.imageurl, feedurl, p.actualurl, publishDate, now, some now⟩

def insertItem (now : Timestamp) (rows : List Row) (p : ParsedItem) :
    Except SqlError (List Row × Text) :=
  match p.title, p.feedurl, p.publishDate with
  | none, _, _ => .error (.notNull "title")
  | some _, none, _ => .error (.notNull "feedurl")
  | some _, some _, none => .error (.notNull "publish_date")
  | some title, some feedurl, some publishDate =>
    if existsRow (fun r => textEq sv r.title title) rows then .error .uniqueViolation
    else .ok (rows ++ [newRow now title feedurl publishDate p], title)

def insertItems (now : Timestamp) :
    List Row → List ParsedItem → Except SqlError (List Row × List Text)
  | rows, [] => .ok (rows, [])
  | rows, p :: ps => do
    let (rows', title) ← insertItem sv now rows p
    let (rows'', titles) ← insertItems now rows' ps
    return (rows'', title :: titles)

/-- `WHERE NOT EXISTS` sees the table as it is before the insert. -/
def isNew (rows : List Row) (p : ParsedItem) : Bool := !existsRow (titleMatches sv p) rows

/-- `a = b OR (a IS NULL AND b IS NULL)`. -/
def equalOrBothNull (a b : Option Text) : Truth :=
  (sqlEq (textEq sv) a b).or ((isNull a).and (isNull b))

/-- The `WHERE` clause of the update. -/
def changeTest (nf : Row) (p : ParsedItem) : Truth :=
  ((((equalOrBothNull sv nf.imageurl p.imageurl).and
      (sqlEq (textEq sv) (some nf.feedurl) p.feedurl)).and
        (equalOrBothNull sv nf.actualurl p.actualurl)).and
          (sqlEq (· == ·) (some nf.publishDate) p.publishDate)).not

/-- A row is updated from the first item that matches it and passes the test. -/
def updateRow (now : Timestamp) (ps : List ParsedItem) (nf : Row) :
    Except SqlError (Row × List Text) :=
  match ps.find? fun p => titleMatches sv p nf && (changeTest sv nf p).holds with
  | none => .ok (nf, [])
  | some p =>
    match p.feedurl, p.publishDate with
    | none, _ => .error (.notNull "feedurl")
    | some _, none => .error (.notNull "publish_date")
    | some feedurl, some publishDate =>
      .ok ({ nf with
        imageurl := p.imageurl
        feedurl := feedurl
        actualurl := p.actualurl
        publishDate := publishDate
        modifiedDate := some now }, [nf.title])

def updateRows (now : Timestamp) (ps : List ParsedItem) (rows : List Row) :
    Except SqlError (List Row × List Text) := do
  let updated ← rows.mapM (updateRow sv now ps)
  return (updated.map Prod.fst, updated.flatMap Prod.snd)

def deleteMatches (ps : List ParsedItem) (nf : Row) : Bool := ps.any fun p => titleMatches sv p nf

def written (now : Timestamp) (mode : CudMode) (ps : List ParsedItem) (rows : List Row) :
    Except SqlError (List Row × List Text) :=
  match mode with
  | .insert => insertItems sv now rows (ps.filter (isNew sv rows))
  | .update => updateRows sv now ps rows
  | .delete => .ok (rows.filter fun nf => !deleteMatches sv ps nf,
      (rows.filter (deleteMatches sv ps)).map Row.title)

def insertStatus (i : Option Text) : StatusRow :=
  if i.isSome then ⟨"Success".toList, "Record(s) inserted".toList⟩
  else ⟨"Skipped".toList, "SKIPPED_EXISTS".toList⟩

def updateStatus (nf : Option Row) (u : Option Text) : StatusRow :=
  if u.isSome then ⟨"Success".toList, "Record(s) updated".toList⟩
  else if nf.isSome then ⟨"Skipped".toList, "SKIPPED_EXISTS".toList⟩
  else ⟨"Skipped".toList, "SKIPPED_NOT_FOUND".toList⟩

def deleteStatus (d : Option Text) : StatusRow :=
  if d.isSome then ⟨"Success".toList, "Record(s) deleted".toList⟩
  else ⟨"Skipped".toList, "SKIPPED_NOT_FOUND".toList⟩

/-- The statuses of a mode; an update joins the table as it is after the write. A status belongs
to its row of the join: there is no `ORDER BY`, and the list is in the order of the batch. -/
def statuses (mode : CudMode) (ps : List ParsedItem) (returned : List Text) (rows : List Row) :
    List StatusRow :=
  match mode with
  | .insert => (leftJoin (joinsTitle sv) ps returned).map fun (_, i) => insertStatus i
  | .update =>
    (leftJoin (fun pn u => joinsTitle sv pn.1 u) (leftJoin (titleMatches sv) ps rows) returned).map
      fun ((_, nf), u) => updateStatus nf u
  | .delete => (leftJoin (joinsTitle sv) ps returned).map fun (_, d) => deleteStatus d

abbrev Stmt := Statement (List Row) Variables SqlError

/-- `OPENJSON(@payload)` into `@parsed`. -/
def insertParsed (payload : Text) : Stmt := fun rows v =>
  let parsed : Except SqlError (List ParsedItem) := payloadRows payload >>= parseItems sv
  (rows, parsed.map fun parsed => { v with parsed := parsed })

def write (now : Timestamp) (mode : CudMode) : Stmt := fun rows v =>
  match written sv now mode v.parsed rows with
  | .error e => (rows, .error e)
  | .ok (rows', returned) => (rows', .ok { v with returned := returned })

/-- `FOR JSON PATH` is `NULL` for no rows. -/
def setJson (mode : CudMode) : Stmt := fun rows v =>
  let st := statuses sv mode v.parsed v.returned rows
  (rows, .ok { v with
    json := if st.isEmpty then none else some (render compact (.arr (st.map StatusRow.toJson))) })

/-- `SELECT ISNULL(@json, '[]')`. -/
def selectJson : Stmt := fun rows v =>
  (rows, .ok { v with resultSet := [some (v.json.getD "[]".toList)] })

def modeStatements (now : Timestamp) : OptionMode → List Stmt
  | .insertFeed => [write sv now .insert, setJson sv .insert]
  | .updateFeed => [write sv now .update, setJson sv .update]
  | .deleteFeed => [write sv now .delete, setJson sv .delete]
  | .extractFeed => []

def cudBulkJsonNewsfeed (now : Timestamp) (mode : OptionMode) (payload : Text) : List Stmt :=
  insertParsed sv payload :: (modeStatements sv now mode ++ [selectJson])

def noVariables : Variables := ⟨[], [], none, []⟩

def mssql (now : Timestamp) : Engine (List Row) where
  call mode payload rows :=
    let (rows', v) := runProgram (cudBulkJsonNewsfeed sv now mode payload) rows (.ok noVariables)
    (rows', v.map Variables.resultSet)

end Procedure

def readItem (sv : Server) (item : CudParams) : ParsedItem where
  title := item.title
  imageurl := item.imageUrl
  feedurl := item.feedUrl
  actualurl := item.actualUrl
  publishDate := item.publishDate.bind sv.tryCast

def fitsIn (n : Nat) (x : Option Text) : Bool := x.all fun t => utf16Len t ≤ n

structure Fits (item : CudParams) : Prop where
  imageurl : fitsIn 255 item.imageUrl = true
  feedurl : fitsIn 768 item.feedUrl = true
  actualurl : fitsIn 255 item.actualUrl = true

instance (item : CudParams) : Decidable (Fits item) :=
  decidable_of_iff (fitsIn 255 item.imageUrl = true ∧ fitsIn 768 item.feedUrl = true ∧
    fitsIn 255 item.actualUrl = true) ⟨fun ⟨h1, h2, h3⟩ => ⟨h1, h2, h3⟩,
      fun h => ⟨h.imageurl, h.feedurl, h.actualurl⟩⟩

def keepsItem (sv : Server) (item : CudParams) : Bool :=
  isGiven sv item.title && isGiven sv item.feedUrl && isGiven sv item.publishDate

theorem fitsIn_of_bytes {n : Nat} {x : Option Text} (h : ∀ s ∈ x, utf8Len s ≤ n) :
    fitsIn n x = true := by
  cases x with
  | none => rfl
  | some s => exact decide_eq_true (Nat.le_trans (utf16Len_le_utf8Len s) (h s rfl))

theorem jsonValue_of_short {name : String} {element : Json} {x : Option Text}
    (hcolumn : column name element = x) (h : ∀ s ∈ x, utf8Len s ≤ 4000) :
    jsonValue name element = x := by
  rw [jsonValue, hcolumn]
  cases x with
  | none => rfl
  | some s =>
    have hlen : utf16Len s ≤ 4000 := Nat.le_trans (utf16Len_le_utf8Len s) (h s rfl)
    rw [Option.filter_some, if_pos (decide_eq_true hlen)]

section Items

variable (sv : Server) {item : CudParams}

theorem url_short {x : Option Text} (h : ∀ s ∈ x, ValidUrl s) : ∀ s ∈ x, utf8Len s ≤ 4000 :=
  fun s hs => Nat.le_trans (h s hs).1.2.2 (by decide)

theorem nullifBlank_url {x : Option Text} (h : ∀ s ∈ x, ValidUrl s) : nullifBlank sv x = x := by
  cases x with
  | none => rfl
  | some s =>
    obtain ⟨⟨htrim, _, _⟩, hscheme⟩ := h s rfl
    have hletter : ∃ c ∈ s, Char.isAlpha c = true := by
      refine ⟨'h', ?_, by decide⟩
      rcases hscheme with hs | hs
      · obtain ⟨t, rfl⟩ := List.isPrefixOf_iff_prefix.mp hs
        exact List.mem_cons_self
      · obtain ⟨t, rfl⟩ := List.isPrefixOf_iff_prefix.mp hs
        exact List.mem_cons_self
    have hvisible : textEq sv s [] = false := by
      rw [textEq, ← Bool.not_eq_true, Collation.eq_iff]
      exact sv.letters_visible s hletter
    rw [nullifBlank, Option.bind_some, trimSpaces_of_trim htrim, hvisible]
    rfl

theorem assign_ok {column : String} {n : Nat} {x y : Option Text} :
    assign column n x = .ok y ↔ fitsIn n x = true ∧ y = x := by
  unfold assign fitsIn
  split
  · next hfit => simp [hfit, eq_comm]
  · next hfit => simp [hfit]

variable (hacc : item.Accepted)
include hacc

theorem jsonValue_item :
    jsonValue "title" item.toJson = item.title ∧
      jsonValue "image_url" item.toJson = item.imageUrl ∧
      jsonValue "feed_url" item.toJson = item.feedUrl ∧
      jsonValue "actual_url" item.toJson = item.actualUrl ∧
      jsonValue "publish_date" item.toJson = item.publishDate :=
  ⟨jsonValue_of_short (column_title item) fun s hs =>
      Nat.le_trans (hacc.title s hs).2.2 (by decide),
    jsonValue_of_short (column_image_url item) (url_short hacc.imageUrl),
    jsonValue_of_short (column_feed_url item) (url_short hacc.feedUrl),
    jsonValue_of_short (column_actual_url item) (url_short hacc.actualUrl),
    jsonValue_of_short (column_publish_date item) fun s hs =>
      Nat.le_trans (hacc.publishDate s hs).2.2 (by decide)⟩

theorem isParsed_item : isParsed sv item.toJson = keepsItem sv item := by
  obtain ⟨ht, _, hf, _, hd⟩ := jsonValue_item hacc
  rw [isParsed, ht, hf, hd, keepsItem]

theorem parseItem_ok {p : ParsedItem} :
    parseItem sv item.toJson = .ok p ↔ Fits item ∧ p = readItem sv item := by
  obtain ⟨ht, hi, hf, ha, hd⟩ := jsonValue_item hacc
  have htitle : fitsIn 255 item.title = true := fitsIn_of_bytes fun s hs => (hacc.title s hs).2.2
  unfold parseItem
  rw [ht, hi, hf, ha, hd, nullifBlank_url sv hacc.imageUrl, nullifBlank_url sv hacc.actualUrl]
  constructor
  · intro h
    obtain ⟨title, h1, h⟩ := bind_ok h
    obtain ⟨imageurl, h2, h⟩ := bind_ok h
    obtain ⟨feedurl, h3, h⟩ := bind_ok h
    obtain ⟨actualurl, h4, h⟩ := bind_ok h
    cases h
    obtain ⟨_, rfl⟩ := assign_ok.mp h1
    obtain ⟨hfi, rfl⟩ := assign_ok.mp h2
    obtain ⟨hff, rfl⟩ := assign_ok.mp h3
    obtain ⟨hfa, rfl⟩ := assign_ok.mp h4
    exact ⟨⟨hfi, hff, hfa⟩, rfl⟩
  · rintro ⟨⟨hfi, hff, hfa⟩, rfl⟩
    rw [assign_ok.mpr ⟨htitle, rfl⟩, assign_ok.mpr ⟨hfi, rfl⟩, assign_ok.mpr ⟨hff, rfl⟩,
      assign_ok.mpr ⟨hfa, rfl⟩]
    rfl

end Items

variable (sv : Server) {now : Timestamp} {items : List CudParams} {rows rows' : List Row}
  {parsed : List ParsedItem} {returned : List Text}

theorem parseItems_ok (hacc : ∀ item ∈ items, item.Accepted) :
    parseItems sv (items.map CudParams.toJson) = .ok parsed ↔
      (∀ item ∈ items, keepsItem sv item = true → Fits item) ∧
        parsed = (items.filter (keepsItem sv)).map (readItem sv) := by
  have hfilter : (items.map CudParams.toJson).filter (isParsed sv) =
      (items.filter (keepsItem sv)).map CudParams.toJson := by
    rw [List.filter_map]
    refine congrArg _ (List.filter_congr fun item hitem => ?_)
    exact isParsed_item sv (hacc item hitem)
  rw [parseItems, hfilter, mapM_eq_ok, List.forall₂_map_left_iff,
    forall₂_congr_left fun item hitem p =>
      parseItem_ok sv (hacc item (List.mem_of_mem_filter hitem))]
  constructor
  · intro h
    constructor
    · intro item hitem hkeep
      obtain ⟨p, _, hfits, _⟩ := forall₂_left h (List.mem_filter.mpr ⟨hitem, hkeep⟩)
      exact hfits
    · generalize items.filter (keepsItem sv) = kept at h
      induction h with
      | nil => rfl
      | cons hp _ ih => rw [List.map_cons, ih, hp.2]
  · rintro ⟨hfits, rfl⟩
    rw [List.forall₂_map_right_iff, List.forall₂_same]
    intro item hitem
    obtain ⟨hitem, hkeep⟩ := List.mem_filter.mp hitem
    exact ⟨hfits item hitem hkeep, rfl⟩

theorem statuses_known (mode : CudMode) (parsed : List ParsedItem) (returned : List Text)
    (rows : List Row) : ∀ s ∈ statuses sv mode parsed returned rows, s.Known := by
  have hinsert : ∀ i, (insertStatus i).Known := by
    intro i
    cases i
    · exact Or.inr rfl
    · exact Or.inl rfl
  have hupdate : ∀ nf u, (updateStatus nf u).Known := by
    intro nf u
    cases u
    · cases nf <;> exact Or.inr rfl
    · exact Or.inl rfl
  have hdelete : ∀ d, (deleteStatus d).Known := by
    intro d
    cases d
    · exact Or.inr rfl
    · exact Or.inl rfl
  intro s hs
  cases mode with
  | insert =>
    obtain ⟨x, _, rfl⟩ := List.mem_map.mp hs
    exact hinsert _
  | update =>
    obtain ⟨x, _, rfl⟩ := List.mem_map.mp hs
    exact hupdate _ _
  | delete =>
    obtain ⟨x, _, rfl⟩ := List.mem_map.mp hs
    exact hdelete _

theorem modeStatements_optionMode (mode : CudMode) :
    modeStatements sv now mode.optionMode = [write sv now mode, setJson sv mode] := by
  cases mode <;> rfl

theorem cudFeed_eq (isRfc3339 : Text → Bool) (now : Timestamp) (mode : CudMode)
    (items : List CudParams)
    (rows : List Row) :
    cudFeed isRfc3339 (mssql sv now) mode.optionMode items rows =
      match parseItems sv (items.map CudParams.toJson) with
      | .error e => (rows, .error (.sql e))
      | .ok parsed =>
        match written sv now mode parsed rows with
        | .error e => (rows, .error (.sql e))
        | .ok (rows', returned) =>
          (rows', .ok ((statuses sv mode parsed returned rows').map StatusRow.result)) := by
  have hpayload : (payloadRows (payloadText items) >>= parseItems sv) =
      parseItems sv (items.map CudParams.toJson) := by
    rw [payloadRows_payloadText]
    rfl
  simp only [cudFeed, mssql, cudBulkJsonNewsfeed, modeStatements_optionMode, List.cons_append,
    List.nil_append, runProgram_cons, exec_ok, insertParsed, hpayload]
  cases parseItems sv (items.map CudParams.toJson) with
  | error e => rfl
  | ok parsed =>
    simp only [Except.map, exec_ok, write]
    cases hwrite : written sv now mode parsed rows with
    | error e => rfl
    | ok result =>
      obtain ⟨rows', returned⟩ := result
      simp only [exec_ok, setJson, selectJson, runProgram_nil]
      refine Prod.ext rfl ?_
      have hknown := statuses_known sv mode parsed returned rows'
      by_cases hnone : (statuses sv mode parsed returned rows').isEmpty = true
      · rw [if_pos hnone, List.isEmpty_iff.mp hnone]
        rfl
      · rw [if_neg hnone]
        exact parseStatusRows_array isRfc3339 hknown (parse_render compact _)

def titleKey (r : Row) : Text := sv.coll.key r.title

/-- The table `NewsFeed`: no two titles are equal in the collation. -/
structure NewsFeed where
  rows : List Row
  primaryKey : DistinctOn (titleKey sv) rows

variable {sv}

theorem titleMatches_iff {p : ParsedItem} {nf : Row} :
    titleMatches sv p nf = true ↔ ∃ t, p.title = some t ∧ sv.coll.key nf.title = sv.coll.key t := by
  cases hp : p.title <;> simp [titleMatches, textEq, hp, sqlEq]

theorem joinsTitle_iff {p : ParsedItem} {u : Text} :
    joinsTitle sv p u = true ↔ ∃ t, p.title = some t ∧ sv.coll.key t = sv.coll.key u := by
  cases hp : p.title <;> simp [joinsTitle, textEq, hp, sqlEq]

def Inserts (now : Timestamp) (p : ParsedItem) (r : Row) : Prop :=
  ∃ title feedurl date, p.title = some title ∧ p.feedurl = some feedurl ∧
    p.publishDate = some date ∧ r = newRow now title feedurl date p

theorem insertItem_ok {p : ParsedItem} {title : Text}
    (h : insertItem sv now rows p = .ok (rows', title)) :
    ∃ r, Inserts now p r ∧ rows' = rows ++ [r] ∧ title = r.title ∧
      ∀ q ∈ rows, titleKey sv q ≠ titleKey sv r := by
  unfold insertItem at h
  split at h
  · cases h
  · cases h
  · cases h
  next title feedurl date ht hf hd =>
  split at h
  · cases h
  · next hfree =>
    cases h
    refine ⟨newRow now title feedurl date p, ⟨title, feedurl, date, ht, hf, hd, rfl⟩, rfl, rfl, ?_⟩
    intro q hq heq
    exact hfree (List.any_eq_true.mpr ⟨q, hq, (Collation.eq_iff _).mpr heq⟩)

theorem insertItems_ok {ps : List ParsedItem} {titles : List Text}
    (h : insertItems sv now rows ps = .ok (rows', titles)) :
    ∃ new, rows' = rows ++ new ∧ titles = new.map Row.title ∧ List.Forall₂ (Inserts now) ps new ∧
      (DistinctOn (titleKey sv) rows → DistinctOn (titleKey sv) (rows ++ new)) := by
  induction ps generalizing rows rows' titles with
  | nil =>
    cases h
    exact ⟨[], (List.append_nil rows).symm, rfl, .nil, by simp⟩
  | cons p ps ih =>
    obtain ⟨⟨rows₁, t₁⟩, h₁, h⟩ := bind_ok h
    obtain ⟨⟨rows₂, t₂⟩, h₂, h⟩ := bind_ok h
    cases h
    obtain ⟨r, hr, rfl, rfl, hfree⟩ := insertItem_ok h₁
    obtain ⟨new, rfl, rfl, hnew, hkey⟩ := ih h₂
    refine ⟨r :: new, by simp, rfl, .cons hr hnew, fun hrows => ?_⟩
    have hone := hkey (hrows.concat hfree)
    simpa using hone

def Updates (sv : Server) (now : Timestamp) (ps : List ParsedItem) (nf nf' : Row) : Prop :=
  (∀ p ∈ ps, titleMatches sv p nf = true → changeTest sv nf p ≠ .true) ∧ nf' = nf ∨
    ∃ p ∈ ps, titleMatches sv p nf = true ∧ changeTest sv nf p = .true ∧ ∃ feedurl date,
      p.feedurl = some feedurl ∧ p.publishDate = some date ∧
        nf' = { nf with
          imageurl := p.imageurl
          feedurl := feedurl
          actualurl := p.actualurl
          publishDate := date
          modifiedDate := some now }

theorem Updates.title {ps : List ParsedItem} {nf nf' : Row} (h : Updates sv now ps nf nf') :
    nf'.title = nf.title := by
  obtain ⟨_, rfl⟩ | ⟨_, _, _, _, _, _, _, _, rfl⟩ := h <;> rfl

def isChanged (sv : Server) (ps : List ParsedItem) (nf : Row) : Bool :=
  ps.any fun p => titleMatches sv p nf && (changeTest sv nf p).holds

theorem isChanged_iff {ps : List ParsedItem} {nf : Row} :
    isChanged sv ps nf = true ↔
      ∃ p ∈ ps, titleMatches sv p nf = true ∧ changeTest sv nf p = .true := by
  simp [isChanged]

theorem updateRow_ok {ps : List ParsedItem} {nf nf' : Row} {titles : List Text}
    (h : updateRow sv now ps nf = .ok (nf', titles)) :
    Updates sv now ps nf nf' ∧ titles = if isChanged sv ps nf = true then [nf.title] else [] := by
  unfold updateRow at h
  split at h
  · next hnone =>
    cases h
    have hno : ∀ p ∈ ps, titleMatches sv p nf = true → changeTest sv nf p ≠ .true := by
      intro p hp hmatch htest
      have hpass := List.find?_eq_none.mp hnone p hp
      simp only [hmatch, htest, Truth.holds, Bool.true_and] at hpass
      exact hpass rfl
    refine ⟨Or.inl ⟨hno, rfl⟩, ?_⟩
    rw [if_neg]
    intro hchanged
    obtain ⟨p, hp, hmatch, htest⟩ := isChanged_iff.mp hchanged
    exact hno p hp hmatch htest
  · next p hsome =>
    have hpass := List.find?_some hsome
    rw [Bool.and_eq_true, Truth.holds_iff] at hpass
    obtain ⟨hmatch, htest⟩ := hpass
    have hp := List.mem_of_find?_eq_some hsome
    split at h
    · cases h
    · cases h
    next feedurl date hf hd =>
    cases h
    refine ⟨Or.inr ⟨p, hp, hmatch, htest, feedurl, date, hf, hd, rfl⟩, ?_⟩
    rw [if_pos (isChanged_iff.mpr ⟨p, hp, hmatch, htest⟩)]

theorem updateRows_ok {ps : List ParsedItem} {titles : List Text}
    (h : updateRows sv now ps rows = .ok (rows', titles)) :
    List.Forall₂ (Updates sv now ps) rows rows' ∧
      titles = (rows.filter (isChanged sv ps)).map Row.title := by
  obtain ⟨updated, hmap, h⟩ := bind_ok h
  cases h
  have hall := mapM_eq_ok.mp hmap
  clear hmap h
  induction hall with
  | nil => exact ⟨.nil, rfl⟩
  | @cons nf u rows updated hu _ ih =>
    obtain ⟨hrows, htitles⟩ := ih
    obtain ⟨hrow, hput⟩ := updateRow_ok hu
    refine ⟨.cons hrow hrows, ?_⟩
    rw [List.flatMap_cons, htitles, hput, List.filter_cons]
    split <;> rfl

theorem Updates.titleKeys {ps : List ParsedItem} (h : List.Forall₂ (Updates sv now ps) rows rows') :
    rows'.map (titleKey sv) = rows.map (titleKey sv) := by
  induction h with
  | nil => rfl
  | cons hr _ ih => rw [List.map_cons, List.map_cons, ih, titleKey, titleKey, hr.title]

theorem written_keys {mode : CudMode} (hkey : DistinctOn (titleKey sv) rows)
    (h : written sv now mode parsed rows = .ok (rows', returned)) :
    DistinctOn (titleKey sv) rows' ∧ DistinctOn sv.coll.key returned := by
  have htitles : ∀ l : List Row, DistinctOn (titleKey sv) l →
      DistinctOn sv.coll.key (l.map Row.title) := fun l hl => List.pairwise_map.mpr hl
  cases mode with
  | insert =>
    obtain ⟨new, rfl, rfl, _, hnew⟩ := insertItems_ok h
    exact ⟨hnew hkey, htitles new ((hnew hkey).sublist (List.sublist_append_right _ _))⟩
  | update =>
    obtain ⟨hrows, rfl⟩ := updateRows_ok h
    refine ⟨?_, htitles _ (hkey.filter _)⟩
    rw [distinctOn_iff_nodup] at hkey ⊢
    rwa [Updates.titleKeys hrows]
  | delete =>
    cases h
    exact ⟨hkey.filter _, htitles _ (hkey.filter _)⟩

theorem returned_join (hkey : DistinctOn sv.coll.key returned) {α : Type*} (item : α → ParsedItem)
    (xs : List α) :
    leftJoin (fun x u => joinsTitle sv (item x) u) xs returned =
      xs.map fun x => (x, returned.find? (joinsTitle sv (item x))) := by
  refine leftJoin_eq_map fun x _ => hkey.countP_le_one fun a b ha hb => ?_
  obtain ⟨t, ht, hta⟩ := joinsTitle_iff.mp ha
  obtain ⟨u, hu, hub⟩ := joinsTitle_iff.mp hb
  rw [ht] at hu
  rw [← hta, ← hub, Option.some.inj hu]

theorem rows_join (hkey : DistinctOn (titleKey sv) rows) (ps : List ParsedItem) :
    leftJoin (titleMatches sv) ps rows = ps.map fun p => (p, rows.find? (titleMatches sv p)) := by
  refine leftJoin_eq_map fun p _ => hkey.countP_le_one fun a b ha hb => ?_
  obtain ⟨t, ht, hta⟩ := titleMatches_iff.mp ha
  obtain ⟨u, hu, hub⟩ := titleMatches_iff.mp hb
  rw [ht] at hu
  rw [titleKey, titleKey, hta, hub, Option.some.inj hu]

theorem statuses_eq_map (mode : CudMode) (ps : List ParsedItem)
    (hrows : DistinctOn (titleKey sv) rows) (hreturned : DistinctOn sv.coll.key returned) :
    statuses sv mode ps returned rows = ps.map fun p =>
      match mode with
      | .insert => insertStatus (returned.find? (joinsTitle sv p))
      | .update => updateStatus (rows.find? (titleMatches sv p)) (returned.find? (joinsTitle sv p))
      | .delete => deleteStatus (returned.find? (joinsTitle sv p)) := by
  cases mode with
  | insert =>
    have hjoin := returned_join hreturned id ps
    simp only [id] at hjoin
    rw [statuses, hjoin, List.map_map]
    rfl
  | update =>
    rw [statuses, returned_join hreturned Prod.fst, rows_join hrows, List.map_map, List.map_map]
    rfl
  | delete =>
    have hjoin := returned_join hreturned id ps
    simp only [id] at hjoin
    rw [statuses, hjoin, List.map_map]
    rfl

def noon : Timestamp := 1785585600000000

def sampleServer : Server where
  coll := .ascii
  letters_visible := by
    rintro t ⟨c, hc, _⟩ heq
    have hnil : t = [] := List.map_eq_nil_iff.mp heq
    rw [hnil] at hc
    cases hc
  tryCast := fun s => if s = noonText then some noon else none

def emptyTable : NewsFeed sampleServer := ⟨[], List.Pairwise.nil⟩

end MssqlProcedures
