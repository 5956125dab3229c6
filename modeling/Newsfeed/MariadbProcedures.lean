import Newsfeed.PayloadRows
import Newsfeed.RelationalTables
import Newsfeed.SqlLogic
import Newsfeed.StatementInterleaving

/-! # MariaDB: the newsfeed table and its batch procedure

The table has no key and no constraint. A call runs its statements one by one, each
committed on its own, and keeps what it has parsed and the statuses in temporary tables
of the connection, which are left over from earlier calls.
-/
namespace MariadbProcedures

open TextOperations FallibleOperations JsonText SqlLogic RelationalTables FeedModels CudHandlers
open PayloadRows StatementInterleaving

/-- Seconds. -/
abbrev Timestamp := ℤ

structure Row where
  title : Option Text
  imageurl : Option Text
  feedurl : Option Text
  actualurl : Option Text
  publishdate : Option Text
  createdDate : Option Timestamp
  modifiedDate : Option Timestamp
  deriving DecidableEq, Repr

structure ParsedItem where
  title : Option Text
  imageUrl : Option Text
  feedUrl : Option Text
  actualUrl : Option Text
  publishDate : Option Text
  deriving DecidableEq, Repr

/-- The temporary tables of a connection, once created, and the rows it has sent. -/
structure Connection where
  tempBulkResults : Option (List Text)
  tmpParsedInput : Option (List ParsedItem)
  resultSet : List (Option Text)
  deriving DecidableEq, Repr

def parseItem (element : Json) : ParsedItem where
  title := column "title" element
  imageUrl := column "image_url" element
  feedUrl := column "feed_url" element
  actualUrl := column "actual_url" element
  publishDate := column "publish_date" element

section Procedure

variable (coll : Collation)

/-- `x IS NOT NULL AND x != ''`. -/
def isGiven (x : Option Text) : Bool :=
  ((isNull x).not.and (sqlEq coll.eq x (some [])).not).holds

/-- The filter of the parsing statement is the same in every mode. -/
def isParsed (t : ParsedItem) : Bool :=
  isGiven coll t.title && isGiven coll t.feedUrl && isGiven coll t.publishDate

/-- `NULLIF(TRIM(x), '')`. -/
def nullifBlank (x : Option Text) : Option Text :=
  x.bind fun s => if coll.eq (trimSpaces s) [] then none else some (trimSpaces s)

/-- `n.title = t.title`. -/
def titleMatches (t : ParsedItem) (n : Row) : Bool := (sqlEq coll.eq n.title t.title).holds

/-- The four `<=>` of the update. -/
def unchanged (n : Row) (t : ParsedItem) : Bool :=
  notDistinct coll.eq n.imageurl (nullifBlank coll t.imageUrl) &&
    notDistinct coll.eq n.feedurl t.feedUrl &&
    notDistinct coll.eq n.actualurl (nullifBlank coll t.actualUrl) &&
    notDistinct coll.eq n.publishdate t.publishDate

def insertStatus (n : Option Row) : StatusRow :=
  if (n.bind Row.title).isSome then ⟨"Skipped".toList, "SKIPPED_EXISTS".toList⟩
  else ⟨"Success".toList, "Record(s) inserted".toList⟩

def updateStatus (t : ParsedItem) (n : Option Row) : StatusRow :=
  match n with
  | none => ⟨"Skipped".toList, "SKIPPED_NOT_FOUND".toList⟩
  | some n =>
    if n.title.isNone then ⟨"Skipped".toList, "SKIPPED_NOT_FOUND".toList⟩
    else if unchanged coll n t then ⟨"Skipped".toList, "SKIPPED_EXISTS".toList⟩
    else ⟨"Success".toList, "Record(s) updated".toList⟩

def deleteStatus (n : Option Row) : StatusRow :=
  if (n.bind Row.title).isSome then ⟨"Success".toList, "Record(s) deleted".toList⟩
  else ⟨"Skipped".toList, "SKIPPED_NOT_FOUND".toList⟩

/-- A status belongs to its row of the join: `GROUP_CONCAT` has no `ORDER BY`, and the list is in
the order of the batch. -/
def statuses (mode : CudMode) (parsed : List ParsedItem) (rows : List Row) : List StatusRow :=
  (leftJoin (titleMatches coll) parsed rows).map fun (t, n) =>
    match mode with
    | .insert => insertStatus n
    | .update => updateStatus coll t n
    | .delete => deleteStatus n

def newRow (now : Timestamp) (t : ParsedItem) : Row where
  title := t.title
  imageurl := nullifBlank coll t.imageUrl
  feedurl := t.feedUrl
  actualurl := nullifBlank coll t.actualUrl
  publishdate := t.publishDate
  createdDate := some now
  modifiedDate := some now

/-- `WHERE NOT EXISTS` sees the table as it is before the insert. -/
def isNew (rows : List Row) (t : ParsedItem) : Bool := !existsRow (titleMatches coll t) rows

def insertRows (now : Timestamp) (parsed : List ParsedItem) (rows : List Row) : List Row :=
  rows ++ (parsed.filter (isNew coll rows)).map (newRow coll now)

/-- A row is updated once, from the first item that matches it with a difference. -/
def updateRow (now : Timestamp) (parsed : List ParsedItem) (n : Row) : Row :=
  match parsed.find? fun t => titleMatches coll t n && !unchanged coll n t with
  | none => n
  | some t =>
    { n with
      imageurl := nullifBlank coll t.imageUrl
      feedurl := t.feedUrl
      actualurl := nullifBlank coll t.actualUrl
      publishdate := t.publishDate
      modifiedDate := some now }

def written (now : Timestamp) (mode : CudMode) (parsed : List ParsedItem) (rows : List Row) :
    List Row :=
  match mode with
  | .insert => insertRows coll now parsed rows
  | .update => rows.map (updateRow coll now parsed)
  | .delete => rows.filter fun n => !parsed.any fun t => titleMatches coll t n

abbrev Stmt := Statement (List Row) Connection SqlError

/-- `CREATE TEMPORARY TABLE IF NOT EXISTS temp_bulk_results`. -/
def createResults : Stmt := fun rows c =>
  (rows, .ok { c with tempBulkResults := some (c.tempBulkResults.getD []) })

def truncateResults : Stmt := fun rows c =>
  (rows, .ok { c with tempBulkResults := c.tempBulkResults.map fun _ => [] })

/-- `CREATE TEMPORARY TABLE IF NOT EXISTS tmp_parsed_input`. -/
def createParsed : Stmt := fun rows c =>
  (rows, .ok { c with tmpParsedInput := some (c.tmpParsedInput.getD []) })

def truncateParsed : Stmt := fun rows c =>
  (rows, .ok { c with tmpParsedInput := c.tmpParsedInput.map fun _ => [] })

def insertParsed (payload : Text) : Stmt := fun rows c =>
  let parsed := (payloadRows payload).map fun elements =>
    (elements.map parseItem).filter (isParsed coll)
  (rows, parsed.map fun parsed =>
    { c with tmpParsedInput := some (c.tmpParsedInput.getD [] ++ parsed) })

def appendResults (c : Connection) (results : List Text) : Connection :=
  { c with tempBulkResults := some (c.tempBulkResults.getD [] ++ results) }

def insertStatuses (mode : CudMode) : Stmt := fun rows c =>
  (rows, .ok (appendResults c ((statuses coll mode (c.tmpParsedInput.getD []) rows).map fun s =>
    render spaced s.toJson)))

def write (now : Timestamp) (mode : CudMode) : Stmt := fun rows c =>
  (written coll now mode (c.tmpParsedInput.getD []) rows, .ok c)

def invalidOptionMode : Stmt := fun rows c =>
  (rows, .ok (appendResults c
    ["\x7b\"Status\": \"Error\", \"Message\": \"Invalid optionMode\"\x7d".toList]))

/-- `group_concat_max_len`, the length at which the result is cut. -/
def groupConcatMaxLen : Nat := 1048576

def groupConcat (results : List Text) : Text :=
  ([','].intercalate results).take groupConcatMaxLen

def selectStatus : Stmt := fun rows c =>
  (rows, .ok { c with
    resultSet := [some ('[' :: (groupConcat (c.tempBulkResults.getD []) ++ [']']))] })

/-- `optionMode = 'insertFeed' OR optionMode = 'insertNewsFeed'` and so on. -/
def modeOf : OptionMode → Option CudMode
  | .insertFeed => some .insert
  | .updateFeed => some .update
  | .deleteFeed => some .delete
  | .extractFeed => none

def modeStatements (now : Timestamp) (mode : OptionMode) : List Stmt :=
  match modeOf mode with
  | some mode => [insertStatuses coll mode, write coll now mode]
  | none => [invalidOptionMode]

def cudBulkJsonNewsfeed (now : Timestamp) (mode : OptionMode) (payload : Text) : List Stmt :=
  [createResults, truncateResults, createParsed, truncateParsed, insertParsed coll payload] ++
    modeStatements coll now mode ++ [selectStatus]

def mariadb (now : Timestamp) (c : Connection) : Engine (List Row) where
  call mode payload rows :=
    let (rows', c') := runProgram (cudBulkJsonNewsfeed coll now mode payload) rows (.ok c)
    (rows', c'.map Connection.resultSet)

end Procedure

def readItem (item : CudParams) : ParsedItem :=
  ⟨item.title, item.imageUrl, item.feedUrl, item.actualUrl, item.publishDate⟩

theorem parseItem_toJson (item : CudParams) : parseItem item.toJson = readItem item := by
  simp only [parseItem, readItem, column_title, column_image_url, column_feed_url,
    column_actual_url, column_publish_date]

variable (coll : Collation)

def parsedItems (items : List CudParams) : List ParsedItem :=
  (items.map readItem).filter (isParsed coll)

def statusText (statuses : List StatusRow) : Text :=
  '[' :: (groupConcat (statuses.map fun s => render spaced s.toJson) ++ [']'])

theorem modeOf_optionMode (mode : CudMode) : modeOf mode.optionMode = some mode := by
  cases mode <;> rfl

theorem runProgram_parse (items : List CudParams) (rows : List Row) (c : Connection) :
    runProgram [createResults, truncateResults, createParsed, truncateParsed,
        insertParsed coll (payloadText items)] rows (.ok c) =
      (rows, .ok ⟨some [], some (parsedItems coll items), c.resultSet⟩) := by
  simp only [runProgram_cons, exec_ok, createResults, truncateResults, createParsed, truncateParsed,
    insertParsed, payloadRows_payloadText, runProgram_nil, Except.map, Option.map_some,
    Option.getD_some, List.nil_append, List.map_map, parsedItems]
  have hread : (parseItem ∘ CudParams.toJson) = readItem := funext parseItem_toJson
  rw [hread]

theorem call_eq (now : Timestamp) (c : Connection) (mode : CudMode) (items : List CudParams)
    (rows : List Row) :
    (mariadb coll now c).call mode.optionMode (payloadText items) rows =
      (written coll now mode (parsedItems coll items) rows,
        .ok [some (statusText (statuses coll mode (parsedItems coll items) rows))]) := by
  have hprogram : cudBulkJsonNewsfeed coll now mode.optionMode (payloadText items) =
      [createResults, truncateResults, createParsed, truncateParsed,
        insertParsed coll (payloadText items)] ++
          [insertStatuses coll mode, write coll now mode, selectStatus] := by
    rw [cudBulkJsonNewsfeed, modeStatements, modeOf_optionMode]
    rfl
  have hrun : runProgram (cudBulkJsonNewsfeed coll now mode.optionMode (payloadText items)) rows
      (.ok c) = (written coll now mode (parsedItems coll items) rows,
        .ok ⟨some ((statuses coll mode (parsedItems coll items) rows).map fun s =>
            render spaced s.toJson), some (parsedItems coll items),
          [some (statusText (statuses coll mode (parsedItems coll items) rows))]⟩) := by
    rw [hprogram, runProgram_append, runProgram_parse]
    rfl
  simp only [mariadb, hrun, Except.map]

theorem cudFeed_rows (isRfc3339 : Text → Bool) (now : Timestamp) (c : Connection) (mode : CudMode)
    (items : List CudParams) (rows : List Row) :
    (cudFeed isRfc3339 (mariadb coll now c) mode.optionMode items rows).1 =
      written coll now mode (parsedItems coll items) rows := by
  simp only [cudFeed, call_eq]

theorem cudFeed_results (isRfc3339 : Text → Bool) (now : Timestamp) (c : Connection)
    (mode : CudMode)
    (items : List CudParams) (rows : List Row) :
    (cudFeed isRfc3339 (mariadb coll now c) mode.optionMode items rows).2 =
      parseStatusRows isRfc3339
        [some (statusText (statuses coll mode (parsedItems coll items) rows))] := by
  simp only [cudFeed, call_eq, readAnswer]

def ShortStatus (s : StatusRow) : Prop := s.Known ∧ (render spaced s.toJson).length < 100

theorem insertStatus_short (n : Option Row) : ShortStatus (insertStatus n) := by
  unfold insertStatus
  split
  · exact ⟨Or.inr rfl, by decide⟩
  · exact ⟨Or.inl rfl, by decide⟩

theorem updateStatus_short (t : ParsedItem) (n : Option Row) :
    ShortStatus (updateStatus coll t n) := by
  unfold updateStatus
  split
  · exact ⟨Or.inr rfl, by decide⟩
  · split_ifs
    · exact ⟨Or.inr rfl, by decide⟩
    · exact ⟨Or.inr rfl, by decide⟩
    · exact ⟨Or.inl rfl, by decide⟩

theorem deleteStatus_short (n : Option Row) : ShortStatus (deleteStatus n) := by
  unfold deleteStatus
  split
  · exact ⟨Or.inl rfl, by decide⟩
  · exact ⟨Or.inr rfl, by decide⟩

theorem statuses_short (mode : CudMode) (parsed : List ParsedItem) (rows : List Row) :
    ∀ s ∈ statuses coll mode parsed rows, ShortStatus s := by
  intro s hs
  obtain ⟨⟨t, n⟩, _, rfl⟩ := List.mem_map.mp hs
  cases mode with
  | insert => exact insertStatus_short n
  | update => exact updateStatus_short coll t n
  | delete => exact deleteStatus_short n

theorem joinedTail_length_le (ps : List (Text × Json)) (h : ∀ p ∈ ps, p.1.length < 100) :
    (joinedTail ps).length ≤ 100 * ps.length := by
  induction ps with
  | nil => simp [joinedTail]
  | cons p ps ih =>
    have hp := h p List.mem_cons_self
    have htail := ih fun q hq => h q (List.mem_cons_of_mem p hq)
    have hcons : joinedTail (p :: ps) = ',' :: p.1 ++ joinedTail ps := rfl
    rw [hcons, List.length_append, List.length_cons, List.length_cons]
    omega

theorem delimited_take_joinedTail (ps : List (Text × Json)) (n : Nat) :
    Delimited ((joinedTail ps).take n ++ [']']) := by
  cases ps with
  | nil =>
    rw [joinedTail, List.flatMap_nil, List.take_nil]
    exact delimited_cons (by decide)
  | cons p ps =>
    cases n with
    | zero => exact delimited_cons (c := ']') (by decide)
    | succ n => exact delimited_cons (c := ',') (by decide)

/-- The rows of `temp_bulk_results`, each with the value it is the text of. -/
def printedStatuses (statuses : List StatusRow) : List (Text × Json) :=
  statuses.map fun s => (render spaced s.toJson, s.toJson)

theorem printedStatuses_length (statuses : List StatusRow) :
    (printedStatuses statuses).length = statuses.length := List.length_map _

theorem printedStatuses_texts (statuses : List StatusRow) :
    (printedStatuses statuses).map Prod.fst = statuses.map fun s => render spaced s.toJson := by
  rw [printedStatuses, List.map_map]
  rfl

theorem printedStatuses_values (statuses : List StatusRow) :
    (printedStatuses statuses).map Prod.snd = statuses.map StatusRow.toJson := by
  rw [printedStatuses, List.map_map]
  rfl

theorem prints_of_printed {statuses : List StatusRow} {p : Text × Json}
    (hp : p ∈ printedStatuses statuses) : Prints p.1 p.2 := by
  obtain ⟨s, _, rfl⟩ := List.mem_map.mp hp
  exact prints_render spaced _

theorem length_of_printed {statuses : List StatusRow} (hshort : ∀ s ∈ statuses, ShortStatus s)
    {p : Text × Json} (hp : p ∈ printedStatuses statuses) : p.1.length < 100 := by
  obtain ⟨s, hs, rfl⟩ := List.mem_map.mp hp
  exact (hshort s hs).2

theorem parseStatusRows_of_fits (isRfc3339 : Text → Bool) {statuses : List StatusRow}
    (hshort : ∀ s ∈ statuses, ShortStatus s)
    (hfits : ([','].intercalate (statuses.map fun s => render spaced s.toJson)).length ≤
      groupConcatMaxLen) :
    parseStatusRows isRfc3339 [some (statusText statuses)] =
      .ok (statuses.map StatusRow.result) := by
  have hparse : parse (statusText statuses) = some (.arr (statuses.map StatusRow.toJson)) := by
    rw [statusText, groupConcat, List.take_of_length_le hfits, ← printedStatuses_texts,
      ← printedStatuses_values]
    exact parse_joined _ fun _ hp => prints_of_printed hp
  exact parseStatusRows_array isRfc3339 (fun s hs => (hshort s hs).1) hparse

theorem parseStatusRows_singleton (isRfc3339 : Text → Bool) {s : StatusRow} (h : ShortStatus s) :
    parseStatusRows isRfc3339 [some (statusText [s])] = .ok [s.result] := by
  refine parseStatusRows_of_fits isRfc3339 (by simpa using h) ?_
  have hlength := h.2
  simp only [List.map_cons, List.map_nil, List.intercalate_singleton, groupConcatMaxLen]
  omega

theorem length_of_overflow {pairs : List (Text × Json)} (hshort : ∀ p ∈ pairs, p.1.length < 100)
    (h : groupConcatMaxLen < ([','].intercalate (pairs.map Prod.fst)).length) :
    2000 < pairs.length := by
  cases pairs with
  | nil => simp [List.intercalate] at h
  | cons p ps =>
    rw [List.map_cons, ← List.map_cons, intercalate_cons, List.length_append] at h
    have hp := hshort p List.mem_cons_self
    have htail := joinedTail_length_le ps fun q hq => hshort q (List.mem_cons_of_mem p hq)
    rw [List.length_cons]
    simp only [groupConcatMaxLen] at h
    omega

theorem groupConcat_cut {p : Text × Json} {ps : List (Text × Json)}
    (hshort : ∀ q ∈ p :: ps, q.1.length < 100) :
    groupConcat ((p :: ps).map Prod.fst) = p.1 ++ (joinedTail (ps.take 1000) ++
      (joinedTail (ps.drop 1000)).take
        (groupConcatMaxLen - (p.1 ++ joinedTail (ps.take 1000)).length)) := by
  have hfit : (p.1 ++ joinedTail (ps.take 1000)).length ≤ groupConcatMaxLen := by
    have hp := hshort p List.mem_cons_self
    have htail := joinedTail_length_le (ps.take 1000) fun q hq =>
      hshort q (List.mem_cons_of_mem p (List.mem_of_mem_take hq))
    have htake : (ps.take 1000).length ≤ 1000 := List.length_take_le 1000 ps
    rw [List.length_append, groupConcatMaxLen]
    omega
  have hjoined : joinedTail ps = joinedTail (ps.take 1000) ++ joinedTail (ps.drop 1000) := by
    conv_lhs => rw [← List.take_append_drop 1000 ps]
    exact List.flatMap_append
  rw [groupConcat, intercalate_cons, hjoined, ← List.append_assoc, List.take_append,
    List.take_of_length_le hfit, List.append_assoc]

/-- The driver reads the statuses back, or so many of them that the cut text cannot be
the answer to a batch. -/
theorem parseStatusRows_statusText (isRfc3339 : Text → Bool) {statuses : List StatusRow}
    (hshort : ∀ s ∈ statuses, ShortStatus s) {results : List CudResult}
    (h : parseStatusRows isRfc3339 [some (statusText statuses)] = .ok results) :
    results = statuses.map StatusRow.result ∨
      maxBatchItems < results.length ∧ maxBatchItems < statuses.length := by
  by_cases hfits : ([','].intercalate (statuses.map fun s => render spaced s.toJson)).length ≤
      groupConcatMaxLen
  · left
    rw [parseStatusRows_of_fits isRfc3339 hshort hfits] at h
    exact (Except.ok.inj h).symm
  · right
    have hlengths : ∀ p ∈ printedStatuses statuses, p.1.length < 100 := fun _ hp =>
      length_of_printed hshort hp
    rw [← printedStatuses_texts, not_le] at hfits
    have hlong := length_of_overflow hlengths hfits
    have hcount := printedStatuses_length statuses
    obtain ⟨v, hv⟩ := parse_of_parseStatusRows isRfc3339 h
    have hprints : ∀ p ∈ printedStatuses statuses, Prints p.1 p.2 := fun _ hp =>
      prints_of_printed hp
    have htext : statusText statuses =
        '[' :: (groupConcat ((printedStatuses statuses).map Prod.fst) ++ [']']) := by
      rw [printedStatuses_texts, statusText]
    cases hpairs : printedStatuses statuses with
    | nil => simp [hpairs] at hlong
    | cons p ps =>
      rw [hpairs] at hlengths hprints hlong hcount htext
      rw [groupConcat_cut hlengths, List.append_assoc, List.append_assoc] at htext
      rw [htext] at hv
      have hcomplete : ∀ q ∈ p :: ps.take 1000, Prints q.1 q.2 := by
        intro q hq
        rcases List.mem_cons.mp hq with rfl | hq
        · exact hprints q List.mem_cons_self
        · exact hprints q (List.mem_cons_of_mem p (List.mem_of_mem_take hq))
      obtain ⟨xs, rfl⟩ := parse_cut hcomplete (delimited_take_joinedTail _ _) hv
      have hresults := parseStatusRows_length isRfc3339 (htext ▸ hv) h
      rw [List.length_cons] at hlong hcount
      have htake : (ps.take 1000).length = 1000 := List.length_take_of_le (by omega)
      rw [List.length_cons, List.length_append, List.length_map, htake] at hresults
      rw [maxBatchItems]
      omega

def newConnection : Connection := ⟨none, none, []⟩

end MariadbProcedures
