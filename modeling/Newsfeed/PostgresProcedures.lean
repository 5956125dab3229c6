import Newsfeed.PayloadRows
import Newsfeed.RelationalTables
import Newsfeed.SqlLogic

/-! # PostgreSQL: the newsfeed table and its batch procedure

Titles and URLs are `citext`. Between two `citext` values, and in the primary key,
case is ignored; a `citext` value compared with a `text` value compares as text.
An error aborts the whole `CALL`.
-/
namespace PostgresProcedures

open TextOperations FallibleOperations JsonText SqlLogic RelationalTables FeedModels CudHandlers
    PayloadRows

/-- Microseconds. -/
abbrev Timestamp := ℤ

structure Server where
  lower : Text → Text
  /-- Lower-case ASCII letters are lower case in every locale. -/
  lower_letters : ∀ t, (∀ c ∈ t, Char.isLower c) → lower t = t
  /-- No other character has a lower case among the letters of `null`. -/
  lower_eq_null : ∀ t, lower t = "null".toList → lowerAscii t = "null".toList
  /-- The order of the default collation, which is deterministic. -/
  collate : Text → Text → Ordering
  collate_trans : Std.TransCmp collate
  collate_eq : ∀ a b, collate a b = .eq → a = b
  /-- `CAST(x AS timestamp)`, `none` when it raises -/
  castTimestamp : Text → Option Timestamp
  /-- `to_char(x, 'YYYY-MM-DD HH24:MI:SS.US')` -/
  toChar : Timestamp → Text
  /-- `CAST(x AS VARCHAR)` -/
  timestampText : Timestamp → Text
  timestampText_injective : ∀ a b, timestampText a = timestampText b → a = b
  timestampText_head : ∀ a, (timestampText a).head? ≠ some '\x7b'

structure Row where
  title : Text
  imageurl : Option Text
  feedurl : Text
  actualurl : Option Text
  publishDate : Timestamp
  createdDate : Timestamp
  modifiedDate : Option Timestamp
  deriving DecidableEq, Repr

/-- A row of the common table expression `parsed`. -/
structure ParsedItem where
  title : Option Text
  imageurl : Option Text
  feedurl : Option Text
  actualurl : Option Text
  publishDate : Option Timestamp
  deriving DecidableEq, Repr

variable (sv : Server)

def citextEq (a b : Text) : Bool := sv.lower a == sv.lower b

/-- `citext = text` and `text = citext` compare as text. -/
def textEq (a b : Text) : Bool := a == b

@[simp] theorem citextEq_iff {a b : Text} : citextEq sv a b = true ↔ sv.lower a = sv.lower b := by
  simp [citextEq]

@[simp] theorem textEq_iff {a b : Text} : textEq a b = true ↔ a = b := by simp [textEq]

def castDate : Option Text → Except SqlError (Option Timestamp)
  | none => .ok none
  | some s =>
    match sv.castTimestamp s with
    | none => .error .invalidDatetime
    | some d => .ok (some d)

/-- One row of `parsed` in insert and update mode. `->>` cannot return a NUL. -/
def parseItem (item : Json) : Except SqlError ParsedItem :=
  if containsNul item then .error .nulCharacter
  else
    match castDate sv (column "publish_date" item) with
    | .error e => .error e
    | .ok publishDate =>
      .ok
        { title := column "title" item
          imageurl := trimmedOrNull (column "image_url" item)
          feedurl := column "feed_url" item
          actualurl := trimmedOrNull (column "actual_url" item)
          publishDate := publishDate }

/-- One row of `parsed` in delete mode. -/
def parseTitle (item : Json) : Except SqlError (Option Text) :=
  if containsNul item then .error .nulCharacter else .ok (column "title" item)

/-- One proposed row of `INSERT .. ON CONFLICT (title) DO NOTHING RETURNING title`. The
constraints are checked in column order before the conflict. -/
def insertItem (now : Timestamp) (rows : List Row) (p : ParsedItem) :
    Except SqlError (List Row × List Text) :=
  match p.title, p.feedurl, p.publishDate with
  | none, _, _ => .error (.notNull "title")
  | some _, none, _ => .error (.notNull "feedurl")
  | some _, some _, none => .error (.notNull "publish_date")
  | some title, some feedurl, some publishDate =>
    if existsRow (fun r => citextEq sv r.title title) rows then .ok (rows, [])
    else .ok (rows ++ [⟨title, p.imageurl, feedurl, p.actualurl, publishDate, now, some now⟩],
      [title])

def insertItems (now : Timestamp) :
    List Row → List ParsedItem → Except SqlError (List Row × List Text)
  | rows, [] => .ok (rows, [])
  | rows, p :: ps => do
    let (rows', returned) ← insertItem sv now rows p
    let (rows'', returned') ← insertItems now rows' ps
    return (rows'', returned ++ returned')

/-- `IS DISTINCT FROM` between `citext` and `text`. -/
def distinctText (a b : Option Text) : Bool := !notDistinct textEq a b

def updateMatches (r : Row) (p : ParsedItem) : Bool :=
  (sqlEq textEq (some r.title) p.title).holds &&
    (distinctText r.imageurl p.imageurl || distinctText (some r.feedurl) p.feedurl ||
      distinctText r.actualurl p.actualurl ||
      !notDistinct (· == ·) (some r.publishDate) p.publishDate)

/-- A row is updated from at most one of the items that match it. -/
def updateRow (now : Timestamp) (ps : List ParsedItem) (r : Row) :
    Except SqlError (Row × List Text) :=
  match ps.find? (updateMatches r) with
  | none => .ok (r, [])
  | some p =>
    match p.feedurl, p.publishDate with
    | none, _ => .error (.notNull "feedurl")
    | some _, none => .error (.notNull "publish_date")
    | some feedurl, some publishDate =>
      .ok ({ r with
        imageurl := p.imageurl
        feedurl := feedurl
        actualurl := p.actualurl
        publishDate := publishDate
        modifiedDate := some now }, [r.title])

def updateRows (now : Timestamp) (ps : List ParsedItem) (rows : List Row) :
    Except SqlError (List Row × List Text) := do
  let updated ← rows.mapM (updateRow now ps)
  return (updated.map Prod.fst, updated.flatMap Prod.snd)

def deleteMatches (titles : List (Option Text)) (r : Row) : Bool :=
  titles.any fun t => (sqlEq textEq (some r.title) t).holds

def insertStatus (returned : Option Text) : StatusRow :=
  if returned.isSome then ⟨"Success".toList, "Record(s) inserted".toList⟩
  else ⟨"Skipped".toList, "SKIPPED_EXISTS".toList⟩

def updateStatus (updated : Option Text) (existing : Option Row) : StatusRow :=
  if updated.isSome then ⟨"Success".toList, "Record(s) updated".toList⟩
  else if existing.isSome then ⟨"Skipped".toList, "SKIPPED_EXISTS".toList⟩
  else ⟨"Skipped".toList, "SKIPPED_NOT_FOUND".toList⟩

def deleteStatus (deleted : Option Text) : StatusRow :=
  if deleted.isSome then ⟨"Success".toList, "Record(s) deleted".toList⟩
  else ⟨"Skipped".toList, "SKIPPED_NOT_FOUND".toList⟩

/-- `p.title = i.title` where the right side is a returned `citext` title. -/
def joinsTitle (title : Option Text) (returned : Text) : Bool :=
  (sqlEq textEq title (some returned)).holds

/-- Two orders are fixed here that PostgreSQL leaves open. `jsonb_agg` has no `ORDER BY`: a status
belongs to the row of the join that it is built from, and the list of them is in the order of
the batch. And the batch is read before a row is written: of a batch that fails in both, the
error is one of reading. -/
def cudStatement (now : Timestamp) (mode : OptionMode) (items : List Json) (rows : List Row) :
    Except SqlError (List Row × List StatusRow) :=
  match mode with
  | .insertFeed => do
    let parsed ← items.mapM (parseItem sv)
    let (rows', inserted) ← insertItems sv now rows parsed
    return (rows', (leftJoin (fun p i => joinsTitle p.title i) parsed inserted).map fun (_, i) =>
      insertStatus i)
  | .updateFeed => do
    let parsed ← items.mapM (parseItem sv)
    let (rows', updated) ← updateRows now parsed rows
    let joined := leftJoin (fun p nf => joinsTitle p.title nf.title) parsed rows
    return (rows', (leftJoin (fun pn u => joinsTitle pn.1.title u) joined updated).map
      fun ((_, nf), u) => updateStatus u nf)
  | .deleteFeed => do
    let parsed ← items.mapM parseTitle
    let deleted := (rows.filter (deleteMatches parsed)).map Row.title
    return (rows.filter fun r => !deleteMatches parsed r,
      (leftJoin joinsTitle parsed deleted).map fun (_, d) => deleteStatus d)
  | .extractFeed => .ok (rows, [])

/-- `cud_bulk_json_newsfeed`; the status text is that of a `jsonb` array. -/
def cudBulkJsonNewsfeed (now : Timestamp) (mode : OptionMode) (payload : Text) (rows : List Row) :
    Except SqlError (List Row × Text) := do
  let items ← payloadRows payload
  let (rows', statuses) ← cudStatement sv now mode items rows
  return (rows', render spaced (.arr (statuses.map StatusRow.toJson)))

/-- The item `item` is read as the row `p` of `parsed`. -/
structure Reads (item : CudParams) (p : ParsedItem) : Prop where
  noNul : containsNul item.toJson = false
  title : p.title = item.title
  imageurl : p.imageurl = item.imageUrl
  feedurl : p.feedurl = item.feedUrl
  actualurl : p.actualurl = item.actualUrl
  publishDate : castDate sv item.publishDate = .ok p.publishDate

theorem parseItem_ok {item : CudParams} (h : item.Accepted) {p : ParsedItem} :
    parseItem sv item.toJson = .ok p ↔ Reads sv item p := by
  unfold parseItem
  simp only [column_title, column_image_url, column_feed_url, column_actual_url,
    column_publish_date, trimmedOrNull_of_accepted h.imageUrl,
    trimmedOrNull_of_accepted h.actualUrl]
  constructor
  · intro hp
    split at hp
    · cases hp
    next hnul =>
    split at hp
    · cases hp
    next hdate =>
    cases hp
    exact ⟨by simpa using hnul, rfl, rfl, rfl, rfl, hdate⟩
  · rintro ⟨hnul, ht, hi, hf, ha, hd⟩
    rw [hnul, hd]
    cases p
    simp_all

theorem parsed_ok {items : List CudParams} (h : ∀ item ∈ items, item.Accepted)
    {parsed : List ParsedItem} :
    (items.map CudParams.toJson).mapM (parseItem sv) = .ok parsed ↔
      List.Forall₂ (Reads sv) items parsed := by
  rw [mapM_eq_ok, List.forall₂_map_left_iff]
  exact forall₂_congr_left fun item hitem p => parseItem_ok sv (h item hitem)

def newRow (now : Timestamp) (title feedurl : Text) (publishDate : Timestamp) (p : ParsedItem) :
    Row :=
  ⟨title, p.imageurl, feedurl, p.actualurl, publishDate, now, some now⟩

theorem insertItem_ok {now : Timestamp} {rows rows' : List Row} {p : ParsedItem}
    {returned : List Text} (h : insertItem sv now rows p = .ok (rows', returned)) :
    ∃ title feedurl date, p.title = some title ∧ p.feedurl = some feedurl ∧
      p.publishDate = some date ∧
      ((∃ r ∈ rows, sv.lower r.title = sv.lower title) ∧ rows' = rows ∧ returned = [] ∨
        (∀ r ∈ rows, sv.lower r.title ≠ sv.lower title) ∧
          rows' = rows ++ [newRow now title feedurl date p] ∧ returned = [title]) := by
  unfold insertItem at h
  split at h
  · cases h
  · cases h
  · cases h
  next title feedurl date ht hf hd =>
  refine ⟨title, feedurl, date, ht, hf, hd, ?_⟩
  split at h
  · next hex =>
    cases h
    left
    obtain ⟨r, hr, heq⟩ := List.any_eq_true.mp hex
    exact ⟨⟨r, hr, (citextEq_iff sv).mp heq⟩, rfl, rfl⟩
  · next hex =>
    cases h
    right
    refine ⟨fun r hr heq => hex ?_, rfl, rfl⟩
    exact List.any_eq_true.mpr ⟨r, hr, (citextEq_iff sv).mpr heq⟩

def titleKey (r : Row) : Text := sv.lower r.title

/-- Inserting `ps` into `rows` at time `now` appends the rows `new`. -/
structure Inserts (now : Timestamp) (rows : List Row) (ps : List ParsedItem) (new : List Row) :
    Prop where
  titles : (new.map fun r => some r.title).Sublist (ps.map ParsedItem.title)
  written : ∀ r ∈ new, ∃ p ∈ ps, ∃ title feedurl date, p.title = some title ∧
    p.feedurl = some feedurl ∧ p.publishDate = some date ∧ r = newRow now title feedurl date p
  fresh : DistinctOn (titleKey sv) rows → DistinctOn (titleKey sv) (rows ++ new)
  covered : ∀ p ∈ ps, ∃ r ∈ rows ++ new, ∃ title, p.title = some title ∧
    sv.lower r.title = sv.lower title

theorem insertItems_ok {now : Timestamp} {ps : List ParsedItem} {rows rows' : List Row}
    {returned : List Text} (h : insertItems sv now rows ps = .ok (rows', returned)) :
    ∃ new, rows' = rows ++ new ∧ returned = new.map Row.title ∧ Inserts sv now rows ps new := by
  induction ps generalizing rows rows' returned with
  | nil =>
    cases h
    exact ⟨[], (List.append_nil rows).symm, rfl, by simp, by simp, by simp, by simp⟩
  | cons p ps ih =>
    obtain ⟨⟨rows₁, ret₁⟩, h₁, h⟩ := bind_ok h
    obtain ⟨⟨rows₂, ret₂⟩, h₂, h⟩ := bind_ok h
    cases h
    obtain ⟨new, rfl, rfl, hnew⟩ := ih h₂
    obtain ⟨title, feedurl, date, ht, hf, hd, hcase⟩ := insertItem_ok sv h₁
    rcases hcase with ⟨⟨r, hr, heq⟩, rfl, rfl⟩ | ⟨hfree, rfl, rfl⟩
    · refine ⟨new, rfl, rfl, ?_, ?_, hnew.fresh, ?_⟩
      · exact hnew.titles.trans (List.sublist_cons_self _ _)
      · intro q hq
        obtain ⟨p', hp', hrest⟩ := hnew.written q hq
        exact ⟨p', List.mem_cons_of_mem p hp', hrest⟩
      · intro q hq
        rcases List.mem_cons.mp hq with rfl | hq
        · exact ⟨r, List.mem_append_left _ hr, title, ht, heq⟩
        · exact hnew.covered q hq
    · refine ⟨newRow now title feedurl date p :: new, by simp, rfl, ?_, ?_, ?_, ?_⟩
      · rw [List.map_cons, List.map_cons, ht]
        exact hnew.titles.cons_cons (some title)
      · intro q hq
        rcases List.mem_cons.mp hq with rfl | hq
        · exact ⟨p, List.mem_cons_self, title, feedurl, date, ht, hf, hd, rfl⟩
        · obtain ⟨p', hp', hrest⟩ := hnew.written q hq
          exact ⟨p', List.mem_cons_of_mem p hp', hrest⟩
      · intro hrows
        have hone := hnew.fresh (hrows.concat hfree)
        simpa using hone
      · intro q hq
        rcases List.mem_cons.mp hq with rfl | hq
        · exact ⟨newRow now title feedurl date q, by simp, title, ht, rfl⟩
        · simpa using hnew.covered q hq

def SameValues (r : Row) (p : ParsedItem) : Prop :=
  r.imageurl = p.imageurl ∧ some r.feedurl = p.feedurl ∧ r.actualurl = p.actualurl ∧
    some r.publishDate = p.publishDate

theorem distinctText_eq_false {a b : Option Text} : distinctText a b = false ↔ a = b := by
  cases a <;> cases b <;> simp [distinctText, notDistinct]

theorem joinsTitle_iff {title : Option Text} {t : Text} :
    joinsTitle title t = true ↔ title = some t := by
  cases title <;> simp [joinsTitle]

theorem updateMatches_iff {r : Row} {p : ParsedItem} :
    updateMatches r p = true ↔ p.title = some r.title ∧ ¬ SameValues r p := by
  have htitle : (sqlEq textEq (some r.title) p.title).holds = true ↔ p.title = some r.title := by
    cases p.title with
    | none => simp
    | some t =>
      simp only [sqlEq_some_some, Truth.holds_iff, Truth.ofBool_eq_true, textEq_iff,
        Option.some.injEq]
      exact eq_comm
  have hdate : (!notDistinct (· == ·) (some r.publishDate) p.publishDate) = false ↔
      some r.publishDate = p.publishDate := by
    rw [Bool.not_eq_false', notDistinct_iff_eq]
  unfold updateMatches SameValues
  rw [Bool.and_eq_true, htitle, ← Bool.not_eq_false, Bool.or_eq_false_iff, Bool.or_eq_false_iff,
    Bool.or_eq_false_iff, distinctText_eq_false, distinctText_eq_false, distinctText_eq_false,
    hdate, and_assoc, and_assoc]

def updatedRow (now : Timestamp) (r : Row) (feedurl : Text) (publishDate : Timestamp)
    (p : ParsedItem) : Row :=
  { r with
    imageurl := p.imageurl
    feedurl := feedurl
    actualurl := p.actualurl
    publishDate := publishDate
    modifiedDate := some now }

theorem updateRow_ok {now : Timestamp} {ps : List ParsedItem} {r r' : Row} {returned : List Text}
    (h : updateRow now ps r = .ok (r', returned)) :
    (∀ p ∈ ps, p.title = some r.title → SameValues r p) ∧ r' = r ∧ returned = [] ∨
      ∃ p ∈ ps, p.title = some r.title ∧ ¬ SameValues r p ∧ ∃ feedurl date,
        p.feedurl = some feedurl ∧ p.publishDate = some date ∧
          r' = updatedRow now r feedurl date p ∧ returned = [r.title] := by
  unfold updateRow at h
  split at h
  · next hnone =>
    cases h
    left
    refine ⟨fun p hp ht => ?_, rfl, rfl⟩
    by_contra hne
    exact List.find?_eq_none.mp hnone p hp (updateMatches_iff.mpr ⟨ht, hne⟩)
  · next p hsome =>
    right
    obtain ⟨ht, hne⟩ := updateMatches_iff.mp (List.find?_some hsome)
    refine ⟨p, List.mem_of_find?_eq_some hsome, ht, hne, ?_⟩
    split at h
    · cases h
    · cases h
    · next feedurl date hf hd =>
      cases h
      exact ⟨feedurl, date, hf, hd, rfl, rfl⟩

theorem deleteMatches_iff {titles : List (Option Text)} {r : Row} :
    deleteMatches titles r = true ↔ some r.title ∈ titles := by
  unfold deleteMatches
  rw [List.any_eq_true]
  constructor
  · rintro ⟨t, ht, heq⟩
    cases t with
    | none => simp [sqlEq] at heq
    | some u =>
      have : r.title = u := by simpa using heq
      rwa [this]
  · intro h
    exact ⟨some r.title, h, by simp⟩

theorem joinsTitle_unique {title : Option Text} {a b : Text} (ha : joinsTitle title a = true)
    (hb : joinsTitle title b = true) : a = b :=
  Option.some.inj ((joinsTitle_iff.mp ha).symm.trans (joinsTitle_iff.mp hb))

theorem find?_joinsTitle_isSome {title : Option Text} {titles : List Text} :
    (titles.find? (joinsTitle title)).isSome = true ↔ ∃ t ∈ titles, title = some t := by
  rw [List.find?_isSome]
  exact exists_congr fun t => and_congr_right fun _ => joinsTitle_iff

theorem joined_eq_map {α : Type*} (title : α → Option Text) (parsed : List α) {titles : List Text}
    (h : DistinctOn id titles) :
    leftJoin (fun p t => joinsTitle (title p) t) parsed titles =
      parsed.map fun p => (p, titles.find? (joinsTitle (title p))) :=
  leftJoin_eq_map fun _ _ => h.countP_le_one fun _ _ ha hb => joinsTitle_unique ha hb

theorem distinct_titles {rows : List Row} (h : DistinctOn (titleKey sv) rows) :
    DistinctOn id (rows.map Row.title) := by
  refine List.pairwise_map.mpr (List.Pairwise.imp ?_ h)
  intro a b hne heq
  exact hne (congrArg sv.lower heq)

theorem titles_of_reads {items : List CudParams} {parsed : List ParsedItem}
    (h : List.Forall₂ (Reads sv) items parsed) :
    parsed.map ParsedItem.title = items.map CudParams.title := by
  induction h with
  | nil => rfl
  | cons hp _ ih => rw [List.map_cons, List.map_cons, ih, hp.title]

theorem map_by_title {β : Type*} {items : List CudParams} {parsed : List ParsedItem}
    (h : List.Forall₂ (Reads sv) items parsed) (f : Option Text → β) :
    parsed.map (fun p => f p.title) = items.map fun item => f item.title := by
  have ht := congrArg (List.map f) (titles_of_reads sv h)
  rwa [List.map_map, List.map_map] at ht

variable {now : Timestamp} {items : List CudParams} {rows rows' : List Row}
  {statuses : List StatusRow}

theorem insert_ok (hacc : ∀ item ∈ items, item.Accepted) (hkey : DistinctOn (titleKey sv) rows)
    (h : cudStatement sv now .insertFeed (items.map CudParams.toJson) rows =
      .ok (rows', statuses)) :
    ∃ parsed new, List.Forall₂ (Reads sv) items parsed ∧ Inserts sv now rows parsed new ∧
      rows' = rows ++ new ∧
      statuses = items.map fun item =>
        insertStatus ((new.map Row.title).find? (joinsTitle item.title)) := by
  simp only [cudStatement] at h
  obtain ⟨parsed, hparsed, h⟩ := bind_ok h
  obtain ⟨⟨rows₁, returned⟩, hins, h⟩ := bind_ok h
  cases h
  have hreads := (parsed_ok sv hacc).mp hparsed
  obtain ⟨new, rfl, rfl, hnew⟩ := insertItems_ok sv hins
  refine ⟨parsed, new, hreads, hnew, rfl, ?_⟩
  have hdistinct : DistinctOn (titleKey sv) new :=
    (hnew.fresh hkey).sublist (List.sublist_append_right _ _)
  rw [joined_eq_map _ _ (distinct_titles sv hdistinct), List.map_map]
  exact map_by_title sv hreads fun t => insertStatus ((new.map Row.title).find? (joinsTitle t))

def Updates (now : Timestamp) (parsed : List ParsedItem) (r r' : Row) : Prop :=
  (∀ p ∈ parsed, p.title = some r.title → SameValues r p) ∧ r' = r ∨
    ∃ p ∈ parsed, p.title = some r.title ∧ ¬ SameValues r p ∧ ∃ feedurl date,
      p.feedurl = some feedurl ∧ p.publishDate = some date ∧ r' = updatedRow now r feedurl date p

theorem Updates.title {now : Timestamp} {parsed : List ParsedItem} {r r' : Row}
    (h : Updates now parsed r r') : r'.title = r.title := by
  obtain ⟨_, rfl⟩ | ⟨_, _, _, _, _, _, _, _, rfl⟩ := h <;> rfl

theorem updatedRow_ne {now : Timestamp} {r : Row} {p : ParsedItem} {feedurl : Text}
    {date : Timestamp} (hne : ¬ SameValues r p) (hf : p.feedurl = some feedurl)
    (hd : p.publishDate = some date) : updatedRow now r feedurl date p ≠ r := by
  intro heq
  apply hne
  have hi := congrArg Row.imageurl heq
  have hfe := congrArg Row.feedurl heq
  have ha := congrArg Row.actualurl heq
  have hpd := congrArg Row.publishDate heq
  simp only [updatedRow] at hi hfe ha hpd
  exact ⟨hi.symm, by rw [hf, hfe], ha.symm, by rw [hd, hpd]⟩

theorem updateRows_ok {parsed : List ParsedItem} {returned : List Text}
    (h : updateRows now parsed rows = .ok (rows', returned)) :
    List.Forall₂ (Updates now parsed) rows rows' ∧ returned.Sublist (rows.map Row.title) ∧
      ∀ t, t ∈ returned ↔ ∃ rr ∈ rows.zip rows', rr.1 ≠ rr.2 ∧ rr.1.title = t := by
  obtain ⟨updated, hmap, h⟩ := bind_ok h
  cases h
  have hall := mapM_eq_ok.mp hmap
  clear hmap h
  induction hall with
  | nil => exact ⟨.nil, by simp, by simp⟩
  | @cons r u rows updated hr _ ih =>
    obtain ⟨htail, hsub, hreturned⟩ := ih
    obtain ⟨hsame, hr', hret⟩ | ⟨p, hp, ht, hne, f, d, hf, hd, hr', hret⟩ := updateRow_ok hr
    · refine ⟨.cons (Or.inl ⟨hsame, hr'⟩) htail, ?_, fun t => ?_⟩
      · rw [List.flatMap_cons, hret, List.nil_append]
        exact hsub.cons r.title
      · simp only [List.map_cons, List.flatMap_cons, hret, List.nil_append, hreturned,
          List.zip_cons_cons, List.mem_cons, exists_eq_or_imp, hr', ne_eq, not_true_eq_false,
          false_and, false_or]
    · have hchanged : r ≠ u.1 := by
        rw [hr']
        exact (updatedRow_ne hne hf hd).symm
      refine ⟨.cons (Or.inr ⟨p, hp, ht, hne, f, d, hf, hd, hr'⟩) htail, ?_, fun t => ?_⟩
      · rw [List.flatMap_cons, hret]
        exact hsub.cons_cons r.title
      · simp only [List.map_cons, List.flatMap_cons, hret, List.cons_append, List.nil_append,
          List.mem_cons, hreturned, List.zip_cons_cons, exists_eq_or_imp, ne_eq, hchanged,
          not_false_eq_true, true_and, eq_comm (a := t)]

theorem update_ok (hacc : ∀ item ∈ items, item.Accepted) (hkey : DistinctOn (titleKey sv) rows)
    (h : cudStatement sv now .updateFeed (items.map CudParams.toJson) rows =
      .ok (rows', statuses)) :
    ∃ (parsed : List ParsedItem) (updated : List Text), List.Forall₂ (Reads sv) items parsed ∧
      List.Forall₂ (Updates now parsed) rows rows' ∧ updated.Sublist (rows.map Row.title) ∧
      (∀ t, t ∈ updated ↔ ∃ rr ∈ rows.zip rows', rr.1 ≠ rr.2 ∧ rr.1.title = t) ∧
      statuses = items.map fun item =>
        updateStatus (updated.find? (joinsTitle item.title))
          (rows.find? fun r => joinsTitle item.title r.title) := by
  simp only [cudStatement] at h
  obtain ⟨parsed, hparsed, h⟩ := bind_ok h
  obtain ⟨⟨rows₁, updated⟩, hup, h⟩ := bind_ok h
  cases h
  have hreads := (parsed_ok sv hacc).mp hparsed
  obtain ⟨hrows, hsub, hmem⟩ := updateRows_ok hup
  refine ⟨parsed, updated, hreads, hrows, hsub, hmem, ?_⟩
  have hfirst : leftJoin (fun (p : ParsedItem) (nf : Row) => joinsTitle p.title nf.title) parsed
      rows = parsed.map fun p => (p, rows.find? fun r => joinsTitle p.title r.title) := by
    refine leftJoin_eq_map fun p _ => hkey.countP_le_one fun a b ha hb => ?_
    exact congrArg sv.lower (joinsTitle_unique ha hb)
  have hdistinct : DistinctOn id updated := (distinct_titles sv hkey).sublist hsub
  rw [hfirst, joined_eq_map _ _ hdistinct, List.map_map, List.map_map]
  exact map_by_title sv hreads fun t =>
    updateStatus (updated.find? (joinsTitle t)) (rows.find? fun r => joinsTitle t r.title)

theorem delete_ok (hkey : DistinctOn (titleKey sv) rows)
    (h : cudStatement sv now .deleteFeed (items.map CudParams.toJson) rows =
      .ok (rows', statuses)) :
    (∀ item ∈ items, containsNul item.toJson = false) ∧
      rows' = (rows.filter fun r => !deleteMatches (items.map CudParams.title) r) ∧
      statuses = items.map fun item =>
        deleteStatus (((rows.filter (deleteMatches (items.map CudParams.title))).map
          Row.title).find?
          (joinsTitle item.title)) := by
  simp only [cudStatement] at h
  obtain ⟨titles, hparsed, h⟩ := bind_ok h
  cases h
  have hall := mapM_eq_ok.mp hparsed
  rw [List.forall₂_map_left_iff] at hall
  have hread : ∀ (item : CudParams) (t : Option Text), parseTitle item.toJson = .ok t ↔
      containsNul item.toJson = false ∧ t = item.title := by
    intro item t
    unfold parseTitle
    split
    · next hnul => simp [hnul]
    · next hnul => simp [hnul, eq_comm]
  simp only [hread] at hall
  have htitles : titles = items.map CudParams.title := by
    clear hparsed h
    induction hall with
    | nil => rfl
    | cons hp _ ih => rw [List.map_cons, ih, hp.2]
  refine ⟨?_, by rw [htitles], ?_⟩
  · intro item hitem
    obtain ⟨t, _, hp⟩ := forall₂_left hall hitem
    exact hp.1
  · have hdistinct : DistinctOn (titleKey sv) (rows.filter (deleteMatches titles)) :=
      hkey.filter _
    have hjoin := joined_eq_map id titles (distinct_titles sv hdistinct)
    simp only [id] at hjoin
    rw [hjoin, htitles, List.map_map, List.map_map]
    rfl

/-- The table `newsfeed`: no two titles are equal ignoring case. -/
@[ext]
structure Newsfeed where
  rows : List Row
  primaryKey : DistinctOn (titleKey sv) rows

theorem Updates.titleKeys {parsed : List ParsedItem}
    (h : List.Forall₂ (Updates now parsed) rows rows') :
    rows'.map (titleKey sv) = rows.map (titleKey sv) := by
  induction h with
  | nil => rfl
  | cons hr _ ih => rw [List.map_cons, List.map_cons, ih, titleKey, titleKey, hr.title]

/-- What a statement does to the rows, whatever its items are. -/
theorem cudStatement_changes {mode : OptionMode} {elements : List Json}
    (h : cudStatement sv now mode elements rows = .ok (rows', statuses)) :
    (∃ parsed new, Inserts sv now rows parsed new ∧ rows' = rows ++ new) ∨
      (∃ parsed, List.Forall₂ (Updates now parsed) rows rows') ∨
        ∃ keep : Row → Bool, rows' = rows.filter keep := by
  cases mode with
  | insertFeed =>
    left
    obtain ⟨parsed, _, h⟩ := bind_ok h
    obtain ⟨⟨rows₁, returned⟩, hins, h⟩ := bind_ok h
    cases h
    obtain ⟨new, rfl, _, hnew⟩ := insertItems_ok sv hins
    exact ⟨parsed, new, hnew, rfl⟩
  | updateFeed =>
    right
    left
    obtain ⟨parsed, _, h⟩ := bind_ok h
    obtain ⟨⟨rows₁, returned⟩, hup, h⟩ := bind_ok h
    cases h
    exact ⟨parsed, (updateRows_ok hup).1⟩
  | deleteFeed =>
    right
    right
    obtain ⟨parsed, _, h⟩ := bind_ok h
    cases h
    exact ⟨_, rfl⟩
  | extractFeed =>
    right
    right
    cases h
    exact ⟨fun _ => true, (List.filter_eq_self.mpr fun _ _ => rfl).symm⟩

/-- Every statement keeps the primary key. -/
theorem cudStatement_primaryKey {mode : OptionMode} {elements : List Json}
    (hkey : DistinctOn (titleKey sv) rows)
    (h : cudStatement sv now mode elements rows = .ok (rows', statuses)) :
    DistinctOn (titleKey sv) rows' := by
  rcases cudStatement_changes sv h with ⟨parsed, new, hnew, rfl⟩ | ⟨parsed, hupdated⟩ | ⟨keep, rfl⟩
  · exact hnew.fresh hkey
  · rw [distinctOn_iff_nodup] at hkey ⊢
    rwa [Updates.titleKeys sv hupdated]
  · exact hkey.filter _

theorem cudStatement_known {mode : OptionMode} {elements : List Json}
    (h : cudStatement sv now mode elements rows = .ok (rows', statuses)) :
    ∀ s ∈ statuses, s.Known := by
  have hinsert : ∀ t, (insertStatus t).Known := by
    intro t
    cases t <;> simp [insertStatus, StatusRow.Known]
  have hupdate : ∀ t r, (updateStatus t r).Known := by
    intro t r
    cases t <;> cases r <;> simp [updateStatus, StatusRow.Known]
  have hdelete : ∀ t, (deleteStatus t).Known := by
    intro t
    cases t <;> simp [deleteStatus, StatusRow.Known]
  intro s hs
  cases mode with
  | insertFeed =>
    obtain ⟨parsed, _, h⟩ := bind_ok h
    obtain ⟨⟨rows₁, returned⟩, _, h⟩ := bind_ok h
    cases h
    obtain ⟨x, _, rfl⟩ := List.mem_map.mp hs
    exact hinsert _
  | updateFeed =>
    obtain ⟨parsed, _, h⟩ := bind_ok h
    obtain ⟨⟨rows₁, returned⟩, _, h⟩ := bind_ok h
    cases h
    obtain ⟨x, _, rfl⟩ := List.mem_map.mp hs
    exact hupdate _ _
  | deleteFeed =>
    obtain ⟨parsed, _, h⟩ := bind_ok h
    cases h
    obtain ⟨x, _, rfl⟩ := List.mem_map.mp hs
    exact hdelete _
  | extractFeed =>
    cases h
    cases hs

theorem cudBulkJsonNewsfeed_primaryKey {mode : OptionMode} {payload status : Text}
    (hkey : DistinctOn (titleKey sv) rows)
    (h : cudBulkJsonNewsfeed sv now mode payload rows = .ok (rows', status)) :
    DistinctOn (titleKey sv) rows' := by
  obtain ⟨elements, _, h⟩ := bind_ok h
  obtain ⟨⟨rows₁, statuses⟩, hst, h⟩ := bind_ok h
  cases h
  exact cudStatement_primaryKey sv hkey hst

def callProcedure (now : Timestamp) (mode : OptionMode) (payload : Text) (t : Newsfeed sv) :
    Newsfeed sv × Except SqlError (List (Option Text)) :=
  match h : cudBulkJsonNewsfeed sv now mode payload t.rows with
  | .error e => (t, .error e)
  | .ok (rows, status) =>
    (⟨rows, cudBulkJsonNewsfeed_primaryKey sv t.primaryKey h⟩, .ok [some status])

theorem callProcedure_error {mode : OptionMode} {payload : Text} {t : Newsfeed sv} {e : SqlError}
    (h : cudBulkJsonNewsfeed sv now mode payload t.rows = .error e) :
    callProcedure sv now mode payload t = (t, .error e) := by
  unfold callProcedure
  split
  · next he => rw [h] at he; cases he; rfl
  · next he => rw [h] at he; cases he

theorem callProcedure_ok {mode : OptionMode} {payload status : Text} {t : Newsfeed sv}
    (h : cudBulkJsonNewsfeed sv now mode payload t.rows = .ok (rows', status)) :
    callProcedure sv now mode payload t =
      (⟨rows', cudBulkJsonNewsfeed_primaryKey sv t.primaryKey h⟩, .ok [some status]) := by
  unfold callProcedure
  split
  · next he => rw [h] at he; cases he
  · next he => rw [h] at he; cases he; rfl

def postgres (now : Timestamp) : Engine (Newsfeed sv) := ⟨callProcedure sv now⟩

theorem cudFeed_cases (isRfc3339 : Text → Bool) (now : Timestamp) (mode : OptionMode)
    (items : List CudParams) (t : Newsfeed sv) :
    (∃ e, cudStatement sv now mode (items.map CudParams.toJson) t.rows = .error e ∧
        cudFeed isRfc3339 (postgres sv now) mode items t = (t, .error (.sql e))) ∨
      ∃ (t' : Newsfeed sv) (statuses : List StatusRow),
        cudStatement sv now mode (items.map CudParams.toJson) t.rows = .ok (t'.rows, statuses) ∧
        cudFeed isRfc3339 (postgres sv now) mode items t =
          (t', .ok (statuses.map StatusRow.result)) := by
  have hcall : cudBulkJsonNewsfeed sv now mode (payloadText items) t.rows =
      (cudStatement sv now mode (items.map CudParams.toJson) t.rows).map fun (rows', statuses) =>
        (rows', render spaced (.arr (statuses.map StatusRow.toJson))) := by
    rw [cudBulkJsonNewsfeed, payloadRows_payloadText]
    simp only [bind, Except.bind]
    cases cudStatement sv now mode (items.map CudParams.toJson) t.rows <;> rfl
  cases hst : cudStatement sv now mode (items.map CudParams.toJson) t.rows with
  | error e =>
    left
    rw [hst] at hcall
    refine ⟨e, rfl, ?_⟩
    simp only [cudFeed, postgres, callProcedure_error sv hcall, readAnswer]
  | ok result =>
    obtain ⟨rows', statuses⟩ := result
    right
    rw [hst] at hcall
    refine ⟨⟨rows', cudStatement_primaryKey sv t.primaryKey hst⟩, statuses, rfl, ?_⟩
    simp only [cudFeed, postgres, callProcedure_ok sv hcall, readAnswer,
      parseStatusRows_array isRfc3339 (cudStatement_known sv hst) (parse_render spaced _)]

theorem cudFeed_of_statement (isRfc3339 : Text → Bool) {mode : OptionMode} {t : Newsfeed sv}
    (statuses : List StatusRow)
    (h : cudStatement sv now mode (items.map CudParams.toJson) t.rows = .ok (rows', statuses)) :
    (cudFeed isRfc3339 (postgres sv now) mode items t).1.rows = rows' ∧
      (cudFeed isRfc3339 (postgres sv now) mode items t).2 =
        .ok (statuses.map StatusRow.result) := by
  rcases cudFeed_cases sv isRfc3339 now mode items t with ⟨_, hst, _⟩ | ⟨t', st, hst, hfeed⟩
  · rw [hst] at h
    cases h
  · rw [hst] at h
    cases h
    rw [hfeed]
    exact ⟨rfl, rfl⟩

theorem statement_of_cudFeed (isRfc3339 : Text → Bool) {mode : OptionMode} {t : Newsfeed sv}
    {results : List CudResult}
    (h : (cudFeed isRfc3339 (postgres sv now) mode items t).2 = .ok results) :
    ∃ statuses, cudStatement sv now mode (items.map CudParams.toJson) t.rows =
        .ok ((cudFeed isRfc3339 (postgres sv now) mode items t).1.rows, statuses) ∧
      results = statuses.map StatusRow.result := by
  rcases cudFeed_cases sv isRfc3339 now mode items t with ⟨_, _, hfeed⟩ | ⟨t', st, hst, hfeed⟩
  · rw [hfeed] at h
    cases h
  · rw [hfeed] at h ⊢
    cases h
    exact ⟨st, hst, rfl⟩

def microsText (z : ℤ) : Text :=
  if z < 0 then '-' :: Nat.toDigits 10 z.natAbs else Nat.toDigits 10 z.natAbs

def noon : Timestamp := 1785585600000000

theorem microsText_chars (z : Timestamp) : ∀ c ∈ microsText z, c.isDigit = true ∨ c = '-' := by
  intro c hc
  unfold microsText at hc
  split at hc
  · rcases List.mem_cons.mp hc with h | h
    · exact Or.inr h
    · exact Or.inl (toDigits_all_digits _ c h)
  · exact Or.inl (toDigits_all_digits _ c hc)

theorem microsText_injective {a b : ℤ} (h : microsText a = microsText b) : a = b := by
  have hsign : ∀ n : Nat, ∀ t, Nat.toDigits 10 n ≠ '-' :: t := by
    intro n t hn
    have hd := toDigits_all_digits n '-' (by rw [hn]; exact List.mem_cons_self)
    exact absurd hd (by decide)
  unfold microsText at h
  split_ifs at h with ha hb hb
  · have := toDigits_injective (List.cons.inj h).2
    omega
  · exact absurd h.symm (hsign _ _)
  · exact absurd h (hsign _ _)
  · have := toDigits_injective h
    omega

/-- A server with the `C` locale that knows one instant by its text. -/
def sampleServer : Server where
  lower := lowerAscii
  lower_letters := fun _ h => lowerAscii_letters h
  lower_eq_null := fun _ h => h
  collate := List.compareLex compare
  collate_trans := inferInstance
  collate_eq := fun _ _ h => Std.LawfulEqCmp.eq_of_compare h
  castTimestamp := fun s => if s = noonText then some noon else none
  toChar := fun z => if z = noon then "2026-08-01 12:00:00.000000".toList else microsText z
  timestampText := fun z => if z = noon then "2026-08-01 12:00:00".toList else microsText z
  timestampText_injective := by
    intro a b h
    have hcolon : ∀ z, microsText z ≠ "2026-08-01 12:00:00".toList := by
      intro z hz
      have := microsText_chars z ':' (by rw [hz]; decide)
      exact absurd this (by decide)
    split_ifs at h with ha hb hb
    · rw [ha, hb]
    · exact absurd h.symm (hcolon b)
    · exact absurd h (hcolon a)
    · exact microsText_injective h
  timestampText_head := by
    intro z h
    split_ifs at h
    · cases h
    · have := microsText_chars z '\x7b' (List.mem_of_mem_head? h)
      exact absurd this (by decide)

def sampleRow (title : String) (modified : Timestamp) : Row :=
  ⟨title.toList, none, "https://example.org/feed".toList, none, noon, modified, some modified⟩

def sampleTable : Newsfeed sampleServer := ⟨[sampleRow "Hello" noon], List.pairwise_singleton _ _⟩

def emptyTable : Newsfeed sampleServer := ⟨[], List.Pairwise.nil⟩

end PostgresProcedures
