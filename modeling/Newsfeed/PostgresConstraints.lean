import Newsfeed.PostgresResponses

/-! # PostgreSQL: which calls raise

A call raises for an item it cannot read, and in update mode for an item without a feed URL
whose title is in the table: the required fields of an update leave the feed URL out, and the
column does not take a null.
-/
namespace PostgresConstraints

open TextOperations FallibleOperations JsonText RelationalTables FeedModels CudHandlers
open PayloadRows PostgresProcedures

variable {sv : Server} {now : Timestamp} {items : List CudParams} {rows rows' : List Row}
  {mode : OptionMode} {e : SqlError}

structure Storable (sv : Server) (item : CudParams) : Prop where
  noNul : containsNul item.toJson = false
  publishDate : ∀ s ∈ item.publishDate, ∃ d, sv.castTimestamp s = some d

theorem castDate_ok {x : Option Text} : (∃ d, castDate sv x = .ok d) ↔
    ∀ s ∈ x, ∃ d, sv.castTimestamp s = some d := by
  cases x with
  | none => simp [castDate]
  | some s =>
    simp only [castDate, Option.mem_def, Option.some.injEq, forall_eq']
    cases sv.castTimestamp s with
    | none => simp
    | some d => simp

theorem storable_iff {item : CudParams} : Storable sv item ↔ ∃ p, Reads sv item p := by
  constructor
  · intro h
    rcases h with ⟨hnul, hdate⟩
    obtain ⟨d, hd⟩ := castDate_ok.mpr hdate
    exact ⟨⟨item.title, item.imageUrl, item.feedUrl, item.actualUrl, d⟩, hnul, rfl, rfl, rfl, rfl,
      hd⟩
  · intro h
    rcases h with ⟨p, hp⟩
    exact ⟨hp.noNul, castDate_ok.mp ⟨_, hp.publishDate⟩⟩

theorem parsed_iff (hacc : ∀ item ∈ items, item.Accepted) :
    (∃ parsed, (items.map CudParams.toJson).mapM (parseItem sv) = .ok parsed) ↔
      ∀ item ∈ items, Storable sv item := by
  rw [mapM_succeeds, List.forall_mem_map]
  refine forall₂_congr fun item hitem => ?_
  rw [storable_iff]
  exact exists_congr fun p => parseItem_ok sv (hacc item hitem)

theorem parseItem_error {item : Json} {column : String} :
    parseItem sv item ≠ .error (.notNull column) := by
  intro h
  rw [parseItem] at h
  split at h
  · cases h
  · split at h
    · next e he =>
      cases h
      rw [castDate.eq_def] at he
      split at he
      · cases he
      · split at he
        · cases he
        · cases he
    · cases h

theorem parsed_error (hacc : ∀ item ∈ items, item.Accepted)
    (h : (items.map CudParams.toJson).mapM (parseItem sv) = .error e) :
    (∀ column, e ≠ .notNull column) ∧ ¬ ∀ item ∈ items, Storable sv item := by
  obtain ⟨item, _, hitem⟩ := mapM_error h
  constructor
  · rintro column rfl
    exact parseItem_error hitem
  · intro hall
    obtain ⟨parsed, hok⟩ := (parsed_iff hacc).mpr hall
    rw [h] at hok
    cases hok

theorem required_title {item : CudParams} (mode : CudMode)
    (h : validateRequiredFields item mode.optionMode = .ok ()) : ∃ t, item.title = some t := by
  cases ht : item.title with
  | some t => exact ⟨t, rfl⟩
  | none =>
    cases mode with
    | insert => simp [CudMode.optionMode, validateRequiredFields, ht, missing] at h
    | update => simp [CudMode.optionMode, validateRequiredFields, ht, missing] at h
    | delete => simp [CudMode.optionMode, validateRequiredFields, ht, missing] at h

theorem required_feedUrl {item : CudParams}
    (h : validateRequiredFields item .insertFeed = .ok ()) : ∃ u, item.feedUrl = some u := by
  cases hu : item.feedUrl with
  | some u => exact ⟨u, rfl⟩
  | none =>
    rw [validateRequiredFields] at h
    split at h
    · cases h
    · simp [hu, missing] at h

theorem required_publishDate {item : CudParams} {mode : OptionMode}
    (hmode : mode = .insertFeed ∨ mode = .updateFeed)
    (h : validateRequiredFields item mode = .ok ()) : ∃ s, item.publishDate = some s := by
  cases hd : item.publishDate with
  | some s => exact ⟨s, rfl⟩
  | none =>
    rcases hmode with rfl | rfl
    · simp only [validateRequiredFields, hd, missing, Option.isNone_none, if_true] at h
      split_ifs at h
    · simp only [validateRequiredFields, hd, missing, Option.isNone_none, if_true] at h
      split_ifs at h

theorem publishDate_of_reads {item : CudParams} {p : ParsedItem} (h : Reads sv item p)
    {s : Text} (hs : item.publishDate = some s) : ∃ d, p.publishDate = some d := by
  have hcast := h.publishDate
  rw [hs, castDate] at hcast
  split at hcast
  · cases hcast
  · next d _ => exact ⟨d, (Except.ok.inj hcast).symm⟩

theorem insertItem_error {p : ParsedItem} (h : insertItem sv now rows p = .error e) :
    p.title = none ∨ p.feedurl = none ∨ p.publishDate = none := by
  rw [insertItem.eq_def] at h
  split at h
  · next ht => exact Or.inl ht
  · next hf => exact Or.inr (Or.inl hf)
  · next hd => exact Or.inr (Or.inr hd)
  · split at h
    · cases h
    · cases h

theorem insertItems_error {ps : List ParsedItem} (h : insertItems sv now rows ps = .error e) :
    ∃ p ∈ ps, p.title = none ∨ p.feedurl = none ∨ p.publishDate = none := by
  induction ps generalizing rows e with
  | nil => cases h
  | cons p ps ih =>
    rw [insertItems] at h
    cases hp : insertItem sv now rows p with
    | error e' => exact ⟨p, List.mem_cons_self, insertItem_error hp⟩
    | ok first =>
      rw [hp] at h
      cases hps : insertItems sv now first.1 ps with
      | error e' =>
        obtain ⟨q, hq, hnull⟩ := ih hps
        exact ⟨q, List.mem_cons_of_mem p hq, hnull⟩
      | ok rest =>
        simp only [bind, Except.bind, hps] at h
        cases h

theorem updateRow_error {ps : List ParsedItem} {r : Row} (h : updateRow now ps r = .error e) :
    (∃ column, e = .notNull column) ∧
      ∃ p ∈ ps, p.title = some r.title ∧ (p.feedurl = none ∨ p.publishDate = none) := by
  rw [updateRow] at h
  split at h
  · cases h
  · next p hp =>
    have hmem := List.mem_of_find?_eq_some hp
    have htitle := (updateMatches_iff.mp (List.find?_some hp)).1
    split at h
    · next hf =>
      cases h
      exact ⟨⟨_, rfl⟩, p, hmem, htitle, Or.inl hf⟩
    · next hd =>
      cases h
      exact ⟨⟨_, rfl⟩, p, hmem, htitle, Or.inr hd⟩
    · cases h

/-- The update would put a null into the feed URL of the item's row. -/
def BlanksFeedUrl (rows : List Row) (item : CudParams) : Prop :=
  item.feedUrl = none ∧ ∃ r ∈ rows, item.title = some r.title

def Readable (sv : Server) (mode : CudMode) (item : CudParams) : Prop :=
  match mode with
  | .delete => containsNul item.toJson = false
  | _ => Storable sv item

theorem updateRows_error {parsed : List ParsedItem} (h : updateRows now parsed rows = .error e) :
    ∃ r ∈ rows, updateRow now parsed r = .error e := by
  cases hmap : rows.mapM (updateRow now parsed) with
  | ok updated =>
    simp only [updateRows, bind, Except.bind, hmap] at h
    cases h
  | error e' =>
    simp only [updateRows, bind, Except.bind, hmap] at h
    cases h
    exact mapM_error hmap

theorem insert_error (hacc : ∀ item ∈ items, item.Accepted)
    (hreq : ∀ item ∈ items, validateRequiredFields item .insertFeed = .ok ())
    (h : cudStatement sv now .insertFeed (items.map CudParams.toJson) rows = .error e) :
    (∀ column, e ≠ .notNull column) ∧ ¬ ∀ item ∈ items, Storable sv item := by
  simp only [cudStatement] at h
  rcases succeeds_or_fails ((items.map CudParams.toJson).mapM (parseItem sv)) with
    ⟨parsed, hparsed⟩ | ⟨e', hparsed⟩
  · exfalso
    rw [hparsed] at h
    have hreads := (parsed_ok sv hacc).mp hparsed
    cases hins : insertItems sv now rows parsed with
    | ok result =>
      simp only [bind, Except.bind, hins] at h
      cases h
    | error e' =>
      obtain ⟨p, hp, hnull⟩ := insertItems_error hins
      obtain ⟨item, hitem, hread⟩ := forall₂_right hreads hp
      obtain ⟨t, ht⟩ := required_title .insert (hreq item hitem)
      obtain ⟨u, hu⟩ := required_feedUrl (hreq item hitem)
      obtain ⟨s, hs⟩ := required_publishDate (Or.inl rfl) (hreq item hitem)
      obtain ⟨d, hd⟩ := publishDate_of_reads hread hs
      rw [hread.title, ht, hread.feedurl, hu, hd] at hnull
      simp at hnull
  · rw [hparsed] at h
    cases h
    exact parsed_error hacc hparsed

theorem update_error (hacc : ∀ item ∈ items, item.Accepted)
    (hreq : ∀ item ∈ items, validateRequiredFields item .updateFeed = .ok ())
    (h : cudStatement sv now .updateFeed (items.map CudParams.toJson) rows = .error e) :
    (∀ column, e ≠ .notNull column) ∧ (¬ ∀ item ∈ items, Storable sv item) ∨
      (∃ column, e = .notNull column) ∧ (∀ item ∈ items, Storable sv item) ∧
        ∃ item ∈ items, BlanksFeedUrl rows item := by
  simp only [cudStatement] at h
  rcases succeeds_or_fails ((items.map CudParams.toJson).mapM (parseItem sv)) with
    ⟨parsed, hparsed⟩ | ⟨e', hparsed⟩
  · right
    have hall := (parsed_iff hacc).mp ⟨parsed, hparsed⟩
    have hreads := (parsed_ok sv hacc).mp hparsed
    rw [hparsed] at h
    cases hup : updateRows now parsed rows with
    | ok result =>
      simp only [bind, Except.bind, hup] at h
      cases h
    | error e' =>
      simp only [bind, Except.bind, hup] at h
      cases h
      obtain ⟨r, hr, hrow⟩ := updateRows_error hup
      obtain ⟨hnull, p, hp, htitle, hmissing⟩ := updateRow_error hrow
      obtain ⟨item, hitem, hread⟩ := forall₂_right hreads hp
      obtain ⟨s, hs⟩ := required_publishDate (Or.inr rfl) (hreq item hitem)
      obtain ⟨d, hd⟩ := publishDate_of_reads hread hs
      refine ⟨hnull, hall, item, hitem, ?_, r, hr, ?_⟩
      · rw [hd, hread.feedurl] at hmissing
        simpa using hmissing
      · rw [← hread.title, htitle]
  · left
    rw [hparsed] at h
    cases h
    exact parsed_error hacc hparsed

theorem delete_error
    (h : cudStatement sv now .deleteFeed (items.map CudParams.toJson) rows = .error e) :
    e = .nulCharacter ∧ ∃ item ∈ items, containsNul item.toJson = true := by
  simp only [cudStatement] at h
  rcases succeeds_or_fails ((items.map CudParams.toJson).mapM parseTitle) with
    ⟨titles, hparsed⟩ | ⟨e', hparsed⟩
  · rw [hparsed] at h
    cases h
  · rw [hparsed] at h
    cases h
    obtain ⟨j, hj, herror⟩ := mapM_error hparsed
    obtain ⟨item, hitem, rfl⟩ := List.mem_map.mp hj
    rw [parseTitle] at herror
    split at herror
    · next hnul =>
      cases herror
      exact ⟨rfl, item, hitem, hnul⟩
    · cases herror

theorem storable_of_reads {parsed : List ParsedItem} (h : List.Forall₂ (Reads sv) items parsed) :
    ∀ item ∈ items, Storable sv item := by
  intro item hitem
  obtain ⟨p, _, hp⟩ := forall₂_left h hitem
  exact storable_iff.mpr ⟨p, hp⟩

theorem update_not_blank (hacc : ∀ item ∈ items, item.Accepted)
    (htitles : (items.filterMap CudParams.title).Nodup) (hkey : DistinctOn (titleKey sv) rows)
    {statuses : List StatusRow}
    (h : cudStatement sv now .updateFeed (items.map CudParams.toJson) rows =
      .ok (rows', statuses)) : ∀ item ∈ items, ¬ BlanksFeedUrl rows item := by
  obtain ⟨parsed, updated, hreads, hrows, _⟩ := update_ok sv hacc hkey h
  rintro item hitem ⟨hfeed, r, hr, ht⟩
  have hnull : ∀ q ∈ parsed, q.title = some r.title → q.feedurl = none := by
    intro q hq hqt
    obtain ⟨item', hitem', hread⟩ := forall₂_right hreads hq
    have hsame := eq_of_title htitles hitem' hitem (hread.title.symm.trans hqt) ht
    rw [hread.feedurl, hsame, hfeed]
  obtain ⟨p, hp, hread⟩ := forall₂_left hreads hitem
  have hpt : p.title = some r.title := hread.title.trans ht
  obtain ⟨r', _, hr'⟩ := forall₂_left hrows hr
  rcases hr' with ⟨hall, _⟩ | ⟨q, hq, hqt, _, feedurl, _, hqf, _⟩
  · have hvalue := (hall p hp hpt).2.1
    rw [hnull p hp hpt] at hvalue
    cases hvalue
  · rw [hnull q hq hqt] at hqf
    cases hqf

variable (now) in
/-- A validated batch raises exactly for an item that cannot be read or an update that would
blank a feed URL. -/
theorem statement_raises (batch : AcceptedBatch) (t : Newsfeed sv) :
    (∃ e, cudStatement sv now batch.mode.optionMode (batch.body.items.map CudParams.toJson)
        t.rows = .error e) ↔
      (∃ item ∈ batch.body.items, ¬ Readable sv batch.mode item) ∨
        batch.mode = .update ∧ ∃ item ∈ batch.body.items, BlanksFeedUrl t.rows item := by
  rcases batch with ⟨mode, body, hdup, hreq⟩
  have hcases := succeeds_or_fails (cudStatement sv now mode.optionMode
    (body.items.map CudParams.toJson) t.rows)
  have htitles := checkDuplicates_ok.mp hdup
  cases mode with
  | insert =>
    simp only [Readable, reduceCtorEq, false_and, or_false]
    constructor
    · intro h
      rcases h with ⟨e, he⟩
      simpa using (insert_error body.accepted hreq he).2
    · intro h
      rcases h with ⟨item, hitem, hno⟩
      apply hcases.resolve_left
      intro h
      rcases h with ⟨⟨rows', statuses⟩, hok⟩
      obtain ⟨parsed, _, hreads, _⟩ := insert_ok sv body.accepted t.primaryKey hok
      exact hno (storable_of_reads hreads item hitem)
  | update =>
    simp only [Readable, true_and]
    constructor
    · intro h
      rcases h with ⟨e, he⟩
      rcases update_error body.accepted hreq he with ⟨_, hno⟩ | ⟨_, _, hblank⟩
      · exact Or.inl (by simpa using hno)
      · exact Or.inr hblank
    · intro hbad
      apply hcases.resolve_left
      intro h
      rcases h with ⟨⟨rows', statuses⟩, hok⟩
      rcases hbad with ⟨item, hitem, hno⟩ | ⟨item, hitem, hblank⟩
      · obtain ⟨parsed, _, hreads, _⟩ := update_ok sv body.accepted t.primaryKey hok
        exact hno (storable_of_reads hreads item hitem)
      · exact update_not_blank body.accepted htitles t.primaryKey hok item hitem hblank
  | delete =>
    simp only [Readable, reduceCtorEq, false_and, or_false]
    constructor
    · intro h
      rcases h with ⟨e, he⟩
      obtain ⟨_, item, hitem, hnul⟩ := delete_error he
      exact ⟨item, hitem, by simp [hnul]⟩
    · intro h
      rcases h with ⟨item, hitem, hnul⟩
      apply hcases.resolve_left
      intro h
      rcases h with ⟨⟨rows', statuses⟩, hok⟩
      exact hnul ((delete_ok sv t.primaryKey hok).1 item hitem)

/-- The whole batch is aborted for a null in a `NOT NULL` column. -/
def AbortsOnNull (answer : Except DbError (List CudResult)) : Prop :=
  ∃ column, answer = .error (.sql (.notNull column))

/-- A validated batch is aborted for a null exactly when it updates, can be read, and has an
item without a feed URL whose title is in the table. -/
theorem aborts_on_null_iff (sv : Server) (isRfc3339 : Text → Bool) (now : Timestamp)
    (batch : AcceptedBatch) (t : Newsfeed sv) :
    ¬ AbortsOnNull (cudFeed isRfc3339 (postgres sv now) batch.mode.optionMode
        batch.body.items t).2 ↔
      ¬ (batch.mode = .update ∧ (∀ item ∈ batch.body.items, Storable sv item) ∧
        ∃ item ∈ batch.body.items, BlanksFeedUrl t.rows item) := by
  rw [not_iff_not]
  have hraises := statement_raises now batch t
  rcases batch with ⟨mode, body, hdup, hreq⟩
  rcases cudFeed_cases sv isRfc3339 now mode.optionMode body.items t with
    ⟨e, hst, hfeed⟩ | ⟨t', statuses, hst, hfeed⟩
  · have habort : AbortsOnNull (cudFeed isRfc3339 (postgres sv now) mode.optionMode
        body.items t).2 ↔ ∃ column, e = .notNull column := by
      rw [hfeed, AbortsOnNull]
      simp
    rw [habort]
    cases mode with
    | insert =>
      have hno := (insert_error body.accepted hreq hst).1
      simp [hno]
    | update =>
      rcases update_error body.accepted hreq hst with ⟨hno, hunread⟩ | ⟨hnull, hall, hblank⟩
      · simp [hno, hunread]
      · exact iff_of_true hnull ⟨rfl, hall, hblank⟩
    | delete =>
      rw [(delete_error hst).1]
      simp
  · have hno : ¬ AbortsOnNull (cudFeed isRfc3339 (postgres sv now) mode.optionMode
        body.items t).2 := by
      rw [hfeed, AbortsOnNull]
      simp
    apply iff_of_false hno
    intro h
    rcases h with ⟨hmode, _, hblank⟩
    obtain ⟨e, he⟩ := hraises.mpr (Or.inr ⟨hmode, hblank⟩)
    rw [hst] at he
    cases he

/-- An update of `Hello` without a feed URL. -/
def noFeedUrl : AcceptedItem := ⟨{ sampleItem "Hello" with feedUrl := none }, by decide⟩

theorem update_without_feed_url_aborts :
    Accepts (CudPayload.single noFeedUrl) CudMode.update.optionMode ∧
      AbortsOnNull (cudFeed sampleRfc3339 (postgres sampleServer (noon + 1)) .updateFeed
        (CudPayload.single noFeedUrl).items sampleTable).2 := by
  refine ⟨⟨rfl, by decide⟩, "feedurl", ?_⟩
  rcases cudFeed_cases sampleServer sampleRfc3339 (noon + 1) .updateFeed
    (CudPayload.single noFeedUrl).items sampleTable with ⟨e, hst, hfeed⟩ | ⟨t', _, hst, _⟩
  · have hnull : cudStatement sampleServer (noon + 1) .updateFeed
        ((CudPayload.single noFeedUrl).items.map CudParams.toJson) sampleTable.rows =
        .error (.notNull "feedurl") := rfl
    rw [hfeed, ← Except.error.inj (hnull.symm.trans hst)]
  · cases hst

end PostgresConstraints
