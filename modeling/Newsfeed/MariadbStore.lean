import Newsfeed.FeedStore
import Newsfeed.MariadbProcedures

/-! # MariaDB keeps the store

On texts that the collation tells apart and does not take for blank ones, a call of the
procedure does what the store does, whatever connection it runs on.
-/
namespace MariadbStore

open TextOperations FallibleOperations SqlLogic RelationalTables JsonText KeyedStore FeedModels
open CudHandlers FeedStore MariadbProcedures

/-- The collation tells the texts in use apart, and takes none of them for the empty one. -/
structure Faithful (coll : Collation) (U : Set Entry) : Prop where
  accepted : ∀ e ∈ U, e.item.Accepted
  titles : Set.InjOn coll.key (insert [] (titles U))
  imageUrls : Set.InjOn coll.key (insert [] (texts Entry.imageUrl U))
  feedUrls : Set.InjOn coll.key (insert [] (feedUrls U))
  actualUrls : Set.InjOn coll.key (insert [] (texts Entry.actualUrl U))
  dates : Set.InjOn coll.key (insert [] (publishDates U))

structure Represents (r : Row) (e : Entry) : Prop where
  title : r.title = some e.title
  imageurl : r.imageurl = e.imageUrl
  feedurl : r.feedurl = some e.feedUrl
  actualurl : r.actualurl = e.actualUrl
  publishdate : r.publishdate = some e.publishDate

def read (e : Entry) : ParsedItem := readItem e.item

section Columns

variable {coll : Collation} {S : Set Text}

theorem eq_of_injOn (h : Set.InjOn coll.key (insert [] S)) {a b : Text} (ha : a ∈ S) (hb : b ∈ S) :
    coll.eq a b = decide (a = b) := by
  rw [Bool.eq_iff_iff, Collation.eq_iff, decide_eq_true_eq]
  exact ⟨fun hk => h (Set.mem_insert_of_mem _ ha) (Set.mem_insert_of_mem _ hb) hk,
    fun hab => by rw [hab]⟩

theorem not_blank (h : Set.InjOn coll.key (insert [] S)) {a : Text} (ha : a ∈ S) (hne : a ≠ []) :
    coll.eq a [] = false := by
  rw [← Bool.not_eq_true, Collation.eq_iff]
  exact fun hk => hne (h (Set.mem_insert_of_mem _ ha) (Set.mem_insert _ _) hk)

theorem isGiven_text (h : Set.InjOn coll.key (insert [] S)) {a : Text} (ha : a ∈ S) (hne : a ≠ []) :
    isGiven coll (some a) = true := by
  rw [isGiven, sqlEq_some_some, not_blank h ha hne]
  rfl

theorem nullifBlank_url {x : Option Text} (h : Set.InjOn coll.key (insert [] S))
    (hx : ∀ s ∈ x, s ∈ S) (hvalid : ∀ s ∈ x, ValidUrl s) : nullifBlank coll x = x := by
  cases x with
  | none => rfl
  | some s =>
    obtain ⟨htrim, hne, _⟩ := (hvalid s rfl).1
    rw [nullifBlank, Option.bind_some, trimSpaces_of_trim htrim, not_blank h (hx s rfl) hne]
    rfl

theorem notDistinct_eq (h : Set.InjOn coll.key (insert [] S)) {x y : Option Text}
    (hx : ∀ s ∈ x, s ∈ S) (hy : ∀ s ∈ y, s ∈ S) :
    notDistinct coll.eq x y = decide (x = y) := by
  cases x with
  | none => cases y <;> rfl
  | some s =>
    cases y with
    | none => rfl
    | some t =>
      rw [notDistinct, eq_of_injOn h (hx s rfl) (hy t rfl), Bool.eq_iff_iff, decide_eq_true_eq,
        decide_eq_true_eq, Option.some.injEq]

end Columns

theorem stands_unique {U : Set Entry} {r : Row} {e f : Entry} (he : Stands Represents U r e)
    (hf : Stands Represents U r f) : e = f := by
  have htitle := Option.some.inj (he.1.title.symm.trans hf.1.title)
  exact (eq_iff_of_title htitle).mpr ⟨he.1.imageurl.symm.trans hf.1.imageurl,
    Option.some.inj (he.1.feedurl.symm.trans hf.1.feedurl),
    he.1.actualurl.symm.trans hf.1.actualurl,
    Option.some.inj (he.1.publishdate.symm.trans hf.1.publishdate)⟩

section Statements

variable {coll : Collation} {U : Set Entry} (hU : Faithful coll U)

include hU

theorem parsed_batch {batch : List Entry} (hbatch : ∀ e ∈ batch, e ∈ U) :
    parsedItems coll (batch.map Entry.item) = batch.map read := by
  have hread : (batch.map Entry.item).map readItem = batch.map read := by
    rw [List.map_map]
    rfl
  rw [parsedItems, hread, List.filter_eq_self]
  intro p hp
  obtain ⟨e, he, rfl⟩ := List.mem_map.mp hp
  have heU := hbatch e he
  have hacc := hU.accepted e heU
  have ht := isGiven_text hU.titles (title_mem heU) (hacc.title _ rfl).2.1
  have hf := isGiven_text hU.feedUrls (feedUrl_mem heU) (hacc.feedUrl _ rfl).1.2.1
  have hd := isGiven_text hU.dates (publishDate_mem heU) (hacc.publishDate _ rfl).2.1
  simp only [isParsed, read, readItem, Entry.item, ht, hf, hd, Bool.and_self]

theorem image_kept {e : Entry} (he : e ∈ U) : nullifBlank coll e.imageUrl = e.imageUrl :=
  nullifBlank_url hU.imageUrls (fun _ hs => ⟨e, he, hs⟩) (hU.accepted e he).imageUrl

theorem actual_kept {e : Entry} (he : e ∈ U) : nullifBlank coll e.actualUrl = e.actualUrl :=
  nullifBlank_url hU.actualUrls (fun _ hs => ⟨e, he, hs⟩) (hU.accepted e he).actualUrl

theorem titleMatches_eq {r : Row} {e f : Entry} (hr : Stands Represents U r e) (hf : f ∈ U) :
    titleMatches coll (read f) r = decide (e.title = f.title) := by
  have htitle := eq_of_injOn hU.titles (title_mem hr.2) (title_mem hf)
  simp only [titleMatches, hr.1.title, read, readItem, Entry.item, sqlEq_some_some, htitle]
  cases decide (e.title = f.title) <;> rfl

theorem unchanged_eq {r : Row} {e f : Entry} (hr : Stands Represents U r e) (hf : f ∈ U)
    (htitle : e.title = f.title) : unchanged coll r (read f) = decide (e = f) := by
  obtain ⟨hr, he⟩ := hr
  have hsome : ∀ {S : Set Text} {t : Text}, t ∈ S → ∀ s ∈ some t, s ∈ S := by
    intro S t ht s hs
    cases hs
    exact ht
  simp only [unchanged, hr.imageurl, hr.feedurl, hr.actualurl, hr.publishdate, read, readItem,
    Entry.item, image_kept hU hf, actual_kept hU hf]
  rw [notDistinct_eq hU.imageUrls (fun _ hs => ⟨e, he, hs⟩) fun _ hs => ⟨f, hf, hs⟩,
    notDistinct_eq hU.feedUrls (hsome (feedUrl_mem he)) (hsome (feedUrl_mem hf)),
    notDistinct_eq hU.actualUrls (fun _ hs => ⟨e, he, hs⟩) fun _ hs => ⟨f, hf, hs⟩,
    notDistinct_eq hU.dates (hsome (publishDate_mem he)) (hsome (publishDate_mem hf))]
  rw [Bool.eq_iff_iff, Bool.and_eq_true, Bool.and_eq_true, Bool.and_eq_true, decide_eq_true_eq,
    decide_eq_true_eq, decide_eq_true_eq, decide_eq_true_eq, decide_eq_true_eq,
    eq_iff_of_title htitle, Option.some.injEq, Option.some.injEq, and_assoc, and_assoc]

theorem isNew_eq {rows : List Row} {es : List Entry} {e : Entry} (h : Holds Represents U rows es)
    (he : e ∈ U) : isNew coll rows (read e) = (lookup Entry.title es e.title).isNone := by
  rw [isNew, existsRow, ← Option.not_isSome, lookup_isSome]
  exact congrArg _ (any_represented h.rows fun r f hr => titleMatches_eq hU hr he)

theorem newRow_stands (now : Timestamp) {e : Entry} (he : e ∈ U) :
    Stands Represents U (newRow coll now (read e)) e :=
  ⟨⟨rfl, image_kept hU he, rfl, actual_kept hU he, rfl⟩, he⟩

theorem updateRow_stands (now : Timestamp) {batch : List Entry} (hbatch : ∀ e ∈ batch, e ∈ U)
    (hkeys : DistinctOn Entry.title batch) {r : Row} {e : Entry} (hr : Stands Represents U r e) :
    Stands Represents U (updateRow coll now (batch.map read) r)
      ((lookup Entry.title batch e.title).getD e) := by
  have hpasses : ∀ g ∈ batch, ((fun t => titleMatches coll t r && !unchanged coll r t) ∘ read) g =
      true ↔ g.title = e.title ∧ e ≠ g := by
    intro g hg
    rw [Function.comp_apply, Bool.and_eq_true, titleMatches_eq hU hr (hbatch g hg),
      decide_eq_true_eq, eq_comm]
    refine and_congr_right fun ht => ?_
    rw [unchanged_eq hU hr (hbatch g hg) ht.symm, Bool.not_eq_true', decide_eq_false_iff_not]
  unfold updateRow
  rw [List.find?_map, find?_differing (r := e) hkeys hpasses]
  cases hfound : lookup Entry.title batch e.title with
  | none => exact hr
  | some f =>
    have hf := hbatch f (mem_of_lookup hfound)
    by_cases hsame : e = f
    · rw [Option.filter_some, if_neg (by simp [hsame])]
      exact hsame ▸ hr
    · rw [Option.filter_some, if_pos (decide_eq_true hsame)]
      refine ⟨⟨?_, image_kept hU hf, rfl, actual_kept hU hf, rfl⟩, hf⟩
      exact hr.1.title.trans (congrArg some (key_of_lookup hfound).symm)

theorem written_holds (now : Timestamp) (mode : CudMode) {batch es : List Entry} {rows : List Row}
    (hbatch : ∀ e ∈ batch, e ∈ U) (hkeys : DistinctOn Entry.title batch)
    (h : Holds Represents U rows es) :
    Holds Represents U (written coll now mode (batch.map read) rows) (stored mode batch es) := by
  refine ⟨?_, changed_distinct (op mode) h.titles hkeys⟩
  cases mode with
  | insert =>
    have hnew : (batch.map read).filter (isNew coll rows) =
        (batch.filter fun e => (lookup Entry.title es e.title).isNone).map read := by
      rw [List.filter_map]
      exact congrArg _ (List.filter_congr fun e he => isNew_eq hU h (hbatch e he))
    rw [written, insertRows, hnew, List.map_map]
    refine List.rel_append h.rows ?_
    rw [List.forall₂_map_left_iff, List.forall₂_same]
    exact fun e he => newRow_stands hU now (hbatch e (List.mem_filter.mp he).1)
  | update => exact map_represented h.rows fun r e hr => updateRow_stands hU now hbatch hkeys hr
  | delete =>
    refine filter_represented h.rows fun r e hr => ?_
    rw [← Option.not_isSome, lookup_isSome, List.any_map, Bool.eq_iff_iff, Bool.not_eq_true',
      Bool.not_eq_true', List.any_eq_false, List.any_eq_false]
    refine forall_congr' fun f => imp_congr_right fun hf => ?_
    rw [Function.comp_apply, titleMatches_eq hU hr (hbatch f hf), decide_eq_true_eq,
      decide_eq_true_eq, eq_comm]

theorem updateStatus_eq {r : Row} {e f : Entry} (hr : Stands Represents U r f) (he : e ∈ U)
    (htitle : f.title = e.title) :
    updateStatus coll (read e) (some r) = statusRow (outcome .update (some f) e) := by
  have hsome : ¬ r.title.isNone = true := by
    rw [hr.1.title]
    exact Bool.false_ne_true
  show (if _ then _ else if _ then _ else _) = _
  rw [if_neg hsome, unchanged_eq hU hr he htitle, outcome]
  by_cases hsame : f = e
  · rw [if_pos hsame, if_pos (decide_eq_true hsame)]
    rfl
  · rw [if_neg hsame, if_neg (by simpa using hsame)]
    rfl

theorem statuses_eq (mode : CudMode) {batch es : List Entry} {rows : List Row}
    (hbatch : ∀ e ∈ batch, e ∈ U) (h : Holds Represents U rows es) :
    MariadbProcedures.statuses coll mode (batch.map read) rows =
      FeedStore.statuses mode batch es := by
  have hjoin : leftJoin (titleMatches coll) (batch.map read) rows =
      (batch.map read).map fun t => (t, rows.find? (titleMatches coll t)) := by
    refine leftJoin_eq_map fun t ht => ?_
    obtain ⟨e, he, rfl⟩ := List.mem_map.mp ht
    exact countP_key_le_one h.titles h.rows fun r f hr => titleMatches_eq hU hr (hbatch e he)
  rw [MariadbProcedures.statuses, hjoin, FeedStore.statuses, outcomes, List.map_map, List.map_map,
    List.map_map]
  refine List.map_congr_left fun e he => ?_
  have hfound := find?_represented h.rows fun r f hr => titleMatches_eq hU hr (hbatch e he)
  rw [← lookup.eq_1 Entry.title es e.title] at hfound
  have htitle : ∀ r f, Stands Represents U r f → r.title.isSome = true := by
    intro r f hr
    rw [hr.1.title]
    rfl
  simp only [Function.comp_apply]
  generalize hrow : rows.find? (titleMatches coll (read e)) = row at hfound ⊢
  generalize hentry : lookup Entry.title es e.title = entry at hfound ⊢
  cases hfound with
  | none => cases mode <;> rfl
  | @some r f hr =>
    cases mode with
    | insert => simp only [insertStatus, Option.bind_some, htitle r f hr, ↓reduceIte]; rfl
    | update => exact updateStatus_eq hU hr (hbatch e he) (key_of_lookup hentry)
    | delete => simp only [deleteStatus, Option.bind_some, htitle r f hr, ↓reduceIte]; rfl

omit hU in
theorem parseStatusRows_of_few (isRfc3339 : Text → Bool) {statuses : List StatusRow}
    (hshort : ∀ s ∈ statuses, ShortStatus s) (hfew : statuses.length ≤ maxBatchItems) :
    parseStatusRows isRfc3339 [some (statusText statuses)] =
      .ok (statuses.map StatusRow.result) := by
  refine parseStatusRows_of_fits isRfc3339 hshort ?_
  by_contra hover
  rw [← printedStatuses_texts, not_le] at hover
  have hmany := length_of_overflow (fun p hp => length_of_printed hshort hp) hover
  rw [printedStatuses_length] at hmany
  rw [maxBatchItems] at hfew
  omega

/-- A call of the procedure does what the store does. -/
theorem cudFeed_holds (isRfc3339 : Text → Bool) (now : Timestamp) (c : Connection) (mode : CudMode)
    {batch es : List Entry} {rows : List Row} (hbatch : ∀ e ∈ batch, e ∈ U)
    (hfew : batch.length ≤ maxBatchItems) (hkeys : DistinctOn Entry.title batch)
    (h : Holds Represents U rows es) :
    Holds Represents U
        (cudFeed isRfc3339 (mariadb coll now c) mode.optionMode (batch.map Entry.item) rows).1
        (stored mode batch es) ∧
      (cudFeed isRfc3339 (mariadb coll now c) mode.optionMode (batch.map Entry.item) rows).2 =
        .ok (results mode batch es) := by
  rw [cudFeed_rows, cudFeed_results, parsed_batch hU hbatch]
  refine ⟨written_holds hU now mode hbatch hkeys h, ?_⟩
  have hlength : (MariadbProcedures.statuses coll mode (batch.map read) rows).length =
      batch.length := by
    rw [statuses_eq hU mode hbatch h, FeedStore.statuses, List.length_map, outcomes,
      List.length_map]
  rw [parseStatusRows_of_few isRfc3339 (statuses_short coll mode _ rows) (hlength ▸ hfew),
    statuses_eq hU mode hbatch h]
  rfl

end Statements

theorem ascii_injOn {S : Set Text} (hS : S.Subsingleton) :
    Set.InjOn Collation.ascii.key (insert [] S) := by
  have hblank : ∀ t, Collation.ascii.key t = Collation.ascii.key [] → t = [] :=
    fun t h => List.map_eq_nil_iff.mp h
  intro a ha b hb h
  rcases ha with rfl | ha
  · exact (hblank b h.symm).symm
  · rcases hb with rfl | hb
    · exact hblank a h
    · exact hS ha hb

theorem hello_faithful : Faithful .ascii {helloEntry} where
  accepted := by
    rintro e rfl
    decide
  titles := ascii_injOn (texts_singleton _ _)
  imageUrls := ascii_injOn (texts_singleton _ _)
  feedUrls := ascii_injOn (texts_singleton _ _)
  actualUrls := ascii_injOn (texts_singleton _ _)
  dates := ascii_injOn (texts_singleton _ _)

end MariadbStore
