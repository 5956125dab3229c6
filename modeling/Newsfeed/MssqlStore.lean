import Newsfeed.FeedStore
import Newsfeed.MssqlProcedures

/-! # SQL Server keeps the store

On texts that fit their columns and that the collation tells apart, and as long as the
items of a title agree on which URLs they leave out, a call of the procedure does what
the store does.
-/
namespace MssqlStore

open TextOperations FallibleOperations SqlLogic RelationalTables KeyedStore FeedModels CudHandlers
open FeedStore MssqlProcedures

/-- The server takes the entries in use and tells them apart. An update does not see a URL
that is `NULL` on one side only. -/
structure Faithful (sv : Server) (U : Set Entry) : Prop where
  accepted : ∀ e ∈ U, e.item.Accepted
  given : ∀ e ∈ U, keepsItem sv e.item = true
  fits : ∀ e ∈ U, Fits e.item
  titles : Set.InjOn sv.coll.key (titles U)
  imageUrls : Set.InjOn sv.coll.key (texts Entry.imageUrl U)
  feedUrls : Set.InjOn sv.coll.key (feedUrls U)
  actualUrls : Set.InjOn sv.coll.key (texts Entry.actualUrl U)
  castable : ∀ d ∈ publishDates U, (sv.tryCast d).isSome
  dates : Set.InjOn sv.tryCast (publishDates U)
  nulls : ∀ e ∈ U, ∀ f ∈ U, e.title = f.title →
    e.imageUrl.isSome = f.imageUrl.isSome ∧ e.actualUrl.isSome = f.actualUrl.isSome

structure Represents (sv : Server) (r : Row) (e : Entry) : Prop where
  title : r.title = e.title
  imageurl : r.imageurl = e.imageUrl
  feedurl : r.feedurl = e.feedUrl
  actualurl : r.actualurl = e.actualUrl
  publishDate : sv.tryCast e.publishDate = some r.publishDate

def read (sv : Server) (e : Entry) : ParsedItem := readItem sv e.item

theorem equalOrBothNull_eq {sv : Server} {U : Set Entry} {column : Entry → Option Text}
    {e f : Entry} (hinj : Set.InjOn sv.coll.key (texts column U)) (he : e ∈ U) (hf : f ∈ U)
    (hnull : (column e).isSome = (column f).isSome) :
    equalOrBothNull sv (column e) (column f) = Truth.ofBool (decide (column e = column f)) := by
  cases hce : column e with
  | none =>
    cases hcf : column f with
    | none => rfl
    | some u => simp [hce, hcf] at hnull
  | some t =>
    cases hcf : column f with
    | none => simp [hce, hcf] at hnull
    | some u =>
      have hkey : textEq sv t u = decide (some t = some u) := by
        rw [Bool.eq_iff_iff, textEq, Collation.eq_iff, decide_eq_true_eq, Option.some.injEq]
        exact ⟨fun h => hinj ⟨e, he, hce⟩ ⟨f, hf, hcf⟩ h, fun h => by rw [h]⟩
      rw [equalOrBothNull, sqlEq_some_some, hkey]
      cases decide (some t = some u) <;> rfl

section Statements

variable {sv : Server} {U : Set Entry} (hU : Faithful sv U)

include hU

theorem parse_batch {batch : List Entry} (hbatch : ∀ e ∈ batch, e ∈ U) :
    parseItems sv ((batch.map Entry.item).map CudParams.toJson) = .ok (batch.map (read sv)) := by
  have hitems : ∀ item ∈ batch.map Entry.item, ∃ e ∈ U, e.item = item := by
    intro item hitem
    obtain ⟨e, he, rfl⟩ := List.mem_map.mp hitem
    exact ⟨e, hbatch e he, rfl⟩
  refine (parseItems_ok sv ?_).mpr ⟨?_, ?_⟩
  · intro item hitem
    obtain ⟨e, he, rfl⟩ := hitems item hitem
    exact hU.accepted e he
  · intro item hitem _
    obtain ⟨e, he, rfl⟩ := hitems item hitem
    exact hU.fits e he
  · rw [List.filter_eq_self.mpr, List.map_map]
    · rfl
    · intro item hitem
      obtain ⟨e, he, rfl⟩ := hitems item hitem
      exact hU.given e he

theorem stands_unique {r : Row} {e f : Entry} (he : Stands (Represents sv) U r e)
    (hf : Stands (Represents sv) U r f) : e = f := by
  have hdates := he.1.publishDate.trans hf.1.publishDate.symm
  exact (eq_iff_of_title (he.1.title.symm.trans hf.1.title)).mpr
    ⟨he.1.imageurl.symm.trans hf.1.imageurl, he.1.feedurl.symm.trans hf.1.feedurl,
      he.1.actualurl.symm.trans hf.1.actualurl,
      hU.dates (publishDate_mem he.2) (publishDate_mem hf.2) hdates⟩

theorem titles_eq {e f : Entry} (he : e ∈ U) (hf : f ∈ U) :
    sv.coll.key e.title = sv.coll.key f.title ↔ e.title = f.title :=
  ⟨fun h => hU.titles (title_mem he) (title_mem hf) h, fun h => by rw [h]⟩

theorem titleMatches_eq {r : Row} {e f : Entry} (hr : Stands (Represents sv) U r e) (hf : f ∈ U) :
    titleMatches sv (read sv f) r = decide (e.title = f.title) := by
  rw [Bool.eq_iff_iff, titleMatches_iff, hr.1.title, decide_eq_true_eq, ← titles_eq hU hr.2 hf]
  simp [read, readItem, Entry.item]

theorem changeTest_holds {r : Row} {e f : Entry} (hr : Stands (Represents sv) U r e) (hf : f ∈ U)
    (htitle : e.title = f.title) :
    (changeTest sv r (read sv f)).holds = decide (e ≠ f) := by
  obtain ⟨hr, he⟩ := hr
  obtain ⟨himage, hactual⟩ := hU.nulls e he f hf htitle
  have hfeed : textEq sv e.feedUrl f.feedUrl = decide (e.feedUrl = f.feedUrl) := by
    rw [Bool.eq_iff_iff, textEq, Collation.eq_iff, decide_eq_true_eq]
    exact ⟨fun h => hU.feedUrls (feedUrl_mem he) (feedUrl_mem hf) h, fun h => by rw [h]⟩
  obtain ⟨d, hd⟩ := Option.isSome_iff_exists.mp (hU.castable _ (publishDate_mem hf))
  have hdate : (r.publishDate == d) = decide (e.publishDate = f.publishDate) := by
    rw [Bool.eq_iff_iff, beq_iff_eq, decide_eq_true_eq]
    constructor
    · rintro rfl
      exact hU.dates (publishDate_mem he) (publishDate_mem hf) (hr.publishDate.trans hd.symm)
    · intro h
      have hsame := hr.publishDate
      rw [h, hd] at hsame
      exact (Option.some.inj hsame).symm
  have htest : changeTest sv r (read sv f) =
      ((((equalOrBothNull sv e.imageUrl f.imageUrl).and
        (sqlEq (textEq sv) (some e.feedUrl) (some f.feedUrl))).and
          (equalOrBothNull sv e.actualUrl f.actualUrl)).and
            (sqlEq (· == ·) (some r.publishDate) (some d))).not := by
    rw [changeTest, hr.imageurl, hr.feedurl, hr.actualurl]
    simp only [read, readItem, Entry.item, Option.bind_some, hd]
  rw [htest, equalOrBothNull_eq hU.imageUrls he hf himage,
    equalOrBothNull_eq hU.actualUrls he hf hactual, sqlEq_some_some, sqlEq_some_some, hfeed, hdate]
  rw [Bool.eq_iff_iff, Truth.holds_iff, Truth.not_eq_true, decide_eq_true_eq, ne_eq,
    eq_iff_of_title htitle]
  simp only [Truth.and_eq_false, Truth.ofBool_eq_false, decide_eq_false_iff_not]
  tauto

theorem isNew_eq {rows : List Row} {es : List Entry} {e : Entry}
    (h : Holds (Represents sv) U rows es) (he : e ∈ U) :
    isNew sv rows (read sv e) = (lookup Entry.title es e.title).isNone := by
  rw [isNew, existsRow, ← Option.not_isSome, lookup_isSome]
  exact congrArg _ (any_represented h.rows fun r f hr => titleMatches_eq hU hr he)

theorem insertItems_holds (now : Timestamp) {new es : List Entry} {rows : List Row}
    (hnew : ∀ e ∈ new, e ∈ U) (hkeys : DistinctOn Entry.title new)
    (hfree : Apart Entry.title es new) (h : Holds (Represents sv) U rows es) :
    ∃ rows', insertItems sv now rows (new.map (read sv)) = .ok (rows', new.map Entry.title) ∧
      Holds (Represents sv) U rows' (es ++ new) := by
  induction new generalizing rows es with
  | nil => exact ⟨rows, rfl, by rwa [List.append_nil]⟩
  | cons e new ih =>
    obtain ⟨hfirst, hrest⟩ := List.pairwise_cons.mp hkeys
    have he := hnew e List.mem_cons_self
    obtain ⟨d, hd⟩ := Option.isSome_iff_exists.mp (hU.castable _ (publishDate_mem he))
    have hfree' : ∀ f ∈ es, f.title ≠ e.title := fun f hf => hfree f hf e List.mem_cons_self
    have hnone : existsRow (fun r => textEq sv r.title e.title) rows = false := by
      rw [existsRow, List.any_eq_false]
      intro r hr heq
      obtain ⟨f, hf, hstands⟩ := forall₂_left h.rows hr
      rw [textEq, Collation.eq_iff, hstands.1.title, titles_eq hU hstands.2 he] at heq
      exact hfree' f hf heq
    have hitem : insertItem sv now rows (read sv e) =
        .ok (rows ++ [newRow now e.title e.feedUrl d (read sv e)], e.title) := by
      simp only [insertItem, read, readItem, Entry.item, Option.bind_some, hd, hnone,
        Bool.false_eq_true, ↓reduceIte]
    have hlater : Apart Entry.title (es ++ [e]) new := by
      intro x hx y hy
      rcases List.mem_append.mp hx with hx | hx
      · exact hfree x hx y (List.mem_cons_of_mem e hy)
      · rw [List.mem_singleton.mp hx]
        exact hfirst y hy
    have hnext : Holds (Represents sv) U
        (rows ++ [newRow now e.title e.feedUrl d (read sv e)]) (es ++ [e]) :=
      ⟨List.rel_append h.rows (.cons ⟨⟨rfl, rfl, rfl, rfl, hd⟩, he⟩ .nil), h.titles.concat hfree'⟩
    obtain ⟨rows', hins, hholds⟩ :=
      ih (fun f hf => hnew f (List.mem_cons_of_mem e hf)) hrest hlater hnext
    refine ⟨rows', ?_, ?_⟩
    · rw [List.map_cons, insertItems, hitem]
      simp only [bind, Except.bind, hins, pure, Except.pure, List.map_cons]
    · rwa [List.append_assoc, List.singleton_append] at hholds

theorem updateRow_stands (now : Timestamp) {batch : List Entry} (hbatch : ∀ e ∈ batch, e ∈ U)
    (hkeys : DistinctOn Entry.title batch) {r : Row} {e : Entry}
    (hr : Stands (Represents sv) U r e) :
    ∃ r', updateRow sv now (batch.map (read sv)) r = .ok (r', updatedTitle batch e) ∧
      Stands (Represents sv) U r' ((lookup Entry.title batch e.title).getD e) := by
  have hpasses : ∀ g ∈ batch, ((fun p => titleMatches sv p r && (changeTest sv r p).holds) ∘
      read sv) g = true ↔ g.title = e.title ∧ e ≠ g := by
    intro g hg
    rw [Function.comp_apply, Bool.and_eq_true, titleMatches_eq hU hr (hbatch g hg),
      decide_eq_true_eq, eq_comm]
    refine and_congr_right fun ht => ?_
    rw [changeTest_holds hU hr (hbatch g hg) ht.symm, decide_eq_true_eq]
  unfold updateRow updatedTitle
  rw [List.find?_map, find?_differing (r := e) hkeys hpasses]
  cases hfound : lookup Entry.title batch e.title with
  | none => exact ⟨r, rfl, hr⟩
  | some f =>
    have hf := hbatch f (mem_of_lookup hfound)
    obtain ⟨d, hd⟩ := Option.isSome_iff_exists.mp (hU.castable _ (publishDate_mem hf))
    by_cases hsame : e = f
    · refine ⟨r, ?_, hsame ▸ hr⟩
      rw [Option.filter_some, if_neg (by simp [hsame]), Option.any_some, if_neg (by simp [hsame])]
      rfl
    · refine ⟨{ r with
        imageurl := f.imageUrl
        feedurl := f.feedUrl
        actualurl := f.actualUrl
        publishDate := d
        modifiedDate := some now }, ?_, ?_⟩
      · simp only [Option.filter_some, Option.any_some, decide_eq_true hsame, ↓reduceIte,
          Option.map_some, read, readItem, Entry.item, Option.bind_some, hd, hr.1.title]
      · exact ⟨⟨hr.1.title.trans (key_of_lookup hfound).symm, rfl, rfl, rfl, hd⟩, hf⟩

theorem updateRows_holds (now : Timestamp) {batch es : List Entry} {rows : List Row}
    (hbatch : ∀ e ∈ batch, e ∈ U) (hkeys : DistinctOn Entry.title batch)
    (h : Holds (Represents sv) U rows es) :
    ∃ rows', updateRows sv now (batch.map (read sv)) rows =
        .ok (rows', (reported Entry.title .update batch es).map Entry.title) ∧
      Holds (Represents sv) U rows' (stored .update batch es) := by
  obtain ⟨updated, hupdated, htitles, hstands⟩ :=
    mapM_stands (fun r e hr => updateRow_stands hU now hbatch hkeys hr) h.rows
  refine ⟨updated.map Prod.fst, ?_, hstands, changed_distinct .update h.titles hkeys⟩
  rw [updateRows, hupdated, ← htitles]
  rfl

theorem deleteMatches_eq {batch : List Entry} (hbatch : ∀ e ∈ batch, e ∈ U) {r : Row} {e : Entry}
    (hr : Stands (Represents sv) U r e) : deleteMatches sv (batch.map (read sv)) r =
      (lookup Entry.title batch e.title).isSome := by
  rw [deleteMatches, lookup_isSome, List.any_map, Bool.eq_iff_iff, List.any_eq_true,
    List.any_eq_true]
  refine exists_congr fun f => and_congr_right fun hf => ?_
  rw [Function.comp_apply, titleMatches_eq hU hr (hbatch f hf), decide_eq_true_eq,
    decide_eq_true_eq, eq_comm]

theorem delete_holds {batch es : List Entry} {rows : List Row} (hbatch : ∀ e ∈ batch, e ∈ U)
    (h : Holds (Represents sv) U rows es) :
    Holds (Represents sv) U (rows.filter fun r => !deleteMatches sv (batch.map (read sv)) r)
        (stored .delete batch es) ∧
      (rows.filter (deleteMatches sv (batch.map (read sv)))).map Row.title =
        (reported Entry.title .delete batch es).map Entry.title := by
  refine ⟨⟨?_, h.titles.filter _⟩, ?_⟩
  · refine filter_represented h.rows fun r e hr => ?_
    rw [deleteMatches_eq hU hbatch hr, Option.not_isSome]
  · have hremoved := filter_represented h.rows fun r e hr => deleteMatches_eq hU hbatch hr
    rw [← List.forall₂_eq_eq_eq, List.forall₂_map_left_iff, List.forall₂_map_right_iff]
    exact hremoved.imp fun r e hr => hr.1.title

/-- What a call writes is what the store does, and it puts out the titles it changes. -/
theorem written_holds (now : Timestamp) (mode : CudMode) {batch es : List Entry}
    {rows : List Row} (hbatch : ∀ e ∈ batch, e ∈ U) (hkeys : DistinctOn Entry.title batch)
    (h : Holds (Represents sv) U rows es) :
    ∃ rows', written sv now mode (batch.map (read sv)) rows =
        .ok (rows', (reported Entry.title (op mode) batch es).map Entry.title) ∧
      Holds (Represents sv) U rows' (stored mode batch es) := by
  cases mode with
  | insert =>
    have hnew : (batch.map (read sv)).filter (isNew sv rows) =
        (reported Entry.title .insert batch es).map (read sv) := by
      rw [List.filter_map, reported]
      exact congrArg _ (List.filter_congr fun e he => isNew_eq hU h (hbatch e he))
    have hfree : Apart Entry.title es (reported Entry.title .insert batch es) := by
      intro f hf e he
      have hnone := (List.mem_filter.mp he).2
      exact lookup_eq_none.mp (Option.isNone_iff_eq_none.mp hnone) f hf
    have hmem : ∀ e ∈ reported Entry.title .insert batch es, e ∈ U :=
      fun e he => hbatch e (List.mem_filter.mp he).1
    obtain ⟨rows', hins, hholds⟩ :=
      insertItems_holds hU now hmem (reported_distinct .insert h.titles hkeys) hfree h
    refine ⟨rows', ?_, hholds⟩
    rw [written, hnew, hins]
    rfl
  | update => exact updateRows_holds hU now hbatch hkeys h
  | delete =>
    obtain ⟨hholds, hdeleted⟩ := delete_holds hU hbatch h
    exact ⟨_, by rw [written, hdeleted]; rfl, hholds⟩

theorem distinct_keys {es : List Entry} (hes : ∀ e ∈ es, e ∈ U)
    (hkeys : DistinctOn Entry.title es) : DistinctOn (fun e : Entry => sv.coll.key e.title) es := by
  refine List.Pairwise.imp_of_mem ?_ hkeys
  intro a b ha hb hne heq
  exact hne ((titles_eq hU (hes a ha) (hes b hb)).mp heq)

theorem rows_distinct {rows : List Row} {es : List Entry} (h : Holds (Represents sv) U rows es) :
    DistinctOn (titleKey sv) rows := by
  have hkeys : rows.map (titleKey sv) = es.map fun e => sv.coll.key e.title := by
    rw [← List.forall₂_eq_eq_eq, List.forall₂_map_left_iff, List.forall₂_map_right_iff]
    refine h.rows.imp fun r e hr => ?_
    rw [titleKey, hr.1.title]
  rw [distinctOn_iff_nodup, hkeys, ← distinctOn_iff_nodup]
  exact distinct_keys hU (fun e he => h.mem he) h.titles

omit hU in
theorem reported_mem {o : Op} {batch es : List Entry} (hbatch : ∀ e ∈ batch, e ∈ U)
    (hes : ∀ e ∈ es, e ∈ U) : ∀ e ∈ reported Entry.title o batch es, e ∈ U :=
  fun e he => (mem_of_reported he).elim (hbatch e) (hes e)

theorem returned_isSome (o : Op) {batch es : List Entry} {e : Entry}
    (hbatch : ∀ e ∈ batch, e ∈ U) (hkeys : DistinctOn Entry.title batch) (hes : ∀ e ∈ es, e ∈ U)
    (hdistinct : DistinctOn Entry.title es) (he : e ∈ batch) :
    (((reported Entry.title o batch es).map Entry.title).find?
        (joinsTitle sv (read sv e))).isSome = true ↔
      ¬ (outcome o (lookup Entry.title es e.title) e).Skipped := by
  rw [← mem_reported o hkeys hdistinct he, List.find?_isSome]
  constructor
  · rintro ⟨t, ht, hjoin⟩
    obtain ⟨f, hf, rfl⟩ := List.mem_map.mp ht
    obtain ⟨u, hu, hkey⟩ := joinsTitle_iff.mp hjoin
    cases hu
    have hfU := reported_mem hbatch hes f hf
    rw [(titles_eq hU (hbatch e he) hfU).mp hkey]
    exact List.mem_map_of_mem hf
  · intro hmem
    exact ⟨e.title, hmem, joinsTitle_iff.mpr ⟨e.title, rfl, rfl⟩⟩

theorem statuses_eq (mode : CudMode) {batch es : List Entry} {rows' : List Row}
    (hbatch : ∀ e ∈ batch, e ∈ U) (hkeys : DistinctOn Entry.title batch) (hes : ∀ e ∈ es, e ∈ U)
    (hdistinct : DistinctOn Entry.title es)
    (h : Holds (Represents sv) U rows' (stored mode batch es)) :
    MssqlProcedures.statuses sv mode (batch.map (read sv))
        ((reported Entry.title (op mode) batch es).map Entry.title) rows' =
      FeedStore.statuses mode batch es := by
  have hreturned : DistinctOn sv.coll.key
      ((reported Entry.title (op mode) batch es).map Entry.title) :=
    List.pairwise_map.mpr (distinct_keys hU (reported_mem hbatch hes)
      (reported_distinct (op mode) hdistinct hkeys))
  rw [statuses_eq_map mode _ (rows_distinct hU h) hreturned, List.map_map, FeedStore.statuses,
    outcomes, List.map_map]
  refine List.map_congr_left fun e he => ?_
  have hsome := returned_isSome hU (op mode) hbatch hkeys hes hdistinct he
  cases mode with
  | insert => exact insert_statusRow hsome
  | update =>
    refine update_statusRow hsome ?_
    have hfound : (rows'.find? (titleMatches sv (read sv e))).isSome =
        (lookup Entry.title (stored .update batch es) e.title).isSome := by
      rw [lookup_isSome, Bool.eq_iff_iff, List.find?_isSome, ← List.any_eq_true,
        any_represented h.rows fun r f hr => titleMatches_eq hU hr (hbatch e he)]
    rw [hfound, stored, lookup_changed]
    cases lookup Entry.title es e.title <;> rfl
  | delete => exact delete_statusRow hsome

/-- A call of the procedure does what the store does. -/
theorem cudFeed_holds (isRfc3339 : Text → Bool) (now : Timestamp) (mode : CudMode)
    {batch es : List Entry} {rows : List Row} (hbatch : ∀ e ∈ batch, e ∈ U)
    (hkeys : DistinctOn Entry.title batch) (h : Holds (Represents sv) U rows es) :
    Holds (Represents sv) U
        (cudFeed isRfc3339 (mssql sv now) mode.optionMode (batch.map Entry.item) rows).1
        (stored mode batch es) ∧
      (cudFeed isRfc3339 (mssql sv now) mode.optionMode (batch.map Entry.item) rows).2 =
        .ok (results mode batch es) := by
  obtain ⟨rows', hwritten, hholds⟩ := written_holds hU now mode hbatch hkeys h
  rw [cudFeed_eq, parse_batch hU hbatch]
  simp only [hwritten, statuses_eq hU mode hbatch hkeys (fun e he => h.mem he) h.titles hholds]
  exact ⟨hholds, rfl⟩

end Statements

theorem hello_faithful : Faithful sampleServer {helloEntry} where
  accepted := by
    rintro e rfl
    decide
  given := by
    rintro e rfl
    decide
  fits := by
    rintro e rfl
    decide
  titles := (texts_singleton _ _).injOn _
  imageUrls := (texts_singleton _ _).injOn _
  feedUrls := (texts_singleton _ _).injOn _
  actualUrls := (texts_singleton _ _).injOn _
  castable := by
    rintro d ⟨e, rfl, hd⟩
    rw [← Option.some.inj hd]
    decide
  dates := (texts_singleton _ _).injOn _
  nulls := by
    rintro e rfl f rfl _
    exact ⟨rfl, rfl⟩

end MssqlStore
