import Newsfeed.FeedStore
import Newsfeed.PostgresProcedures

/-! # PostgreSQL keeps the store

On texts whose titles differ in more than case and whose dates the server casts to
different instants, a call of the procedure does what the store does.
-/
namespace PostgresStore

open TextOperations FallibleOperations RelationalTables KeyedStore FeedModels CudHandlers
open PayloadRows FeedStore PostgresProcedures

/-- The server takes the entries in use and tells them apart. -/
structure Faithful (sv : Server) (U : Set Entry) : Prop where
  accepted : ∀ e ∈ U, e.item.Accepted
  noNul : ∀ e ∈ U, containsNul e.item.toJson = false
  titles : Set.InjOn sv.lower (titles U)
  castable : ∀ d ∈ publishDates U, (sv.castTimestamp d).isSome
  dates : Set.InjOn sv.castTimestamp (publishDates U)

structure Represents (sv : Server) (r : Row) (e : Entry) : Prop where
  title : r.title = e.title
  imageurl : r.imageurl = e.imageUrl
  feedurl : r.feedurl = e.feedUrl
  actualurl : r.actualurl = e.actualUrl
  publishDate : sv.castTimestamp e.publishDate = some r.publishDate

def read (sv : Server) (e : Entry) : ParsedItem :=
  ⟨some e.title, e.imageUrl, some e.feedUrl, e.actualUrl, sv.castTimestamp e.publishDate⟩

section Statements

variable {sv : Server} {U : Set Entry} (hU : Faithful sv U)

include hU

theorem parse_batch {batch : List Entry} (hbatch : ∀ e ∈ batch, e ∈ U) :
    ((batch.map Entry.item).map CudParams.toJson).mapM (parseItem sv) =
      .ok (batch.map (read sv)) := by
  refine (parsed_ok sv ?_).mpr ?_
  · intro item hitem
    obtain ⟨e, he, rfl⟩ := List.mem_map.mp hitem
    exact hU.accepted e (hbatch e he)
  · rw [List.forall₂_map_left_iff, List.forall₂_map_right_iff, List.forall₂_same]
    intro e he
    obtain ⟨d, hd⟩ := Option.isSome_iff_exists.mp (hU.castable _ (publishDate_mem (hbatch e he)))
    refine ⟨hU.noNul e (hbatch e he), rfl, rfl, rfl, rfl, ?_⟩
    simp only [Entry.item, castDate, read, hd]

theorem stands_unique {r : Row} {e f : Entry} (he : Stands (Represents sv) U r e)
    (hf : Stands (Represents sv) U r f) : e = f := by
  have hdates := he.1.publishDate.trans hf.1.publishDate.symm
  exact (eq_iff_of_title (he.1.title.symm.trans hf.1.title)).mpr
    ⟨he.1.imageurl.symm.trans hf.1.imageurl, he.1.feedurl.symm.trans hf.1.feedurl,
      he.1.actualurl.symm.trans hf.1.actualurl,
      hU.dates (publishDate_mem he.2) (publishDate_mem hf.2) hdates⟩

theorem titles_eq {e f : Entry} (he : e ∈ U) (hf : f ∈ U) :
    sv.lower e.title = sv.lower f.title ↔ e.title = f.title :=
  ⟨fun h => hU.titles (title_mem he) (title_mem hf) h, fun h => by rw [h]⟩

theorem sameValues_iff {r : Row} {e f : Entry} (hr : Stands (Represents sv) U r e) (hf : f ∈ U)
    (htitle : f.title = e.title) : SameValues r (read sv f) ↔ e = f := by
  obtain ⟨hr, he⟩ := hr
  unfold SameValues read
  rw [hr.imageurl, hr.feedurl, hr.actualurl, ← hr.publishDate, Option.some.injEq]
  constructor
  · rintro ⟨hi, hfe, ha, hd⟩
    have hdate := hU.dates (publishDate_mem he) (publishDate_mem hf) hd
    exact (eq_iff_of_title htitle.symm).mpr ⟨hi, hfe, ha, hdate⟩
  · rintro rfl
    exact ⟨rfl, rfl, rfl, rfl⟩

theorem exists_iff {rows : List Row} {es : List Entry} {e : Entry}
    (h : Holds (Represents sv) U rows es) (he : e ∈ U) :
    existsRow (fun r => citextEq sv r.title e.title) rows =
      (lookup Entry.title es e.title).isSome := by
  rw [existsRow, lookup_isSome]
  refine any_represented h.rows fun r f hr => ?_
  rw [Bool.eq_iff_iff, citextEq_iff, hr.1.title, titles_eq hU hr.2 he, decide_eq_true_eq]

omit hU in
theorem Represents.newRow {e : Entry} {d : Timestamp} (now : Timestamp)
    (hd : sv.castTimestamp e.publishDate = some d) :
    Represents sv (PostgresProcedures.newRow now e.title e.feedUrl d (read sv e)) e :=
  ⟨rfl, rfl, rfl, rfl, hd⟩

theorem insertItems_holds (now : Timestamp) {batch es : List Entry} {rows : List Row}
    (hbatch : ∀ e ∈ batch, e ∈ U) (hkeys : DistinctOn Entry.title batch)
    (h : Holds (Represents sv) U rows es) :
    ∃ rows', insertItems sv now rows (batch.map (read sv)) =
        .ok (rows', (reported Entry.title .insert batch es).map Entry.title) ∧
      Holds (Represents sv) U rows' (stored .insert batch es) := by
  induction batch generalizing rows es with
  | nil =>
    refine ⟨rows, rfl, ?_⟩
    rw [stored, op, changed, List.filter_nil, List.append_nil]
    exact h
  | cons e batch ih =>
    obtain ⟨hfirst, hrest⟩ := List.pairwise_cons.mp hkeys
    have he := hbatch e List.mem_cons_self
    obtain ⟨d, hd⟩ := Option.isSome_iff_exists.mp (hU.castable _ (publishDate_mem he))
    have hbatch' : ∀ f ∈ batch, f ∈ U := fun f hf => hbatch f (List.mem_cons_of_mem e hf)
    have hitem : insertItem sv now rows (read sv e) =
        if (lookup Entry.title es e.title).isSome then .ok (rows, [])
        else .ok (rows ++ [PostgresProcedures.newRow now e.title e.feedUrl d (read sv e)],
          [e.title]) := by
      simp only [insertItem, read, hd, exists_iff hU h he, PostgresProcedures.newRow]
    have hapart : Apart Entry.title [e] batch := by simpa [Apart] using hfirst
    have hsplit := changed_append .insert es hapart
    rw [List.map_cons, insertItems, hitem]
    cases hfound : lookup Entry.title es e.title with
    | some f =>
      obtain ⟨rows', hins, hholds⟩ := ih hbatch' hrest h
      refine ⟨rows', ?_, ?_⟩
      · rw [reported, List.filter_cons_of_neg (by simp [hfound])]
        simp only [Option.isSome_some, ↓reduceIte, bind, Except.bind, hins, List.nil_append, pure,
          Except.pure]
        rfl
      · have hsame : changed Entry.title .insert [e] es = es := by
          rw [changed, List.filter_cons_of_neg (by simp [hfound]), List.filter_nil,
            List.append_nil]
        rw [List.singleton_append, hsame] at hsplit
        rw [stored, op, hsplit]
        exact hholds
    | none =>
      have hadded : changed Entry.title .insert [e] es = es ++ [e] := by
        rw [changed, List.filter_cons_of_pos (by simp [hfound]), List.filter_nil]
      have hfree : ∀ f ∈ es, f.title ≠ e.title := lookup_eq_none.mp hfound
      have hnext : Holds (Represents sv) U
          (rows ++ [PostgresProcedures.newRow now e.title e.feedUrl d (read sv e)]) (es ++ [e]) :=
        ⟨List.rel_append h.rows (.cons ⟨.newRow now hd, he⟩ .nil), h.titles.concat hfree⟩
      obtain ⟨rows', hins, hholds⟩ := ih hbatch' hrest hnext
      refine ⟨rows', ?_, ?_⟩
      · have hlater : (batch.filter fun f => (lookup Entry.title (es ++ [e]) f.title).isNone) =
            batch.filter fun f => (lookup Entry.title es f.title).isNone := by
          refine List.filter_congr fun f hf => ?_
          rw [lookup, List.find?_append, List.find?_singleton, if_neg (by simpa using hfirst f hf),
            Option.or_none]
          rfl
        rw [reported, List.filter_cons_of_pos (by simp [hfound])]
        simp only [Option.isSome_none, Bool.false_eq_true, ↓reduceIte, bind, Except.bind, hins,
          reported, hlater, pure, Except.pure, List.map_cons, List.singleton_append]
      · rw [List.singleton_append, hadded] at hsplit
        rw [stored, op, hsplit]
        exact hholds

theorem updateRow_stands (now : Timestamp) {batch : List Entry} (hbatch : ∀ e ∈ batch, e ∈ U)
    (hkeys : DistinctOn Entry.title batch) {r : Row} {e : Entry}
    (hr : Stands (Represents sv) U r e) :
    ∃ r', updateRow now (batch.map (read sv)) r = .ok (r', updatedTitle batch e) ∧
      Stands (Represents sv) U r' ((lookup Entry.title batch e.title).getD e) := by
  have hmatches : ∀ g ∈ batch, (updateMatches r ∘ read sv) g = true ↔
      g.title = e.title ∧ e ≠ g := by
    intro g hg
    rw [Function.comp_apply, updateMatches_iff, hr.1.title,
      show (read sv g).title = some g.title from rfl, Option.some.injEq]
    exact and_congr_right fun ht => not_congr (sameValues_iff hU hr (hbatch g hg) ht)
  unfold updateRow updatedTitle
  rw [List.find?_map, find?_differing (r := e) hkeys hmatches]
  cases hfound : lookup Entry.title batch e.title with
  | none => exact ⟨r, rfl, hr⟩
  | some f =>
    have hf := hbatch f (mem_of_lookup hfound)
    obtain ⟨d, hd⟩ := Option.isSome_iff_exists.mp (hU.castable _ (publishDate_mem hf))
    by_cases hsame : e = f
    · refine ⟨r, ?_, hsame ▸ hr⟩
      rw [Option.filter_some, if_neg (by simp [hsame]), Option.any_some, if_neg (by simp [hsame])]
      rfl
    · refine ⟨updatedRow now r f.feedUrl d (read sv f), ?_, ?_⟩
      · simp only [Option.filter_some, Option.any_some, decide_eq_true hsame, ↓reduceIte,
          Option.map_some, read, hd, updatedRow, hr.1.title]
      · exact ⟨⟨hr.1.title.trans (key_of_lookup hfound).symm, rfl, rfl, rfl, hd⟩, hf⟩

theorem updateRows_holds (now : Timestamp) {batch es : List Entry} {rows : List Row}
    (hbatch : ∀ e ∈ batch, e ∈ U) (hkeys : DistinctOn Entry.title batch)
    (h : Holds (Represents sv) U rows es) :
    ∃ rows', updateRows now (batch.map (read sv)) rows =
        .ok (rows', (reported Entry.title .update batch es).map Entry.title) ∧
      Holds (Represents sv) U rows' (stored .update batch es) := by
  obtain ⟨updated, hupdated, htitles, hstands⟩ :=
    mapM_stands (fun r e hr => updateRow_stands hU now hbatch hkeys hr) h.rows
  refine ⟨updated.map Prod.fst, ?_, hstands, changed_distinct .update h.titles hkeys⟩
  rw [updateRows, hupdated, ← htitles]
  rfl

theorem parse_titles {batch : List Entry} (hbatch : ∀ e ∈ batch, e ∈ U) :
    ((batch.map Entry.item).map CudParams.toJson).mapM parseTitle =
      .ok (batch.map fun e => some e.title) := by
  rw [List.map_map]
  refine mapM_eq_ok.mpr ?_
  rw [List.forall₂_map_left_iff, List.forall₂_map_right_iff, List.forall₂_same]
  intro e he
  rw [Function.comp_apply, parseTitle, hU.noNul e (hbatch e he)]
  simp [Entry.item]

omit hU in
theorem deleteMatches_eq {r : Row} {e : Entry} (hr : Stands (Represents sv) U r e)
    (batch : List Entry) : deleteMatches (batch.map fun e => some e.title) r =
      (lookup Entry.title batch e.title).isSome := by
  rw [Bool.eq_iff_iff, deleteMatches_iff, lookup_isSome, List.any_eq_true, hr.1.title]
  simp

omit hU in
theorem delete_holds (batch : List Entry) {es : List Entry} {rows : List Row}
    (h : Holds (Represents sv) U rows es) :
    Holds (Represents sv) U
        (rows.filter fun r => !deleteMatches (batch.map fun e => some e.title) r)
        (stored .delete batch es) ∧
      (rows.filter (deleteMatches (batch.map fun e => some e.title))).map Row.title =
        (reported Entry.title .delete batch es).map Entry.title := by
  refine ⟨⟨?_, h.titles.filter _⟩, ?_⟩
  · refine filter_represented h.rows fun r e hr => ?_
    rw [deleteMatches_eq hr, Option.not_isSome]
  · have hremoved := filter_represented h.rows fun r e hr => deleteMatches_eq hr batch
    rw [← List.forall₂_eq_eq_eq, List.forall₂_map_left_iff, List.forall₂_map_right_iff]
    exact hremoved.imp fun r e hr => hr.1.title

omit hU in
theorem returned_isSome (o : Op) {batch es : List Entry} {e : Entry}
    (hkeys : DistinctOn Entry.title batch) (hes : DistinctOn Entry.title es) (he : e ∈ batch) :
    (((reported Entry.title o batch es).map Entry.title).find?
        (joinsTitle (some e.title))).isSome = true ↔
      ¬ (outcome o (lookup Entry.title es e.title) e).Skipped := by
  rw [find?_joinsTitle_isSome, ← mem_reported o hkeys hes he]
  simp

omit hU in
theorem row_found {rows : List Row} {es : List Entry} (h : Holds (Represents sv) U rows es)
    (e : Entry) : (rows.find? fun r => joinsTitle (some e.title) r.title).isSome =
      (lookup Entry.title es e.title).isSome := by
  have hany := any_represented (p := fun r => joinsTitle (some e.title) r.title)
    (q := fun f => decide (f.title = e.title)) h.rows fun r f hr => by
      rw [Bool.eq_iff_iff, joinsTitle_iff, Option.some.injEq, decide_eq_true_eq, hr.1.title,
        eq_comm]
  rw [lookup_isSome, ← hany, Bool.eq_iff_iff, List.find?_isSome, List.any_eq_true]

/-- One statement does what the store does, and its statuses are the store's. -/
theorem cudStatement_holds (now : Timestamp) (mode : CudMode) {batch es : List Entry}
    {rows : List Row} (hbatch : ∀ e ∈ batch, e ∈ U) (hkeys : DistinctOn Entry.title batch)
    (h : Holds (Represents sv) U rows es) :
    ∃ rows', cudStatement sv now mode.optionMode ((batch.map Entry.item).map CudParams.toJson)
        rows = .ok (rows', FeedStore.statuses mode batch es) ∧
      Holds (Represents sv) U rows' (stored mode batch es) := by
  have hreturned : ∀ o, DistinctOn id ((reported Entry.title o batch es).map Entry.title) :=
    fun o => List.pairwise_map.mpr (reported_distinct o h.titles hkeys)
  have hjoin : ∀ o, leftJoin (fun (p : ParsedItem) i => joinsTitle p.title i) (batch.map (read sv))
      ((reported Entry.title o batch es).map Entry.title) = (batch.map (read sv)).map fun p =>
        (p, ((reported Entry.title o batch es).map Entry.title).find? (joinsTitle p.title)) :=
    fun o => joined_eq_map ParsedItem.title _ (hreturned o)
  cases mode with
  | insert =>
    obtain ⟨rows', hins, hholds⟩ := insertItems_holds hU now hbatch hkeys h
    refine ⟨rows', ?_, hholds⟩
    simp only [CudMode.optionMode, cudStatement, parse_batch hU hbatch, bind, Except.bind, hins,
      hjoin, pure, Except.pure]
    refine congrArg Except.ok (Prod.ext rfl ?_)
    simp only [FeedStore.statuses, outcomes, List.map_map]
    exact List.map_congr_left fun e he =>
      insert_statusRow (returned_isSome .insert hkeys h.titles he)
  | update =>
    obtain ⟨rows', hup, hholds⟩ := updateRows_holds hU now hbatch hkeys h
    refine ⟨rows', ?_, hholds⟩
    have hfirst : leftJoin (fun (p : ParsedItem) (nf : Row) => joinsTitle p.title nf.title)
        (batch.map (read sv)) rows = (batch.map (read sv)).map fun p =>
          (p, rows.find? fun r => joinsTitle p.title r.title) := by
      refine leftJoin_eq_map fun p hp => ?_
      obtain ⟨e, _, rfl⟩ := List.mem_map.mp hp
      refine countP_key_le_one h.titles (k := e.title) h.rows fun r f hr => ?_
      rw [Bool.eq_iff_iff, joinsTitle_iff, hr.1.title, decide_eq_true_eq, eq_comm]
      exact Option.some.injEq _ _ |>.to_iff
    have hsecond := joined_eq_map (fun pn : ParsedItem × Option Row => pn.1.title)
      ((batch.map (read sv)).map fun p => (p, rows.find? fun r => joinsTitle p.title r.title))
      (hreturned .update)
    simp only [CudMode.optionMode, cudStatement, parse_batch hU hbatch, bind, Except.bind, hup,
      hfirst, hsecond, pure, Except.pure]
    refine congrArg Except.ok (Prod.ext rfl ?_)
    simp only [FeedStore.statuses, outcomes, List.map_map]
    exact List.map_congr_left fun e he =>
      update_statusRow (returned_isSome .update hkeys h.titles he) (row_found h e)
  | delete =>
    obtain ⟨hholds, hdeleted⟩ := delete_holds batch h
    refine ⟨_, ?_, hholds⟩
    have hsecond := joined_eq_map id (batch.map fun e => some e.title) (hreturned .delete)
    simp only [id] at hsecond
    simp only [CudMode.optionMode, cudStatement, parse_titles hU hbatch, bind, Except.bind,
      hdeleted, pure, Except.pure]
    refine congrArg Except.ok (Prod.ext rfl ?_)
    rw [FeedStore.statuses, outcomes, List.map_map]
    refine (congrArg _ hsecond).trans ?_
    rw [List.map_map, List.map_map]
    exact List.map_congr_left fun e he =>
      delete_statusRow (returned_isSome .delete hkeys h.titles he)

/-- A call of the procedure does what the store does. -/
theorem cudFeed_holds (isRfc3339 : Text → Bool) (now : Timestamp) (mode : CudMode)
    {batch es : List Entry} {table : Newsfeed sv} (hbatch : ∀ e ∈ batch, e ∈ U)
    (hkeys : DistinctOn Entry.title batch) (h : Holds (Represents sv) U table.rows es) :
    Holds (Represents sv) U
        (cudFeed isRfc3339 (postgres sv now) mode.optionMode (batch.map Entry.item) table).1.rows
        (stored mode batch es) ∧
      (cudFeed isRfc3339 (postgres sv now) mode.optionMode (batch.map Entry.item) table).2 =
        .ok (results mode batch es) := by
  obtain ⟨rows', hst, hholds⟩ := cudStatement_holds hU now mode hbatch hkeys h
  obtain ⟨hrows, hresults⟩ := cudFeed_of_statement sv isRfc3339 _ hst
  rw [hrows, hresults]
  exact ⟨hholds, rfl⟩

end Statements

theorem hello_faithful : Faithful sampleServer {helloEntry} where
  accepted := by
    rintro e rfl
    decide
  noNul := by
    rintro e rfl
    decide
  titles := (texts_singleton _ _).injOn _
  castable := by
    rintro d ⟨e, rfl, hd⟩
    rw [← Option.some.inj hd]
    decide
  dates := (texts_singleton _ _).injOn _

end PostgresStore
