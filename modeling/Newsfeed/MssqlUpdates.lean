import Newsfeed.MssqlProcedures

/-! # SQL Server: does an update write what it is asked to?

A comparison with `NULL` is unknown, and the change test negates a conjunction of
comparisons. A row that differs from its item only in having an image or an actual URL
where the other has none makes the test unknown, and is skipped.
-/
namespace MssqlUpdates

open TextOperations FallibleOperations SqlLogic RelationalTables FeedModels CudHandlers
open MssqlProcedures

variable {sv : Server} {isRfc3339 : Text → Bool} {now : Timestamp}

def SameValues (nf : Row) (p : ParsedItem) : Prop :=
  nf.imageurl = p.imageurl ∧ some nf.feedurl = p.feedurl ∧ nf.actualurl = p.actualurl ∧
    some nf.publishDate = p.publishDate

def SameItem (p q : ParsedItem) : Prop :=
  p.imageurl = q.imageurl ∧ p.feedurl = q.feedurl ∧ p.actualurl = q.actualurl ∧
    p.publishDate = q.publishDate

theorem SameValues.congr {nf : Row} {p q : ParsedItem} (h : SameValues nf p) (hpq : SameItem p q) :
    SameValues nf q := by
  obtain ⟨hi, hf, ha, hd⟩ := h
  obtain ⟨hi', hf', ha', hd'⟩ := hpq
  exact ⟨hi.trans hi', hf.trans hf', ha.trans ha', hd.trans hd'⟩

theorem SameValues.sameItem {nf : Row} {p q : ParsedItem} (hp : SameValues nf p)
    (hq : SameValues nf q) : SameItem p q := by
  obtain ⟨hi, hf, ha, hd⟩ := hp
  obtain ⟨hi', hf', ha', hd'⟩ := hq
  exact ⟨hi.symm.trans hi', hf.symm.trans hf', ha.symm.trans ha', hd.symm.trans hd'⟩

def Differs (sv : Server) (a b : Option Text) : Prop :=
  ∃ x y, a = some x ∧ b = some y ∧ sv.coll.key x ≠ sv.coll.key y

def VisibleDifference (sv : Server) (nf : Row) (p : ParsedItem) : Prop :=
  Differs sv nf.imageurl p.imageurl ∨ Differs sv (some nf.feedurl) p.feedurl ∨
    Differs sv nf.actualurl p.actualurl ∨ ∃ d, p.publishDate = some d ∧ nf.publishDate ≠ d

theorem sqlEq_false {a b : Option Text} : sqlEq (textEq sv) a b = .false ↔ Differs sv a b := by
  rw [sqlEq_eq_false]
  refine exists_congr fun x => exists_congr fun y => ?_
  rw [textEq, ← Bool.not_eq_true, Collation.eq_iff]

theorem equalOrBothNull_false {a b : Option Text} :
    equalOrBothNull sv a b = .false ↔ Differs sv a b := by
  rw [equalOrBothNull, Truth.or_eq_false, sqlEq_false]
  constructor
  · exact fun h => h.1
  · intro h
    refine ⟨h, ?_⟩
    obtain ⟨x, y, rfl, rfl, _⟩ := h
    rfl

theorem changeTest_true {nf : Row} {p : ParsedItem} :
    changeTest sv nf p = .true ↔ VisibleDifference sv nf p := by
  have hdate : sqlEq (· == ·) (some nf.publishDate) p.publishDate = .false ↔
      ∃ d, p.publishDate = some d ∧ nf.publishDate ≠ d := by
    rw [sqlEq_eq_false]
    simp
  rw [changeTest, Truth.not_eq_true, Truth.and_eq_false, Truth.and_eq_false, Truth.and_eq_false,
    equalOrBothNull_false, sqlEq_false, equalOrBothNull_false, hdate, or_assoc, or_assoc]
  exact Iff.rfl

theorem VisibleDifference.not_same {nf : Row} {p : ParsedItem} (h : VisibleDifference sv nf p) :
    ¬ SameValues nf p := by
  rintro ⟨hi, hf, ha, hd⟩
  have hno : ∀ a : Option Text, ¬ Differs sv a a := by
    rintro a ⟨x, y, rfl, hy, hne⟩
    cases hy
    exact hne rfl
  rcases h with h | h | h | ⟨d, hpd, hne⟩
  · exact hno _ (hi ▸ h)
  · exact hno _ (hf ▸ h)
  · exact hno _ (ha ▸ h)
  · rw [← hd] at hpd
    exact hne (Option.some.inj hpd)

theorem VisibleDifference.congr {nf : Row} {p q : ParsedItem} (h : VisibleDifference sv nf p)
    (hpq : SameItem p q) : VisibleDifference sv nf q := by
  obtain ⟨hi, hf, ha, hd⟩ := hpq
  unfold VisibleDifference at h ⊢
  rwa [← hi, ← hf, ← ha, ← hd]

def MatchesRow (sv : Server) (item : CudParams) (nf : Row) : Prop :=
  titleMatches sv (readItem sv item) nf = true

/-- The row and every item that matches it: equal or visibly different, and the items
agree among themselves. -/
structure Distinguishes (sv : Server) (items : List CudParams) (nf : Row) : Prop where
  visible : ∀ item ∈ items, MatchesRow sv item nf →
    SameValues nf (readItem sv item) ∨ VisibleDifference sv nf (readItem sv item)
  agree : ∀ item ∈ items, ∀ other ∈ items, MatchesRow sv item nf → MatchesRow sv other nf →
    SameItem (readItem sv item) (readItem sv other)

variable {items : List CudParams}

theorem matches_of_title {nf nf' : Row} (h : nf'.title = nf.title) {item : CudParams} :
    MatchesRow sv item nf' ↔ MatchesRow sv item nf := by
  rw [MatchesRow, MatchesRow, titleMatches_iff, titleMatches_iff, h]

/-- The row ends with the values of every item that matches it exactly when the change
test can tell them apart. -/
theorem updates_distinguishes {nf nf' : Row}
    (h : Updates sv now (items.map (readItem sv)) nf nf') :
    (∀ item ∈ items, MatchesRow sv item nf' → SameValues nf' (readItem sv item)) ↔
      Distinguishes sv items nf := by
  have htitle := h.title
  constructor
  · intro hsame
    refine ⟨fun item hitem hmatch => ?_, fun item hitem other hother hmatch hmatch' => ?_⟩
    · have hitem' := hsame item hitem ((matches_of_title htitle).mpr hmatch)
      obtain ⟨_, rfl⟩ | ⟨p, hp, hpmatch, htest, f, d, hf, hd, rfl⟩ := h
      · exact Or.inl hitem'
      · right
        have hwritten : SameValues { nf with
            imageurl := p.imageurl
            feedurl := f
            actualurl := p.actualurl
            publishDate := d
            modifiedDate := some now } p := ⟨rfl, hf.symm, rfl, hd.symm⟩
        exact (changeTest_true.mp htest).congr (hwritten.sameItem hitem')
    · have hitem' := hsame item hitem ((matches_of_title htitle).mpr hmatch)
      have hother' := hsame other hother ((matches_of_title htitle).mpr hmatch')
      exact hitem'.sameItem hother'
  · intro hdist item hitem hmatch
    have hmatch' := (matches_of_title htitle).mp hmatch
    obtain ⟨hno, rfl⟩ | ⟨p, hp, hpmatch, htest, f, d, hf, hd, rfl⟩ := h
    · rcases hdist.visible item hitem hmatch' with hsame | hvisible
      · exact hsame
      · exact absurd (changeTest_true.mpr hvisible)
          (hno (readItem sv item) (List.mem_map_of_mem hitem) hmatch')
    · obtain ⟨first, hfirst, rfl⟩ := List.mem_map.mp hp
      have hwritten : SameValues { nf with
          imageurl := (readItem sv first).imageurl
          feedurl := f
          actualurl := (readItem sv first).actualurl
          publishDate := d
          modifiedDate := some now } (readItem sv first) := ⟨rfl, hf.symm, rfl, hd.symm⟩
      exact hwritten.congr (hdist.agree first hfirst item hitem hpmatch hmatch')

/-- Where the items agree, a matching item differs from the row exactly when the row is
among the changed ones. -/
theorem Distinguishes.changed_iff {nf : Row} (h : Distinguishes sv items nf) {item : CudParams}
    (hitem : item ∈ items) (hmatch : MatchesRow sv item nf) :
    isChanged sv (items.map (readItem sv)) nf = true ↔ ¬ SameValues nf (readItem sv item) := by
  rw [isChanged_iff]
  constructor
  · rintro ⟨p, hp, hpmatch, htest⟩ hsame
    obtain ⟨other, hother, rfl⟩ := List.mem_map.mp hp
    have hother' := hsame.congr (h.agree item hitem other hother hmatch hpmatch)
    exact (changeTest_true.mp htest).not_same hother'
  · intro hne
    have hvisible := (h.visible item hitem hmatch).resolve_left hne
    exact ⟨readItem sv item, List.mem_map_of_mem hitem, hmatch, changeTest_true.mpr hvisible⟩

/-- The item has everything an update needs. -/
structure Complete (sv : Server) (item : CudParams) : Prop where
  title : item.title.isSome
  feedUrl : item.feedUrl.isSome
  publishDate : (item.publishDate.bind sv.tryCast).isSome

/-- Every matched row has the values of its item, and an item is a success exactly when a
row with its title had other values before. -/
structure Updated (sv : Server) (items : List CudParams) (rows rows' : List Row)
    (results : List CudResult) : Prop where
  values : ∀ item ∈ items, ∀ nf ∈ rows', MatchesRow sv item nf → SameValues nf (readItem sv item)
  statuses : List.Forall₂ (fun item (result : CudResult) => result.status = .success ↔
    ∃ nf ∈ rows, MatchesRow sv item nf ∧ ¬ SameValues nf (readItem sv item)) items results

theorem updateRow_complete (now : Timestamp) (hcomplete : ∀ item ∈ items, Complete sv item)
    (nf : Row) :
    ∃ result, updateRow sv now (items.map (readItem sv)) nf = .ok result := by
  unfold updateRow
  split
  · exact ⟨_, rfl⟩
  · next p hp =>
    obtain ⟨item, hitem, rfl⟩ := List.mem_map.mp (List.mem_of_find?_eq_some hp)
    obtain ⟨f, hf⟩ := Option.isSome_iff_exists.mp (hcomplete item hitem).feedUrl
    obtain ⟨d, hd⟩ := Option.isSome_iff_exists.mp (hcomplete item hitem).publishDate
    simp only [readItem, hf, hd]
    exact ⟨_, rfl⟩

theorem updateRows_complete (now : Timestamp) (hcomplete : ∀ item ∈ items, Complete sv item)
    (rows : List Row) :
    ∃ rows' returned, updateRows sv now (items.map (readItem sv)) rows = .ok (rows', returned) := by
  choose result hresult using updateRow_complete now hcomplete
  rw [updateRows, mapM_ok fun nf _ => hresult nf]
  exact ⟨_, _, rfl⟩

theorem updateStatus_success {nf : Option Row} {u : Option Text} :
    (updateStatus nf u).result.status = .success ↔ u.isSome = true := by
  cases u with
  | none => cases nf <;> simp [updateStatus, StatusRow.result]
  | some u => simp [updateStatus, StatusRow.result]

theorem success_iff {table : NewsFeed sv} {ps : List ParsedItem} {item : CudParams}
    {found : Option Row} :
    (updateStatus found (((table.rows.filter (isChanged sv ps)).map Row.title).find?
        (joinsTitle sv (readItem sv item)))).result.status = .success ↔
      ∃ nf ∈ table.rows, MatchesRow sv item nf ∧ isChanged sv ps nf = true := by
  rw [updateStatus_success, List.find?_isSome]
  constructor
  · rintro ⟨u, hu, hjoin⟩
    obtain ⟨nf, hnf, rfl⟩ := List.mem_map.mp hu
    obtain ⟨hnf, hchanged⟩ := List.mem_filter.mp hnf
    obtain ⟨t, ht, heq⟩ := joinsTitle_iff.mp hjoin
    exact ⟨nf, hnf, titleMatches_iff.mpr ⟨t, ht, heq.symm⟩, hchanged⟩
  · rintro ⟨nf, hnf, hmatch, hchanged⟩
    obtain ⟨t, ht, heq⟩ := titleMatches_iff.mp hmatch
    exact ⟨nf.title, List.mem_map_of_mem (List.mem_filter.mpr ⟨hnf, hchanged⟩),
      joinsTitle_iff.mpr ⟨t, ht, heq.symm⟩⟩

/-- The values of all rows are those of their items exactly when the change test can tell
every row from its items. -/
theorem values_iff {rows rows' : List Row}
    (h : List.Forall₂ (Updates sv now (items.map (readItem sv))) rows rows') :
    (∀ item ∈ items, ∀ nf ∈ rows', MatchesRow sv item nf → SameValues nf (readItem sv item)) ↔
      ∀ nf ∈ rows, Distinguishes sv items nf := by
  constructor
  · intro hvalues nf hnf
    obtain ⟨nf', hnf', hrow⟩ := forall₂_left h hnf
    exact (updates_distinguishes hrow).mp fun item hitem => hvalues item hitem nf' hnf'
  · intro hdist item hitem nf' hnf'
    obtain ⟨nf, hnf, hrow⟩ := forall₂_right h hnf'
    exact (updates_distinguishes hrow).mpr (hdist nf hnf) item hitem

/-- No update is lost exactly when every item is parsed and fits, and every row is equal
to or visibly different from the items with its title, which agree. -/
theorem no_lost_update_iff (sv : Server) (isRfc3339 : Text → Bool) (now : Timestamp)
    (table : NewsFeed sv) (body : CudPayload) (hcomplete : ∀ item ∈ body.items, Complete sv item) :
    (∃ results, (cudFeed isRfc3339 (mssql sv now) .updateFeed body.items table.rows).2 =
        .ok results ∧
      Updated sv body.items table.rows
        (cudFeed isRfc3339 (mssql sv now) .updateFeed body.items table.rows).1 results) ↔
      (∀ item ∈ body.items, keepsItem sv item = true ∧ Fits item) ∧
        ∀ nf ∈ table.rows, Distinguishes sv body.items nf := by
  have hfeed := cudFeed_eq sv isRfc3339 now .update body.items table.rows
  rw [CudMode.optionMode] at hfeed
  rw [hfeed]
  by_cases hparse : ∀ item ∈ body.items, keepsItem sv item = true → Fits item
  · -- the batch is parsed, and complete items are written
    rw [(parseItems_ok sv body.accepted).mpr ⟨hparse, rfl⟩]
    have hkept : ∀ item ∈ body.items.filter (keepsItem sv), Complete sv item := fun item hitem =>
      hcomplete item (List.mem_of_mem_filter hitem)
    obtain ⟨rows', returned, hwrite⟩ := updateRows_complete now hkept table.rows
    have hwritten : written sv now .update ((body.items.filter (keepsItem sv)).map (readItem sv))
        table.rows = .ok (rows', returned) := hwrite
    obtain ⟨hrows', hreturned⟩ := written_keys table.primaryKey hwritten
    obtain ⟨hupdates, rfl⟩ := updateRows_ok hwrite
    simp only [hwritten]
    rw [statuses_eq_map .update _ hrows' hreturned]
    by_cases hall : ∀ item ∈ body.items, keepsItem sv item = true
    · have hfilter : body.items.filter (keepsItem sv) = body.items := List.filter_eq_self.mpr hall
      rw [hfilter] at hupdates ⊢
      rw [and_iff_right fun item hitem => ⟨hall item hitem, hparse item hitem (hall item hitem)⟩,
        ← values_iff hupdates]
      constructor
      · rintro ⟨results, _, hupdated⟩
        exact hupdated.values
      · intro hvalues
        refine ⟨_, rfl, hvalues, ?_⟩
        have hdist := (values_iff hupdates).mp hvalues
        rw [List.map_map, List.forall₂_map_right_iff, List.forall₂_map_right_iff,
          List.forall₂_same]
        intro item hitem
        refine success_iff.trans ?_
        refine exists_congr fun nf => and_congr_right fun hnf => and_congr_right fun hmatch => ?_
        exact (hdist nf hnf).changed_iff hitem hmatch
    · -- an item is dropped, and there is a status too few
      refine iff_of_false ?_ fun h => hall fun item hitem => (h.1 item hitem).1
      rintro ⟨results, hresults, hupdated⟩
      have hlength := hupdated.statuses.length_eq
      cases hresults
      rw [List.length_map, List.length_map, List.length_map] at hlength
      exact hall (List.filter_eq_self.mp (List.filter_sublist.eq_of_length hlength.symm))
  · -- a text is too long, and the call fails
    refine iff_of_false ?_ fun h => hparse fun item hitem _ => (h.1 item hitem).2
    rintro ⟨results, hresults, _⟩
    cases hp : parseItems sv (body.items.map CudParams.toJson) with
    | error e =>
      rw [hp] at hresults
      cases hresults
    | ok parsed => exact hparse ((parseItems_ok sv body.accepted).mp hp).1

/-- A table with one row, which has an image or not. -/
def helloTable (imageurl : Option Text) : NewsFeed sampleServer where
  rows := [⟨"Hello".toList, imageurl, "https://example.org/feed".toList, none, noon, noon,
    some noon⟩]
  primaryKey := List.pairwise_singleton _ _

def helloBody : CudPayload := CudPayload.single helloItem

/-- Without an image in the row the update is not lost. -/
theorem hello_not_lost :
    ∃ results, (cudFeed sampleRfc3339 (mssql sampleServer 0) .updateFeed helloBody.items
        (helloTable none).rows).2 = .ok results ∧
      Updated sampleServer helloBody.items (helloTable none).rows
        (cudFeed sampleRfc3339 (mssql sampleServer 0) .updateFeed helloBody.items
          (helloTable none).rows).1 results := by
  have hone : ∀ item ∈ helloBody.items, item = sampleItem "Hello" := fun item hitem =>
    List.mem_singleton.mp hitem
  have hcomplete : ∀ item ∈ helloBody.items, Complete sampleServer item := by
    intro item hitem
    rw [hone item hitem]
    exact ⟨rfl, rfl, rfl⟩
  refine (no_lost_update_iff sampleServer sampleRfc3339 0 (helloTable none) helloBody
    hcomplete).mpr ⟨?_, ?_⟩
  · intro item hitem
    rw [hone item hitem]
    exact ⟨by decide, by decide⟩
  · intro nf hnf
    rw [List.mem_singleton.mp hnf]
    constructor
    · intro item hitem _
      rw [hone item hitem]
      exact Or.inl ⟨rfl, rfl, rfl, rfl⟩
    · intro item hitem other hother _ _
      rw [hone item hitem, hone other hother]
      exact ⟨rfl, rfl, rfl, rfl⟩

/-- The item has no image, the row keeps its own, and the item is reported as skipped. -/
theorem hello_image_lost :
    cudFeed sampleRfc3339 (mssql sampleServer 0) .updateFeed helloBody.items
        (helloTable (some "https://example.org/a.png".toList)).rows =
      ((helloTable (some "https://example.org/a.png".toList)).rows,
        .ok [⟨.skipped, "SKIPPED_EXISTS".toList, none⟩]) ∧
      ¬ ∃ results, (cudFeed sampleRfc3339 (mssql sampleServer 0) .updateFeed helloBody.items
            (helloTable (some "https://example.org/a.png".toList)).rows).2 = .ok results ∧
        Updated sampleServer helloBody.items
          (helloTable (some "https://example.org/a.png".toList)).rows
          (cudFeed sampleRfc3339 (mssql sampleServer 0) .updateFeed helloBody.items
            (helloTable (some "https://example.org/a.png".toList)).rows).1 results := by
  have hfeed : cudFeed sampleRfc3339 (mssql sampleServer 0) .updateFeed helloBody.items
        (helloTable (some "https://example.org/a.png".toList)).rows =
      ((helloTable (some "https://example.org/a.png".toList)).rows,
        .ok [⟨.skipped, "SKIPPED_EXISTS".toList, none⟩]) := by
    refine (cudFeed_eq sampleServer sampleRfc3339 0 .update helloBody.items _).trans ?_
    rfl
  refine ⟨hfeed, ?_⟩
  rw [hfeed]
  rintro ⟨results, _, hupdated⟩
  have himage := (hupdated.values (sampleItem "Hello") List.mem_cons_self _ List.mem_cons_self
    rfl).1
  cases himage

end MssqlUpdates
