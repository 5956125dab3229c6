import Newsfeed.CudHandlers
import Newsfeed.KeyedStore
import Newsfeed.Services
import Mathlib.Data.Set.Function

/-! # The newsfeed as a keyed store

What the batch procedures are for: entries under their titles, and one status for each
item of a batch. The engines differ in what they compare, so this is what they do on
texts that no comparison confuses.
-/
namespace FeedStore

open TextOperations RelationalTables KeyedStore FeedModels CudHandlers

structure Entry where
  title : Text
  imageUrl : Option Text
  feedUrl : Text
  actualUrl : Option Text
  publishDate : Text
  deriving DecidableEq, Repr

def Entry.item (e : Entry) : CudParams :=
  ⟨some e.title, e.imageUrl, some e.feedUrl, e.actualUrl, some e.publishDate⟩

def Entry.ofItem (item : CudParams) : Option Entry :=
  match item.title, item.feedUrl, item.publishDate with
  | some title, some feedUrl, some publishDate =>
    some ⟨title, item.imageUrl, feedUrl, item.actualUrl, publishDate⟩
  | _, _, _ => none

/-- The entries of a batch; items without a title, a feed URL or a date have none. -/
def entries (items : List CudParams) : List Entry := items.filterMap Entry.ofItem

def op : CudMode → Op
  | .insert => .insert
  | .update => .update
  | .delete => .delete

def statusRow : Outcome → StatusRow
  | .inserted => ⟨"Success".toList, "Record(s) inserted".toList⟩
  | .updated => ⟨"Success".toList, "Record(s) updated".toList⟩
  | .deleted => ⟨"Success".toList, "Record(s) deleted".toList⟩
  | .present => ⟨"Skipped".toList, "SKIPPED_EXISTS".toList⟩
  | .absent => ⟨"Skipped".toList, "SKIPPED_NOT_FOUND".toList⟩

def stored (mode : CudMode) (batch rows : List Entry) : List Entry :=
  changed Entry.title (op mode) batch rows

def statuses (mode : CudMode) (batch rows : List Entry) : List StatusRow :=
  (outcomes Entry.title (op mode) batch rows).map statusRow

def results (mode : CudMode) (batch rows : List Entry) : List CudResult :=
  (statuses mode batch rows).map StatusRow.result

theorem eq_iff_of_title {e f : Entry} (h : e.title = f.title) :
    e = f ↔ e.imageUrl = f.imageUrl ∧ e.feedUrl = f.feedUrl ∧ e.actualUrl = f.actualUrl ∧
      e.publishDate = f.publishDate := by
  cases e
  cases f
  rw [Entry.mk.injEq, and_iff_right h]

theorem item_of_ofItem {item : CudParams} {e : Entry} (h : Entry.ofItem item = some e) :
    e.item = item := by
  unfold Entry.ofItem at h
  split at h
  · next title feedUrl publishDate ht hf hd =>
    cases h
    cases item
    simp only at ht hf hd
    rw [Entry.item, ht, hf, hd]
  · cases h

theorem items_entries {items : List CudParams}
    (h : ∀ item ∈ items, ∃ e, Entry.ofItem item = some e) :
    (entries items).map Entry.item = items := by
  induction items with
  | nil => rfl
  | cons item items ih =>
    obtain ⟨e, he⟩ := h item List.mem_cons_self
    rw [entries, List.filterMap_cons_some he, List.map_cons, item_of_ofItem he]
    exact congrArg _ (ih fun i hi => h i (List.mem_cons_of_mem _ hi))

theorem titles_items (batch : List Entry) :
    (batch.map Entry.item).filterMap CudParams.title = batch.map Entry.title := by
  rw [List.filterMap_map]
  exact congrFun (List.filterMap_eq_map (f := Entry.title)) batch

/-- What `check_duplicates` accepts has its titles as keys. -/
theorem distinct_of_accepts {batch : List Entry} {mode : OptionMode} {body : CudPayload}
    (hitems : body.items = batch.map Entry.item) (h : Accepts body mode) :
    DistinctOn Entry.title batch := by
  have hnodup := checkDuplicates_ok.mp h.duplicates
  rwa [hitems, titles_items, ← distinctOn_iff_nodup] at hnodup

/-- The texts that stand in a column of some entry. -/
def texts (column : Entry → Option Text) (U : Set Entry) : Set Text :=
  {t | ∃ e ∈ U, column e = some t}

def titles (U : Set Entry) : Set Text := texts (fun e => some e.title) U

def feedUrls (U : Set Entry) : Set Text := texts (fun e => some e.feedUrl) U

def publishDates (U : Set Entry) : Set Text := texts (fun e => some e.publishDate) U

variable {U : Set Entry} {e f : Entry}

theorem title_mem (h : e ∈ U) : e.title ∈ titles U := ⟨e, h, rfl⟩

theorem feedUrl_mem (h : e ∈ U) : e.feedUrl ∈ feedUrls U := ⟨e, h, rfl⟩

theorem publishDate_mem (h : e ∈ U) : e.publishDate ∈ publishDates U := ⟨e, h, rfl⟩

/-- Rows stand for entries in use. -/
abbrev Stands {β : Type} (R : β → Entry → Prop) (U : Set Entry) (r : β) (e : Entry) : Prop :=
  R r e ∧ e ∈ U

/-- A table holds a store: its rows stand for the entries, in order, and titles are keys. -/
structure Holds {β : Type} (R : β → Entry → Prop) (U : Set Entry) (rows : List β)
    (es : List Entry) : Prop where
  rows : List.Forall₂ (Stands R U) rows es
  titles : DistinctOn Entry.title es

theorem Holds.mem {β : Type} {R : β → Entry → Prop} {rows : List β} {es : List Entry}
    (h : Holds R U rows es) (he : e ∈ es) : e ∈ U := by
  obtain ⟨r, _, hr⟩ := FallibleOperations.forall₂_right h.rows he
  exact hr.2

theorem Holds.unique {β : Type} {R : β → Entry → Prop} {rows : List β} {es es' : List Entry}
    (hR : ∀ r e f, Stands R U r e → Stands R U r f → e = f) (h : Holds R U rows es)
    (h' : Holds R U rows es') : es = es' := by
  have heq : ∀ {xs : List β} {as bs : List Entry}, List.Forall₂ (Stands R U) xs as →
      List.Forall₂ (Stands R U) xs bs → as = bs := by
    intro xs as bs has hbs
    induction has generalizing bs with
    | nil =>
      cases hbs
      rfl
    | cons hr _ ih =>
      cases hbs with
      | cons hr' hbs => rw [hR _ _ _ hr hr', ih hbs]
  exact heq h.rows h'.rows

theorem insert_statusRow {returned : Bool} {found : Option Entry} {e : Entry}
    (h : returned = true ↔ ¬ (outcome .insert found e).Skipped) :
    (if returned then (⟨"Success".toList, "Record(s) inserted".toList⟩ : StatusRow)
      else ⟨"Skipped".toList, "SKIPPED_EXISTS".toList⟩) = statusRow (outcome .insert found e) := by
  cases found with
  | none => rw [if_pos (h.mpr (by simp [outcome, Outcome.Skipped]))]; rfl
  | some r => rw [if_neg (by simp [h, outcome, Outcome.Skipped])]; rfl

theorem delete_statusRow {returned : Bool} {found : Option Entry} {e : Entry}
    (h : returned = true ↔ ¬ (outcome .delete found e).Skipped) :
    (if returned then (⟨"Success".toList, "Record(s) deleted".toList⟩ : StatusRow)
      else ⟨"Skipped".toList, "SKIPPED_NOT_FOUND".toList⟩) =
        statusRow (outcome .delete found e) := by
  cases found with
  | none => rw [if_neg (by simp [h, outcome, Outcome.Skipped])]; rfl
  | some r => rw [if_pos (h.mpr (by simp [outcome, Outcome.Skipped]))]; rfl

theorem update_statusRow {returned existing : Bool} {found : Option Entry} {e : Entry}
    (h : returned = true ↔ ¬ (outcome .update found e).Skipped)
    (hexisting : existing = found.isSome) :
    (if returned then (⟨"Success".toList, "Record(s) updated".toList⟩ : StatusRow)
      else if existing then ⟨"Skipped".toList, "SKIPPED_EXISTS".toList⟩
      else ⟨"Skipped".toList, "SKIPPED_NOT_FOUND".toList⟩) =
        statusRow (outcome .update found e) := by
  cases found with
  | none =>
    rw [if_neg (by simp [h, outcome, Outcome.Skipped]), if_neg (by simp [hexisting])]
    rfl
  | some r =>
    by_cases hsame : r = e
    · rw [if_neg (by simp [h, outcome, hsame, Outcome.Skipped]), if_pos (by simp [hexisting]),
        outcome, if_pos hsame]
      rfl
    · rw [if_pos (h.mpr (by simp [outcome, hsame, Outcome.Skipped])), outcome, if_neg hsame]
      rfl

def updatedTitle (batch : List Entry) (e : Entry) : List Text :=
  if (lookup Entry.title batch e.title).any fun f => decide (e ≠ f) then [e.title] else []

theorem mapM_stands {ε β : Type} {R : β → Entry → Prop} {update : β → Except ε (β × List Text)}
    {batch : List Entry} {rows : List β} {es : List Entry}
    (hupdate : ∀ r e, Stands R U r e → ∃ r', update r = .ok (r', updatedTitle batch e) ∧
      Stands R U r' ((lookup Entry.title batch e.title).getD e))
    (h : List.Forall₂ (Stands R U) rows es) :
    ∃ updated, rows.mapM update = .ok updated ∧
      updated.flatMap Prod.snd = (reported Entry.title .update batch es).map Entry.title ∧
      List.Forall₂ (Stands R U) (updated.map Prod.fst) (stored .update batch es) := by
  induction h with
  | nil => exact ⟨[], rfl, rfl, .nil⟩
  | @cons r e rows es hr _ ih =>
    obtain ⟨updated, hupdated, htitles, hstands⟩ := ih
    obtain ⟨r', hrow, hr'⟩ := hupdate r e hr
    refine ⟨(r', updatedTitle batch e) :: updated, ?_, ?_, .cons hr' hstands⟩
    · rw [List.mapM_cons, hrow, hupdated]
      rfl
    · rw [List.flatMap_cons, htitles, reported, reported, List.filter_cons, updatedTitle]
      split <;> rfl

def helloEntry : Entry :=
  ⟨"Hello".toList, none, "https://example.org/feed".toList, none, noonText⟩

theorem texts_singleton (column : Entry → Option Text) (e : Entry) :
    (texts column {e}).Subsingleton := by
  rintro t ⟨_, rfl, ht⟩ u ⟨_, rfl, hu⟩
  exact Option.some.inj (ht.symm.trans hu)

end FeedStore
