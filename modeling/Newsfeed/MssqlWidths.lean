import Newsfeed.MssqlProcedures
import Newsfeed.PayloadItems

/-! # SQL Server: does an accepted text fit its column?

The deserialisers limit the UTF-8 bytes of a text, the columns its UTF-16 code units. A title
fits by its bytes. A URL may have 2048 bytes, more than its column has units, and one such URL
fails the whole batch.
-/
namespace MssqlWidths

open TextOperations FallibleOperations JsonText FeedModels CudHandlers PayloadItems
open MssqlProcedures

variable {isRfc3339 : Text → Bool} {sv : Server} {now : Timestamp} {rows : List Row}
  {items : List CudParams}

inductive TextColumn where
  | title
  | imageurl
  | feedurl
  | actualurl
  deriving DecidableEq, Repr

namespace TextColumn

/-- The columns of `@parsed`. -/
def parsedWidth : TextColumn → Nat
  | .title => 255
  | .imageurl => 255
  | .feedurl => 768
  | .actualurl => 255

/-- The columns of `dbo.NewsFeed`. -/
def newsFeedWidth : TextColumn → Nat
  | .title => 255
  | .imageurl => 255
  | .feedurl => 768
  | .actualurl => 255

/-- What the parsing statement puts into the column. -/
def stored (sv : Server) (element : Json) : TextColumn → Option Text
  | .title => jsonValue "title" element
  | .imageurl => nullifBlank sv (jsonValue "image_url" element)
  | .feedurl => jsonValue "feed_url" element
  | .actualurl => nullifBlank sv (jsonValue "actual_url" element)

theorem newsFeedWidth_eq (c : TextColumn) : c.newsFeedWidth = c.parsedWidth := by
  cases c <;> rfl

end TextColumn

def FitsColumns (sv : Server) (element : Json) : Prop :=
  ∀ c : TextColumn, ∀ t, c.stored sv element = some t →
    utf16Len t ≤ c.parsedWidth ∧ utf16Len t ≤ c.newsFeedWidth

theorem fitsIn_iff {n : Nat} {x : Option Text} :
    fitsIn n x = true ↔ ∀ t, x = some t → utf16Len t ≤ n := by
  cases x with
  | none => simp [fitsIn]
  | some s => simp [fitsIn]

theorem fitsColumns_iff {item : CudParams} (h : item.Accepted) :
    FitsColumns sv item.toJson ↔ Fits item := by
  obtain ⟨htitle, himage, hfeed, hactual, _⟩ := jsonValue_item h
  have hbytes : fitsIn 255 item.title = true := fitsIn_of_bytes fun s hs => (h.title s hs).2.2
  have hwidths : FitsColumns sv item.toJson ↔
      ∀ c : TextColumn, fitsIn c.parsedWidth (c.stored sv item.toJson) = true := by
    simp only [FitsColumns, TextColumn.newsFeedWidth_eq, and_self, fitsIn_iff]
  have himage' : TextColumn.imageurl.stored sv item.toJson = item.imageUrl := by
    rw [TextColumn.stored, himage, nullifBlank_url sv h.imageUrl]
  have hactual' : TextColumn.actualurl.stored sv item.toJson = item.actualUrl := by
    rw [TextColumn.stored, hactual, nullifBlank_url sv h.actualUrl]
  rw [hwidths]
  constructor
  · intro hfits
    have hi := hfits .imageurl
    have ha := hfits .actualurl
    rw [himage'] at hi
    rw [hactual'] at ha
    have hf : fitsIn 768 (jsonValue "feed_url" item.toJson) = true := hfits .feedurl
    rw [hfeed] at hf
    exact ⟨hi, hf, ha⟩
  · rintro ⟨hi, hf, ha⟩ c
    cases c with
    | title =>
      rw [TextColumn.stored, htitle]
      exact hbytes
    | imageurl =>
      rw [himage']
      exact hi
    | feedurl =>
      rw [TextColumn.stored, hfeed]
      exact hf
    | actualurl =>
      rw [hactual']
      exact ha

/-- The URLs of a JSON item, trimmed, are no longer than their columns. -/
structure ShortUrls (v : Json) : Prop where
  imageUrl : ∀ t, ItemField.imageUrl.text v = some t → utf16Len t ≤ 255
  feedUrl : ∀ t, ItemField.feedUrl.text v = some t → utf16Len t ≤ 768
  actualUrl : ∀ t, ItemField.actualUrl.text v = some t → utf16Len t ≤ 255

def Kept (sv : Server) (v : Json) : Prop :=
  isGiven sv (ItemField.title.text v) = true ∧ isGiven sv (ItemField.feedUrl.text v) = true ∧
    isGiven sv (ItemField.publishDate.text v) = true

theorem fits_iff {v : Json} {item : CudParams} (h : CudParams.fromJson isRfc3339 v = .ok item) :
    Fits item ↔ ShortUrls v := by
  have himage : item.imageUrl = ItemField.imageUrl.text v := value_eq_text h .imageUrl
  have hfeed : item.feedUrl = ItemField.feedUrl.text v := value_eq_text h .feedUrl
  have hactual : item.actualUrl = ItemField.actualUrl.text v := value_eq_text h .actualUrl
  constructor
  · rintro ⟨hi, hf, ha⟩
    rw [himage, fitsIn_iff] at hi
    rw [hfeed, fitsIn_iff] at hf
    rw [hactual, fitsIn_iff] at ha
    exact ⟨hi, hf, ha⟩
  · rintro ⟨hi, hf, ha⟩
    refine ⟨?_, ?_, ?_⟩
    · rw [himage, fitsIn_iff]
      exact hi
    · rw [hfeed, fitsIn_iff]
      exact hf
    · rw [hactual, fitsIn_iff]
      exact ha

theorem keepsItem_iff {v : Json} {item : CudParams}
    (h : CudParams.fromJson isRfc3339 v = .ok item) : keepsItem sv item = true ↔ Kept sv v := by
  have htitle : item.title = ItemField.title.text v := value_eq_text h .title
  have hfeed : item.feedUrl = ItemField.feedUrl.text v := value_eq_text h .feedUrl
  have hdate : item.publishDate = ItemField.publishDate.text v := value_eq_text h .publishDate
  rw [keepsItem, htitle, hfeed, hdate, Bool.and_eq_true, Bool.and_eq_true, and_assoc, Kept]

def TooLong (e : SqlError) : Prop := ∃ column, e = .dataTooLong column

theorem assign_error {column : String} {n : Nat} {x : Option Text} {e : SqlError}
    (h : assign column n x = .error e) : TooLong e := by
  rw [assign] at h
  split at h
  · cases h
  · cases h
    exact ⟨column, rfl⟩

theorem parseItem_error {element : Json} {e : SqlError}
    (h : parseItem sv element = .error e) : TooLong e := by
  rcases bind_error h with htitle | ⟨_, _, h⟩
  · exact assign_error htitle
  · rcases bind_error h with himage | ⟨_, _, h⟩
    · exact assign_error himage
    · rcases bind_error h with hfeed | ⟨_, _, h⟩
      · exact assign_error hfeed
      · rcases bind_error h with hactual | ⟨_, _, h⟩
        · exact assign_error hactual
        · cases h

theorem parseItems_error {elements : List Json} {e : SqlError}
    (h : parseItems sv elements = .error e) : TooLong e := by
  obtain ⟨element, _, helement⟩ := mapM_error h
  exact parseItem_error helement

theorem insertItem_error {p : ParsedItem} {e : SqlError}
    (h : insertItem sv now rows p = .error e) : ¬ TooLong e := by
  rintro ⟨column, rfl⟩
  rw [insertItem] at h
  split at h
  · cases h
  · cases h
  · cases h
  · split at h
    · cases h
    · cases h

theorem insertItems_error {ps : List ParsedItem} {e : SqlError}
    (h : insertItems sv now rows ps = .error e) : ¬ TooLong e := by
  induction ps generalizing rows with
  | nil => cases h
  | cons p ps ih =>
    rcases bind_error h with hitem | ⟨_, _, h⟩
    · exact insertItem_error hitem
    · rcases bind_error h with hitems | ⟨_, _, h⟩
      · exact ih hitems
      · cases h

theorem updateRow_error {ps : List ParsedItem} {nf : Row} {e : SqlError}
    (h : updateRow sv now ps nf = .error e) : ¬ TooLong e := by
  rintro ⟨column, rfl⟩
  rw [updateRow] at h
  split at h
  · cases h
  · split at h
    · cases h
    · cases h
    · cases h

theorem written_error {mode : CudMode} {ps : List ParsedItem} {e : SqlError}
    (h : written sv now mode ps rows = .error e) : ¬ TooLong e := by
  cases mode with
  | insert => exact insertItems_error h
  | update =>
    rcases bind_error h with hrows | ⟨_, _, h⟩
    · obtain ⟨nf, _, hrow⟩ := mapM_error hrows
      exact updateRow_error hrow
    · cases h
  | delete => cases h

/-- The batch is aborted because a text is too long for its column. -/
def Truncates (answer : Except DbError (List CudResult)) : Prop :=
  ∃ e, answer = .error (.sql e) ∧ TooLong e

theorem truncates_iff (mode : CudMode) (hacc : ∀ item ∈ items, item.Accepted) :
    Truncates (cudFeed isRfc3339 (mssql sv now) mode.optionMode items rows).2 ↔
      ¬ ∀ item ∈ items, keepsItem sv item = true → Fits item := by
  rw [cudFeed_eq]
  cases hparse : parseItems sv (items.map CudParams.toJson) with
  | error e =>
    constructor
    · intro _ hfits
      rw [(parseItems_ok sv hacc).mpr ⟨hfits, rfl⟩] at hparse
      cases hparse
    · intro _
      exact ⟨e, rfl, parseItems_error hparse⟩
  | ok parsed =>
    have hfits := ((parseItems_ok sv hacc).mp hparse).1
    apply iff_of_false
    · intro h
      rcases h with ⟨e, hanswer, hlong⟩
      cases hwrite : written sv now mode parsed rows with
      | error e' =>
        simp only [hwrite] at hanswer
        cases hanswer
        exact written_error hwrite hlong
      | ok result =>
        simp only [hwrite] at hanswer
        cases hanswer
    · exact not_not_intro hfits

/-- The JSON values and the items they are accepted as. -/
def Read (isRfc3339 : Text → Bool) (vs : List Json) (items : List CudParams) : Prop :=
  List.Forall₂ (fun v item => CudParams.fromJson isRfc3339 v = .ok item) vs items

theorem read_forall {vs : List Json} (h : Read isRfc3339 vs items) {P : CudParams → Prop}
    {Q : Json → Prop}
    (hpq : ∀ {v item}, CudParams.fromJson isRfc3339 v = .ok item → (P item ↔ Q v)) :
    (∀ item ∈ items, P item) ↔ ∀ v ∈ vs, Q v := by
  constructor
  · intro hp v hv
    obtain ⟨item, hitem, hread⟩ := forall₂_left h hv
    exact (hpq hread).mp (hp item hitem)
  · intro hq item hitem
    obtain ⟨v, hv, hread⟩ := forall₂_right h hitem
    exact (hpq hread).mpr (hq v hv)

/-- The accepted items of a batch fit their columns exactly when no URL is too long, and the
batch is not aborted exactly when no URL of an item that the procedure keeps is. -/
theorem accepted_fits_iff (sv : Server) (now : Timestamp) (mode : CudMode) (rows : List Row)
    {vs : List Json} (h : Read isRfc3339 vs items) :
    ((∀ item ∈ items, FitsColumns sv item.toJson) ↔ ∀ v ∈ vs, ShortUrls v) ∧
      (¬ Truncates (cudFeed isRfc3339 (mssql sv now) mode.optionMode items rows).2 ↔
        ∀ v ∈ vs, Kept sv v → ShortUrls v) := by
  have hacc : ∀ item ∈ items, item.Accepted := by
    intro item hitem
    obtain ⟨v, _, hread⟩ := forall₂_right h hitem
    exact fromJson_accepted isRfc3339 hread
  constructor
  · apply read_forall h
    intro v item hread
    rw [fitsColumns_iff (fromJson_accepted isRfc3339 hread), fits_iff hread]
  · rw [truncates_iff mode hacc, not_not]
    apply read_forall h
    intro v item hread
    rw [keepsItem_iff hread, fits_iff hread]

/-- An item with a short feed URL is stored. -/
theorem world_stored :
    (∀ item ∈ [sampleItem "World"], FitsColumns sampleServer item.toJson) ∧
      ¬ Truncates (cudFeed sampleRfc3339 (mssql sampleServer noon) .insertFeed
        [sampleItem "World"] []).2 := by
  have hread : Read sampleRfc3339 [(sampleItem "World").toJson] [sampleItem "World"] :=
    .cons rfl .nil
  have hshort : ∀ v ∈ [(sampleItem "World").toJson], ShortUrls v := by
    intro v hv
    rw [List.mem_singleton.mp hv]
    refine ⟨nofun, ?_, nofun⟩
    intro t ht
    cases ht
    decide
  obtain ⟨hfits, haborts⟩ := accepted_fits_iff sampleServer noon .insert [] hread
  exact ⟨hfits.mpr hshort, haborts.mpr fun v hv _ => hshort v hv⟩

def longUrl : Text := "http://".toList ++ List.replicate 300 'a'

def longItem : CudParams := { sampleItem "Hello" with imageUrl := some longUrl }

theorem longBatch_read : Read sampleRfc3339 [(sampleItem "World").toJson, longItem.toJson]
    [sampleItem "World", longItem] :=
  .cons rfl (.cons (by decide +kernel) .nil)

/-- The long item is accepted, and the other item of its batch is lost with it. -/
theorem long_aborts :
    Read sampleRfc3339 [(sampleItem "World").toJson, longItem.toJson]
        [sampleItem "World", longItem] ∧
      ¬ (∀ item ∈ [sampleItem "World", longItem], FitsColumns sampleServer item.toJson) ∧
      Truncates (cudFeed sampleRfc3339 (mssql sampleServer noon) .insertFeed
        [sampleItem "World", longItem] []).2 := by
  have hacc : ∀ item ∈ [sampleItem "World", longItem], item.Accepted := by
    intro item hitem
    obtain ⟨v, _, hread⟩ := forall₂_right longBatch_read hitem
    exact fromJson_accepted sampleRfc3339 hread
  have hmem : longItem ∈ [sampleItem "World", longItem] :=
    List.mem_cons_of_mem _ List.mem_cons_self
  have hlong : ¬ Fits longItem := by decide +kernel
  refine ⟨longBatch_read, ?_, ?_⟩
  · intro hfits
    exact hlong ((fitsColumns_iff (hacc longItem hmem)).mp (hfits longItem hmem))
  · apply (truncates_iff .insert hacc).mpr
    intro hfits
    exact hlong (hfits longItem hmem (by decide))

end MssqlWidths
