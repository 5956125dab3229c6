import Newsfeed.FeedModels
import Newsfeed.HttpHeaders

/-! # Create, update and delete requests

The path of a batch through the server: header check, duplicate check, required
fields, one procedure call, status rows, response. The database engine is a
parameter, so every engine runs under the same handler.
-/
namespace CudHandlers

open TextOperations JsonText FallibleOperations FeedModels HttpHeaders

inductive SqlError where
  | notNull (column : String)
  | uniqueViolation
  | invalidDatetime
  | nulCharacter
  | invalidJson
  | dataTooLong (column : String)
  | invalidInteger
  | aggregateTooLong
  | placeholders
  | cancelled
  deriving DecidableEq, Repr

inductive DbError where
  | sql (e : SqlError)
  | jsonSyntax
  | jsonData (e : DeError)
  | emptyResult
  deriving DecidableEq, Repr

mutual
/-- Reading into `serde_json::Value` keeps the last member of every name. -/
def toValue : Json → Json
  | .arr xs => .arr (toValues xs)
  | .obj kvs => .obj (toMembers kvs)
  | j => j
def toValues : List Json → List Json
  | [] => []
  | x :: xs => toValue x :: toValues xs
def toMembers : List (Text × Json) → List (Text × Json)
  | [] => []
  | (k, v) :: kvs =>
    if kvs.any fun m => m.1 == k then toMembers kvs else (k, toValue v) :: toMembers kvs
end

def statusValues : Json → List Json
  | .arr xs => xs
  | v => [v]

section StatusRows

variable (isRfc3339 : Text → Bool)

def parseStatusRow : Option Text → Except DbError (List CudResult)
  | none => .error .emptyResult
  | some t =>
    match parse t with
    | none => .error .jsonSyntax
    | some v =>
      match (statusValues (toValue v)).mapM (CudResult.fromJson isRfc3339) with
      | .error e => .error (.jsonData e)
      | .ok results => .ok results

def parseStatusRows (rows : List (Option Text)) : Except DbError (List CudResult) :=
  (rows.mapM (parseStatusRow isRfc3339)).map List.flatten

end StatusRows

/-- One row of a status query before it is put into JSON. -/
structure StatusRow where
  status : Text
  message : Text
  deriving DecidableEq, Repr

def StatusRow.toJson (r : StatusRow) : Json :=
  .obj [("Status".toList, .str r.status), ("Message".toList, .str r.message)]

/-- The statuses the procedures report for an item of a known option mode. -/
def StatusRow.Known (r : StatusRow) : Prop :=
  r.status = "Success".toList ∨ r.status = "Skipped".toList

def StatusRow.result (r : StatusRow) : CudResult :=
  ⟨if r.status = "Success".toList then .success else .skipped, r.message, none⟩

theorem fromJson_status (isRfc3339 : Text → Bool) {r : StatusRow} (h : r.Known) :
    CudResult.fromJson isRfc3339 (toValue r.toJson) = .ok r.result := by
  have hvalue : toValue r.toJson = r.toJson := rfl
  have hstatus : findMember "Status" [("Status".toList, .str r.status),
      ("Message".toList, .str r.message)] = some (.str r.status) := rfl
  have hmessage : findMember "Message" [("Status".toList, .str r.status),
      ("Message".toList, .str r.message)] = some (.str r.message) := rfl
  have hitem : findMember "Item" [("Status".toList, .str r.status),
      ("Message".toList, .str r.message)] = none := rfl
  rw [hvalue, StatusRow.toJson, CudResult.fromJson, hstatus, hmessage, hitem]
  rcases h with h | h
  · simp only [h, StatusRow.result, ↓reduceIte]
    rfl
  · simp only [h, StatusRow.result]
    rfl

theorem toValues_eq_map (xs : List Json) : toValues xs = xs.map toValue := by
  induction xs with
  | nil => rfl
  | cons x xs ih => rw [toValues, ih, List.map_cons]

theorem parseStatusRows_array (isRfc3339 : Text → Bool) {rows : List StatusRow} {t : Text}
    (h : ∀ r ∈ rows, r.Known) (ht : parse t = some (.arr (rows.map StatusRow.toJson))) :
    parseStatusRows isRfc3339 [some t] = .ok (rows.map StatusRow.result) := by
  have hvalues : statusValues (toValue (.arr (rows.map StatusRow.toJson))) =
      rows.map fun r => toValue r.toJson := by
    rw [toValue, statusValues, toValues_eq_map, List.map_map]
    rfl
  have hresults : (rows.map fun r => toValue r.toJson).mapM (CudResult.fromJson isRfc3339) =
      .ok (rows.map StatusRow.result) := by
    rw [List.mapM_map]
    exact mapM_ok fun r hr => fromJson_status isRfc3339 (h r hr)
  have hrow : parseStatusRow isRfc3339 (some t) = .ok (rows.map StatusRow.result) := by
    simp only [parseStatusRow, ht, hvalues, hresults]
  rw [parseStatusRows, List.mapM_cons, hrow]
  simp only [List.mapM_nil, bind, Except.bind, pure, Except.pure, Except.map, List.flatten_cons,
    List.flatten_nil, List.append_nil]

theorem parseStatusRows_length (isRfc3339 : Text → Bool) {t : Text} {elements : List Json}
    (ht : parse t = some (.arr elements)) {results : List CudResult}
    (h : parseStatusRows isRfc3339 [some t] = .ok results) : results.length = elements.length := by
  obtain ⟨lists, hlists, rfl⟩ := map_ok h
  obtain ⟨list, _, hlist, hnil, rfl⟩ := List.forall₂_cons_left_iff.mp (mapM_eq_ok.mp hlists)
  cases hnil
  simp only [parseStatusRow, ht] at hlist
  split at hlist
  · cases hlist
  next results hresults =>
  cases hlist
  have hlength := (mapM_eq_ok.mp hresults).length_eq
  rw [toValue, statusValues, toValues_eq_map, List.length_map] at hlength
  rw [List.flatten_cons, List.flatten_nil, List.append_nil, hlength]

theorem parse_of_parseStatusRows (isRfc3339 : Text → Bool) {t : Text} {results : List CudResult}
    (h : parseStatusRows isRfc3339 [some t] = .ok results) : ∃ v, parse t = some v := by
  cases ht : parse t with
  | some v => exact ⟨v, rfl⟩
  | none =>
    simp only [parseStatusRows, List.mapM_cons, parseStatusRow, ht] at h
    cases h

/-- A database engine: one call of `cud_bulk_json_newsfeed` on a table of type `T`
gives the table afterwards and the rows of the first result set. -/
structure Engine (T : Type*) where
  call : OptionMode → Text → T → T × Except SqlError (List (Option Text))

def payloadText (items : List CudParams) : Text :=
  render compact (.arr (items.map CudParams.toJson))

variable {T : Type*} (isRfc3339 : Text → Bool) (engine : Engine T)

def readAnswer : Except SqlError (List (Option Text)) → Except DbError (List CudResult)
  | .error e => .error (.sql e)
  | .ok rows => parseStatusRows isRfc3339 rows

def cudFeed (mode : OptionMode) (items : List CudParams) (table : T) :
    T × Except DbError (List CudResult) :=
  let (table', answer) := engine.call mode (payloadText items) table
  (table', readAnswer isRfc3339 answer)

structure FailedItem (F : Type) where
  item : F
  reason : Text
  deriving DecidableEq, Repr

structure ApiResponse (R F : Type) where
  status : String
  code : String
  message : String
  count : Nat
  result : List R
  failedItems : List (FailedItem F)
  deriving DecidableEq, Repr

structure ApiErrorResponse where
  status : String
  code : String
  message : Text
  count : Nat
  deriving DecidableEq, Repr

def ApiErrorResponse.withCode (code : String) (message : Text) : ApiErrorResponse :=
  ⟨"Error", code, message, 0⟩

def ApiResponse.success {R F : Type} (message : String) (result : List R) : ApiResponse R F :=
  ⟨"Success", "OK", message, result.length, result, []⟩

def ApiResponse.partialSuccess {R F : Type} (message : String) (result : List R)
    (failed : List (FailedItem F)) : ApiResponse R F :=
  ⟨"Partial", "OK", message, result.length, result, failed⟩

def FailedItem.toJson {F : Type} (item : F → Json) (f : FailedItem F) : Json :=
  .obj [("Item".toList, item f.item), ("Reason".toList, .str f.reason)]

/-- An empty list of failed items is left out. -/
def ApiResponse.toJson {R F : Type} (result : R → Json) (item : F → Json) (r : ApiResponse R F) :
    Json :=
  .obj ([("Status".toList, .str r.status.toList), ("Code".toList, .str r.code.toList),
    ("Message".toList, .str r.message.toList), ("Count".toList, .num (.ofNat r.count)),
    ("Result".toList, .arr (r.result.map result))] ++
      if r.failedItems.isEmpty then []
      else [("FailedItems".toList, .arr (r.failedItems.map (FailedItem.toJson item)))])

inductive CudBody where
  | error (body : ApiErrorResponse)
  | response (body : ApiResponse CudResult CudParams)
  deriving DecidableEq, Repr

structure CudResponse where
  statusCode : Nat
  body : CudBody
  deriving DecidableEq, Repr

def CudResponse.failure (statusCode : Nat) (code : String) (message : Text) : CudResponse :=
  ⟨statusCode, .error (.withCode code message)⟩

/-- The titles `check_duplicates` pushes: each title already seen, once per repetition. -/
def duplicateTitles : List Text → List CudParams → List Text
  | _, [] => []
  | seen, item :: items =>
    match item.title with
    | none => duplicateTitles seen items
    | some t =>
      if t ∈ seen then t :: duplicateTitles seen items else duplicateTitles (t :: seen) items

/-- `check_duplicates`; the error carries the text of `ValidationError::DuplicateTitle`. -/
def checkDuplicates (items : List CudParams) : Except Text Unit :=
  match duplicateTitles [] items with
  | [] => .ok ()
  | d :: ds =>
    .error ("Duplicate title found in batch: ".toList ++ ", ".toList.intercalate (d :: ds))

def missing (name : String) : Except ApiErrorResponse Unit :=
  .error (.withCode "VALIDATION_ERROR" ("Missing mandatory parameter: ".toList ++ name.toList))

def validateRequiredFields (params : CudParams) : OptionMode → Except ApiErrorResponse Unit
  | .insertFeed =>
    if params.title.isNone then missing "title"
    else if params.feedUrl.isNone then missing "feed_url"
    else if params.publishDate.isNone then missing "publish_date"
    else .ok ()
  | .deleteFeed => if params.title.isNone then missing "title" else .ok ()
  | .updateFeed =>
    if params.title.isNone then missing "title"
    else if params.publishDate.isNone then missing "publish_date"
    else .ok ()
  | .extractFeed => .ok ()

def handleCudLogic (results : List CudResult) (mode : OptionMode) : CudResponse :=
  let allSkipped := results.all fun r => r.status == .skipped
  let successes := results.filter fun r => r.status != .error
  let failed := (results.filter fun r => r.status == .error).map fun r =>
    (⟨r.item.getD .default, r.message⟩ : FailedItem CudParams)
  let response : ApiResponse CudResult CudParams :=
    if successes ≠ [] ∧ failed ≠ [] then .partialSuccess "Partial" successes failed
    else { (.success "Processed request" successes : ApiResponse CudResult CudParams) with
      failedItems := failed }
  let statusCode :=
    if response.result = [] ∧ response.failedItems ≠ [] then 400
    else if response.failedItems ≠ [] then 200
    else if mode = .insertFeed ∧ ¬ allSkipped then 201
    else 200
  ⟨statusCode, .response response⟩

/-- The handlers that call `process_cud`: POST, PUT and DELETE. -/
inductive CudMode where
  | insert
  | update
  | delete
  deriving DecidableEq, Repr

def CudMode.optionMode : CudMode → OptionMode
  | .insert => .insertFeed
  | .update => .updateFeed
  | .delete => .deleteFeed

def processCud (headers : HeaderMap) (body : CudPayload) (mode : OptionMode) (table : T) :
    T × CudResponse :=
  match validateHeaders headers true with
  | .error e =>
    let statusCode := match e with
      | .unsupportedContentType _ => 415
      | .invalidHeader _ => 400
    (table, .failure statusCode "INVALID_HEADER" e.toText)
  | .ok () =>
    match checkDuplicates body.items with
    | .error message => (table, .failure 422 "DUPLICATE_TITLES" message)
    | .ok () =>
      match forM body.items fun item => validateRequiredFields item mode with
      | .error response => (table, ⟨422, .error response⟩)
      | .ok () =>
        match cudFeed isRfc3339 engine mode body.items table with
        | (table', .error _) => (table', .failure 500 "DB_ERROR" "Internal Server Error".toList)
        | (table', .ok results) => (table', handleCudLogic results mode)

/-- A batch that passes `check_duplicates` and `validate_required_fields`. -/
structure Accepts (body : CudPayload) (mode : OptionMode) : Prop where
  duplicates : checkDuplicates body.items = .ok ()
  required : ∀ item ∈ body.items, validateRequiredFields item mode = .ok ()

structure AcceptedBatch where
  mode : CudMode
  body : CudPayload
  accepted : Accepts body mode.optionMode

theorem eq_of_title {items : List CudParams} (h : (items.filterMap CudParams.title).Nodup)
    {a b : CudParams} (ha : a ∈ items) (hb : b ∈ items) {t : Text} (hat : a.title = some t)
    (hbt : b.title = some t) : a = b := by
  induction items with
  | nil => cases ha
  | cons item items ih =>
    have htail : (items.filterMap CudParams.title).Nodup := by
      cases ht : item.title with
      | none => rwa [List.filterMap_cons_none ht] at h
      | some u => rw [List.filterMap_cons_some ht] at h; exact (List.nodup_cons.mp h).2
    have hnew : ∀ c ∈ items, item.title = some t → c.title ≠ some t := by
      intro c hc ht hct
      rw [List.filterMap_cons_some ht] at h
      exact (List.nodup_cons.mp h).1 (List.mem_filterMap.mpr ⟨c, hc, hct⟩)
    rcases List.mem_cons.mp ha with ha' | ha'
    · rcases List.mem_cons.mp hb with hb' | hb'
      · rw [ha', hb']
      · exact absurd hbt (hnew b hb' (ha' ▸ hat))
    · rcases List.mem_cons.mp hb with hb' | hb'
      · exact absurd hat (hnew a ha' (hb' ▸ hbt))
      · exact ih htail ha' hb'

theorem duplicateTitles_eq_nil (seen : List Text) (items : List CudParams) :
    duplicateTitles seen items = [] ↔
      (items.filterMap CudParams.title).Nodup ∧
        ∀ t ∈ items.filterMap CudParams.title, t ∉ seen := by
  induction items generalizing seen with
  | nil => simp [duplicateTitles]
  | cons item items ih =>
    cases ht : item.title with
    | none => simp only [duplicateTitles, ht, List.filterMap_cons_none, ih]
    | some t =>
      rw [List.filterMap_cons_some ht, List.nodup_cons, duplicateTitles, ht]
      by_cases hseen : t ∈ seen
      · simp [hseen]
      · simp only [hseen, ↓reduceIte, ih]
        constructor
        · rintro ⟨hnodup, hnew⟩
          refine ⟨⟨fun hmem => hnew t hmem List.mem_cons_self, hnodup⟩, ?_⟩
          rintro u hu
          rcases List.mem_cons.mp hu with rfl | hu
          · exact hseen
          · exact fun hs => hnew u hu (List.mem_cons_of_mem t hs)
        · rintro ⟨⟨hfresh, hnodup⟩, hnew⟩
          refine ⟨hnodup, fun u hu hs => ?_⟩
          rcases List.mem_cons.mp hs with rfl | hs
          · exact hfresh hu
          · exact hnew u (List.mem_cons_of_mem t hu) hs

/-- `check_duplicates` compares titles exactly. -/
theorem checkDuplicates_ok {items : List CudParams} :
    checkDuplicates items = .ok () ↔ (items.filterMap CudParams.title).Nodup := by
  unfold checkDuplicates
  have h := duplicateTitles_eq_nil [] items
  simp only [List.not_mem_nil, not_false_eq_true, implies_true, and_true] at h
  cases hd : duplicateTitles [] items with
  | nil => exact iff_of_true rfl (h.mp hd)
  | cons d ds => exact iff_of_false (by simp) fun hn => by simp [h.mpr hn] at hd

/-- Every result is either in the response's `Result` or among its failed items. -/
theorem handleCudLogic_accounts (results : List CudResult) (mode : OptionMode) :
    ∃ body, (handleCudLogic results mode).body = .response body ∧
      body.count + body.failedItems.length = results.length := by
  have hsplit : results.length = (results.filter fun r => r.status == .error).length +
      (results.filter fun r => r.status != .error).length :=
    List.length_eq_length_filter_add _
  refine ⟨_, rfl, ?_⟩
  split
  · simp only [ApiResponse.partialSuccess, List.length_map]
    omega
  · simp only [ApiResponse.success, List.length_map]
    omega

theorem handleCudLogic_of_no_error {results : List CudResult} (mode : OptionMode)
    (h : ∀ r ∈ results, r.status ≠ .error) :
    handleCudLogic results mode =
      ⟨if mode = .insertFeed ∧ ∃ r ∈ results, r.status = .success then 201 else 200,
        .response (.success "Processed request" results)⟩ := by
  have hall : (results.filter fun r => r.status != .error) = results :=
    List.filter_eq_self.mpr fun r hr => by simpa using h r hr
  have hnone : (results.filter fun r => r.status == .error) = [] :=
    List.filter_eq_nil_iff.mpr fun r hr => by simpa using h r hr
  have hskipped : (¬ (results.all fun r => r.status == .skipped) = true) ↔
      ∃ r ∈ results, r.status = .success := by
    rw [List.all_eq_true]
    push Not
    refine exists_congr fun r => and_congr_right fun hr => ?_
    have := h r hr
    cases hs : r.status <;> simp_all
  simp only [handleCudLogic, hall, hnone, List.map_nil, ne_eq, not_true_eq_false, and_false,
    ↓reduceIte, ApiResponse.success, hskipped]

/-- A count of results by what their items are about: when the items' keys are distinct,
the successes are as many as the keys that succeeded. -/
theorem countP_success {κ : Type*} [DecidableEq κ] (key : CudParams → Option κ) (keys : List κ)
    (hkeys : keys.Nodup) {items : List CudParams} {results : List CudResult}
    (hitems : (items.filterMap key).Nodup) (hsub : ∀ k ∈ keys, ∃ item ∈ items, key item = some k)
    (h : List.Forall₂ (fun item result => result.status = .success ↔ ∃ k ∈ keys, key item = some k)
      items results) :
    results.countP (fun r => r.status == .success) = keys.length := by
  have hcount : results.countP (fun r => r.status == .success) =
      ((items.filterMap key).filter fun k => keys.contains k).length := by
    clear hitems hsub
    induction h with
    | nil => rfl
    | @cons item result items results hhead _ ih =>
      rw [List.countP_cons, ih]
      cases hk : key item with
      | none =>
        have hno : ¬ result.status = .success := by simp [hhead, hk]
        rw [List.filterMap_cons_none hk]
        simp [hno]
      | some k =>
        have hone : result.status = .success ↔ k ∈ keys := by simp [hhead, hk]
        rw [List.filterMap_cons_some hk, List.filter_cons]
        by_cases hmem : k ∈ keys
        · simp [hone.mpr hmem, hmem]
        · simp [hmem, mt hone.mp hmem]
  rw [hcount]
  refine List.Perm.length_eq ((List.perm_ext_iff_of_nodup (hitems.filter _) hkeys).mpr ?_)
  intro k
  simp only [List.mem_filter, List.mem_filterMap, List.contains_iff_mem, and_iff_right_iff_imp]
  exact fun hk => hsub k hk

/-- The table changes only through the procedure call of an accepted batch. -/
theorem processCud_cases (headers : HeaderMap) (body : CudPayload) (mode : OptionMode) (table : T) :
    (400 ≤ (processCud isRfc3339 engine headers body mode table).2.statusCode ∧
        (processCud isRfc3339 engine headers body mode table).1 = table) ∨
      Accepts body mode ∧
        ((∃ e, (cudFeed isRfc3339 engine mode body.items table).2 = .error e ∧
            processCud isRfc3339 engine headers body mode table =
              ((cudFeed isRfc3339 engine mode body.items table).1,
                .failure 500 "DB_ERROR" "Internal Server Error".toList)) ∨
          ∃ results, (cudFeed isRfc3339 engine mode body.items table).2 = .ok results ∧
            processCud isRfc3339 engine headers body mode table =
              ((cudFeed isRfc3339 engine mode body.items table).1,
                handleCudLogic results mode)) := by
  unfold processCud
  split
  · left
    cases ‹ServiceError› <;> simp [CudResponse.failure]
  split
  · left
    simp [CudResponse.failure]
  next hdup =>
  split
  · left
    simp
  next hreq =>
  right
  refine ⟨⟨hdup, forM_ok.mp hreq⟩, ?_⟩
  split
  · next h => exact Or.inl ⟨_, by rw [h], by rw [h]⟩
  · next h => exact Or.inr ⟨_, by rw [h], by rw [h]⟩

theorem processCud_of_results {headers : HeaderMap} {body : CudPayload} {mode : OptionMode}
    {table : T} {results : List CudResult} (hheaders : validateHeaders headers true = .ok ())
    (hacc : Accepts body mode)
    (h : (cudFeed isRfc3339 engine mode body.items table).2 = .ok results) :
    processCud isRfc3339 engine headers body mode table =
      ((cudFeed isRfc3339 engine mode body.items table).1, handleCudLogic results mode) := by
  unfold processCud
  rw [hheaders, hacc.duplicates, forM_ok.mpr hacc.required]
  dsimp only
  split
  · next hfeed =>
    rw [hfeed] at h
    cases h
  · next hfeed =>
    rw [hfeed] at h
    cases h
    rw [hfeed]

def noonText : Text := "2026-08-01T12:00:00Z".toList

def sampleItem (title : String) : CudParams :=
  ⟨some title.toList, none, some "https://example.org/feed".toList, none, some noonText⟩

def helloItem : AcceptedItem := ⟨sampleItem "Hello", by decide⟩

/-- The date check of the deserialiser, on the sample date. -/
def sampleRfc3339 (s : Text) : Bool := s == noonText

end CudHandlers
