import Newsfeed.CudHandlers

/-! # Reading the status rows

`parse_status_rows` with its two loops and its accumulator. The JSON reader is the
`serde_json` crate, so `serde_json::from_str::<Value>` is a parameter of the loops.
-/
namespace StatusRows

open TextOperations FallibleOperations JsonText FeedModels CudHandlers

section Rows

variable (isRfc3339 : Text → Bool) (fromStr : Text → Option Json)

/-- `results.push(serde_json::from_value(val)?)` -/
def pushResult (results : List CudResult) (val : Json) : Except DbError (List CudResult) :=
  match CudResult.fromJson isRfc3339 val with
  | .error e => .error (.jsonData e)
  | .ok res => .ok (results ++ [res])

def pushRow (results : List CudResult) (statusJson : Option Text) :
    Except DbError (List CudResult) :=
  match statusJson with
  | none => .error .emptyResult
  | some jsonStr =>
    match fromStr jsonStr with
    | none => .error .jsonSyntax
    | some parsed => (statusValues parsed).foldlM (pushResult isRfc3339) results

def parseStatusRowsWith (rows : List (Option Text)) : Except DbError (List CudResult) :=
  rows.foldlM (pushRow isRfc3339 fromStr) []

def valueResults (val : Json) : Except DbError (List CudResult) :=
  match CudResult.fromJson isRfc3339 val with
  | .error e => .error (.jsonData e)
  | .ok res => .ok [res]

def rowResults (statusJson : Option Text) : Except DbError (List CudResult) :=
  match statusJson with
  | none => .error .emptyResult
  | some jsonStr =>
    match fromStr jsonStr with
    | none => .error .jsonSyntax
    | some parsed => collect (valueResults isRfc3339) (statusValues parsed)

theorem pushResult_eq (results : List CudResult) (val : Json) :
    pushResult isRfc3339 results val = (valueResults isRfc3339 val).map (results ++ ·) := by
  unfold pushResult valueResults
  cases CudResult.fromJson isRfc3339 val <;> rfl

theorem pushRow_eq (results : List CudResult) (row : Option Text) :
    pushRow isRfc3339 fromStr results row =
      (rowResults isRfc3339 fromStr row).map (results ++ ·) := by
  cases row with
  | none => rfl
  | some t =>
    cases ht : fromStr t with
    | none => simp only [pushRow, rowResults, ht, Except.map]
    | some v =>
      simp only [pushRow, rowResults, ht]
      exact foldlM_collect (pushResult_eq isRfc3339) (statusValues v) results

theorem parseStatusRowsWith_eq (rows : List (Option Text)) :
    parseStatusRowsWith isRfc3339 fromStr rows = collect (rowResults isRfc3339 fromStr) rows := by
  have h := foldlM_collect (pushRow_eq isRfc3339 fromStr) rows []
  unfold parseStatusRowsWith
  rw [h]
  cases collect (rowResults isRfc3339 fromStr) rows <;> rfl

/-- A row that holds status JSON, every element of it a `CudResult`. -/
def ReadableRow (row : Option Text) : Prop :=
  ∃ t v, row = some t ∧ fromStr t = some v ∧
    ∀ element ∈ statusValues v, ∃ result, CudResult.fromJson isRfc3339 element = .ok result

variable {isRfc3339 fromStr}

theorem valueResults_ok {val : Json} {results : List CudResult} :
    valueResults isRfc3339 val = .ok results ↔
      ∃ result, CudResult.fromJson isRfc3339 val = .ok result ∧ results = [result] := by
  unfold valueResults
  cases CudResult.fromJson isRfc3339 val with
  | error e => simp
  | ok result => simp [eq_comm]

theorem valueResults_succeeds {val : Json} :
    (∃ results, valueResults isRfc3339 val = .ok results) ↔
      ∃ result, CudResult.fromJson isRfc3339 val = .ok result := by
  constructor
  · intro hgiven
    rcases hgiven with ⟨results, h⟩
    obtain ⟨result, hresult, _⟩ := valueResults_ok.mp h
    exact ⟨result, hresult⟩
  · intro hgiven
    rcases hgiven with ⟨result, h⟩
    exact ⟨[result], valueResults_ok.mpr ⟨result, h, rfl⟩⟩

theorem rowResults_succeeds (row : Option Text) :
    (∃ results, rowResults isRfc3339 fromStr row = .ok results) ↔
      ReadableRow isRfc3339 fromStr row := by
  cases row with
  | none => simp [rowResults, ReadableRow]
  | some t =>
    cases ht : fromStr t with
    | none => simp [rowResults, ReadableRow, ht]
    | some v => simp [rowResults, ReadableRow, ht, collect_succeeds, valueResults_succeeds]

theorem rowResults_emptyResult (row : Option Text) :
    rowResults isRfc3339 fromStr row = .error .emptyResult ↔ row = none := by
  cases row with
  | none => simp [rowResults]
  | some t =>
    cases ht : fromStr t with
    | none => simp [rowResults, ht]
    | some v =>
      simp only [rowResults, ht, reduceCtorEq, iff_false]
      intro h
      obtain ⟨before, val, after, _, _, hval⟩ := collect_eq_error.mp h
      unfold valueResults at hval
      cases hresult : CudResult.fromJson isRfc3339 val <;> simp [hresult] at hval

theorem collect_objectRows {objects : List Json} {texts : List Text}
    (htexts : texts.map fromStr = objects.map some)
    (hobjects : ∀ v ∈ objects, ∃ members, v = .obj members) :
    collect (rowResults isRfc3339 fromStr) (texts.map some) =
      collect (valueResults isRfc3339) objects := by
  induction objects generalizing texts with
  | nil =>
    rw [List.map_nil, List.map_eq_nil_iff] at htexts
    rw [htexts]
    rfl
  | cons v objects ih =>
    cases texts with
    | nil => cases htexts
    | cons t texts =>
      obtain ⟨ht, hrest⟩ := List.cons.inj htexts
      obtain ⟨⟨members, hv⟩, hobjects'⟩ := List.forall_mem_cons.mp hobjects
      subst hv
      have hrow : rowResults isRfc3339 fromStr (some t) =
          valueResults isRfc3339 (.obj members) := by
        simp only [rowResults, ht, statusValues, collect]
        cases valueResults isRfc3339 (.obj members) <;> simp [Except.map]
      rw [List.map_cons, collect, collect, hrow, ih hrest hobjects']

theorem parseStatusRowsWith_append {r s : List (Option Text)} {results : List CudResult} :
    parseStatusRowsWith isRfc3339 fromStr (r ++ s) = .ok results ↔
      ∃ a b, parseStatusRowsWith isRfc3339 fromStr r = .ok a ∧
        parseStatusRowsWith isRfc3339 fromStr s = .ok b ∧ results = a ++ b := by
  simp only [parseStatusRowsWith_eq]
  exact collect_append_ok

theorem parseStatusRowsWith_succeeds {rows : List (Option Text)} :
    (∃ results, parseStatusRowsWith isRfc3339 fromStr rows = .ok results) ↔
      ∀ row ∈ rows, ReadableRow isRfc3339 fromStr row := by
  rw [parseStatusRowsWith_eq, collect_succeeds]
  exact forall₂_congr fun row _ => rowResults_succeeds row

theorem parseStatusRowsWith_emptyResult {rows : List (Option Text)} :
    parseStatusRowsWith isRfc3339 fromStr rows = .error .emptyResult ↔
      ∃ before after, rows = before ++ none :: after ∧
        ∀ row ∈ before, ReadableRow isRfc3339 fromStr row := by
  rw [parseStatusRowsWith_eq, collect_eq_error]
  constructor
  · intro h
    rcases h with ⟨before, row, after, hrows, hbefore, hrow⟩
    rw [rowResults_emptyResult] at hrow
    subst hrow
    exact ⟨before, after, hrows, fun r hr => (rowResults_succeeds r).mp (hbefore r hr)⟩
  · intro h
    rcases h with ⟨before, after, hrows, hbefore⟩
    exact ⟨before, none, after, hrows, fun r hr => (rowResults_succeeds r).mpr (hbefore r hr), rfl⟩

/-- An array of objects may be split into rows, wherever it stands among the rows. -/
theorem parseStatusRowsWith_split (before after : List (Option Text)) {text : Text}
    {texts : List Text} {objects : List Json} (htext : fromStr text = some (.arr objects))
    (htexts : texts.map fromStr = objects.map some)
    (hobjects : ∀ v ∈ objects, ∃ members, v = .obj members) :
    parseStatusRowsWith isRfc3339 fromStr (before ++ some text :: after) =
      parseStatusRowsWith isRfc3339 fromStr (before ++ (texts.map some ++ after)) := by
  have hrow : rowResults isRfc3339 fromStr (some text) =
      collect (rowResults isRfc3339 fromStr) (texts.map some) := by
    rw [collect_objectRows htexts hobjects]
    simp only [rowResults, htext, statusValues]
  have htail : collect (rowResults isRfc3339 fromStr) (some text :: after) =
      collect (rowResults isRfc3339 fromStr) (texts.map some ++ after) := by
    rw [collect, hrow, collect_append]
  rw [parseStatusRowsWith_eq, parseStatusRowsWith_eq, collect_append, collect_append, htail]

end Rows

/-- Reading a list of rows: a homomorphism into results or the first error, with any reader
of the texts, that of the drivers (`parseStatusRowsWith_valueFromStr`) among them. -/
theorem parseStatusRowsWith_compositional (isRfc3339 : Text → Bool)
    (fromStr : Text → Option Json) :
    (∀ r s results, parseStatusRowsWith isRfc3339 fromStr (r ++ s) = .ok results ↔
      ∃ a b, parseStatusRowsWith isRfc3339 fromStr r = .ok a ∧
        parseStatusRowsWith isRfc3339 fromStr s = .ok b ∧ results = a ++ b) ∧
    (∀ (before after : List (Option Text)) (text : Text) (texts : List Text)
      (objects : List Json), fromStr text = some (.arr objects) →
      texts.map fromStr = objects.map some → (∀ v ∈ objects, ∃ members, v = .obj members) →
      parseStatusRowsWith isRfc3339 fromStr (before ++ some text :: after) =
        parseStatusRowsWith isRfc3339 fromStr (before ++ (texts.map some ++ after))) ∧
    (∀ rows, (∃ results, parseStatusRowsWith isRfc3339 fromStr rows = .ok results) ↔
      ∀ row ∈ rows, ReadableRow isRfc3339 fromStr row) ∧
    (∀ rows, parseStatusRowsWith isRfc3339 fromStr rows = .error .emptyResult ↔
      ∃ before after, rows = before ++ none :: after ∧
        ∀ row ∈ before, ReadableRow isRfc3339 fromStr row) := by
  constructor
  · intro r s results
    exact parseStatusRowsWith_append
  constructor
  · intro before after text texts objects htext htexts hobjects
    exact parseStatusRowsWith_split before after htext htexts hobjects
  constructor
  · intro rows
    exact parseStatusRowsWith_succeeds
  · intro rows
    exact parseStatusRowsWith_emptyResult

/-- `serde_json::from_str::<Value>` as the handlers' model reads it. -/
def valueFromStr (t : Text) : Option Json := (parse t).map toValue

theorem valueFromStr_status (r : StatusRow) :
    valueFromStr (render compact r.toJson) = some r.toJson := by
  rw [valueFromStr, parse_render]
  rfl

theorem inserted_and_skipped_split :
    let inserted : StatusRow := ⟨"Success".toList, "Record(s) inserted".toList⟩
    let skipped : StatusRow := ⟨"Skipped".toList, "Record already exists".toList⟩
    let array := render compact (.arr [inserted.toJson, skipped.toJson])
    let texts := [render compact inserted.toJson, render compact skipped.toJson]
    parseStatusRowsWith (fun _ => true) valueFromStr ([] ++ some array :: []) =
      parseStatusRowsWith (fun _ => true) valueFromStr ([] ++ (texts.map some ++ [])) := by
  intro inserted skipped array texts
  apply (parseStatusRowsWith_compositional (fun _ => true) valueFromStr).2.1 [] [] array texts
    [inserted.toJson, skipped.toJson]
  · rw [valueFromStr, parse_render]
    rfl
  · simp only [texts, List.map_cons, List.map_nil, valueFromStr_status]
  · intro v hv
    simp only [List.mem_cons, List.not_mem_nil, or_false] at hv
    rcases hv with rfl | rfl
    · exact ⟨_, rfl⟩
    · exact ⟨_, rfl⟩

theorem collect_valueResults (isRfc3339 : Text → Bool) (vals : List Json) :
    collect (valueResults isRfc3339) vals =
      match vals.mapM (CudResult.fromJson isRfc3339) with
      | .error e => .error (.jsonData e)
      | .ok results => .ok results := by
  induction vals with
  | nil => rfl
  | cons val vals ih =>
    rw [List.mapM_cons, collect, ih, valueResults]
    cases CudResult.fromJson isRfc3339 val with
    | error e => rfl
    | ok result => cases vals.mapM (CudResult.fromJson isRfc3339) <;> rfl

/-- With the reader of status texts, these are the results that the drivers return. -/
theorem parseStatusRowsWith_valueFromStr (isRfc3339 : Text → Bool) (rows : List (Option Text)) :
    parseStatusRowsWith isRfc3339 valueFromStr rows = parseStatusRows isRfc3339 rows := by
  have hrow : rowResults isRfc3339 valueFromStr = parseStatusRow isRfc3339 := by
    funext row
    cases row with
    | none => rfl
    | some t =>
      cases ht : parse t with
      | none => simp only [rowResults, valueFromStr, parseStatusRow, ht, Option.map_none]
      | some v =>
        simp only [rowResults, valueFromStr, parseStatusRow, ht, Option.map_some]
        exact collect_valueResults isRfc3339 (statusValues (toValue v))
  rw [parseStatusRowsWith_eq, hrow, collect_eq_mapM, parseStatusRows]

def statusName : Json → Option Text
  | .str name => some name
  | .obj [(name, .null)] => some name
  | _ => none

def entryStatus : Json → Option Text
  | .obj members => (findMember "Status" members).bind statusName
  | .arr (status :: _) => statusName status
  | _ => none

def entryMessage : Json → Text
  | .obj members =>
    match findMember "Message" members with
    | some (.str message) => message
    | _ => []
  | .arr (_ :: .str message :: _) => message
  | _ => []

def legacyPhrases : List Text :=
  ["Record exist".toList, "Record already exists".toList, "does not exist".toList]

def LegacyMessage (message : Text) : Prop := ∃ phrase ∈ legacyPhrases, phrase <:+: message

def LegacyNoOp (entry : Json) : Prop :=
  entryStatus entry = some CudStatus.success.asStr ∧ LegacyMessage (entryMessage entry)

instance (message : Text) : Decidable (LegacyMessage message) :=
  inferInstanceAs (Decidable (∃ phrase ∈ legacyPhrases, phrase <:+: message))

instance (entry : Json) : Decidable (LegacyNoOp entry) := inferInstanceAs (Decidable (_ ∧ _))

/-- What is promised of one entry: a legacy no-op is skipped, all else stays as it is. -/
structure NormalisedEntry (entry : Json) (result : CudResult) : Prop where
  skipped : LegacyNoOp entry → result.status = .skipped
  kept : ¬ LegacyNoOp entry →
    entryStatus entry = some result.status.asStr ∧ result.message = entryMessage entry

structure Normalised (entries : List Json) (results : List CudResult) : Prop where
  entries : List.Forall₂ NormalisedEntry entries results
  results : ∀ result ∈ results, ¬ (result.status = .success ∧ LegacyMessage result.message)

theorem statusName_eq {v : Json} {status : CudStatus} (h : CudStatus.fromJson v = .ok status) :
    statusName v = some status.asStr := by
  have hvariant : ∀ name, CudStatus.fromVariant name = .ok status → name = status.asStr := by
    intro name hname
    unfold CudStatus.fromVariant at hname
    split_ifs at hname with h1 h2 h3
    · cases hname
      exact h1
    · cases hname
      exact h2
    · cases hname
      exact h3
  unfold CudStatus.fromJson at h
  split at h
  · next name => rw [statusName, hvariant name h]
  · next name => rw [statusName, hvariant name h]
  · cases h
  · cases h

theorem deserializeString_ok {v : Json} {message : Text} (h : deserializeString v = .ok message) :
    v = .str message := by
  unfold deserializeString at h
  split at h
  · cases h
    rfl
  · cases h

theorem result_of_item {isRfc3339 : Text → Bool} {members : List (Text × Json)}
    {status : CudStatus} {message : Text} {result : CudResult}
    (h : (match findMember "Item" members with
      | some v => do
        let item ← deserializeItem isRfc3339 v
        pure (⟨status, message, item⟩ : CudResult)
      | none => do
        let item ← Except.ok none
        pure ⟨status, message, item⟩) = .ok result) :
    result = ⟨status, message, result.item⟩ := by
  cases hi : findMember "Item" members with
  | none =>
    simp only [hi] at h
    cases h
    rfl
  | some v =>
    simp only [hi] at h
    obtain ⟨item, _, h⟩ := bind_ok h
    cases h
    rfl

theorem fromJson_entry {isRfc3339 : Text → Bool} {entry : Json} {result : CudResult}
    (h : CudResult.fromJson isRfc3339 entry = .ok result) :
    entryStatus entry = some result.status.asStr ∧ entryMessage entry = result.message := by
  unfold CudResult.fromJson at h
  split at h
  · next members =>
    cases hs : findMember "Status" members with
    | none =>
      simp only [hs] at h
      cases h
    | some s =>
      simp only [hs] at h
      obtain ⟨status, hstatus, h⟩ := bind_ok h
      simp only [entryStatus, hs, Option.bind_some, statusName_eq hstatus]
      cases hm : findMember "Message" members with
      | none =>
        simp only [hm] at h
        obtain ⟨message, hmessage, h⟩ := bind_ok h
        cases hmessage
        rw [result_of_item h]
        simp only [entryMessage, hm, and_self]
      | some m =>
        simp only [hm] at h
        obtain ⟨message, hmessage, h⟩ := bind_ok h
        rw [deserializeString_ok hmessage] at hm
        rw [result_of_item h]
        simp only [entryMessage, hm, and_self]
  · obtain ⟨status, hstatus, h⟩ := bind_ok h
    obtain ⟨message, hmessage, h⟩ := bind_ok h
    obtain ⟨item, _, h⟩ := bind_ok h
    cases h
    rw [deserializeString_ok hmessage]
    exact ⟨statusName_eq hstatus, rfl⟩
  · cases h
  · cases h

theorem asStr_injective {a b : CudStatus} (h : a.asStr = b.asStr) : a = b := by
  revert h
  cases a <;> cases b <;> decide

section Legacy

variable {isRfc3339 : Text → Bool} {fromStr : Text → Option Json}

def rowEntries (fromStr : Text → Option Json) (row : Option Text) : List Json :=
  match row.bind fromStr with
  | some v => statusValues v
  | none => []

def statusEntries (fromStr : Text → Option Json) (rows : List (Option Text)) : List Json :=
  rows.flatMap (rowEntries fromStr)

theorem collect_values {vals : List Json} {results : List CudResult}
    (h : collect (valueResults isRfc3339) vals = .ok results) :
    List.Forall₂ (fun v r => CudResult.fromJson isRfc3339 v = .ok r) vals results := by
  rw [collect_valueResults] at h
  cases hvals : vals.mapM (CudResult.fromJson isRfc3339) with
  | error e =>
    rw [hvals] at h
    cases h
  | ok rs =>
    rw [hvals] at h
    cases h
    exact mapM_eq_ok.mp hvals

theorem rowResults_entries {row : Option Text} {results : List CudResult}
    (h : rowResults isRfc3339 fromStr row = .ok results) :
    List.Forall₂ (fun v r => CudResult.fromJson isRfc3339 v = .ok r) (rowEntries fromStr row)
      results := by
  cases row with
  | none => cases h
  | some t =>
    cases ht : fromStr t with
    | none =>
      simp only [rowResults, ht] at h
      cases h
    | some v =>
      simp only [rowResults, ht] at h
      simp only [rowEntries, Option.bind_some, ht]
      exact collect_values h

theorem results_of_entries {rows : List (Option Text)} {results : List CudResult}
    (h : parseStatusRowsWith isRfc3339 fromStr rows = .ok results) :
    List.Forall₂ (fun v r => CudResult.fromJson isRfc3339 v = .ok r) (statusEntries fromStr rows)
      results := by
  rw [parseStatusRowsWith_eq] at h
  induction rows generalizing results with
  | nil =>
    cases h
    exact .nil
  | cons row rows ih =>
    cases hrow : rowResults isRfc3339 fromStr row with
    | error e =>
      rw [collect_cons_error hrow] at h
      cases h
    | ok rs =>
      rw [collect_cons_ok hrow] at h
      obtain ⟨rest, hrest, rfl⟩ := map_ok h
      rw [statusEntries, List.flatMap_cons]
      exact List.rel_append (rowResults_entries hrow) (ih hrest)

theorem legacyNoOp_iff {entry : Json} {result : CudResult}
    (h : CudResult.fromJson isRfc3339 entry = .ok result) :
    LegacyNoOp entry ↔ result.status = .success ∧ LegacyMessage result.message := by
  obtain ⟨hstatus, hmessage⟩ := fromJson_entry h
  unfold LegacyNoOp
  rw [hstatus, hmessage, Option.some.injEq]
  constructor
  · intro hgiven
    rcases hgiven with ⟨hs, hm⟩
    exact ⟨asStr_injective hs, hm⟩
  · intro hgiven
    rcases hgiven with ⟨hs, hm⟩
    exact ⟨congrArg CudStatus.asStr hs, hm⟩

/-- Nothing is normalised: the promise holds of rows without a legacy no-op, and of no others. -/
theorem normalised_iff {rows : List (Option Text)} {results : List CudResult}
    (h : parseStatusRowsWith isRfc3339 fromStr rows = .ok results) :
    Normalised (statusEntries fromStr rows) results ↔
      ∀ entry ∈ statusEntries fromStr rows, ¬ LegacyNoOp entry := by
  have hread := results_of_entries h
  constructor
  · intro hnormal entry hentry hlegacy
    obtain ⟨result, hresult, hjson⟩ := forall₂_left hread hentry
    exact hnormal.results result hresult ((legacyNoOp_iff hjson).mp hlegacy)
  · intro hnone
    constructor
    · have hentries : List.Forall₂ (fun v r => CudResult.fromJson isRfc3339 v = .ok r ∧
          ¬ LegacyNoOp v) (statusEntries fromStr rows) results :=
        (forall₂_congr_left fun entry hentry _ =>
          (and_iff_left (hnone entry hentry)).symm).mp hread
      apply hentries.imp
      intro entry result hentry
      obtain ⟨hstatus, hmessage⟩ := fromJson_entry hentry.1
      constructor
      · intro hlegacy
        exact absurd hlegacy hentry.2
      · intro _
        exact ⟨hstatus, hmessage.symm⟩
    · intro result hresult hlegacy
      obtain ⟨entry, hentry, hjson⟩ := forall₂_right hread hresult
      exact hnone entry hentry ((legacyNoOp_iff hjson).mpr hlegacy)

end Legacy

def legacyStatus : StatusRow := ⟨"Success".toList, "Record exist".toList⟩

theorem legacyStatus_text :
    render compact legacyStatus.toJson =
      "\x7b\"Status\":\"Success\",\"Message\":\"Record exist\"\x7d".toList := by
  decide +kernel

theorem legacyStatus_result :
    parseStatusRowsWith (fun _ => true) valueFromStr
      [some "\x7b\"Status\":\"Success\",\"Message\":\"Record exist\"\x7d".toList] =
        .ok [⟨.success, "Record exist".toList, none⟩] := by
  rw [← legacyStatus_text]
  simp only [parseStatusRowsWith_eq, collect, rowResults, valueFromStr_status]
  rfl

/-- The row of an older database for an insert it skipped: kept as a success, answered 201. -/
theorem legacy_success_kept :
    let rows := [some "\x7b\"Status\":\"Success\",\"Message\":\"Record exist\"\x7d".toList]
    let results := [(⟨.success, "Record exist".toList, none⟩ : CudResult)]
    parseStatusRowsWith (fun _ => true) valueFromStr rows = .ok results ∧
      ¬ Normalised (statusEntries valueFromStr rows) results ∧
      (handleCudLogic results .insertFeed).statusCode = 201 := by
  intro rows results
  constructor
  · exact legacyStatus_result
  constructor
  · intro hnormal
    apply hnormal.results ⟨.success, "Record exist".toList, none⟩ List.mem_cons_self
    exact ⟨rfl, "Record exist".toList, by simp [legacyPhrases], List.infix_rfl⟩
  · decide

theorem inserted_row_normalised :
    let inserted : StatusRow := ⟨"Success".toList, "Record(s) inserted".toList⟩
    let rows := [some (render compact inserted.toJson)]
    Normalised (statusEntries valueFromStr rows) [inserted.result] ↔
      ∀ entry ∈ statusEntries valueFromStr rows, ¬ LegacyNoOp entry := by
  intro inserted rows
  have hread : parseStatusRowsWith (fun _ => true) valueFromStr rows = .ok [inserted.result] := by
    simp only [rows, parseStatusRowsWith_eq, collect, rowResults, valueFromStr_status]
    rfl
  exact normalised_iff hread

end StatusRows
