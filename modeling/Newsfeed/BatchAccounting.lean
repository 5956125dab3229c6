import Newsfeed.MariadbProcedures
import Newsfeed.MssqlProcedures
import Newsfeed.PostgresProcedures

/-! # Is every item of a batch accounted for?

PostgreSQL reports one status for each item. The other engines drop items that lack a
title, a feed URL or a date, in every mode, although updates need only a title and
deletes nothing else; MariaDB may also report an item twice, for two rows of one title.
-/
namespace BatchAccounting

open TextOperations SqlLogic RelationalTables FeedModels CudHandlers

/-- An engine with the table it works on. -/
inductive Setting where
  | postgres (sv : PostgresProcedures.Server) (now : PostgresProcedures.Timestamp)
      (table : PostgresProcedures.Newsfeed sv)
  | mariadb (coll : Collation) (now : MariadbProcedures.Timestamp)
      (connection : MariadbProcedures.Connection) (rows : List MariadbProcedures.Row)
  | mssql (sv : MssqlProcedures.Server) (now : MssqlProcedures.Timestamp)
      (table : MssqlProcedures.NewsFeed sv)

def Setting.cudFeed (isRfc3339 : Text → Bool) (s : Setting) (mode : CudMode)
    (items : List CudParams) : Except DbError (List CudResult) :=
  match s with
  | .postgres sv now table =>
    (CudHandlers.cudFeed isRfc3339 (PostgresProcedures.postgres sv now) mode.optionMode items
      table).2
  | .mariadb coll now connection rows =>
    (CudHandlers.cudFeed isRfc3339 (MariadbProcedures.mariadb coll now connection) mode.optionMode
      items rows).2
  | .mssql sv now table =>
    (CudHandlers.cudFeed isRfc3339 (MssqlProcedures.mssql sv now) mode.optionMode items
      table.rows).2

/-- `Count` and the failed items of the response make up the batch. -/
def Accounted (mode : CudMode) (items : List CudParams) (results : List CudResult) : Prop :=
  ∃ body, (handleCudLogic results mode.optionMode).body = .response body ∧
    body.count + body.failedItems.length = items.length

theorem accounted_iff_length {mode : CudMode} {items : List CudParams} {results : List CudResult} :
    Accounted mode items results ↔ results.length = items.length := by
  obtain ⟨body, hbody, hcount⟩ := handleCudLogic_accounts results mode.optionMode
  constructor
  · rintro ⟨body', hbody', hcount'⟩
    rw [hbody] at hbody'
    cases hbody'
    omega
  · intro hlength
    exact ⟨body, hbody, hcount.trans hlength⟩

theorem postgres_length (sv : PostgresProcedures.Server) (isRfc3339 : Text → Bool)
    {now : PostgresProcedures.Timestamp} {table : PostgresProcedures.Newsfeed sv} {mode : CudMode}
    {body : CudPayload} {results : List CudResult}
    (h : (CudHandlers.cudFeed isRfc3339 (PostgresProcedures.postgres sv now) mode.optionMode
      body.items table).2 = .ok results) : results.length = body.items.length := by
  obtain ⟨statuses, hst, rfl⟩ := PostgresProcedures.statement_of_cudFeed sv isRfc3339 h
  rw [List.length_map]
  cases mode with
  | insert =>
    obtain ⟨_, _, _, _, _, rfl⟩ :=
      PostgresProcedures.insert_ok sv body.accepted table.primaryKey hst
    rw [List.length_map]
  | update =>
    obtain ⟨_, _, _, _, _, _, rfl⟩ :=
      PostgresProcedures.update_ok sv body.accepted table.primaryKey hst
    rw [List.length_map]
  | delete =>
    obtain ⟨_, _, rfl⟩ := PostgresProcedures.delete_ok sv table.primaryKey hst
    rw [List.length_map]

section Mariadb

open MariadbProcedures

variable (coll : Collation) (items : List CudParams) (rows : List Row)

/-- Items that the parsing statement leaves out. -/
def dropped : Nat := items.countP fun item => !isParsed coll (readItem item)

/-- Rows beyond the first that have the title of a parsed item. -/
def surplus : Nat :=
  ((parsedItems coll items).map fun t => rows.countP (titleMatches coll t) - 1).sum

theorem parsed_add_dropped :
    (parsedItems coll items).length + dropped coll items = items.length := by
  rw [parsedItems, ← List.countP_eq_length_filter, List.countP_map, dropped]
  have hsplit := List.length_eq_countP_add_countP (l := items) (isParsed coll ∘ readItem)
  simp only [Function.comp_apply, Bool.not_eq_true, Bool.decide_eq_false] at hsplit
  exact hsplit.symm

theorem statuses_length (mode : CudMode) :
    (statuses coll mode (parsedItems coll items) rows).length =
      (parsedItems coll items).length + surplus coll items rows := by
  rw [statuses, List.length_map, leftJoin_length, surplus]
  generalize parsedItems coll items = parsed
  induction parsed with
  | nil => rfl
  | cons t parsed ih =>
    have hone : joinRows (titleMatches coll) rows t =
        rows.countP (titleMatches coll t) - 1 + 1 := by
      rw [joinRows]
      omega
    rw [List.map_cons, List.sum_cons, ih, hone, List.map_cons, List.sum_cons, List.length_cons]
    omega

theorem mariadb_length {isRfc3339 : Text → Bool} {now : Timestamp} {connection : Connection}
    {mode : CudMode} {body : CudPayload} {results : List CudResult}
    (h : (CudHandlers.cudFeed isRfc3339 (mariadb coll now connection) mode.optionMode body.items
      rows).2 = .ok results) :
    results.length = body.items.length ↔
      dropped coll body.items = surplus coll body.items rows := by
  rw [cudFeed_results] at h
  have hlength := statuses_length coll body.items rows mode
  have hsplit := parsed_add_dropped coll body.items
  have hbound := body.bounded
  rcases parseStatusRows_statusText isRfc3339 (statuses_short coll mode _ _) h with rfl | hcut
  · rw [List.length_map, hlength]
    omega
  · rw [hlength] at hcut
    omega

end Mariadb

theorem mssql_length (sv : MssqlProcedures.Server) (isRfc3339 : Text → Bool)
    {now : MssqlProcedures.Timestamp} {table : MssqlProcedures.NewsFeed sv} {mode : CudMode}
    {body : CudPayload} {results : List CudResult}
    (h : (CudHandlers.cudFeed isRfc3339 (MssqlProcedures.mssql sv now) mode.optionMode body.items
      table.rows).2 = .ok results) :
    results.length = body.items.countP (MssqlProcedures.keepsItem sv) := by
  rw [MssqlProcedures.cudFeed_eq] at h
  split at h
  · cases h
  next parsed hparsed =>
  split at h
  · cases h
  next rows' returned hwritten =>
  cases h
  obtain ⟨_, rfl⟩ := (MssqlProcedures.parseItems_ok sv body.accepted).mp hparsed
  obtain ⟨hrows, hreturned⟩ := MssqlProcedures.written_keys table.primaryKey hwritten
  rw [List.length_map, MssqlProcedures.statuses_eq_map mode _ hrows hreturned, List.length_map,
    List.length_map, List.countP_eq_length_filter]

/-- PostgreSQL: always. MariaDB: as many items are dropped as there are surplus matches.
SQL Server: no item is dropped. -/
def Setting.Accounts (s : Setting) (items : List CudParams) : Prop :=
  match s with
  | .postgres _ _ _ => True
  | .mariadb coll _ _ rows => dropped coll items = surplus coll items rows
  | .mssql sv _ _ => ∀ item ∈ items, MssqlProcedures.keepsItem sv item = true

theorem accounted_iff (s : Setting) (isRfc3339 : Text → Bool) (mode : CudMode) (body : CudPayload)
    (results : List CudResult)
    (h : s.cudFeed isRfc3339 mode body.items = .ok results) :
    Accounted mode body.items results ↔ s.Accounts body.items := by
  rw [accounted_iff_length]
  cases s with
  | postgres sv now table => exact iff_of_true (postgres_length sv isRfc3339 h) trivial
  | mariadb coll now connection rows => exact mariadb_length coll rows h
  | mssql sv now table =>
    rw [mssql_length sv isRfc3339 h, Setting.Accounts, ← List.countP_eq_length]

theorem one_item_accounted :
    Accounted .insert [sampleItem "Hello"]
      [⟨.success, "Record(s) inserted".toList, none⟩] := by
  have hkept : (Setting.mssql MssqlProcedures.sampleServer 0 MssqlProcedures.emptyTable).Accounts
      [sampleItem "Hello"] := by
    intro item hitem
    rw [List.mem_singleton.mp hitem]
    decide
  refine (accounted_iff (.mssql MssqlProcedures.sampleServer 0 MssqlProcedures.emptyTable)
    sampleRfc3339 .insert (CudPayload.single helloItem) _ ?_).mpr hkept
  rw [Setting.cudFeed, MssqlProcedures.cudFeed_eq]
  rfl

/-- A delete needs a title only. -/
def titleOnly (title : String) : CudParams := ⟨some title.toList, none, none, none, none⟩

/-- A delete by title on SQL Server passes the checks, is dropped, and is answered with
no result and no failed item. -/
theorem delete_by_title_dropped :
    Accepts (CudPayload.single ⟨titleOnly "Hello", by decide⟩) CudMode.delete.optionMode ∧
      (Setting.mssql MssqlProcedures.sampleServer 0 MssqlProcedures.emptyTable).cudFeed
      sampleRfc3339
        .delete [titleOnly "Hello"] = .ok [] ∧
      ¬ Accounted .delete [titleOnly "Hello"] [] := by
  refine ⟨⟨rfl, by decide⟩, ?_, ?_⟩
  · rw [Setting.cudFeed, MssqlProcedures.cudFeed_eq]
    rfl
  · rw [accounted_iff_length]
    decide

end BatchAccounting
