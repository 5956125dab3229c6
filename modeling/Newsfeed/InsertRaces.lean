import Newsfeed.PostgresResponses
import Newsfeed.MssqlProcedures

/-! # Concurrent inserts of one title: PostgreSQL and SQL Server

Both procedures touch the table in one statement, so clients are served one after
another. The first client that gets to this statement inserts its row, all others find it.
-/
namespace InsertRaces

open TextOperations FallibleOperations RelationalTables StatementInterleaving FeedModels
open CudHandlers

def Receives (status : CudStatus) (answer : Except DbError (List CudResult)) : Prop :=
  ∃ r, answer = .ok [r] ∧ r.status = status

/-- One client receives `Success`, the others `Skipped`, and the title is there once. -/
def OneWinner {n : Nat} (received : Fin n → Except DbError (List CudResult)) (rowCount : Nat) :
    Prop :=
  (∃ w, Receives .success (received w) ∧ ∀ i, i ≠ w → Receives .skipped (received i)) ∧
    rowCount = 1

theorem Receives.unique {status status' : CudStatus} {answer : Except DbError (List CudResult)}
    (h : Receives status answer) (h' : Receives status' answer) : status = status' := by
  obtain ⟨r, hr, rfl⟩ := h
  obtain ⟨r', hr', rfl⟩ := h'
  rw [hr] at hr'
  cases hr'
  rfl

theorem OneWinner.receives {n rowCount : Nat} {received : Fin n → Except DbError (List CudResult)}
    (h : OneWinner received rowCount) (i : Fin n) :
    ∃ status, Receives status (received i) := by
  obtain ⟨⟨w, hw, hothers⟩, _⟩ := h
  by_cases hi : i = w
  · exact ⟨_, hi ▸ hw⟩
  · exact ⟨_, hothers i hi⟩

section Served

variable {n : Nat} {S P : Type*} {program : Fin (n + 1) → List (Statement S P SqlError)}
  {k : Fin (n + 1) → Nat} {schedule : List (Fin (n + 1))}

theorem mem_order (hone : ∀ i, OneShared (program i) (k i)) (h : Interleaves program schedule)
    (i : Fin (n + 1)) : i ∈ orderOf k schedule := by
  rw [mem_orderOf, h i]
  exact (hone i).lt

theorem exists_first (hone : ∀ i, OneShared (program i) (k i)) (h : Interleaves program schedule) :
    ∃ w rest, orderOf k schedule = w :: rest :=
  List.exists_cons_of_ne_nil (List.ne_nil_of_mem (mem_order hone h 0))

theorem first_wins (answer : Session P SqlError → Except DbError (List CudResult)) (s : S)
    (init : Fin (n + 1) → P) (hone : ∀ i, OneShared (program i) (k i))
    (h : Interleaves program schedule)
    {w : Fin (n + 1)} {rest : List (Fin (n + 1))} (hfirst : orderOf k schedule = w :: rest) {s' : S}
    (hshared : (runProgram (program w) s (.ok (init w))).1 = s')
    (hwin : Receives .success (answer (runProgram (program w) s (.ok (init w))).2))
    (hlose : ∀ i, (runProgram (program i) s' (.ok (init i))).1 = s' ∧
      Receives .skipped (answer (runProgram (program i) s' (.ok (init i))).2)) :
    (run program (start s init) schedule).shared = s' ∧
      ∃ w, Receives .success (answer ((run program (start s init) schedule).session w)) ∧
        ∀ i, i ≠ w →
          Receives .skipped (answer ((run program (start s init) schedule).session i)) := by
  obtain ⟨hrun, hsession⟩ := run_eq_serve s init hone h
  have hnodup := orderOf_nodup k schedule
  rw [hfirst] at hrun hsession hnodup
  obtain ⟨hserved, houtcome⟩ := serve_first program s s' (fun i => .ok (init i))
    (fun i => if i = w then (runProgram (program w) s (.ok (init w))).2
      else (runProgram (program i) s' (.ok (init i))).2) hnodup
    (Prod.ext hshared (if_pos rfl).symm) (by
      intro i hi
      have hiw : i ≠ w := by
        rintro rfl
        exact (List.nodup_cons.mp hnodup).1 hi
      exact Prod.ext (hlose i).1 (if_neg hiw).symm)
  refine ⟨hrun.trans hserved, w, ?_, fun i hi => ?_⟩
  · rw [hsession, houtcome w (hfirst ▸ mem_order hone h w), if_pos rfl]
    exact hwin
  · rw [hsession, houtcome i (hfirst ▸ mem_order hone h i), if_neg hi]
    exact (hlose i).2

theorem first_outcome (s : S) (init : Fin (n + 1) → P)
    (hone : ∀ i, OneShared (program i) (k i))
    (h : Interleaves program schedule) {w : Fin (n + 1)} {rest : List (Fin (n + 1))}
    (hfirst : orderOf k schedule = w :: rest) :
    (run program (start s init) schedule).session w =
      (runProgram (program w) s (.ok (init w))).2 := by
  obtain ⟨_, hsession⟩ := run_eq_serve s init hone h
  have hnodup := orderOf_nodup k schedule
  rw [hfirst] at hsession hnodup
  rw [hsession, serve_cons, serve_of_not_mem (List.nodup_cons.mp hnodup).1, Function.update_self]

theorem all_skipped (answer : Session P SqlError → Except DbError (List CudResult)) (s : S)
    (init : Fin (n + 1) → P) (hone : ∀ i, OneShared (program i) (k i))
    (h : Interleaves program schedule)
    (hlose : ∀ i, (runProgram (program i) s (.ok (init i))).1 = s ∧
      Receives .skipped (answer (runProgram (program i) s (.ok (init i))).2)) (i : Fin (n + 1)) :
    Receives .skipped (answer ((run program (start s init) schedule).session i)) := by
  obtain ⟨_, hsession⟩ := run_eq_serve s init hone h
  obtain ⟨_, houtcome⟩ := serve_unchanged program s (fun i => .ok (init i))
    (fun i => (runProgram (program i) s (.ok (init i))).2) (orderOf_nodup k schedule)
    fun i _ => Prod.ext (hlose i).1 rfl
  rw [hsession, houtcome i (mem_order hone h i)]
  exact (hlose i).2

theorem receives_on_some_state (answer : Session P SqlError → Except DbError (List CudResult))
    (s : S) (init : Fin (n + 1) → P) (hone : ∀ i, OneShared (program i) (k i))
    (h : Interleaves program schedule) {i : Fin (n + 1)} {status : CudStatus}
    (hreceives : Receives status (answer ((run program (start s init) schedule).session i))) :
    ∃ s', Receives status (answer (runProgram (program i) s' (.ok (init i))).2) := by
  obtain ⟨_, hsession⟩ := run_eq_serve s init hone h
  obtain ⟨s', hs'⟩ := serve_outcome program s (fun i => .ok (init i))
    (orderOf_nodup k schedule) (mem_order hone h i)
  rw [hsession, hs'] at hreceives
  exact ⟨s', hreceives⟩

end Served

section Postgres

open PostgresProcedures

variable {sv : Server} (isRfc3339 : Text → Bool) (now : Timestamp) {item : CudParams} {t : Text}

structure Storable (sv : Server) (item : CudParams) : Prop where
  noNul : PayloadRows.containsNul item.toJson = false
  feedUrl : item.feedUrl.isSome
  publishDate : ∃ d, castDate sv item.publishDate = .ok (some d)

def TitleFree (sv : Server) (rows : List Row) (t : Text) : Prop :=
  ∀ r ∈ rows, sv.lower r.title ≠ sv.lower t

theorem reads_of_storable (hacc : item.Accepted) (ht : item.title = some t)
    (hstore : Storable sv item) :
    ∃ p feedurl date, parseItem sv item.toJson = .ok p ∧ p.title = some t ∧
      p.feedurl = some feedurl ∧ p.publishDate = some date := by
  obtain ⟨f, hf⟩ := Option.isSome_iff_exists.mp hstore.feedUrl
  obtain ⟨d, hd⟩ := hstore.publishDate
  refine ⟨⟨item.title, item.imageUrl, item.feedUrl, item.actualUrl, some d⟩, f, d, ?_, ht, hf, rfl⟩
  exact (parseItem_ok sv hacc).mpr ⟨hstore.noNul, rfl, rfl, rfl, rfl, hd⟩

theorem insertStatement_eq {p : ParsedItem} (hp : parseItem sv item.toJson = .ok p)
    (rows : List Row) :
    cudStatement sv now .insertFeed ([item].map CudParams.toJson) rows =
      (insertItem sv now rows p).map fun (rows', returned) =>
        (rows', (leftJoin (fun p i => joinsTitle p.title i) [p] returned).map fun (_, i) =>
          insertStatus i) := by
  have hparsed : ([item].map CudParams.toJson).mapM (parseItem sv) = .ok [p] :=
    mapM_eq_ok.mpr (.cons hp .nil)
  simp only [cudStatement, hparsed, insertItems, bind, Except.bind]
  cases insertItem sv now rows p with
  | error e => rfl
  | ok result => simp only [pure, Except.pure, Except.map, List.append_nil]

theorem postgres_insert_free (hacc : item.Accepted) (ht : item.title = some t)
    (hstore : Storable sv item) {table : Newsfeed sv} (hfree : TitleFree sv table.rows t) :
    ∃ r, r.title = t ∧
      (cudFeed isRfc3339 (postgres sv now) .insertFeed [item] table).1.rows = table.rows ++ [r] ∧
      (cudFeed isRfc3339 (postgres sv now) .insertFeed [item] table).2 =
        .ok [⟨.success, "Record(s) inserted".toList, none⟩] := by
  obtain ⟨p, f, d, hp, hpt, hpf, hpd⟩ := reads_of_storable hacc ht hstore
  have hnew : existsRow (fun r => citextEq sv r.title t) table.rows = false := by
    rw [existsRow, List.any_eq_false]
    intro r hr heq
    exact hfree r hr ((citextEq_iff sv).mp heq)
  refine ⟨newRow now t f d p, rfl, ?_⟩
  refine cudFeed_of_statement sv isRfc3339 [⟨"Success".toList, "Record(s) inserted".toList⟩] ?_
  rw [insertStatement_eq now hp]
  simp only [insertItem, hpt, hpf, hpd, hnew, Bool.false_eq_true, ↓reduceIte, Except.map]
  have hjoin : joinsTitle (some t) t = true := joinsTitle_iff.mpr rfl
  simp only [leftJoin, List.flatMap_cons, List.flatMap_nil, hpt, List.filter_cons, hjoin,
    ↓reduceIte, List.filter_nil, List.map_cons, List.map_nil, List.append_nil]
  rfl

theorem postgres_insert_taken (hacc : item.Accepted) (ht : item.title = some t)
    (hstore : Storable sv item) {table : Newsfeed sv} (htaken : ¬ TitleFree sv table.rows t) :
    cudFeed isRfc3339 (postgres sv now) .insertFeed [item] table =
      (table, .ok [⟨.skipped, "SKIPPED_EXISTS".toList, none⟩]) := by
  obtain ⟨p, f, d, hp, hpt, hpf, hpd⟩ := reads_of_storable hacc ht hstore
  have hold : existsRow (fun r => citextEq sv r.title t) table.rows = true := by
    unfold TitleFree at htaken
    push Not at htaken
    obtain ⟨r, hr, heq⟩ := htaken
    exact List.any_eq_true.mpr ⟨r, hr, (citextEq_iff sv).mpr heq⟩
  have hst : cudStatement sv now .insertFeed ([item].map CudParams.toJson) table.rows =
      .ok (table.rows, [⟨"Skipped".toList, "SKIPPED_EXISTS".toList⟩]) := by
    rw [insertStatement_eq now hp]
    simp only [insertItem, hpt, hpf, hpd, hold, ↓reduceIte, Except.map]
    rfl
  obtain ⟨hrows, hresults⟩ := cudFeed_of_statement sv isRfc3339 _ hst
  exact Prod.ext (Newsfeed.ext hrows) hresults

theorem postgres_insert_unstorable (hacc : item.Accepted) (hstore : ¬ Storable sv item)
    (table : Newsfeed sv) (status : CudStatus) :
    ¬ Receives status (cudFeed isRfc3339 (postgres sv now) .insertFeed [item] table).2 := by
  rintro ⟨r, hr, _⟩
  obtain ⟨statuses, hst, _⟩ := statement_of_cudFeed sv isRfc3339 hr
  obtain ⟨parsed, hparsed, hst⟩ := bind_ok hst
  obtain ⟨⟨rows₁, returned⟩, hins, _⟩ := bind_ok hst
  obtain ⟨p, hp⟩ : ∃ p, parsed = [p] ∧ Reads sv item p := by
    have hreads := (parsed_ok sv (by simpa using hacc)).mp hparsed
    cases hreads with
    | cons hp hnil => cases hnil; exact ⟨_, rfl, hp⟩
  obtain ⟨rfl, hread⟩ := hp
  obtain ⟨⟨rows₂, returned₂⟩, hone, _⟩ := bind_ok hins
  obtain ⟨_, f, d, _, hf, hd, _⟩ := insertItem_ok sv hone
  apply hstore
  refine ⟨hread.noNul, ?_, d, hd ▸ hread.publishDate⟩
  rw [← hread.feedurl, hf]
  rfl

def postgresProgram (sv : Server) (now : Timestamp) (item : CudParams) :
    List (Statement (Newsfeed sv) (List (Option Text)) SqlError) :=
  [fun table _ => (postgres sv now).call .insertFeed (payloadText [item]) table]

theorem postgresProgram_run (item : CudParams) (table : Newsfeed sv) (rows : List (Option Text)) :
    (runProgram (postgresProgram sv now item) table (.ok rows)).1 =
        (cudFeed isRfc3339 (postgres sv now) .insertFeed [item] table).1 ∧
      readAnswer isRfc3339 (runProgram (postgresProgram sv now item) table (.ok rows)).2 =
        (cudFeed isRfc3339 (postgres sv now) .insertFeed [item] table).2 := ⟨rfl, rfl⟩

theorem postgresProgram_oneShared : OneShared (postgresProgram sv now item) 0 where
  lt := Nat.zero_lt_one
  before := by simp
  after := by simp [postgresProgram]

theorem postgres_loses (hacc : item.Accepted) (ht : item.title = some t)
    (hstore : Storable sv item) {table : Newsfeed sv} (htaken : ¬ TitleFree sv table.rows t) :
    (runProgram (postgresProgram sv now item) table (.ok [])).1 = table ∧
      Receives .skipped
        (readAnswer isRfc3339 (runProgram (postgresProgram sv now item) table (.ok [])).2) := by
  have hfeed := postgres_insert_taken isRfc3339 now hacc ht hstore htaken
  obtain ⟨hrows, hanswer⟩ := postgresProgram_run isRfc3339 now item table []
  rw [hrows, hanswer, hfeed]
  exact ⟨rfl, _, rfl, rfl⟩

/-- On PostgreSQL there is exactly one winner when the title is free and every item can be
stored, and only then. -/
theorem postgres_oneWinner {n : Nat} (sv : Server) (isRfc3339 : Text → Bool)
    {now : Fin (n + 1) → Timestamp} {items : Fin (n + 1) → AcceptedItem} {t : Text}
    (ht : ∀ i, (items i).val.title = some t) (table : Newsfeed sv) {schedule : List (Fin (n + 1))}
    (h : Interleaves (fun i => postgresProgram sv (now i) (items i).val) schedule) :
    OneWinner
        (fun i => readAnswer isRfc3339
          ((run (fun i => postgresProgram sv (now i) (items i).val) (start table fun _ => [])
            schedule).session i))
        ((run (fun i => postgresProgram sv (now i) (items i).val) (start table fun _ => [])
          schedule).shared.rows.countP fun r => r.title == t) ↔
      TitleFree sv table.rows t ∧ ∀ i, Storable sv (items i).val := by
  have hone : ∀ i, OneShared (postgresProgram sv (now i) (items i).val) 0 :=
    fun i => postgresProgram_oneShared (now i)
  constructor
  · intro hwinner
    have hstore : ∀ i, Storable sv (items i).val := by
      intro i
      by_contra hno
      obtain ⟨status, hstatus⟩ := hwinner.receives i
      obtain ⟨table', htable'⟩ := receives_on_some_state (readAnswer isRfc3339) table (fun _ => [])
        hone h hstatus
      exact postgres_insert_unstorable isRfc3339 (now i) (items i).property hno table' status
        htable'
    refine ⟨?_, hstore⟩
    by_contra htaken
    obtain ⟨⟨w, hw, _⟩, _⟩ := hwinner
    have hskipped := all_skipped (readAnswer isRfc3339) table (fun _ => []) hone h
      (fun i => postgres_loses isRfc3339 (now i) (items i).property (ht i) (hstore i) htaken) w
    exact absurd (hw.unique hskipped) (by decide)
  · rintro ⟨hfree, hstore⟩
    obtain ⟨w, rest, hfirst⟩ := exists_first hone h
    obtain ⟨r, hr, hrows, hresults⟩ := postgres_insert_free isRfc3339 (now w) (items w).property
      (ht w) (hstore w) hfree
    have htaken : ¬ TitleFree sv
        (cudFeed isRfc3339 (postgres sv (now w)) .insertFeed [(items w).val] table).1.rows t := by
      rw [hrows]
      exact fun hno => hno r (List.mem_append_right _ List.mem_cons_self) (by rw [hr])
    obtain ⟨hshared, hwinner⟩ := first_wins (readAnswer isRfc3339) table (fun _ => []) hone h hfirst
      (postgresProgram_run isRfc3339 (now w) (items w).val table []).1
      ⟨_, hresults, rfl⟩
      (fun i => postgres_loses isRfc3339 (now i) (items i).property (ht i) (hstore i) htaken)
    refine ⟨hwinner, ?_⟩
    rw [hshared, hrows]
    exact countP_appended (fun q hq heq => hfree q hq (by rw [heq])) hr

end Postgres

section Mssql

open MssqlProcedures SqlLogic

variable {sv : MssqlProcedures.Server} (isRfc3339 : Text → Bool) (now : MssqlProcedures.Timestamp)
  {item : CudParams} {t : Text} {rows : List MssqlProcedures.Row}

/-- The item gets into `@parsed`. -/
def Readable (sv : MssqlProcedures.Server) (item : CudParams) : Prop :=
  keepsItem sv item = true ∧ Fits item

def Castable (sv : MssqlProcedures.Server) (item : CudParams) : Prop :=
  (item.publishDate.bind sv.tryCast).isSome

def NoTitle (sv : MssqlProcedures.Server) (rows : List MssqlProcedures.Row) (t : Text) : Prop :=
  ∀ r ∈ rows, sv.coll.key r.title ≠ sv.coll.key t

theorem mssql_insert_eq (hacc : item.Accepted) (hread : Readable sv item)
    (rows : List MssqlProcedures.Row) :
    cudFeed isRfc3339 (mssql sv now) .insertFeed [item] rows =
      match written sv now .insert [readItem sv item] rows with
      | .error e => (rows, .error (.sql e))
      | .ok (rows', returned) => (rows', .ok
          ((statuses sv .insert [readItem sv item] returned rows').map StatusRow.result)) := by
  have hparse : parseItems sv ([item].map CudParams.toJson) = .ok [readItem sv item] := by
    refine (parseItems_ok sv (by simpa using hacc)).mpr ⟨?_, ?_⟩
    · simpa using fun _ => hread.2
    · simp [hread.1]
  have hfeed := cudFeed_eq sv isRfc3339 now .insert [item] rows
  rw [hparse] at hfeed
  exact hfeed

theorem titleMatches_readItem (ht : item.title = some t) {r : MssqlProcedures.Row} :
    titleMatches sv (readItem sv item) r = true ↔ sv.coll.key r.title = sv.coll.key t := by
  rw [titleMatches_iff, readItem, ht]
  simp

theorem mssql_insert_taken (hacc : item.Accepted) (ht : item.title = some t)
    (hread : Readable sv item) (htaken : ¬ NoTitle sv rows t) :
    cudFeed isRfc3339 (mssql sv now) .insertFeed [item] rows =
      (rows, .ok [⟨.skipped, "SKIPPED_EXISTS".toList, none⟩]) := by
  have hold : isNew sv rows (readItem sv item) = false := by
    unfold NoTitle at htaken
    push Not at htaken
    obtain ⟨r, hr, heq⟩ := htaken
    rw [isNew, Bool.not_eq_false']
    exact List.any_eq_true.mpr ⟨r, hr, (titleMatches_readItem ht).mpr heq⟩
  rw [mssql_insert_eq isRfc3339 now hacc hread, written, List.filter_cons, hold]
  rfl

theorem mssql_insert_free_eq (hacc : item.Accepted) (ht : item.title = some t)
    (hread : Readable sv item) (hfree : NoTitle sv rows t) :
    cudFeed isRfc3339 (mssql sv now) .insertFeed [item] rows =
      match insertItems sv now rows [readItem sv item] with
      | .error e => (rows, .error (.sql e))
      | .ok (rows', returned) => (rows', .ok
          ((statuses sv .insert [readItem sv item] returned rows').map StatusRow.result)) := by
  have hnew : isNew sv rows (readItem sv item) = true := by
    rw [isNew, Bool.not_eq_true', existsRow, List.any_eq_false]
    intro r hr hmatch
    exact hfree r hr ((titleMatches_readItem ht).mp hmatch)
  rw [mssql_insert_eq isRfc3339 now hacc hread, written, List.filter_cons, hnew]
  rfl

theorem mssql_insert_free (hacc : item.Accepted) (ht : item.title = some t)
    (hread : Readable sv item) (hcast : Castable sv item) (hfree : NoTitle sv rows t) :
    ∃ r, r.title = t ∧
      cudFeed isRfc3339 (mssql sv now) .insertFeed [item] rows =
        (rows ++ [r], .ok [⟨.success, "Record(s) inserted".toList, none⟩]) := by
  obtain ⟨d, hd⟩ := Option.isSome_iff_exists.mp hcast
  obtain ⟨f, hf⟩ : ∃ f, item.feedUrl = some f := by
    have hgiven := hread.1
    rw [keepsItem, Bool.and_eq_true, Bool.and_eq_true] at hgiven
    cases hfeed : item.feedUrl with
    | none =>
      simp [hfeed, isGiven, isNull, Truth.holds, Truth.not, Truth.and, Truth.ofBool] at hgiven
    | some f => exact ⟨f, rfl⟩
  have hnone : existsRow (fun r : MssqlProcedures.Row => textEq sv r.title t) rows = false := by
    rw [existsRow, List.any_eq_false]
    intro r hr heq
    exact hfree r hr ((Collation.eq_iff _).mp heq)
  have hinsert : insertItems sv now rows [readItem sv item] =
      .ok (rows ++ [newRow now t f d (readItem sv item)], [t]) := by
    simp only [insertItems, insertItem, readItem, ht, hf, hd, hnone, bind, Except.bind,
      Bool.false_eq_true, ↓reduceIte]
    rfl
  refine ⟨newRow now t f d (readItem sv item), rfl, ?_⟩
  rw [mssql_insert_free_eq isRfc3339 now hacc ht hread hfree, hinsert]
  have hjoin : joinsTitle sv (readItem sv item) t = true :=
    joinsTitle_iff.mpr ⟨t, ht, rfl⟩
  simp only [statuses, leftJoin, List.flatMap_cons, List.flatMap_nil, List.filter_cons, hjoin,
    ↓reduceIte, List.filter_nil, List.map_cons, List.map_nil, List.append_nil]
  rfl

theorem mssql_insert_uncastable (hacc : item.Accepted) (ht : item.title = some t)
    (hread : Readable sv item) (hcast : ¬ Castable sv item) (hfree : NoTitle sv rows t)
    (status : CudStatus) :
    ¬ Receives status (cudFeed isRfc3339 (mssql sv now) .insertFeed [item] rows).2 := by
  rintro ⟨r, hr, _⟩
  rw [mssql_insert_free_eq isRfc3339 now hacc ht hread hfree] at hr
  cases hinsert : insertItems sv now rows [readItem sv item] with
  | error e =>
    rw [hinsert] at hr
    cases hr
  | ok result =>
    obtain ⟨rows', returned⟩ := result
    obtain ⟨new, _, _, hnew, _⟩ := insertItems_ok hinsert
    obtain ⟨row, _, ⟨_, _, d, _, _, hd, _⟩, _⟩ := List.forall₂_cons_left_iff.mp hnew
    apply hcast
    rw [Castable]
    exact Option.isSome_iff_exists.mpr ⟨d, hd⟩

theorem mssql_insert_unreadable (hacc : item.Accepted) (hread : ¬ Readable sv item)
    (rows : List MssqlProcedures.Row) (status : CudStatus) :
    ¬ Receives status (cudFeed isRfc3339 (mssql sv now) .insertFeed [item] rows).2 := by
  rintro ⟨r, hr, _⟩
  have hfeed := cudFeed_eq sv isRfc3339 now .insert [item] rows
  rw [CudMode.optionMode] at hfeed
  rw [hfeed] at hr
  cases hparse : parseItems sv ([item].map CudParams.toJson) with
  | error e =>
    rw [hparse] at hr
    cases hr
  | ok parsed =>
    obtain ⟨hfits, rfl⟩ := (parseItems_ok sv (by simpa using hacc)).mp hparse
    have hdropped : keepsItem sv item = false := by
      rw [← Bool.not_eq_true]
      exact fun hkeep => hread ⟨hkeep, hfits item List.mem_cons_self hkeep⟩
    rw [hparse] at hr
    simp only [List.filter_cons, hdropped, Bool.false_eq_true, ↓reduceIte, List.filter_nil,
      List.map_nil] at hr
    cases hr

/-- The call of a client: parse, insert, put the statuses together, send them. -/
def mssqlProgram (sv : MssqlProcedures.Server) (now : MssqlProcedures.Timestamp)
    (item : CudParams) : List MssqlProcedures.Stmt :=
  MssqlProcedures.cudBulkJsonNewsfeed sv now .insertFeed (payloadText [item])

def mssqlAnswer (session : Session Variables SqlError) : Except DbError (List CudResult) :=
  readAnswer isRfc3339 (session.map Variables.resultSet)

theorem mssqlProgram_run (item : CudParams) (rows : List MssqlProcedures.Row) :
    (runProgram (mssqlProgram sv now item) rows (.ok noVariables)).1 =
        (cudFeed isRfc3339 (mssql sv now) .insertFeed [item] rows).1 ∧
      mssqlAnswer isRfc3339 (runProgram (mssqlProgram sv now item) rows (.ok noVariables)).2 =
        (cudFeed isRfc3339 (mssql sv now) .insertFeed [item] rows).2 := by
  have hcall : (mssql sv now).call .insertFeed (payloadText [item]) rows =
      ((runProgram (mssqlProgram sv now item) rows (.ok noVariables)).1,
        (runProgram (mssqlProgram sv now item) rows (.ok noVariables)).2.map
          Variables.resultSet) := by
    unfold mssql mssqlProgram
    dsimp only
  unfold cudFeed mssqlAnswer
  rw [hcall]
  dsimp only
  exact ⟨rfl, rfl⟩

theorem mssqlProgram_oneShared : OneShared (mssqlProgram sv now item) 1 where
  lt := by
    show 1 < 4
    omega
  before := by
    intro st hst
    rw [List.mem_singleton.mp hst]
    exact fun _ _ _ => ⟨rfl, rfl⟩
  after := by
    intro st hst
    rcases List.mem_cons.mp hst with rfl | hst
    · exact fun _ _ _ => ⟨rfl, rfl⟩
    · rw [List.mem_singleton.mp hst]
      exact fun _ _ _ => ⟨rfl, rfl⟩

theorem mssql_loses (hacc : item.Accepted) (ht : item.title = some t) (hread : Readable sv item)
    (htaken : ¬ NoTitle sv rows t) :
    (runProgram (mssqlProgram sv now item) rows (.ok noVariables)).1 = rows ∧
      Receives .skipped (mssqlAnswer isRfc3339
        (runProgram (mssqlProgram sv now item) rows (.ok noVariables)).2) := by
  have hfeed := mssql_insert_taken isRfc3339 now hacc ht hread htaken
  obtain ⟨hrows, hanswer⟩ := mssqlProgram_run isRfc3339 now item rows
  rw [hrows, hanswer, hfeed]
  exact ⟨rfl, _, rfl, rfl⟩

/-- On SQL Server there is exactly one winner when the title is free, every item gets into
`@parsed` and the date of the first client can be cast, and only then. -/
theorem mssql_oneWinner {n : Nat} (sv : MssqlProcedures.Server) (isRfc3339 : Text → Bool)
    {now : Fin (n + 1) → MssqlProcedures.Timestamp} {items : Fin (n + 1) → AcceptedItem} {t : Text}
    (ht : ∀ i, (items i).val.title = some t) (rows : List MssqlProcedures.Row)
    {schedule : List (Fin (n + 1))}
    (h : Interleaves (fun i => mssqlProgram sv (now i) (items i).val) schedule) :
    OneWinner
        (fun i => mssqlAnswer isRfc3339
          ((run (fun i => mssqlProgram sv (now i) (items i).val) (start rows fun _ => noVariables)
            schedule).session i))
        ((run (fun i => mssqlProgram sv (now i) (items i).val) (start rows fun _ => noVariables)
          schedule).shared.countP fun r => r.title == t) ↔
      NoTitle sv rows t ∧ (∀ i, Readable sv (items i).val) ∧
        ∀ w ∈ (orderOf (fun _ => 1) schedule).head?, Castable sv (items w).val := by
  have hone : ∀ i, OneShared (mssqlProgram sv (now i) (items i).val) 1 :=
    fun i => mssqlProgram_oneShared (now i)
  obtain ⟨w, rest, hfirst⟩ := exists_first hone h
  rw [hfirst, List.head?_cons]
  constructor
  · intro hwinner
    have hread : ∀ i, Readable sv (items i).val := by
      intro i
      by_contra hno
      obtain ⟨status, hstatus⟩ := hwinner.receives i
      obtain ⟨rows', hrows'⟩ := receives_on_some_state (mssqlAnswer isRfc3339) rows
        (fun _ => noVariables) hone h hstatus
      exact mssql_insert_unreadable isRfc3339 (now i) (items i).property hno rows' status hrows'
    have hfree : NoTitle sv rows t := by
      by_contra htaken
      obtain ⟨⟨v, hv, _⟩, _⟩ := hwinner
      have hskipped := all_skipped (mssqlAnswer isRfc3339) rows (fun _ => noVariables) hone h
        (fun i => mssql_loses isRfc3339 (now i) (items i).property (ht i) (hread i) htaken) v
      exact absurd (hv.unique hskipped) (by decide)
    refine ⟨hfree, hread, ?_⟩
    rintro v ⟨⟩
    by_contra hcast
    obtain ⟨status, hstatus⟩ := hwinner.receives w
    rw [first_outcome rows (fun _ => noVariables) hone h hfirst] at hstatus
    exact mssql_insert_uncastable isRfc3339 (now w) (items w).property (ht w) (hread w) hcast hfree
      status hstatus
  · rintro ⟨hfree, hread, hcast⟩
    obtain ⟨r, hr, hfeed⟩ := mssql_insert_free isRfc3339 (now w) (items w).property (ht w)
      (hread w) (hcast w rfl) hfree
    have htaken : ¬ NoTitle sv (rows ++ [r]) t := fun hno =>
      hno r (List.mem_append_right _ List.mem_cons_self) (by rw [hr])
    obtain ⟨hrows, hanswer⟩ := mssqlProgram_run isRfc3339 (now w) (items w).val rows
    rw [hfeed] at hrows hanswer
    obtain ⟨hshared, hwinner⟩ := first_wins (mssqlAnswer isRfc3339) rows (fun _ => noVariables)
      hone h hfirst hrows ⟨_, hanswer, rfl⟩
      (fun i => mssql_loses isRfc3339 (now i) (items i).property (ht i) (hread i) htaken)
    refine ⟨hwinner, ?_⟩
    rw [hshared]
    exact countP_appended (fun q hq heq => hfree q hq (by rw [heq])) hr

end Mssql

end InsertRaces
