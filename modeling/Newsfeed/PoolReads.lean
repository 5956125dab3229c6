import Newsfeed.EnginePages
import Newsfeed.PoolRuns

/-! # Reading from the server

The driver of the pool reads what a `GET` asks for. Whatever engine is behind the server and
whatever else is going on, a client is shown a page of the store.
-/
namespace PoolReads

open TextOperations RelationalTables KeyedStore FeedModels HttpHeaders ExtractFilters ExtractPages
open CudHandlers EtagCache Services FeedStore FeedPages EnginePages FeedService FeedRuns Router
open ServerRuns

abbrev Timestamp := ℤ

/-- The active pool, by what the server behind it compares and converts texts with. -/
inductive ReadingPool where
  | postgres (sv : PostgresProcedures.Server)
  | mariadb (sv : MariadbExtract.Server) (castChar : Timestamp → Text)
  | mssql (sv : MssqlExtract.ReadingServer) (castVarchar : Timestamp → Text)

namespace ReadingPool

def db : ReadingPool → DbPool
  | postgres sv => .postgres sv
  | mariadb sv _ => .mariadb sv.coll
  | mssql sv _ => .mssql sv.toServer

/-- `extract_feed` of the service, on a connection with these user variables. -/
def extractFeed (v : MariadbExtract.UserVariables) (params : ExtractParams) :
    (q : ReadingPool) → q.db.Table → Except SqlError (List NewsFeedRow)
  | postgres sv, table => PostgresExtract.extractFeed sv params table.rows
  | mariadb sv _, rows => MariadbExtract.extractFeed sv params v rows
  | mssql sv _, rows => MssqlExtract.extractFeed sv params rows

/-- `max_modified_date` of the service. -/
def maxModifiedDate : (q : ReadingPool) → q.db.Table → Option Text
  | postgres sv, table => PostgresEtag.maxModifiedDate sv table.rows
  | mariadb _ castChar, rows =>
    (rows.filterMap MariadbProcedures.Row.modifiedDate).max?.map castChar
  | mssql _ castVarchar, rows =>
    (rows.filterMap MssqlProcedures.Row.modifiedDate).max?.map castVarchar

def store (q : ReadingPool) (v : MariadbExtract.UserVariables) (table : q.db.Table) : Store where
  maxModifiedDate := .ok (q.maxModifiedDate table)
  extractFeed := fun params => (q.extractFeed v params table).mapError DbError.sql

/-- The collation reads letters and digits. -/
def Plain : ReadingPool → Prop
  | postgres _ => True
  | mariadb sv _ => PlainCollation sv.coll sv.lower
  | mssql sv _ => PlainCollation sv.coll sv.lower

def Given : ReadingPool → Set Entry → ExtractParams → Prop
  | postgres sv => PostgresGiven sv
  | mariadb sv _ => MariadbGiven sv
  | mssql sv _ => MssqlGiven sv

def ranking : ReadingPool → Ranking
  | postgres sv => postgresRanking sv
  | mariadb sv _ => mariadbRanking sv
  | mssql sv _ => mssqlRanking sv

def dateText : ReadingPool → Text → Option Text
  | postgres sv => postgresDate sv
  | mariadb sv _ => sv.dateFormat
  | mssql sv _ => mssqlDate sv

end ReadingPool

variable {p q : ReadingPool} {U : Set Entry} {es : List Entry} {map : QueryMap}

/-- What the engine returns is the page of the store. -/
theorem extractFeed_holds (hq : q.db.Faithful U) (hplain : q.Plain)
    (hgiven : q.Given U (.fromMap map)) (v : MariadbExtract.UserVariables) {table : q.db.Table}
    (h : q.db.Holds U table es) :
    q.extractFeed v (.fromMap map) table =
      .ok ((page q.ranking map es).map (shown q.dateText)) := by
  cases q with
  | postgres sv => exact postgres_page hq hgiven h
  | mariadb sv castChar => exact mariadb_page hq hplain hgiven v h
  | mssql sv castVarchar => exact mssql_page hq hplain hgiven h

def helloQuery : QueryMap := fun n => if n = "title".toList then some "Hello".toList else none

theorem hello_given_of {sanitise : FilterField → Text → Option Text} {asksNull : Text → Bool}
    {equal : Text → Text → Bool} (hkept : sanitise .title "Hello".toList = some "Hello".toList)
    (hequal : equal "Hello".toList "Hello".toList = true) :
    FeedPages.Given sanitise asksNull equal {helloEntry} (.fromMap helloQuery) where
  kept := by
    intro f t ht
    cases f with
    | title =>
      cases ht
      exact hkept
    | _ => cases ht
  notNull := by
    intro f hf t ht
    cases f with
    | title => cases hf
    | feedUrl => cases hf
    | _ => cases ht
  exact := by
    intro f t ht e he u hu
    cases f with
    | title =>
      cases ht
      cases he
      cases hu
      exact hequal
    | _ => cases ht

abbrev sampleReading : ReadingPool := .postgres PostgresProcedures.sampleServer

abbrev sampleVariables : MariadbExtract.UserVariables := MariadbQueries.freshVariables

theorem hello_given : sampleReading.Given {helloEntry} (.fromMap helloQuery) :=
  hello_given_of (by decide) (by decide)

/-- The server over a pool, whose connections have been left with some user variables. What
they are makes no difference to what is read. -/
abbrev database (q : ReadingPool) (v : MariadbExtract.UserVariables) : Database :=
  PoolRuns.database q.db (q.store v)

section Runs

variable {K : Type*} [Field K] [LinearOrder K] [FloorSemiring K] (xxh64 : Text → UInt64)
  (isRfc3339 : Text → Bool) (app : App K) (v : MariadbExtract.UserVariables)
  (hq : q.db.Faithful U) (hplain : q.Plain) {first : (database q v).Table}
  (hfirst : q.db.Holds U first es) {before after : List (Event K)}
  (hsends : ∀ now r, Event.arrive now r ∈ before ++ after → PoolRuns.Sends U r)
  {mid final : State app (database q v)}
  (hmid : (serve (step xxh64 isRfc3339) (start app first) before).1 = mid)
  (hfinal : (serve (step xxh64 isRfc3339) mid after).1 = final)

/-- A request from among those that came after `before` asks for a page and is answered. -/
structure Shown (app : App K) (history : List (Event K × Output)) (passed : List (Ticket K))
    (id : ℕ) (map : QueryMap) (body : GetBody) : Prop where
  replied : ∃ e etag, (e, Output.reply id (.get (.ok etag body))) ∈ history
  asked : ∃ t headers, passed[id]? = some t ∧ newsfeedMethods t.request = .ok (.get headers map)

include hq hplain hfirst hsends hmid hfinal

/-- Every page that is shown is the page of the store after some of the calls, among them all
that were carried out before the request came. -/
theorem pages_read {id : ℕ} {body : GetBody} (hlater : mid.passed.length ≤ id)
    (hshown : Shown app (trace (step xxh64 isRfc3339) mid after) final.passed id map body)
    (hgiven : q.Given U (.fromMap map)) :
    ∃ n, mid.executed.length ≤ n ∧ n ≤ final.executed.length ∧
      body.result = (page q.ranking map (serve answerCud es
        ((final.executed.take n).map Execution.request)).1).map (shown q.dateText) := by
  obtain ⟨e, etag, hreply⟩ := hshown.replied
  obtain ⟨t, headers, ht, hasked⟩ := hshown.asked
  subst hmid
  have hread := reads_between xxh64 isRfc3339 app first before after e hlater hreply
  have hend : (serve (step xxh64 isRfc3339) (start app first) (before ++ after)).1 = final := by
    rw [serve_append]
    exact hfinal
  rw [hend] at hread
  obtain ⟨t', headers', query, s, ht', hasked', hanswer, n, hlow, hn, _, hpage⟩ := hread
  rw [ht, Option.some.injEq] at ht'
  rw [← ht', hasked] at hasked'
  cases hasked'
  obtain ⟨rows, text, hrows, rfl, _, _⟩ := handler_ok hanswer.symm
  have hwithin := PoolRuns.executed_within xxh64 isRfc3339 app hsends hend
  have hholds := PoolRuns.tableAfter_holds isRfc3339 hq hfirst hwithin n
  refine ⟨n, hlow, hn, ?_⟩
  rcases hpage with ⟨error, herror⟩ | hpage
  · rw [herror] at hrows
    cases hrows
  · rw [hpage] at hrows
    have hfeed : (q.extractFeed v (.fromMap map)
        (tableAfter isRfc3339 first final.executed n)).mapError DbError.sql = .ok rows := hrows
    rw [extractFeed_holds hq hplain hgiven v hholds] at hfeed
    cases hfeed
    rfl

/-- Who was told that an entry was inserted, and then asks for its title, is shown one row,
with this title, until a call deletes it. -/
theorem acknowledged_insert_is_shown {id id' : ℕ} {entry : Entry} {body : GetBody}
    (hacknowledged : PoolRuns.Acknowledged (trace (step xxh64 isRfc3339) (start app first) before)
      mid.passed id entry)
    (hlater : mid.passed.length ≤ id')
    (hshown : Shown app (trace (step xxh64 isRfc3339) mid after) final.passed id' map body)
    (htitle : map "title".toList = some entry.title) (himage : map "image_url".toList = none)
    (hfeed : map "feed_url".toList = none) (hactual : map "actual_url".toList = none)
    (hgiven : q.Given U (.fromMap map))
    (hkept : PoolRuns.NotDeleted final.executed id entry.title) :
    ∃ found : Entry, found.title = entry.title ∧ body.result = [shown q.dateText found] := by
  have hbefore : ∀ now r, Event.arrive now r ∈ before → PoolRuns.Sends U r := fun now r hr =>
    hsends now r (List.mem_append_left after hr)
  obtain ⟨n, hn, hlen, hbody⟩ := pages_read xxh64 isRfc3339 app v hq hplain hfirst hsends hmid
    hfinal hlater hshown hgiven
  obtain ⟨xs, x, ys, hsplit, hid, hinserts⟩ :=
    PoolRuns.acknowledged_carriedOut xxh64 isRfc3339 app hq hfirst hbefore hmid hacknowledged
  obtain ⟨calls, hcalls⟩ := serve_executed_grows xxh64 isRfc3339 mid after
  rw [hfinal] at hcalls
  -- The insertion is among the calls that the page has seen.
  have htake : final.executed.take n = xs ++ x :: (ys ++ calls.take (n - mid.executed.length)) := by
    rw [hcalls, List.take_append, List.take_of_length_le hn, hsplit, List.append_assoc,
      List.cons_append]
  have hexecuted : final.executed = xs ++ x :: (ys ++ calls) := by
    rw [hcalls, hsplit, List.append_assoc, List.cons_append]
  have hundeleted : ∀ y ∈ ys ++ calls.take (n - mid.executed.length), y.request.mode = .delete →
      ∀ item ∈ y.request.body.items, item.title ≠ some entry.title := by
    intro y hy
    refine hkept xs x (ys ++ calls) hexecuted hid y ?_
    rcases List.mem_append.mp hy with hy | hy
    · exact List.mem_append_left _ hy
    · exact List.mem_append_right _ (List.mem_of_mem_take hy)
  have hfound := hinserts.kept es xs hundeleted
  rw [← htake] at hfound
  obtain ⟨found, hfound⟩ := Option.isSome_iff_exists.mp hfound
  refine ⟨found, key_of_lookup hfound, ?_⟩
  have hend : (serve (step xxh64 isRfc3339) (start app first) (before ++ after)).1 = final := by
    rw [serve_append, hmid, hfinal]
  have hwithin := PoolRuns.executed_within xxh64 isRfc3339 app hsends hend
  have htitles := (PoolRuns.tableAfter_holds isRfc3339 hq hfirst hwithin n).titles
  rw [hbody, page_of_title htitles htitle himage hfeed hactual, hfound]
  rfl

/-- The server over any engine is a server over the store: the calls in the order of their
execution are answered by the store and leave its entries in the table, and a page is the
store's after calls among which are all that were carried out before the request came. -/
theorem server_implements_store :
    let run := trace (step xxh64 isRfc3339) (start app first) (before ++ after)
    let storeAfter := fun n =>
      (serve answerCud es ((final.executed.take n).map Execution.request)).1
    (∀ e id response, (e, Output.reply id (.cud response)) ∈ run → response.statusCode < 400 →
        ∃ x ∈ final.executed, x.id = id ∧ x.response = response) ∧
      final.executed.map Execution.response =
        (serve answerCud es (final.executed.map Execution.request)).2 ∧
      q.db.Holds U final.table (storeAfter final.executed.length) ∧
      ∀ id map body, mid.passed.length ≤ id →
        Shown app (trace (step xxh64 isRfc3339) mid after) final.passed id map body →
        q.Given U (.fromMap map) →
        ∃ n, mid.executed.length ≤ n ∧ n ≤ final.executed.length ∧
          body.result = (page q.ranking map (storeAfter n)).map (shown q.dateText) := by
  intro run storeAfter
  have hend : (serve (step xxh64 isRfc3339) (start app first) (before ++ after)).1 = final := by
    rw [serve_append, hmid, hfinal]
  obtain ⟨hholds, hanswers⟩ := PoolRuns.run_holds xxh64 isRfc3339 app hq hfirst hsends hend
  have hrecorded := serve_recorded xxh64 isRfc3339 app first (before ++ after)
  rw [hend] at hrecorded
  refine ⟨hrecorded.truthful, hanswers, ?_, ?_⟩
  · show q.db.Holds U final.table (serve answerCud es
      ((final.executed.take final.executed.length).map Execution.request)).1
    rw [List.take_length]
    exact hholds
  · intro id map body hlater hshown hgiven
    exact pages_read xxh64 isRfc3339 app v hq hplain hfirst hsends hmid hfinal hlater hshown hgiven

end Runs

variable {K : Type*} [Field K] [LinearOrder K] [FloorSemiring K] {app : App K}
  {db : ServerRuns.Database}

theorem lone_read (xxh64 : Text → UInt64) (isRfc3339 : Text → Bool) {s : State app db} {now : K}
    {t : Ticket K} {r : HttpRequest} {headers : HeaderMap} (call : Call) (hpassed : s.passed = [t])
    (hlayers : (app.layers s.isHealthy s.limiter now r).2 = .ok (.get headers map)) :
    let events : List (Event K) := [.arrive now r, .readDate 1, .execute 1 call, .reply 1]
    (serve (step xxh64 isRfc3339) s events).1.passed = [t, ⟨now, r⟩] ∧
      (serve (step xxh64 isRfc3339) s events).1.executed = s.executed ∧
      (.reply 1, Output.reply 1 (.get (handler xxh64 headers map (db.read s.table)))) ∈
        trace (step xxh64 isRfc3339) s events := by
  intro events
  obtain ⟨table, isHealthy, limiter, jobs, passed, executed⟩ := s
  subst hpassed
  have harrive : step xxh64 isRfc3339
    (⟨table, isHealthy, limiter, jobs, [t], executed⟩ : State app db) (.arrive now r) = _ :=
    arrive_started hlayers
  refine ⟨?_, ?_, ?_⟩
  · rw [serve_cons, harrive]
    rfl
  · rw [serve_cons, harrive]
    rfl
  · rw [trace_cons, harrive]
    exact List.mem_cons_of_mem _ (List.mem_cons_of_mem _ (List.mem_cons_of_mem _
      (List.mem_singleton_self _)))

theorem handler_fresh (xxh64 : Text → UInt64) {headers : HeaderMap} {store : Store}
    {rows : List NewsFeedRow} (hvalid : validateHeaders headers false = .ok ())
    (hfresh : headers.get "if-none-match" = none)
    (hrows : store.extractFeed (.fromMap map) = .ok rows) :
    ∃ etag, handler xxh64 headers map store = .ok etag (processed rows) := by
  have hno : ∀ etag, ifNoneMatch headers etag = false := by
    intro etag
    rw [ifNoneMatch, hfresh]
  have hskip : (dbEtag xxh64 (.fromMap map) store).filter (ifNoneMatch headers) = none := by
    rw [Option.filter_eq_none_iff]
    intro etag _
    rw [hno]
    exact Bool.false_ne_true
  unfold handler
  simp only [hvalid, hskip, hrows, hno, Bool.false_eq_true, ↓reduceIte]
  exact ⟨_, rfl⟩

def getHello : HttpRequest :=
  ⟨none, .get, newsfeedPath, ("x-api-key", ApiKeys.sampleValue) :: PostgresEtag.clientHeaders none,
    none, helloQuery, .error .missingJsonContentType⟩

def helloRead : List (Event ℚ) :=
  [.arrive 1 getHello, .readDate 1, .execute 1 PoolRuns.helloCall, .reply 1]

theorem getHello_layers : (PostgresReads.newsApp.layers true
      (PostgresReads.newsApp.layers true (TokenBucket.fresh PostgresReads.newsApp.limit) 0
        PoolRuns.postHello).1 1 getHello).2 = .ok (.get getHello.headers helloQuery) := by
  have houter : outerLayers true getHello = none :=
    outerLayers_none.mpr ⟨by decide +kernel, by decide, by simp [getHello]⟩
  exact PoolRuns.layers_of_key houter (by decide +kernel)
    (authenticated_of_key rfl (by decide) (by decide) List.mem_cons_self)

abbrev helloMid : State PostgresReads.newsApp (database sampleReading sampleVariables) :=
  PoolRuns.helloEnd (sampleReading.store sampleVariables)

abbrev helloFinal : State PostgresReads.newsApp (database sampleReading sampleVariables) :=
  (serve (step PostgresReads.newsXxh64 sampleRfc3339) helloMid helloRead).1

theorem helloMid_written :
    PoolRuns.Written sampleRfc3339 (PoolRuns.helloTable (sampleReading.store sampleVariables))
      helloMid 0 PoolRuns.postHello PoolRuns.helloInsertion :=
  PoolRuns.hello_written _

theorem hello_read :
    helloFinal.passed = [⟨0, PoolRuns.postHello⟩, ⟨1, getHello⟩] ∧
      helloFinal.executed = helloMid.executed ∧
      (.reply 1, Output.reply 1 (.get (handler PostgresReads.newsXxh64 getHello.headers helloQuery
        (sampleReading.store sampleVariables helloMid.table)))) ∈
          trace (step PostgresReads.newsXxh64 sampleRfc3339) helloMid helloRead := by
  have hwritten := helloMid_written
  have hlayers : (PostgresReads.newsApp.layers helloMid.isHealthy helloMid.limiter 1 getHello).2 =
      .ok (.get getHello.headers helloQuery) := by
    rw [hwritten.isHealthy, hwritten.limiter]
    exact getHello_layers
  exact lone_read PostgresReads.newsXxh64 sampleRfc3339 PoolRuns.helloCall hwritten.passed hlayers

theorem hello_sends : ∀ now r, Event.arrive now r ∈ PoolRuns.helloEvents ++ helloRead →
    PoolRuns.Sends {helloEntry} r := by
  intro now r hr
  rcases List.mem_append.mp hr with hr | hr
  · exact PoolRuns.helloEvents_send now r hr
  · have hget : now = 1 ∧ r = getHello := by simpa [helloRead] using hr
    intro body hbody
    rw [hget.2] at hbody
    cases hbody

theorem hello_answered : ∃ body : GetBody,
    Shown PostgresReads.newsApp (trace (step PostgresReads.newsXxh64 sampleRfc3339) helloMid
      helloRead) helloFinal.passed 1 helloQuery body := by
  obtain ⟨hpassed, _, hreply⟩ := hello_read
  have hfirst : sampleReading.db.Holds {helloEntry}
      (PoolRuns.helloTable (sampleReading.store sampleVariables)) [] :=
    nothing_holds samplePostgres _
  have hholds : sampleReading.db.Holds {helloEntry} helloMid.table
      (serve answerCud [] (helloMid.executed.map Execution.request)).1 :=
    (PoolRuns.run_holds PostgresReads.newsXxh64 sampleRfc3339 PostgresReads.newsApp
      (p := samplePostgres) PostgresStore.hello_faithful hfirst PoolRuns.helloEvents_send rfl).1
  have hextract := extractFeed_holds (q := sampleReading) PostgresStore.hello_faithful trivial
    hello_given sampleVariables hholds
  have hvalid : validateHeaders getHello.headers false = .ok () := by decide +kernel
  obtain ⟨etag, hanswer⟩ := handler_fresh PostgresReads.newsXxh64 hvalid rfl
    (show ((sampleReading.store sampleVariables) helloMid.table).extractFeed (.fromMap helloQuery) =
      .ok _ from congrArg (Except.mapError DbError.sql) hextract)
  rw [hanswer] at hreply
  exact ⟨_, ⟨_, etag, hreply⟩, ⟨1, getHello⟩, getHello.headers, by rw [hpassed]; rfl, rfl⟩

theorem hello_shown :
    ∃ body : GetBody,
      Shown PostgresReads.newsApp (trace (step PostgresReads.newsXxh64 sampleRfc3339) helloMid
        helloRead) helloFinal.passed 1 helloQuery body ∧
      ∃ found : Entry, found.title = "Hello".toList ∧
        body.result = [shown sampleReading.dateText found] := by
  obtain ⟨body, hshown⟩ := hello_answered
  have hkept : PoolRuns.NotDeleted helloFinal.executed 0 helloEntry.title := by
    rw [hello_read.2.1, helloMid_written.executed]
    exact PoolRuns.notDeleted_singleton _ _ _
  have hlater : helloMid.passed.length ≤ 1 := by
    rw [helloMid_written.passed]
    exact le_rfl
  exact ⟨body, hshown, acknowledged_insert_is_shown (q := sampleReading) PostgresReads.newsXxh64
    sampleRfc3339 PostgresReads.newsApp sampleVariables PostgresStore.hello_faithful trivial
    (nothing_holds samplePostgres _) hello_sends rfl rfl (PoolRuns.hello_acknowledged _) hlater
    hshown rfl rfl rfl rfl hello_given hkept⟩

theorem hello_implemented :
    helloFinal.executed.map Execution.response =
      (serve answerCud [] (helloFinal.executed.map Execution.request)).2 :=
  (server_implements_store (q := sampleReading) PostgresReads.newsXxh64 sampleRfc3339
    PostgresReads.newsApp sampleVariables PostgresStore.hello_faithful trivial
    (nothing_holds samplePostgres _) hello_sends rfl rfl).2.1

end PoolReads
