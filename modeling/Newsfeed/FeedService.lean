import Newsfeed.PostgresStore
import Newsfeed.MariadbStore
import Newsfeed.MssqlStore

/-! # One service over three engines

The driver of the configured pool carries out what `process_cud` accepts. On texts that an
engine tells apart, every sequence of requests is answered as the store answers it, so a
client cannot see which engine it talks to.
-/
namespace FeedService

open TextOperations SqlLogic RelationalTables KeyedStore Services FeedModels HttpHeaders
open CudHandlers FeedStore

/-- The active pool, by what the server behind it compares and converts texts with. -/
inductive DbPool where
  | postgres (sv : PostgresProcedures.Server)
  | mariadb (coll : Collation)
  | mssql (sv : MssqlProcedures.Server)

def DbPool.Table : DbPool → Type
  | .postgres sv => PostgresProcedures.Newsfeed sv
  | .mariadb _ => List MariadbProcedures.Row
  | .mssql _ => List MssqlProcedures.Row

/-- What a call meets: the server's clock, and the connection the pool hands out. -/
structure Call where
  now : ℤ
  connection : MariadbProcedures.Connection

def DbPool.engine (call : Call) : (p : DbPool) → Engine p.Table
  | .postgres sv => PostgresProcedures.postgres sv call.now
  | .mariadb coll => MariadbProcedures.mariadb coll call.now call.connection
  | .mssql sv => MssqlProcedures.mssql sv call.now

structure CudRequest where
  headers : HeaderMap
  mode : CudMode
  body : CudPayload
  call : Call

section Service

variable (isRfc3339 : Text → Bool)

def DbPool.serveCud (p : DbPool) : Service p.Table CudRequest CudResponse := fun table r =>
  processCud isRfc3339 (p.engine r.call) r.headers r.body r.mode.optionMode table

end Service

/-- What `process_cud` answers before it calls the database. -/
def CudRequest.rejection (r : CudRequest) : Option CudResponse :=
  match validateHeaders r.headers true with
  | .error e =>
    let statusCode := match e with
      | .unsupportedContentType _ => 415
      | .invalidHeader _ => 400
    some (.failure statusCode "INVALID_HEADER" e.toText)
  | .ok () =>
    match checkDuplicates r.body.items with
    | .error message => some (.failure 422 "DUPLICATE_TITLES" message)
    | .ok () =>
      match forM r.body.items fun item => validateRequiredFields item r.mode.optionMode with
      | .error response => some ⟨422, .error response⟩
      | .ok () => none

def CudRequest.batch (r : CudRequest) : List Entry := entries r.body.items

/-- The store needs neither a clock nor connections. -/
def answerCud : Service (List Entry) CudRequest CudResponse := fun es r =>
  match r.rejection with
  | some response => (es, response)
  | none => (stored r.mode r.batch es, handleCudLogic (results r.mode r.batch es) r.mode.optionMode)

variable {p q : DbPool} {r : CudRequest} {U : Set Entry} {es : List Entry}

theorem rejection_none : r.rejection = none ↔
    validateHeaders r.headers true = .ok () ∧ Accepts r.body r.mode.optionMode := by
  unfold CudRequest.rejection
  constructor
  · intro h
    split at h
    · cases h
    next hheaders =>
    split at h
    · cases h
    next hduplicates =>
    split at h
    · cases h
    next hrequired =>
    exact ⟨hheaders, hduplicates, FallibleOperations.forM_ok.mp hrequired⟩
  · intro h
    rw [h.1, h.2.duplicates, FallibleOperations.forM_ok.mpr h.2.required]

theorem rejection_fails {response : CudResponse} (h : r.rejection = some response) :
    400 ≤ response.statusCode := by
  unfold CudRequest.rejection at h
  split at h
  · next e _ =>
    rw [← Option.some.inj h]
    cases e <;> simp [CudResponse.failure]
  split at h
  · rw [← Option.some.inj h]
    simp [CudResponse.failure]
  split at h
  · rw [← Option.some.inj h]
    simp
  · cases h

theorem processCud_of_rejection {T : Type} (isRfc3339 : Text → Bool) (engine : Engine T)
    {response : CudResponse} (h : r.rejection = some response) (table : T) :
    processCud isRfc3339 engine r.headers r.body r.mode.optionMode table = (table, response) := by
  unfold CudRequest.rejection at h
  unfold processCud
  cases hheaders : validateHeaders r.headers true with
  | error e =>
    rw [hheaders] at h
    exact congrArg (Prod.mk table) (Option.some.inj h)
  | ok u =>
    cases hduplicates : checkDuplicates r.body.items with
    | error message =>
      rw [hheaders, hduplicates] at h
      exact congrArg (Prod.mk table) (Option.some.inj h)
    | ok u' =>
      cases hrequired : forM r.body.items fun item =>
          validateRequiredFields item r.mode.optionMode with
      | error response' =>
        rw [hheaders, hduplicates, hrequired] at h
        exact congrArg (Prod.mk table) (Option.some.inj h)
      | ok u'' =>
        rw [hheaders, hduplicates, hrequired] at h
        cases h

theorem processCud_of_call {T : Type} (isRfc3339 : Text → Bool) (engine : Engine T)
    (hr : r.rejection = none) {table : T} {results : List CudResult}
    (h : (cudFeed isRfc3339 engine r.mode.optionMode r.body.items table).2 = .ok results) :
    processCud isRfc3339 engine r.headers r.body r.mode.optionMode table =
      ((cudFeed isRfc3339 engine r.mode.optionMode r.body.items table).1,
        handleCudLogic results r.mode.optionMode) := by
  obtain ⟨hheaders, haccepts⟩ := rejection_none.mp hr
  exact processCud_of_results isRfc3339 engine hheaders haccepts h

/-- The engine takes the entries in use and tells their texts apart. -/
def DbPool.Faithful (U : Set Entry) : DbPool → Prop
  | .postgres sv => PostgresStore.Faithful sv U
  | .mariadb coll => MariadbStore.Faithful coll U
  | .mssql sv => MssqlStore.Faithful sv U

def DbPool.Holds (U : Set Entry) : (p : DbPool) → p.Table → List Entry → Prop
  | .postgres sv, table, es => FeedStore.Holds (PostgresStore.Represents sv) U table.rows es
  | .mariadb _, rows, es => FeedStore.Holds MariadbStore.Represents U rows es
  | .mssql sv, rows, es => FeedStore.Holds (MssqlStore.Represents sv) U rows es

theorem DbPool.Holds.unique (hp : p.Faithful U) {table : p.Table} {es' : List Entry}
    (h : p.Holds U table es) (h' : p.Holds U table es') : es = es' := by
  cases p with
  | postgres sv =>
    exact FeedStore.Holds.unique (fun r e f => PostgresStore.stands_unique hp) h h'
  | mariadb coll => exact FeedStore.Holds.unique (fun r e f => MariadbStore.stands_unique) h h'
  | mssql sv => exact FeedStore.Holds.unique (fun r e f => MssqlStore.stands_unique hp) h h'

theorem DbPool.Holds.titles {table : p.Table} (h : p.Holds U table es) :
    DistinctOn Entry.title es := by
  cases p with
  | postgres sv => exact FeedStore.Holds.titles h
  | mariadb coll => exact FeedStore.Holds.titles h
  | mssql sv => exact FeedStore.Holds.titles h

theorem DbPool.Holds.mem {table : p.Table} (h : p.Holds U table es) {e : Entry} (he : e ∈ es) :
    e ∈ U := by
  cases p with
  | postgres sv => exact FeedStore.Holds.mem h he
  | mariadb coll => exact FeedStore.Holds.mem h he
  | mssql sv => exact FeedStore.Holds.mem h he

theorem DbPool.cudFeed_holds (isRfc3339 : Text → Bool) (hp : p.Faithful U) (call : Call)
    (mode : CudMode) {batch : List Entry} {table : p.Table} (hbatch : ∀ e ∈ batch, e ∈ U)
    (hfew : batch.length ≤ maxBatchItems) (hkeys : DistinctOn Entry.title batch)
    (h : p.Holds U table es) :
    p.Holds U
        (cudFeed isRfc3339 (p.engine call) mode.optionMode (batch.map Entry.item) table).1
        (stored mode batch es) ∧
      (cudFeed isRfc3339 (p.engine call) mode.optionMode (batch.map Entry.item) table).2 =
        .ok (results mode batch es) := by
  cases p with
  | postgres sv =>
    exact PostgresStore.cudFeed_holds hp isRfc3339 call.now mode hbatch hkeys h
  | mariadb coll =>
    exact MariadbStore.cudFeed_holds hp isRfc3339 call.now call.connection mode hbatch hfew hkeys h
  | mssql sv =>
    exact MssqlStore.cudFeed_holds hp isRfc3339 call.now mode hbatch hkeys h

/-- What an accepted request sends are entries in use. -/
def CudRequest.Within (U : Set Entry) (r : CudRequest) : Prop :=
  r.rejection = none → ∀ item ∈ r.body.items, ∃ e ∈ U, Entry.ofItem item = some e

theorem CudRequest.Within.items (h : r.Within U) (hr : r.rejection = none) :
    r.batch.map Entry.item = r.body.items := by
  refine items_entries fun item hitem => ?_
  obtain ⟨e, _, he⟩ := h hr item hitem
  exact ⟨e, he⟩

theorem CudRequest.Within.mem (h : r.Within U) (hr : r.rejection = none) :
    ∀ e ∈ r.batch, e ∈ U := by
  intro e he
  obtain ⟨item, hitem, hof⟩ := List.mem_filterMap.mp he
  obtain ⟨f, hf, hfof⟩ := h hr item hitem
  rw [hof, Option.some.injEq] at hfof
  exact hfof ▸ hf

theorem CudRequest.Within.distinct (h : r.Within U) (hr : r.rejection = none) :
    DistinctOn Entry.title r.batch :=
  distinct_of_accepts (h.items hr).symm (rejection_none.mp hr).2

theorem CudRequest.batch_length (r : CudRequest) : r.batch.length ≤ maxBatchItems :=
  (List.length_filterMap_le _ _).trans r.body.bounded

/-- A request is answered as the store answers it, and the table holds what the store holds. -/
theorem serveCud_holds (isRfc3339 : Text → Bool) (hp : p.Faithful U) (hr : r.Within U)
    {table : p.Table} (h : p.Holds U table es) :
    p.Holds U (p.serveCud isRfc3339 table r).1 (answerCud es r).1 ∧
      (p.serveCud isRfc3339 table r).2 = (answerCud es r).2 := by
  unfold DbPool.serveCud answerCud
  cases hrejection : r.rejection with
  | some response =>
    rw [processCud_of_rejection isRfc3339 _ hrejection]
    exact ⟨h, rfl⟩
  | none =>
    obtain ⟨hholds, hresults⟩ := DbPool.cudFeed_holds isRfc3339 hp r.call r.mode
      (hr.mem hrejection) r.batch_length (hr.distinct hrejection) h
    rw [hr.items hrejection] at hholds hresults
    rw [processCud_of_call isRfc3339 _ hrejection hresults]
    exact ⟨hholds, rfl⟩

/-- Requests that say the same, at whatever time and on whatever connection. -/
structure SameRequest (r r' : CudRequest) : Prop where
  headers : r.headers = r'.headers
  mode : r.mode = r'.mode
  body : r.body = r'.body

theorem SameRequest.refl (r : CudRequest) : SameRequest r r := ⟨rfl, rfl, rfl⟩

theorem SameRequest.answerCud {r r' : CudRequest} (h : SameRequest r r') (es : List Entry) :
    answerCud es r = answerCud es r' := by
  unfold FeedService.answerCud CudRequest.rejection CudRequest.batch
  rw [h.headers, h.mode, h.body]

theorem SameRequest.within {r r' : CudRequest} (h : SameRequest r r') (hr : r.Within U) :
    r'.Within U := by
  unfold CudRequest.Within CudRequest.rejection at hr ⊢
  rwa [← h.headers, ← h.mode, ← h.body]

theorem serve_answerCud_same {requests requests' : List CudRequest}
    (h : List.Forall₂ SameRequest requests requests') (es : List Entry) :
    serve answerCud es requests' = serve answerCud es requests := by
  induction h generalizing es with
  | nil => rfl
  | cons hr _ ih => rw [serve_cons, serve_cons, ← hr.answerCud, ih]

theorem within_same {requests requests' : List CudRequest}
    (h : List.Forall₂ SameRequest requests requests') (hwithin : ∀ r ∈ requests, r.Within U) :
    ∀ r' ∈ requests', r'.Within U := by
  intro r' hr'
  obtain ⟨r, hr, hrr'⟩ := FallibleOperations.forall₂_right h hr'
  exact hrr'.within (hwithin r hr)

theorem serveCud_simulates (isRfc3339 : Text → Bool) (hp : p.Faithful U) :
    Simulates (p.serveCud isRfc3339) answerCud (p.Holds U)
      (fun r r' => r.Within U ∧ SameRequest r r') Eq where
  step := by
    intro table es r r' h hr
    obtain ⟨hwithin, hsame⟩ := hr
    rw [← hsame.answerCud es]
    exact serveCud_holds isRfc3339 hp hwithin h

/-- A sequence of requests does what it does to the store. -/
theorem serve_holds (isRfc3339 : Text → Bool) (hp : p.Faithful U) {requests : List CudRequest}
    (hwithin : ∀ r ∈ requests, r.Within U) {table : p.Table} (h : p.Holds U table es) :
    p.Holds U (serve (p.serveCud isRfc3339) table requests).1 (serve answerCud es requests).1 ∧
      (serve (p.serveCud isRfc3339) table requests).2 = (serve answerCud es requests).2 := by
  obtain ⟨hend, hanswers⟩ := (serveCud_simulates isRfc3339 hp).serve h
    (List.forall₂_same.mpr fun r hr => ⟨hwithin r hr, SameRequest.refl r⟩)
  exact ⟨hend, List.forall₂_eq_eq_eq ▸ hanswers⟩

end FeedService
