import Newsfeed.FeedRuns
import Newsfeed.Router

/-! # The server

Requests arrive, use the database, are answered or time out, in any order that the clients,
the database and the clock bring about. A call of the procedure is one step, as the single
statement of PostgreSQL is; the two queries of a `GET` are two.
-/
namespace ServerRuns

open TextOperations JsonText FeedModels HttpHeaders IpAddresses IpExtractor TokenBucket RateLimit
open CudHandlers EtagCache Services FeedService Router

/-- The database behind the pool: what a call does, and what the queries of a `GET` read. -/
structure Database where
  Table : Type
  engine : Call → Engine Table
  read : Table → Store

/-- A request that reached its handler, and when it arrived. -/
structure Ticket (K : Type*) where
  arrived : K
  request : HttpRequest

/-- A handler at work. Until its date query succeeds it goes on without a date. -/
structure Job where
  handler : Handler
  date : Except DbError (Option Text)
  answer : Option Answer
  timedOut : Bool

def Job.withDate (j : Job) (date : Except DbError (Option Text)) : Job := { j with date := date }

def Job.finish (j : Job) (answer : Answer) : Job := { j with answer := some answer }

def Job.expire (j : Job) : Job := { j with timedOut := true }

/-- A procedure call that was carried out for the request `id`, and the handler's answer. -/
structure Execution where
  id : ℕ
  request : CudRequest
  response : CudResponse

variable {K : Type*} [Field K] [LinearOrder K]

/-- The requests that reached a handler are numbered as they came; `passed` and `executed` are
histories, which no step reads but for the number of the next request. -/
structure State (app : App K) (db : Database) where
  table : db.Table
  isHealthy : Bool
  limiter : Limiter IpAddr app.limit
  jobs : ℕ → Option Job
  passed : List (Ticket K)
  executed : List Execution

def start (app : App K) {db : Database} (table : db.Table) : State app db :=
  ⟨table, true, fresh app.limit, fun _ => none, [], []⟩

inductive Event (K : Type*) where
  | arrive (now : K) (r : HttpRequest)
  | readDate (id : ℕ)
  | execute (id : ℕ) (call : Call)
  | refuse (id : ℕ)
  | reply (id : ℕ)
  | expire (id : ℕ)
  | ping (isHealthy : Bool)

def Event.arrivedAt {K : Type*} : Event K → Option K
  | .arrive now _ => some now
  | _ => none

inductive Output where
  | silent
  | immediate (answer : Answer)
  | started (id : ℕ)
  | reply (id : ℕ) (answer : Answer)

namespace State

variable {app : App K} {db : Database} (s : State app db)

def working (id : ℕ) : Option Job := (s.jobs id).filter fun j => j.answer.isNone

def setJob (id : ℕ) (j : Option Job) : State app db :=
  { s with jobs := Function.update s.jobs id j }

end State

/-- A call that does not reach the database. -/
def unreachable (T : Type) : Engine T := ⟨fun _ _ table => (table, .error .cancelled)⟩

section Steps

variable (xxh64 : Text → UInt64) (isRfc3339 : Text → Bool) {app : App K} {db : Database}

def Database.serveCud (db : Database) : Service db.Table CudRequest CudResponse := fun table r =>
  processCud isRfc3339 (db.engine r.call) r.headers r.body r.mode.optionMode table

/-- The handler is done, with the date it has and what the database gives it now. -/
def execute (s : State app db) (id : ℕ) (j : Job) (call : Call) : State app db :=
  match j.handler with
  | .get headers query =>
    let answer := handler xxh64 headers query { db.read s.table with maxModifiedDate := j.date }
    s.setJob id (some (j.finish (.get answer)))
  | .cud mode headers body =>
    let request : CudRequest := ⟨headers, mode, body, call⟩
    let outcome := db.serveCud isRfc3339 s.table request
    { s.setJob id (some (j.finish (.cud outcome.2))) with
      table := outcome.1
      executed := s.executed ++ [⟨id, request, outcome.2⟩] }

/-- The pool gives the handler no connection. -/
def refuse (s : State app db) (id : ℕ) (j : Job) : State app db :=
  match j.handler with
  | .get headers query =>
    let answer := handler xxh64 headers query ⟨j.date, fun _ => .error (.sql .cancelled)⟩
    s.setJob id (some (j.finish (.get answer)))
  | .cud mode headers body =>
    let outcome := processCud isRfc3339 (unreachable db.Table) headers body mode.optionMode s.table
    s.setJob id (some (j.finish (.cud outcome.2)))

variable [FloorSemiring K]

def arrive (s : State app db) (now : K) (r : HttpRequest) : State app db × Output :=
  let outcome := app.layers s.isHealthy s.limiter now r
  match outcome.2 with
  | .error answer => ({ s with limiter := outcome.1 }, .immediate answer)
  | .ok handler =>
    let id := s.passed.length
    let job : Job := ⟨handler, .error (.sql .cancelled), none, false⟩
    ({ s.setJob id (some job) with
        limiter := outcome.1
        passed := s.passed ++ [⟨now, r⟩] }, .started id)

def step : Service (State app db) (Event K) Output := fun s e =>
  match e with
  | .arrive now r => arrive s now r
  | .readDate id =>
    match s.working id with
    | none => (s, .silent)
    | some j => (s.setJob id (some (j.withDate (db.read s.table).maxModifiedDate)), .silent)
  | .execute id call =>
    match s.working id with
    | none => (s, .silent)
    | some j => (execute xxh64 isRfc3339 s id j call, .silent)
  | .refuse id =>
    match s.working id with
    | none => (s, .silent)
    | some j => (refuse xxh64 isRfc3339 s id j, .silent)
  | .reply id =>
    match s.jobs id with
    | none => (s, .silent)
    | some j =>
      match j.answer with
      | none => (s, .silent)
      | some answer => (s.setJob id none, if j.timedOut then .silent else .reply id answer)
  | .expire id =>
    match s.jobs id with
    | none => (s, .silent)
    | some j =>
      -- a handler that timed out is dropped, but a call on its way may still be carried out
      if j.timedOut then (s, .silent)
      else (s.setJob id (some j.expire), .reply id (.plain 408))
  | .ping isHealthy => ({ s with isHealthy := isHealthy }, .silent)

inductive Stepped (s : State app db) : Event K → State app db → Output → Prop where
  | nothing (e : Event K) (h : e.arrivedAt = none) : Stepped s e s .silent
  | immediate {now : K} {r : HttpRequest} {answer : Answer}
      (h : (app.layers s.isHealthy s.limiter now r).2 = .error answer) :
      Stepped s (.arrive now r)
        { s with limiter := (app.layers s.isHealthy s.limiter now r).1 } (.immediate answer)
  | started {now : K} {r : HttpRequest} {handler : Handler} {job : Job}
      (h : (app.layers s.isHealthy s.limiter now r).2 = .ok handler)
      (hhandler : job.handler = handler) (hdate : job.date = .error (.sql .cancelled))
      (hanswer : job.answer = none) :
      Stepped s (.arrive now r)
        { s.setJob s.passed.length (some job) with
          limiter := (app.layers s.isHealthy s.limiter now r).1
          passed := s.passed ++ [⟨now, r⟩] } (.started s.passed.length)
  | dated {id : ℕ} {j : Job} (h : s.working id = some j) :
      Stepped s (.readDate id)
        (s.setJob id (some (j.withDate (db.read s.table).maxModifiedDate))) .silent
  | read {id : ℕ} {j : Job} {call : Call} {headers : HeaderMap} {query : Text → Option Text}
      (h : s.working id = some j) (hj : j.handler = .get headers query) :
      Stepped s (.execute id call)
        (s.setJob id (some (j.finish (.get
          (handler xxh64 headers query { db.read s.table with maxModifiedDate := j.date })))))
        .silent
  | carriedOut {id : ℕ} {j : Job} (request : CudRequest) (h : s.working id = some j)
      (hj : j.handler = .cud request.mode request.headers request.body) :
      Stepped s (.execute id request.call)
        { s.setJob id (some (j.finish (.cud (db.serveCud isRfc3339 s.table request).2))) with
          table := (db.serveCud isRfc3339 s.table request).1
          executed := s.executed ++ [⟨id, request, (db.serveCud isRfc3339 s.table request).2⟩] }
        .silent
  | unread {id : ℕ} {j : Job} {headers : HeaderMap} {query : Text → Option Text}
      (h : s.working id = some j) (hj : j.handler = .get headers query) :
      Stepped s (.refuse id)
        (s.setJob id (some (j.finish (.get
          (handler xxh64 headers query ⟨j.date, fun _ => .error (.sql .cancelled)⟩))))) .silent
  | refused {id : ℕ} {j : Job} {response : CudResponse} (h : s.working id = some j)
      (hfailed : 400 ≤ response.statusCode) :
      Stepped s (.refuse id) (s.setJob id (some (j.finish (.cud response)))) .silent
  | replied {id : ℕ} {j : Job} {answer : Answer} (h : s.jobs id = some j)
      (hanswer : j.answer = some answer) :
      Stepped s (.reply id) (s.setJob id none) (if j.timedOut then .silent else .reply id answer)
  | expired {id : ℕ} {j : Job} (h : s.jobs id = some j) :
      Stepped s (.expire id) (s.setJob id (some j.expire))
        (.reply id (.plain 408))
  | pinged (isHealthy : Bool) :
      Stepped s (.ping isHealthy) { s with isHealthy := isHealthy } .silent

theorem unreachable_fails {T : Type} (headers : HeaderMap) (body : CudPayload) (mode : OptionMode)
    (table : T) :
    400 ≤ (processCud isRfc3339 (unreachable T) headers body mode table).2.statusCode := by
  rcases processCud_cases isRfc3339 (unreachable T) headers body mode table with
    hrejected | ⟨_, ⟨e, _, hfailed⟩ | ⟨results, hresults, _⟩⟩
  · exact hrejected.1
  · rw [hfailed]
    show 400 ≤ 500
    decide
  · cases hresults

theorem arrive_immediate {s : State app db} {now : K} {r : HttpRequest} {answer : Answer}
    (h : (app.layers s.isHealthy s.limiter now r).2 = .error answer) :
    arrive s now r = ({ s with limiter := (app.layers s.isHealthy s.limiter now r).1 },
      .immediate answer) := by
  simp only [arrive, h]

theorem arrive_started {s : State app db} {now : K} {r : HttpRequest} {handler : Handler}
    (h : (app.layers s.isHealthy s.limiter now r).2 = .ok handler) :
    arrive s now r =
      ({ s.setJob s.passed.length (some ⟨handler, .error (.sql .cancelled), none, false⟩) with
          limiter := (app.layers s.isHealthy s.limiter now r).1
          passed := s.passed ++ [⟨now, r⟩] }, .started s.passed.length) := by
  simp only [arrive, h]

theorem stepped (s : State app db) (e : Event K) :
    Stepped xxh64 isRfc3339 s e (step xxh64 isRfc3339 s e).1 (step xxh64 isRfc3339 s e).2 := by
  cases e with
  | arrive now r =>
    simp only [step]
    cases hlayers : (app.layers s.isHealthy s.limiter now r).2 with
    | error answer =>
      rw [arrive_immediate hlayers]
      exact .immediate hlayers
    | ok handler =>
      rw [arrive_started hlayers]
      exact .started hlayers rfl rfl rfl
  | readDate id =>
    simp only [step]
    cases hworking : s.working id with
    | none => exact .nothing _ rfl
    | some j => exact .dated hworking
  | execute id call =>
    simp only [step]
    cases hworking : s.working id with
    | none => exact .nothing _ rfl
    | some j =>
      cases hhandler : j.handler with
      | get headers query =>
        simp only [execute, hhandler]
        exact .read hworking hhandler
      | cud mode headers body =>
        simp only [execute, hhandler]
        exact .carriedOut ⟨headers, mode, body, call⟩ hworking hhandler
  | refuse id =>
    simp only [step]
    cases hworking : s.working id with
    | none => exact .nothing _ rfl
    | some j =>
      cases hhandler : j.handler with
      | get headers query =>
        simp only [refuse, hhandler]
        exact .unread hworking hhandler
      | cud mode headers body =>
        simp only [refuse, hhandler]
        exact .refused hworking (unreachable_fails isRfc3339 headers body _ _)
  | reply id =>
    simp only [step]
    cases hjob : s.jobs id with
    | none => exact .nothing _ rfl
    | some j =>
      cases hanswer : j.answer with
      | none =>
        simp only [hanswer]
        exact .nothing _ rfl
      | some answer =>
        simp only [hanswer]
        exact .replied hjob hanswer
  | expire id =>
    simp only [step]
    cases hjob : s.jobs id with
    | none => exact .nothing _ rfl
    | some j =>
      cases htimedOut : j.timedOut with
      | true =>
        simp only [htimedOut, ↓reduceIte]
        exact .nothing _ rfl
      | false =>
        simp only [htimedOut, Bool.false_eq_true, ↓reduceIte]
        exact .expired hjob
  | ping isHealthy => exact .pinged isHealthy

omit [FloorSemiring K] in
theorem State.working_some {s : State app db} {id : ℕ} {j : Job} (h : s.working id = some j) :
    s.jobs id = some j ∧ j.answer = none := by
  obtain ⟨hjob, hnone⟩ := Option.filter_eq_some_iff.mp h
  exact ⟨hjob, Option.isNone_iff_eq_none.mp hnone⟩

/-- The job `j` of the request `id` is the one its request asked for, and what it is about to
answer was carried out. -/
structure JobAccounts (passed : List (Ticket K)) (executed : List Execution) (id : ℕ) (j : Job) :
    Prop where
  ticket : ∃ t, passed[id]? = some t ∧ newsfeedMethods t.request = .ok j.handler
  waiting : j.answer = none → id ∉ executed.map Execution.id
  truthful : ∀ response, j.answer = some (.cud response) → response.statusCode < 400 →
    ∃ x ∈ executed, x.id = id ∧ x.response = response

def CallAccounts (passed : List (Ticket K)) (x : Execution) : Prop :=
  ∃ t, passed[x.id]? = some t ∧
    newsfeedMethods t.request = .ok (.cud x.request.mode x.request.headers x.request.body)

/-- The table is what the calls so far make of the first table, one after the other. -/
structure Accounts (first : db.Table) (s : State app db) : Prop where
  serial : serve (db.serveCud isRfc3339) first (s.executed.map Execution.request) =
    (s.table, s.executed.map Execution.response)
  passed : ∀ t ∈ s.passed, Authorised app t.request
  jobs : ∀ id j, s.jobs id = some j → JobAccounts s.passed s.executed id j
  executed : ∀ x ∈ s.executed, CallAccounts s.passed x
  once : (s.executed.map Execution.id).Nodup

variable {xxh64 isRfc3339} {first : db.Table} {s s' : State app db} {e : Event K} {output : Output}

theorem getElem?_append_some {α : Type*} {xs : List α} {n : ℕ} {x : α} (h : xs[n]? = some x)
    (ys : List α) : (xs ++ ys)[n]? = some x := by
  rw [List.getElem?_append_left (List.getElem?_eq_some_iff.mp h).1, h]

omit [FloorSemiring K] in
theorem jobs_setJob (s : State app db) (id : ℕ) (j : Option Job) {k : ℕ} {i : Job}
    (h : (s.setJob id j).jobs k = some i) :
    (k = id ∧ j = some i) ∨ (k ≠ id ∧ s.jobs k = some i) := by
  have hjobs : (s.setJob id j).jobs = Function.update s.jobs id j := rfl
  rw [hjobs, Function.update_apply] at h
  by_cases hk : k = id
  · rw [if_pos hk] at h
    exact Or.inl ⟨hk, h⟩
  · rw [if_neg hk] at h
    exact Or.inr ⟨hk, h⟩

omit [FloorSemiring K] in
theorem Accounts.setJob (h : Accounts isRfc3339 first s) (id : ℕ) {j : Job}
    (hj : JobAccounts s.passed s.executed id j) :
    Accounts isRfc3339 first (s.setJob id (some j)) where
  serial := h.serial
  passed := h.passed
  executed := h.executed
  once := h.once
  jobs := by
    intro k i hi
    rcases jobs_setJob s id _ hi with ⟨rfl, hji⟩ | ⟨_, hi⟩
    · exact Option.some.inj hji ▸ hj
    · exact h.jobs k i hi

theorem Stepped.accounts (h : Accounts isRfc3339 first s)
    (hstep : Stepped xxh64 isRfc3339 s e s' output) : Accounts isRfc3339 first s' := by
  cases hstep with
  | nothing e _ => exact h
  | immediate hlayers => exact ⟨h.serial, h.passed, h.jobs, h.executed, h.once⟩
  | @started now r handler job hlayers hhandler hdate hanswer =>
    obtain ⟨hauthorised, _, hmethods, _⟩ := layers_ok hlayers
    have hgrown : ∀ {k : ℕ} {t : Ticket K}, s.passed[k]? = some t →
        (s.passed ++ [⟨now, r⟩])[k]? = some t := fun ht => getElem?_append_some ht _
    have hnew : s.passed.length ∉ s.executed.map Execution.id := by
      intro hmem
      obtain ⟨x, hx, hid⟩ := List.mem_map.mp hmem
      obtain ⟨t, ht, _⟩ := h.executed x hx
      have hlt := (List.getElem?_eq_some_iff.mp ht).1
      omega
    refine ⟨h.serial, ?_, ?_, ?_, h.once⟩
    · intro t ht
      rcases List.mem_append.mp ht with ht | ht
      · exact h.passed t ht
      · rw [List.mem_singleton.mp ht]
        exact hauthorised
    · intro k i hi
      rcases jobs_setJob s _ _ hi with ⟨rfl, hji⟩ | ⟨_, hi⟩
      · cases hji
        refine ⟨⟨⟨now, r⟩, List.getElem?_concat_length, hhandler ▸ hmethods⟩, fun _ => hnew, ?_⟩
        intro response hresponse
        rw [hanswer] at hresponse
        cases hresponse
      · obtain ⟨⟨t, ht, hasked⟩, hwaiting, htruthful⟩ := h.jobs k i hi
        exact ⟨⟨t, hgrown ht, hasked⟩, hwaiting, htruthful⟩
    · intro x hx
      obtain ⟨t, ht, hasked⟩ := h.executed x hx
      exact ⟨t, hgrown ht, hasked⟩
  | @dated id j hworking =>
    obtain ⟨hticket, hwaiting, htruthful⟩ := h.jobs id j (State.working_some hworking).1
    exact h.setJob id ⟨hticket, hwaiting, htruthful⟩
  | @read id j call headers query hworking hhandler =>
    have hticket := (h.jobs id j (State.working_some hworking).1).ticket
    refine h.setJob id ⟨hticket, fun hnone => ?_, fun response hresponse => ?_⟩
    · cases hnone
    · cases hresponse
  | @carriedOut id j request hworking hhandler =>
    obtain ⟨hjob, hnone⟩ := State.working_some hworking
    obtain ⟨hticket, hwaiting, _⟩ := h.jobs id j hjob
    have hid := hwaiting hnone
    refine ⟨?_, h.passed, ?_, ?_, ?_⟩
    · rw [List.map_append, serve_append, h.serial, List.map_append]
      rfl
    · intro k i hi
      rcases jobs_setJob s _ _ hi with ⟨rfl, hji⟩ | ⟨hk, hi⟩
      · cases hji
        refine ⟨hticket, fun hnone => ?_, fun response hresponse _ => ?_⟩
        · cases hnone
        · cases hresponse
          exact ⟨_, List.mem_append_right _ (List.mem_singleton_self _), rfl, rfl⟩
      · obtain ⟨hticket, hwaiting, htruthful⟩ := h.jobs k i hi
        refine ⟨hticket, fun hnone => ?_, fun response hresponse hok => ?_⟩
        · rw [List.map_append, List.mem_append, not_or]
          exact ⟨hwaiting hnone, fun hmem => hk (List.mem_singleton.mp hmem)⟩
        · obtain ⟨x, hx, hxid⟩ := htruthful response hresponse hok
          exact ⟨x, List.mem_append_left _ hx, hxid⟩
    · intro x hx
      rcases List.mem_append.mp hx with hx | hx
      · exact h.executed x hx
      · rw [List.mem_singleton.mp hx]
        obtain ⟨t, ht, hasked⟩ := hticket
        exact ⟨t, ht, hhandler ▸ hasked⟩
    · rw [List.map_append]
      refine List.nodup_append.mpr ⟨h.once, List.nodup_singleton _, fun a ha b hb hab => hid ?_⟩
      have hb : b = id := List.mem_singleton.mp hb
      rwa [hab, hb] at ha
  | @unread id j headers query hworking hhandler =>
    have hticket := (h.jobs id j (State.working_some hworking).1).ticket
    refine h.setJob id ⟨hticket, fun hnone => ?_, fun response hresponse => ?_⟩
    · cases hnone
    · cases hresponse
  | @refused id j response hworking hfailed =>
    have hticket := (h.jobs id j (State.working_some hworking).1).ticket
    refine h.setJob id ⟨hticket, fun hnone => ?_, fun response' hresponse hok => ?_⟩
    · cases hnone
    · cases hresponse
      omega
  | @replied id j answer hjob hanswer =>
    refine ⟨h.serial, h.passed, ?_, h.executed, h.once⟩
    intro k i hi
    rcases jobs_setJob s id _ hi with ⟨_, hnone⟩ | ⟨_, hi⟩
    · cases hnone
    · exact h.jobs k i hi
  | @expired id j hjob =>
    obtain ⟨hticket, hwaiting, htruthful⟩ := h.jobs id j hjob
    exact h.setJob id ⟨hticket, hwaiting, htruthful⟩
  | pinged isHealthy => exact ⟨h.serial, h.passed, h.jobs, h.executed, h.once⟩

end Steps

end ServerRuns
