import Newsfeed.PostgresReads

/-! # The server over a pool

On texts that the engine of the pool tells apart, the table holds in every run what the
calls, one after the other, make of the store, so what a client was told stays true.
-/
namespace PoolRuns

open TextOperations SqlLogic RelationalTables KeyedStore FeedModels HttpHeaders CudHandlers Services
open FeedStore FeedService FeedRuns Router ServerRuns

abbrev database (p : DbPool) (read : p.Table → EtagCache.Store) : Database where
  Table := p.Table
  engine := fun call => p.engine call
  read := read

variable {K : Type*} [Field K] [LinearOrder K] {p : DbPool} {read : p.Table → EtagCache.Store}
  {U : Set Entry} {es : List Entry} {app : App K}

def Sends (U : Set Entry) (r : HttpRequest) : Prop :=
  ∀ body, r.json = .ok body → ∀ item ∈ body.items, ∃ e ∈ U, Entry.ofItem item = some e

theorem within_of_sends {r : HttpRequest} (h : Sends U r) {request : CudRequest}
    (hasked : newsfeedMethods r = .ok (.cud request.mode request.headers request.body)) :
    request.Within U :=
  fun _ item hitem => h request.body (json_of_cud hasked) item hitem

theorem store_split (es : List Entry) (xs ys : List Execution) (x : Execution) :
    serve answerCud es ((xs ++ x :: ys).map Execution.request) =
      let found := (serve answerCud es (xs.map Execution.request)).1
      let rest := serve answerCud (answerCud found x.request).1 (ys.map Execution.request)
      (rest.1, (serve answerCud es (xs.map Execution.request)).2 ++
        (answerCud found x.request).2 :: rest.2) := by
  rw [List.map_append, List.map_cons, serve_append, serve_cons]

theorem answer_split {es : List Entry} {xs ys : List Execution} {x : Execution}
    (h : (xs ++ x :: ys).map Execution.response =
      (serve answerCud es ((xs ++ x :: ys).map Execution.request)).2) :
    x.response = (answerCud (serve answerCud es (xs.map Execution.request)).1 x.request).2 := by
  rw [store_split, List.map_append, List.map_cons] at h
  have hlength : (xs.map Execution.response).length =
      (serve answerCud es (xs.map Execution.request)).2.length := by
    rw [serve_length, List.length_map, List.length_map]
  exact (List.cons.inj (List.append_inj h hlength).2).1

theorem inserted_isSome {request : CudRequest} (hr : request.rejection = none)
    (hmode : request.mode = .insert) (es : List Entry) {e : Entry} (he : e ∈ request.batch) :
    (lookup Entry.title (answerCud es request).1 e.title).isSome = true := by
  have hstored : (answerCud es request).1 = changed Entry.title .insert request.batch es := by
    rw [answerCud, hr, hmode]
    rfl
  have hnew : (lookup Entry.title request.batch e.title).isSome = true := lookup_isSome_of_mem he
  rw [hstored, lookup_changed, cell, Option.isSome_or, hnew, Bool.or_true]

theorem kept_isSome {requests : List CudRequest} {title : Text}
    (h : ∀ r ∈ requests, r.mode = .delete → ∀ item ∈ r.body.items, item.title ≠ some title)
    {es : List Entry} (hfound : (lookup Entry.title es title).isSome = true) :
    (lookup Entry.title (serve answerCud es requests).1 title).isSome = true := by
  rw [serve_answerCud, lookup_run_about]
  refine kept_of_no_delete ?_ hfound
  intro step hstep hdelete
  obtain ⟨changes, hchanges, habout⟩ := List.mem_filterMap.mp hstep
  obtain ⟨r, hr, hrstep⟩ := List.mem_filterMap.mp hchanges
  obtain ⟨hnone, hchange⟩ := Option.ite_none_right_eq_some.mp hrstep
  obtain ⟨e, he, rfl⟩ := Option.map_eq_some_iff.mp habout
  cases hchange
  have hmode : r.mode = .delete := by
    cases hm : r.mode with
    | delete => rfl
    | insert =>
      rw [hm] at hdelete
      cases hdelete
    | update =>
      rw [hm] at hdelete
      cases hdelete
  obtain ⟨item, hitem, hof⟩ := List.mem_filterMap.mp (mem_of_lookup he)
  refine h r hr hmode item hitem ?_
  rw [← item_of_ofItem hof, ← key_of_lookup he]
  rfl

/-- The call inserts the entry, unless its title is taken. -/
structure Inserts (x : Execution) (entry : Entry) : Prop where
  accepted : x.request.rejection = none
  mode : x.request.mode = .insert
  batch : entry ∈ x.request.batch

theorem Inserts.kept {x : Execution} {entry : Entry} (h : Inserts x entry) (es : List Entry)
    (xs : List Execution) {ys : List Execution}
    (hkept : ∀ y ∈ ys, y.request.mode = .delete →
      ∀ item ∈ y.request.body.items, item.title ≠ some entry.title) :
    (lookup Entry.title (serve answerCud es ((xs ++ x :: ys).map Execution.request)).1
      entry.title).isSome = true := by
  rw [store_split]
  refine kept_isSome ?_ (inserted_isSome h.accepted h.mode _ h.batch)
  intro r hr
  obtain ⟨y, hy, rfl⟩ := List.mem_map.mp hr
  exact hkept y hy

section Runs

variable [FloorSemiring K] (xxh64 : Text → UInt64) (isRfc3339 : Text → Bool) (app : App K)
  (hp : p.Faithful U) {first : (database p read).Table} (hfirst : p.Holds U first es)
  {events : List (Event K)}
  (hsends : ∀ now r, Event.arrive now r ∈ events → Sends U r)

include hsends in
theorem executed_within {final : State app (database p read)}
    (hfinal : (serve (step xxh64 isRfc3339) (start app first) events).1 = final) :
    ∀ x ∈ final.executed, x.request.Within U := by
  have hrecorded := serve_recorded xxh64 isRfc3339 app first events
  rw [hfinal] at hrecorded
  intro x hx
  obtain ⟨t, ht, hasked⟩ := hrecorded.accounts.executed x hx
  have hpassed := List.mem_of_getElem? ht
  rw [← hfinal] at hpassed
  have harrived := arrived_of_passed xxh64 isRfc3339 app first events t hpassed
  exact within_of_sends (hsends _ _ harrived) hasked

include hp hfirst in
omit [FloorSemiring K] in
/-- After any number of calls the table holds what the calls make of the store. -/
theorem tableAfter_holds {executed : List Execution} (hwithin : ∀ x ∈ executed, x.request.Within U)
    (n : ℕ) :
    p.Holds U (tableAfter isRfc3339 first executed n)
      (serve answerCud es ((executed.take n).map Execution.request)).1 := by
  have hrequests : ∀ r ∈ (executed.take n).map Execution.request, r.Within U := by
    intro r hr
    obtain ⟨x, hx, rfl⟩ := List.mem_map.mp hr
    exact hwithin x (List.mem_of_mem_take hx)
  exact (serve_holds isRfc3339 hp hrequests hfirst).1

include hp hfirst hsends

/-- The table holds what the calls make of the store, and they are answered as the store
answers them. -/
theorem run_holds {final : State app (database p read)}
    (hfinal : (serve (step xxh64 isRfc3339) (start app first) events).1 = final) :
    p.Holds U final.table (serve answerCud es (final.executed.map Execution.request)).1 ∧
      final.executed.map Execution.response =
        (serve answerCud es (final.executed.map Execution.request)).2 := by
  have hwithin : ∀ r ∈ final.executed.map Execution.request, r.Within U := by
    intro r hr
    obtain ⟨x, hx, rfl⟩ := List.mem_map.mp hr
    exact executed_within xxh64 isRfc3339 app hsends hfinal x hx
  obtain ⟨hholds, hanswers⟩ := serve_holds isRfc3339 hp hwithin hfirst
  have hserial := (serve_recorded xxh64 isRfc3339 app first events).accounts.serial
  rw [hfinal] at hserial
  have hserve : serve ((database p read).serveCud isRfc3339) first
      (final.executed.map Execution.request) =
        serve (p.serveCud isRfc3339) first (final.executed.map Execution.request) := rfl
  rw [hserve] at hserial
  rw [hserial] at hholds hanswers
  exact ⟨hholds, hanswers⟩

/-- The client was told that the insertion of the entry was carried out. -/
structure Acknowledged (history : List (Event K × Output)) (passed : List (Ticket K)) (id : ℕ)
    (entry : Entry) : Prop where
  replied : ∃ e response, (e, Output.reply id (.cud response)) ∈ history ∧ response.statusCode < 400
  asked : ∃ t headers body item, passed[id]? = some t ∧
    newsfeedMethods t.request = .ok (.cud .insert headers body) ∧ item ∈ body.items ∧
    Entry.ofItem item = some entry

/-- No call after that of the request `id` deletes the title. -/
def NotDeleted (executed : List Execution) (id : ℕ) (title : Text) : Prop :=
  ∀ xs x ys, executed = xs ++ x :: ys → x.id = id → ∀ y ∈ ys, y.request.mode = .delete →
    ∀ item ∈ y.request.body.items, item.title ≠ some title

theorem acknowledged_carriedOut {final : State app (database p read)}
    (hfinal : (serve (step xxh64 isRfc3339) (start app first) events).1 = final) {id : ℕ}
    {entry : Entry}
    (hacknowledged : Acknowledged (trace (step xxh64 isRfc3339) (start app first) events)
      final.passed id entry) :
    ∃ xs x ys, final.executed = xs ++ x :: ys ∧ x.id = id ∧ Inserts x entry := by
  have hrecorded := serve_recorded xxh64 isRfc3339 app first events
  rw [hfinal] at hrecorded
  obtain ⟨e, response, hreply, hok⟩ := hacknowledged.replied
  obtain ⟨t, headers, body, item, ht, hasked, hitem, hentry⟩ := hacknowledged.asked
  obtain ⟨x, hx, hid, hresponse⟩ := hrecorded.truthful e id response hreply hok
  obtain ⟨u, hu, hcalled⟩ := hrecorded.accounts.executed x hx
  rw [hid, ht, Option.some.injEq] at hu
  rw [← hu, hasked] at hcalled
  obtain ⟨xs, ys, hsplit⟩ := List.append_of_mem hx
  obtain ⟨_, hanswers⟩ := run_holds xxh64 isRfc3339 app hp hfirst hsends hfinal
  rw [hsplit] at hanswers
  have hresponse' := answer_split hanswers
  have hmode : x.request.mode = .insert ∧ x.request.body = body := by
    rcases x with ⟨_, ⟨_, mode, _, _⟩, _⟩
    cases hcalled
    exact ⟨rfl, rfl⟩
  refine ⟨xs, x, ys, hsplit, hid, ?_, hmode.1, ?_⟩
  · cases hr : x.request.rejection with
    | none => rfl
    | some rejected =>
      have hfails := rejection_fails hr
      rw [answerCud, hr, hresponse] at hresponse'
      subst hresponse'
      omega
  · rw [CudRequest.batch, hmode.2]
    exact List.mem_filterMap.mpr ⟨item, hitem, hentry⟩

end Runs

section Alone

variable [FloorSemiring K] (xxh64 : Text → UInt64) (isRfc3339 : Text → Bool) {db : Database}
  (first : db.Table) {now : K} {r : HttpRequest} {mode : CudMode} {headers : HeaderMap}
  {body : CudPayload} (call : Call)

variable (app) in
theorem lone_write (hlayers : (app.layers true (TokenBucket.fresh app.limit) now r).2 =
      .ok (.cud mode headers body)) :
    trace (step xxh64 isRfc3339) (start app first) [.arrive now r, .execute 0 call, .reply 0] =
      [(.arrive now r, .started 0), (.execute 0 call, .silent),
        (.reply 0,
          .reply 0 (.cud (db.serveCud isRfc3339 first ⟨headers, mode, body, call⟩).2))] := by
  have harrive : step xxh64 isRfc3339 (start app first) (.arrive now r) = _ :=
    arrive_started (s := start app first) hlayers
  rw [trace_cons, harrive]
  rfl

structure Written (s : State app db) (now : K) (r : HttpRequest) (request : CudRequest) : Prop where
  passed : s.passed = [⟨now, r⟩]
  isHealthy : s.isHealthy = true
  limiter : s.limiter = (app.layers true (TokenBucket.fresh app.limit) now r).1
  executed : s.executed = [⟨0, request, (db.serveCud isRfc3339 first request).2⟩]

variable (app) in
theorem lone_write_state (hlayers : (app.layers true (TokenBucket.fresh app.limit) now r).2 =
      .ok (.cud mode headers body)) :
    Written isRfc3339 first
      (serve (step xxh64 isRfc3339) (start app first)
        [.arrive now r, .execute 0 call, .reply 0]).1 now r ⟨headers, mode, body, call⟩ := by
  have harrive : step xxh64 isRfc3339 (start app first) (.arrive now r) = _ :=
    arrive_started (s := start app first) hlayers
  rw [serve_cons, harrive]
  exact ⟨rfl, rfl, rfl, rfl⟩

end Alone

def postHello : HttpRequest :=
  ⟨none, .post, newsfeedPath, ("x-api-key", ApiKeys.sampleValue) :: PostgresRetries.jsonHeaders,
    none, PostgresEtag.noParams, .ok (CudPayload.single helloItem)⟩

def helloCall : Call := ⟨0, MariadbProcedures.newConnection⟩

def helloEvents : List (Event ℚ) := [.arrive 0 postHello, .execute 0 helloCall, .reply 0]

def helloInsertion : CudRequest :=
  ⟨postHello.headers, .insert, CudPayload.single helloItem, helloCall⟩

theorem layers_of_key {isHealthy : Bool} {limiter : TokenBucket.Limiter IpAddresses.IpAddr
    PostgresReads.newsApp.limit} {now : ℚ} {r : HttpRequest}
    (houter : outerLayers isHealthy r = none)
    (hadmitted :
      (TokenBucket.Limiter.request limiter (PostgresReads.newsApp.client r) now).1 = true)
    (hauthenticated : PostgresReads.newsApp.authenticated isHealthy r = newsfeedMethods r) :
    (PostgresReads.newsApp.layers isHealthy limiter now r).2 = newsfeedMethods r := by
  rw [App.layers, houter]
  exact (if_pos hadmitted).trans hauthenticated

theorem postHello_layers : (PostgresReads.newsApp.layers true
      (TokenBucket.fresh PostgresReads.newsApp.limit) 0 postHello).2 =
    .ok (.cud .insert postHello.headers (CudPayload.single helloItem)) := by
  have houter : outerLayers true postHello = none :=
    outerLayers_none.mpr ⟨by decide +kernel, by decide, by simp [postHello]⟩
  exact layers_of_key houter (by decide +kernel)
    (authenticated_of_key rfl (by decide) (by decide) List.mem_cons_self)

theorem helloInsertion_accepted : helloInsertion.rejection = none := by
  have hheaders : validateHeaders helloInsertion.headers true = .ok () := by decide +kernel
  exact rejection_none.mpr ⟨hheaders, rfl, by decide⟩

theorem helloInsertion_within : helloInsertion.Within {helloEntry} := by
  intro _ item hitem
  rw [List.mem_singleton.mp hitem]
  exact ⟨helloEntry, rfl, rfl⟩

theorem helloInsertion_succeeds :
    (samplePostgres.serveCud sampleRfc3339 (nothing samplePostgres) helloInsertion).2.statusCode <
      400 := by
  have hanswer := (serveCud_holds sampleRfc3339 (p := samplePostgres) PostgresStore.hello_faithful
    helloInsertion_within (nothing_holds samplePostgres _)).2
  rw [hanswer, answerCud, helloInsertion_accepted]
  decide +kernel

section Hello

variable (read : samplePostgres.Table → EtagCache.Store)

abbrev helloDatabase : Database := database samplePostgres read

abbrev helloTable : (helloDatabase read).Table := nothing samplePostgres

abbrev helloStart : State PostgresReads.newsApp (helloDatabase read) :=
  start PostgresReads.newsApp (helloTable read)

abbrev helloEnd : State PostgresReads.newsApp (helloDatabase read) :=
  (serve (step PostgresReads.newsXxh64 sampleRfc3339) (helloStart read) helloEvents).1

theorem hello_written :
    Written sampleRfc3339 (helloTable read) (helloEnd read) 0 postHello helloInsertion :=
  lone_write_state PostgresReads.newsApp PostgresReads.newsXxh64 sampleRfc3339 (helloTable read)
    helloCall postHello_layers

theorem hello_acknowledged :
    Acknowledged (trace (step PostgresReads.newsXxh64 sampleRfc3339) (helloStart read) helloEvents)
      (helloEnd read).passed 0 helloEntry := by
  have htrace := lone_write PostgresReads.newsApp PostgresReads.newsXxh64 sampleRfc3339
    (helloTable read) helloCall postHello_layers
  constructor
  · refine ⟨.reply 0, _, ?_, helloInsertion_succeeds⟩
    rw [helloEvents, htrace]
    exact List.mem_cons_of_mem _ (List.mem_cons_of_mem _ List.mem_cons_self)
  · refine ⟨⟨0, postHello⟩, postHello.headers, CudPayload.single helloItem, helloEntry.item, ?_,
      rfl, List.mem_cons_self, rfl⟩
    rw [(hello_written read).passed]
    rfl

theorem helloEvents_send : ∀ now r, Event.arrive now r ∈ helloEvents → Sends {helloEntry} r := by
  intro now r hr body hbody item hitem
  have hpost : now = 0 ∧ r = postHello := by simpa [helloEvents] using hr
  rw [hpost.2] at hbody
  cases hbody
  rw [List.mem_singleton.mp hitem]
  exact ⟨helloEntry, rfl, rfl⟩

theorem notDeleted_singleton (x : Execution) (id : ℕ) (title : Text) :
    NotDeleted [x] id title := by
  intro xs x' ys hsplit _ y hy
  have hlength := congrArg List.length hsplit
  simp only [List.length_append, List.length_cons, List.length_nil] at hlength
  have hnone : ys = [] := List.eq_nil_of_length_eq_zero (by omega)
  rw [hnone] at hy
  cases hy

end Hello

end PoolRuns
