import Newsfeed.ServerHistory

/-! # What a read of the server has seen

The two queries of a `GET` may see two states of the table. Both are states after some of
the calls, none older than the request, and the date is not newer than the page.
-/
namespace ServerRuns

open TextOperations JsonText FeedModels HttpHeaders IpAddresses IpExtractor TokenBucket RateLimit
open CudHandlers EtagCache Services FeedService Router

variable {K : Type*} [Field K] [LinearOrder K]

section Reads

variable (xxh64 : Text → UInt64) (isRfc3339 : Text → Bool) {app : App K} {db : Database}

def tableAfter (first : db.Table) (executed : List Execution) (n : ℕ) : db.Table :=
  (serve (db.serveCud isRfc3339) first ((executed.take n).map Execution.request)).1

/-- The date query failed, or it found the newest date after `low` to `high` calls. -/
def DateBetween (first : db.Table) (executed : List Execution) (low high : ℕ)
    (date : Except DbError (Option Text)) : Prop :=
  (∃ e, date = .error e) ∨ ∃ m, low ≤ m ∧ m ≤ high ∧
    date = (db.read (tableAfter isRfc3339 first executed m)).maxModifiedDate

/-- The page is that after at least `low` calls, and the date is not newer. -/
def ReadBetween (first : db.Table) (executed : List Execution) (low : ℕ) (store : Store) : Prop :=
  ∃ n, low ≤ n ∧ n ≤ executed.length ∧
    DateBetween isRfc3339 first executed low n store.maxModifiedDate ∧
    ((∃ e, store.extractFeed = fun _ => .error e) ∨
      store.extractFeed = (db.read (tableAfter isRfc3339 first executed n)).extractFeed)

structure JobReads (first : db.Table) (executed : List Execution) (low : ℕ) (j : Job) : Prop where
  date : DateBetween isRfc3339 first executed low executed.length j.date
  answer : ∀ body, j.answer = some (.get body) → ∃ headers query store,
    j.handler = .get headers query ∧ body = handler xxh64 headers query store ∧
      ReadBetween isRfc3339 first executed low store

/-- The answer to a `GET` that passed. -/
def AnswersRead (first : db.Table) (passed : List (Ticket K)) (executed : List Execution)
    (low id : ℕ) (body : GetResponse) : Prop :=
  ∃ t headers query store, passed[id]? = some t ∧
    newsfeedMethods t.request = .ok (.get headers query) ∧
    body = handler xxh64 headers query store ∧ ReadBetween isRfc3339 first executed low store

variable (app) in
/-- The requests from `floor` on came when at least `low` calls were carried out. -/
structure ReadsRecorded (first : db.Table) (floor low : ℕ) (history : List (Event K × Output))
    (s : State app db) : Prop where
  accounts : Accounts isRfc3339 first s
  grown : low ≤ s.executed.length
  jobs : ∀ id j, floor ≤ id → s.jobs id = some j → JobReads xxh64 isRfc3339 first s.executed low j
  replies : ∀ e id body, floor ≤ id → (e, Output.reply id (.get body)) ∈ history →
    AnswersRead xxh64 isRfc3339 first s.passed s.executed low id body

variable {xxh64 isRfc3339} {first : db.Table} {executed : List Execution} {low high id : ℕ}

theorem tableAfter_append {n : ℕ} (h : n ≤ executed.length) (later : List Execution) :
    tableAfter isRfc3339 first (executed ++ later) n = tableAfter isRfc3339 first executed n := by
  rw [tableAfter, List.take_append_of_le_length h, tableAfter]

theorem tableAfter_all (first : db.Table) (executed : List Execution) :
    tableAfter isRfc3339 first executed executed.length =
      (serve (db.serveCud isRfc3339) first (executed.map Execution.request)).1 := by
  rw [tableAfter, List.take_length]

theorem Accounts.table {s : State app db} (h : Accounts isRfc3339 first s) :
    tableAfter isRfc3339 first s.executed s.executed.length = s.table := by
  rw [tableAfter_all, h.serial]

theorem DateBetween.append {date : Except DbError (Option Text)}
    (h : DateBetween isRfc3339 first executed low high date) (hhigh : high ≤ executed.length)
    (later : List Execution) : DateBetween isRfc3339 first (executed ++ later) low high date := by
  rcases h with hfailed | ⟨m, hlow, hm, hdate⟩
  · exact Or.inl hfailed
  · rw [← tableAfter_append (hm.trans hhigh) later] at hdate
    exact Or.inr ⟨m, hlow, hm, hdate⟩

theorem DateBetween.mono {date : Except DbError (Option Text)} {low' high' : ℕ}
    (h : DateBetween isRfc3339 first executed low high date) (hlow : low' ≤ low)
    (hhigh : high ≤ high') : DateBetween isRfc3339 first executed low' high' date := by
  rcases h with hfailed | ⟨m, hm, hm', hdate⟩
  · exact Or.inl hfailed
  · exact Or.inr ⟨m, hlow.trans hm, hm'.trans hhigh, hdate⟩

theorem ReadBetween.append {store : Store} (h : ReadBetween isRfc3339 first executed low store)
    (later : List Execution) : ReadBetween isRfc3339 first (executed ++ later) low store := by
  obtain ⟨n, hlow, hn, hdate, hpage⟩ := h
  rw [← tableAfter_append hn later] at hpage
  exact ⟨n, hlow, hn.trans (List.length_append ▸ Nat.le_add_right _ _), hdate.append hn later,
    hpage⟩

theorem ReadBetween.mono {store : Store} {low' : ℕ}
    (h : ReadBetween isRfc3339 first executed low store) (hlow : low' ≤ low) :
    ReadBetween isRfc3339 first executed low' store := by
  obtain ⟨n, hn, hlen, hdate, hpage⟩ := h
  exact ⟨n, hlow.trans hn, hlen, hdate.mono hlow le_rfl, hpage⟩

theorem JobReads.append {j : Job} (h : JobReads xxh64 isRfc3339 first executed low j)
    (later : List Execution) : JobReads xxh64 isRfc3339 first (executed ++ later) low j where
  date := by
    rw [List.length_append]
    exact (h.date.append le_rfl later).mono le_rfl (Nat.le_add_right _ _)
  answer := by
    intro body hbody
    obtain ⟨headers, query, store, hhandler, hanswer, hread⟩ := h.answer body hbody
    exact ⟨headers, query, store, hhandler, hanswer, hread.append later⟩

omit [Field K] [LinearOrder K] in
theorem AnswersRead.append {passed : List (Ticket K)} {body : GetResponse}
    (h : AnswersRead xxh64 isRfc3339 first passed executed low id body) (tickets : List (Ticket K))
    (later : List Execution) :
    AnswersRead xxh64 isRfc3339 first (passed ++ tickets) (executed ++ later) low id body := by
  obtain ⟨t, headers, query, store, ht, hasked, hanswer, hread⟩ := h
  exact ⟨t, headers, query, store, getElem?_append_some ht tickets, hasked, hanswer,
    hread.append later⟩

variable [FloorSemiring K] {s s' : State app db} {e : Event K} {output : Output}

theorem Stepped.jobReads (haccounts : Accounts isRfc3339 first s) (hgrown : low ≤ s.executed.length)
    (hjobs : ∀ id j, high ≤ id → s.jobs id = some j →
      JobReads xxh64 isRfc3339 first s.executed low j)
    (hstep : Stepped xxh64 isRfc3339 s e s' output) :
    ∀ id j, high ≤ id → s'.jobs id = some j → JobReads xxh64 isRfc3339 first s'.executed low j := by
  have hset : ∀ (id : ℕ) (i : Job),
      (high ≤ id → JobReads xxh64 isRfc3339 first s.executed low i) →
      ∀ k j, high ≤ k → (s.setJob id (some i)).jobs k = some j →
        JobReads xxh64 isRfc3339 first s.executed low j := by
    intro id i hi k j hk hj
    rcases jobs_setJob s id _ hj with ⟨rfl, hij⟩ | ⟨_, hj⟩
    · exact Option.some.inj hij ▸ hi hk
    · exact hjobs k j hk hj
  cases hstep with
  | nothing e _ => exact hjobs
  | immediate hlayers => exact hjobs
  | @started now r handler job hlayers hhandler hdate hanswer =>
    refine hset s.passed.length job fun _ => ⟨hdate ▸ Or.inl ⟨_, rfl⟩, fun body hbody => ?_⟩
    rw [hanswer] at hbody
    cases hbody
  | @dated id j hworking =>
    have hjob := (State.working_some hworking).1
    refine hset id _ fun hid => ⟨?_, (hjobs id j hid hjob).answer⟩
    exact Or.inr ⟨s.executed.length, hgrown, le_rfl, by rw [haccounts.table]; rfl⟩
  | @read id j call headers query hworking hhandler =>
    have hjob := (State.working_some hworking).1
    refine hset id _ fun hid => ⟨(hjobs id j hid hjob).date, fun body hbody => ?_⟩
    cases hbody
    refine ⟨headers, query, _, hhandler, rfl, s.executed.length, hgrown, le_rfl,
      (hjobs id j hid hjob).date, Or.inr ?_⟩
    rw [haccounts.table]
  | @unread id j headers query hworking hhandler =>
    have hjob := (State.working_some hworking).1
    refine hset id _ fun hid => ⟨(hjobs id j hid hjob).date, fun body hbody => ?_⟩
    cases hbody
    exact ⟨headers, query, _, hhandler, rfl, s.executed.length, hgrown, le_rfl,
      (hjobs id j hid hjob).date, Or.inl ⟨_, rfl⟩⟩
  | @carriedOut id j request hworking hhandler =>
    intro k i hk hi
    have hjob := (State.working_some hworking).1
    refine JobReads.append ?_ _
    refine hset id (j.finish (.cud (db.serveCud isRfc3339 s.table request).2))
      (fun hid => ⟨(hjobs id j hid hjob).date, fun body hbody => ?_⟩) k i hk hi
    cases hbody
  | @refused id j response hworking hfailed =>
    have hjob := (State.working_some hworking).1
    refine hset id _ fun hid => ⟨(hjobs id j hid hjob).date, fun body hbody => ?_⟩
    cases hbody
  | @replied id j answer hjob hanswer =>
    intro k i hk hi
    rcases jobs_setJob s id _ hi with ⟨_, hnone⟩ | ⟨_, hi⟩
    · cases hnone
    · exact hjobs k i hk hi
  | @expired id j hjob =>
    exact hset id _ fun hid => ⟨(hjobs id j hid hjob).date, (hjobs id j hid hjob).answer⟩
  | pinged isHealthy => exact hjobs

theorem Stepped.replies_read (haccounts : Accounts isRfc3339 first s)
    (hjobs : ∀ id j, high ≤ id → s.jobs id = some j →
      JobReads xxh64 isRfc3339 first s.executed low j)
    (hstep : Stepped xxh64 isRfc3339 s e s' output) {body : GetResponse} (hid : high ≤ id)
    (houtput : output = .reply id (.get body)) :
    AnswersRead xxh64 isRfc3339 first s.passed s.executed low id body := by
  cases hstep with
  | @replied k j answer hjob hanswer =>
    cases htimedOut : j.timedOut with
    | true =>
      rw [htimedOut] at houtput
      cases houtput
    | false =>
      rw [htimedOut] at houtput
      cases houtput
      obtain ⟨t, ht, hasked⟩ := (haccounts.jobs id j hjob).ticket
      obtain ⟨headers, query, store, hhandler, hbody, hread⟩ :=
        (hjobs id j hid hjob).answer body hanswer
      exact ⟨t, headers, query, store, ht, hhandler ▸ hasked, hbody, hread⟩
  | _ => cases houtput

variable (xxh64 isRfc3339)

variable (app) in
theorem step_readsRecorded (first : db.Table) (floor low : ℕ) :
    Tracks (step xxh64 isRfc3339) (ReadsRecorded xxh64 isRfc3339 app first floor low) := by
  intro history s e h
  have hstep := stepped xxh64 isRfc3339 s e
  obtain ⟨later, hlater⟩ := hstep.executed_grows
  have hpassed := hstep.passed_eq
  refine ⟨hstep.accounts h.accounts, ?_, hstep.jobReads h.accounts h.grown h.jobs, ?_⟩
  · rw [hlater, List.length_append]
    exact h.grown.trans (Nat.le_add_right _ _)
  · intro e' id body hid hmem
    rw [hlater, hpassed]
    refine AnswersRead.append ?_ _ _
    rcases List.mem_append.mp hmem with hmem | hmem
    · exact h.replies e' id body hid hmem
    · have houtput := (Prod.mk.inj (List.mem_singleton.mp hmem)).2
      exact hstep.replies_read h.accounts h.jobs hid houtput.symm

variable (app) in
/-- Whatever the other clients do, the answer to a `GET` is made of a page and a date that the
table had while the `GET` was under way, first the date and then the page. -/
theorem reads_between (first : db.Table) (before after : List (Event K)) (e : Event K) {id : ℕ}
    {body : GetResponse}
    (hid : (serve (step xxh64 isRfc3339) (start app first) before).1.passed.length ≤ id)
    (hreply : (e, Output.reply id (.get body)) ∈ trace (step xxh64 isRfc3339)
      (serve (step xxh64 isRfc3339) (start app first) before).1 after) :
    AnswersRead xxh64 isRfc3339 first
      (serve (step xxh64 isRfc3339) (start app first) (before ++ after)).1.passed
      (serve (step xxh64 isRfc3339) (start app first) (before ++ after)).1.executed
      (serve (step xxh64 isRfc3339) (start app first) before).1.executed.length id body := by
  have haccounts := (serve_recorded xxh64 isRfc3339 app first before).accounts
  rw [serve_append]
  generalize (serve (step xxh64 isRfc3339) (start app first) before).1 = mid at *
  have hstart : ReadsRecorded xxh64 isRfc3339 app first mid.passed.length mid.executed.length []
      mid := by
    refine ⟨haccounts, le_rfl, ?_, fun e id body _ hmem => absurd hmem List.not_mem_nil⟩
    intro k j hk hj
    obtain ⟨t, ht, _⟩ := (haccounts.jobs k j hj).ticket
    exact absurd (List.getElem?_eq_some_iff.mp ht).1 (Nat.not_lt.mpr hk)
  have hend := (step_readsRecorded xxh64 isRfc3339 app first mid.passed.length
    mid.executed.length).serve hstart after
  rw [List.nil_append] at hend
  exact hend.replies e id body hid hreply

variable (app) in
/-- In every run the calls that were carried out, one after the other, explain all answers to
writes, and each read lies between two of them. At any moment the later calls belong to later
in this order, and a request that comes after it reads nothing older. -/
theorem requests_linearise (first : db.Table) (before after : List (Event K)) :
    ∃ executed later : List Execution,
      Linearises isRfc3339 app first (trace (step xxh64 isRfc3339) (start app first) before)
        executed (serve (step xxh64 isRfc3339) (start app first) before).1.table ∧
      Linearises isRfc3339 app first
        (trace (step xxh64 isRfc3339) (start app first) (before ++ after)) (executed ++ later)
        (serve (step xxh64 isRfc3339) (start app first) (before ++ after)).1.table ∧
      ∀ e id body, ((trace (step xxh64 isRfc3339) (start app first) before).filterMap
          ticketOf).length ≤ id →
        (e, Output.reply id (.get body)) ∈
          trace (step xxh64 isRfc3339) (start app first) (before ++ after) →
        AnswersRead xxh64 isRfc3339 first
          ((trace (step xxh64 isRfc3339) (start app first) (before ++ after)).filterMap ticketOf)
          (executed ++ later) executed.length id body := by
  obtain ⟨later, hlater⟩ := serve_executed_grows xxh64 isRfc3339
    (serve (step xxh64 isRfc3339) (start app first) before).1 after
  have hbefore := serve_recorded xxh64 isRfc3339 app first before
  have hall := serve_recorded xxh64 isRfc3339 app first (before ++ after)
  have hexecuted : (serve (step xxh64 isRfc3339) (start app first) (before ++ after)).1.executed =
      (serve (step xxh64 isRfc3339) (start app first) before).1.executed ++ later := by
    rw [serve_append, hlater]
  refine ⟨_, later, hbefore.linearises, hexecuted ▸ hall.linearises, ?_⟩
  intro e id body hid hreply
  rw [← hbefore.passed] at hid
  rw [← hall.passed, ← hexecuted]
  rw [trace_append] at hreply
  rcases List.mem_append.mp hreply with hreply | hreply
  · have hearly := reads_between xxh64 isRfc3339 app first [] before e (Nat.zero_le id) hreply
    rw [List.nil_append] at hearly
    obtain ⟨t, _, _, _, ht, _⟩ := hearly
    exact absurd (List.getElem?_eq_some_iff.mp ht).1 (Nat.not_lt.mpr hid)
  · exact reads_between xxh64 isRfc3339 app first before after e hid hreply

end Reads

end ServerRuns
