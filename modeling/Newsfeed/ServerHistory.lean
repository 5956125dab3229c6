import Newsfeed.ServerRuns

/-! # Histories of the server

What the clients were told, against the calls that the database carried out: the calls have
an order in which their answers and the table come out, and this order respects that of the
requests. How many of them one client can bring about is limited.
-/
namespace ServerRuns

open TextOperations JsonText FeedModels HttpHeaders IpAddresses IpExtractor TokenBucket RateLimit
open CudHandlers EtagCache Services FeedService Router

variable {K : Type*} [Field K] [LinearOrder K]

def ticketOf (x : Event K × Output) : Option (Ticket K) :=
  match x.1, x.2 with
  | .arrive now r, .started _ => some ⟨now, r⟩
  | _, _ => none

section Linear

variable (isRfc3339 : Text → Bool) (app : App K) {db : Database}

/-- The calls `executed`, one after the other, explain the history and the table. -/
structure Linearises (first : db.Table) (history : List (Event K × Output))
    (executed : List Execution) (table : db.Table) : Prop where
  serial : serve (db.serveCud isRfc3339) first (executed.map Execution.request) =
    (table, executed.map Execution.response)
  asked : ∀ x ∈ executed, ∃ t, (history.filterMap ticketOf)[x.id]? = some t ∧
    Authorised app t.request ∧
    newsfeedMethods t.request = .ok (.cud x.request.mode x.request.headers x.request.body)
  once : (executed.map Execution.id).Nodup
  truthful : ∀ e id response, (e, Output.reply id (.cud response)) ∈ history →
    response.statusCode < 400 → ∃ x ∈ executed, x.id = id ∧ x.response = response

structure Recorded (first : db.Table) (history : List (Event K × Output)) (s : State app db) :
    Prop where
  accounts : Accounts isRfc3339 first s
  passed : s.passed = history.filterMap ticketOf
  truthful : ∀ e id response, (e, Output.reply id (.cud response)) ∈ history →
    response.statusCode < 400 → ∃ x ∈ s.executed, x.id = id ∧ x.response = response

end Linear

section Runs

variable {xxh64 : Text → UInt64} {isRfc3339 : Text → Bool} {app : App K} {db : Database}
  {first : db.Table} {s s' : State app db} {e : Event K} {output : Output}

theorem Recorded.linearises {history : List (Event K × Output)}
    (h : Recorded isRfc3339 app first history s) :
    Linearises isRfc3339 app first history s.executed s.table where
  serial := h.accounts.serial
  once := h.accounts.once
  truthful := h.truthful
  asked := by
    intro x hx
    obtain ⟨t, ht, hasked⟩ := h.accounts.executed x hx
    exact ⟨t, h.passed ▸ ht, h.accounts.passed t (List.mem_of_getElem? ht), hasked⟩

variable (isRfc3339 app) in
theorem start_recorded (first : db.Table) :
    Recorded isRfc3339 app first [] (start app first) where
  accounts := by
    refine ⟨rfl, ?_, ?_, ?_, List.nodup_nil⟩
    · exact fun t ht => absurd ht List.not_mem_nil
    · intro id j hj
      cases hj
    · exact fun x hx => absurd hx List.not_mem_nil
  passed := rfl
  truthful := fun e id response hmem => absurd hmem List.not_mem_nil

variable [FloorSemiring K]

theorem Stepped.executed_grows (h : Stepped xxh64 isRfc3339 s e s' output) :
    ∃ later, s'.executed = s.executed ++ later := by
  cases h with
  | carriedOut request hworking hhandler => exact ⟨_, rfl⟩
  | _ => exact ⟨[], (List.append_nil _).symm⟩

theorem Stepped.passed_eq (h : Stepped xxh64 isRfc3339 s e s' output) :
    s'.passed = s.passed ++ [(e, output)].filterMap ticketOf := by
  cases h with
  | started hlayers hhandler hdate hanswer => rfl
  | nothing e _ => cases e <;> exact (List.append_nil s.passed).symm
  | _ => exact (List.append_nil s.passed).symm

/-- A success that is reported was carried out before. -/
theorem Stepped.truthful (h : Accounts isRfc3339 first s)
    (hstep : Stepped xxh64 isRfc3339 s e s' output) {id : ℕ} {response : CudResponse}
    (houtput : output = .reply id (.cud response))
    (hok : response.statusCode < 400) : ∃ x ∈ s.executed, x.id = id ∧ x.response = response := by
  cases hstep with
  | @replied k j answer hjob hanswer =>
    cases htimedOut : j.timedOut with
    | true =>
      rw [htimedOut] at houtput
      cases houtput
    | false =>
      rw [htimedOut] at houtput
      cases houtput
      exact (h.jobs id j hjob).truthful response hanswer hok
  | _ => cases houtput

variable (xxh64 isRfc3339)

variable (app) in
theorem step_recorded (first : db.Table) :
    Tracks (step xxh64 isRfc3339) (Recorded isRfc3339 app first) := by
  intro history s e h
  have hstep := stepped xxh64 isRfc3339 s e
  obtain ⟨later, hlater⟩ := hstep.executed_grows
  refine ⟨hstep.accounts h.accounts, ?_, ?_⟩
  · rw [hstep.passed_eq, h.passed, List.filterMap_append]
  · intro e' id response hmem hok
    rw [hlater]
    rcases List.mem_append.mp hmem with hmem | hmem
    · obtain ⟨x, hx, hid⟩ := h.truthful e' id response hmem hok
      exact ⟨x, List.mem_append_left _ hx, hid⟩
    · have houtput := (Prod.mk.inj (List.mem_singleton.mp hmem)).2
      obtain ⟨x, hx, hid⟩ := hstep.truthful h.accounts houtput.symm hok
      exact ⟨x, List.mem_append_left _ hx, hid⟩

theorem serve_executed_grows (s : State app db) (events : List (Event K)) :
    ∃ later, (serve (step xxh64 isRfc3339) s events).1.executed = s.executed ++ later := by
  have hgrows : Preserves (step xxh64 isRfc3339) fun s' : State app db =>
      ∃ later, s'.executed = s.executed ++ later := by
    rintro s' e ⟨past, hpast⟩
    obtain ⟨later, hlater⟩ := (stepped xxh64 isRfc3339 s' e).executed_grows
    exact ⟨past ++ later, by rw [hlater, hpast, List.append_assoc]⟩
  exact hgrows.serve ⟨[], (List.append_nil _).symm⟩ events

variable (app) in
theorem serve_recorded (first : db.Table) (events : List (Event K)) :
    Recorded isRfc3339 app first (trace (step xxh64 isRfc3339) (start app first) events)
      (serve (step xxh64 isRfc3339) (start app first) events).1 := by
  have hall := (step_recorded xxh64 isRfc3339 app first).serve
    (start_recorded isRfc3339 app first) events
  rwa [List.nil_append] at hall

variable (app) in
theorem arrived_of_passed (first : db.Table) (events : List (Event K)) :
    ∀ t ∈ (serve (step xxh64 isRfc3339) (start app first) events).1.passed,
      Event.arrive t.arrived t.request ∈ events := by
  intro t ht
  rw [(serve_recorded xxh64 isRfc3339 app first events).passed] at ht
  obtain ⟨⟨e, output⟩, hmem, hticket⟩ := List.mem_filterMap.mp ht
  have he := List.mem_map_of_mem (f := Prod.fst) hmem
  rw [trace_fst] at he
  cases e with
  | arrive now r =>
    cases output with
    | started id =>
      cases hticket
      exact he
    | _ => cases hticket
  | _ => cases hticket

end Runs

end ServerRuns
