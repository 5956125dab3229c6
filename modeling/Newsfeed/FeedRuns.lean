import Newsfeed.FeedService
import Newsfeed.PostgresRetries

/-! # What clients see of the store

Sequences of requests on any of the engines: the same answers from each, a batch in pieces,
a request sent again, and what is left under a title.
-/
namespace FeedRuns

open TextOperations SqlLogic RelationalTables KeyedStore Services FeedModels HttpHeaders
open CudHandlers FeedStore FeedService

variable {p q : DbPool} {r : CudRequest} {U : Set Entry} {es : List Entry}

def helloRequest (mode : CudMode) (now : ℤ) : CudRequest :=
  ⟨PostgresRetries.jsonHeaders, mode, CudPayload.single helloItem,
    ⟨now, MariadbProcedures.newConnection⟩⟩

theorem helloRequest_within (mode : CudMode) (now : ℤ) :
    (helloRequest mode now).Within {helloEntry} := by
  intro _ item hitem
  rw [List.mem_singleton.mp hitem]
  exact ⟨helloEntry, rfl, rfl⟩

theorem helloRequest_accepted (mode : CudMode) (now : ℤ) :
    (helloRequest mode now).rejection = none := by
  have hheaders : validateHeaders PostgresRetries.jsonHeaders true = .ok () := by decide +kernel
  refine rejection_none.mpr ⟨hheaders, rfl, ?_⟩
  intro item hitem
  rw [List.mem_singleton.mp hitem]
  cases mode <;> rfl

abbrev samplePostgres : DbPool := .postgres PostgresProcedures.sampleServer

abbrev sampleMariadb : DbPool := .mariadb .ascii

theorem no_rows (sv : PostgresProcedures.Server) :
    DistinctOn (PostgresProcedures.titleKey sv) [] := List.Pairwise.nil

def nothing : (p : DbPool) → p.Table
  | .postgres sv => ⟨[], no_rows sv⟩
  | .mariadb _ => []
  | .mssql _ => []

theorem nothing_holds (p : DbPool) (U : Set Entry) : p.Holds U (nothing p) [] := by
  cases p <;> exact ⟨.nil, .nil⟩

/-- The same requests, at other times and on other connections, are answered alike by any two
engines, and leave the same entries in them. -/
theorem engines_agree (isRfc3339 : Text → Bool) (hp : p.Faithful U) (hq : q.Faithful U)
    {requests requests' : List CudRequest} (hwithin : ∀ r ∈ requests, r.Within U)
    (hsame : List.Forall₂ SameRequest requests requests') {table : p.Table} {table' : q.Table}
    (h : p.Holds U table es) (h' : q.Holds U table' es) :
    (serve (p.serveCud isRfc3339) table requests).2 =
        (serve (q.serveCud isRfc3339) table' requests').2 ∧
      ∃ es', p.Holds U (serve (p.serveCud isRfc3339) table requests).1 es' ∧
        q.Holds U (serve (q.serveCud isRfc3339) table' requests').1 es' := by
  obtain ⟨hend, hanswers⟩ := serve_holds isRfc3339 hp hwithin h
  obtain ⟨hend', hanswers'⟩ := serve_holds isRfc3339 hq (within_same hsame hwithin) h'
  rw [serve_answerCud_same hsame] at hend' hanswers'
  exact ⟨hanswers.trans hanswers'.symm, _, hend, hend'⟩

theorem hello_alike :
    (serve (samplePostgres.serveCud sampleRfc3339) (nothing samplePostgres)
        [helloRequest .insert 0, helloRequest .delete 1]).2 =
      (serve (sampleMariadb.serveCud sampleRfc3339) (nothing sampleMariadb)
        [helloRequest .insert 5, helloRequest .delete 8]).2 := by
  have hwithin : ∀ r ∈ [helloRequest .insert 0, helloRequest .delete 1],
      r.Within {helloEntry} := by
    simp [helloRequest_within]
  have hsame : List.Forall₂ SameRequest [helloRequest .insert 0, helloRequest .delete 1]
      [helloRequest .insert 5, helloRequest .delete 8] :=
    .cons ⟨rfl, rfl, rfl⟩ (.cons ⟨rfl, rfl, rfl⟩ .nil)
  exact (engines_agree sampleRfc3339 (p := samplePostgres) (q := sampleMariadb)
    PostgresStore.hello_faithful MariadbStore.hello_faithful hwithin hsame
    (nothing_holds samplePostgres _) (nothing_holds sampleMariadb _)).1

/-- Nothing was left to do for any item. -/
structure OnlySkips (r : CudRequest) (answer : CudResponse) : Prop where
  ok : answer.statusCode = 200
  skipped : ∃ body, answer.body = .response body ∧ body.count = r.body.items.length ∧
    body.failedItems = [] ∧ ∀ result ∈ body.result, result.status = .skipped

theorem answerCud_settles : Settles answerCud SameRequest := by
  intro es r r' hsame
  rw [← hsame.answerCud]
  unfold answerCud
  cases r.rejection with
  | some response => rfl
  | none => exact changed_again (op r.mode) r.batch es

theorem statusRow_skipped {o : Outcome} (h : o.Skipped) :
    (statusRow o).result.status = .skipped := by
  rcases h with rfl | rfl <;> rfl

theorem answerCud_again (hr : r.rejection = none) (hwithin : r.Within U) (es : List Entry) :
    OnlySkips r (answerCud (answerCud es r).1 r).2 := by
  have hskipped : ∀ result ∈ results r.mode r.batch (stored r.mode r.batch es),
      result.status = .skipped := by
    intro result hresult
    obtain ⟨row, hrow, rfl⟩ := List.mem_map.mp hresult
    obtain ⟨o, ho, rfl⟩ := List.mem_map.mp hrow
    exact statusRow_skipped (outcomes_again (op r.mode) es (hwithin.distinct hr) o ho)
  have hlogic := handleCudLogic_of_no_error r.mode.optionMode fun result hresult => by
    rw [hskipped result hresult]
    exact CudStatus.noConfusion
  have hnone : ¬ (r.mode.optionMode = .insertFeed ∧
      ∃ result ∈ results r.mode r.batch (stored r.mode r.batch es), result.status = .success) := by
    rintro ⟨_, result, hresult, hsuccess⟩
    rw [hskipped result hresult] at hsuccess
    cases hsuccess
  rw [if_neg hnone] at hlogic
  have hagain : (answerCud (answerCud es r).1 r).2 =
      handleCudLogic (results r.mode r.batch (stored r.mode r.batch es)) r.mode.optionMode := by
    simp only [answerCud, hr]
  rw [hagain, hlogic]
  refine ⟨rfl, _, rfl, ?_, rfl, hskipped⟩
  rw [ApiResponse.success, results, List.length_map, statuses, List.length_map, outcomes,
    List.length_map, ← hwithin.items hr, List.length_map]

/-- A client that sends every request again until it hears an answer leaves the entries that
a client leaves that is heard at once, and every repeated answer reports nothing but skips. -/
theorem retries_leave_no_trace (isRfc3339 : Text → Bool) (hp : p.Faithful U)
    {requests : List (CudRequest × List CudRequest)} (hwithin : ∀ x ∈ requests, x.1.Within U)
    (hsame : ∀ x ∈ requests, ∀ r ∈ x.2, SameRequest x.1 r) {table : p.Table}
    (h : p.Holds U table es) :
    (∃ es', p.Holds U (serve (p.serveCud isRfc3339) table (requests.map Prod.fst)).1 es' ∧
        p.Holds U
          (serve (p.serveCud isRfc3339) table (requests.flatMap fun x => x.1 :: x.2)).1 es') ∧
      ∀ x ∈ requests, x.1.rejection = none →
        ∀ answer ∈ (serve (p.serveCud isRfc3339) table (x.1 :: x.2)).2.tail,
          OnlySkips x.1 answer := by
  have hcopies : ∀ x ∈ requests, ∀ r ∈ x.1 :: x.2, r.Within U := by
    intro x hx r hr
    rcases List.mem_cons.mp hr with rfl | hr
    · exact hwithin x hx
    · exact (hsame x hx r hr).within (hwithin x hx)
  constructor
  · have hfirst : ∀ r ∈ requests.map Prod.fst, r.Within U := by
      intro r hr
      obtain ⟨x, hx, rfl⟩ := List.mem_map.mp hr
      exact hwithin x hx
    have hall : ∀ r ∈ requests.flatMap fun x => x.1 :: x.2, r.Within U := by
      intro r hr
      obtain ⟨x, hx, hrx⟩ := List.mem_flatMap.mp hr
      exact hcopies x hx r hrx
    have hrepeated := (serve_holds isRfc3339 hp hall h).1
    rw [answerCud_settles.serve_repeated es hsame] at hrepeated
    exact ⟨_, (serve_holds isRfc3339 hp hfirst h).1, hrepeated⟩
  · intro x hx hnone answer hanswer
    rw [(serve_holds isRfc3339 hp (hcopies x hx) h).2, serve_cons, List.tail_cons] at hanswer
    have hagain : ∀ rs : List CudRequest, (∀ r ∈ rs, SameRequest x.1 r) →
        ∀ a ∈ (serve answerCud (answerCud es x.1).1 rs).2,
          a = (answerCud (answerCud es x.1).1 x.1).2 := by
      intro rs hrs
      induction rs with
      | nil => exact fun a ha => absurd ha List.not_mem_nil
      | cons r rs ih =>
        have hr := hrs r List.mem_cons_self
        intro a ha
        rw [serve_cons, answerCud_settles es x.1 r hr] at ha
        rcases List.mem_cons.mp ha with rfl | ha
        · rw [← hr.answerCud]
        · exact ih (fun q hq => hrs q (List.mem_cons_of_mem r hq)) a ha
    rw [hagain x.2 (hsame x hx) answer hanswer]
    exact answerCud_again hnone (hwithin x hx) es

theorem hello_repeated :
    ∃ answer, (serve (sampleMariadb.serveCud sampleRfc3339) (nothing sampleMariadb)
        [helloRequest .insert 0, helloRequest .insert 5]).2.tail = [answer] ∧
      OnlySkips (helloRequest .insert 0) answer := by
  have hsame : ∀ x ∈ [(helloRequest .insert 0, [helloRequest .insert 5])],
      ∀ r ∈ x.2, SameRequest x.1 r := by
    intro x hx r hr
    rw [List.mem_singleton.mp hx] at hr ⊢
    rw [List.mem_singleton.mp hr]
    exact ⟨rfl, rfl, rfl⟩
  have hwithin : ∀ x ∈ [(helloRequest .insert 0, [helloRequest .insert 5])],
      x.1.Within {helloEntry} := by
    intro x hx
    rw [List.mem_singleton.mp hx]
    exact helloRequest_within .insert 0
  have hquiet := (retries_leave_no_trace sampleRfc3339 (p := sampleMariadb)
    MariadbStore.hello_faithful hwithin hsame (nothing_holds sampleMariadb _)).2 _
    List.mem_cons_self (helloRequest_accepted .insert 0)
  rw [serve_cons, serve_cons, List.tail_cons] at hquiet ⊢
  exact ⟨_, rfl, hquiet _ (List.mem_singleton_self _)⟩

/-- What an accepted request does to the store. -/
def CudRequest.step (r : CudRequest) : Option (Op × List Entry) :=
  if r.rejection.isNone then some (op r.mode, r.batch) else none

/-- What a request does to the entry of one title, if anything. -/
def CudRequest.about (title : Text) (r : CudRequest) : Option (Op × Entry) :=
  (CudRequest.step r).bind (KeyedStore.about Entry.title title)

theorem serve_answerCud (requests : List CudRequest) (es : List Entry) :
    (serve answerCud es requests).1 = run Entry.title (requests.filterMap CudRequest.step) es := by
  induction requests generalizing es with
  | nil => rfl
  | cons r requests ih =>
    rw [serve_cons, ih, List.filterMap_cons]
    cases hr : r.rejection with
    | some response => simp only [answerCud, CudRequest.step, hr, Option.isNone_some,
        Bool.false_eq_true, ↓reduceIte]
    | none =>
      simp only [answerCud, CudRequest.step, hr, Option.isNone_none, ↓reduceIte]
      rfl

end FeedRuns
