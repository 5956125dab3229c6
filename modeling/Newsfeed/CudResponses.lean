import Newsfeed.CudHandlers

/-! # The response to a batch

`handle_cud_logic` as it runs: a loop over the status rows that pushes each onto
one of two lists, an envelope chosen by which lists are empty, and a status code
chosen by a second chain of tests over the same lists.
-/
namespace CudResponses

open FeedModels CudHandlers

structure Partition where
  successes : List CudResult
  failed : List (FailedItem CudParams)
  deriving DecidableEq, Repr

def failedItem (res : CudResult) : FailedItem CudParams := ⟨res.item.getD .default, res.message⟩

def Partition.push (p : Partition) (res : CudResult) : Partition :=
  match res.status with
  | .error => { p with failed := p.failed ++ [failedItem res] }
  | .success => { p with successes := p.successes ++ [res] }
  | .skipped => { p with successes := p.successes ++ [res] }

def partitionResults (results : List CudResult) : Partition :=
  results.foldl Partition.push ⟨[], []⟩

theorem push_error (p : Partition) {res : CudResult} (h : res.status = .error) :
    p.push res = ⟨p.successes, p.failed ++ [failedItem res]⟩ := by
  rw [Partition.push, h]

theorem push_other (p : Partition) {res : CudResult} (h : res.status ≠ .error) :
    p.push res = ⟨p.successes ++ [res], p.failed⟩ := by
  rw [Partition.push]
  cases hs : res.status with
  | error => exact absurd hs h
  | success => rfl
  | skipped => rfl

theorem foldl_push (p : Partition) (results : List CudResult) :
    results.foldl Partition.push p =
      ⟨p.successes ++ results.filter fun r => r.status != .error,
        p.failed ++ (results.filter fun r => r.status == .error).map failedItem⟩ := by
  induction results generalizing p with
  | nil => simp
  | cons r results ih =>
    rw [List.foldl_cons, ih]
    by_cases h : r.status = .error
    · simp [push_error p h, h]
    · simp [push_other p h, h]

theorem partitionResults_eq (results : List CudResult) :
    partitionResults results =
      ⟨results.filter fun r => r.status != .error,
        (results.filter fun r => r.status == .error).map failedItem⟩ := by
  rw [partitionResults, foldl_push, List.nil_append, List.nil_append]

def Partition.response (p : Partition) : ApiResponse CudResult CudParams :=
  if ¬ p.successes.isEmpty ∧ ¬ p.failed.isEmpty then
    .partialSuccess "Partial" p.successes p.failed
  else { (.success "Processed request" p.successes : ApiResponse CudResult CudParams) with
    failedItems := p.failed }

def statusCodeOf (response : ApiResponse CudResult CudParams) (mode : OptionMode)
    (allSkipped : Bool) : Nat :=
  if response.result.isEmpty ∧ ¬ response.failedItems.isEmpty then 400
  else if ¬ response.failedItems.isEmpty then 200
  else if mode = .insertFeed ∧ ¬ allSkipped then 201
  else 200

/-- The tests of `handle_cud_logic` in the order of the source. -/
def answerResults (results : List CudResult) (mode : OptionMode) : CudResponse :=
  let allSkipped := results.all fun r => r.status == .skipped
  let response := (partitionResults results).response
  ⟨statusCodeOf response mode allSkipped, .response response⟩

theorem response_result (p : Partition) : p.response.result = p.successes := by
  rw [Partition.response]
  split <;> rfl

theorem response_failedItems (p : Partition) : p.response.failedItems = p.failed := by
  rw [Partition.response]
  split <;> rfl

theorem response_count (p : Partition) : p.response.count = p.successes.length := by
  rw [Partition.response]
  split <;> rfl

theorem response_status (p : Partition) :
    p.response.status = if p.successes ≠ [] ∧ p.failed ≠ [] then "Partial" else "Success" := by
  rw [Partition.response]
  simp only [List.isEmpty_iff, ne_eq]
  split <;> rfl

/-- The handler that the requests are modelled with is the loop and its two chains. -/
theorem answerResults_eq (results : List CudResult) (mode : OptionMode) :
    answerResults results mode = handleCudLogic results mode := by
  simp only [answerResults, partitionResults_eq, Partition.response, statusCodeOf, handleCudLogic,
    List.isEmpty_iff, ne_eq]
  rfl

theorem filter_ne_error_eq_nil {results : List CudResult} :
    (results.filter fun r => r.status != .error) = [] ↔ ∀ r ∈ results, r.status = .error := by
  rw [List.filter_eq_nil_iff]
  apply forall₂_congr
  intro r _
  simp

theorem failed_eq_nil {results : List CudResult} :
    (partitionResults results).failed = [] ↔ ∀ r ∈ results, r.status ≠ .error := by
  rw [partitionResults_eq, List.map_eq_nil_iff, List.filter_eq_nil_iff]
  apply forall₂_congr
  intro r _
  simp

theorem successes_eq_nil {results : List CudResult} :
    (partitionResults results).successes = [] ↔ ∀ r ∈ results, r.status = .error := by
  rw [partitionResults_eq]
  exact filter_ne_error_eq_nil

/-- Every entry is an `Error`, and there is one. -/
def AllErrors (results : List CudResult) : Prop :=
  results ≠ [] ∧ ∀ r ∈ results, r.status = .error

instance (results : List CudResult) : Decidable (AllErrors results) :=
  inferInstanceAs (Decidable (_ ∧ _))

def Created (results : List CudResult) (mode : OptionMode) : Prop :=
  mode = .insertFeed ∧ (∀ r ∈ results, r.status ≠ .error) ∧ ∃ r ∈ results, r.status = .success

instance (results : List CudResult) (mode : OptionMode) : Decidable (Created results mode) :=
  inferInstanceAs (Decidable (_ ∧ _))

theorem allErrors_iff {results : List CudResult} :
    AllErrors results ↔
      (partitionResults results).successes = [] ∧ (partitionResults results).failed ≠ [] := by
  rw [successes_eq_nil, ne_eq, failed_eq_nil, AllErrors]
  constructor
  · intro h
    rcases h with ⟨hne, hall⟩
    apply And.intro hall
    intro hnone
    obtain ⟨r, hr⟩ := List.exists_mem_of_ne_nil results hne
    exact hnone r hr (hall r hr)
  · intro h
    rcases h with ⟨hall, hsome⟩
    refine ⟨?_, hall⟩
    intro hnil
    apply hsome
    intro r hr
    rw [hnil] at hr
    cases hr

/-- `all_skipped` holds of the empty list: a batch without errors is all skipped unless
an entry is a `Success`. -/
theorem allSkipped_iff {results : List CudResult} (h : ∀ r ∈ results, r.status ≠ .error) :
    (results.all fun r => r.status == .skipped) = true ↔ ¬ ∃ r ∈ results, r.status = .success := by
  rw [List.all_eq_true]
  push Not
  apply forall₂_congr
  intro r hr
  have hr' := h r hr
  cases hs : r.status with
  | error => exact absurd hs hr'
  | success => simp
  | skipped => simp

theorem statusCode_eq (results : List CudResult) (mode : OptionMode) :
    (answerResults results mode).statusCode =
      if AllErrors results then 400 else if Created results mode then 201 else 200 := by
  simp only [answerResults, statusCodeOf, response_result, response_failedItems, List.isEmpty_iff]
  by_cases hall : AllErrors results
  · rw [if_pos hall, if_pos (allErrors_iff.mp hall)]
  · rw [if_neg hall, if_neg (mt allErrors_iff.mpr hall)]
    by_cases hfailed : (partitionResults results).failed = []
    · have hnone := failed_eq_nil.mp hfailed
      have hcreated : mode = .insertFeed ∧
          ¬ (results.all fun r => r.status == .skipped) = true ↔ Created results mode := by
        rw [allSkipped_iff hnone, not_not, Created]
        apply and_congr_right
        intro _
        exact (and_iff_right hnone).symm
      rw [if_neg (not_not.mpr hfailed)]
      exact if_congr hcreated rfl rfl
    · have hsome := mt failed_eq_nil.mpr hfailed
      rw [if_pos hfailed, if_neg fun h => hsome h.2.1]

theorem not_created_of_allErrors {results : List CudResult} (h : AllErrors results)
    (mode : OptionMode) : ¬ Created results mode := by
  intro hcreated
  obtain ⟨r, hr, hs⟩ := hcreated.2.2
  exact hcreated.2.1 r hr (h.2 r hr)

/-- The response, which is the handler's (`answerResults_eq`), loses no entry: each is in
`Result` or answered for, in its place, by a failed item, and the status code is decided by
the three kinds of batch. -/
theorem answerResults_partitions (results : List CudResult) (mode : OptionMode) :
    ∃ body, (answerResults results mode).body = .response body ∧
      body.result = results.filter (fun r => r.status = .success ∨ r.status = .skipped) ∧
      List.Forall₂ (fun f r => f.reason = r.message ∧ f.item = r.item.getD .default)
        body.failedItems (results.filter fun r => r.status = .error) ∧
      body.count = body.result.length ∧
      ((answerResults results mode).statusCode = 400 ↔
        results ≠ [] ∧ ∀ r ∈ results, r.status = .error) ∧
      ((answerResults results mode).statusCode = 201 ↔
        mode = .insertFeed ∧ (∀ r ∈ results, r.status ≠ .error) ∧
          ∃ r ∈ results, r.status = .success) ∧
      ((answerResults results mode).statusCode = 200 ↔
        ¬ (results ≠ [] ∧ ∀ r ∈ results, r.status = .error) ∧
          ¬ (mode = .insertFeed ∧ (∀ r ∈ results, r.status ≠ .error) ∧
            ∃ r ∈ results, r.status = .success)) := by
  change ∃ body, _ ∧ _ ∧ _ ∧ _ ∧ (_ ↔ AllErrors results) ∧ (_ ↔ Created results mode) ∧
    (_ ↔ ¬ AllErrors results ∧ ¬ Created results mode)
  refine ⟨(partitionResults results).response, rfl, ?_, ?_, ?_, ?_⟩
  · rw [response_result, partitionResults_eq]
    apply List.filter_congr
    intro r _
    cases hs : r.status <;> simp
  · rw [response_failedItems, partitionResults_eq, List.forall₂_map_left_iff]
    have hfilter : (results.filter fun r => r.status == .error) =
        results.filter fun r => r.status = .error := by
      apply List.filter_congr
      intro r _
      cases r.status <;> rfl
    rw [hfilter]
    apply List.forall₂_same.mpr
    intro r _
    exact ⟨rfl, rfl⟩
  · rw [response_count, response_result]
  · rw [statusCode_eq]
    by_cases hall : AllErrors results
    · have hcreated := not_created_of_allErrors hall mode
      simp [hall, hcreated]
    · by_cases hcreated : Created results mode
      · simp [hall, hcreated]
      · simp [hall, hcreated]

/-- The envelope and the status code tell the client the same. -/
structure Consistent (statusCode : Nat) (body : ApiResponse CudResult CudParams) : Prop where
  success : body.status = "Success" ↔ body.failedItems = []
  partialSuccess : body.status = "Partial" ↔ body.result ≠ [] ∧ body.failedItems ≠ []
  clientError : 400 ≤ statusCode → statusCode < 500 → body.status ≠ "Success"

theorem status_of_failed_nil {p : Partition} (h : p.failed = []) :
    p.response.status = "Success" := by
  rw [response_status, if_neg]
  exact fun hboth => hboth.2 h

theorem consistent_of_not_allErrors {results : List CudResult} (mode : OptionMode)
    (h : ¬ AllErrors results) :
    Consistent (answerResults results mode).statusCode (partitionResults results).response := by
  have hboth := mt allErrors_iff.mpr h
  refine ⟨?_, ?_, ?_⟩
  · rw [response_failedItems]
    by_cases hfailed : (partitionResults results).failed = []
    · exact iff_of_true (status_of_failed_nil hfailed) hfailed
    · have hsome : (partitionResults results).successes ≠ [] := fun hnil => hboth ⟨hnil, hfailed⟩
      rw [response_status, if_pos ⟨hsome, hfailed⟩]
      exact iff_of_false (by decide) hfailed
  · rw [response_status, response_result, response_failedItems]
    by_cases hpartial : (partitionResults results).successes ≠ [] ∧
        (partitionResults results).failed ≠ []
    · rw [if_pos hpartial]
      exact iff_of_true rfl hpartial
    · rw [if_neg hpartial]
      exact iff_of_false (by decide) hpartial
  · intro hclient
    rw [statusCode_eq, if_neg h] at hclient
    by_cases hcreated : Created results mode
    · rw [if_pos hcreated] at hclient
      omega
    · rw [if_neg hcreated] at hclient
      omega

/-- Only a batch in which every entry failed is answered in contradiction to its status
code: the second branch of the envelope takes it for a success. -/
theorem consistent_iff (results : List CudResult) (mode : OptionMode) :
    Consistent (answerResults results mode).statusCode (partitionResults results).response ↔
      ¬ AllErrors results := by
  constructor
  · intro hconsistent hall
    have hparts := allErrors_iff.mp hall
    have hstatus : (partitionResults results).response.status = "Success" := by
      rw [response_status, if_neg]
      exact fun hboth => hboth.1 hparts.1
    have hnone := hconsistent.success.mp hstatus
    rw [response_failedItems] at hnone
    exact hparts.2 hnone
  · exact consistent_of_not_allErrors mode

theorem answerResults_consistent_iff (results : List CudResult) (mode : OptionMode) :
    (∃ body, (answerResults results mode).body = .response body ∧
        Consistent (answerResults results mode).statusCode body) ↔
      results = [] ∨ ∃ r ∈ results, r.status ≠ .error := by
  have hparts : ¬ AllErrors results ↔ results = [] ∨ ∃ r ∈ results, r.status ≠ .error := by
    rw [AllErrors, not_and_or, not_ne_iff]
    push Not
    rfl
  rw [← hparts, ← consistent_iff results mode]
  constructor
  · intro h
    obtain ⟨body, hbody, hconsistent⟩ := h
    cases hbody
    exact hconsistent
  · exact fun h => ⟨_, rfl, h⟩

/-- The only entry of the batch failed. -/
def failedBatch : List CudResult := [⟨.error, "Fail".toList, none⟩]

theorem failedBatch_inconsistent :
    ¬ ∃ body, (answerResults failedBatch .insertFeed).body = .response body ∧
      Consistent (answerResults failedBatch .insertFeed).statusCode body := by
  intro h
  obtain ⟨body, hbody, hconsistent⟩ := h
  cases hbody
  exact absurd rfl (hconsistent.clientError (by decide) (by decide))

end CudResponses
