import Mathlib.Data.List.Forall2
import Mathlib.Data.List.Zip

/-! # Services

A service answers requests one after another and keeps a state between them. What one
request preserves, a sequence preserves; what one request cannot tell apart, a sequence
cannot. Over arbitrary states, requests and answers.
-/
namespace Services

variable {σ σ' ρ ρ' α α' : Type*}

abbrev Service (σ ρ α : Type*) := σ → ρ → σ × α

/-- The state after a sequence of requests, and the answers. -/
def serve (s : Service σ ρ α) (st : σ) : List ρ → σ × List α
  | [] => (st, [])
  | r :: rs => ((serve s (s st r).1 rs).1, (s st r).2 :: (serve s (s st r).1 rs).2)

theorem serve_cons (s : Service σ ρ α) (st : σ) (r : ρ) (rs : List ρ) :
    serve s st (r :: rs) =
      ((serve s (s st r).1 rs).1, (s st r).2 :: (serve s (s st r).1 rs).2) := rfl

theorem serve_append (s : Service σ ρ α) (st : σ) (rs rs' : List ρ) :
    serve s st (rs ++ rs') =
      ((serve s (serve s st rs).1 rs').1,
        (serve s st rs).2 ++ (serve s (serve s st rs).1 rs').2) := by
  induction rs generalizing st with
  | nil => rfl
  | cons r rs ih => rw [List.cons_append, serve_cons, ih, serve_cons, List.cons_append]

theorem serve_length (s : Service σ ρ α) (st : σ) (rs : List ρ) :
    (serve s st rs).2.length = rs.length := by
  induction rs generalizing st with
  | nil => rfl
  | cons r rs ih => rw [serve_cons, List.length_cons, ih, List.length_cons]

def Preserves (s : Service σ ρ α) (I : σ → Prop) : Prop := ∀ st r, I st → I (s st r).1

theorem Preserves.serve {s : Service σ ρ α} {I : σ → Prop} (h : Preserves s I) {st : σ}
    (hst : I st) (rs : List ρ) : I (serve s st rs).1 := by
  induction rs generalizing st with
  | nil => exact hst
  | cons r rs ih => exact ih (h st r hst)

/-- The requests with their answers, in the order they came. -/
def trace (s : Service σ ρ α) (st : σ) : List ρ → List (ρ × α)
  | [] => []
  | r :: rs => (r, (s st r).2) :: trace s (s st r).1 rs

theorem trace_cons (s : Service σ ρ α) (st : σ) (r : ρ) (rs : List ρ) :
    trace s st (r :: rs) = (r, (s st r).2) :: trace s (s st r).1 rs := rfl

theorem trace_append (s : Service σ ρ α) (st : σ) (rs rs' : List ρ) :
    trace s st (rs ++ rs') = trace s st rs ++ trace s (serve s st rs).1 rs' := by
  induction rs generalizing st with
  | nil => rfl
  | cons r rs ih => rw [List.cons_append, trace_cons, ih, trace_cons, List.cons_append, serve_cons]

theorem trace_fst (s : Service σ ρ α) (st : σ) (rs : List ρ) :
    (trace s st rs).map Prod.fst = rs := by
  induction rs generalizing st with
  | nil => rfl
  | cons r rs ih => rw [trace_cons, List.map_cons, ih]

/-- What is known of a state and its history stays true as the history grows. -/
def Tracks (s : Service σ ρ α) (I : List (ρ × α) → σ → Prop) : Prop :=
  ∀ past st r, I past st → I (past ++ [(r, (s st r).2)]) (s st r).1

theorem Tracks.serve {s : Service σ ρ α} {I : List (ρ × α) → σ → Prop} (h : Tracks s I)
    {past : List (ρ × α)} {st : σ} (hst : I past st) (rs : List ρ) :
    I (past ++ trace s st rs) (serve s st rs).1 := by
  induction rs generalizing past st with
  | nil =>
    rw [trace, List.append_nil]
    exact hst
  | cons r rs ih =>
    have hrest := ih (h past st r hst)
    rwa [List.append_assoc, List.singleton_append] at hrest

/-- Related states stay related under related requests, whose answers are related too. -/
structure Simulates (s : Service σ ρ α) (s' : Service σ' ρ' α') (state : σ → σ' → Prop)
    (request : ρ → ρ' → Prop) (answer : α → α' → Prop) : Prop where
  step : ∀ st st' r r', state st st' → request r r' →
    state (s st r).1 (s' st' r').1 ∧ answer (s st r).2 (s' st' r').2

theorem Simulates.serve {s : Service σ ρ α} {s' : Service σ' ρ' α'} {state : σ → σ' → Prop}
    {request : ρ → ρ' → Prop} {answer : α → α' → Prop}
    (h : Simulates s s' state request answer) {st : σ} {st' : σ'} (hst : state st st')
    {rs : List ρ} {rs' : List ρ'} (hrs : List.Forall₂ request rs rs') :
    state (serve s st rs).1 (serve s' st' rs').1 ∧
      List.Forall₂ answer (serve s st rs).2 (serve s' st' rs').2 := by
  induction hrs generalizing st st' with
  | nil => exact ⟨hst, .nil⟩
  | cons hr _ ih =>
    obtain ⟨hstate, hanswer⟩ := h.step _ _ _ _ hst hr
    obtain ⟨hend, hanswers⟩ := ih hstate
    exact ⟨hend, .cons hanswer hanswers⟩

/-- A request that is repeated at once does not change the state any further. -/
def Settles (s : Service σ ρ α) (same : ρ → ρ → Prop) : Prop :=
  ∀ st r r', same r r' → (s (s st r).1 r').1 = (s st r).1

theorem Settles.serve_same {s : Service σ ρ α} {same : ρ → ρ → Prop} (h : Settles s same) (st : σ)
    {r : ρ} {rs : List ρ} (hrs : ∀ r' ∈ rs, same r r') :
    (serve s (s st r).1 rs).1 = (s st r).1 := by
  induction rs with
  | nil => rfl
  | cons r' rs ih =>
    rw [serve_cons, h st r r' (hrs r' List.mem_cons_self)]
    exact ih fun q hq => hrs q (List.mem_cons_of_mem r' hq)

/-- Each request of a sequence may be repeated any number of times before the next one. -/
theorem Settles.serve_repeated {s : Service σ ρ α} {same : ρ → ρ → Prop} (h : Settles s same)
    (st : σ) {requests : List (ρ × List ρ)} (hsame : ∀ x ∈ requests, ∀ r ∈ x.2, same x.1 r) :
    (serve s st (requests.flatMap fun x => x.1 :: x.2)).1 =
      (serve s st (requests.map Prod.fst)).1 := by
  induction requests generalizing st with
  | nil => rfl
  | cons x requests ih =>
    have hx := h.serve_same st (hsame x List.mem_cons_self)
    rw [List.flatMap_cons, serve_append, List.map_cons, serve_cons, serve_cons]
    dsimp only
    rw [hx]
    exact ih _ fun y hy => hsame y (List.mem_cons_of_mem x hy)

end Services
