import Mathlib.Data.Finset.Dedup
import Mathlib.Data.Finset.Lattice.Lemmas
import Mathlib.Data.List.Nodup

/-! # Repeated elements of a list

The positions whose element stands at an earlier position too, and the loop that
finds them with a set of the elements seen so far.
-/
namespace RepeatedElements

variable {α : Type*} [DecidableEq α]

/-- The elements that occur at an earlier position, in order. -/
def repeats (xs : List α) : List α :=
  (xs.zipIdx.filter fun p => p.1 ∈ xs.take p.2).map Prod.fst

/-- `seen.insert(x)` in a condition: an element that is new only enters the set. -/
def pushIfSeen (st : Finset α × List α) (x : α) : Finset α × List α :=
  if x ∈ st.1 then (st.1, st.2 ++ [x]) else (insert x st.1, st.2)

@[simp] theorem repeats_nil : repeats ([] : List α) = [] := rfl

theorem repeats_concat (xs : List α) (x : α) :
    repeats (xs ++ [x]) = repeats xs ++ if x ∈ xs then [x] else [] := by
  have hinit : (xs.zipIdx.filter fun p => p.1 ∈ (xs ++ [x]).take p.2) =
      xs.zipIdx.filter fun p => p.1 ∈ xs.take p.2 := by
    apply List.filter_congr
    intro p hp
    have hi : p.2 < xs.length := List.snd_lt_of_mem_zipIdx hp
    rw [List.take_append_of_le_length hi.le]
  unfold repeats
  rw [List.zipIdx_append, List.filter_append, List.map_append, hinit]
  by_cases hx : x ∈ xs <;> simp [hx]

theorem foldl_pushIfSeen (done rest : List α) :
    rest.foldl pushIfSeen (done.toFinset, repeats done) =
      ((done ++ rest).toFinset, repeats (done ++ rest)) := by
  induction rest generalizing done with
  | nil => rw [List.append_nil, List.foldl_nil]
  | cons x rest ih =>
    have hstep : pushIfSeen (done.toFinset, repeats done) x =
        ((done ++ [x]).toFinset, repeats (done ++ [x])) := by
      rw [repeats_concat, List.toFinset_append]
      by_cases hx : x ∈ done
      · simp [pushIfSeen, hx]
      · simp [pushIfSeen, hx]
    rw [List.foldl_cons, hstep, ih, List.append_assoc, List.singleton_append]

theorem repeats_eq_nil {xs : List α} : repeats xs = [] ↔ xs.Nodup := by
  induction xs using List.reverseRecOn with
  | nil => simp
  | append_singleton xs x ih =>
    rw [repeats_concat, List.append_eq_nil_iff, ih, ← List.concat_eq_append, List.nodup_concat]
    by_cases hx : x ∈ xs <;> simp [hx]

/-- An element that occurs `m` times is listed `m - 1` times. -/
theorem count_repeats [BEq α] [LawfulBEq α] (xs : List α) (a : α) : (repeats xs).count a =
    xs.count a - 1 := by
  induction xs using List.reverseRecOn with
  | nil => rfl
  | append_singleton xs x ih =>
    rw [repeats_concat, List.count_append, List.count_append, ih]
    by_cases hx : x ∈ xs
    · have hpos := List.count_pos_iff.mpr hx
      by_cases hxa : x = a
      · subst hxa
        simp only [hx, ↓reduceIte, List.count_singleton_self]
        omega
      · simp [hx, hxa]
    · by_cases hxa : x = a
      · subst hxa
        simp [hx, List.count_eq_zero_of_not_mem hx]
      · simp [hx, hxa]

end RepeatedElements
