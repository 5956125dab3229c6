import Newsfeed.CudHandlers
import Newsfeed.RepeatedElements

/-! # Duplicate titles of a batch

`check_duplicates` as the source writes it, a set of the titles seen and a list of the
duplicates, against the titles that occur at an earlier position.
-/
namespace DuplicateTitles

open TextOperations FeedModels CudHandlers RepeatedElements

/-- `if let Some(ref title) = item.title && !seen.insert(title.clone())`. -/
def pushTitle (st : Finset Text × List Text) (item : CudParams) : Finset Text × List Text :=
  match item.title with
  | none => st
  | some title => pushIfSeen st title

def duplicates (items : List CudParams) : List Text := (items.foldl pushTitle (∅, [])).2

theorem duplicates_eq (items : List CudParams) :
    duplicates items = repeats (items.filterMap CudParams.title) := by
  have hfold : items.foldl pushTitle (∅, []) =
      (items.filterMap CudParams.title).foldl pushIfSeen (∅, []) := by
    rw [List.foldl_filterMap]
    congr 1
    funext st item
    unfold pushTitle
    cases item.title <;> rfl
  have hloop := foldl_pushIfSeen [] (items.filterMap CudParams.title)
  rw [List.toFinset_nil, repeats_nil, List.nil_append] at hloop
  rw [duplicates, hfold, hloop]

theorem repeats_append_titles (done seen : List Text) (items : List CudParams)
    (hseen : ∀ t, t ∈ seen ↔ t ∈ done) :
    repeats (done ++ items.filterMap CudParams.title) =
      repeats done ++ duplicateTitles seen items := by
  induction items generalizing done seen with
  | nil => rw [List.filterMap_nil, List.append_nil, duplicateTitles, List.append_nil]
  | cons item items ih =>
    cases ht : item.title with
    | none => rw [List.filterMap_cons_none ht, ih done seen hseen, duplicateTitles, ht]
    | some t =>
      rw [List.filterMap_cons_some ht, List.append_cons, duplicateTitles, ht]
      by_cases hmem : t ∈ seen
      · have hdone := (hseen t).mp hmem
        have hrest := ih (done ++ [t]) seen (by simp [hseen, hdone])
        rw [hrest, repeats_concat, if_pos hdone, List.append_assoc]
        simp only [hmem, ↓reduceIte, List.singleton_append]
      · have hdone : t ∉ done := fun h => hmem ((hseen t).mpr h)
        have hrest := ih (done ++ [t]) (t :: seen) (by simp [hseen, or_comm])
        rw [hrest, repeats_concat, if_neg hdone, List.append_nil]
        simp only [hmem, ↓reduceIte]

theorem duplicateTitles_eq (items : List CudParams) :
    duplicateTitles [] items = duplicates items := by
  have h := repeats_append_titles [] [] items fun _ => Iff.rfl
  rw [List.nil_append, repeats_nil, List.nil_append] at h
  rw [duplicates_eq, h]

/-- The check is exact: it passes pairwise different titles, and otherwise lists, in order,
every title that an earlier item has, so `m - 1` times a title that `m` items have. -/
theorem checkDuplicates_exact (items : List CudParams) :
    checkDuplicates items =
      (if (items.filterMap CudParams.title).Nodup then .ok ()
      else .error ("Duplicate title found in batch: ".toList ++
        ", ".toList.intercalate (repeats (items.filterMap CudParams.title)))) ∧
    ∀ t, (repeats (items.filterMap CudParams.title)).count t =
      (items.filterMap CudParams.title).count t - 1 := by
  constructor
  · have hdup := duplicateTitles_eq items
    rw [duplicates_eq] at hdup
    by_cases hnodup : (items.filterMap CudParams.title).Nodup
    · rw [if_pos hnodup, checkDuplicates, hdup, repeats_eq_nil.mpr hnodup]
    · rw [if_neg hnodup, checkDuplicates, hdup]
      cases hrepeats : repeats (items.filterMap CudParams.title) with
      | nil => exact absurd (repeats_eq_nil.mp hrepeats) hnodup
      | cons d ds => rfl
  · exact count_repeats (items.filterMap CudParams.title)

end DuplicateTitles
