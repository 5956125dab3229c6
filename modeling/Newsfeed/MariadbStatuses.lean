import Newsfeed.MariadbProcedures

/-! # MariaDB: the status text of a batch

`CONCAT('[', IFNULL(GROUP_CONCAT(status SEPARATOR ','), ''), ']')`, from the rows of
`temp_bulk_results` to the results the handler gets.
-/
namespace MariadbStatuses

open TextOperations JsonText SqlLogic FeedModels CudHandlers MariadbProcedures

theorem utf8Len_cons (c : Char) (t : Text) : utf8Len (c :: t) = c.utf8Size + utf8Len t := rfl

theorem utf8Len_append (s t : Text) : utf8Len (s ++ t) = utf8Len s + utf8Len t := by
  rw [utf8Len, List.map_append, List.sum_append, utf8Len, utf8Len]

theorem length_le_utf8Len (t : Text) : t.length ≤ utf8Len t := by
  induction t with
  | nil => exact Nat.le_refl 0
  | cons c t ih =>
    have hc := Char.utf8Size_pos c
    rw [utf8Len_cons, List.length_cons]
    omega

theorem utf8Len_joined (k : Nat) (ts : List Text) (h : ∀ t ∈ ts, utf8Len t ≤ k) :
    utf8Len ([','].intercalate ts) ≤ (k + 1) * ts.length := by
  induction ts with
  | nil => simp [List.intercalate, utf8Len]
  | cons t ts ih =>
    have ht := h t List.mem_cons_self
    cases ts with
    | nil =>
      rw [List.intercalate_singleton, List.length_singleton]
      omega
    | cons u us =>
      have htail := ih fun v hv => h v (List.mem_cons_of_mem t hv)
      have hcomma : utf8Len [','] = 1 := rfl
      rw [List.intercalate_cons_cons, utf8Len_append, utf8Len_append, hcomma, List.length_cons,
        Nat.mul_succ]
      omega

/-- `GROUP_CONCAT` of no rows is `NULL`. -/
def groupConcatOrNull (results : List Text) : Option Text :=
  if results.isEmpty then none else some (groupConcat results)

def statusColumn (results : List Text) : Text :=
  '[' :: ((groupConcatOrNull results).getD [] ++ [']'])

/-- A `JSON_OBJECT` of one of the three modes. -/
inductive BuiltStatus (coll : Collation) : StatusRow → Prop where
  | insert (n : Option Row) : BuiltStatus coll (insertStatus n)
  | update (t : ParsedItem) (n : Option Row) : BuiltStatus coll (updateStatus coll t n)
  | delete (n : Option Row) : BuiltStatus coll (deleteStatus n)

variable {coll : Collation}

theorem builtStatus_cases {s : StatusRow} (h : BuiltStatus coll s) :
    s ∈ [(⟨"Skipped".toList, "SKIPPED_EXISTS".toList⟩ : StatusRow),
      ⟨"Skipped".toList, "SKIPPED_NOT_FOUND".toList⟩,
      ⟨"Success".toList, "Record(s) inserted".toList⟩,
      ⟨"Success".toList, "Record(s) updated".toList⟩,
      ⟨"Success".toList, "Record(s) deleted".toList⟩] := by
  cases h with
  | insert n =>
    unfold insertStatus
    split <;> simp
  | update t n =>
    unfold updateStatus
    split
    · simp
    · split_ifs <;> simp
  | delete n =>
    unfold deleteStatus
    split <;> simp

theorem builtStatus_bytes {s : StatusRow} (h : BuiltStatus coll s) :
    utf8Len (render spaced s.toJson) ≤ 60 := by
  have hs := builtStatus_cases h
  simp only [List.mem_cons, List.not_mem_nil, or_false] at hs
  rcases hs with rfl | rfl | rfl | rfl | rfl <;> decide

theorem builtStatus_known {s : StatusRow} (h : BuiltStatus coll s) : s.Known := by
  cases h with
  | insert n => exact (insertStatus_short n).1
  | update t n => exact (updateStatus_short coll t n).1
  | delete n => exact (deleteStatus_short n).1

theorem builtStatus_short {s : StatusRow} (h : BuiltStatus coll s) : ShortStatus s := by
  have hbytes := builtStatus_bytes h
  have hlength := length_le_utf8Len (render spaced s.toJson)
  exact ⟨builtStatus_known h, by omega⟩

theorem statusColumn_eq (statuses : List StatusRow) :
    statusColumn (statuses.map fun s => render spaced s.toJson) = statusText statuses := by
  cases statuses <;> rfl

theorem joined_bytes {statuses : List StatusRow} (hcount : statuses.length ≤ maxBatchItems)
    (hbuilt : ∀ s ∈ statuses, BuiltStatus coll s) :
    utf8Len ([','].intercalate (statuses.map fun s => render spaced s.toJson)) ≤ 61000 := by
  have hjoined := utf8Len_joined 60 (statuses.map fun s => render spaced s.toJson)
  rw [List.length_map] at hjoined
  have hbound := hjoined fun t ht => by
    obtain ⟨s, hs, rfl⟩ := List.mem_map.mp ht
    exact builtStatus_bytes (hbuilt s hs)
  simp only [maxBatchItems] at hcount
  omega

theorem statuses_built (mode : CudMode) (parsed : List ParsedItem) (rows : List Row) :
    ∀ s ∈ statuses coll mode parsed rows, BuiltStatus coll s := by
  intro s hs
  obtain ⟨⟨t, n⟩, _, rfl⟩ := List.mem_map.mp hs
  cases mode with
  | insert => exact .insert n
  | update => exact .update t n
  | delete => exact .delete n

/-- Up to 1000 statuses fit into the text whole and are read back one for one. Those of a call are
built as is asked of them here (`statuses_built`). -/
theorem built_statuses_decode (isRfc3339 : Text → Bool) (coll : Collation)
    (statuses : List StatusRow) (hcount : statuses.length ≤ maxBatchItems)
    (hbuilt : ∀ s ∈ statuses, BuiltStatus coll s) :
    utf8Len (statusColumn (statuses.map fun s => render spaced s.toJson)) < groupConcatMaxLen ∧
      parseStatusRows isRfc3339
          [some (statusColumn (statuses.map fun s => render spaced s.toJson))] =
        .ok (statuses.map StatusRow.result) := by
  have hbytes := joined_bytes hcount hbuilt
  have hlength := length_le_utf8Len
    ([','].intercalate (statuses.map fun s => render spaced s.toJson))
  have hfits : ([','].intercalate (statuses.map fun s => render spaced s.toJson)).length ≤
      groupConcatMaxLen := by
    simp only [groupConcatMaxLen]
    omega
  rw [statusColumn_eq]
  constructor
  · have hopen : Char.utf8Size '[' = 1 := rfl
    have hclose : utf8Len [']'] = 1 := rfl
    rw [statusText, groupConcat, List.take_of_length_le hfits, utf8Len_cons, utf8Len_append, hopen,
      hclose, groupConcatMaxLen]
    omega
  · exact parseStatusRows_of_fits isRfc3339 (fun s hs => builtStatus_short (hbuilt s hs)) hfits

theorem two_built_statuses_decode :
    utf8Len (statusColumn ([insertStatus none, deleteStatus none].map fun s =>
      render spaced s.toJson)) < groupConcatMaxLen ∧
    parseStatusRows (fun _ => true) [some (statusColumn ([insertStatus none,
      deleteStatus none].map fun s => render spaced s.toJson))] =
      .ok ([insertStatus none, deleteStatus none].map StatusRow.result) := by
  apply built_statuses_decode (fun _ => true) Collation.ascii [insertStatus none, deleteStatus none]
  · decide
  · intro s hs
    simp only [List.mem_cons, List.not_mem_nil, or_false] at hs
    rcases hs with rfl | rfl
    · exact .insert none
    · exact .delete none

end MariadbStatuses
