import Mathlib.Data.List.Dedup
import Newsfeed.OmitCharacters
import Newsfeed.SeparatedLists

/-! # SQL Server: what `OmitCharacters` computes

The function in one pass: blanks for the characters that are not allowed, one blank for
every run of blanks, none at the ends. The loops of the function against this.
-/
namespace OnePassOmission

open TextOperations SqlLogic RelationalTables CudHandlers SeparatedLists OmitCharacters

/-- The first characters of the elements, and the comma for an empty element. -/
def isAllowed (characters : NVarChar) (u : CodeUnit) : Bool :=
  (characters.splitOn comma).any fun element =>
    match element.head? with
    | none => u == comma
    | some first => u == first

/-- The last blank of every run. -/
def narrowRuns : NVarChar → NVarChar
  | [] => []
  | u :: us => if isBlank u && us.head?.any isBlank then narrowRuns us else u :: narrowRuns us

def keepAllowed (characters : NVarChar) (u : CodeUnit) : CodeUnit :=
  if isAllowed characters u then u else blank

def onePass (inputString characters : NVarChar) : NVarChar :=
  trimBlanks (narrowRuns (inputString.map (keepAllowed characters)))

section Pairs

variable (coll : Collation)

/-- Somewhere two code units compare equal to two blanks, with ignored ones between them at
most, that are not two blanks side by side. -/
def hasOtherPair : NVarChar → Bool
  | [] => false
  | u :: us =>
    (matchesBlank coll u && blankNext coll us && !(isBlank u && us.head?.any isBlank)) ||
      hasOtherPair us

def otherCount (s : NVarChar) : ℕ := s.countP fun u => !isBlank u

theorem narrowRuns_cons (u : CodeUnit) (us : NVarChar) :
    narrowRuns (u :: us) =
      if isBlank u && us.head?.any isBlank then narrowRuns us else u :: narrowRuns us := rfl

theorem narrowRuns_head? (s : NVarChar) :
    (narrowRuns s).head?.any isBlank = s.head?.any isBlank := by
  induction s with
  | nil => rfl
  | cons u us ih =>
    rw [narrowRuns_cons]
    split
    · next h =>
      rw [Bool.and_eq_true] at h
      rw [ih, h.2, List.head?_cons, Option.any_some, h.1]
    · rfl

theorem narrowRuns_congr {s t : NVarChar} (h : narrowRuns s = narrowRuns t) (u : CodeUnit) :
    narrowRuns (u :: s) = narrowRuns (u :: t) := by
  rw [narrowRuns_cons, narrowRuns_cons, ← narrowRuns_head? s, ← narrowRuns_head? t, h]

theorem eq_blank {u : CodeUnit} (h : isBlank u = true) : u = blank := by
  simpa [isBlank] using h

theorem otherCount_cons (u : CodeUnit) (us : NVarChar) :
    otherCount (u :: us) = otherCount us + if isBlank u then 0 else 1 := by
  unfold otherCount
  rw [List.countP_cons]
  cases isBlank u <;> rfl

theorem otherCount_narrowRuns (s : NVarChar) : otherCount (narrowRuns s) = otherCount s := by
  induction s with
  | nil => rfl
  | cons u us ih =>
    rw [narrowRuns_cons, otherCount_cons]
    split
    · next h =>
      rw [Bool.and_eq_true] at h
      rw [ih, h.1]
      rfl
    · rw [otherCount_cons, ih]

theorem otherCount_trimBlanks (s : NVarChar) : otherCount (trimBlanks s) = otherCount s := by
  have hdrop : ∀ t : NVarChar, otherCount (t.dropWhile isBlank) = otherCount t := by
    intro t
    induction t with
    | nil => rfl
    | cons u us ih =>
      rw [List.dropWhile_cons]
      split
      · next h => rw [ih, otherCount_cons, if_pos h, Nat.add_zero]
      · rfl
  have hreverse : ∀ t : NVarChar, otherCount t.reverse = otherCount t :=
    fun t => List.countP_reverse
  rw [trimBlanks, List.rdropWhile, hreverse, hdrop, hreverse, hdrop]

theorem blankNext_narrowRuns (s : NVarChar) :
    blankNext coll (narrowRuns s) = blankNext coll s := by
  induction s with
  | nil => rfl
  | cons u us ih =>
    rw [narrowRuns_cons]
    split
    · next h =>
      cases us with
      | nil =>
        rw [List.head?_nil, Option.any_none, Bool.and_false] at h
        cases h
      | cons v vs =>
        rw [Bool.and_eq_true, List.head?_cons, Option.any_some] at h
        rw [ih, eq_blank h.1, eq_blank h.2, blankNext, blankNext, isIgnored_blank]
        rfl
    · rw [blankNext, ih, blankNext]

theorem hasOtherPair_narrowRuns (s : NVarChar) :
    hasOtherPair coll (narrowRuns s) = hasOtherPair coll s := by
  induction s with
  | nil => rfl
  | cons u us ih =>
    rw [narrowRuns_cons]
    split
    · next h => rw [ih, hasOtherPair, h, Bool.not_true, Bool.and_false, Bool.false_or]
    · rw [hasOtherPair, narrowRuns_head?, blankNext_narrowRuns, ih, hasOtherPair]

theorem otherCount_replaceFrom_le (inside : Bool) (s : NVarChar) :
    otherCount (replaceFrom coll inside s) ≤ otherCount s := by
  induction s generalizing inside with
  | nil => cases inside <;> exact le_rfl
  | cons u us ih =>
    cases inside with
    | true =>
      rw [replaceFrom, otherCount_cons]
      exact (ih (isIgnored coll u)).trans (Nat.le_add_right _ _)
    | false =>
      rw [replaceFrom, otherCount_cons]
      split
      · rw [otherCount_cons]
        exact (ih true).trans (Nat.le_add_right _ _)
      · rw [otherCount_cons]
        exact Nat.add_le_add_right (ih false) _

variable {coll}

theorem replaceFrom_blanks (us : NVarChar) :
    replaceFrom coll false (blank :: blank :: us) = blank :: replaceFrom coll false us := by
  rw [replaceFrom, blankNext, isIgnored_blank, matchesBlank_blank]
  show blank :: replaceFrom coll true (blank :: us) = _
  rw [replaceFrom, isIgnored_blank]

theorem otherCount_match_lt {u : CodeUnit} {us : NVarChar}
    (hnext : blankNext coll us = true) (hother : (isBlank u && us.head?.any isBlank) = false) :
    otherCount (blank :: replaceFrom coll true us) < otherCount (u :: us) := by
  cases us with
  | nil => cases hnext
  | cons v vs =>
    have hle := otherCount_replaceFrom_le coll (isIgnored coll v) vs
    rw [List.head?_cons, Option.any_some, Bool.and_eq_false_iff] at hother
    rw [otherCount_cons, otherCount_cons, otherCount_cons, replaceFrom]
    rcases hother with hu | hv
    · rw [hu]
      show _ + 0 < _ + _ + 1
      omega
    · rw [hv]
      show _ + 0 < _ + 1 + _
      omega

theorem narrowRuns_replacePairs {s : NVarChar}
    (h : otherCount (replacePairs coll s) = otherCount s) :
    narrowRuns (replacePairs coll s) = narrowRuns s := by
  rw [replacePairs] at h ⊢
  induction s using List.twoStepInduction with
  | nil => rfl
  | singleton u =>
    rw [replaceFrom, blankNext, Bool.and_false]
    rfl
  | cons_cons u v vs ih ih' =>
    cases hblanks : isBlank u && isBlank v with
    | true =>
      rw [Bool.and_eq_true] at hblanks
      rw [eq_blank hblanks.1, eq_blank hblanks.2, replaceFrom_blanks, otherCount_cons,
        otherCount_cons, otherCount_cons] at h
      have hrest := ih (by simpa [isBlank] using h)
      rw [eq_blank hblanks.1, eq_blank hblanks.2, replaceFrom_blanks, narrowRuns_congr hrest]
      rfl
    | false =>
      rw [replaceFrom] at h ⊢
      split at h
      · next hpair =>
        rw [Bool.and_eq_true] at hpair
        exact absurd h (otherCount_match_lt hpair.2 hblanks).ne
      · next hnone =>
        rw [otherCount_cons, otherCount_cons] at h
        rw [if_neg hnone]
        exact narrowRuns_congr (ih' v (Nat.add_right_cancel h)) u

theorem otherCount_replacePairs {s : NVarChar} (h : hasOtherPair coll s = false) :
    otherCount (replacePairs coll s) = otherCount s := by
  rw [replacePairs]
  induction s using List.twoStepInduction with
  | nil => rfl
  | singleton u =>
    rw [replaceFrom, blankNext, Bool.and_false]
    rfl
  | cons_cons u v vs ih ih' =>
    rw [hasOtherPair, Bool.or_eq_false_iff] at h
    cases hblanks : isBlank u && isBlank v with
    | true =>
      rw [Bool.and_eq_true] at hblanks
      have hrest := h.2
      rw [hasOtherPair, Bool.or_eq_false_iff] at hrest
      rw [eq_blank hblanks.1, eq_blank hblanks.2, replaceFrom_blanks, otherCount_cons,
        otherCount_cons, otherCount_cons, ih hrest.2]
      rfl
    | false =>
      have hfirst := h.1
      rw [List.head?_cons, Option.any_some, hblanks] at hfirst
      rw [replaceFrom, if_neg (by simpa using hfirst), otherCount_cons, ih' v h.2,
        otherCount_cons u]

theorem hasOtherPair_replacePairs {s : NVarChar}
    (h : otherCount (replacePairs coll s) = otherCount s) :
    hasOtherPair coll (replacePairs coll s) = hasOtherPair coll s := by
  rw [← hasOtherPair_narrowRuns, narrowRuns_replacePairs h, hasOtherPair_narrowRuns]

theorem narrowRuns_of_not_hasPair {s : NVarChar} (h : hasPair coll s = false) :
    narrowRuns s = s := by
  induction s with
  | nil => rfl
  | cons u us ih =>
    rw [hasPair, Bool.or_eq_false_iff] at h
    rw [narrowRuns_cons, ih h.2]
    refine if_neg fun hblanks => ?_
    cases us with
    | nil =>
      rw [List.head?_nil, Option.any_none, Bool.and_false] at hblanks
      cases hblanks
    | cons v vs =>
      rw [Bool.and_eq_true, List.head?_cons, Option.any_some] at hblanks
      have hfirst := h.1
      rw [eq_blank hblanks.1, eq_blank hblanks.2, blankNext, isIgnored_blank,
        matchesBlank_blank] at hfirst
      cases hfirst

theorem hasPair_of_hasOtherPair {s : NVarChar} (h : hasOtherPair coll s = true) :
    hasPair coll s = true := by
  induction s with
  | nil => cases h
  | cons u us ih =>
    rw [hasOtherPair, Bool.or_eq_true, Bool.and_eq_true] at h
    rw [hasPair, Bool.or_eq_true]
    exact h.imp And.left ih

/-- Where only blanks compare equal to blanks, the loop ends with every run narrowed. -/
theorem collapsePairs_eq {s : NVarChar} (h : hasOtherPair coll s = false) :
    collapsePairs coll s = narrowRuns s := by
  induction s using collapsePairs.induct coll with
  | case1 s hpair ih =>
    have hcount := otherCount_replacePairs h
    rw [collapsePairs, if_pos hpair, ih ((hasOtherPair_replacePairs hcount).trans h),
      narrowRuns_replacePairs hcount]
  | case2 s hpair =>
    rw [collapsePairs, if_neg hpair, narrowRuns_of_not_hasPair (by simpa using hpair)]

theorem otherCount_collapsePairs_le (s : NVarChar) :
    otherCount (collapsePairs coll s) ≤ otherCount s := by
  induction s using collapsePairs.induct coll with
  | case1 s hpair ih =>
    rw [collapsePairs, if_pos hpair]
    exact ih.trans (otherCount_replaceFrom_le coll false s)
  | case2 s hpair => rw [collapsePairs, if_neg hpair]

/-- Any other pair costs a character sooner or later: no round before makes it disappear. -/
theorem otherCount_collapsePairs_lt {s : NVarChar} (h : hasOtherPair coll s = true) :
    otherCount (collapsePairs coll s) < otherCount s := by
  induction s using collapsePairs.induct coll with
  | case1 s hpair ih =>
    rw [collapsePairs, if_pos hpair]
    have hle : otherCount (replacePairs coll s) ≤ otherCount s :=
      otherCount_replaceFrom_le coll false s
    rcases hle.lt_or_eq with hlt | heq
    · exact (otherCount_collapsePairs_le _).trans_lt hlt
    · exact (ih ((hasOtherPair_replacePairs heq).trans h)).trans_eq heq
  | case2 s hpair => exact absurd (hasPair_of_hasOtherPair h) hpair

theorem trim_collapsePairs_iff (s : NVarChar) :
    trimBlanks (collapsePairs coll s) = trimBlanks (narrowRuns s) ↔
      hasOtherPair coll s = false := by
  constructor
  · intro h
    cases hother : hasOtherPair coll s with
    | false => rfl
    | true =>
      have hlt := otherCount_collapsePairs_lt hother
      rw [← otherCount_trimBlanks (collapsePairs coll s), h, otherCount_trimBlanks,
        otherCount_narrowRuns] at hlt
      exact absurd hlt (lt_irrefl _)
  · intro h
    rw [collapsePairs_eq h]

theorem collapsePairs_rounds (s : NVarChar) :
    ∃ rounds, hasPair coll ((replacePairs coll)^[rounds] s) = false ∧
      collapsePairs coll s = (replacePairs coll)^[rounds] s := by
  induction s using collapsePairs.induct coll with
  | case1 s hpair ih =>
    rcases ih with ⟨rounds, hend, heq⟩
    exact ⟨rounds + 1, hend, by rw [collapsePairs, if_pos hpair, heq]; rfl⟩
  | case2 s hpair => exact ⟨0, by simpa using hpair, by rw [collapsePairs, if_neg hpair]; rfl⟩

end Pairs

theorem inputStringTemp_eq (s : NVarChar) (rounds pos : Nat) :
    inputStringTemp s (pos + 1) rounds = (s.drop pos).take rounds := by
  induction rounds generalizing pos with
  | zero => rfl
  | succ rounds ih =>
    rw [inputStringTemp, ih (pos + 1), substring, Nat.add_sub_cancel]
    cases h : s.drop pos with
    | nil =>
      have hnext : s.drop (pos + 1) = [] := by
        rw [List.drop_eq_nil_iff] at h ⊢
        omega
      rw [hnext, List.take_nil, List.take_nil, List.take_nil, List.append_nil]
    | cons u us =>
      have hnext : s.drop (pos + 1) = us := by
        rw [← List.drop_drop, h]
        rfl
      rw [hnext]
      rfl

theorem inputStringTemp_len (s : NVarChar) :
    inputStringTemp s 1 (len s) = s.rdropWhile isBlank := by
  rw [inputStringTemp_eq s (len s) 0, List.drop_zero, len]
  exact (List.prefix_iff_eq_take.mp (List.rdropWhile_prefix isBlank s)).symm

theorem stringSplit_eq (s : NVarChar) : stringSplit s = s.splitOn comma := by
  induction s with
  | nil => rfl
  | cons u us ih =>
    rw [stringSplit, ih, List.splitOn_cons_eq_if_modifyHead]
    by_cases hu : u = comma
    · rw [if_pos hu, if_pos (beq_iff_eq.mpr hu)]
    · rw [if_neg hu, if_neg (by simpa using hu)]
      obtain ⟨q, qs, hq⟩ := List.exists_cons_of_ne_nil (List.splitOn_ne_nil comma us)
      rw [hq, List.modifyHead_cons]

theorem mem_characterStringTemp {characters : NVarChar} {u : CodeUnit} :
    u ∈ characterStringTemp characters ↔ isAllowed characters u = true := by
  unfold characterStringTemp insertedCharacters isAllowed
  rw [stringSplit_eq, List.any_eq_true]
  constructor
  · intro h
    obtain ⟨first, hfirst, rfl⟩ := List.mem_map.mp h
    obtain ⟨element, helement, rfl⟩ := List.mem_map.mp (List.mem_dedup.mp hfirst)
    refine ⟨element, helement, ?_⟩
    cases element.head? <;> exact beq_self_eq_true _
  · rintro ⟨element, helement, h⟩
    refine List.mem_map.mpr ⟨element.head?, ?_, ?_⟩
    · exact List.mem_dedup.mpr (List.mem_map_of_mem helement)
    · cases hhead : element.head? with
      | none =>
        rw [hhead] at h
        exact (beq_iff_eq.mp h).symm
      | some first =>
        rw [hhead] at h
        exact (beq_iff_eq.mp h).symm

theorem characterStringTemp_nodup (characters : NVarChar) :
    (characterStringTemp characters).Nodup := by
  have hcomma : ∀ x ∈ insertedCharacters characters, x ≠ some comma := by
    intro x hx hxc
    unfold insertedCharacters at hx
    rw [stringSplit_eq, List.mem_dedup] at hx
    obtain ⟨element, helement, rfl⟩ := List.mem_map.mp hx
    exact not_mem_of_mem_splitOn helement (List.mem_of_head? hxc)
  apply List.Nodup.map_on
  · intro x hx y hy hxy
    cases x with
    | none =>
      cases y with
      | none => rfl
      | some v => exact absurd (congrArg some hxy).symm (hcomma (some v) hy)
    | some u =>
      cases y with
      | none => exact absurd (congrArg some hxy) (hcomma (some u) hx)
      | some v => exact congrArg some hxy
  · exact List.nodup_dedup _

theorem aggregate_eq (input characters : NVarChar) (hne : input ≠ []) :
    aggregate input (characterStringTemp characters) =
      if maxAggregate < input.length then .error .aggregateTooLong
      else .ok (some (input.map (keepAllowed characters))) := by
  have hone : ∀ i ∈ input, (characterStringTemp characters).countP (fun c => c == i) ≤ 1 :=
    fun i _ => List.nodup_iff_count_le_one.mp (characterStringTemp_nodup characters) i
  have hunits : ((leftJoin (fun i c => c == i) input (characterStringTemp characters)).map
      fun row => if row.2.isNone then blank else row.1) = input.map (keepAllowed characters) := by
    rw [leftJoin_eq_map hone, List.map_map]
    apply List.map_congr_left
    intro i _
    have hfound : ((characterStringTemp characters).find? fun c => c == i).isSome =
        isAllowed characters i := by
      rw [Bool.eq_iff_iff, List.find?_isSome, ← mem_characterStringTemp]
      simp
    simp only [Function.comp_apply, keepAllowed]
    rw [← hfound]
    cases (characterStringTemp characters).find? fun c => c == i <;> rfl
  have hempty : (input.map (keepAllowed characters)).isEmpty = false := by
    simpa using hne
  simp only [aggregate, hunits, hempty, List.length_map, Bool.false_eq_true, ↓reduceIte]

theorem narrowRuns_concat (s : NVarChar) :
    narrowRuns (s ++ [blank]) = narrowRuns s ∨
      narrowRuns (s ++ [blank]) = narrowRuns s ++ [blank] := by
  induction s with
  | nil => exact Or.inr rfl
  | cons u us ih =>
    cases us with
    | nil =>
      by_cases hu : isBlank u = true
      · have hblank : u = blank := by simpa [isBlank] using hu
        subst hblank
        exact Or.inl rfl
      · right
        simp [narrowRuns, hu]
    | cons v us =>
      rw [List.cons_append, narrowRuns_cons, narrowRuns_cons u]
      have hhead : (v :: us ++ [blank]).head? = (v :: us).head? := rfl
      rw [hhead]
      split
      · exact ih
      · rcases ih with ih | ih
        · exact Or.inl (congrArg (u :: ·) ih)
        · exact Or.inr (congrArg (u :: ·) ih)

theorem trimBlanks_concat (s : NVarChar) : trimBlanks (s ++ [blank]) = trimBlanks s := by
  unfold trimBlanks
  rw [List.dropWhile_append]
  split
  · next h =>
    rw [List.isEmpty_iff.mp h]
    rfl
  · exact List.rdropWhile_concat_pos _ _ _ rfl

theorem trim_narrowRuns_append (s : NVarChar) {blanks : NVarChar}
    (h : ∀ u ∈ blanks, u = blank) :
    trimBlanks (narrowRuns (s ++ blanks)) = trimBlanks (narrowRuns s) := by
  induction blanks using List.reverseRecOn with
  | nil => rw [List.append_nil]
  | append_singleton blanks u ih =>
    have hu := h u (List.mem_append_right _ (List.mem_singleton_self u))
    have hrest := ih fun v hv => h v (List.mem_append_left _ hv)
    rw [hu, ← List.append_assoc]
    rcases narrowRuns_concat (s ++ blanks) with heq | heq
    · rw [heq, hrest]
    · rw [heq, trimBlanks_concat, hrest]

theorem onePass_rdropWhile (s characters : NVarChar) :
    onePass (s.rdropWhile isBlank) characters = onePass s characters := by
  have hsplit : s = s.rdropWhile isBlank ++ s.rtakeWhile isBlank :=
    List.rdropWhile_append_rtakeWhile.symm
  have hblanks : ∀ u ∈ (s.rtakeWhile isBlank).map (keepAllowed characters), u = blank := by
    intro u hu
    obtain ⟨v, hv, rfl⟩ := List.mem_map.mp hu
    have hblank : v = blank := by simpa [isBlank] using List.mem_rtakeWhile_imp hv
    rw [hblank, keepAllowed]
    split <;> rfl
  unfold onePass
  conv_rhs => rw [hsplit, List.map_append, trim_narrowRuns_append _ hblanks]

theorem len_pos {s : NVarChar} (hs : ∃ u ∈ s, isBlank u = false) : 0 < len s := by
  rcases hs with ⟨u, hu, hblank⟩
  have hne : s.rdropWhile isBlank ≠ [] := by
    intro h
    rw [List.rdropWhile_eq_nil_iff] at h
    rw [h u hu] at hblank
    cases hblank
  exact List.length_pos_of_ne_nil hne

variable {coll : Collation}

/-- The input as the loop over pairs of blanks finds it. -/
def keptInput (s c : NVarChar) : NVarChar := (s.rdropWhile isBlank).map (keepAllowed c)

theorem omitCharacters_computes {s c : NVarChar} (hs : ∃ u ∈ s, isBlank u = false)
    (hinput : coll.eq (decode s) [] = false) (hlist : coll.eq (decode c) [] = false) :
    omitCharacters coll s c =
      if maxAggregate < len s then .error .aggregateTooLong
      else .ok (some (trimBlanks (collapsePairs coll (keptInput s c)))) := by
  have hs' : nullIfBlank coll s = some s := by rw [nullIfBlank, hinput]; rfl
  have hc' : nullIfBlank coll c = some c := by rw [nullIfBlank, hlist]; rfl
  have hne : s.rdropWhile isBlank ≠ [] := List.ne_nil_of_length_pos (len_pos hs)
  simp only [omitCharacters, hs', hc']
  rw [inputStringTemp_len, aggregate_eq _ c hne, len, keptInput]
  split
  · rfl
  · rfl

theorem onePass_keptInput (s c : NVarChar) :
    onePass s c = trimBlanks (narrowRuns (keptInput s c)) := by
  rw [← onePass_rdropWhile]
  rfl

theorem omitCharacters_eq {s c : NVarChar} (hs : ∃ u ∈ s, isBlank u = false)
    (hinput : coll.eq (decode s) [] = false) (hlist : coll.eq (decode c) [] = false)
    (hpairs : hasOtherPair coll (keptInput s c) = false) :
    omitCharacters coll s c =
      if maxAggregate < len s then .error .aggregateTooLong else .ok (some (onePass s c)) := by
  rw [omitCharacters_computes hs hinput hlist, (trim_collapsePairs_iff _).mpr hpairs,
    onePass_keptInput]

theorem omitCharacters_of_blank {s c : NVarChar}
    (h : coll.eq (decode s) [] = true ∨ coll.eq (decode c) [] = true) :
    omitCharacters coll s c = .ok none := by
  unfold omitCharacters nullIfBlank
  rcases h with hinput | hlist
  · rw [if_pos hinput]
  · rw [if_pos hlist]
    cases coll.eq (decode s) [] <;> rfl

/-- The function is its one-pass form for texts that an aggregate can hold and that the
collation does not take for empty, as long as in what is kept of them nothing but two blanks
compares equal to two blanks; its loop always ends. -/
theorem omitCharacters_onePass_iff (coll : Collation) (s c : NVarChar)
    (hs : ∃ u ∈ s, isBlank u = false) :
    (omitCharacters coll s c = .ok (some (onePass s c)) ↔
      coll.eq (decode s) [] = false ∧ coll.eq (decode c) [] = false ∧ len s ≤ maxAggregate ∧
        hasOtherPair coll (keptInput s c) = false) ∧
    ∀ t : NVarChar, ∃ rounds, hasPair coll ((replacePairs coll)^[rounds] t) = false ∧
      collapsePairs coll t = (replacePairs coll)^[rounds] t := by
  constructor
  · constructor
    · intro h
      cases hinput : coll.eq (decode s) [] with
      | true =>
        rw [omitCharacters_of_blank (Or.inl hinput)] at h
        cases h
      | false =>
        cases hlist : coll.eq (decode c) [] with
        | true =>
          rw [omitCharacters_of_blank (Or.inr hlist)] at h
          cases h
        | false =>
          rw [omitCharacters_computes hs hinput hlist] at h
          by_cases hlong : maxAggregate < len s
          · rw [if_pos hlong] at h
            cases h
          · rw [if_neg hlong, Except.ok.injEq, Option.some.injEq, onePass_keptInput,
              trim_collapsePairs_iff] at h
            exact ⟨rfl, rfl, Nat.le_of_not_lt hlong, h⟩
    · rintro ⟨hinput, hlist, hlen, hpairs⟩
      rw [omitCharacters_eq hs hinput hlist hpairs, if_neg (by omega)]
  · exact collapsePairs_rounds

/-- A collation that takes the ideographic blank for a blank. -/
def widthInsensitive : Collation := ⟨List.map fun c => if c = '\u3000' then ' ' else c⟩

example : omitCharacters widthInsensitive (encode "a\u3000\u3000b".toList)
    (encode "a,b,\u3000".toList) = .ok (some (encode "a b".toList)) := by decide +kernel

theorem hash_and_blanks_omitted :
    omitCharacters Collation.ascii (encode " a#  ,b ".toList) (encode "a,,b".toList) =
      .ok (some (encode "a ,b".toList)) := by
  have hs : ∃ u ∈ encode " a#  ,b ".toList, isBlank u = false := ⟨0x61, by decide, rfl⟩
  have h := (omitCharacters_onePass_iff Collation.ascii _ (encode "a,,b".toList) hs).1.mpr
    ⟨by decide +kernel, by decide +kernel, by decide +kernel, by decide +kernel⟩
  have hresult : onePass (encode " a#  ,b ".toList) (encode "a,,b".toList) =
      encode "a ,b".toList := by decide +kernel
  rw [h, hresult]

theorem decode_ne_nil {s : NVarChar} (h : s ≠ []) : decode s ≠ [] := by
  unfold decode
  split
  · exact absurd rfl h
  · split <;> simp
  · split_ifs <;> simp

theorem ascii_eq_empty {t : Text} (h : t ≠ []) : Collation.ascii.eq t [] = false := by
  rw [Collation.eq, beq_eq_false_iff_ne]
  simpa [Collation.ascii, lowerAscii] using h

/-- 4001 letters, all of them allowed. -/
theorem long_input_refused :
    omitCharacters Collation.ascii (List.replicate 4001 0x61) [0x61] =
        .error .aggregateTooLong ∧
      omitCharacters Collation.ascii (List.replicate 4001 0x61) [0x61] ≠
        .ok (some (onePass (List.replicate 4001 0x61) [0x61])) := by
  have hs : ∃ u ∈ List.replicate 4001 (0x61 : CodeUnit), isBlank u = false :=
    ⟨0x61, List.mem_replicate.mpr ⟨by omega, rfl⟩, rfl⟩
  have hne : List.replicate 4001 (0x61 : CodeUnit) ≠ [] := by
    rcases hs with ⟨u, hu, _⟩
    exact List.ne_nil_of_mem hu
  have hlen : len (List.replicate 4001 0x61) = 4001 := by
    have hself : (List.replicate 4001 (0x61 : CodeUnit)).rdropWhile isBlank =
        List.replicate 4001 0x61 := by
      rw [List.rdropWhile_eq_self_iff]
      intro hne
      rw [List.getLast_replicate]
      decide
    rw [len, hself, List.length_replicate]
  have hrefused : omitCharacters Collation.ascii (List.replicate 4001 0x61) [0x61] =
      .error .aggregateTooLong := by
    rw [omitCharacters_computes hs (ascii_eq_empty (decode_ne_nil hne))
      (ascii_eq_empty (decode_ne_nil (List.cons_ne_nil 0x61 []))), hlen, if_pos (by decide)]
  constructor
  · exact hrefused
  · rw [hrefused]
    intro h
    cases h

end OnePassOmission
