import Newsfeed.PostgresExtract

/-! # PostgreSQL: rewritten filters

`extractnewsfeed` replaces the first forbidden character and narrows the first run of
blanks, then cuts and trims. A filter with more to replace keeps what is left of it.
-/
namespace PostgresSanitising

open TextOperations FeedModels ExtractFilters PostgresExtract

def EndsWithRun (t : Text) : Prop := [' ', ' '] <:+ t

def InnerRun (t : Text) : Prop := ∃ c, c ≠ ' ' ∧ [' ', ' ', c] <:+: t

/-- The blanks of the first run, all but one. -/
def surplus : Text → Nat
  | [] => 0
  | c :: cs => if c = ' ' ∧ cs.head? = some ' ' then (cs.takeWhile isSpace).length else surplus cs

theorem isSpace_of_ne {c : Char} (hc : c ≠ ' ') : isSpace c = false := by
  simpa [isSpace] using hc

theorem collapseFirstRun_run {c : Char} {cs : Text} (h : c = ' ' ∧ cs.head? = some ' ') :
    collapseFirstRun (c :: cs) = ' ' :: cs.dropWhile isSpace := by
  rw [collapseFirstRun, if_pos h]

theorem collapseFirstRun_cons {c : Char} {cs : Text} (h : ¬ (c = ' ' ∧ cs.head? = some ' ')) :
    collapseFirstRun (c :: cs) = c :: collapseFirstRun cs := by
  rw [collapseFirstRun, if_neg h]

theorem collapseFirstRun_length (t : Text) :
    (collapseFirstRun t).length + surplus t = t.length := by
  induction t with
  | nil => rfl
  | cons c cs ih =>
    by_cases h : c = ' ' ∧ cs.head? = some ' '
    · have hsplit := congrArg List.length (List.takeWhile_append_dropWhile (p := isSpace) (l := cs))
      rw [List.length_append] at hsplit
      rw [collapseFirstRun_run h, surplus, if_pos h, List.length_cons, List.length_cons]
      omega
    · rw [collapseFirstRun_cons h, surplus, if_neg h, List.length_cons, List.length_cons]
      omega

theorem head?_append_cons {c : Char} (hc : c ≠ ' ') (x y : Text) :
    (x ++ c :: y).head? = some ' ' ↔ x.head? = some ' ' := by
  cases x with
  | nil => simp [hc]
  | cons d x => rfl

theorem dropWhile_append_cons {c : Char} (hc : c ≠ ' ') (x y : Text) :
    (x ++ c :: y).dropWhile isSpace = x.dropWhile isSpace ++ c :: y := by
  induction x with
  | nil => rw [List.nil_append, List.dropWhile_cons_of_neg (by simp [isSpace_of_ne hc])]; rfl
  | cons d x ih =>
    rw [List.cons_append, List.dropWhile_cons, List.dropWhile_cons]
    split
    · exact ih
    · rfl

theorem collapseFirstRun_append_cons {c : Char} (hc : c ≠ ' ') (x y : Text) :
    ∃ y', collapseFirstRun (x ++ c :: y) = collapseFirstRun x ++ c :: y' := by
  induction x with
  | nil => exact ⟨collapseFirstRun y, collapseFirstRun_cons fun h => hc h.1⟩
  | cons d x ih =>
    have hhead := head?_append_cons hc x y
    by_cases h : d = ' ' ∧ x.head? = some ' '
    · refine ⟨y, ?_⟩
      rw [List.cons_append, collapseFirstRun_run ⟨h.1, hhead.mpr h.2⟩, collapseFirstRun_run h,
        dropWhile_append_cons hc, List.cons_append]
    · rcases ih with ⟨y', hy'⟩
      refine ⟨y', ?_⟩
      rw [List.cons_append, collapseFirstRun_cons fun h' => h ⟨h'.1, hhead.mp h'.2⟩,
        collapseFirstRun_cons h, hy', List.cons_append]

theorem collapseFirstRun_eq_append_cons {c : Char} (hc : c ≠ ' ') {t u v : Text}
    (h : collapseFirstRun t = u ++ c :: v) :
    ∃ x y, t = x ++ c :: y ∧ collapseFirstRun x = u := by
  induction t generalizing u with
  | nil => simp [collapseFirstRun] at h
  | cons d t ih =>
    by_cases hrun : d = ' ' ∧ t.head? = some ' '
    · rw [collapseFirstRun_run hrun] at h
      cases u with
      | nil => exact absurd (List.cons.inj h).1.symm hc
      | cons e u =>
        rw [List.cons_append] at h
        obtain ⟨rfl, hdrop⟩ := List.cons.inj h
        have hsplit := List.takeWhile_append_dropWhile (p := isSpace) (l := t)
        have hblanks : ∀ e ∈ t.takeWhile isSpace, isSpace e = true :=
          fun e he => List.mem_takeWhile_imp he
        have hu : u.dropWhile isSpace = u := by
          have htwice := List.dropWhile_idempotent isSpace t
          rw [hdrop, dropWhile_append_cons hc] at htwice
          exact List.append_cancel_right htwice
        refine ⟨d :: (t.takeWhile isSpace ++ u), v, ?_, ?_⟩
        · rw [List.cons_append, List.append_assoc, ← hdrop, hsplit]
        · have hhead : (t.takeWhile isSpace ++ u).head? = some ' ' := by
            cases t with
            | nil => cases hrun.2
            | cons f t =>
              have hf : f = ' ' := by simpa using hrun.2
              rw [List.takeWhile_cons_of_pos (by simp [hf, isSpace]), hf]
              rfl
          rw [collapseFirstRun_run ⟨hrun.1, hhead⟩, List.dropWhile_append_of_pos hblanks, hu]
    · rw [collapseFirstRun_cons hrun] at h
      cases u with
      | nil =>
        obtain ⟨rfl, _⟩ := List.cons.inj h
        exact ⟨[], t, rfl, rfl⟩
      | cons e u =>
        obtain ⟨rfl, htail⟩ := List.cons.inj h
        obtain ⟨x, y, rfl, hx⟩ := ih htail
        refine ⟨d :: x, y, rfl, ?_⟩
        rw [collapseFirstRun_cons fun h' => hrun ⟨h'.1, (head?_append_cons hc x y).mpr h'.2⟩, hx]

theorem endsWithRun_append_cons {c : Char} (hc : c ≠ ' ') (x y : Text) :
    EndsWithRun (x ++ c :: y) ↔ EndsWithRun y := by
  constructor
  · intro h
    rcases List.suffix_or_suffix_of_suffix h (List.suffix_append x (c :: y)) with hshort | hlong
    · rcases List.suffix_cons_iff.mp hshort with heq | hy
      · exact absurd (List.cons.inj heq).1.symm hc
      · exact hy
    · have hmem := hlong.mem List.mem_cons_self
      simp only [List.mem_cons, List.not_mem_nil, or_false, or_self] at hmem
      exact absurd hmem hc
  · intro h
    exact h.trans ((List.suffix_cons c y).trans (List.suffix_append x (c :: y)))

theorem run_before {blanks : Text} (hblanks : ∀ d ∈ blanks, d = ' ') (c : Char) (y : Text) :
    [' ', ' ', c] <:+: ' ' :: ' ' :: (blanks ++ c :: y) := by
  induction blanks with
  | nil => exact (List.prefix_append [' ', ' ', c] y).isInfix
  | cons d blanks ih =>
    obtain ⟨rfl, hrest⟩ := List.forall_mem_cons.mp hblanks
    exact (ih hrest).trans (List.suffix_cons ' ' _).isInfix

theorem takeWhile_blank (t : Text) : ∀ d ∈ t.takeWhile isSpace, d = ' ' := by
  intro d hd
  have h := List.mem_takeWhile_imp hd
  simpa [isSpace] using h

theorem dropWhile_cases (t : Text) :
    t.dropWhile isSpace = [] ∨ ∃ c y, c ≠ ' ' ∧ t.dropWhile isSpace = c :: y := by
  cases h : t.dropWhile isSpace with
  | nil => exact Or.inl rfl
  | cons c y =>
    right
    refine ⟨c, y, ?_, rfl⟩
    have hhead := List.head_dropWhile_not isSpace (l := t) (by rw [h]; exact List.cons_ne_nil c y)
    simp only [h, List.head_cons] at hhead
    simpa [isSpace] using hhead

theorem not_innerRun_of_blank {t : Text} (h : ∀ d ∈ t, d = ' ') : ¬ InnerRun t := by
  intro hgiven
  rcases hgiven with ⟨c, hc, hrun⟩
  exact hc (h c (hrun.mem (by simp)))

theorem innerRun_cons {d : Char} {t : Text} (h : ¬ (d = ' ' ∧ t.head? = some ' ')) :
    InnerRun (d :: t) ↔ InnerRun t := by
  constructor
  · intro hgiven
    rcases hgiven with ⟨c, hc, hrun⟩
    refine ⟨c, hc, ?_⟩
    rcases List.infix_cons_iff.mp hrun with ⟨y, hy⟩ | hrun
    · simp only [List.cons_append, List.nil_append, List.cons.injEq] at hy
      exact absurd ⟨hy.1.symm, by rw [← hy.2]; rfl⟩ h
    · exact hrun
  · intro hgiven
    rcases hgiven with ⟨c, hc, hrun⟩
    exact ⟨c, hc, hrun.trans (List.suffix_cons d t).isInfix⟩

theorem endsWithRun_cons {d : Char} {t : Text} (h : ¬ (d = ' ' ∧ t.head? = some ' ')) :
    EndsWithRun (d :: t) ↔ EndsWithRun t := by
  unfold EndsWithRun
  rw [List.suffix_cons_iff]
  constructor
  · intro hgiven
    rcases hgiven with heq | hsuffix
    · obtain ⟨rfl, rfl⟩ := List.cons.inj heq
      exact absurd ⟨rfl, rfl⟩ h
    · exact hsuffix
  · exact Or.inr

theorem collapseFirstRun_head? (t : Text) : (collapseFirstRun t).head? = t.head? := by
  cases t with
  | nil => rfl
  | cons c cs =>
    by_cases h : c = ' ' ∧ cs.head? = some ' '
    · rw [collapseFirstRun_run h, h.1]
      rfl
    · rw [collapseFirstRun_cons h]
      rfl

theorem endsWithRun_collapseFirstRun (t : Text) :
    EndsWithRun (collapseFirstRun t) ↔ EndsWithRun t ∧ InnerRun t := by
  induction t with
  | nil => simp [collapseFirstRun, EndsWithRun]
  | cons d t ih =>
    by_cases h : d = ' ' ∧ t.head? = some ' '
    · rw [collapseFirstRun_run h]
      rcases h with ⟨rfl, hhead⟩
      obtain ⟨t, rfl⟩ := List.head?_eq_some_iff.mp hhead
      have hsplit := List.takeWhile_append_dropWhile (p := isSpace) (l := t)
      rw [List.dropWhile_cons_of_pos (by rfl)]
      rcases dropWhile_cases t with hnil | ⟨c, y, hc, hdrop⟩
      · rw [hnil, List.append_nil] at hsplit
        have hblank : ∀ e ∈ ' ' :: ' ' :: t, e = ' ' := by
          have ht := takeWhile_blank t
          rw [hsplit] at ht
          simpa using ht
        rw [hnil]
        constructor
        · intro hgiven
          rcases hgiven with ⟨z, hz⟩
          have hlength := congrArg List.length hz
          simp at hlength
        · intro hgiven
          rcases hgiven with ⟨_, hinner⟩
          exact absurd hinner (not_innerRun_of_blank hblank)
      · rw [hdrop] at hsplit ⊢
        have hinner : InnerRun (' ' :: ' ' :: t) := by
          refine ⟨c, hc, ?_⟩
          rw [← hsplit]
          exact run_before (takeWhile_blank t) c y
        have hends : EndsWithRun (' ' :: ' ' :: t) ↔ EndsWithRun y := by
          have hx := endsWithRun_append_cons hc (' ' :: ' ' :: t.takeWhile isSpace) y
          rw [List.cons_append, List.cons_append, hsplit] at hx
          exact hx
        rw [hends, and_iff_left hinner]
        exact endsWithRun_append_cons hc [' '] y
    · rw [collapseFirstRun_cons h, endsWithRun_cons h, innerRun_cons h, ← ih]
      apply endsWithRun_cons
      rw [collapseFirstRun_head?]
      exact h

theorem infix_of_trimSpaces (t : Text) : trimSpaces t <:+: t :=
  (List.rdropWhile_prefix isSpace _).isInfix.trans (List.dropWhile_suffix isSpace).isInfix

theorem trimSpaces_ends (t : Text) :
    (∀ c, (trimSpaces t).head? = some c → c ≠ ' ') ∧
      ∀ c, (trimSpaces t).getLast? = some c → c ≠ ' ' := by
  obtain ⟨hhead, hlast⟩ := trimBy_eq_self_iff.mp (trimBy_trimBy isSpace t)
  constructor
  · intro c hc
    simpa [isSpace] using hhead c hc
  · intro c hc
    simpa [isSpace] using hlast c hc

theorem innerRun_of_trimmed {t : Text} (h : [' ', ' '] <:+: trimSpaces t) :
    InnerRun (trimSpaces t) := by
  rcases h with ⟨a, b, hab⟩
  rcases dropWhile_cases b with hnil | ⟨c, y, hc, hdrop⟩
  · have hblank : ∀ e ∈ b, e = ' ' := by
      have hb := takeWhile_blank b
      have hsplit := List.takeWhile_append_dropWhile (p := isSpace) (l := b)
      rw [hnil, List.append_nil] at hsplit
      rwa [hsplit] at hb
    have hlast : ∃ c, (trimSpaces t).getLast? = some c ∧ c = ' ' := by
      rw [← hab]
      cases hb : b.getLast? with
      | none =>
        rw [List.getLast?_eq_none_iff] at hb
        refine ⟨' ', ?_, rfl⟩
        simp [hb]
      | some c =>
        refine ⟨c, ?_, hblank c (List.mem_of_getLast? hb)⟩
        rw [List.getLast?_append, hb, Option.some_or]
    rcases hlast with ⟨c, hc, hblank⟩
    exact absurd hblank ((trimSpaces_ends t).2 c hc)
  · have hsplit := List.takeWhile_append_dropWhile (p := isSpace) (l := b)
    rw [hdrop] at hsplit
    refine ⟨c, hc, ?_⟩
    rw [← hab, ← hsplit, List.append_assoc]
    exact (run_before (takeWhile_blank b) c y).trans (List.suffix_append a _).isInfix

theorem rdropWhile_append_cons {c : Char} (hc : c ≠ ' ') (x y : Text) :
    ∃ y', (x ++ c :: y).rdropWhile isSpace = x ++ c :: y' := by
  have hreverse : (x ++ c :: y).reverse = y.reverse ++ c :: x.reverse := by simp
  refine ⟨(y.reverse.dropWhile isSpace).reverse, ?_⟩
  rw [List.rdropWhile, hreverse, dropWhile_append_cons hc]
  simp

theorem run_trimSpaces_iff {t : Text} (hstart : ¬ [' ', ' '] <+: t) :
    [' ', ' '] <:+: trimSpaces t ↔ InnerRun t := by
  constructor
  · intro h
    obtain ⟨c, hc, hrun⟩ := innerRun_of_trimmed h
    exact ⟨c, hc, hrun.trans (infix_of_trimSpaces t)⟩
  · intro hgiven
    rcases hgiven with ⟨c, hc, a, b, rfl⟩
    have hother : ∃ d ∈ a, d ≠ ' ' := by
      by_contra hnone
      push Not at hnone
      apply hstart
      cases a with
      | nil => exact List.prefix_append [' ', ' '] (c :: b)
      | cons d a =>
        obtain ⟨rfl, hrest⟩ := List.forall_mem_cons.mp hnone
        cases a with
        | nil => exact List.prefix_append [' ', ' '] (' ' :: c :: b)
        | cons e a =>
          rw [hrest e List.mem_cons_self]
          exact List.prefix_append [' ', ' '] (a ++ [' ', ' ', c] ++ b)
    rcases hother with ⟨d, hd, hne⟩
    obtain ⟨x, y, rfl⟩ := List.append_of_mem hd
    have hdrop : (x ++ d :: y ++ [' ', ' ', c] ++ b).dropWhile isSpace =
        (x.dropWhile isSpace ++ d :: y) ++ [' ', ' '] ++ c :: b := by
      have h := dropWhile_append_cons hne x (y ++ ([' ', ' ', c] ++ b))
      simpa [List.append_assoc] using h
    obtain ⟨b', hb'⟩ := rdropWhile_append_cons hc (x.dropWhile isSpace ++ d :: y ++ [' ', ' ']) b
    rw [trimSpaces, trimBy, hdrop, hb', List.append_assoc]
    exact ((List.prefix_append [' ', ' '] (c :: b')).isInfix).trans
      (List.suffix_append (x.dropWhile isSpace ++ d :: y) _).isInfix

theorem collapseFirstRun_start (t : Text) : ¬ [' ', ' '] <+: collapseFirstRun t := by
  intro hgiven
  rcases hgiven with ⟨z, hz⟩
  cases t with
  | nil => cases hz
  | cons c cs =>
    by_cases h : c = ' ' ∧ cs.head? = some ' '
    · rw [collapseFirstRun_run h] at hz
      obtain ⟨_, hdrop⟩ := List.cons.inj hz
      rcases dropWhile_cases cs with hnil | ⟨d, y, hd, hcons⟩
      · rw [hnil] at hdrop
        cases hdrop
      · rw [hcons] at hdrop
        exact hd (List.cons.inj hdrop).1.symm
    · rw [collapseFirstRun_cons h] at hz
      obtain ⟨hc, htail⟩ := List.cons.inj hz
      apply h
      rw [← collapseFirstRun_head? cs, ← htail]
      exact ⟨hc.symm, rfl⟩

theorem mem_take_iff {n : Nat} {c : Char} {t : Text} :
    c ∈ t.take n ↔ ∃ u v, t = u ++ c :: v ∧ u.length < n := by
  constructor
  · intro h
    obtain ⟨u, v, huv⟩ := List.append_of_mem h
    have hlength := congrArg List.length huv
    rw [List.length_take, List.length_append, List.length_cons] at hlength
    refine ⟨u, v ++ t.drop n, ?_, by omega⟩
    rw [← List.cons_append, ← List.append_assoc, ← huv, List.take_append_drop]
  · intro hgiven
    rcases hgiven with ⟨u, v, rfl, hu⟩
    rw [List.take_append, List.mem_append]
    right
    obtain ⟨k, hk⟩ : ∃ k, n - u.length = k + 1 := ⟨n - u.length - 1, by omega⟩
    rw [hk]
    exact List.mem_cons_self

theorem infix_take_iff {n : Nat} {l : Text} {c : Char} {t : Text} :
    l ++ [c] <:+: t.take n ↔ ∃ u v, t = u ++ c :: v ∧ u.length < n ∧ l <:+ u := by
  constructor
  · intro h
    rcases h with ⟨a, b, hab⟩
    have hlength := congrArg List.length hab
    simp only [List.length_take, List.length_append, List.length_cons, List.length_nil] at hlength
    refine ⟨a ++ l, b ++ t.drop n, ?_, ?_, List.suffix_append a l⟩
    · conv_lhs => rw [← List.take_append_drop n t, ← hab]
      simp
    · rw [List.length_append]
      omega
  · intro h
    rcases h with ⟨u, v, rfl, hu, a, rfl⟩
    obtain ⟨k, hk⟩ : ∃ k, n = (a ++ l).length + 1 + k := ⟨n - (a ++ l).length - 1, by omega⟩
    refine ⟨a, v.take k, ?_⟩
    have hrest : (a ++ l).length + 1 + k - (a ++ l).length = k + 1 := by omega
    have hall : (a ++ l).take ((a ++ l).length + 1 + k) = a ++ l :=
      List.take_of_length_le (by omega)
    rw [hk, List.take_append, hrest, hall, List.take_succ_cons]
    simp

section Reading

variable (kept : Char → Bool)

def readBlank (t : Text) : Text :=
  t.takeWhile kept ++
    match t.dropWhile kept with
    | [] => []
    | _ :: rest => ' ' :: rest

/-- Whether a character after `before` counts as a blank: a space, or the first that is
forbidden. -/
def IsBlankAfter (before : Text) (c : Char) : Prop :=
  c = ' ' ∨ (kept c = false ∧ ∀ d ∈ before, kept d = true)

theorem readBlank_nil : readBlank kept [] = [] := rfl

theorem readBlank_kept {c : Char} (hc : kept c = true) (t : Text) :
    readBlank kept (c :: t) = c :: readBlank kept t := by
  simp only [readBlank, List.takeWhile_cons, List.dropWhile_cons, hc, ↓reduceIte, List.cons_append]

theorem readBlank_forbidden {c : Char} (hc : kept c = false) (t : Text) :
    readBlank kept (c :: t) = ' ' :: t := by
  simp only [readBlank, List.takeWhile_cons, List.dropWhile_cons, hc, Bool.false_eq_true,
    ↓reduceIte, List.nil_append]

theorem replaceFirst_eq_readBlank (t : Text) :
    replaceFirst (fun c => !kept c) ' ' t = readBlank kept t := by
  induction t with
  | nil => rfl
  | cons c t ih =>
    cases hc : kept c with
    | true => rw [replaceFirst, if_neg (by simp [hc]), ih, readBlank_kept kept hc]
    | false => rw [replaceFirst, if_pos (by simp [hc]), readBlank_forbidden kept hc]

theorem readBlank_length (t : Text) : (readBlank kept t).length = t.length := by
  rw [← replaceFirst_eq_readBlank, replaceFirst_length]

theorem readBlank_append_cons {x : Text} {c : Char} (hc : ¬ IsBlankAfter kept x c) (y : Text) :
    ∃ y', readBlank kept (x ++ c :: y) = readBlank kept x ++ c :: y' := by
  induction x with
  | nil =>
    have hkept : kept c = true := by
      by_contra hforbidden
      exact hc (Or.inr ⟨by simpa using hforbidden, by simp⟩)
    exact ⟨readBlank kept y, readBlank_kept kept hkept y⟩
  | cons d x ih =>
    cases hd : kept d with
    | true =>
      have hrest : ¬ IsBlankAfter kept x c := by
        intro hblank
        apply hc
        rcases hblank with hspace | ⟨hforbidden, hx⟩
        · exact Or.inl hspace
        · exact Or.inr ⟨hforbidden, List.forall_mem_cons.mpr ⟨hd, hx⟩⟩
      obtain ⟨y', hy'⟩ := ih hrest
      exact ⟨y', by rw [List.cons_append, readBlank_kept kept hd, hy', readBlank_kept kept hd,
        List.cons_append]⟩
    | false =>
      exact ⟨y, by rw [List.cons_append, readBlank_forbidden kept hd, readBlank_forbidden kept hd,
        List.cons_append]⟩

theorem readBlank_eq_append_cons {s u v : Text} {c : Char} (hc : c ≠ ' ')
    (h : readBlank kept s = u ++ c :: v) :
    ∃ x y, s = x ++ c :: y ∧ readBlank kept x = u ∧ ¬ IsBlankAfter kept x c := by
  induction s generalizing u with
  | nil => simp [readBlank_nil] at h
  | cons d s ih =>
    cases hd : kept d with
    | true =>
      rw [readBlank_kept kept hd] at h
      cases u with
      | nil =>
        obtain ⟨rfl, _⟩ := List.cons.inj h
        refine ⟨[], s, rfl, rfl, ?_⟩
        intro hgiven
        rcases hgiven with hspace | ⟨hforbidden, _⟩
        · exact hc hspace
        · rw [hd] at hforbidden
          cases hforbidden
      | cons e u =>
        rw [List.cons_append] at h
        obtain ⟨rfl, htail⟩ := List.cons.inj h
        obtain ⟨x, y, rfl, hx, hblank⟩ := ih htail
        refine ⟨d :: x, y, rfl, by rw [readBlank_kept kept hd, hx], ?_⟩
        intro hgiven
        rcases hgiven with hspace | ⟨hforbidden, hall⟩
        · exact hc hspace
        · exact hblank (Or.inr ⟨hforbidden, (List.forall_mem_cons.mp hall).2⟩)
    | false =>
      rw [readBlank_forbidden kept hd] at h
      cases u with
      | nil => exact absurd (List.cons.inj h).1.symm hc
      | cons e u =>
        rw [List.cons_append] at h
        obtain ⟨rfl, rfl⟩ := List.cons.inj h
        refine ⟨d :: u, v, rfl, readBlank_forbidden kept hd u, ?_⟩
        intro hgiven
        rcases hgiven with hspace | ⟨_, hall⟩
        · exact hc hspace
        · rw [hall d List.mem_cons_self] at hd
          cases hd

/-- The character `c` of the input is no blank and stands in the part that is kept: the
surplus blanks of the first run are not counted. -/
structure KeptAt (n : Nat) (s x : Text) (c : Char) (y : Text) : Prop where
  split : s = x ++ c :: y
  notBlank : ¬ IsBlankAfter kept x c
  fits : x.length < n + surplus (readBlank kept x)

/-- A second forbidden character in the part that is kept. -/
def SecondForbidden (n : Nat) (s : Text) : Prop :=
  ∃ x c y, KeptAt kept n s x c y ∧ kept c = false

/-- A second run of blanks, with another character after it, in the part that is kept. -/
def SecondRun (n : Nat) (s : Text) : Prop :=
  ∃ x c y, KeptAt kept n s x c y ∧ EndsWithRun (readBlank kept x) ∧ InnerRun (readBlank kept x)

theorem omitFirst_eq_append_cons {n : Nat} {s u : Text} {c : Char} (hc : c ≠ ' ') :
    (∃ v, omitFirst kept s = u ++ c :: v ∧ u.length < n) ↔
      ∃ x y, KeptAt kept n s x c y ∧ collapseFirstRun (readBlank kept x) = u := by
  unfold omitFirst
  rw [replaceFirst_eq_readBlank]
  have hlength : ∀ {x : Text}, collapseFirstRun (readBlank kept x) = u →
      u.length + surplus (readBlank kept x) = x.length := by
    rintro x rfl
    rw [collapseFirstRun_length, readBlank_length]
  constructor
  · intro h
    rcases h with ⟨v, hv, hn⟩
    obtain ⟨x', y', hread, hx'⟩ := collapseFirstRun_eq_append_cons hc hv
    obtain ⟨x, y, hs, rfl, hblank⟩ := readBlank_eq_append_cons kept hc hread
    have hx := hlength hx'
    exact ⟨x, y, ⟨hs, hblank, by omega⟩, hx'⟩
  · intro h
    rcases h with ⟨x, y, ⟨rfl, hblank, hfits⟩, hu⟩
    obtain ⟨y', hy'⟩ := readBlank_append_cons kept hblank y
    obtain ⟨v, hv⟩ := collapseFirstRun_append_cons hc (readBlank kept x) y'
    have hx := hlength hu
    exact ⟨v, by rw [hy', hv, hu], by omega⟩

theorem secondForbidden_iff (hblank : kept ' ' = true) {n : Nat} {s : Text} :
    SecondForbidden kept n s ↔ ∃ c ∈ (omitFirst kept s).take n, kept c = false := by
  constructor
  · intro hgiven
    rcases hgiven with ⟨x, c, y, hat, hc⟩
    have hne : c ≠ ' ' := fun h => hat.notBlank (Or.inl h)
    obtain ⟨v, hv, hn⟩ := (omitFirst_eq_append_cons kept hne).mpr ⟨x, y, hat, rfl⟩
    exact ⟨c, mem_take_iff.mpr ⟨_, v, hv, hn⟩, hc⟩
  · intro hgiven
    rcases hgiven with ⟨c, hmem, hc⟩
    have hne : c ≠ ' ' := by
      rintro rfl
      rw [hblank] at hc
      cases hc
    obtain ⟨u, v, hv, hn⟩ := mem_take_iff.mp hmem
    obtain ⟨x, y, hat, _⟩ := (omitFirst_eq_append_cons kept hne).mp ⟨v, hv, hn⟩
    exact ⟨x, c, y, hat, hc⟩

theorem secondRun_iff {n : Nat} {s : Text} :
    SecondRun kept n s ↔ InnerRun ((omitFirst kept s).take n) := by
  constructor
  · intro hgiven
    rcases hgiven with ⟨x, c, y, hat, hends, hinner⟩
    have hne : c ≠ ' ' := fun h => hat.notBlank (Or.inl h)
    obtain ⟨v, hv, hn⟩ := (omitFirst_eq_append_cons kept hne).mpr ⟨x, y, hat, rfl⟩
    have hrun := (endsWithRun_collapseFirstRun _).mpr ⟨hends, hinner⟩
    exact ⟨c, hne, (infix_take_iff (l := [' ', ' '])).mpr ⟨_, v, hv, hn, hrun⟩⟩
  · intro hgiven
    rcases hgiven with ⟨c, hne, hrun⟩
    obtain ⟨u, v, hv, hn, hends⟩ := (infix_take_iff (l := [' ', ' '])).mp hrun
    obtain ⟨x, y, hat, hx⟩ := (omitFirst_eq_append_cons kept hne).mp ⟨v, hv, hn⟩
    subst hx
    obtain ⟨h1, h2⟩ := (endsWithRun_collapseFirstRun _).mp hends
    exact ⟨x, c, y, hat, h1, h2⟩

structure Clean (n : Nat) (t : Text) : Prop where
  allowed : ∀ c ∈ t, kept c = true
  single : ¬ [' ', ' '] <:+: t
  leading : t.head? ≠ some ' '
  trailing : t.getLast? ≠ some ' '
  short : t.length ≤ n
  again : sanitise kept n t = some t

theorem replaceFirst_kept {t : Text} (h : ∀ c ∈ t, kept c = true) :
    replaceFirst (fun c => !kept c) ' ' t = t := by
  induction t with
  | nil => rfl
  | cons c t ih =>
    obtain ⟨hc, hrest⟩ := List.forall_mem_cons.mp h
    rw [replaceFirst, if_neg (by simp [hc]), ih hrest]

theorem collapseFirstRun_single {t : Text} (h : ¬ [' ', ' '] <:+: t) : collapseFirstRun t = t := by
  induction t with
  | nil => rfl
  | cons c t ih =>
    rw [collapseFirstRun_cons, ih fun hrun => h (hrun.trans (List.suffix_cons c t).isInfix)]
    intro hgiven
    rcases hgiven with ⟨rfl, hhead⟩
    obtain ⟨t, rfl⟩ := List.head?_eq_some_iff.mp hhead
    exact h (List.prefix_append [' ', ' '] t).isInfix

theorem sanitise_clean {n : Nat} {t : Text} (hallowed : ∀ c ∈ t, kept c = true)
    (hsingle : ¬ [' ', ' '] <:+: t) (htrim : trimSpaces t = t) (hshort : t.length ≤ n)
    (hne : t ≠ []) : sanitise kept n t = some t := by
  rw [sanitise, omitFirst, replaceFirst_kept kept hallowed, collapseFirstRun_single hsingle,
    List.take_of_length_le hshort, htrim]
  exact nullIfEmpty_eq_some.mpr ⟨rfl, hne⟩

/-- The rewritten value is `NULL` or clean exactly when one replacement of each kind was
enough for the part of the input that is kept. -/
theorem sanitise_clean_iff (hblank : kept ' ' = true) (n : Nat) (s : Text) :
    (∀ t, sanitise kept n s = some t → Clean kept n t) ↔
      ¬ SecondForbidden kept n s ∧ ¬ SecondRun kept n s := by
  have hrun := run_trimSpaces_iff (t := (omitFirst kept s).take n) fun h =>
    collapseFirstRun_start _ (h.trans (List.take_prefix n _))
  rw [secondForbidden_iff kept hblank, secondRun_iff, ← hrun]
  constructor
  · intro hclean
    have hboth : (∀ c ∈ trimSpaces ((omitFirst kept s).take n), kept c = true) ∧
        ¬ [' ', ' '] <:+: trimSpaces ((omitFirst kept s).take n) := by
      by_cases hempty : trimSpaces ((omitFirst kept s).take n) = []
      · rw [hempty]
        simp
      · have h := hclean _ (nullIfEmpty_eq_some.mpr ⟨rfl, hempty⟩)
        exact ⟨h.allowed, h.single⟩
    refine ⟨?_, hboth.2⟩
    intro hgiven
    rcases hgiven with ⟨c, hc, hforbidden⟩
    have hspace : isSpace c = false := by
      apply isSpace_of_ne
      rintro rfl
      rw [hblank] at hforbidden
      cases hforbidden
    rw [hboth.1 c (mem_trimBy hc hspace)] at hforbidden
    cases hforbidden
  · rintro ⟨hallowed, hsingle⟩ t ht
    obtain ⟨rfl, hne⟩ := nullIfEmpty_eq_some.mp ht
    have hsub := trimBy_sublist isSpace ((omitFirst kept s).take n)
    have hkept : ∀ c ∈ trimSpaces ((omitFirst kept s).take n), kept c = true := by
      intro c hc
      by_contra hforbidden
      exact hallowed ⟨c, hsub.mem hc, by simpa using hforbidden⟩
    have hshort : (trimSpaces ((omitFirst kept s).take n)).length ≤ n :=
      hsub.length_le.trans (List.length_take_le n _)
    have htrim := trimBy_trimBy isSpace ((omitFirst kept s).take n)
    obtain ⟨hhead, hlast⟩ := trimSpaces_ends ((omitFirst kept s).take n)
    exact ⟨hkept, hsingle, fun h => hhead ' ' h rfl, fun h => hlast ' ' h rfl, hshort,
      sanitise_clean kept hkept hsingle htrim hshort hne⟩

end Reading

/-- The filters of a query: each is `NULL` or clean unless the part that is kept of what was
supplied holds a second forbidden character or a second run of blanks. -/
theorem filters_clean_iff (f : FilterField) (params : ExtractParams) :
    (∀ t, f.rewritten (paramFilters params) = some t → Clean isKept f.maxLength t) ↔
      ∀ s, f.supplied params = some s →
        ¬ SecondForbidden isKept f.maxLength s ∧ ¬ SecondRun isKept f.maxLength s := by
  have hvalue : f.rewritten (paramFilters params) =
      (f.supplied params).bind (sanitise isKept f.maxLength) := by
    cases f <;> rfl
  rw [hvalue]
  cases f.supplied params with
  | none => simp
  | some s =>
    rw [Option.bind_some, sanitise_clean_iff isKept isKept_blank]
    simp only [Option.some.injEq, forall_eq']

theorem two_tabs_kept :
    (sanitise isKept 255 "a\tb\tc".toList = some "a b\tc".toList ∧
      ¬ Clean isKept 255 "a b\tc".toList) ∧
    sanitise isKept 255 "a  b  c".toList = some "a b  c".toList ∧
      sanitise isKept 255 "a b  c".toList = some "a b c".toList := by
  constructor
  · constructor
    · decide +kernel
    · intro h
      have htab : isKept '\t' = false := by decide +kernel
      rw [h.allowed '\t' (by decide)] at htab
      cases htab
  · constructor
    · decide +kernel
    · decide +kernel

end PostgresSanitising
