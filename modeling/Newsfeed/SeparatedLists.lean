import Mathlib.Data.List.Basic

/-! # Lists with separators

Cutting a list at the first separator, and the first pieces of `List.splitOn`.
-/
namespace SeparatedLists

variable {α : Type*} {c : α} {s : List α}

theorem split_unique {t u v : List α} (hs : c ∉ s) (ht : c ∉ t)
    (h : s ++ c :: u = t ++ c :: v) : s = t ∧ u = v := by
  induction s generalizing t with
  | nil =>
    cases t with
    | nil => exact ⟨rfl, (List.cons.inj h).2⟩
    | cons d t =>
      have hd := (List.cons.inj h).1
      exact absurd (hd ▸ List.mem_cons_self) ht
  | cons d s ih =>
    cases t with
    | nil =>
      have hd := (List.cons.inj h).1
      exact absurd (hd ▸ List.mem_cons_self) hs
    | cons e t =>
      obtain ⟨hde, hrest⟩ := List.cons.inj h
      obtain ⟨hst, huv⟩ := ih (List.not_mem_of_not_mem_cons hs) (List.not_mem_of_not_mem_cons ht)
        hrest
      exact ⟨hde ▸ hst ▸ rfl, huv⟩

theorem cuts_differ {d : α} (hcd : c ≠ d) {t u v w : List α} (ht : d ∉ t) (hu : c ∉ u)
    (h : t ++ c :: v = u ++ d :: w) : False := by
  rcases List.append_eq_append_iff.mp h with ⟨as, rfl, has⟩ | ⟨bs, rfl, hbs⟩
  · cases as with
    | nil => exact hcd (List.cons.inj has).1
    | cons a as =>
      have ha := (List.cons.inj has).1
      exact hu (ha ▸ List.mem_append_right t List.mem_cons_self)
  · cases bs with
    | nil => exact hcd (List.cons.inj hbs).1.symm
    | cons b bs =>
      have hb := (List.cons.inj hbs).1
      exact ht (hb ▸ List.mem_append_right u List.mem_cons_self)

/-- A word whose first letter does not occur in it again cannot start inside what stands
before its next occurrence. -/
theorem eq_nil_of_word_prefix {w t v : List α} (hw : c ∉ w) (ht : ¬ c :: w <+: t)
    (h : c :: w <+: t ++ (c :: w ++ v)) : t = [] := by
  rcases List.prefix_or_prefix_of_prefix h (List.prefix_append t _) with hpre | ⟨rest, hrest⟩
  · exact absurd hpre ht
  · cases t with
    | nil => rfl
    | cons d t =>
      rw [← hrest, List.prefix_append_right_inj] at h
      cases rest with
      | nil =>
        rw [← hrest, List.append_nil] at ht
        exact absurd (List.prefix_refl _) ht
      | cons e rest =>
        have hd : d = c := (List.cons.inj hrest).1
        have he : e = d := (List.cons_prefix_cons.mp h).1
        have hmem : e ∈ w := (List.cons.inj hrest).2 ▸ List.mem_append_right t List.mem_cons_self
        exact absurd (hd ▸ he ▸ hmem) hw

theorem all_intercalate {p : α → Bool} (hc : p c = true) (parts : List (List α)) :
    ([c].intercalate parts).all p = parts.all fun part => part.all p := by
  induction parts with
  | nil => rfl
  | cons part parts ih =>
    cases parts with
    | nil => simp
    | cons part' parts =>
      rw [List.intercalate_cons_cons, List.all_append, ih, List.all_append, List.all_cons,
        List.all_cons, List.all_cons, List.all_nil, hc, Bool.and_self, Bool.and_true]
      rfl

theorem map_intercalate {β : Type*} (f : α → β) (parts : List (List α)) :
    ([c].intercalate parts).map f = [f c].intercalate (parts.map (List.map f)) := by
  induction parts with
  | nil => rfl
  | cons part parts ih =>
    cases parts with
    | nil => simp
    | cons part' parts =>
      rw [List.intercalate_cons_cons, List.map_append, List.map_append, ih]
      simp only [List.map_cons, List.map_nil, List.intercalate_cons_cons]

variable [DecidableEq α]

theorem ne_of_before {m : List α} (hm : c ∉ m) : ∀ d ∈ m, (d != c) = true := by
  intro d hd
  rw [bne_iff_ne]
  intro hdc
  exact hm (hdc ▸ hd)

theorem not_mem_intercalate {d : α} (hcd : c ≠ d) {pieces : List (List α)}
    (h : ∀ p ∈ pieces, d ∉ p) : d ∉ [c].intercalate pieces := by
  have hall : ([c].intercalate pieces).all (· != d) = true := by
    rw [all_intercalate (by rwa [bne_iff_ne]), List.all_eq_true]
    intro p hp
    rw [List.all_eq_true]
    exact ne_of_before (h p hp)
  intro hmem
  exact bne_iff_ne.mp (List.all_eq_true.mp hall d hmem) rfl

theorem takeWhile_before {m : List α} (hm : c ∉ m) (r : List α) :
    (m ++ c :: r).takeWhile (· != c) = m := by
  rw [List.takeWhile_append_of_pos (ne_of_before hm), List.takeWhile_cons_of_neg (by simp),
    List.append_nil]

theorem dropWhile_before {m : List α} (hm : c ∉ m) (r : List α) :
    (m ++ c :: r).dropWhile (· != c) = c :: r := by
  rw [List.dropWhile_append_of_pos (ne_of_before hm), List.dropWhile_cons_of_neg (by simp)]

theorem second_piece {b : List α} : (s.splitOn c)[1]? = some b ↔
    ∃ a rest, s = a ++ c :: (b ++ rest) ∧ c ∉ a ∧ c ∉ b ∧ (rest = [] ∨ ∃ r, rest = c :: r) := by
  constructor
  · intro h
    by_cases hc : c ∈ s
    · obtain ⟨a, q, rfl, ha⟩ := List.eq_append_cons_of_mem hc
      rw [List.splitOn_append_cons_self_of_not_mem ha, List.getElem?_cons_succ] at h
      by_cases hq : c ∈ q
      · obtain ⟨d, r, rfl, hd⟩ := List.eq_append_cons_of_mem hq
        rw [List.splitOn_append_cons_self_of_not_mem hd, List.getElem?_cons_zero] at h
        cases h
        exact ⟨a, c :: r, rfl, ha, hd, Or.inr ⟨r, rfl⟩⟩
      · rw [List.splitOn_eq_singleton hq, List.getElem?_cons_zero] at h
        cases h
        exact ⟨a, [], by rw [List.append_nil], ha, hq, Or.inl rfl⟩
    · rw [List.splitOn_eq_singleton hc] at h
      cases h
  · rintro ⟨a, rest, rfl, ha, hb, hrest⟩
    rw [List.splitOn_append_cons_self_of_not_mem ha, List.getElem?_cons_succ]
    rcases hrest with rfl | ⟨r, rfl⟩
    · rw [List.append_nil, List.splitOn_eq_singleton hb, List.getElem?_cons_zero]
    · rw [List.splitOn_append_cons_self_of_not_mem hb, List.getElem?_cons_zero]

theorem two_pieces {a b : List α} :
    s.splitOn c = [a, b] ↔ s = a ++ c :: b ∧ c ∉ a ∧ c ∉ b := by
  constructor
  · intro h
    by_cases hc : c ∈ s
    · obtain ⟨a', q, rfl, ha⟩ := List.eq_append_cons_of_mem hc
      rw [List.splitOn_append_cons_self_of_not_mem ha] at h
      obtain ⟨rfl, h⟩ := List.cons.inj h
      by_cases hq : c ∈ q
      · obtain ⟨d, r, rfl, hd⟩ := List.eq_append_cons_of_mem hq
        rw [List.splitOn_append_cons_self_of_not_mem hd] at h
        exact absurd (List.cons.inj (List.cons.inj h).2).2 (List.splitOn_ne_nil c r)
      · rw [List.splitOn_eq_singleton hq] at h
        cases h
        exact ⟨rfl, ha, hq⟩
    · rw [List.splitOn_eq_singleton hc] at h
      cases h
  · rintro ⟨rfl, ha, hb⟩
    rw [List.splitOn_append_cons_self_of_not_mem ha, List.splitOn_eq_singleton hb]

theorem not_mem_of_mem_splitOn {p : List α} (hp : p ∈ s.splitOn c) : c ∉ p := by
  induction s generalizing p with
  | nil =>
    rw [List.splitOn_nil, List.mem_singleton] at hp
    rw [hp]
    exact List.not_mem_nil
  | cons d s ih =>
    obtain ⟨q, qs, hsplit⟩ := List.exists_cons_of_ne_nil (List.splitOn_ne_nil c s)
    rw [List.splitOn_cons_eq_if_modifyHead] at hp
    by_cases hd : d = c
    · rw [if_pos (beq_iff_eq.mpr hd)] at hp
      rcases List.mem_cons.mp hp with rfl | hp
      · exact List.not_mem_nil
      · exact ih hp
    · rw [if_neg (by simpa using hd), hsplit, List.modifyHead_cons] at hp
      rcases List.mem_cons.mp hp with rfl | hp
      · have hq := ih (hsplit ▸ List.mem_cons_self)
        exact fun hmem => (List.mem_cons.mp hmem).elim (fun h => hd h.symm) hq
      · exact ih (hsplit ▸ List.mem_cons_of_mem q hp)

theorem splitOn_append_last (s : List α) : ∃ pieces last, s.splitOn c = pieces ++ [last] ∧
    ∀ w, c ∉ w → (s ++ (w ++ [c])).splitOn c = pieces ++ [last ++ w, []] := by
  induction s with
  | nil =>
    refine ⟨[], [], by rw [List.splitOn_nil]; rfl, ?_⟩
    intro w hw
    rw [List.nil_append, List.splitOn_append_cons_self_of_not_mem hw, List.splitOn_nil]
    rfl
  | cons d s ih =>
    rcases ih with ⟨pieces, last, hsplit, happend⟩
    by_cases hd : d = c
    · refine ⟨[] :: pieces, last, ?_, ?_⟩
      · rw [List.splitOn_cons_eq_if_modifyHead, if_pos (beq_iff_eq.mpr hd), hsplit,
          List.cons_append]
      · intro w hw
        rw [List.cons_append, List.splitOn_cons_eq_if_modifyHead, if_pos (beq_iff_eq.mpr hd),
          happend w hw, List.cons_append]
    · have hd' : ¬ (d == c) = true := by simpa using hd
      cases pieces with
      | nil =>
        refine ⟨[], d :: last, ?_, ?_⟩
        · rw [List.splitOn_cons_eq_if_modifyHead, if_neg hd', hsplit]
          rfl
        · intro w hw
          rw [List.cons_append, List.splitOn_cons_eq_if_modifyHead, if_neg hd', happend w hw]
          rfl
      | cons p pieces =>
        refine ⟨(d :: p) :: pieces, last, ?_, ?_⟩
        · rw [List.splitOn_cons_eq_if_modifyHead, if_neg hd', hsplit]
          rfl
        · intro w hw
          rw [List.cons_append, List.splitOn_cons_eq_if_modifyHead, if_neg hd', happend w hw]
          rfl

theorem splitOn_map {β : Type*} [DecidableEq β] {f : α → β} (hf : ∀ x ∈ s, f x = f c → x = c) :
    (s.map f).splitOn (f c) = (s.splitOn c).map (List.map f) := by
  induction s with
  | nil => rfl
  | cons x s ih =>
    have hhead : (f x == f c) = (x == c) := by
      by_cases h : x = c
      · rw [h, beq_self_eq_true, beq_self_eq_true]
      · rw [beq_false_of_ne h, beq_false_of_ne fun heq => h (hf x List.mem_cons_self heq)]
    have htail := ih fun y hy => hf y (List.mem_cons_of_mem x hy)
    obtain ⟨piece, pieces, hsplit⟩ := List.exists_cons_of_ne_nil (List.splitOn_ne_nil c s)
    rw [List.map_cons, List.splitOn_cons_eq_if_modifyHead, List.splitOn_cons_eq_if_modifyHead,
      hhead, htail, hsplit]
    split
    · rfl
    · rfl

theorem splitOn_replace {d : α} (hd : d ∉ s) :
    (s.map fun x => if x = c then d else x).splitOn d = s.splitOn c := by
  have hf : ∀ x ∈ s, (if x = c then d else x) = (if c = c then d else c) → x = c := by
    intro x hx heq
    by_contra hxc
    rw [if_neg hxc, if_pos rfl] at heq
    exact hd (heq ▸ hx)
  have hmap := splitOn_map hf
  have hkeep : (s.splitOn c).map (List.map fun x => if x = c then d else x) =
      (s.splitOn c).map id := by
    apply List.map_congr_left
    intro p hp
    have hp' : p.map (fun x => if x = c then d else x) = p.map id := by
      apply List.map_congr_left
      intro x hx
      have hxc : x ≠ c := fun h => not_mem_of_mem_splitOn hp (h ▸ hx)
      rw [if_neg hxc, id]
    rw [hp', List.map_id, id]
  rwa [if_pos rfl, hkeep, List.map_id] at hmap

end SeparatedLists
