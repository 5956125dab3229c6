import Mathlib.Data.List.Sort
import Mathlib.Data.List.Nodup
import Mathlib.Data.List.Pairwise
import Mathlib.Order.Basic

/-! # Ordered selections

The first rows, in order, of those that satisfy a condition, over arbitrary rows and
orders. Rows beyond the cut can come and go without changing the selection.
-/
namespace OrderedSelection

variable {α β : Type*}

theorem transCmp_comap {c : β → β → Ordering} (h : Std.TransCmp c) (f : α → β) :
    Std.TransCmp fun a b => c (f a) (f b) where
  eq_swap := h.eq_swap
  isLE_trans := h.isLE_trans

/-- Nullable values compare as transitively as their values, with all nulls equal, and on one
side of every value. -/
theorem transCmp_option {c : β → β → Ordering} (h : Std.TransCmp c)
    {d : Option β → Option β → Ordering} {o : Ordering} (ho : o ≠ .eq)
    (hsome : ∀ a b, d (some a) (some b) = c a b) (hnone : d none none = .eq)
    (hleft : ∀ b, d none (some b) = o) (hright : ∀ a, d (some a) none = o.swap) :
    Std.TransCmp d where
  eq_swap := by
    intro a b
    cases a with
    | none =>
      cases b with
      | none => rw [hnone, Ordering.swap]
      | some b => rw [hleft, hright, Ordering.swap_swap]
    | some a =>
      cases b with
      | none => rw [hleft, hright]
      | some b => rw [hsome, hsome, h.eq_swap]
  isLE_trans := by
    intro a b e hab hbe
    cases a with
    | none =>
      cases e with
      | none => rw [hnone, Ordering.isLE_eq]
      | some e =>
        cases b with
        | none => exact hbe
        | some b => rwa [hleft] at hab ⊢
    | some a =>
      cases b with
      | none =>
        cases e with
        | none => exact hab
        | some e =>
          -- Nulls are not on both sides of the values.
          rw [hright] at hab
          rw [hleft] at hbe
          cases o with
          | lt => cases hab
          | eq => exact absurd rfl ho
          | gt => cases hbe
      | some b =>
        cases e with
        | none => rwa [hright] at hbe ⊢
        | some e =>
          rw [hsome] at hab hbe ⊢
          exact h.isLE_trans hab hbe

theorem isLE_total {c : α → α → Ordering} (h : Std.TransCmp c) (a b : α) :
    (c a b).isLE = true ∨ (c b a).isLE = true := by
  rw [h.eq_swap (a := a)]
  cases c b a with
  | lt => exact Or.inr rfl
  | eq => exact Or.inl rfl
  | gt => exact Or.inl rfl

theorem compare_self {c : α → α → Ordering} (h : Std.TransCmp c) (a : α) : c a a = .eq := by
  have horiented := h.toOrientedCmp
  exact Std.ReflCmp.compare_self

/-- The first `k` rows, in order, of those that satisfy `p`. -/
def select (r : α → α → Prop) [DecidableRel r] (p : α → Bool) (k : Nat) (rows : List α) : List α :=
  ((rows.filter p).insertionSort r).take k

theorem take_filter {p : α → Bool} {k : Nat} {l : List α} (h : ∀ a ∈ l.take k, p a = true) :
    (l.filter p).take k = l.take k := by
  have hsplit : l.filter p = l.take k ++ (l.drop k).filter p := by
    conv_lhs => rw [← List.take_append_drop k l]
    rw [List.filter_append, List.filter_eq_self.mpr h]
  rw [hsplit]
  rcases Nat.le_total k l.length with hk | hk
  · exact List.take_left' (List.length_take_of_le hk)
  · rw [List.drop_of_length_le hk, List.filter_nil, List.append_nil, List.take_take, Nat.min_self]

variable (r : α → α → Prop) [DecidableRel r] [Std.Total r] [IsTrans α r]

/-- No two different rows of the list are equal in the order. -/
def Discerns (rows : List α) : Prop := ∀ a ∈ rows, ∀ b ∈ rows, r a b → r b a → a = b

variable {r} {p : α → Bool} {k : Nat} {l l' : List α}

theorem insertionSort_eq_of_perm (hr : Discerns r l) (h : l.Perm l') :
    l.insertionSort r = l'.insertionSort r := by
  have hperm : (l.insertionSort r).Perm (l'.insertionSort r) :=
    (l.perm_insertionSort r).trans (h.trans (l'.perm_insertionSort r).symm)
  refine hperm.eq_of_pairwise ?_ (l.pairwise_insertionSort r) (l'.pairwise_insertionSort r)
  intro a b ha hb hab hba
  have ha' := (l.perm_insertionSort r).mem_iff.mp ha
  have hb' := (h.trans (l'.perm_insertionSort r).symm).mem_iff.mpr hb
  exact hr a ha' b hb' hab hba

theorem insertionSort_filter (hr : Discerns r l) :
    (l.filter p).insertionSort r = (l.insertionSort r).filter p := by
  have hperm : ((l.filter p).insertionSort r).Perm ((l.insertionSort r).filter p) :=
    ((l.filter p).perm_insertionSort r).trans ((l.perm_insertionSort r).filter p).symm
  refine hperm.eq_of_pairwise ?_ ((l.filter p).pairwise_insertionSort r)
    ((l.pairwise_insertionSort r).filter p)
  intro a b ha hb hab hba
  have ha' := List.mem_of_mem_filter (((l.filter p).perm_insertionSort r).mem_iff.mp ha)
  have hb' := (l.perm_insertionSort r).mem_iff.mp (List.mem_of_mem_filter hb)
  exact hr a ha' b hb' hab hba

omit [Std.Total r] in
theorem pairwise_orderedInsert_iff {lt : α → α → Prop} {a : α} (h : l.Pairwise r) :
    (l.orderedInsert r a).Pairwise lt ↔
      (∀ b ∈ l, if r a b then lt a b else lt b a) ∧ l.Pairwise lt := by
  induction l with
  | nil => simp
  | cons b l ih =>
    obtain ⟨hb, hl⟩ := List.pairwise_cons.mp h
    by_cases hab : r a b
    · have hall : ∀ c ∈ b :: l, r a c := by
        intro c hc
        rcases List.mem_cons.mp hc with rfl | hc
        · exact hab
        · exact IsTrans.trans a b c hab (hb c hc)
      rw [List.orderedInsert_cons_of_le r l hab, List.pairwise_cons]
      refine and_congr_left fun _ => forall₂_congr fun c hc => ?_
      rw [if_pos (hall c hc)]
    · rw [List.orderedInsert_of_not_le r l hab, List.pairwise_cons, ih hl, List.forall_mem_cons,
        if_neg hab, List.pairwise_cons]
      constructor
      · rintro ⟨hhead, hins, htail⟩
        refine ⟨⟨hhead a ?_, hins⟩, fun c hc => hhead c ?_, htail⟩
        · exact (List.perm_orderedInsert r a l).symm.subset List.mem_cons_self
        · exact (List.perm_orderedInsert r a l).symm.subset (List.mem_cons_of_mem a hc)
      · rintro ⟨⟨hba, hins⟩, hhead, htail⟩
        refine ⟨fun c hc => ?_, hins, htail⟩
        rcases List.mem_cons.mp ((List.perm_orderedInsert r a l).subset hc) with rfl | hc
        · exact hba
        · exact hhead c hc

/-- A sorted list is in another order exactly when both orders agree on every two rows; of
two rows that are equal in the first order, the one that stands first stays first. -/
theorem pairwise_insertionSort_iff {lt : α → α → Prop} :
    (l.insertionSort r).Pairwise lt ↔ l.Pairwise fun a b => if r a b then lt a b else lt b a := by
  induction l with
  | nil => simp
  | cons a l ih =>
    rw [List.insertionSort_cons, pairwise_orderedInsert_iff (l.pairwise_insertionSort r), ih,
      List.pairwise_cons]
    simp only [List.mem_insertionSort]

omit [DecidableRel r] [Std.Total r] [IsTrans α r] in
theorem pairwise_either (h : l.Pairwise r) {a b : α} (ha : a ∈ l) (hb : b ∈ l) (hne : a ≠ b) :
    r a b ∨ r b a := by
  have hsymm : Std.Symm fun a b : α => r a b ∨ r b a := ⟨fun _ _ => Or.symm⟩
  exact (h.imp Or.inl : l.Pairwise fun a b => r a b ∨ r b a).forall ha hb hne

theorem sublist_either {a b : α} (ha : a ∈ l) (hb : b ∈ l) (hne : a ≠ b) :
    [a, b].Sublist l ∨ [b, a].Sublist l :=
  pairwise_either (r := fun a b => [a, b].Sublist l) (List.pairwise_iff_forall_sublist.mpr id) ha hb
    hne

theorem sublist_asymm (hl : l.Nodup) {a b : α} (hab : [a, b].Sublist l) : ¬ [b, a].Sublist l := by
  induction l with
  | nil => simp at hab
  | cons c l ih =>
    obtain ⟨hc, hl⟩ := List.nodup_cons.mp hl
    intro hba
    cases hab with
    | cons _ hab =>
      cases hba with
      | cons _ hba => exact ih hl hab hba
      | cons_cons _ hba => exact hc (hab.subset (by simp))
    | cons_cons _ hab =>
      cases hba with
      | cons _ hba => exact hc (hba.subset (by simp))
      | cons_cons _ hba => exact hc (hba.subset (by simp))

/-- The sorted rows are in a strict order exactly when every row sorts before the rows that
it precedes in that order, and stands before those it is sorted equal to. -/
theorem insertionSort_ordered_iff {lt : α → α → Prop} (hl : l.Nodup)
    (hasymm : ∀ a b, lt a b → ¬ lt b a) (htotal : ∀ a ∈ l, ∀ b ∈ l, a ≠ b → lt a b ∨ lt b a) :
    (l.insertionSort r).Pairwise lt ↔
      ∀ a ∈ l, ∀ b ∈ l, lt a b → r a b ∧ (r b a → [a, b].Sublist l) := by
  rw [pairwise_insertionSort_iff, List.pairwise_iff_forall_sublist]
  constructor
  · intro h a ha b hb hlt
    have hne : a ≠ b := by
      rintro rfl
      exact hasymm a a hlt hlt
    rcases sublist_either ha hb hne with hsub | hsub
    · have hif := h hsub
      by_cases hab : r a b
      · exact ⟨hab, fun _ => hsub⟩
      · rw [if_neg hab] at hif
        exact absurd hif (hasymm a b hlt)
    · have hif := h hsub
      by_cases hba : r b a
      · rw [if_pos hba] at hif
        exact absurd hif (hasymm a b hlt)
      · exact ⟨(Std.Total.total (r := r) a b).resolve_right hba, fun h => absurd h hba⟩
  · intro h a b hsub
    have ha : a ∈ l := hsub.subset (by simp)
    have hb : b ∈ l := hsub.subset (by simp)
    have hne : a ≠ b := by
      rintro rfl
      exact absurd (hl.sublist hsub) (by simp)
    rcases htotal a ha b hb hne with hlt | hlt
    · rw [if_pos (h a ha b hb hlt).1]
      exact hlt
    · obtain ⟨_, htie⟩ := h b hb a ha hlt
      rw [if_neg fun hab => sublist_asymm hl hsub (htie hab)]
      exact hlt

theorem select_eq_of_subset [DecidableEq α] {old new : List α} (hr : Discerns r old)
    (hold : old.Nodup) (hnew : new.Nodup) (hsub : new ⊆ old)
    (h : ∀ a ∈ select r p k old, a ∈ new) : select r p k new = select r p k old := by
  have hperm : (new.filter p).Perm ((old.filter p).filter fun a => decide (a ∈ new)) := by
    apply (List.perm_ext_iff_of_nodup (hnew.filter _) ((hold.filter _).filter _)).mpr
    intro a
    simp only [List.mem_filter, decide_eq_true_eq]
    constructor
    · rintro ⟨ha, hpa⟩
      exact ⟨⟨hsub ha, hpa⟩, ha⟩
    · rintro ⟨⟨_, hpa⟩, ha⟩
      exact ⟨ha, hpa⟩
  have hfilter : Discerns r (old.filter p) := fun a ha b hb =>
    hr a (List.mem_of_mem_filter ha) b (List.mem_of_mem_filter hb)
  have hnewr : Discerns r (new.filter p) := fun a ha b hb =>
    hr a (hsub (List.mem_of_mem_filter ha)) b (hsub (List.mem_of_mem_filter hb))
  unfold select
  rw [insertionSort_eq_of_perm hnewr hperm, insertionSort_filter hfilter]
  exact take_filter fun a ha => decide_eq_true (h a ha)

omit [Std.Total r] [IsTrans α r] in
theorem length_select (rows : List α) :
    (select r p k rows).length = min k (rows.filter p).length := by
  rw [select, List.length_take, List.length_insertionSort]

omit [Std.Total r] [IsTrans α r] in
theorem select_prefix {k' : Nat} (h : k ≤ k') (rows : List α) :
    select r p k rows <+: select r p k' rows :=
  List.take_prefix_take_left h

theorem insertionSort_converse {s : α → α → Prop} [DecidableRel s] [Std.Total s] [IsTrans α s]
    (hr : Discerns r l) (hs : ∀ a b, s a b ↔ r b a) :
    l.insertionSort s = (l.insertionSort r).reverse := by
  have hperm : (l.insertionSort s).Perm (l.insertionSort r).reverse :=
    (l.perm_insertionSort s).trans
      ((l.perm_insertionSort r).symm.trans (List.reverse_perm _).symm)
  have hreversed : (l.insertionSort r).reverse.Pairwise s := by
    rw [List.pairwise_reverse]
    exact (l.pairwise_insertionSort r).imp fun hab => (hs _ _).mpr hab
  apply hperm.eq_of_pairwise _ (l.pairwise_insertionSort s) hreversed
  intro a b ha hb hab hba
  have ha' := (l.perm_insertionSort s).mem_iff.mp ha
  have hb' := (l.perm_insertionSort s).mem_iff.mp (hperm.mem_iff.mpr hb)
  exact hr a ha' b hb' ((hs b a).mp hba) ((hs a b).mp hab)

/-- When the page holds every row that satisfies the condition, the page of the converse
order is the reverse. -/
theorem select_converse {s : α → α → Prop} [DecidableRel s] [Std.Total s] [IsTrans α s]
    {rows : List α} (hr : Discerns r rows) (hs : ∀ a b, s a b ↔ r b a)
    (hk : (rows.filter p).length ≤ k) : select s p k rows = (select r p k rows).reverse := by
  have hfilter : Discerns r (rows.filter p) := fun a ha b hb =>
    hr a (List.mem_of_mem_filter ha) b (List.mem_of_mem_filter hb)
  rw [select, select, List.take_of_length_le, List.take_of_length_le,
    insertionSort_converse hfilter hs]
  · rw [List.length_insertionSort]
    exact hk
  · rw [List.length_insertionSort]
    exact hk

section Represented

variable {R : α → β → Prop} {s : β → β → Prop} [DecidableRel s] {q : β → Bool} {m : List β}

omit [Std.Total r] [IsTrans α r] in
theorem orderedInsert_represented
    (hrs : ∀ a b a' b', R a b → R a' b' → (r a a' ↔ s b b')) {a : α} {b : β} (hab : R a b)
    (h : List.Forall₂ R l m) : List.Forall₂ R (l.orderedInsert r a) (m.orderedInsert s b) := by
  induction h with
  | nil => exact .cons hab .nil
  | @cons a' b' l m hab' htail ih =>
    by_cases hle : r a a'
    · rw [List.orderedInsert_cons_of_le r l hle,
        List.orderedInsert_cons_of_le s m ((hrs a b a' b' hab hab').mp hle)]
      exact .cons hab (.cons hab' htail)
    · rw [List.orderedInsert_of_not_le r l hle,
        List.orderedInsert_of_not_le s m (mt (hrs a b a' b' hab hab').mpr hle)]
      exact .cons hab' ih

omit [Std.Total r] [IsTrans α r] in
theorem insertionSort_represented (hrs : ∀ a b a' b', R a b → R a' b' → (r a a' ↔ s b b'))
    (h : List.Forall₂ R l m) : List.Forall₂ R (l.insertionSort r) (m.insertionSort s) := by
  induction h with
  | nil => exact .nil
  | cons hab _ ih =>
    rw [List.insertionSort_cons, List.insertionSort_cons]
    exact orderedInsert_represented hrs hab ih

omit [Std.Total r] [IsTrans α r] in
/-- The selection of rows that stand for others stands for the selection of those. -/
theorem select_represented (hpq : ∀ a b, R a b → p a = q b)
    (hrs : ∀ a b a' b', R a b → R a' b' → (r a a' ↔ s b b')) (h : List.Forall₂ R l m) :
    List.Forall₂ R (select r p k l) (select s q k m) := by
  have hfilter : List.Forall₂ R (l.filter p) (m.filter q) :=
    List.rel_filter (fun a b hab => by simp only [hpq a b hab]) h
  exact List.forall₂_take k (insertionSort_represented hrs hfilter)

end Represented

end OrderedSelection
