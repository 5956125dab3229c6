import Mathlib.Algebra.Ring.Nat
import Mathlib.Data.List.Nodup
import Mathlib.Data.List.Pairwise
import Mathlib.Data.List.Forall2
import Mathlib.Algebra.BigOperators.Group.List.Basic

/-! # Tables as lists of rows

Outer joins, keys and their counting rules, over arbitrary row types. A join
condition is a Boolean relation, a key is a projection with distinct values.
-/
namespace RelationalTables

variable {α β γ κ : Type*}

/-- `a LEFT JOIN b ON cond`: a row without partner appears once, paired with `NULL`s. -/
def leftJoin (cond : α → β → Bool) (as : List α) (bs : List β) : List (α × Option β) :=
  as.flatMap fun a =>
    match bs.filter (cond a) with
    | [] => [(a, none)]
    | b :: rest => (b :: rest).map fun b => (a, some b)

def existsRow (cond : β → Bool) (bs : List β) : Bool := bs.any cond

def joinRows (cond : α → β → Bool) (bs : List β) (a : α) : Nat := max 1 (bs.countP (cond a))

theorem leftJoin_length (cond : α → β → Bool) (as : List α) (bs : List β) :
    (leftJoin cond as bs).length = (as.map (joinRows cond bs)).sum := by
  induction as with
  | nil => rfl
  | cons a as ih =>
    have hsplit : leftJoin cond (a :: as) bs = (leftJoin cond [a] bs) ++ leftJoin cond as bs := by
      simp [leftJoin]
    have hone : (leftJoin cond [a] bs).length = joinRows cond bs a := by
      simp only [leftJoin, List.flatMap_cons, List.flatMap_nil, List.append_nil, joinRows,
        List.countP_eq_length_filter]
      split
      · next h => simp [h]
      · next h => simp [h]
    rw [hsplit, List.length_append, hone, ih, List.map_cons, List.sum_cons]

/-- No left row has two partners: the join keeps the left rows, each with its first partner. -/
theorem leftJoin_eq_map {cond : α → β → Bool} {as : List α} {bs : List β}
    (h : ∀ a ∈ as, bs.countP (cond a) ≤ 1) :
    leftJoin cond as bs = as.map fun a => (a, bs.find? (cond a)) := by
  induction as with
  | nil => rfl
  | cons a as ih =>
    have htail := ih fun x hx => h x (List.mem_cons_of_mem a hx)
    have hsplit : leftJoin cond (a :: as) bs = (leftJoin cond [a] bs) ++ leftJoin cond as bs := by
      simp [leftJoin]
    have hone : leftJoin cond [a] bs = [(a, bs.find? (cond a))] := by
      have hle := h a List.mem_cons_self
      rw [List.countP_eq_length_filter] at hle
      simp only [leftJoin, List.flatMap_cons, List.flatMap_nil, List.append_nil,
        ← List.head?_filter]
      split
      · next hf => simp [hf]
      · next b rest hf =>
        rw [hf] at hle
        have hrest : rest = [] := by
          apply List.eq_nil_of_length_eq_zero
          simp only [List.length_cons] at hle
          omega
        simp [hf, hrest]
    rw [hsplit, hone, htail, List.map_cons, List.singleton_append]

section Keys

/-- The key property: two rows at different places have different keys. -/
def DistinctOn (key : β → κ) (rows : List β) : Prop := rows.Pairwise fun a b => key a ≠ key b

variable {key : β → κ} {rows : List β}

theorem DistinctOn.nil : DistinctOn key ([] : List β) := List.Pairwise.nil

theorem DistinctOn.eq_of_mem (h : DistinctOn key rows) {a b : β} (ha : a ∈ rows) (hb : b ∈ rows)
    (hk : key a = key b) : a = b := by
  have symm : Std.Symm fun a b : β => key a ≠ key b := ⟨fun _ _ => Ne.symm⟩
  by_contra hne
  exact h.forall ha hb hne hk

theorem DistinctOn.sublist {rows' : List β} (h : DistinctOn key rows) (hs : rows'.Sublist rows) :
    DistinctOn key rows' := List.Pairwise.sublist hs h

theorem DistinctOn.filter (h : DistinctOn key rows) (p : β → Bool) :
    DistinctOn key (rows.filter p) := h.sublist List.filter_sublist

theorem DistinctOn.map (h : DistinctOn key rows) (f : β → β) (hf : ∀ r ∈ rows, key (f r) = key r) :
    DistinctOn key (rows.map f) := by
  refine List.pairwise_map.mpr (List.Pairwise.imp_of_mem ?_ h)
  intro a b ha hb hne
  rw [hf a ha, hf b hb]
  exact hne

theorem DistinctOn.concat (h : DistinctOn key rows) {b : β} (hb : ∀ r ∈ rows, key r ≠ key b) :
    DistinctOn key (rows ++ [b]) := by
  refine List.pairwise_append.mpr ⟨h, List.pairwise_singleton _ _, ?_⟩
  intro a ha c hc
  rw [List.mem_singleton.mp hc]
  exact hb a ha

theorem DistinctOn.of_comp {κ' : Type*} {f : κ → κ'} (h : DistinctOn (fun r => f (key r)) rows) :
    DistinctOn key rows := List.Pairwise.imp (fun hne he => hne (congrArg f he)) h

theorem DistinctOn.countP_le_one (h : DistinctOn key rows) {p : β → Bool}
    (hp : ∀ a b, p a = true → p b = true → key a = key b) : rows.countP p ≤ 1 := by
  induction rows with
  | nil => simp
  | cons r rows ih =>
    obtain ⟨hr, hrows⟩ := List.pairwise_cons.mp h
    rw [List.countP_cons]
    split
    · next hpr =>
      have hzero : rows.countP p = 0 := by
        rw [List.countP_eq_zero]
        intro b hb hpb
        exact hr b hb (hp r b hpr hpb)
      omega
    · have := ih hrows
      omega

theorem distinctOn_iff_nodup : DistinctOn key rows ↔ (rows.map key).Nodup := List.pairwise_map.symm

theorem DistinctOn.nodup (h : DistinctOn key rows) : rows.Nodup :=
  List.Pairwise.imp (fun hne he => hne (congrArg key he)) h

theorem countP_appended [BEq κ] [LawfulBEq κ] {k : κ} (hfree : ∀ r ∈ rows, key r ≠ k) {r : β}
    (hr : key r = k) : (rows ++ [r]).countP (fun q => key q == k) = 1 := by
  have hzero : rows.countP (fun q => key q == k) = 0 := by
    rw [List.countP_eq_zero]
    intro q hq heq
    exact hfree q hq (beq_iff_eq.mp heq)
  rw [List.countP_append, hzero, List.countP_singleton, hr, if_pos (beq_self_eq_true k)]

end Keys

section Changes

variable [DecidableEq κ] (key : β → κ) {old new : List β} {r : β}

/-- Rows of `new` under a key that `old` does not have. -/
def insertedRows (old new : List β) : List β := new.filter fun r => !old.any fun q => key q == key r

/-- Rows of `old` under a key that `new` does not have. -/
def deletedRows (old new : List β) : List β := insertedRows key new old

theorem mem_insertedRows {key : β → κ} : r ∈ insertedRows key old new ↔
    r ∈ new ∧ ∀ q ∈ old, key q ≠ key r := by
  simp [insertedRows]

theorem insertedRows_append {key : β → κ} (h : DistinctOn key (old ++ new)) :
    insertedRows key old (old ++ new) = new := by
  obtain ⟨_, _, hdisjoint⟩ := List.pairwise_append.mp h
  rw [insertedRows, List.filter_append, List.filter_eq_nil_iff.mpr, List.nil_append,
    List.filter_eq_self.mpr]
  · intro r hr
    simpa using fun q hq => hdisjoint q hq r hr
  · intro r hr hfresh
    simp only [Bool.not_eq_true', List.any_eq_false, beq_iff_eq] at hfresh
    exact hfresh r hr rfl

variable [DecidableEq β]

/-- Rows of `new` that replace a different row of the same key. -/
def changedRows (old new : List β) : List β :=
  new.filter fun r => old.any fun q => key q == key r && q != r

/-- Everything that happened between two states of a table. -/
def touchedRows (old new : List β) : List β :=
  insertedRows key old new ++ changedRows key old new ++ deletedRows key old new

variable {key}

theorem mem_changedRows :
    r ∈ changedRows key old new ↔ r ∈ new ∧ ∃ q ∈ old, key q = key r ∧ q ≠ r := by
  simp [changedRows]

theorem mem_touchedRows : r ∈ touchedRows key old new ↔
    (r ∈ new ∧ ∀ q ∈ old, key q ≠ key r) ∨ (r ∈ new ∧ ∃ q ∈ old, key q = key r ∧ q ≠ r) ∨
      r ∈ old ∧ ∀ q ∈ new, key q ≠ key r := by
  rw [touchedRows, List.mem_append, List.mem_append, mem_insertedRows, mem_changedRows,
    deletedRows, mem_insertedRows, or_assoc]

theorem touchedRows_distinct (hold : DistinctOn key old) (hnew : DistinctOn key new) :
    DistinctOn key (touchedRows key old new) := by
  refine List.pairwise_append.mpr ⟨List.pairwise_append.mpr ⟨hnew.filter _, hnew.filter _, ?_⟩,
    hold.filter _, ?_⟩
  · intro a ha b hb heq
    obtain ⟨_, hfresh⟩ := mem_insertedRows.mp ha
    obtain ⟨_, q, hq, hkey, _⟩ := mem_changedRows.mp hb
    exact hfresh q hq (hkey.trans heq.symm)
  · intro a ha b hb heq
    obtain ⟨_, hgone⟩ := mem_insertedRows.mp hb
    rcases List.mem_append.mp ha with ha | ha
    · exact hgone a (mem_insertedRows.mp ha).1 heq
    · exact hgone a (mem_changedRows.mp ha).1 heq

theorem mem_iff_of_untouched (key : β → κ) (h : ∀ q ∈ touchedRows key old new, key q ≠ key r) :
    r ∈ old ↔ r ∈ new := by
  constructor
  · intro hr
    by_contra hgone
    by_cases hq : ∃ q ∈ new, key q = key r
    · obtain ⟨q, hq, hkey⟩ := hq
      refine h q (mem_touchedRows.mpr (Or.inr (Or.inl ⟨hq, r, hr, hkey.symm, ?_⟩))) hkey
      rintro rfl
      exact hgone hq
    · push Not at hq
      exact h r (mem_touchedRows.mpr (Or.inr (Or.inr ⟨hr, hq⟩))) rfl
  · intro hr
    by_contra hgone
    by_cases hq : ∃ q ∈ old, key q = key r
    · obtain ⟨q, hq, hkey⟩ := hq
      refine h r (mem_touchedRows.mpr (Or.inr (Or.inl ⟨hr, q, hq, hkey, ?_⟩))) rfl
      rintro rfl
      exact hgone hq
    · push Not at hq
      exact h r (mem_touchedRows.mpr (Or.inl ⟨hr, hq⟩)) rfl

theorem mem_touchedRows_append (h : DistinctOn key (old ++ new)) :
    r ∈ touchedRows key old (old ++ new) ↔ r ∈ new := by
  obtain ⟨_, _, hdisjoint⟩ := List.pairwise_append.mp h
  rw [mem_touchedRows]
  constructor
  · rintro (⟨hr, hfresh⟩ | ⟨hr, q, hq, hkey, hne⟩ | ⟨hr, hgone⟩)
    · exact (List.mem_append.mp hr).resolve_left fun ho => hfresh r ho rfl
    · exact absurd (h.eq_of_mem (List.mem_append_left _ hq) hr hkey) hne
    · exact absurd rfl (hgone r (List.mem_append_left _ hr))
  · intro hr
    exact Or.inl ⟨List.mem_append_right _ hr, fun q hq => hdisjoint q hq r hr⟩

theorem mem_touchedRows_filter (h : DistinctOn key old) {p : β → Bool} :
    r ∈ touchedRows key old (old.filter p) ↔ r ∈ old ∧ p r = false := by
  rw [mem_touchedRows]
  constructor
  · rintro (⟨hr, hfresh⟩ | ⟨hr, q, hq, hkey, hne⟩ | ⟨hr, hgone⟩)
    · exact absurd rfl (hfresh r (List.mem_filter.mp hr).1)
    · exact absurd (h.eq_of_mem hq (List.mem_filter.mp hr).1 hkey) hne
    · refine ⟨hr, ?_⟩
      by_contra hp
      exact hgone r (List.mem_filter.mpr ⟨hr, by simpa using hp⟩) rfl
  · rintro ⟨hr, hp⟩
    refine Or.inr (Or.inr ⟨hr, fun q hq hkey => ?_⟩)
    obtain ⟨hq, hpq⟩ := List.mem_filter.mp hq
    rw [h.eq_of_mem hq hr hkey, hp] at hpq
    exact absurd hpq (by simp)

theorem mem_touchedRows_rewrite (h : DistinctOn key old)
    (hkeys : List.Forall₂ (fun a b => key b = key a) old new) :
    r ∈ touchedRows key old new ↔ ∃ rr ∈ old.zip new, rr.1 ≠ rr.2 ∧ rr.2 = r := by
  have hzip : ∀ rr ∈ old.zip new, key rr.2 = key rr.1 := fun _ hrr =>
    (List.forall₂_iff_zip.mp hkeys).2 hrr
  have hleft : ∀ a ∈ old, ∃ b, (a, b) ∈ old.zip new := by
    intro a ha
    obtain ⟨i, hi, rfl⟩ := List.mem_iff_getElem.mp ha
    have hi' : i < new.length := hkeys.length_eq ▸ hi
    have hlen : i < (old.zip new).length := List.length_zip ▸ Nat.lt_min.mpr ⟨hi, hi'⟩
    exact ⟨new[i], List.mem_iff_getElem.mpr ⟨i, hlen, List.getElem_zip⟩⟩
  have hright : ∀ b ∈ new, ∃ a, (a, b) ∈ old.zip new := by
    intro b hb
    obtain ⟨i, hi, rfl⟩ := List.mem_iff_getElem.mp hb
    have hi' : i < old.length := hkeys.length_eq ▸ hi
    have hlen : i < (old.zip new).length := List.length_zip ▸ Nat.lt_min.mpr ⟨hi', hi⟩
    exact ⟨old[i], List.mem_iff_getElem.mpr ⟨i, hlen, List.getElem_zip⟩⟩
  rw [mem_touchedRows]
  constructor
  · rintro (⟨hr, hfresh⟩ | ⟨hr, q, hq, hkey, hne⟩ | ⟨hr, hgone⟩)
    · obtain ⟨a, ha⟩ := hright r hr
      exact absurd (hzip _ ha).symm (hfresh a (List.of_mem_zip ha).1)
    · obtain ⟨a, ha⟩ := hright r hr
      have haq : a = q := h.eq_of_mem (List.of_mem_zip ha).1 hq ((hzip _ ha).symm.trans hkey.symm)
      exact ⟨(a, r), ha, by rw [haq]; exact hne, rfl⟩
    · obtain ⟨b, hb⟩ := hleft r hr
      exact absurd (hzip _ hb) (hgone b (List.of_mem_zip hb).2)
  · rintro ⟨⟨a, b⟩, hab, hne, rfl⟩
    obtain ⟨ha, hb⟩ := List.of_mem_zip hab
    exact Or.inr (Or.inl ⟨hb, a, ha, (hzip _ hab).symm, hne⟩)

end Changes

end RelationalTables
