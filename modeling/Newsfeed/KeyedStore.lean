import Newsfeed.RelationalTables
import Mathlib.Data.Option.Basic

/-! # Keyed stores

Entries under a key, changed by batches. A batch inserts what is missing, replaces what
is there or removes it, and has an outcome for each of its entries. Every key is a cell
of its own. Over arbitrary entries and keys.
-/
namespace KeyedStore

open RelationalTables

inductive Op where
  | insert
  | update
  | delete
  deriving DecidableEq, Repr

inductive Outcome where
  | inserted
  | updated
  | deleted
  | present
  | absent
  deriving DecidableEq, Repr

/-- The batch had nothing to do for the entry. -/
def Outcome.Skipped (o : Outcome) : Prop := o = .present ∨ o = .absent

section Store

variable {α κ : Type*} [DecidableEq κ] (key : α → κ)

def lookup (rows : List α) (k : κ) : Option α := rows.find? fun r => decide (key r = k)

def changed (op : Op) (batch rows : List α) : List α :=
  match op with
  | .insert => rows ++ batch.filter fun e => (lookup key rows (key e)).isNone
  | .update => rows.map fun r => (lookup key batch (key r)).getD r
  | .delete => rows.filter fun r => (lookup key batch (key r)).isNone

/-- What an operation does to one key, for which the batch may have an entry. -/
def cell (op : Op) (entry found : Option α) : Option α :=
  match op with
  | .insert => found.or entry
  | .update => found.map entry.getD
  | .delete => if entry.isSome then none else found

variable {key} {rows batch batch' : List α} {e r : α} {k : κ}

theorem key_of_lookup (h : lookup key rows k = some r) : key r = k := by
  have hk := List.find?_some h
  exact of_decide_eq_true hk

theorem mem_of_lookup (h : lookup key rows k = some r) : r ∈ rows := List.mem_of_find?_eq_some h

theorem lookup_eq_none : lookup key rows k = none ↔ ∀ r ∈ rows, key r ≠ k := by
  simp [lookup]

theorem lookup_isSome (rows : List α) (k : κ) :
    (lookup key rows k).isSome = rows.any fun r => decide (key r = k) := by
  rw [Bool.eq_iff_iff, lookup, List.find?_isSome, List.any_eq_true]

theorem lookup_of_mem (h : DistinctOn key rows) (hr : r ∈ rows) :
    lookup key rows (key r) = some r := by
  cases hfound : lookup key rows (key r) with
  | none => exact absurd rfl (lookup_eq_none.mp hfound r hr)
  | some q => rw [h.eq_of_mem (mem_of_lookup hfound) hr (key_of_lookup hfound)]

theorem lookup_isSome_of_mem (hr : r ∈ rows) : (lookup key rows (key r)).isSome = true := by
  rw [lookup_isSome, List.any_eq_true]
  exact ⟨r, hr, decide_eq_true rfl⟩

theorem filter_key (h : DistinctOn key rows) (k : κ) :
    rows.filter (fun r => decide (key r = k)) = (lookup key rows k).toList := by
  induction rows with
  | nil => rfl
  | cons r rows ih =>
    obtain ⟨hfirst, hrest⟩ := List.pairwise_cons.mp h
    by_cases hr : key r = k
    · have hothers : rows.filter (fun q => decide (key q = k)) = [] := by
        refine List.filter_eq_nil_iff.mpr fun q hq hk => hfirst q hq ?_
        rw [hr, of_decide_eq_true hk]
      rw [List.filter_cons_of_pos (by simpa using hr), hothers, lookup,
        List.find?_cons_of_pos (by simpa using hr)]
      rfl
    · rw [List.filter_cons_of_neg (by simpa using hr), ih hrest, lookup, lookup,
        List.find?_cons_of_neg (by simpa using hr)]

variable (key) in
theorem key_replaced (batch : List α) (r : α) :
    key ((lookup key batch (key r)).getD r) = key r := by
  cases h : lookup key batch (key r) with
  | none => rfl
  | some e => exact key_of_lookup h

theorem lookup_filter (keep : κ → Bool) :
    lookup key (rows.filter fun r => keep (key r)) k =
      if keep k then lookup key rows k else none := by
  unfold lookup
  rw [List.find?_filter]
  by_cases hk : keep k = true
  · rw [if_pos hk]
    congr 1
    funext r
    by_cases hr : key r = k
    · simp [hr, hk]
    · simp [hr]
  · rw [if_neg hk, List.find?_eq_none]
    intro r _ hr
    rw [Bool.decide_and, Bool.decide_eq_true, Bool.decide_eq_true, Bool.and_eq_true,
      decide_eq_true_eq] at hr
    exact hk (hr.2 ▸ hr.1)

/-- Every key is a cell of its own. -/
theorem lookup_changed (op : Op) (batch rows : List α) (k : κ) :
    lookup key (changed key op batch rows) k =
      cell op (lookup key batch k) (lookup key rows k) := by
  cases op with
  | insert =>
    have hnew : lookup key (batch.filter fun e => (lookup key rows (key e)).isNone) k = _ :=
      lookup_filter fun k => (lookup key rows k).isNone
    show List.find? _ (rows ++ _) = _
    rw [List.find?_append]
    refine (congrArg _ hnew).trans ?_
    show (lookup key rows k).or _ = (lookup key rows k).or _
    cases lookup key rows k <;> simp
  | update =>
    show List.find? _ (rows.map _) = _
    rw [List.find?_map]
    have hkey : ((fun r => decide (key r = k)) ∘ fun r => (lookup key batch (key r)).getD r) =
        fun r => decide (key r = k) := funext fun r => by
      rw [Function.comp_apply, key_replaced key]
    rw [hkey]
    show (lookup key rows k).map _ = (lookup key rows k).map _
    cases hfound : lookup key rows k with
    | none => rfl
    | some r => rw [Option.map_some, Option.map_some, key_of_lookup hfound]
  | delete =>
    refine (lookup_filter fun k => (lookup key batch k).isNone).trans ?_
    unfold cell
    cases lookup key batch k <;> rfl

theorem changed_distinct (op : Op) (hrows : DistinctOn key rows) (hbatch : DistinctOn key batch) :
    DistinctOn key (changed key op batch rows) := by
  cases op with
  | insert =>
    refine List.pairwise_append.mpr ⟨hrows, hbatch.filter _, ?_⟩
    intro r hr e he
    have hfree := (List.mem_filter.mp he).2
    exact lookup_eq_none.mp (Option.isNone_iff_eq_none.mp hfree) r hr
  | update => exact hrows.map _ fun r _ => key_replaced key batch r
  | delete => exact hrows.filter _

/-- No key of the one list is a key of the other. -/
def Apart (key : α → κ) (xs ys : List α) : Prop := ∀ x ∈ xs, ∀ y ∈ ys, key x ≠ key y

theorem lookup_apart (h : Apart key batch batch') (he : e ∈ batch') :
    lookup key batch (key e) = none :=
  lookup_eq_none.mpr fun x hx => h x hx e he

theorem changed_append (op : Op) (rows : List α) (h : Apart key batch batch') :
    changed key op (batch ++ batch') rows = changed key op batch' (changed key op batch rows) := by
  have happend : ∀ k, lookup key (batch ++ batch') k =
      (lookup key batch k).or (lookup key batch' k) := fun k => List.find?_append
  cases op with
  | insert =>
    show rows ++ (batch ++ batch').filter _ =
      (rows ++ batch.filter _) ++ batch'.filter fun e =>
        (lookup key (changed key .insert batch rows) (key e)).isNone
    rw [List.filter_append, ← List.append_assoc]
    congr 1
    refine List.filter_congr fun e he => ?_
    rw [lookup_changed, lookup_apart h he, cell, Option.or_none]
  | update =>
    show rows.map _ = (rows.map _).map _
    rw [List.map_map]
    refine List.map_congr_left fun r _ => ?_
    rw [Function.comp_apply, key_replaced key, happend]
    cases hfirst : lookup key batch (key r) with
    | none => rfl
    | some e =>
      have hnone : lookup key batch' (key r) = none := by
        rw [lookup_eq_none]
        intro f hf heq
        exact h e (mem_of_lookup hfirst) f hf ((key_of_lookup hfirst).trans heq.symm)
      rw [hnone]
      rfl
  | delete =>
    show rows.filter _ = (rows.filter _).filter _
    rw [List.filter_filter]
    refine List.filter_congr fun r _ => ?_
    rw [happend]
    cases lookup key batch (key r) <;> cases lookup key batch' (key r) <;> rfl

/-- The same batch again finds nothing to do. -/
theorem changed_again (op : Op) (batch rows : List α) :
    changed key op batch (changed key op batch rows) = changed key op batch rows := by
  cases op with
  | insert =>
    show changed key .insert batch rows ++ batch.filter _ = _
    rw [List.filter_eq_nil_iff.mpr, List.append_nil]
    intro e he hnone
    rw [lookup_changed, cell, Option.isNone_iff_eq_none, Option.or_eq_none_iff] at hnone
    exact lookup_eq_none.mp hnone.2 e he rfl
  | update =>
    show (rows.map _).map _ = rows.map _
    rw [List.map_map]
    refine List.map_congr_left fun r _ => ?_
    rw [Function.comp_apply, key_replaced key]
    cases lookup key batch (key r) <;> rfl
  | delete =>
    show (rows.filter _).filter _ = rows.filter _
    rw [List.filter_filter]
    exact List.filter_congr fun r _ => Bool.and_self _

variable [DecidableEq α]

def outcome (op : Op) (found : Option α) (e : α) : Outcome :=
  match op, found with
  | .insert, none => .inserted
  | .insert, some _ => .present
  | .update, none => .absent
  | .update, some r => if r = e then .present else .updated
  | .delete, none => .absent
  | .delete, some _ => .deleted

variable (key) in
def outcomes (op : Op) (batch rows : List α) : List Outcome :=
  batch.map fun e => outcome op (lookup key rows (key e)) e

theorem outcomes_again (op : Op) (rows : List α) (hbatch : DistinctOn key batch) :
    ∀ o ∈ outcomes key op batch (changed key op batch rows), o.Skipped := by
  intro o ho
  obtain ⟨e, he, rfl⟩ := List.mem_map.mp ho
  rw [lookup_changed, lookup_of_mem hbatch he]
  cases op with
  | insert =>
    cases lookup key rows (key e) with
    | none => exact Or.inl rfl
    | some r => exact Or.inl rfl
  | update =>
    cases lookup key rows (key e) with
    | none => exact Or.inr rfl
    | some r => exact Or.inl (if_pos rfl)
  | delete => exact Or.inr rfl

variable (key) in
/-- The entries that a batch inserts, replaces or removes. -/
def reported (op : Op) (batch rows : List α) : List α :=
  match op with
  | .insert => batch.filter fun e => (lookup key rows (key e)).isNone
  | .update => rows.filter fun r => (lookup key batch (key r)).any fun e => decide (r ≠ e)
  | .delete => rows.filter fun r => (lookup key batch (key r)).isSome

theorem mem_of_reported {op : Op} (h : e ∈ reported key op batch rows) : e ∈ batch ∨ e ∈ rows := by
  cases op with
  | insert => exact Or.inl (List.mem_filter.mp h).1
  | update => exact Or.inr (List.mem_filter.mp h).1
  | delete => exact Or.inr (List.mem_filter.mp h).1

theorem reported_distinct (op : Op) (hrows : DistinctOn key rows) (hbatch : DistinctOn key batch) :
    DistinctOn key (reported key op batch rows) := by
  cases op with
  | insert => exact hbatch.filter _
  | update => exact hrows.filter _
  | delete => exact hrows.filter _

theorem mem_reported (op : Op) (hbatch : DistinctOn key batch) (hrows : DistinctOn key rows)
    (he : e ∈ batch) : key e ∈ (reported key op batch rows).map key ↔
      ¬ (outcome op (lookup key rows (key e)) e).Skipped := by
  have hself := lookup_of_mem hbatch he
  cases hfound : lookup key rows (key e) with
  | none =>
    have hno : ∀ p : α → Bool, key e ∉ (rows.filter p).map key := by
      intro p hmem
      obtain ⟨r, hr, hk⟩ := List.mem_map.mp hmem
      exact lookup_eq_none.mp hfound r (List.mem_filter.mp hr).1 hk
    cases op with
    | insert =>
      refine iff_of_true ?_ (by simp [outcome, Outcome.Skipped])
      exact List.mem_map_of_mem (List.mem_filter.mpr ⟨he, by simp [hfound]⟩)
    | update => exact iff_of_false (hno _) (not_not.mpr (Or.inr rfl))
    | delete => exact iff_of_false (hno _) (not_not.mpr (Or.inr rfl))
  | some r =>
    have hr := mem_of_lookup hfound
    have hk := key_of_lookup hfound
    have honly : ∀ p : α → Bool, key e ∈ (rows.filter p).map key ↔ p r = true := by
      intro p
      rw [List.mem_map]
      constructor
      · rintro ⟨q, hq, hqk⟩
        obtain ⟨hq, hpq⟩ := List.mem_filter.mp hq
        rwa [hrows.eq_of_mem hq hr (hqk.trans hk.symm)] at hpq
      · intro hp
        exact ⟨r, List.mem_filter.mpr ⟨hr, hp⟩, hk⟩
    cases op with
    | insert =>
      refine iff_of_false ?_ (not_not.mpr (Or.inl rfl))
      intro hmem
      obtain ⟨f, hf, hfk⟩ := List.mem_map.mp hmem
      have hfree := (List.mem_filter.mp hf).2
      rw [hfk, hfound] at hfree
      cases hfree
    | update =>
      refine (honly _).trans ?_
      rw [hk, hself]
      by_cases heq : r = e
      · simp [heq, outcome, Outcome.Skipped]
      · simp [heq, outcome, Outcome.Skipped]
    | delete =>
      refine (honly _).trans ?_
      rw [hk, hself]
      simp [outcome, Outcome.Skipped]

/-- The first entry that an update would take for the row `r`: the one of its key, if it is
another one. -/
theorem find?_differing {p : α → Bool} (hbatch : DistinctOn key batch)
    (hp : ∀ g ∈ batch, p g = true ↔ key g = key r ∧ r ≠ g) :
    batch.find? p = (lookup key batch (key r)).filter fun g => decide (r ≠ g) := by
  cases hfind : batch.find? p with
  | none =>
    rw [eq_comm, Option.filter_eq_none_iff]
    intro g hg hne
    have hgmem := mem_of_lookup hg
    exact List.find?_eq_none.mp hfind g hgmem
      ((hp g hgmem).mpr ⟨key_of_lookup hg, of_decide_eq_true hne⟩)
  | some g =>
    have hg := List.mem_of_find?_eq_some hfind
    obtain ⟨hk, hne⟩ := (hp g hg).mp (List.find?_some hfind)
    rw [← hk, lookup_of_mem hbatch hg, Option.filter_some, if_pos (decide_eq_true hne)]

variable (key) in
def run (steps : List (Op × List α)) (rows : List α) : List α :=
  steps.foldl (fun rows step => changed key step.1 step.2 rows) rows

omit [DecidableEq α] in
theorem run_append (steps steps' : List (Op × List α)) (rows : List α) :
    run key (steps ++ steps') rows = run key steps' (run key steps rows) := List.foldl_append ..

omit [DecidableEq α] in
/-- What a run leaves under a key is decided by the entries of this key alone. -/
theorem lookup_run (steps : List (Op × List α)) (rows : List α) (k : κ) :
    lookup key (run key steps rows) k =
      steps.foldl (fun found step => cell step.1 (lookup key step.2 k) found)
        (lookup key rows k) := by
  induction steps generalizing rows with
  | nil => rfl
  | cons step steps ih =>
    rw [List.foldl_cons, ← lookup_changed]
    exact ih (changed key step.1 step.2 rows)

variable (key) in
/-- What a step does to the key `k`, if it has an entry for it. -/
def about (k : κ) (step : Op × List α) : Option (Op × α) :=
  (lookup key step.2 k).map fun e => (step.1, e)

omit [DecidableEq α] in
theorem lookup_run_about (steps : List (Op × List α)) (rows : List α) (k : κ) :
    lookup key (run key steps rows) k =
      (steps.filterMap (about key k)).foldl (fun found x => cell x.1 (some x.2) found)
        (lookup key rows k) := by
  rw [lookup_run]
  generalize lookup key rows k = found
  induction steps generalizing found with
  | nil => rfl
  | cons step steps ih =>
    rw [List.foldl_cons, ih]
    cases hfound : lookup key step.2 k with
    | none =>
      rw [List.filterMap_cons_none (by rw [about, hfound]; rfl)]
      congr 1
      cases step.1 <;> cases found <;> rfl
    | some e =>
      rw [List.filterMap_cons_some (by rw [about, hfound]; rfl)]
      rfl

omit [DecidableEq κ] [DecidableEq α] in
theorem kept_of_no_delete {steps : List (Op × α)} (h : ∀ step ∈ steps, step.1 ≠ .delete)
    {found : Option α} (hfound : found.isSome = true) :
    (steps.foldl (fun found x => cell x.1 (some x.2) found) found).isSome = true := by
  induction steps generalizing found with
  | nil => exact hfound
  | cons step steps ih =>
    rcases step with ⟨op, e⟩
    refine ih (fun s hs => h s (List.mem_cons_of_mem _ hs)) ?_
    obtain ⟨r, rfl⟩ := Option.isSome_iff_exists.mp hfound
    cases op with
    | insert => rfl
    | update => rfl
    | delete => exact absurd rfl (h (.delete, e) List.mem_cons_self)

end Store

section Represented

variable {α β κ : Type*} {R : β → α → Prop} {rows : List β} {entries : List α} {p : β → Bool}
  {q : α → Bool}

theorem any_represented (h : List.Forall₂ R rows entries) (hpq : ∀ r e, R r e → p r = q e) :
    rows.any p = entries.any q := by
  induction h with
  | nil => rfl
  | cons hr _ ih => rw [List.any_cons, List.any_cons, hpq _ _ hr, ih]

theorem find?_represented (h : List.Forall₂ R rows entries) (hpq : ∀ r e, R r e → p r = q e) :
    Option.Rel R (rows.find? p) (entries.find? q) := by
  induction h with
  | nil => exact .none
  | cons hr _ ih =>
    rw [List.find?_cons, List.find?_cons, hpq _ _ hr]
    split
    · exact .some hr
    · exact ih

theorem countP_represented (h : List.Forall₂ R rows entries) (hpq : ∀ r e, R r e → p r = q e) :
    rows.countP p = entries.countP q := by
  induction h with
  | nil => rfl
  | cons hr _ ih => rw [List.countP_cons, List.countP_cons, hpq _ _ hr, ih]

theorem filter_represented (h : List.Forall₂ R rows entries) (hpq : ∀ r e, R r e → p r = q e) :
    List.Forall₂ R (rows.filter p) (entries.filter q) :=
  List.rel_filter (fun r e hr => by simp only [hpq r e hr]) h

theorem map_represented {f : β → β} {g : α → α} (h : List.Forall₂ R rows entries)
    (hfg : ∀ r e, R r e → R (f r) (g e)) : List.Forall₂ R (rows.map f) (entries.map g) :=
  List.rel_map (fun r e hr => hfg r e hr) h

theorem countP_key_le_one [DecidableEq κ] {key : α → κ} (hkey : DistinctOn key entries) {k : κ}
    (h : List.Forall₂ R rows entries) (hp : ∀ r e, R r e → p r = decide (key e = k)) :
    rows.countP p ≤ 1 := by
  rw [countP_represented h hp]
  exact hkey.countP_le_one fun a b ha hb => (of_decide_eq_true ha).trans (of_decide_eq_true hb).symm

end Represented

end KeyedStore
