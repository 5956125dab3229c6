import Mathlib.Data.List.Forall2

/-! # Computations that may fail

Inversion of successful `Except` computations: what has to have succeeded, and
with which results. Over arbitrary error and value types.
-/
namespace FallibleOperations

universe u v

variable {ε : Type v} {α β : Type u}

theorem bind_ok {x : Except ε α} {f : α → Except ε β} {b : β} (h : x >>= f = .ok b) :
    ∃ a, x = .ok a ∧ f a = .ok b := by
  cases x with
  | error e => cases h
  | ok a => exact ⟨a, rfl, h⟩

theorem map_ok {x : Except ε α} {f : α → β} {b : β} (h : x.map f = .ok b) :
    ∃ a, x = .ok a ∧ f a = b := by
  cases x with
  | error e => cases h
  | ok a => exact ⟨a, rfl, Except.ok.inj h⟩

theorem bind_error {x : Except ε α} {f : α → Except ε β} {e : ε} (h : x >>= f = .error e) :
    x = .error e ∨ ∃ a, x = .ok a ∧ f a = .error e := by
  cases x with
  | error e' =>
    cases h
    exact Or.inl rfl
  | ok a => exact Or.inr ⟨a, rfl, h⟩

theorem mapM_eq_ok {f : α → Except ε β} {xs : List α} {ys : List β} :
    xs.mapM f = .ok ys ↔ List.Forall₂ (fun x y => f x = .ok y) xs ys := by
  induction xs generalizing ys with
  | nil => cases ys <;> simp [pure, Except.pure]
  | cons x xs ih =>
    rw [List.mapM_cons]
    constructor
    · intro h
      obtain ⟨y, hy, h⟩ := bind_ok h
      obtain ⟨ys', hys, h⟩ := bind_ok h
      cases h
      exact .cons hy (ih.mp hys)
    · intro h
      cases h with
      | cons hy hys =>
        simp only [hy, ih.mpr hys, bind, Except.bind, pure, Except.pure]

theorem mapM_eq_some {f : α → Option β} {xs : List α} {ys : List β} :
    xs.mapM f = some ys ↔ List.Forall₂ (fun x y => f x = some y) xs ys := by
  induction xs generalizing ys with
  | nil => cases ys <;> simp
  | cons x xs ih =>
    rw [List.mapM_cons]
    constructor
    · intro h
      obtain ⟨y, hy, h⟩ := Option.bind_eq_some_iff.mp h
      obtain ⟨ys', hys, h⟩ := Option.bind_eq_some_iff.mp h
      cases h
      exact .cons hy (ih.mp hys)
    · intro h
      cases h with
      | cons hy hys =>
        rw [hy, ih.mpr hys]
        rfl

theorem forall₂_congr_left {R S : α → β → Prop} {xs : List α} {ys : List β}
    (h : ∀ x ∈ xs, ∀ y, R x y ↔ S x y) : List.Forall₂ R xs ys ↔ List.Forall₂ S xs ys := by
  induction xs generalizing ys with
  | nil => cases ys <;> simp
  | cons x xs ih =>
    cases ys with
    | nil => simp
    | cons y ys =>
      rw [List.forall₂_cons, List.forall₂_cons, h x List.mem_cons_self y,
        ih fun z hz => h z (List.mem_cons_of_mem x hz)]

theorem forall₂_left {R : α → β → Prop} {xs : List α} {ys : List β} (h : List.Forall₂ R xs ys)
    {x : α} (hx : x ∈ xs) : ∃ y ∈ ys, R x y := by
  induction h with
  | nil => cases hx
  | @cons a b _ _ hab _ ih =>
    rcases List.mem_cons.mp hx with rfl | hx
    · exact ⟨b, List.mem_cons_self, hab⟩
    · obtain ⟨y, hy, hR⟩ := ih hx
      exact ⟨y, List.mem_cons_of_mem b hy, hR⟩

theorem forall₂_zip_left {R : α → β → Prop} {xs : List α} {ys : List β} (h : List.Forall₂ R xs ys)
    {x : α} (hx : x ∈ xs) : ∃ y, (x, y) ∈ xs.zip ys := by
  obtain ⟨i, hi, rfl⟩ := List.mem_iff_getElem.mp hx
  have hi' : i < ys.length := h.length_eq ▸ hi
  have hlen : i < (xs.zip ys).length := List.length_zip ▸ Nat.lt_min.mpr ⟨hi, hi'⟩
  exact ⟨ys[i], List.mem_iff_getElem.mpr ⟨i, hlen, List.getElem_zip⟩⟩

theorem forall₂_right {R : α → β → Prop} {xs : List α} {ys : List β} (h : List.Forall₂ R xs ys)
    {y : β} (hy : y ∈ ys) : ∃ x ∈ xs, R x y :=
  forall₂_left h.flip hy

theorem mapM_ok {f : α → Except ε β} {g : α → β} {xs : List α}
    (h : ∀ x ∈ xs, f x = .ok (g x)) : xs.mapM f = .ok (xs.map g) := by
  rw [mapM_eq_ok, List.forall₂_map_right_iff]
  exact List.forall₂_same.mpr h

theorem succeeds_or_fails (x : Except ε α) : (∃ a, x = .ok a) ∨ ∃ e, x = .error e := by
  cases x with
  | error e => exact Or.inr ⟨e, rfl⟩
  | ok a => exact Or.inl ⟨a, rfl⟩

theorem mapM_succeeds {f : α → Except ε β} {xs : List α} :
    (∃ ys, xs.mapM f = .ok ys) ↔ ∀ x ∈ xs, ∃ y, f x = .ok y := by
  induction xs with
  | nil => simp [pure, Except.pure]
  | cons x xs ih =>
    rw [List.forall_mem_cons, ← ih]
    constructor
    · rintro ⟨ys, h⟩
      cases mapM_eq_ok.mp h with
      | cons hy hys => exact ⟨⟨_, hy⟩, _, mapM_eq_ok.mpr hys⟩
    · rintro ⟨⟨y, hy⟩, ys, hys⟩
      exact ⟨y :: ys, mapM_eq_ok.mpr (.cons hy (mapM_eq_ok.mp hys))⟩

theorem mapM_error {f : α → Except ε β} {xs : List α} {e : ε} (h : xs.mapM f = .error e) :
    ∃ x ∈ xs, f x = .error e := by
  induction xs with
  | nil => cases h
  | cons x xs ih =>
    rw [List.mapM_cons] at h
    cases hx : f x with
    | error e' =>
      rw [hx] at h
      cases h
      exact ⟨x, List.mem_cons_self, hx⟩
    | ok y =>
      rw [hx] at h
      cases hxs : xs.mapM f with
      | error e' =>
        simp only [bind, Except.bind, hxs] at h
        cases h
        obtain ⟨z, hz, hfz⟩ := ih hxs
        exact ⟨z, List.mem_cons_of_mem x hz, hfz⟩
      | ok ys =>
        simp only [bind, Except.bind, hxs] at h
        cases h

theorem forM_ok {f : α → Except ε Unit} {xs : List α} :
    forM xs f = .ok () ↔ ∀ x ∈ xs, f x = .ok () := by
  induction xs with
  | nil => simp [pure, Except.pure]
  | cons x xs ih =>
    rw [List.forM_cons]
    cases hx : f x with
    | error e => simp [bind, Except.bind, hx]
    | ok u => simp only [bind, Except.bind, List.mem_cons, forall_eq_or_imp, hx, true_and]; exact ih

section Collect

variable {f : α → Except ε (List β)}

def collect (f : α → Except ε (List β)) : List α → Except ε (List β)
  | [] => .ok []
  | x :: xs =>
    match f x with
    | .error e => .error e
    | .ok ys => (collect f xs).map (ys ++ ·)

theorem collect_cons_error {x : α} {e : ε} (h : f x = .error e) (xs : List α) :
    collect f (x :: xs) = .error e := by
  simp only [collect, h]

theorem collect_cons_ok {x : α} {ys : List β} (h : f x = .ok ys) (xs : List α) :
    collect f (x :: xs) = (collect f xs).map (ys ++ ·) := by
  simp only [collect, h]

theorem collect_append (xs ys : List α) :
    collect f (xs ++ ys) =
      match collect f xs with
      | .error e => .error e
      | .ok a => (collect f ys).map (a ++ ·) := by
  induction xs with
  | nil => cases h : collect f ys <;> simp [collect, Except.map, h]
  | cons x xs ih =>
    cases hx : f x with
    | error e => rw [List.cons_append, collect_cons_error hx, collect_cons_error hx]
    | ok a =>
      rw [List.cons_append, collect_cons_ok hx, collect_cons_ok hx, ih]
      cases hxs : collect f xs with
      | error e => rfl
      | ok b => cases collect f ys <;> simp [Except.map]

theorem collect_append_ok {xs ys : List α} {c : List β} :
    collect f (xs ++ ys) = .ok c ↔
      ∃ a b, collect f xs = .ok a ∧ collect f ys = .ok b ∧ c = a ++ b := by
  rw [collect_append]
  constructor
  · intro h
    cases hxs : collect f xs with
    | error e =>
      rw [hxs] at h
      cases h
    | ok a =>
      rw [hxs] at h
      obtain ⟨b, hb, rfl⟩ := map_ok h
      exact ⟨a, b, rfl, hb, rfl⟩
  · rintro ⟨a, b, ha, hb, rfl⟩
    rw [ha, hb]
    rfl

theorem collect_eq_error {xs : List α} {e : ε} :
    collect f xs = .error e ↔ ∃ before x after, xs = before ++ x :: after ∧
      (∀ y ∈ before, ∃ ys, f y = .ok ys) ∧ f x = .error e := by
  induction xs with
  | nil => simp [collect]
  | cons x xs ih =>
    constructor
    · intro h
      cases hx : f x with
      | error e' =>
        rw [collect_cons_error hx] at h
        cases h
        exact ⟨[], x, xs, rfl, by simp, hx⟩
      | ok ys =>
        rw [collect_cons_ok hx] at h
        cases hxs : collect f xs with
        | ok zs =>
          rw [hxs] at h
          cases h
        | error e' =>
          rw [hxs] at h
          cases h
          obtain ⟨before, z, after, rfl, hbefore, hz⟩ := ih.mp hxs
          exact ⟨x :: before, z, after, rfl, List.forall_mem_cons.mpr ⟨⟨ys, hx⟩, hbefore⟩, hz⟩
    · rintro ⟨before, z, after, hxs, hbefore, hz⟩
      cases before with
      | nil =>
        cases hxs
        exact collect_cons_error hz xs
      | cons y before =>
        cases hxs
        obtain ⟨⟨ys, hx⟩, hrest⟩ := List.forall_mem_cons.mp hbefore
        rw [collect_cons_ok hx, ih.mpr ⟨before, z, after, rfl, hrest, hz⟩]
        rfl

theorem collect_succeeds {xs : List α} :
    (∃ ys, collect f xs = .ok ys) ↔ ∀ x ∈ xs, ∃ ys, f x = .ok ys := by
  induction xs with
  | nil => simp [collect]
  | cons x xs ih =>
    rw [List.forall_mem_cons, ← ih]
    constructor
    · rintro ⟨ys, h⟩
      cases hx : f x with
      | error e =>
        rw [collect_cons_error hx] at h
        cases h
      | ok a =>
        rw [collect_cons_ok hx] at h
        obtain ⟨b, hb, _⟩ := map_ok h
        exact ⟨⟨a, rfl⟩, b, hb⟩
    · rintro ⟨⟨a, ha⟩, b, hb⟩
      rw [collect_cons_ok ha, hb]
      exact ⟨a ++ b, rfl⟩

theorem collect_eq_mapM (xs : List α) : collect f xs = (xs.mapM f).map List.flatten := by
  induction xs with
  | nil => rfl
  | cons x xs ih =>
    rw [List.mapM_cons]
    cases hx : f x with
    | error e =>
      rw [collect_cons_error hx]
      rfl
    | ok ys =>
      rw [collect_cons_ok hx, ih]
      cases h : xs.mapM f <;> simp [Except.map, bind, Except.bind, pure, Except.pure]

theorem foldlM_collect {step : List β → α → Except ε (List β)}
    (hstep : ∀ acc x, step acc x = (f x).map (acc ++ ·)) (xs : List α) (acc : List β) :
    xs.foldlM step acc = (collect f xs).map (acc ++ ·) := by
  induction xs generalizing acc with
  | nil => simp [collect, pure, Except.pure, Except.map]
  | cons x xs ih =>
    rw [List.foldlM_cons, hstep]
    cases hx : f x with
    | error e =>
      rw [collect_cons_error hx]
      rfl
    | ok ys =>
      rw [collect_cons_ok hx]
      refine (ih (acc ++ ys)).trans ?_
      cases collect f xs <;> simp [Except.map]

end Collect

end FallibleOperations
