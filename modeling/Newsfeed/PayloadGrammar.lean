import Newsfeed.PayloadItems

/-! # The payloads that are accepted

A batch is meant to be written as an object with the key `items`, as an array of item objects or
as one item object. The derived visitors also read a structure from an array, by position.
-/
namespace PayloadGrammar

open TextOperations FallibleOperations JsonText FeedModels PayloadItems ItemField

variable {isRfc3339 : Text → Bool}

def ReadItem (isRfc3339 : Text → Bool) (v : Json) (p : CudParams) : Prop :=
  NamedItem isRfc3339 v p ∨ PositionalItem isRfc3339 v p

def ReadItems (isRfc3339 : Text → Bool) (v : Json) (items : List CudParams) : Prop :=
  ∃ elements, v = .arr elements ∧ List.Forall₂ (ReadItem isRfc3339) elements items

def Sized {α : Type} (xs : List α) : Prop := xs ≠ [] ∧ xs.length ≤ maxBatchItems

theorem acceptedItem_iff {v : Json} {a : AcceptedItem} :
    AcceptedItem.fromJson isRfc3339 v = .ok a ↔ ReadItem isRfc3339 v a.val := by
  rw [ReadItem, ← fromJson_iff, AcceptedItem.fromJson]
  split
  · next p hp =>
    constructor
    · intro h
      cases h
      exact hp
    · intro h
      exact congrArg Except.ok (Subtype.ext (Except.ok.inj (hp.symm.trans h)))
  · next e he =>
    refine iff_of_false nofun fun h => ?_
    rw [he] at h
    cases h

theorem readItem_accepted {v : Json} {p : CudParams} (h : ReadItem isRfc3339 v p) : p.Accepted :=
  fromJson_accepted isRfc3339 (fromJson_iff.mpr h)

theorem itemsFromJson_iff {v : Json} {as : List AcceptedItem} :
    itemsFromJson isRfc3339 v = .ok as ↔ ReadItems isRfc3339 v (as.map Subtype.val) := by
  constructor
  · intro h
    cases v with
    | arr elements =>
      refine ⟨elements, rfl, ?_⟩
      rw [List.forall₂_map_right_iff]
      exact (mapM_eq_ok.mp h).imp fun _ _ => acceptedItem_iff.mp
    | _ => cases h
  · intro hgiven
    rcases hgiven with ⟨elements, rfl, h⟩
    rw [List.forall₂_map_right_iff] at h
    exact mapM_eq_ok.mpr (h.imp fun _ _ => acceptedItem_iff.mpr)

theorem exists_accepted {v : Json} {items : List CudParams} (h : ReadItems isRfc3339 v items) :
    ∃ as : List AcceptedItem, as.map Subtype.val = items := by
  rcases h with ⟨elements, _, h⟩
  have hall : ∀ item ∈ items, item.Accepted := by
    intro item hitem
    obtain ⟨w, _, hw⟩ := forall₂_right h hitem
    exact readItem_accepted hw
  exact ⟨items.attachWith CudParams.Accepted hall, List.attachWith_map_subtype_val _⟩

theorem itemsFromJson_succeeds {v : Json} :
    (∃ as, itemsFromJson isRfc3339 v = .ok as) ↔ ∃ items, ReadItems isRfc3339 v items := by
  constructor
  · intro hgiven
    rcases hgiven with ⟨as, h⟩
    exact ⟨_, itemsFromJson_iff.mp h⟩
  · intro hgiven
    rcases hgiven with ⟨items, h⟩
    obtain ⟨as, rfl⟩ := exists_accepted h
    exact ⟨as, itemsFromJson_iff.mpr h⟩

def ReadWrapper (isRfc3339 : Text → Bool) (v : Json) (items : List CudParams) : Prop :=
  ∃ w, (v = .obj [("items".toList, w)] ∨ v = .arr [w]) ∧ ReadItems isRfc3339 w items

theorem visitItems_ok {seen seen' : Option (List AcceptedItem)} {m : Text × Json} :
    visitItems isRfc3339 seen m = .ok seen' ↔ m.1 = "items".toList ∧ seen = none ∧
      ∃ as, itemsFromJson isRfc3339 m.2 = .ok as ∧ seen' = some as := by
  rw [visitItems]
  split
  · next hkey =>
    split
    · next hseen =>
      apply iff_of_false nofun
      intro hgiven
      rcases hgiven with ⟨_, rfl, _⟩
      cases hseen
    · next hseen =>
      constructor
      · intro h
        obtain ⟨as, has, rfl⟩ := map_ok h
        exact ⟨hkey, by simpa using hseen, as, has, rfl⟩
      · intro hgiven
        rcases hgiven with ⟨_, _, as, has, rfl⟩
        rw [has]
        rfl
  · next hkey => exact iff_of_false nofun fun h => hkey h.1

theorem wrapper_obj {members : List (Text × Json)} {as : List AcceptedItem} :
    wrapperFromJson isRfc3339 (.obj members) = .ok as ↔
      ∃ w, members = [("items".toList, w)] ∧ itemsFromJson isRfc3339 w = .ok as := by
  rw [wrapperFromJson]
  constructor
  · intro h
    obtain ⟨seen, hfold, h⟩ := bind_ok h
    cases seen with
    | none => cases h
    | some as' =>
      cases h
      cases members with
      | nil => cases hfold
      | cons m ms =>
        rw [List.foldlM_cons] at hfold
        obtain ⟨seen, hvisit, hfold⟩ := bind_ok hfold
        obtain ⟨hkey, _, as', has, rfl⟩ := visitItems_ok.mp hvisit
        cases ms with
        | nil =>
          cases hfold
          exact ⟨m.2, by rw [← hkey], has⟩
        | cons m' ms =>
          rw [List.foldlM_cons] at hfold
          obtain ⟨seen, hvisit', _⟩ := bind_ok hfold
          cases (visitItems_ok.mp hvisit').2.1
  · intro hgiven
    rcases hgiven with ⟨w, rfl, has⟩
    have hvisit : visitItems isRfc3339 none ("items".toList, w) = .ok (some as) :=
      visitItems_ok.mpr ⟨rfl, rfl, as, has, rfl⟩
    rw [List.foldlM_cons, hvisit]
    rfl

theorem wrapperFromJson_iff {v : Json} {as : List AcceptedItem} :
    wrapperFromJson isRfc3339 v = .ok as ↔ ReadWrapper isRfc3339 v (as.map Subtype.val) := by
  constructor
  · intro h
    cases v with
    | obj members =>
      obtain ⟨w, rfl, has⟩ := wrapper_obj.mp h
      exact ⟨w, Or.inl rfl, itemsFromJson_iff.mp has⟩
    | arr elements =>
      rcases elements with _ | ⟨w, _ | ⟨w', ws⟩⟩
      · cases h
      · exact ⟨w, Or.inr rfl, itemsFromJson_iff.mp h⟩
      · cases h
    | _ => cases h
  · intro hgiven
    rcases hgiven with ⟨w, rfl | rfl, h⟩
    · exact wrapper_obj.mpr ⟨w, rfl, itemsFromJson_iff.mpr h⟩
    · exact itemsFromJson_iff.mpr h

theorem wrapperFromJson_succeeds {v : Json} :
    (∃ as, wrapperFromJson isRfc3339 v = .ok as) ↔ ∃ items, ReadWrapper isRfc3339 v items := by
  constructor
  · intro hgiven
    rcases hgiven with ⟨as, h⟩
    exact ⟨_, wrapperFromJson_iff.mp h⟩
  · intro hgiven
    rcases hgiven with ⟨items, w, hv, h⟩
    obtain ⟨as, rfl⟩ := exists_accepted h
    exact ⟨as, wrapperFromJson_iff.mpr ⟨w, hv, h⟩⟩

/-- The payload is accepted with these items. -/
def Accepted (isRfc3339 : Text → Bool) (v : Json) (items : List CudParams) : Prop :=
  ∃ payload, CudPayload.fromJson isRfc3339 v = .ok payload ∧ payload.items = items

theorem ofItems_iff {as : List AcceptedItem} {items : List CudParams} :
    (∃ payload, CudPayload.ofItems as = .ok payload ∧ payload.items = items) ↔
      as.map Subtype.val = items ∧ Sized items := by
  rw [CudPayload.ofItems]
  split
  · next hempty =>
    apply iff_of_false nofun
    intro hgiven
    rcases hgiven with ⟨rfl, hne, _⟩
    exact hne (by rw [hempty]; rfl)
  · next hne =>
    split
    · next hlong =>
      apply iff_of_false nofun
      intro hgiven
      rcases hgiven with ⟨rfl, _, hle⟩
      rw [List.length_map] at hle
      omega
    · next hle =>
      constructor
      · intro hgiven
        rcases hgiven with ⟨_, h, rfl⟩
        cases h
        refine ⟨rfl, fun h => hne (List.map_eq_nil_iff.mp h), ?_⟩
        rw [List.length_map]
        exact Nat.le_of_not_lt hle
      · intro hgiven
        rcases hgiven with ⟨rfl, _⟩
        exact ⟨_, rfl, rfl⟩

theorem readItems_of_ok {v : Json} {as : List AcceptedItem}
    (h : itemsFromJson isRfc3339 v = .ok as) {items : List CudParams} :
    ReadItems isRfc3339 v items ↔ as.map Subtype.val = items := by
  constructor
  · intro hread
    obtain ⟨as', rfl⟩ := exists_accepted hread
    cases h.symm.trans (itemsFromJson_iff.mpr hread)
    rfl
  · rintro rfl
    exact itemsFromJson_iff.mp h

theorem readWrapper_of_ok {v : Json} {as : List AcceptedItem}
    (h : wrapperFromJson isRfc3339 v = .ok as) {items : List CudParams} :
    ReadWrapper isRfc3339 v items ↔ as.map Subtype.val = items := by
  constructor
  · intro hgiven
    rcases hgiven with ⟨w, hv, hread⟩
    obtain ⟨as', rfl⟩ := exists_accepted hread
    cases h.symm.trans (wrapperFromJson_iff.mpr ⟨w, hv, hread⟩)
    rfl
  · rintro rfl
    exact wrapperFromJson_iff.mp h

theorem no_ok_of_error {ε α : Type} {x : Except ε α} {e : ε} (h : x = .error e) :
    ¬ ∃ a, x = .ok a := by
  intro hgiven
  rcases hgiven with ⟨a, ha⟩
  cases h.symm.trans ha

/-- The three variants, in order. -/
theorem accepted_iff {v : Json} {items : List CudParams} :
    Accepted isRfc3339 v items ↔
      (ReadWrapper isRfc3339 v items ∧ Sized items) ∨
      (¬ (∃ items', ReadWrapper isRfc3339 v items') ∧ ReadItems isRfc3339 v items ∧ Sized items) ∨
      (¬ (∃ items', ReadWrapper isRfc3339 v items') ∧ ¬ (∃ items', ReadItems isRfc3339 v items') ∧
        ∃ p, ReadItem isRfc3339 v p ∧ items = [p]) := by
  rw [Accepted, CudPayload.fromJson, ← wrapperFromJson_succeeds, ← itemsFromJson_succeeds]
  cases hwrapper : wrapperFromJson isRfc3339 v with
  | ok as =>
    simp only [ofItems_iff, readWrapper_of_ok hwrapper, Except.ok.injEq, exists_eq',
      not_true_eq_false, false_and, or_false]
  | error e =>
    have hnone : ¬ ReadWrapper isRfc3339 v items := by
      intro h
      exact no_ok_of_error hwrapper (wrapperFromJson_succeeds.mpr ⟨items, h⟩)
    cases hitems : itemsFromJson isRfc3339 v with
    | ok as =>
      simp only [ofItems_iff, readItems_of_ok hitems, hnone, reduceCtorEq, exists_false,
        not_false_eq_true, Except.ok.injEq, exists_eq', not_true_eq_false, false_and, true_and,
        and_false, or_false, false_or]
    | error e' =>
      have hnone' : ¬ ReadItems isRfc3339 v items := by
        intro h
        exact no_ok_of_error hitems (itemsFromJson_succeeds.mpr ⟨items, h⟩)
      simp only [hnone, hnone', reduceCtorEq, exists_false, not_false_eq_true, false_and, true_and,
        and_false, false_or]
      constructor
      · intro hgiven
        rcases hgiven with ⟨payload, h, rfl⟩
        split at h
        · next a ha =>
          cases h
          exact ⟨a.val, acceptedItem_iff.mp ha, rfl⟩
        · cases h
      · intro hgiven
        rcases hgiven with ⟨p, hp, rfl⟩
        have ha : AcceptedItem.fromJson isRfc3339 v = .ok ⟨p, readItem_accepted hp⟩ :=
          acceptedItem_iff.mpr hp
        rw [ha]
        exact ⟨_, rfl, rfl⟩

/-- The documented forms, and the items they list. -/
inductive Documented (isRfc3339 : Text → Bool) : Json → List CudParams → Prop where
  | wrapper {elements : List Json} {items : List CudParams} (hsize : Sized elements)
      (hitems : List.Forall₂ (NamedItem isRfc3339) elements items) :
      Documented isRfc3339 (.obj [("items".toList, .arr elements)]) items
  | batch {elements : List Json} {items : List CudParams} (hsize : Sized elements)
      (hitems : List.Forall₂ (NamedItem isRfc3339) elements items) :
      Documented isRfc3339 (.arr elements) items
  | single {v : Json} {p : CudParams} (hitem : NamedItem isRfc3339 v p) :
      Documented isRfc3339 v [p]

def IsArray : Json → Prop
  | .arr _ => True
  | _ => False

def Readable (isRfc3339 : Text → Bool) (elements : List Json) : Prop :=
  ∀ v ∈ elements, ∃ p, ReadItem isRfc3339 v p

/-- An array stands where the grammar has an object: for an item of a batch, for the wrapper
or for the single item. -/
inductive ByPosition (isRfc3339 : Text → Bool) : Json → Prop where
  | wrapped {elements : List Json} (hsize : Sized elements) (hread : Readable isRfc3339 elements)
      (harray : ∃ v ∈ elements, IsArray v) :
      ByPosition isRfc3339 (.obj [("items".toList, .arr elements)])
  | wrapper {elements : List Json} (hsize : Sized elements)
      (hread : Readable isRfc3339 elements) : ByPosition isRfc3339 (.arr [.arr elements])
  | batch {elements : List Json} (hsize : Sized elements) (hread : Readable isRfc3339 elements)
      (harray : ∃ v ∈ elements, IsArray v) (hother : elements ≠ [.arr []]) :
      ByPosition isRfc3339 (.arr elements)
  | single {elements : List Json} {p : CudParams} (hne : elements ≠ [])
      (hitem : ReadsElements isRfc3339 elements p) : ByPosition isRfc3339 (.arr elements)

theorem namedItem_not_array {v : Json} {p : CudParams} (h : NamedItem isRfc3339 v p) :
    ¬ IsArray v := by
  rcases h with ⟨members, rfl, _⟩
  exact id

theorem readItem_not_array {v : Json} {p : CudParams} (h : ReadItem isRfc3339 v p)
    (harray : ¬ IsArray v) : NamedItem isRfc3339 v p := by
  rcases h with h | ⟨elements, rfl, _⟩
  · exact h
  · exact absurd trivial harray

theorem readable_iff {elements : List Json} :
    Readable isRfc3339 elements ↔ ∃ items, List.Forall₂ (ReadItem isRfc3339) elements items := by
  constructor
  · intro h
    have hread : ∀ v ∈ elements, ∃ p, CudParams.fromJson isRfc3339 v = .ok p := by
      intro v hv
      obtain ⟨p, hp⟩ := h v hv
      exact ⟨p, fromJson_iff.mpr hp⟩
    obtain ⟨items, hitems⟩ := mapM_succeeds.mpr hread
    exact ⟨items, (mapM_eq_ok.mp hitems).imp fun _ _ => fromJson_iff.mp⟩
  · rintro ⟨items, h⟩ v hv
    obtain ⟨p, _, hp⟩ := forall₂_left h hv
    exact ⟨p, hp⟩

theorem sized_congr {α β : Type} {R : α → β → Prop} {xs : List α} {ys : List β}
    (h : List.Forall₂ R xs ys) : Sized xs ↔ Sized ys := by
  rw [Sized, Sized, ← List.length_pos_iff, ← List.length_pos_iff, h.length_eq]

theorem readsMembers_no_items {members : List (Text × Json)} {p : CudParams}
    (h : ReadsMembers isRfc3339 members p) : "items".toList ∉ members.map Prod.fst := by
  intro hmem
  obtain ⟨m, hm, hkey⟩ := List.mem_map.mp hmem
  obtain ⟨field, hfield, _⟩ := h.known m hm
  have hne : "items".toList ≠ field.key := by cases field <;> decide
  exact hne (hkey.symm.trans hfield)

theorem namedItem_no_wrapper {v : Json} {p : CudParams} (h : NamedItem isRfc3339 v p) :
    ¬ ∃ items, ReadWrapper isRfc3339 v items := by
  rcases h with ⟨members, rfl, hmembers⟩
  intro hgiven
  rcases hgiven with ⟨items, w, heq | heq, _⟩
  · cases heq
    exact readsMembers_no_items hmembers List.mem_cons_self
  · cases heq

theorem namedItem_no_items {v : Json} {p : CudParams} (h : NamedItem isRfc3339 v p) :
    ¬ ∃ items, ReadItems isRfc3339 v items := by
  rcases h with ⟨members, rfl, _⟩
  intro hgiven
  rcases hgiven with ⟨items, elements, heq, _⟩
  cases heq

theorem readWrapper_arr {elements : List Json} {items : List CudParams} :
    ReadWrapper isRfc3339 (.arr elements) items ↔
      ∃ inner, elements = [.arr inner] ∧ List.Forall₂ (ReadItem isRfc3339) inner items := by
  constructor
  · intro hgiven
    rcases hgiven with ⟨w, heq | heq, inner, rfl, h⟩
    · cases heq
    · cases heq
      exact ⟨inner, rfl, h⟩
  · intro hgiven
    rcases hgiven with ⟨inner, rfl, h⟩
    exact ⟨.arr inner, Or.inr rfl, inner, rfl, h⟩

theorem takes_not_item {field : ItemField} {v : Json} {x : Option Text}
    (h : Takes isRfc3339 field v x) (p : CudParams) : ¬ ReadItem isRfc3339 v p := by
  rintro (⟨_, rfl, _⟩ | ⟨_, rfl, _⟩) <;> cases h

theorem readsElements_head {v : Json} {vs : List Json} {p : CudParams}
    (h : ReadsElements isRfc3339 (v :: vs) p) : Takes isRfc3339 .title v p.title :=
  h.element .title

theorem readsElements_not_readable {elements : List Json} {p : CudParams} (hne : elements ≠ [])
    (h : ReadsElements isRfc3339 elements p) : ¬ Readable isRfc3339 elements := by
  intro hread
  cases elements with
  | nil => exact hne rfl
  | cons v vs =>
    obtain ⟨q, hq⟩ := hread v List.mem_cons_self
    exact takes_not_item (readsElements_head h) q hq

theorem readItems_of_named {elements : List Json} {items : List CudParams}
    (h : List.Forall₂ (NamedItem isRfc3339) elements items) :
    List.Forall₂ (ReadItem isRfc3339) elements items :=
  h.imp fun _ _ => Or.inl

/-- The documented forms are accepted, with the items they list. -/
theorem documented_accepted {v : Json} {items : List CudParams}
    (h : Documented isRfc3339 v items) : Accepted isRfc3339 v items := by
  rw [accepted_iff]
  cases h with
  | wrapper hsize hitems =>
    have hread := readItems_of_named hitems
    exact Or.inl ⟨⟨_, Or.inl rfl, _, rfl, hread⟩, (sized_congr hitems).mp hsize⟩
  | batch hsize hitems =>
    have hread := readItems_of_named hitems
    refine Or.inr (Or.inl ⟨?_, ⟨_, rfl, hread⟩, (sized_congr hitems).mp hsize⟩)
    intro hgiven
    rcases hgiven with ⟨items', hwrapper⟩
    obtain ⟨inner, rfl, _⟩ := readWrapper_arr.mp hwrapper
    obtain ⟨p, _, hp⟩ := forall₂_left hitems List.mem_cons_self
    exact namedItem_not_array hp trivial
  | single hitem =>
    exact Or.inr (Or.inr ⟨namedItem_no_wrapper hitem, namedItem_no_items hitem, _,
      Or.inl hitem, rfl⟩)

theorem readItems_named {elements : List Json} {items : List CudParams}
    (h : List.Forall₂ (ReadItem isRfc3339) elements items) (harray : ¬ ∃ v ∈ elements, IsArray v) :
    List.Forall₂ (NamedItem isRfc3339) elements items := by
  refine (forall₂_congr_left fun v hv p => ?_).mp h
  constructor
  · intro hread
    exact readItem_not_array hread fun hv' => harray ⟨v, hv, hv'⟩
  · exact Or.inl

/-- What is accepted is documented, unless an array is read by position. -/
theorem accepted_documented {v : Json} {items : List CudParams} (h : Accepted isRfc3339 v items)
    (hposition : ¬ ByPosition isRfc3339 v) : Documented isRfc3339 v items := by
  rcases accepted_iff.mp h with ⟨⟨w, hv, elements, rfl, hread⟩, hsize⟩ |
    ⟨hwrapper, ⟨elements, rfl, hread⟩, hsize⟩ | ⟨_, hlist, p, hitem, rfl⟩
  · have hsized := (sized_congr hread).mpr hsize
    have hreadable := readable_iff.mpr ⟨items, hread⟩
    rcases hv with rfl | rfl
    · by_cases harray : ∃ v ∈ elements, IsArray v
      · exact absurd (.wrapped hsized hreadable harray) hposition
      · exact .wrapper hsized (readItems_named hread harray)
    · exact absurd (.wrapper hsized hreadable) hposition
  · have hsized := (sized_congr hread).mpr hsize
    by_cases harray : ∃ v ∈ elements, IsArray v
    · have hother : elements ≠ [.arr []] := by
        rintro rfl
        exact hwrapper ⟨[], readWrapper_arr.mpr ⟨[], rfl, .nil⟩⟩
      exact absurd (.batch hsized (readable_iff.mpr ⟨items, hread⟩) harray hother) hposition
    · exact .batch hsized (readItems_named hread harray)
  · rcases hitem with hitem | ⟨elements, rfl, hitem⟩
    · exact .single hitem
    · have hne : elements ≠ [] := by
        rintro rfl
        exact hlist ⟨[], [], rfl, .nil⟩
      exact absurd (.single hne hitem) hposition

theorem byPosition_accepted {v : Json} (h : ByPosition isRfc3339 v) :
    ∃ items, Accepted isRfc3339 v items := by
  simp only [accepted_iff]
  cases h with
  | wrapped hsize hread _ =>
    obtain ⟨items, hitems⟩ := readable_iff.mp hread
    exact ⟨items, Or.inl ⟨⟨_, Or.inl rfl, _, rfl, hitems⟩, (sized_congr hitems).mp hsize⟩⟩
  | wrapper hsize hread =>
    obtain ⟨items, hitems⟩ := readable_iff.mp hread
    exact ⟨items, Or.inl ⟨readWrapper_arr.mpr ⟨_, rfl, hitems⟩, (sized_congr hitems).mp hsize⟩⟩
  | @batch elements hsize hread harray hother =>
    by_cases hwrapper : ∃ items, ReadWrapper isRfc3339 (.arr elements) items
    · rcases hwrapper with ⟨items, hwrapper⟩
      obtain ⟨inner, rfl, hinner⟩ := readWrapper_arr.mp hwrapper
      have hne : inner ≠ [] := by
        rintro rfl
        exact hother rfl
      obtain ⟨p, hp⟩ := hread (.arr inner) List.mem_cons_self
      rcases hp with ⟨_, heq, _⟩ | ⟨_, heq, hp⟩
      · cases heq
      · cases heq
        exact absurd (readable_iff.mpr ⟨items, hinner⟩) (readsElements_not_readable hne hp)
    · obtain ⟨items, hitems⟩ := readable_iff.mp hread
      exact ⟨items, Or.inr (Or.inl ⟨hwrapper, ⟨_, rfl, hitems⟩, (sized_congr hitems).mp hsize⟩)⟩
  | @single elements p hne hitem =>
    refine ⟨[p], Or.inr (Or.inr ⟨?_, ?_, p, Or.inr ⟨elements, rfl, hitem⟩, rfl⟩)⟩
    · intro hgiven
      rcases hgiven with ⟨items, hwrapper⟩
      obtain ⟨inner, rfl, _⟩ := readWrapper_arr.mp hwrapper
      cases readsElements_head hitem
    · intro hgiven
      rcases hgiven with ⟨items, _, heq, hread⟩
      cases heq
      exact readsElements_not_readable hne hitem (readable_iff.mpr ⟨items, hread⟩)

theorem byPosition_undocumented {v : Json} (h : ByPosition isRfc3339 v) (items : List CudParams) :
    ¬ Documented isRfc3339 v items := by
  have hnamed : ∀ {elements : List Json}, List.Forall₂ (NamedItem isRfc3339) elements items →
      ¬ ∃ v ∈ elements, IsArray v := by
    rintro elements hitems ⟨v, hv, harray⟩
    obtain ⟨p, _, hp⟩ := forall₂_left hitems hv
    exact namedItem_not_array hp harray
  intro hdocumented
  cases h with
  | wrapped _ _ harray =>
    cases hdocumented with
    | wrapper _ hitems => exact hnamed hitems harray
    | single hitem =>
      rcases hitem with ⟨_, heq, hmembers⟩
      cases heq
      exact readsMembers_no_items hmembers List.mem_cons_self
  | wrapper _ _ =>
    cases hdocumented with
    | batch _ hitems => exact hnamed hitems ⟨_, List.mem_cons_self, trivial⟩
    | single hitem => exact namedItem_not_array hitem trivial
  | batch _ _ harray _ =>
    cases hdocumented with
    | batch _ hitems => exact hnamed hitems harray
    | single hitem => exact namedItem_not_array hitem trivial
  | single hne hitem =>
    cases hdocumented with
    | batch _ hitems =>
      have hread := readItems_of_named hitems
      exact readsElements_not_readable hne hitem (readable_iff.mpr ⟨items, hread⟩)
    | single hitem' => exact namedItem_not_array hitem' trivial

/-- The deserialiser accepts the documented forms and nothing else, with the items they list,
exactly when no array is read by position. -/
theorem documented_iff (isRfc3339 : Text → Bool) (v : Json) :
    (∀ items, Accepted isRfc3339 v items ↔ Documented isRfc3339 v items) ↔
      ¬ ByPosition isRfc3339 v := by
  constructor
  · intro h hposition
    obtain ⟨items, haccepted⟩ := byPosition_accepted hposition
    exact byPosition_undocumented hposition items ((h items).mp haccepted)
  · intro h items
    constructor
    · intro haccepted
      exact accepted_documented haccepted h
    · exact documented_accepted

/-- An array of one string is read as an item with this title. -/
theorem title_alone_accepted :
    Accepted (fun _ => false) (.arr [.str "Hello".toList])
        [⟨some "Hello".toList, none, none, none, none⟩] ∧
      ¬ ∃ items, Documented (fun _ => false) (.arr [.str "Hello".toList]) items := by
  constructor
  · exact ⟨CudPayload.single ⟨⟨some "Hello".toList, none, none, none, none⟩, by decide⟩, rfl, rfl⟩
  · intro hgiven
    rcases hgiven with ⟨items, h⟩
    cases h with
    | batch _ hitems =>
      cases hitems with
      | cons hitem _ =>
        rcases hitem with ⟨_, heq, _⟩
        cases heq
    | single hitem => exact namedItem_not_array hitem trivial

end PayloadGrammar
