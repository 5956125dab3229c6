import Newsfeed.FeedModels

/-! # Items in a payload

The derived visitor of an item reads an object by the names of the fields, and an array by their
positions. Each field has its own deserialiser.
-/
namespace PayloadItems

open TextOperations FallibleOperations JsonText FeedModels

inductive ItemField where
  | title
  | imageUrl
  | feedUrl
  | actualUrl
  | publishDate
  deriving DecidableEq, Repr

namespace ItemField

def name : ItemField → String
  | .title => "title"
  | .imageUrl => "image_url"
  | .feedUrl => "feed_url"
  | .actualUrl => "actual_url"
  | .publishDate => "publish_date"

def key (f : ItemField) : Text := f.name.toList

def position : ItemField → Nat
  | .title => 0
  | .imageUrl => 1
  | .feedUrl => 2
  | .actualUrl => 3
  | .publishDate => 4

def value (p : CudParams) : ItemField → Option Text
  | .title => p.title
  | .imageUrl => p.imageUrl
  | .feedUrl => p.feedUrl
  | .actualUrl => p.actualUrl
  | .publishDate => p.publishDate

def seen (f : CudFields) : ItemField → Option (Option Text)
  | .title => f.title
  | .imageUrl => f.imageUrl
  | .feedUrl => f.feedUrl
  | .actualUrl => f.actualUrl
  | .publishDate => f.publishDate

def write (f : CudFields) (x : Option Text) : ItemField → CudFields
  | .title => { f with title := some x }
  | .imageUrl => { f with imageUrl := some x }
  | .feedUrl => { f with feedUrl := some x }
  | .actualUrl => { f with actualUrl := some x }
  | .publishDate => { f with publishDate := some x }

theorem seen_write_self (f : CudFields) (x : Option Text) (field : ItemField) :
    field.seen (field.write f x) = some x := by
  cases field <;> rfl

theorem seen_write_of_ne (f : CudFields) (x : Option Text) {field other : ItemField}
    (h : other ≠ field) : other.seen (field.write f x) = other.seen f := by
  cases field <;> cases other <;> first | rfl | exact absurd rfl h

theorem seen_ext {f g : CudFields} (h : ∀ field : ItemField, field.seen f = field.seen g) :
    f = g := by
  cases f
  cases g
  simp only [CudFields.mk.injEq]
  exact ⟨h .title, h .imageUrl, h .feedUrl, h .actualUrl, h .publishDate⟩

theorem value_finish (f : CudFields) (field : ItemField) :
    field.value f.finish = (field.seen f).getD none := by
  cases field <;> rfl

theorem value_ext {p q : CudParams} (h : ∀ field : ItemField, field.value p = field.value q) :
    p = q := by
  cases p
  cases q
  simp only [CudParams.mk.injEq]
  exact ⟨h .title, h .imageUrl, h .feedUrl, h .actualUrl, h .publishDate⟩

theorem key_injective {f g : ItemField} (h : f.key = g.key) : f = g := by
  cases f <;> cases g <;> first | rfl | exact absurd h (by decide)

variable (isRfc3339 : Text → Bool)

/-- A string, once trimmed, that the field takes. -/
def Valid (t : Text) : ItemField → Prop
  | .title => t ≠ [] ∧ utf8Len t ≤ 255
  | .imageUrl => (t ≠ [] ∧ utf8Len t ≤ 2048) ∧
      ("http://".toList.isPrefixOf t = true ∨ "https://".toList.isPrefixOf t = true)
  | .feedUrl => (t ≠ [] ∧ utf8Len t ≤ 2048) ∧
      ("http://".toList.isPrefixOf t = true ∨ "https://".toList.isPrefixOf t = true)
  | .actualUrl => (t ≠ [] ∧ utf8Len t ≤ 2048) ∧
      ("http://".toList.isPrefixOf t = true ∨ "https://".toList.isPrefixOf t = true)
  | .publishDate => (t ≠ [] ∧ utf8Len t ≤ 50) ∧ isRfc3339 t = true

/-- A value of the field is null, or a valid string, which is trimmed. -/
inductive Takes (f : ItemField) : Json → Option Text → Prop where
  | null : Takes f .null none
  | str {s : Text} (h : f.Valid isRfc3339 (trim s)) : Takes f (.str s) (some (trim s))

def deserialize : ItemField → Json → Except DeError (Option Text)
  | .title => deserializeTitle
  | .imageUrl => deserializeUrl
  | .feedUrl => deserializeUrl
  | .actualUrl => deserializeUrl
  | .publishDate => deserializeDate isRfc3339

end ItemField

open ItemField

variable {isRfc3339 : Text → Bool}

theorem validateString_iff {s t : Text} {maxLen : Nat} :
    validateString s maxLen = .ok t ↔ t = trim s ∧ t ≠ [] ∧ utf8Len t ≤ maxLen := by
  rw [validateString]
  split
  · next hempty =>
    constructor
    · intro h
      cases h
    · intro hgiven
      rcases hgiven with ⟨rfl, hne, _⟩
      exact absurd (List.isEmpty_iff.mp hempty) hne
  · next hne =>
    split
    · next hlong =>
      constructor
      · intro h
        cases h
      · intro hgiven
        rcases hgiven with ⟨rfl, _, hle⟩
        omega
    · next hle =>
      constructor
      · intro h
        cases h
        exact ⟨rfl, by simpa using hne, Nat.le_of_not_lt hle⟩
      · intro hgiven
        rcases hgiven with ⟨rfl, _⟩
        rfl

theorem takes_str {f : ItemField} {s : Text} {x : Option Text} :
    Takes isRfc3339 f (.str s) x ↔ x = some (trim s) ∧ f.Valid isRfc3339 (trim s) := by
  constructor
  · intro h
    cases h with
    | str h => exact ⟨rfl, h⟩
  · intro hgiven
    rcases hgiven with ⟨rfl, h⟩
    exact .str h

theorem deserializeTitle_str {s : Text} {x : Option Text} :
    deserializeTitle (.str s) = .ok x ↔ x = some (trim s) ∧ Valid isRfc3339 (trim s) .title := by
  constructor
  · intro h
    obtain ⟨t, ht, h⟩ := bind_ok (x := validateString s 255) h
    cases h
    rcases validateString_iff.mp ht with ⟨rfl, hvalid⟩
    exact ⟨rfl, hvalid⟩
  · intro hgiven
    rcases hgiven with ⟨rfl, hvalid⟩
    have ht : validateString s 255 = .ok (trim s) := validateString_iff.mpr ⟨rfl, hvalid⟩
    simp only [deserializeTitle, deserializeOption, bind, Except.bind, ht, pure, Except.pure]

theorem checked_ok {s : Text} {maxLen : Nat} {refused : Text → Prop} [DecidablePred refused]
    {e : DeError} {x : Option Text} :
    (validateString s maxLen >>= fun t => if refused t then .error e else .ok (some t)) = .ok x ↔
      x = some (trim s) ∧ (trim s ≠ [] ∧ utf8Len (trim s) ≤ maxLen) ∧ ¬ refused (trim s) := by
  constructor
  · intro h
    obtain ⟨t, ht, h⟩ := bind_ok h
    obtain ⟨rfl, hvalid⟩ := validateString_iff.mp ht
    split at h
    · cases h
    · next haccepted =>
      cases h
      exact ⟨rfl, hvalid, haccepted⟩
  · intro hgiven
    rcases hgiven with ⟨rfl, hvalid, haccepted⟩
    rw [validateString_iff.mpr ⟨rfl, hvalid⟩]
    exact if_neg haccepted

theorem deserializeUrl_str (isRfc3339 : Text → Bool) {s : Text} {x : Option Text} :
    deserializeUrl (.str s) = .ok x ↔
      x = some (trim s) ∧ Valid isRfc3339 (trim s) .imageUrl := by
  have hbind : deserializeUrl (.str s) = validateString s 2048 >>= fun t =>
      if ¬ "http://".toList.isPrefixOf t ∧ ¬ "https://".toList.isPrefixOf t then
        .error (.custom "URL must start with http:// or https://")
      else .ok (some t) := rfl
  rw [hbind, checked_ok, ← Decidable.or_iff_not_not_and_not]
  exact Iff.rfl

theorem deserializeDate_str {s : Text} {x : Option Text} :
    deserializeDate isRfc3339 (.str s) = .ok x ↔
      x = some (trim s) ∧ Valid isRfc3339 (trim s) .publishDate := by
  have hbind : deserializeDate isRfc3339 (.str s) = validateString s 50 >>= fun t =>
      if ¬ isRfc3339 t then
        .error (.custom "invalid date format, must be RFC3339 (e.g. 2026-08-01T12:00:00Z)")
      else .ok (some t) := rfl
  rw [hbind, checked_ok, not_not]
  exact Iff.rfl

theorem deserialize_other (f : ItemField) {v : Json} (hnull : v ≠ .null) (hstr : ∀ s, v ≠ .str s) :
    f.deserialize isRfc3339 v = .error .invalidType := by
  have hoption : deserializeOption v = .error .invalidType := by
    rw [deserializeOption]
    · exact hnull
    · exact hstr
  cases f <;>
    simp only [deserialize, deserializeTitle, deserializeUrl, deserializeDate, hoption] <;> rfl

theorem deserialize_iff {f : ItemField} {v : Json} {x : Option Text} :
    f.deserialize isRfc3339 v = .ok x ↔ Takes isRfc3339 f v x := by
  by_cases hstr : ∃ s, v = .str s
  · rcases hstr with ⟨s, rfl⟩
    rw [takes_str]
    cases f with
    | title => exact deserializeTitle_str
    | imageUrl => exact deserializeUrl_str isRfc3339
    | feedUrl => exact deserializeUrl_str isRfc3339
    | actualUrl => exact deserializeUrl_str isRfc3339
    | publishDate => exact deserializeDate_str
  · by_cases hnull : v = .null
    · have hnone : f.deserialize isRfc3339 .null = .ok none := by cases f <;> rfl
      rw [hnull, hnone]
      constructor
      · intro h
        cases h
        exact .null
      · intro h
        cases h
        rfl
    · rw [deserialize_other f hnull (not_exists.mp hstr)]
      constructor
      · intro h
        cases h
      · intro h
        cases h with
        | null => exact absurd rfl hnull
        | str _ => exact absurd ⟨_, rfl⟩ hstr

/-- Each key is one of the five, at most once, with a value of its field; the other fields
are null. -/
structure ReadsMembers (isRfc3339 : Text → Bool) (members : List (Text × Json)) (p : CudParams) :
    Prop where
  once : (members.map Prod.fst).Nodup
  known : ∀ m ∈ members, ∃ f : ItemField, m.1 = f.key ∧ Takes isRfc3339 f m.2 (f.value p)
  absent : ∀ f : ItemField, f.key ∉ members.map Prod.fst → f.value p = none

def NamedItem (isRfc3339 : Text → Bool) (v : Json) (p : CudParams) : Prop :=
  ∃ members, v = .obj members ∧ ReadsMembers isRfc3339 members p

theorem visitMember_known (f : CudFields) {field : ItemField} {m : Text × Json}
    (h : m.1 = field.key) : f.visitMember isRfc3339 m =
      if (field.seen f).isSome then .error (.duplicateField field.name)
      else (field.deserialize isRfc3339 m.2).map fun x => field.write f x := by
  rw [CudFields.visitMember, h]
  cases field <;> rfl

theorem visitMember_unknown (f : CudFields) {m : Text × Json}
    (h : ∀ field : ItemField, m.1 ≠ field.key) :
    f.visitMember isRfc3339 m = .error (.unknownField m.1) := by
  have htitle : m.1 ≠ "title".toList := h .title
  have himage : m.1 ≠ "image_url".toList := h .imageUrl
  have hfeed : m.1 ≠ "feed_url".toList := h .feedUrl
  have hactual : m.1 ≠ "actual_url".toList := h .actualUrl
  have hdate : m.1 ≠ "publish_date".toList := h .publishDate
  rw [CudFields.visitMember, if_neg htitle, if_neg himage, if_neg hfeed, if_neg hactual,
    if_neg hdate]

theorem visitMember_ok {f g : CudFields} {m : Text × Json} :
    f.visitMember isRfc3339 m = .ok g ↔ ∃ (field : ItemField) (x : Option Text),
      m.1 = field.key ∧ field.seen f = none ∧ Takes isRfc3339 field m.2 x ∧
        g = field.write f x := by
  constructor
  · intro h
    by_cases hkey : ∃ field : ItemField, m.1 = field.key
    · rcases hkey with ⟨field, hfield⟩
      rw [visitMember_known f hfield] at h
      split at h
      · cases h
      · next hseen =>
        obtain ⟨x, hx, rfl⟩ := map_ok h
        exact ⟨field, x, hfield, by simpa using hseen, deserialize_iff.mp hx, rfl⟩
    · rw [visitMember_unknown f (not_exists.mp hkey)] at h
      cases h
  · intro hgiven
    rcases hgiven with ⟨field, x, hfield, hseen, htakes, rfl⟩
    rw [visitMember_known f hfield, hseen, deserialize_iff.mpr htakes]
    rfl

theorem foldlM_ok {members : List (Text × Json)} {f g : CudFields} :
    members.foldlM (CudFields.visitMember isRfc3339) f = .ok g ↔
      (members.map Prod.fst).Nodup ∧
      (∀ m ∈ members, ∃ (field : ItemField) (x : Option Text), m.1 = field.key ∧
        field.seen f = none ∧ Takes isRfc3339 field m.2 x ∧ field.seen g = some x) ∧
      ∀ field : ItemField, field.key ∉ members.map Prod.fst → field.seen g = field.seen f := by
  induction members generalizing f with
  | nil =>
    constructor
    · intro h
      cases h
      simp
    · intro hgiven
      rcases hgiven with ⟨_, _, hsame⟩
      rw [seen_ext fun field => hsame field List.not_mem_nil]
      rfl
  | cons m ms ih =>
    rw [List.foldlM_cons, List.map_cons, List.nodup_cons, List.forall_mem_cons]
    constructor
    · intro h
      obtain ⟨f', hvisit, h⟩ := bind_ok h
      obtain ⟨field, x, hkey, hseen, htakes, rfl⟩ := visitMember_ok.mp hvisit
      obtain ⟨honce, hmembers, hsame⟩ := ih.mp h
      have hnew : m.1 ∉ ms.map Prod.fst := by
        intro hmem
        obtain ⟨m', hm', heq⟩ := List.mem_map.mp hmem
        obtain ⟨field', _, hkey', hseen', _⟩ := hmembers m' hm'
        rw [key_injective (hkey'.symm.trans (heq.trans hkey)), seen_write_self] at hseen'
        cases hseen'
      refine ⟨⟨hnew, honce⟩, ⟨⟨field, x, hkey, hseen, htakes, ?_⟩, ?_⟩, ?_⟩
      · rw [hsame field (hkey ▸ hnew), seen_write_self]
      · intro m' hm'
        obtain ⟨field', x', hkey', hseen', htakes', hg⟩ := hmembers m' hm'
        have hne : field' ≠ field := by
          rintro rfl
          rw [seen_write_self] at hseen'
          cases hseen'
        exact ⟨field', x', hkey', (seen_write_of_ne f x hne).symm.trans hseen', htakes', hg⟩
      · intro other hother
        rw [List.mem_cons, not_or] at hother
        have hne : other ≠ field := by
          rintro rfl
          exact hother.1 hkey.symm
        rw [hsame other hother.2, seen_write_of_ne f x hne]
    · intro hgiven
      rcases hgiven with ⟨⟨hnew, honce⟩, ⟨⟨field, x, hkey, hseen, htakes, hg⟩, hmembers⟩, hsame⟩
      have hvisit := visitMember_ok.mpr ⟨field, x, hkey, hseen, htakes, rfl⟩
      rw [hvisit]
      refine ih.mpr ⟨honce, ?_, ?_⟩
      · intro m' hm'
        obtain ⟨field', x', hkey', hseen', htakes', hg'⟩ := hmembers m' hm'
        have hne : field' ≠ field := by
          rintro rfl
          exact hnew (hkey.trans hkey'.symm ▸ List.mem_map_of_mem hm')
        exact ⟨field', x', hkey', (seen_write_of_ne f x hne).trans hseen', htakes', hg'⟩
      · intro other hother
        by_cases hne : other = field
        · rw [hne, hg, seen_write_self]
        · rw [seen_write_of_ne f x hne]
          apply hsame other
          rw [List.mem_cons, not_or]
          exact ⟨fun heq => hne (key_injective (heq.trans hkey)), hother⟩

theorem fromJson_obj {members : List (Text × Json)} {p : CudParams} :
    CudParams.fromJson isRfc3339 (.obj members) = .ok p ↔ ReadsMembers isRfc3339 members p := by
  rw [CudParams.fromJson]
  constructor
  · intro h
    obtain ⟨g, hg, rfl⟩ := map_ok h
    obtain ⟨honce, hmembers, hsame⟩ := foldlM_ok.mp hg
    refine ⟨honce, fun m hm => ?_, fun field habsent => ?_⟩
    · obtain ⟨field, x, hkey, _, htakes, hseen⟩ := hmembers m hm
      refine ⟨field, hkey, ?_⟩
      rwa [value_finish, hseen]
    · rw [value_finish, hsame field habsent]
      cases field <;> rfl
  · intro hgiven
    rcases hgiven with ⟨honce, hknown, habsent⟩
    let g : CudFields :=
      { title := if ItemField.title.key ∈ members.map Prod.fst then some p.title else none
        imageUrl := if ItemField.imageUrl.key ∈ members.map Prod.fst then some p.imageUrl else none
        feedUrl := if ItemField.feedUrl.key ∈ members.map Prod.fst then some p.feedUrl else none
        actualUrl :=
          if ItemField.actualUrl.key ∈ members.map Prod.fst then some p.actualUrl else none
        publishDate :=
          if ItemField.publishDate.key ∈ members.map Prod.fst then some p.publishDate else none }
    have hseen : ∀ field : ItemField, field.seen g =
        if field.key ∈ members.map Prod.fst then some (field.value p) else none := by
      intro field
      cases field <;> rfl
    have hfold : members.foldlM (CudFields.visitMember isRfc3339) {} = .ok g := by
      refine foldlM_ok.mpr ⟨honce, fun m hm => ?_, fun field hfield => ?_⟩
      · obtain ⟨field, hkey, htakes⟩ := hknown m hm
        refine ⟨field, field.value p, hkey, by cases field <;> rfl, htakes, ?_⟩
        rw [hseen, if_pos (hkey ▸ List.mem_map_of_mem hm)]
      · rw [hseen, if_neg hfield]
        cases field <;> rfl
    rw [hfold]
    refine congrArg Except.ok (value_ext fun field => ?_)
    rw [value_finish, hseen]
    by_cases hfield : field.key ∈ members.map Prod.fst
    · rw [if_pos hfield]
      rfl
    · rw [if_neg hfield, habsent field hfield]
      rfl

def TakesElement (isRfc3339 : Text → Bool) (field : ItemField) (element : Option Json)
    (x : Option Text) : Prop :=
  match element with
  | none => x = none
  | some v => Takes isRfc3339 field v x

/-- Up to five elements, in the order of the fields. -/
structure ReadsElements (isRfc3339 : Text → Bool) (elements : List Json) (p : CudParams) :
    Prop where
  fits : elements.length ≤ 5
  element : ∀ field : ItemField,
    TakesElement isRfc3339 field elements[field.position]? (field.value p)

def PositionalItem (isRfc3339 : Text → Bool) (v : Json) (p : CudParams) : Prop :=
  ∃ elements, v = .arr elements ∧ ReadsElements isRfc3339 elements p

theorem visitElement_iff {field : ItemField} {element : Option Json} {x : Option Text} :
    visitElement (field.deserialize isRfc3339) element = .ok x ↔
      TakesElement isRfc3339 field element x := by
  cases element with
  | none =>
    constructor
    · intro h
      cases h
      rfl
    · rintro rfl
      rfl
  | some v => exact deserialize_iff

theorem fromJson_arr {elements : List Json} {p : CudParams} :
    CudParams.fromJson isRfc3339 (.arr elements) = .ok p ↔ ReadsElements isRfc3339 elements p := by
  rw [CudParams.fromJson]
  constructor
  · intro h
    obtain ⟨title, htitle, h⟩ := bind_ok h
    obtain ⟨imageUrl, himage, h⟩ := bind_ok h
    obtain ⟨feedUrl, hfeed, h⟩ := bind_ok h
    obtain ⟨actualUrl, hactual, h⟩ := bind_ok h
    obtain ⟨publishDate, hdate, h⟩ := bind_ok h
    split at h
    · cases h
    · next hfits =>
      cases h
      refine ⟨Nat.le_of_not_lt hfits, fun field => visitElement_iff.mp ?_⟩
      cases field with
      | title => exact htitle
      | imageUrl => exact himage
      | feedUrl => exact hfeed
      | actualUrl => exact hactual
      | publishDate => exact hdate
  · intro hgiven
    rcases hgiven with ⟨hfits, helement⟩
    have htitle : visitElement deserializeTitle elements[0]? = .ok p.title :=
      visitElement_iff.mpr (helement .title)
    have himage : visitElement deserializeUrl elements[1]? = .ok p.imageUrl :=
      visitElement_iff.mpr (helement .imageUrl)
    have hfeed : visitElement deserializeUrl elements[2]? = .ok p.feedUrl :=
      visitElement_iff.mpr (helement .feedUrl)
    have hactual : visitElement deserializeUrl elements[3]? = .ok p.actualUrl :=
      visitElement_iff.mpr (helement .actualUrl)
    have hdate : visitElement (deserializeDate isRfc3339) elements[4]? = .ok p.publishDate :=
      visitElement_iff.mpr (helement .publishDate)
    rw [htitle, himage, hfeed, hactual, hdate]
    exact if_neg (Nat.not_lt.mpr hfits)

theorem fromJson_iff {v : Json} {p : CudParams} :
    CudParams.fromJson isRfc3339 v = .ok p ↔
      NamedItem isRfc3339 v p ∨ PositionalItem isRfc3339 v p := by
  constructor
  · intro h
    cases v with
    | obj members => exact Or.inl ⟨members, rfl, fromJson_obj.mp h⟩
    | arr elements => exact Or.inr ⟨elements, rfl, fromJson_arr.mp h⟩
    | _ => cases h
  · intro hgiven
    rcases hgiven with ⟨members, rfl, h⟩ | ⟨elements, rfl, h⟩
    · exact fromJson_obj.mpr h
    · exact fromJson_arr.mpr h

def ItemField.given (f : ItemField) : Json → Json
  | .obj members => (findMember f.name members).getD .null
  | .arr elements => elements[f.position]?.getD .null
  | _ => .null

theorem given_obj {members : List (Text × Json)} {p : CudParams}
    (h : ReadsMembers isRfc3339 members p) (f : ItemField) :
    Takes isRfc3339 f (f.given (.obj members)) (f.value p) := by
  rw [ItemField.given, findMember]
  cases hfind : members.find? fun m => m.1 = f.name.toList with
  | none =>
    have habsent : f.key ∉ members.map Prod.fst := by
      intro hmem
      obtain ⟨m, hm, hkey⟩ := List.mem_map.mp hmem
      exact List.find?_eq_none.mp hfind m hm (decide_eq_true hkey)
    rw [h.absent f habsent]
    exact .null
  | some m =>
    obtain ⟨g, hkey, htakes⟩ := h.known m (List.mem_of_find?_eq_some hfind)
    have hname := List.find?_some hfind
    rw [decide_eq_true_eq] at hname
    rw [key_injective (hname.symm.trans hkey)]
    exact htakes

theorem given_arr {elements : List Json} {p : CudParams}
    (h : ReadsElements isRfc3339 elements p) (f : ItemField) :
    Takes isRfc3339 f (f.given (.arr elements)) (f.value p) := by
  have helement := h.element f
  rw [ItemField.given]
  cases hget : elements[f.position]? with
  | none =>
    rw [hget] at helement
    have hnone : f.value p = none := helement
    rw [hnone]
    exact .null
  | some v =>
    rw [hget] at helement
    exact helement

theorem takes_given {v : Json} {p : CudParams} (h : CudParams.fromJson isRfc3339 v = .ok p)
    (f : ItemField) : Takes isRfc3339 f (f.given v) (f.value p) := by
  rcases fromJson_iff.mp h with ⟨members, rfl, hmembers⟩ | ⟨elements, rfl, helements⟩
  · exact given_obj hmembers f
  · exact given_arr helements f

def ItemField.text (f : ItemField) (v : Json) : Option Text :=
  match f.given v with
  | .str s => some (trim s)
  | _ => none

theorem value_eq_text {v : Json} {p : CudParams} (h : CudParams.fromJson isRfc3339 v = .ok p)
    (f : ItemField) : f.value p = f.text v := by
  have htakes := takes_given h f
  rw [ItemField.text]
  generalize f.given v = w, f.value p = x at htakes ⊢
  cases htakes with
  | null => rfl
  | str _ => rfl

end PayloadItems
