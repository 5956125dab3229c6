import Mathlib.Data.List.Nodup
import Newsfeed.PayloadGrammar
import Newsfeed.CudHandlers

/-! # Writing a payload back

The deserialisers change what they read: texts are trimmed, a single item becomes a batch,
positions become names. Read once, a payload is written and read again without a change.
-/
namespace PayloadRoundTrip

open TextOperations FallibleOperations JsonText FeedModels CudHandlers PayloadItems PayloadGrammar
open ItemField

variable {isRfc3339 : Text → Bool}

def Normal (isRfc3339 : Text → Bool) (p : CudParams) : Prop :=
  ∀ f : ItemField, ∀ t, f.value p = some t → trim t = t ∧ f.Valid isRfc3339 t

theorem normal_of_fromJson {v : Json} {p : CudParams}
    (h : CudParams.fromJson isRfc3339 v = .ok p) : Normal isRfc3339 p := by
  intro f t hvalue
  have htakes := takes_given h f
  rw [hvalue] at htakes
  generalize f.given v = w at htakes
  cases htakes with
  | @str s hvalid => exact ⟨trimBy_trimBy isWhitespace s, hvalid⟩

def fields : List ItemField := [.title, .imageUrl, .feedUrl, .actualUrl, .publishDate]

theorem mem_fields (f : ItemField) : f ∈ fields := by cases f <;> decide

/-- Absent fields are written as nulls. -/
def members (p : CudParams) : List (Text × Json) :=
  fields.map fun f => (f.key, optionText (f.value p))

theorem toJson_eq (p : CudParams) : p.toJson = .obj (members p) := rfl

theorem keys_members (p : CudParams) : (members p).map Prod.fst = fields.map ItemField.key := by
  rw [members, List.map_map]
  rfl

theorem fields_nodup : (fields.map ItemField.key).Nodup := by
  have hinjective : Function.Injective ItemField.key := fun _ _ h => key_injective h
  exact List.Nodup.map hinjective (by decide)

theorem takes_optionText {f : ItemField} {x : Option Text} :
    Takes isRfc3339 f (optionText x) x ↔ ∀ t, x = some t → trim t = t ∧ f.Valid isRfc3339 t := by
  cases x with
  | none =>
    constructor
    · intro _ t h
      cases h
    · intro _
      exact .null
  | some s =>
    rw [optionText, takes_str]
    constructor
    · rintro ⟨htrim, hvalid⟩ t h
      cases h
      have hs : s = trim s := Option.some.inj htrim
      rw [← hs] at hvalid
      exact ⟨hs.symm, hvalid⟩
    · intro h
      obtain ⟨htrim, hvalid⟩ := h s rfl
      rw [htrim]
      exact ⟨rfl, hvalid⟩

theorem namedItem_toJson {p : CudParams} :
    NamedItem isRfc3339 p.toJson p ↔ Normal isRfc3339 p := by
  constructor
  · intro h
    exact normal_of_fromJson (fromJson_iff.mpr (Or.inl h))
  · intro h
    refine ⟨members p, toJson_eq p, ?_, ?_, ?_⟩
    · rw [keys_members]
      exact fields_nodup
    · intro m hm
      obtain ⟨f, _, rfl⟩ := List.mem_map.mp hm
      exact ⟨f, rfl, takes_optionText.mpr (h f)⟩
    · intro f habsent
      rw [keys_members] at habsent
      exact absurd (List.mem_map_of_mem (mem_fields f)) habsent

def payloadJson (p : CudPayload) : Json :=
  .obj [("items".toList, .arr (p.items.map CudParams.toJson))]

def itemsJson (items : List CudParams) : Json := .arr (items.map CudParams.toJson)

/-- `serde_json::from_str`. -/
def readText (isRfc3339 : Text → Bool) (t : Text) : Option (Except DeError CudPayload) :=
  (parse t).map (CudPayload.fromJson isRfc3339)

theorem readText_render (j : Json) :
    readText isRfc3339 (render compact j) = some (CudPayload.fromJson isRfc3339 j) := by
  rw [readText, parse_render]
  rfl

theorem accepted_items {v : Json} {items : List CudParams} (h : Accepted isRfc3339 v items) :
    ∀ item ∈ items, Normal isRfc3339 item := by
  have hread : ∀ {w : Json} {p : CudParams}, ReadItem isRfc3339 w p → Normal isRfc3339 p :=
    fun hitem => normal_of_fromJson (fromJson_iff.mpr hitem)
  intro item hmem
  rcases accepted_iff.mp h with ⟨⟨w, _, elements, _, hitems⟩, _⟩ | ⟨_, ⟨elements, _, hitems⟩, _⟩ |
    ⟨_, _, p, hitem, rfl⟩
  · obtain ⟨w', _, hitem⟩ := forall₂_right hitems hmem
    exact hread hitem
  · obtain ⟨w', _, hitem⟩ := forall₂_right hitems hmem
    exact hread hitem
  · rw [List.mem_singleton] at hmem
    rw [hmem]
    exact hread hitem

theorem named_items {items : List CudParams} (h : ∀ item ∈ items, Normal isRfc3339 item) :
    List.Forall₂ (NamedItem isRfc3339) (items.map CudParams.toJson) items := by
  rw [List.forall₂_map_left_iff, List.forall₂_same]
  intro item hitem
  exact namedItem_toJson.mpr (h item hitem)

theorem fromJson_of_accepted {v : Json} {p : CudPayload} (h : Accepted isRfc3339 v p.items) :
    CudPayload.fromJson isRfc3339 v = .ok p := by
  rcases h with ⟨q, hq, hitems⟩
  cases p
  cases q
  cases hitems
  exact hq

theorem documented_written {p : CudPayload} (h : ∀ item ∈ p.items, Normal isRfc3339 item) :
    Documented isRfc3339 (payloadJson p) p.items ∧
      Documented isRfc3339 (itemsJson p.items) p.items := by
  have hnamed := named_items h
  have hsize : Sized (p.items.map CudParams.toJson) :=
    (sized_congr hnamed).mpr ⟨p.nonempty, p.bounded⟩
  exact ⟨.wrapper hsize hnamed, .batch hsize hnamed⟩

/-- A payload that is read from any value is read again, the same, from what is written of it,
and its fields are valid as they stand. -/
theorem payload_fixed_point {v : Json} {p : CudPayload}
    (h : CudPayload.fromJson isRfc3339 v = .ok p) :
    CudPayload.fromJson isRfc3339 (payloadJson p) = .ok p ∧
      CudPayload.fromJson isRfc3339 (itemsJson p.items) = .ok p ∧
      readText isRfc3339 (payloadText p.items) = some (.ok p) ∧
      ∀ item ∈ p.items, ∀ f : ItemField, ∀ t, f.value item = some t →
        trim t = t ∧ f.Valid isRfc3339 t := by
  have hnormal := accepted_items ⟨p, h, rfl⟩
  obtain ⟨hobject, harray⟩ := documented_written hnormal
  have hitems := fromJson_of_accepted (documented_accepted harray)
  refine ⟨fromJson_of_accepted (documented_accepted hobject), hitems, ?_, hnormal⟩
  have htext : payloadText p.items = render compact (itemsJson p.items) := rfl
  rw [htext, readText_render, hitems]

def spacedItem : Json :=
  .obj [("publish_date".toList, .str (noonText ++ ['\n'])),
    ("feed_url".toList, .str "https://example.org/feed ".toList),
    ("title".toList, .str " Hello\t".toList)]

theorem spacedItem_read :
    CudPayload.fromJson sampleRfc3339 spacedItem = .ok (CudPayload.single helloItem) := rfl

theorem spacedItem_written :
    CudPayload.fromJson sampleRfc3339 (payloadJson (CudPayload.single helloItem)) =
        .ok (CudPayload.single helloItem) ∧
      CudPayload.fromJson sampleRfc3339 (itemsJson [sampleItem "Hello"]) =
        .ok (CudPayload.single helloItem) ∧
      readText sampleRfc3339 (payloadText [sampleItem "Hello"]) =
        some (.ok (CudPayload.single helloItem)) ∧
      ∀ item ∈ [sampleItem "Hello"], ∀ f : ItemField, ∀ t, f.value item = some t →
        trim t = t ∧ f.Valid sampleRfc3339 t :=
  payload_fixed_point spacedItem_read

end PayloadRoundTrip
