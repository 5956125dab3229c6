import Newsfeed.FallibleOperations
import Newsfeed.JsonText

/-! # Feed data models

Operation parameters, batch payloads, result rows and their JSON forms, with the
deserialisers that every request passes. Date syntax is decided by the `chrono`
crate, so its RFC 3339 check is a parameter.
-/
namespace FeedModels

open TextOperations FallibleOperations JsonText

def maxBatchItems : Nat := 1000

/-- The `optionMode` value passed to each stored procedure. -/
inductive OptionMode where
  | extractFeed
  | insertFeed
  | updateFeed
  | deleteFeed
  deriving DecidableEq, Repr

def OptionMode.asStr : OptionMode → String
  | .extractFeed => "extractNewsFeed"
  | .insertFeed => "insertNewsFeed"
  | .updateFeed => "updateNewsFeed"
  | .deleteFeed => "deleteNewsFeed"

inductive SortOrder where
  | asc
  | desc
  deriving DecidableEq, Repr

def SortOrder.asStr : SortOrder → Text
  | .asc => "asc".toList
  | .desc => "desc".toList

structure ExtractParams where
  title : Option Text
  imageUrl : Option Text
  feedUrl : Option Text
  actualUrl : Option Text
  limit : Option Nat
  sort : Option SortOrder
  deriving DecidableEq, Repr

/-- `str::parse::<u32>`: an optional plus sign, digits, no overflow. -/
def parseU32 (s : Text) : Option Nat :=
  let digits := if s.head? = some '+' then s.tail else s
  if digits.isEmpty ∨ ¬ digits.all Char.isDigit then none
  else if Nat.ofDigitChars 10 digits 0 < 2 ^ 32 then some (Nat.ofDigitChars 10 digits 0)
  else none

def parseSort (s : Text) : Option SortOrder :=
  if lowerAscii s = "asc".toList then some .asc
  else if lowerAscii s = "desc".toList then some .desc
  else none

def ExtractParams.fromMap (map : Text → Option Text) : ExtractParams where
  title := map "title".toList
  imageUrl := map "image_url".toList
  feedUrl := map "feed_url".toList
  actualUrl := map "actual_url".toList
  limit := some (max 1 (min (((map "limit".toList).bind parseU32).getD 25) 100))
  sort := (map "sort".toList).bind parseSort

def optionText : Option Text → Json
  | none => .null
  | some t => .str t

def ExtractParams.toJson (p : ExtractParams) : Json :=
  .obj [("title".toList, optionText p.title), ("image_url".toList, optionText p.imageUrl),
    ("feed_url".toList, optionText p.feedUrl), ("actual_url".toList, optionText p.actualUrl),
    ("limit".toList, match p.limit with
      | none => .null
      | some n => .num (.ofNat n)),
    ("sort".toList, optionText (p.sort.map SortOrder.asStr))]

structure NewsFeedRow where
  titlereturn : Option Text
  imageurlreturn : Option Text
  feedurlreturn : Option Text
  actualurlreturn : Option Text
  publishdatereturn : Option Text
  deriving DecidableEq, Repr

def NewsFeedRow.toJson (r : NewsFeedRow) : Json :=
  .obj [("title".toList, optionText r.titlereturn),
    ("image_url".toList, optionText r.imageurlreturn),
    ("feed_url".toList, optionText r.feedurlreturn),
    ("actual_url".toList, optionText r.actualurlreturn),
    ("publish_date".toList, optionText r.publishdatereturn)]

theorem optionText_injective {a b : Option Text} (h : optionText a = optionText b) : a = b := by
  cases a <;> cases b <;> simp_all [optionText]

theorem NewsFeedRow.toJson_injective {r s : NewsFeedRow} (h : r.toJson = s.toJson) : r = s := by
  simp only [toJson, Json.obj.injEq, List.cons.injEq, Prod.mk.injEq, true_and, and_true] at h
  obtain ⟨h1, h2, h3, h4, h5⟩ := h
  cases r
  cases s
  simp only [NewsFeedRow.mk.injEq]
  exact ⟨optionText_injective h1, optionText_injective h2, optionText_injective h3,
    optionText_injective h4, optionText_injective h5⟩

inductive DeError where
  | invalidType
  | invalidLength
  | duplicateField (name : String)
  | missingField (name : String)
  | unknownField (name : Text)
  | unknownVariant
  | noVariantMatched
  | custom (message : String)
  deriving DecidableEq, Repr

structure CudParams where
  title : Option Text
  imageUrl : Option Text
  feedUrl : Option Text
  actualUrl : Option Text
  publishDate : Option Text
  deriving DecidableEq, Repr

def CudParams.default : CudParams := ⟨none, none, none, none, none⟩

def CudParams.toJson (p : CudParams) : Json :=
  .obj [("title".toList, optionText p.title), ("image_url".toList, optionText p.imageUrl),
    ("feed_url".toList, optionText p.feedUrl), ("actual_url".toList, optionText p.actualUrl),
    ("publish_date".toList, optionText p.publishDate)]

def validateString (s : Text) (maxLen : Nat) : Except DeError Text :=
  let trimmed := trim s
  if trimmed.isEmpty then .error (.custom "field cannot be empty or whitespace-only")
  else if maxLen < utf8Len trimmed then .error (.custom "field exceeds maximum length")
  else .ok trimmed

/-- What `validate_string` returns: trimmed, not empty, short enough. -/
def ValidString (s : Text) (maxLen : Nat) : Prop := trim s = s ∧ s ≠ [] ∧ utf8Len s ≤ maxLen

def ValidUrl (s : Text) : Prop :=
  ValidString s 2048 ∧ ("http://".toList.isPrefixOf s ∨ "https://".toList.isPrefixOf s)

structure CudParams.Accepted (p : CudParams) : Prop where
  title : ∀ s ∈ p.title, ValidString s 255
  imageUrl : ∀ s ∈ p.imageUrl, ValidUrl s
  feedUrl : ∀ s ∈ p.feedUrl, ValidUrl s
  actualUrl : ∀ s ∈ p.actualUrl, ValidUrl s
  publishDate : ∀ s ∈ p.publishDate, ValidString s 50

instance (s : Text) (maxLen : Nat) : Decidable (ValidString s maxLen) :=
  inferInstanceAs (Decidable (_ ∧ _ ∧ _))

instance (s : Text) : Decidable (ValidUrl s) := inferInstanceAs (Decidable (_ ∧ (_ ∨ _)))

instance (p : CudParams) : Decidable p.Accepted :=
  decidable_of_iff
    ((∀ s ∈ p.title, ValidString s 255) ∧ (∀ s ∈ p.imageUrl, ValidUrl s) ∧
      (∀ s ∈ p.feedUrl, ValidUrl s) ∧ (∀ s ∈ p.actualUrl, ValidUrl s) ∧
      ∀ s ∈ p.publishDate, ValidString s 50)
    ⟨fun ⟨h1, h2, h3, h4, h5⟩ => ⟨h1, h2, h3, h4, h5⟩,
      fun h => ⟨h.title, h.imageUrl, h.feedUrl, h.actualUrl, h.publishDate⟩⟩

def deserializeOption : Json → Except DeError (Option Text)
  | .null => .ok none
  | .str s => .ok (some s)
  | _ => .error .invalidType

def deserializeTitle (v : Json) : Except DeError (Option Text) := do
  match ← deserializeOption v with
  | some s => return some (← validateString s 255)
  | none => return none

def deserializeUrl (v : Json) : Except DeError (Option Text) := do
  match ← deserializeOption v with
  | some s =>
    let s ← validateString s 2048
    if ¬ "http://".toList.isPrefixOf s ∧ ¬ "https://".toList.isPrefixOf s then
      .error (.custom "URL must start with http:// or https://")
    else return some s
  | none => return none

section Deserialize

-- `chrono::DateTime::parse_from_rfc3339(s).is_ok()`
variable (isRfc3339 : Text → Bool)

def deserializeDate (v : Json) : Except DeError (Option Text) := do
  match ← deserializeOption v with
  | some s =>
    let s ← validateString s 50
    if ¬ isRfc3339 s then
      .error (.custom "invalid date format, must be RFC3339 (e.g. 2026-08-01T12:00:00Z)")
    else return some s
  | none => return none

/-- Fields read so far by the derived visitor of `CudParams`. -/
structure CudFields where
  title : Option (Option Text) := none
  imageUrl : Option (Option Text) := none
  feedUrl : Option (Option Text) := none
  actualUrl : Option (Option Text) := none
  publishDate : Option (Option Text) := none

def CudFields.finish (f : CudFields) : CudParams where
  title := f.title.getD none
  imageUrl := f.imageUrl.getD none
  feedUrl := f.feedUrl.getD none
  actualUrl := f.actualUrl.getD none
  publishDate := f.publishDate.getD none

def CudFields.visitMember (f : CudFields) (m : Text × Json) : Except DeError CudFields :=
  if m.1 = "title".toList then
    if f.title.isSome then .error (.duplicateField "title")
    else (deserializeTitle m.2).map fun x => { f with title := some x }
  else if m.1 = "image_url".toList then
    if f.imageUrl.isSome then .error (.duplicateField "image_url")
    else (deserializeUrl m.2).map fun x => { f with imageUrl := some x }
  else if m.1 = "feed_url".toList then
    if f.feedUrl.isSome then .error (.duplicateField "feed_url")
    else (deserializeUrl m.2).map fun x => { f with feedUrl := some x }
  else if m.1 = "actual_url".toList then
    if f.actualUrl.isSome then .error (.duplicateField "actual_url")
    else (deserializeUrl m.2).map fun x => { f with actualUrl := some x }
  else if m.1 = "publish_date".toList then
    if f.publishDate.isSome then .error (.duplicateField "publish_date")
    else (deserializeDate isRfc3339 m.2).map fun x => { f with publishDate := some x }
  else .error (.unknownField m.1)

def visitElement (deserialize : Json → Except DeError (Option Text)) :
    Option Json → Except DeError (Option Text)
  | none => .ok none
  | some v => deserialize v

/-- The derived visitor takes an object by field name or an array by position. -/
def CudParams.fromJson : Json → Except DeError CudParams
  | .obj members => (members.foldlM (CudFields.visitMember isRfc3339) {}).map CudFields.finish
  | .arr elements => do
    let title ← visitElement deserializeTitle elements[0]?
    let imageUrl ← visitElement deserializeUrl elements[1]?
    let feedUrl ← visitElement deserializeUrl elements[2]?
    let actualUrl ← visitElement deserializeUrl elements[3]?
    let publishDate ← visitElement (deserializeDate isRfc3339) elements[4]?
    if 5 < elements.length then .error .invalidLength
    else return ⟨title, imageUrl, feedUrl, actualUrl, publishDate⟩
  | _ => .error .invalidType

theorem validateString_ok {s t : Text} {n : Nat} (h : validateString s n = .ok t) :
    ValidString t n := by
  simp only [validateString] at h
  split at h
  · cases h
  · next hne =>
    split at h
    · cases h
    · next hlen =>
      cases h
      exact ⟨trimBy_trimBy isWhitespace s, by simpa using hne, Nat.le_of_not_lt hlen⟩

theorem deserializeTitle_ok {v : Json} {t : Text} (h : deserializeTitle v = .ok (some t)) :
    ValidString t 255 := by
  obtain ⟨o, _, h⟩ := bind_ok h
  cases o with
  | none => cases h
  | some s =>
    obtain ⟨u, hs, h⟩ := bind_ok h
    cases h
    exact validateString_ok hs

theorem deserializeUrl_ok {v : Json} {t : Text} (h : deserializeUrl v = .ok (some t)) :
    ValidUrl t := by
  obtain ⟨o, _, h⟩ := bind_ok h
  cases o with
  | none => cases h
  | some s =>
    obtain ⟨u, hs, h⟩ := bind_ok h
    split at h
    · cases h
    · next hscheme =>
      cases h
      exact ⟨validateString_ok hs, Decidable.or_iff_not_not_and_not.mpr hscheme⟩

theorem deserializeDate_ok {v : Json} {t : Text} (h : deserializeDate isRfc3339 v = .ok (some t)) :
    ValidString t 50 := by
  obtain ⟨o, _, h⟩ := bind_ok h
  cases o with
  | none => cases h
  | some s =>
    obtain ⟨u, hs, h⟩ := bind_ok h
    split at h
    · cases h
    · cases h
      exact validateString_ok hs

theorem visitMember_accepted {f f' : CudFields} {m : Text × Json} (hf : f.finish.Accepted)
    (h : f.visitMember isRfc3339 m = .ok f') : f'.finish.Accepted := by
  unfold CudFields.visitMember at h
  split_ifs at h
  · obtain ⟨x, hx, rfl⟩ := map_ok h
    exact { hf with title := fun s hs => deserializeTitle_ok (by rw [hx]; exact congrArg _ hs) }
  · obtain ⟨x, hx, rfl⟩ := map_ok h
    exact { hf with imageUrl := fun s hs => deserializeUrl_ok (by rw [hx]; exact congrArg _ hs) }
  · obtain ⟨x, hx, rfl⟩ := map_ok h
    exact { hf with feedUrl := fun s hs => deserializeUrl_ok (by rw [hx]; exact congrArg _ hs) }
  · obtain ⟨x, hx, rfl⟩ := map_ok h
    exact { hf with actualUrl := fun s hs => deserializeUrl_ok (by rw [hx]; exact congrArg _ hs) }
  · obtain ⟨x, hx, rfl⟩ := map_ok h
    exact { hf with
      publishDate := fun s hs => deserializeDate_ok isRfc3339 (by rw [hx]; exact congrArg _ hs) }

theorem foldlM_accepted {members : List (Text × Json)} {f f' : CudFields}
    (hf : f.finish.Accepted)
    (h : members.foldlM (CudFields.visitMember isRfc3339) f = .ok f') : f'.finish.Accepted := by
  induction members generalizing f with
  | nil => cases h; exact hf
  | cons m ms ih =>
    rw [List.foldlM_cons] at h
    obtain ⟨g, hm, h⟩ := bind_ok h
    exact ih (visitMember_accepted isRfc3339 hf hm) h

theorem visitElement_ok {deserialize : Json → Except DeError (Option Text)} {v : Option Json}
    {t : Text} (h : visitElement deserialize v = .ok (some t)) :
    ∃ j, deserialize j = .ok (some t) := by
  cases v with
  | none => cases h
  | some j => exact ⟨j, h⟩

theorem fromJson_accepted {v : Json} {p : CudParams} (h : CudParams.fromJson isRfc3339 v = .ok p) :
    p.Accepted := by
  unfold CudParams.fromJson at h
  split at h
  · obtain ⟨f, hf, rfl⟩ := map_ok h
    refine foldlM_accepted isRfc3339 ?_ hf
    constructor <;> intro s hs <;> cases hs
  · obtain ⟨title, ht, h⟩ := bind_ok h
    obtain ⟨imageUrl, hi, h⟩ := bind_ok h
    obtain ⟨feedUrl, hf, h⟩ := bind_ok h
    obtain ⟨actualUrl, ha, h⟩ := bind_ok h
    obtain ⟨publishDate, hd, h⟩ := bind_ok h
    split at h
    · cases h
    cases h
    constructor
    · rintro s rfl
      obtain ⟨j, hj⟩ := visitElement_ok ht
      exact deserializeTitle_ok hj
    · rintro s rfl
      obtain ⟨j, hj⟩ := visitElement_ok hi
      exact deserializeUrl_ok hj
    · rintro s rfl
      obtain ⟨j, hj⟩ := visitElement_ok hf
      exact deserializeUrl_ok hj
    · rintro s rfl
      obtain ⟨j, hj⟩ := visitElement_ok ha
      exact deserializeUrl_ok hj
    · rintro s rfl
      obtain ⟨j, hj⟩ := visitElement_ok hd
      exact deserializeDate_ok isRfc3339 hj
  · cases h

abbrev AcceptedItem := { p : CudParams // p.Accepted }

def AcceptedItem.fromJson (v : Json) : Except DeError AcceptedItem :=
  match h : CudParams.fromJson isRfc3339 v with
  | .ok p => .ok ⟨p, fromJson_accepted isRfc3339 h⟩
  | .error e => .error e

def itemsFromJson : Json → Except DeError (List AcceptedItem)
  | .arr elements => elements.mapM (AcceptedItem.fromJson isRfc3339)
  | _ => .error .invalidType

def visitItems (seen : Option (List AcceptedItem)) (m : Text × Json) :
    Except DeError (Option (List AcceptedItem)) :=
  if m.1 = "items".toList then
    if seen.isSome then .error (.duplicateField "items")
    else (itemsFromJson isRfc3339 m.2).map some
  else .error (.unknownField m.1)

/-- `WrapperPayload`, again by name or by position. -/
def wrapperFromJson : Json → Except DeError (List AcceptedItem)
  | .obj members => do
    match ← members.foldlM (visitItems isRfc3339) none with
    | some items => return items
    | none => .error (.missingField "items")
  | .arr [v] => itemsFromJson isRfc3339 v
  | .arr _ => .error .invalidLength
  | _ => .error .invalidType

/-- A request batch: the deserialiser admits 1 to 1000 valid items. -/
structure CudPayload where
  items : List CudParams
  nonempty : items ≠ []
  bounded : items.length ≤ maxBatchItems
  accepted : ∀ item ∈ items, item.Accepted

def CudPayload.ofItems (items : List AcceptedItem) : Except DeError CudPayload :=
  if hne : items = [] then .error (.custom "payload array cannot be empty")
  else if hlen : maxBatchItems < items.length then
    .error (.custom "payload array exceeds maximum size of 1000 items")
  else .ok
    { items := items.map Subtype.val
      nonempty := fun h => hne (List.map_eq_nil_iff.mp h)
      bounded := by rw [List.length_map]; exact Nat.le_of_not_lt hlen
      accepted := by
        intro item hitem
        obtain ⟨a, _, rfl⟩ := List.mem_map.mp hitem
        exact a.property }

def CudPayload.single (item : AcceptedItem) : CudPayload where
  items := [item.val]
  nonempty := List.cons_ne_nil _ _
  bounded := by simp [maxBatchItems]
  accepted := by
    intro i hi
    rw [List.mem_singleton.mp hi]
    exact item.property

/-- `CudPayload::deserialize`: the untagged variants `Wrapper`, `Batch` and `Single` in order. -/
def CudPayload.fromJson (v : Json) : Except DeError CudPayload :=
  match wrapperFromJson isRfc3339 v with
  | .ok items => CudPayload.ofItems items
  | .error _ =>
    match itemsFromJson isRfc3339 v with
    | .ok items => CudPayload.ofItems items
    | .error _ =>
      match AcceptedItem.fromJson isRfc3339 v with
      | .ok item => .ok (CudPayload.single item)
      | .error _ => .error .noVariantMatched

end Deserialize

inductive CudStatus where
  | success
  | skipped
  | error
  deriving DecidableEq, Repr

def CudStatus.asStr : CudStatus → Text
  | .success => "Success".toList
  | .skipped => "Skipped".toList
  | .error => "Error".toList

structure CudResult where
  status : CudStatus
  message : Text
  item : Option CudParams
  deriving DecidableEq, Repr

def CudStatus.fromVariant (name : Text) : Except DeError CudStatus :=
  if name = "Success".toList then .ok .success
  else if name = "Skipped".toList then .ok .skipped
  else if name = "Error".toList then .ok .error
  else .error .unknownVariant

/-- A unit variant is a string or an object with the variant as its only key and `null`. -/
def CudStatus.fromJson : Json → Except DeError CudStatus
  | .str name => CudStatus.fromVariant name
  | .obj [(name, .null)] => CudStatus.fromVariant name
  | .obj _ => .error .invalidType
  | _ => .error .invalidType

def deserializeString : Json → Except DeError Text
  | .str s => .ok s
  | _ => .error .invalidType

def findMember (name : String) (members : List (Text × Json)) : Option Json :=
  (members.find? fun m => m.1 = name.toList).map Prod.snd

section Results

variable (isRfc3339 : Text → Bool)

def deserializeItem : Json → Except DeError (Option CudParams)
  | .null => .ok none
  | v => (CudParams.fromJson isRfc3339 v).map some

/-- The derived visitor of `CudResult`: other members are ignored, `Message` and `Item`
may be missing from an object. -/
def CudResult.fromJson : Json → Except DeError CudResult
  | .obj members => do
    let status ← match findMember "Status" members with
      | some v => CudStatus.fromJson v
      | none => .error (.missingField "Status")
    let message ← match findMember "Message" members with
      | some v => deserializeString v
      | none => .ok []
    let item ← match findMember "Item" members with
      | some v => deserializeItem isRfc3339 v
      | none => .ok none
    return ⟨status, message, item⟩
  | .arr [s, m, i] => do
    let status ← CudStatus.fromJson s
    let message ← deserializeString m
    let item ← deserializeItem isRfc3339 i
    return ⟨status, message, item⟩
  | .arr _ => .error .invalidLength
  | _ => .error .invalidType

end Results

end FeedModels
