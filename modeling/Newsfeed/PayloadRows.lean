import Newsfeed.CudHandlers

/-! # The batch as a table

Every engine reads the JSON text of a batch as one row per array element, with a
`null` or absent member as SQL `NULL`. Here is what it reads of a text the drivers send.
-/
namespace PayloadRows

open TextOperations JsonText FeedModels CudHandlers

/-- `json_array_elements(payload)`, `JSON_TABLE(payload, '$[*]' ..)` and `OPENJSON(@payload)`. -/
def payloadRows (payload : Text) : Except SqlError (List Json) :=
  match parse payload with
  | some (.arr elements) => .ok elements
  | _ => .error .invalidJson

/-- The member `name` of an element as text. -/
def column (name : String) (element : Json) : Option Text :=
  match element with
  | .obj members =>
    match findMember name members with
    | some (.str s) => some s
    | some .null => none
    | some v => some (render compact v)
    | none => none
  | _ => none

mutual
def containsNul : Json → Bool
  | .null => false
  | .bool _ => false
  | .num _ => false
  | .str s => s.contains '\x00'
  | .arr xs => anyContainsNul xs
  | .obj kvs => anyMemberContainsNul kvs
def anyContainsNul : List Json → Bool
  | [] => false
  | x :: xs => containsNul x || anyContainsNul xs
def anyMemberContainsNul : List (Text × Json) → Bool
  | [] => false
  | (k, v) :: kvs => k.contains '\x00' || containsNul v || anyMemberContainsNul kvs
end

theorem payloadRows_payloadText (items : List CudParams) :
    payloadRows (payloadText items) = .ok (items.map CudParams.toJson) := by
  rw [payloadRows, payloadText, parse_render]

section Columns

variable (item : CudParams)

theorem column_optionText {name : String} {members : List (Text × Json)} {o : Option Text}
    (h : findMember name members = some (optionText o)) : column name (.obj members) = o := by
  cases o <;> simp [column, h, optionText]

@[simp] theorem column_title : column "title" item.toJson = item.title := column_optionText rfl

@[simp] theorem column_image_url : column "image_url" item.toJson = item.imageUrl :=
  column_optionText rfl

@[simp] theorem column_feed_url : column "feed_url" item.toJson = item.feedUrl :=
  column_optionText rfl

@[simp] theorem column_actual_url : column "actual_url" item.toJson = item.actualUrl :=
  column_optionText rfl

@[simp] theorem column_publish_date : column "publish_date" item.toJson = item.publishDate :=
  column_optionText rfl

end Columns

/-- `NULLIF(TRIM(x), '')` on a nullable column. -/
def trimmedOrNull (x : Option Text) : Option Text := x.bind fun s => nullIfEmpty (trimSpaces s)

theorem trimmedOrNull_of_accepted {x : Option Text} (h : ∀ s ∈ x, ValidUrl s) :
    trimmedOrNull x = x := by
  cases x with
  | none => rfl
  | some s =>
    obtain ⟨⟨htrim, hne, _⟩, _⟩ := h s rfl
    rw [trimmedOrNull, Option.bind_some, trimSpaces_of_trim htrim, nullIfEmpty_eq_some]
    exact ⟨rfl, hne⟩

end PayloadRows
