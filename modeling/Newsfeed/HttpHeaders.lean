import Newsfeed.TextOperations

/-! # Request headers

Header values are byte sequences without control bytes. Only the visible ASCII
ones can be read as text, and both `Accept` and `Content-Type` are read as text.
-/
namespace HttpHeaders

open TextOperations

/-- The bytes `HeaderValue::from_bytes` admits. -/
def isHeaderByte (b : UInt8) : Bool := (32 ≤ b && b != 127) || b == 9

/-- The bytes `HeaderValue::to_str` can turn into text. -/
def isVisibleAscii (b : UInt8) : Bool := (32 ≤ b && b < 127) || b == 9

structure HeaderValue where
  bytes : List UInt8
  valid : bytes.all isHeaderByte = true

def asciiBytes (t : Text) : List UInt8 := t.map fun c => UInt8.ofNat c.toNat

/-- `HeaderValue::to_str` of the http crate, as documented: the whole value as text when all of
its bytes are visible ASCII, a blank or a tab, and an error otherwise. -/
def HeaderValue.toStr (h : HeaderValue) : Option Text :=
  if h.bytes.all isVisibleAscii then some (h.bytes.map fun b => Char.ofNat b.toNat) else none

/-- Header names are lower case; a repeated header keeps its order. -/
abbrev HeaderMap := List (String × HeaderValue)

/-- `HeaderMap::get` returns the first value of a name. -/
def HeaderMap.get (headers : HeaderMap) (name : String) : Option HeaderValue :=
  (headers.find? fun h => h.1 == name).map Prod.snd

inductive ServiceError where
  | invalidHeader (message : String)
  | unsupportedContentType (message : String)
  deriving DecidableEq, Repr

def ServiceError.toText : ServiceError → Text
  | .invalidHeader m => "Invalid header: ".toList ++ m.toList
  | .unsupportedContentType m => "Unsupported content type: ".toList ++ m.toList

def HeaderMap.lowerText (headers : HeaderMap) (name : String) : Text :=
  lowerAscii (((headers.get name).bind HeaderValue.toStr).getD [])

/-- The part before the first `;`, trimmed. -/
def contentTypeOf (raw : Text) : Text := trim (raw.takeWhile (· != ';'))

/-- The text between the first and the second `=` after the first `;`, trimmed. -/
def charsetOf (raw : Text) : Text :=
  match raw.dropWhile (· != ';') with
  | [] => []
  | _ :: params => ((params.splitOn '=')[1]?.map trim).getD []

/-- `validate_headers`: a body requires a content type besides `Accept`. -/
def validateHeaders (headers : HeaderMap) (requiresBody : Bool) : Except ServiceError Unit :=
  if headers.lowerText "accept" ≠ "application/json".toList then
    .error (.invalidHeader "HTTP accept invalid")
  else if requiresBody then
    let rawCt := headers.lowerText "content-type"
    if contentTypeOf rawCt ≠ "application/json".toList then
      .error (.unsupportedContentType "Content type invalid")
    else if charsetOf rawCt ≠ "utf-8".toList then
      .error (.unsupportedContentType "Content-Type charset invalid")
    else .ok ()
  else .ok ()

end HttpHeaders
