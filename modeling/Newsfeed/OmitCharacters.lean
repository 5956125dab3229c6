import Newsfeed.CudHandlers
import Newsfeed.RelationalTables
import Newsfeed.SqlLogic

/-! # SQL Server: the function `OmitCharacters`

It works on UTF-16 code units: it numbers those of the input, joins them with the allowed
ones, and puts them together again with blanks for those without a partner.
-/
namespace OmitCharacters

open TextOperations FallibleOperations SqlLogic RelationalTables CudHandlers

abbrev CodeUnit := UInt16

abbrev NVarChar := List CodeUnit

def encodeChar (c : Char) : NVarChar :=
  if c.toNat < 0x10000 then [UInt16.ofNat c.toNat]
  else [UInt16.ofNat (0xD800 + (c.toNat - 0x10000) / 0x400),
    UInt16.ofNat (0xDC00 + (c.toNat - 0x10000) % 0x400)]

def encode (t : Text) : NVarChar := t.flatMap encodeChar

def isHigh (u : CodeUnit) : Bool := 0xD800 ≤ u.toNat && u.toNat < 0xDC00

def isLow (u : CodeUnit) : Bool := 0xDC00 ≤ u.toNat && u.toNat < 0xE000

/-- Half a pair alone becomes the replacement character. -/
def decode : NVarChar → Text
  | [] => []
  | [u] => if isHigh u || isLow u then ['\uFFFD'] else [Char.ofNat u.toNat]
  | u :: v :: us =>
    if isHigh u && isLow v then
      Char.ofNat (0x10000 + (u.toNat - 0xD800) * 0x400 + (v.toNat - 0xDC00)) :: decode us
    else if isHigh u || isLow u then '\uFFFD' :: decode (v :: us)
    else Char.ofNat u.toNat :: decode (v :: us)

def blank : CodeUnit := 0x20

def comma : CodeUnit := 0x2C

def isBlank (u : CodeUnit) : Bool := u == blank

def trimBlanks (s : NVarChar) : NVarChar := (s.dropWhile isBlank).rdropWhile isBlank

/-- `len(x)` does not count blanks at the end. -/
def len (s : NVarChar) : Nat := (s.rdropWhile isBlank).length

def substring (s : NVarChar) (start length : Nat) : NVarChar := (s.drop (start - 1)).take length

/-- The loop that fills `@inputStringTemp`, with the number of rounds that are left. -/
def inputStringTemp (inputString : NVarChar) (curPos : Nat) : Nat → List CodeUnit
  | 0 => []
  | rounds + 1 =>
    substring inputString curPos 1 ++ inputStringTemp inputString (curPos + 1) rounds

/-- `string_split(x, N',')` yields an empty element between two delimiters. -/
def stringSplit : NVarChar → List NVarChar
  | [] => [[]]
  | u :: us =>
    if u = comma then [] :: stringSplit us
    else
      match stringSplit us with
      | [] => [[u]]
      | element :: elements => (u :: element) :: elements

/-- A row of `@characterStringTemp`; an empty element has no code unit. -/
def insertedCharacters (characterInputString : NVarChar) : List (Option CodeUnit) :=
  ((stringSplit characterInputString).map List.head?).dedup

/-- The update puts the delimiter in the place of the empty element. -/
def characterStringTemp (characterInputString : NVarChar) : List CodeUnit :=
  (insertedCharacters characterInputString).map fun c => c.getD comma

/-- The code units an `nvarchar(4000)` holds, the type of the aggregate. -/
def maxAggregate : Nat := 4000

/-- `string_agg(iif(cst.cstID is null, ' ', ist.inputAsciiCharacter), '')`, in the order of
the input. -/
def aggregate (input characters : List CodeUnit) : Except SqlError (Option NVarChar) :=
  let units := (leftJoin (fun i c => c == i) input characters).map fun (i, c) =>
    if c.isNone then blank else i
  if units.isEmpty then .ok none
  else if maxAggregate < units.length then .error .aggregateTooLong
  else .ok (some units)

section Function

variable (coll : Collation)

/-- A code unit that compares equal to a blank. It is compared inside a text, since the blanks
at the end of one do not count. -/
def matchesBlank (u : CodeUnit) : Bool := coll.eq ('a' :: (decode [u] ++ ['b'])) ['a', ' ', 'b']

/-- A code unit that has no weight. -/
def isIgnored (u : CodeUnit) : Bool :=
  !matchesBlank coll u && coll.eq ('a' :: (decode [u] ++ ['b'])) ['a', 'b']

/-- The next code unit that has a weight compares equal to a blank. -/
def blankNext : NVarChar → Bool
  | [] => false
  | u :: us => if isIgnored coll u then blankNext us else matchesBlank coll u

/-- `charindex('  ', x) > 0`, under the collation of the texts, one code unit at a time. -/
def hasPair : NVarChar → Bool
  | [] => false
  | u :: us => (matchesBlank coll u && blankNext coll us) || hasPair us

/-- The rest of a text from inside of a match, up to its second blank, or from outside. -/
def replaceFrom : Bool → NVarChar → NVarChar
  | _, [] => []
  | true, u :: us => replaceFrom (isIgnored coll u) us
  | false, u :: us =>
    if matchesBlank coll u && blankNext coll us then blank :: replaceFrom true us
    else u :: replaceFrom false us

/-- `replace(x, '  ', ' ')` replaces from left to right, in one pass, what compares equal. -/
def replacePairs (s : NVarChar) : NVarChar := replaceFrom coll false s

theorem replaceFrom_length_le (inside : Bool) (s : NVarChar) :
    (replaceFrom coll inside s).length ≤ s.length := by
  induction s generalizing inside with
  | nil => cases inside <;> exact le_rfl
  | cons u us ih =>
    cases inside with
    | true => exact (ih (isIgnored coll u)).trans (Nat.le_succ _)
    | false =>
      rw [replaceFrom]
      split
      · exact Nat.succ_le_succ (ih true)
      · exact Nat.succ_le_succ (ih false)

variable {coll}

theorem matchesBlank_blank : matchesBlank coll blank = true := Collation.eq_refl coll _

theorem isIgnored_blank : isIgnored coll blank = false := by
  rw [isIgnored, matchesBlank_blank]
  rfl

theorem replacePairs_length_lt {s : NVarChar} (h : hasPair coll s = true) :
    (replacePairs coll s).length < s.length := by
  rw [replacePairs]
  induction s with
  | nil => cases h
  | cons u us ih =>
    rw [replaceFrom]
    split
    · next hpair =>
      cases us with
      | nil =>
        rw [blankNext, Bool.and_false] at hpair
        cases hpair
      | cons v vs =>
        have hle := replaceFrom_length_le coll (isIgnored coll v) vs
        rw [replaceFrom, List.length_cons, List.length_cons, List.length_cons]
        omega
    · next hnone =>
      rw [hasPair, Bool.or_eq_true] at h
      exact Nat.succ_lt_succ (ih (h.resolve_left hnone))

variable (coll)

/-- The loop that ends when no two blanks are next to each other. -/
def collapsePairs (s : NVarChar) : NVarChar :=
  if hasPair coll s = true then collapsePairs (replacePairs coll s) else s
termination_by s.length
decreasing_by exact replacePairs_length_lt ‹_›

/-- `if x = '' set x = nullif(x, '')`. -/
def nullIfBlank (s : NVarChar) : Option NVarChar := if coll.eq (decode s) [] then none else some s

def omitCharacters (inputString characterInputString : NVarChar) :
    Except SqlError (Option NVarChar) :=
  match nullIfBlank coll inputString, nullIfBlank coll characterInputString with
  | some input, some characters =>
    (aggregate (inputStringTemp input 1 (len inputString)) (characterStringTemp characters)).map
      fun result => result.map fun s => trimBlanks (collapsePairs coll s)
  | _, _ => .ok none

end Function

end OmitCharacters
