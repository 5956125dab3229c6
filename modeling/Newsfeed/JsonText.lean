import Newsfeed.TextOperations
import Mathlib.Tactic.IntervalCases
import Mathlib.Data.List.TakeWhile

/-! # JSON texts

A JSON value, the texts the engines and `serde_json` print for it, and a parser
that reads every one of them back. The printers differ only in the blanks they
put after commas and colons. Objects keep their members in textual order.
-/
namespace JsonText

open TextOperations

def isNumberChar (c : Char) : Bool :=
  c.isDigit || c == '-' || c == '+' || c == '.' || c == 'e' || c == 'E'

def skipDigits : Text → Option Text
  | [] => none
  | c :: cs => if c.isDigit then some (cs.dropWhile Char.isDigit) else none

def skipSign : Text → Text
  | [] => []
  | c :: cs => if c = '-' then cs else c :: cs

def skipInteger : Text → Option Text
  | [] => none
  | c :: cs => if c = '0' then some cs else skipDigits (c :: cs)

def skipFraction : Text → Option Text
  | [] => some []
  | c :: cs => if c = '.' then skipDigits cs else some (c :: cs)

def skipExponent : Text → Option Text
  | [] => some []
  | c :: cs =>
    if c = 'e' ∨ c = 'E' then
      match cs with
      | [] => none
      | d :: ds => if d = '+' ∨ d = '-' then skipDigits ds else skipDigits (d :: ds)
    else some (c :: cs)

def isNumber (t : Text) : Bool :=
  t.all isNumberChar &&
    ((skipInteger (skipSign t)).bind fun r => (skipFraction r).bind skipExponent) == some []

/-- A number is kept as the literal that denotes it. -/
structure NumberLiteral where
  text : Text
  grammar : isNumber text = true
  deriving DecidableEq

inductive Json where
  | null
  | bool (b : Bool)
  | num (n : NumberLiteral)
  | str (s : Text)
  | arr (elements : List Json)
  | obj (members : List (Text × Json))

section NaturalNumbers

theorem toDigits_head (n : Nat) (hn : 0 < n) :
    ∃ c cs, Nat.toDigits 10 n = c :: cs ∧ c ≠ '0' := by
  induction n using Nat.strong_induction_on with
  | _ n ih =>
    by_cases hlt : n < 10
    · refine ⟨n.digitChar, [], Nat.toDigits_of_lt_base hlt, ?_⟩
      interval_cases n <;> decide
    · obtain ⟨c, cs, hc, hne⟩ := ih (n / 10) (by omega) (by omega)
      refine ⟨c, cs ++ [(n % 10).digitChar], ?_, hne⟩
      rw [Nat.toDigits_of_base_le (by omega) (by omega), hc, List.cons_append]

theorem toDigits_all_digits (n : Nat) : ∀ c ∈ Nat.toDigits 10 n, c.isDigit = true :=
  fun _ hc => Nat.isDigit_of_mem_toDigits (by omega) (by omega) hc

theorem isNumber_toDigits (n : Nat) : isNumber (Nat.toDigits 10 n) = true := by
  have hall := toDigits_all_digits n
  have hchars : (Nat.toDigits 10 n).all isNumberChar = true := by
    rw [List.all_eq_true]
    intro c hc
    simp [isNumberChar, hall c hc]
  rcases Nat.eq_zero_or_pos n with rfl | hpos
  · decide
  · obtain ⟨c, cs, hc, hne⟩ := toDigits_head n hpos
    rw [hc] at hall hchars ⊢
    have hdigit := hall c (by simp)
    have hsign : c ≠ '-' := by
      rintro rfl
      exact absurd hdigit (by decide)
    have hrest : cs.dropWhile Char.isDigit = [] := by
      rw [List.dropWhile_eq_nil_iff]
      exact fun d hd => hall d (List.mem_cons_of_mem c hd)
    simp [isNumber, hchars, skipSign, hsign, skipInteger, hne, skipDigits, hdigit, hrest,
      skipFraction, skipExponent]

theorem toDigits_injective {m n : Nat} (h : Nat.toDigits 10 m = Nat.toDigits 10 n) : m = n := by
  rw [← Nat.ofDigitChars_ten_toDigits (n := m), h, Nat.ofDigitChars_ten_toDigits]

end NaturalNumbers

def NumberLiteral.ofNat (n : Nat) : NumberLiteral := ⟨Nat.toDigits 10 n, isNumber_toDigits n⟩

def hexDigit (n : Nat) : Char := Nat.digitChar n

/-- String escapes of `serde_json`: short forms where JSON has one, `\u00XX` for the
other control characters, everything else verbatim. -/
def escapeChar (c : Char) : Text :=
  if c = '\"' then ['\\', '\"']
  else if c = '\\' then ['\\', '\\']
  else if c = '\x08' then ['\\', 'b']
  else if c = '\t' then ['\\', 't']
  else if c = '\n' then ['\\', 'n']
  else if c = '\x0c' then ['\\', 'f']
  else if c = '\r' then ['\\', 'r']
  else if c.toNat < 0x20 then
    ['\\', 'u', '0', '0', hexDigit (c.toNat / 16), hexDigit (c.toNat % 16)]
  else [c]

def quote (s : Text) : Text := '\"' :: (s.flatMap escapeChar ++ ['\"'])

/-- Blanks printed after a comma and after a colon. -/
structure Style where
  afterComma : Nat
  afterColon : Nat

/-- `serde_json::to_string` and `FOR JSON PATH`. -/
def compact : Style := ⟨0, 0⟩

/-- `jsonb::text` and `JSON_OBJECT`. -/
def spaced : Style := ⟨1, 1⟩

def Style.comma (st : Style) : Text := ',' :: List.replicate st.afterComma ' '
def Style.colon (st : Style) : Text := ':' :: List.replicate st.afterColon ' '

mutual
def render (st : Style) : Json → Text
  | .null => "null".toList
  | .bool b => if b then "true".toList else "false".toList
  | .num n => n.text
  | .str s => quote s
  | .arr [] => ['[', ']']
  | .arr (x :: xs) => '[' :: (render st x ++ renderMore st xs)
  | .obj [] => ['{', '}']
  | .obj ((k, v) :: kvs) => '{' :: (quote k ++ st.colon ++ render st v ++ renderMembers st kvs)
def renderMore (st : Style) : List Json → Text
  | [] => [']']
  | x :: xs => st.comma ++ render st x ++ renderMore st xs
def renderMembers (st : Style) : List (Text × Json) → Text
  | [] => ['}']
  | (k, v) :: kvs => st.comma ++ quote k ++ st.colon ++ render st v ++ renderMembers st kvs
end

def isBlank (c : Char) : Bool := c == ' ' || c == '\t' || c == '\n' || c == '\r'

def skipBlanks (t : Text) : Text := t.dropWhile isBlank

def hexValue (c : Char) : Option Nat :=
  if c.isDigit then some (c.toNat - 48)
  else if 'a' ≤ c ∧ c ≤ 'f' then some (c.toNat - 87)
  else if 'A' ≤ c ∧ c ≤ 'F' then some (c.toNat - 55)
  else none

def shortEscape (c : Char) : Option Char :=
  if c = '\"' then some '\"'
  else if c = '\\' then some '\\'
  else if c = '/' then some '/'
  else if c = 'b' then some '\x08'
  else if c = 'f' then some '\x0c'
  else if c = 'n' then some '\n'
  else if c = 'r' then some '\r'
  else if c = 't' then some '\t'
  else none

/-- Where a string is being read: in its text, after a backslash, or inside a `\u`
escape with the digits read so far. `high` is a high surrogate still waiting for
its low half. -/
inductive StringState where
  | text (high : Option Nat)
  | escape (high : Option Nat)
  | unit (high : Option Nat) (digits value : Nat)

inductive StringStep where
  | fail
  | close
  | emit (c : Char)
  | next (s : StringState)

def unitStep (high : Option Nat) (n : Nat) : StringStep :=
  match high with
  | none =>
    if 0xD800 ≤ n ∧ n < 0xDC00 then .next (.text (some n))
    else if 0xDC00 ≤ n ∧ n < 0xE000 then .fail
    else .emit (Char.ofNat n)
  | some hi =>
    if 0xDC00 ≤ n ∧ n < 0xE000 then
      .emit (Char.ofNat (0x10000 + (hi - 0xD800) * 0x400 + (n - 0xDC00)))
    else .fail

def stringStep (s : StringState) (c : Char) : StringStep :=
  match s with
  | .text none =>
    if c = '\"' then .close
    else if c = '\\' then .next (.escape none)
    else if c.toNat < 0x20 then .fail
    else .emit c
  | .text (some hi) => if c = '\\' then .next (.escape (some hi)) else .fail
  | .escape none =>
    if c = 'u' then .next (.unit none 0 0)
    else
      match shortEscape c with
      | some e => .emit e
      | none => .fail
  | .escape (some hi) => if c = 'u' then .next (.unit (some hi) 0 0) else .fail
  | .unit high digits value =>
    match hexValue c with
    | none => .fail
    | some h =>
      if digits < 3 then .next (.unit high (digits + 1) (value * 16 + h))
      else unitStep high (value * 16 + h)

def readString (s : StringState) : Text → Option (Text × Text)
  | [] => none
  | c :: r =>
    match stringStep s c with
    | .fail => none
    | .close => some ([], r)
    | .emit e => (readString (.text none) r).map fun (t, r') => (e :: t, r')
    | .next s' => readString s' r

def expect (word t : Text) : Option Text :=
  if word.isPrefixOf t then some (t.drop word.length) else none

def readNumber (t : Text) : Option (Json × Text) :=
  if h : isNumber (t.takeWhile isNumberChar) = true then
    some (.num ⟨t.takeWhile isNumberChar, h⟩, t.dropWhile isNumberChar)
  else none

mutual
def parseValue : Nat → Text → Option (Json × Text)
  | 0, _ => none
  | fuel + 1, t =>
    match skipBlanks t with
    | [] => none
    | c :: r =>
      if c = 'n' then (expect "ull".toList r).map fun r' => (.null, r')
      else if c = 't' then (expect "rue".toList r).map fun r' => (.bool true, r')
      else if c = 'f' then (expect "alse".toList r).map fun r' => (.bool false, r')
      else if c = '\"' then (readString (.text none) r).map fun (s, r') => (.str s, r')
      else if c = '[' then
        if (skipBlanks r).head? = some ']' then some (.arr [], (skipBlanks r).tail)
        else do
          let (x, r₁) ← parseValue fuel r
          let (xs, r₂) ← parseMore fuel r₁
          return (.arr (x :: xs), r₂)
      else if c = '{' then
        if (skipBlanks r).head? = some '}' then some (.obj [], (skipBlanks r).tail)
        else do
          let (m, r₁) ← parseMember fuel r
          let (ms, r₂) ← parseMembers fuel r₁
          return (.obj (m :: ms), r₂)
      else readNumber (c :: r)
def parseMore : Nat → Text → Option (List Json × Text)
  | 0, _ => none
  | fuel + 1, t =>
    match skipBlanks t with
    | [] => none
    | c :: r =>
      if c = ']' then some ([], r)
      else if c = ',' then do
        let (x, r₁) ← parseValue fuel r
        let (xs, r₂) ← parseMore fuel r₁
        return (x :: xs, r₂)
      else none
def parseMember : Nat → Text → Option ((Text × Json) × Text)
  | 0, _ => none
  | fuel + 1, t =>
    match skipBlanks t with
    | [] => none
    | c :: r =>
      if c = '\"' then do
        let (k, r₁) ← readString (.text none) r
        match skipBlanks r₁ with
        | [] => none
        | d :: r₂ =>
          if d = ':' then do
            let (v, r₃) ← parseValue fuel r₂
            return ((k, v), r₃)
          else none
      else none
def parseMembers : Nat → Text → Option (List (Text × Json) × Text)
  | 0, _ => none
  | fuel + 1, t =>
    match skipBlanks t with
    | [] => none
    | c :: r =>
      if c = '}' then some ([], r)
      else if c = ',' then do
        let (m, r₁) ← parseMember fuel r
        let (ms, r₂) ← parseMembers fuel r₁
        return (m :: ms, r₂)
      else none
end

/-- `serde_json::from_str`: one value, then blanks only, without its limit of 128 nested values
and its range of numbers. Every recursive call consumes text, so the length is fuel enough. -/
def parse (t : Text) : Option Json :=
  match parseValue (t.length + 1) t with
  | some (v, r) => if (skipBlanks r).isEmpty then some v else none
  | none => none

theorem hexValue_hexDigit : ∀ n : Fin 16, hexValue (hexDigit n) = some n.val := by decide

theorem readString_emit {s : StringState} {c e : Char} (h : stringStep s c = .emit e) (t : Text) :
    readString s (c :: t) = (readString (.text none) t).map fun (u, r) => (e :: u, r) := by
  simp only [readString, h]

theorem readString_next {s : StringState} {c : Char} (s' : StringState)
    (h : stringStep s c = .next s')
    (t : Text) : readString s (c :: t) = readString s' t := by
  simp only [readString, h]

theorem readString_short {c e : Char} (hu : c ≠ 'u') (h : shortEscape c = some e) (t : Text) :
    readString (.text none) ('\\' :: c :: t) =
      (readString (.text none) t).map fun (u, r) => (e :: u, r) := by
  have hesc : stringStep (.escape none) c = .emit e := by simp [stringStep, hu, h]
  rw [readString_next (.escape none) rfl, readString_emit hesc]

theorem readString_control {c : Char} (h : c.toNat < 0x20) (t : Text) :
    readString (.text none)
        (['\\', 'u', '0', '0', hexDigit (c.toNat / 16), hexDigit (c.toNat % 16)] ++ t) =
      (readString (.text none) t).map fun (u, r) => (c :: u, r) := by
  have hhigh : hexValue (hexDigit (c.toNat / 16)) = some (c.toNat / 16) :=
    hexValue_hexDigit ⟨c.toNat / 16, by omega⟩
  have hlow : hexValue (hexDigit (c.toNat % 16)) = some (c.toNat % 16) :=
    hexValue_hexDigit ⟨c.toNat % 16, by omega⟩
  have hthird : stringStep (.unit none 2 0) (hexDigit (c.toNat / 16)) =
      .next (.unit none 3 (c.toNat / 16)) := by
    simp [stringStep, hhigh]
  have hlast : stringStep (.unit none 3 (c.toNat / 16)) (hexDigit (c.toNat % 16)) = .emit c := by
    have hsum : c.toNat / 16 * 16 + c.toNat % 16 = c.toNat := Nat.div_add_mod' _ _
    simp only [stringStep, hlow, hsum, unitStep]
    rw [if_neg (by omega), if_neg (by omega), if_neg (by omega), Char.ofNat_toNat]
  simp only [List.cons_append, List.nil_append]
  rw [readString_next (.escape none) rfl, readString_next (.unit none 0 0) rfl,
    readString_next (.unit none 1 0) rfl, readString_next (.unit none 2 0) rfl,
    readString_next _ hthird, readString_emit hlast]

theorem readString_escapeChar (c : Char) (t : Text) :
    readString (.text none) (escapeChar c ++ t) =
      (readString (.text none) t).map fun (u, r) => (c :: u, r) := by
  unfold escapeChar
  split_ifs with h1 h2 h3 h4 h5 h6 h7 h8
  · subst h1; exact readString_short (by decide) (by decide) t
  · subst h2; exact readString_short (by decide) (by decide) t
  · exact h3 ▸ readString_short (by decide) (by decide) t
  · exact h4 ▸ readString_short (by decide) (by decide) t
  · exact h5 ▸ readString_short (by decide) (by decide) t
  · exact h6 ▸ readString_short (by decide) (by decide) t
  · exact h7 ▸ readString_short (by decide) (by decide) t
  · exact readString_control h8 t
  · have hstep : stringStep (.text none) c = .emit c := by simp [stringStep, h1, h2, h8]
    exact readString_emit hstep t

theorem readString_escaped (s rest : Text) :
    readString (.text none) (s.flatMap escapeChar ++ '\"' :: rest) = some (s, rest) := by
  induction s with
  | nil => rfl
  | cons c s ih =>
    rw [List.flatMap_cons, List.append_assoc, readString_escapeChar, ih]
    rfl

def Delimited (rest : Text) : Prop := ∀ c r, rest = c :: r → isNumberChar c = false

theorem delimited_nil : Delimited [] := by
  intro c r h
  cases h

theorem delimited_cons {c : Char} {r : Text} (h : isNumberChar c = false) : Delimited (c :: r) := by
  intro d s he
  cases he
  exact h

theorem skipBlanks_cons {c : Char} {r : Text} (h : isBlank c = false) :
    skipBlanks (c :: r) = c :: r := by
  simp [skipBlanks, h]

theorem skipBlanks_replicate (n : Nat) (t : Text) :
    skipBlanks (List.replicate n ' ' ++ t) = skipBlanks t := by
  induction n with
  | zero => rfl
  | succ n ih => simpa [skipBlanks, List.replicate_succ, isBlank] using ih

theorem expect_append (word t : Text) : expect word (word ++ t) = some t := by
  simp [expect]

theorem readNumber_append (n : NumberLiteral) {rest : Text} (h : Delimited rest) :
    readNumber (n.text ++ rest) = some (.num n, rest) := by
  have hall : ∀ c ∈ n.text, isNumberChar c = true := by
    have := n.grammar
    simp only [isNumber, Bool.and_eq_true, List.all_eq_true] at this
    exact this.1
  have hrest : rest.takeWhile isNumberChar = [] ∧ rest.dropWhile isNumberChar = rest := by
    cases rest with
    | nil => simp
    | cons c r => simp [h c r rfl]
  have htake : (n.text ++ rest).takeWhile isNumberChar = n.text := by
    rw [List.takeWhile_append_of_pos hall, hrest.1, List.append_nil]
  have hdrop : (n.text ++ rest).dropWhile isNumberChar = rest := by
    rw [List.dropWhile_append_of_pos hall, hrest.2]
  simp only [readNumber, htake, hdrop]
  rw [dif_pos n.grammar]

theorem number_head (n : NumberLiteral) : ∃ c cs, n.text = c :: cs ∧ isNumberChar c = true := by
  obtain ⟨t, ht⟩ := n
  cases t with
  | nil => exact absurd ht (by decide)
  | cons c cs =>
    simp only [isNumber, List.all_cons, Bool.and_eq_true] at ht
    exact ⟨c, cs, rfl, ht.1.1⟩

theorem numberChar_ne {c : Char} (h : isNumberChar c = true) :
    c ≠ 'n' ∧ c ≠ 't' ∧ c ≠ 'f' ∧ c ≠ '\"' ∧ c ≠ '[' ∧ c ≠ '{' ∧ isBlank c = false := by
  refine ⟨?_, ?_, ?_, ?_, ?_, ?_, ?_⟩
  case refine_7 =>
    by_contra hb
    simp only [isBlank, Bool.not_eq_false, Bool.or_eq_true, beq_iff_eq] at hb
    rcases hb with ((rfl | rfl) | rfl) | rfl <;> exact absurd h (by decide)
  all_goals
    rintro rfl
    exact absurd h (by decide)

theorem render_head (st : Style) (j : Json) :
    ∃ c cs, render st j = c :: cs ∧ isBlank c = false ∧ c ≠ ']' ∧ c ≠ '}' := by
  cases j with
  | null => exact ⟨'n', _, rfl, by decide⟩
  | bool b => cases b <;> exact ⟨_, _, rfl, by decide⟩
  | str s => exact ⟨'\"', _, rfl, by decide⟩
  | num n =>
    obtain ⟨c, cs, hc, hn⟩ := number_head n
    refine ⟨c, cs, by rw [render, hc], (numberChar_ne hn).2.2.2.2.2.2, ?_, ?_⟩ <;>
      (rintro rfl; exact absurd hn (by decide))
  | arr xs => cases xs <;> exact ⟨'[', _, by rw [render], by decide⟩
  | obj kvs => cases kvs <;> exact ⟨'{', _, by rw [render], by decide⟩

theorem render_length_pos (st : Style) (j : Json) : 0 < (render st j).length := by
  obtain ⟨c, cs, h, _⟩ := render_head st j
  simp [h]

theorem skipBlanks_render (st : Style) (j : Json) (rest : Text) :
    skipBlanks (render st j ++ rest) = render st j ++ rest := by
  obtain ⟨c, cs, h, hb, _⟩ := render_head st j
  rw [h, List.cons_append, skipBlanks_cons hb]

theorem renderMore_delimited (st : Style) (xs : List Json) (rest : Text) :
    Delimited (renderMore st xs ++ rest) := by
  cases xs <;> exact delimited_cons (by decide)

theorem renderMembers_delimited (st : Style) (kvs : List (Text × Json)) (rest : Text) :
    Delimited (renderMembers st kvs ++ rest) := by
  rcases kvs with _ | ⟨⟨k, v⟩, kvs⟩ <;> exact delimited_cons (by decide)

theorem parseValue_skip (fuel n : Nat) (t : Text) :
    parseValue fuel (List.replicate n ' ' ++ t) = parseValue fuel t := by
  cases fuel with
  | zero => rfl
  | succ fuel => simp only [parseValue, skipBlanks_replicate]

theorem parseMember_skip (fuel n : Nat) (t : Text) :
    parseMember fuel (List.replicate n ' ' ++ t) = parseMember fuel t := by
  cases fuel with
  | zero => rfl
  | succ fuel => simp only [parseMember, skipBlanks_replicate]

theorem quote_append (k rest : Text) :
    quote k ++ rest = '\"' :: (k.flatMap escapeChar ++ '\"' :: rest) := by
  simp [quote]

theorem parseMember_render {st : Style} {fuel : Nat} {k : Text} {v : Json} {rest : Text}
    (h : parseValue fuel (render st v ++ rest) = some (v, rest)) :
    parseMember (fuel + 1) (quote k ++ st.colon ++ render st v ++ rest) = some ((k, v), rest) := by
  have hv : parseValue fuel (List.replicate st.afterColon ' ' ++ (render st v ++ rest)) =
      some (v, rest) := by rw [parseValue_skip, h]
  rw [List.append_assoc, List.append_assoc, quote_append, parseMember, skipBlanks_cons (by decide)]
  simp only [↓reduceIte, readString_escaped, Style.colon, List.cons_append,
    skipBlanks_cons (show isBlank ':' = false by decide), Option.bind_eq_bind, Option.bind_some, hv]
  rfl

mutual
theorem parseValue_render (st : Style) : ∀ (j : Json) (fuel : Nat) (rest : Text),
    (render st j).length ≤ fuel → Delimited rest →
    parseValue fuel (render st j ++ rest) = some (j, rest)
  | j, 0, _, hf, _ => absurd (render_length_pos st j) (by omega)
  | .null, fuel + 1, rest, _, _ => by
    rw [parseValue, skipBlanks_render]
    exact congrArg (Option.map _) (expect_append "ull".toList rest)
  | .bool true, fuel + 1, rest, _, _ => by
    rw [parseValue, skipBlanks_render]
    exact congrArg (Option.map _) (expect_append "rue".toList rest)
  | .bool false, fuel + 1, rest, _, _ => by
    rw [parseValue, skipBlanks_render]
    exact congrArg (Option.map _) (expect_append "alse".toList rest)
  | .num n, fuel + 1, rest, _, hd => by
    obtain ⟨c, cs, hc, hn⟩ := number_head n
    obtain ⟨h1, h2, h3, h4, h5, h6, _⟩ := numberChar_ne hn
    have hread := readNumber_append n hd
    rw [parseValue, skipBlanks_render, render, hc, List.cons_append]
    rw [hc, List.cons_append] at hread
    simp only [h1, h2, h3, h4, h5, h6, ↓reduceIte, hread]
  | .str s, fuel + 1, rest, _, _ => by
    rw [parseValue, skipBlanks_render, render, quote_append]
    exact congrArg (Option.map _) (readString_escaped s rest)
  | .arr [], fuel + 1, rest, _, _ => by
    rw [parseValue, skipBlanks_render]
    rfl
  | .arr (x :: xs), fuel + 1, rest, hf, _ => by
    rw [render, List.length_cons, List.length_append] at hf
    have hmore := renderMore_delimited st xs rest
    have hx := parseValue_render st x fuel (renderMore st xs ++ rest) (by omega) hmore
    have hxs := parseMore_render st xs fuel rest (by omega)
    obtain ⟨c, cs, hc, hb, hne, _⟩ := render_head st x
    rw [parseValue, skipBlanks_render, render, List.cons_append, List.append_assoc]
    have hopen : (skipBlanks (render st x ++ (renderMore st xs ++ rest))).head? ≠ some ']' := by
      rw [skipBlanks_render, hc]
      simpa using hne
    simp only [hopen, hx, hxs, Char.reduceEq, ↓reduceIte, Option.bind_eq_bind, Option.bind_some]
    rfl
  | .obj [], fuel + 1, rest, _, _ => by
    rw [parseValue, skipBlanks_render]
    rfl
  | .obj ((k, v) :: kvs), fuel + 1, rest, hf, _ => by
    rw [render, List.length_cons, List.length_append, List.length_append, List.length_append] at hf
    have hk : 2 ≤ (quote k).length := by simp [quote]
    obtain ⟨fuel, rfl⟩ : ∃ m, fuel = m + 1 := ⟨fuel - 1, by omega⟩
    have hmore := renderMembers_delimited st kvs rest
    have hv := parseValue_render st v fuel (renderMembers st kvs ++ rest) (by omega) hmore
    have hkvs := parseMembers_render st kvs (fuel + 1) rest (by omega)
    have hmember := parseMember_render (k := k) hv
    rw [parseValue, skipBlanks_render, render, List.cons_append, List.append_assoc]
    have hopen : (skipBlanks (quote k ++ st.colon ++ render st v ++
        (renderMembers st kvs ++ rest))).head? ≠ some '}' := by
      rw [List.append_assoc, List.append_assoc, quote_append, skipBlanks_cons (by decide)]
      simp
    simp only [hopen, hmember, hkvs, Char.reduceEq, ↓reduceIte, Option.bind_eq_bind,
      Option.bind_some]
    rfl
theorem parseMore_render (st : Style) : ∀ (xs : List Json) (fuel : Nat) (rest : Text),
    (renderMore st xs).length ≤ fuel →
    parseMore fuel (renderMore st xs ++ rest) = some (xs, rest)
  | [], 0, _, hf => absurd hf (by simp [renderMore])
  | [], fuel + 1, rest, _ => rfl
  | x :: xs, 0, _, hf => absurd hf (by simp [renderMore, Style.comma])
  | x :: xs, fuel + 1, rest, hf => by
    rw [renderMore, List.length_append, List.length_append] at hf
    have hc : 1 ≤ st.comma.length := by simp [Style.comma]
    have hmore := renderMore_delimited st xs rest
    have hx := parseValue_render st x fuel (renderMore st xs ++ rest) (by omega) hmore
    have hxs := parseMore_render st xs fuel rest (by omega)
    rw [renderMore, Style.comma, List.cons_append, List.cons_append, List.cons_append, parseMore,
      skipBlanks_cons (by decide), List.append_assoc, List.append_assoc]
    simp only [parseValue_skip, hx, hxs, Char.reduceEq, ↓reduceIte, Option.bind_eq_bind,
      Option.bind_some]
    rfl
theorem parseMembers_render (st : Style) : ∀ (kvs : List (Text × Json)) (fuel : Nat) (rest : Text),
    (renderMembers st kvs).length ≤ fuel →
    parseMembers fuel (renderMembers st kvs ++ rest) = some (kvs, rest)
  | [], 0, _, hf => absurd hf (by simp [renderMembers])
  | [], fuel + 1, rest, _ => rfl
  | (k, v) :: kvs, 0, _, hf => absurd hf (by simp [renderMembers, Style.comma])
  | (k, v) :: kvs, fuel + 1, rest, hf => by
    rw [renderMembers, List.length_append, List.length_append, List.length_append,
      List.length_append] at hf
    have hk : 2 ≤ (quote k).length := by simp [quote]
    obtain ⟨fuel, rfl⟩ : ∃ m, fuel = m + 1 := ⟨fuel - 1, by omega⟩
    have hmore := renderMembers_delimited st kvs rest
    have hv := parseValue_render st v fuel (renderMembers st kvs ++ rest) (by omega) hmore
    have hkvs := parseMembers_render st kvs (fuel + 1) rest (by omega)
    have hmember := parseMember_render (k := k) hv
    rw [renderMembers, Style.comma]
    simp only [List.cons_append, List.append_assoc] at hmember ⊢
    rw [parseMembers, skipBlanks_cons (by decide)]
    simp only [parseMember_skip, hmember, hkvs, Char.reduceEq, ↓reduceIte, Option.bind_eq_bind,
      Option.bind_some]
    rfl
end

/-- Every printed value is read back, whatever blanks the printer used. -/
theorem parse_render (st : Style) (j : Json) : parse (render st j) = some j := by
  have h := parseValue_render st j ((render st j).length + 1) [] (by omega) delimited_nil
  rw [List.append_nil] at h
  rw [parse, h]
  rfl

theorem render_injective (st : Style) {i j : Json} (h : render st i = render st j) : i = j := by
  have hp := parse_render st i
  rw [h, parse_render] at hp
  exact (Option.some.inj hp).symm

/-- The text `t` reads as `j` in front of anything that cannot continue it. -/
structure Prints (t : Text) (j : Json) : Prop where
  head : ∃ c cs, t = c :: cs ∧ isBlank c = false ∧ c ≠ ']'
  reads : ∀ fuel rest, t.length ≤ fuel → Delimited rest →
    parseValue fuel (t ++ rest) = some (j, rest)

theorem prints_render (st : Style) (j : Json) : Prints (render st j) j where
  head := by
    obtain ⟨c, cs, h, hb, hne, _⟩ := render_head st j
    exact ⟨c, cs, h, hb, hne⟩
  reads := fun fuel rest => parseValue_render st j fuel rest

def joinedTail (ps : List (Text × Json)) : Text := ps.flatMap fun p => ',' :: p.1

theorem joinedTail_delimited (ps : List (Text × Json)) {rest : Text} (h : Delimited rest) :
    Delimited (joinedTail ps ++ rest) := by
  cases ps with
  | nil => exact h
  | cons p ps => exact delimited_cons (by decide)

theorem length_le_joinedTail (ps : List (Text × Json)) : ps.length ≤ (joinedTail ps).length := by
  induction ps with
  | nil => exact Nat.le_refl 0
  | cons p ps ih =>
    rw [joinedTail, List.flatMap_cons, ← joinedTail]
    simp only [List.length_append, List.length_cons]
    omega

theorem intercalate_cons (p : Text × Json) (ps : List (Text × Json)) :
    [','].intercalate ((p :: ps).map Prod.fst) = p.1 ++ joinedTail ps := by
  induction ps generalizing p with
  | nil => simp [joinedTail]
  | cons q qs ih =>
    have hq := ih q
    simp only [List.map_cons] at hq ⊢
    rw [List.intercalate_cons_cons, hq]
    simp [joinedTail]

theorem parseMore_joined (ps : List (Text × Json)) (hp : ∀ p ∈ ps, Prints p.1 p.2) :
    ∀ (fuel : Nat) (rest : Text), (joinedTail ps).length ≤ fuel → Delimited rest →
    parseMore fuel (joinedTail ps ++ rest) =
      (parseMore (fuel - ps.length) rest).map fun (xs, r) => (ps.map Prod.snd ++ xs, r) := by
  induction ps with
  | nil =>
    intro fuel rest _ _
    cases h : parseMore fuel rest <;> simp [joinedTail, h]
  | cons p ps ih =>
    intro fuel rest hf hd
    have hlen : (joinedTail (p :: ps)).length = p.1.length + 1 + (joinedTail ps).length := by
      simp only [joinedTail, List.flatMap_cons, List.length_append, List.length_cons]
    obtain ⟨fuel, rfl⟩ : ∃ m, fuel = m + 1 := ⟨fuel - 1, by omega⟩
    have hhead := (hp p List.mem_cons_self).reads fuel (joinedTail ps ++ rest) (by omega)
      (joinedTail_delimited ps hd)
    have htail := ih (fun q hq => hp q (List.mem_cons_of_mem p hq)) fuel rest (by omega) hd
    have hsplit : joinedTail (p :: ps) ++ rest = ',' :: (p.1 ++ (joinedTail ps ++ rest)) := by
      simp [joinedTail]
    rw [hsplit, parseMore, skipBlanks_cons (by decide)]
    simp only [hhead, htail, Char.reduceEq, ↓reduceIte, Option.bind_eq_bind, Option.bind_some,
      List.length_cons, Nat.add_sub_add_right]
    cases parseMore (fuel - ps.length) rest <;> rfl

theorem parseValue_open {p : Text × Json} (hp : Prints p.1 p.2) (fuel : Nat) (rest : Text)
    (hf : p.1.length ≤ fuel) (hd : Delimited rest) :
    parseValue (fuel + 1) ('[' :: (p.1 ++ rest)) =
      (parseMore fuel rest).map fun (xs, r) => (.arr (p.2 :: xs), r) := by
  have hv := hp.reads fuel rest hf hd
  obtain ⟨c, cs, hc, hb, hne⟩ := hp.head
  have hskip : skipBlanks (p.1 ++ rest) = p.1 ++ rest := by
    rw [hc, List.cons_append, skipBlanks_cons hb]
  have hopen : (p.1 ++ rest).head? ≠ some ']' := by
    rw [hc]
    simpa using hne
  rw [parseValue, skipBlanks_cons (by decide)]
  simp only [hskip, hopen, hv, Char.reduceEq, ↓reduceIte, Option.bind_eq_bind, Option.bind_some]
  cases parseMore fuel rest <;> rfl

theorem parse_elements {p : Text × Json} {ps : List (Text × Json)}
    (hp : ∀ q ∈ p :: ps, Prints q.1 q.2) {rest : Text} (hd : Delimited rest) :
    ∃ fuel, parse ('[' :: (p.1 ++ (joinedTail ps ++ rest))) =
      match parseMore (rest.length + fuel) rest with
      | some (xs, r) => if (skipBlanks r).isEmpty then some (.arr (p.2 :: (ps.map Prod.snd ++ xs)))
          else none
      | none => none := by
  have hopen := parseValue_open (hp p List.mem_cons_self)
    ('[' :: (p.1 ++ (joinedTail ps ++ rest))).length (joinedTail ps ++ rest)
    (by simp only [List.length_cons, List.length_append]; omega) (joinedTail_delimited ps hd)
  have hmore := parseMore_joined ps (fun q hq => hp q (List.mem_cons_of_mem p hq))
    ('[' :: (p.1 ++ (joinedTail ps ++ rest))).length rest
    (by simp only [List.length_cons, List.length_append]; omega) hd
  have hps := length_le_joinedTail ps
  refine ⟨('[' :: (p.1 ++ (joinedTail ps ++ rest))).length - ps.length - rest.length, ?_⟩
  have hfuel : rest.length + (('[' :: (p.1 ++ (joinedTail ps ++ rest))).length - ps.length -
      rest.length) = ('[' :: (p.1 ++ (joinedTail ps ++ rest))).length - ps.length := by
    simp only [List.length_cons, List.length_append]
    omega
  rw [parse, hopen, hmore, hfuel]
  cases parseMore _ rest <;> rfl

theorem parse_joined (ps : List (Text × Json)) (hp : ∀ q ∈ ps, Prints q.1 q.2) :
    parse ('[' :: ([','].intercalate (ps.map Prod.fst) ++ [']'])) =
      some (.arr (ps.map Prod.snd)) := by
  cases ps with
  | nil => rfl
  | cons p ps =>
    obtain ⟨fuel, h⟩ := parse_elements hp (delimited_cons (c := ']') (r := []) (by decide))
    rw [intercalate_cons, List.append_assoc, h]
    simp [Nat.add_comm, parseMore, skipBlanks, isBlank]

/-- If such a text is cut after some complete elements and still reads as an array,
the array starts with these elements. -/
theorem parse_cut {p : Text × Json} {ps : List (Text × Json)}
    (hp : ∀ q ∈ p :: ps, Prints q.1 q.2) {rest : Text} (hd : Delimited rest) {v : Json}
    (h : parse ('[' :: (p.1 ++ (joinedTail ps ++ rest))) = some v) :
    ∃ xs, v = .arr (p.2 :: (ps.map Prod.snd ++ xs)) := by
  obtain ⟨fuel, he⟩ := parse_elements hp hd
  rw [he] at h
  split at h
  · next xs r _ =>
    split at h
    · exact ⟨xs, (Option.some.inj h).symm⟩
    · exact absurd h (by simp)
  · exact absurd h (by simp)

end JsonText
