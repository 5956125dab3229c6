import Newsfeed.TextOperations
import Mathlib.Data.List.Basic

/-! # Clauses that are put together as texts

A `WHERE` clause grows by one condition at a time, with a connective when the text is not
blank; a statement with numbered placeholders has them read off its text.
-/
namespace SqlClauses

open TextOperations

section Growing

variable (isBlank : Text → Bool) (connective : Text)

/-- `IF trim(clause) <> '' THEN clause || connective || condition ELSE condition`. -/
def addCondition (clause condition : Text) : Text :=
  if isBlank clause then condition else clause ++ (connective ++ condition)

/-- `IF trim(clause) <> '' THEN keyword || clause`. -/
def withKeyword (keyword clause : Text) : Text :=
  if isBlank clause then clause else keyword ++ clause

def clauseText : List Text → Text
  | [] => []
  | c :: cs => c ++ cs.flatMap fun c => connective ++ c

theorem clauseText_append {cs : List Text} (hcs : cs ≠ []) (c : Text) :
    clauseText connective (cs ++ [c]) = clauseText connective cs ++ (connective ++ c) := by
  cases cs with
  | nil => exact absurd rfl hcs
  | cons d ds =>
    rw [List.cons_append, clauseText, clauseText, List.flatMap_append, List.flatMap_singleton,
      List.append_assoc]

variable {isBlank connective}

structure BlankTest (isBlank : Text → Bool) (visible : Char) : Prop where
  empty : isBlank [] = true
  visible : ∀ t, visible ∈ t → isBlank t = false

theorem BlankTest.isBlank_clauseText {visible : Char} (h : BlankTest isBlank visible)
    {cs : List Text} (hcs : ∀ c ∈ cs, visible ∈ c) :
    isBlank (clauseText connective cs) = cs.isEmpty := by
  cases cs with
  | nil => exact h.empty
  | cons c cs =>
    apply h.visible
    exact List.mem_append_left _ (hcs c List.mem_cons_self)

theorem BlankTest.addCondition_eq {visible : Char} (h : BlankTest isBlank visible) {cs : List Text}
    (hcs : ∀ c ∈ cs, visible ∈ c) (c : Text) :
    addCondition isBlank connective (clauseText connective cs) c =
      clauseText connective (cs ++ [c]) := by
  rw [addCondition, h.isBlank_clauseText hcs]
  by_cases hempty : cs = []
  · rw [hempty, List.isEmpty_nil, if_pos rfl, List.nil_append, clauseText,
      List.flatMap_nil, List.append_nil]
  · rw [List.isEmpty_eq_false_iff.mpr hempty, if_neg Bool.false_ne_true,
      clauseText_append connective hempty]

theorem BlankTest.withKeyword_eq {visible : Char} (h : BlankTest isBlank visible) {cs : List Text}
    (hcs : ∀ c ∈ cs, visible ∈ c) (keyword : Text) :
    withKeyword isBlank keyword (clauseText connective cs) =
      if cs.isEmpty then [] else keyword ++ clauseText connective cs := by
  rw [withKeyword, h.isBlank_clauseText hcs]
  cases cs with
  | nil => rfl
  | cons c cs => rfl

end Growing

def leadingNumber (t : Text) : Nat := Nat.ofDigitChars 10 (t.takeWhile Char.isDigit) 0

/-- The numbers of the placeholders `$n` of a statement, from left to right. -/
def placeholderNumbers : Text → List Nat
  | [] => []
  | c :: t => if c = '$' then leadingNumber t :: placeholderNumbers t else placeholderNumbers t

def placeholder (n : Nat) : Text := '$' :: Nat.toDigits 10 n

theorem placeholderNumbers_of_not_mem {t : Text} (h : '$' ∉ t) : placeholderNumbers t = [] := by
  induction t with
  | nil => rfl
  | cons c t ih =>
    have hc : c ≠ '$' := fun heq => h (heq ▸ List.mem_cons_self)
    rw [placeholderNumbers, if_neg hc, ih fun hmem => h (List.mem_cons_of_mem c hmem)]

theorem leadingNumber_append {u : Text} (hu : u.takeWhile Char.isDigit = []) (t : Text) :
    leadingNumber (t ++ u) = leadingNumber t := by
  rw [leadingNumber, leadingNumber, List.takeWhile_append, hu]
  split
  · next h => rw [List.append_nil, (List.takeWhile_prefix _).eq_of_length h]
  · rfl

theorem placeholderNumbers_append {u : Text} (hu : u.takeWhile Char.isDigit = []) (t : Text) :
    placeholderNumbers (t ++ u) = placeholderNumbers t ++ placeholderNumbers u := by
  induction t with
  | nil => rfl
  | cons c t ih =>
    rw [List.cons_append, placeholderNumbers, placeholderNumbers, ih, leadingNumber_append hu]
    split
    · rfl
    · rfl

theorem placeholderNumbers_placeholder (n : Nat) : placeholderNumbers (placeholder n) = [n] := by
  have hdigits : ∀ c ∈ Nat.toDigits 10 n, c.isDigit = true := fun _ hc =>
    Nat.isDigit_of_mem_toDigits (by omega) (by omega) hc
  have hplain : '$' ∉ Nat.toDigits 10 n := fun hmem => absurd (hdigits _ hmem) (by decide)
  rw [placeholder, placeholderNumbers, if_pos rfl, placeholderNumbers_of_not_mem hplain,
    leadingNumber, List.takeWhile_eq_self_iff.mpr hdigits, Nat.ofDigitChars_ten_toDigits]

theorem placeholderNumbers_before (t : Text) (n : Nat) :
    placeholderNumbers (t ++ placeholder n) = placeholderNumbers t ++ [n] := by
  have hhead : (placeholder n).takeWhile Char.isDigit = [] := by
    rw [placeholder, List.takeWhile_cons_of_neg (by decide)]
  rw [placeholderNumbers_append hhead, placeholderNumbers_placeholder]

section Clause

variable {connective : Text}

theorem conditions_head (hhead : ∀ t, (connective ++ t).takeWhile Char.isDigit = [])
    (cs : List Text) : (cs.flatMap fun c => connective ++ c).takeWhile Char.isDigit = [] := by
  cases cs with
  | nil => rfl
  | cons c cs => rw [List.flatMap_cons, List.append_assoc, hhead]

theorem placeholderNumbers_clauseText
    (hhead : ∀ t, (connective ++ t).takeWhile Char.isDigit = []) (hplain : '$' ∉ connective)
    {cs : List Text} (hcs : ∀ c ∈ cs, c.takeWhile Char.isDigit = []) :
    placeholderNumbers (clauseText connective cs) = cs.flatMap placeholderNumbers := by
  have htail : ∀ ds : List Text, (∀ d ∈ ds, d.takeWhile Char.isDigit = []) →
      placeholderNumbers (ds.flatMap fun d => connective ++ d) =
        ds.flatMap placeholderNumbers := by
    intro ds hds
    induction ds with
    | nil => rfl
    | cons d ds ih =>
      have hd := hds d List.mem_cons_self
      rw [List.flatMap_cons, placeholderNumbers_append (conditions_head hhead ds),
        placeholderNumbers_append hd, placeholderNumbers_of_not_mem hplain, List.nil_append,
        ih fun e he => hds e (List.mem_cons_of_mem d he), List.flatMap_cons]
  cases cs with
  | nil => rfl
  | cons c cs =>
    rw [clauseText, placeholderNumbers_append (conditions_head hhead cs),
      htail cs fun d hd => hcs d (List.mem_cons_of_mem c hd), List.flatMap_cons]

end Clause

end SqlClauses
