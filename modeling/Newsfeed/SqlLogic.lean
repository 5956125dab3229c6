import Newsfeed.TextOperations

/-! # SQL comparisons

Three-valued truth, comparisons of nullable values and collations. A `WHERE`
clause keeps a row only when its condition is true, never when it is unknown.
-/
namespace SqlLogic

open TextOperations

inductive Truth where
  | true
  | false
  | unknown
  deriving DecidableEq, Repr

namespace Truth

def ofBool : Bool → Truth
  | .true => .true
  | .false => .false

def not : Truth → Truth
  | .true => .false
  | .false => .true
  | .unknown => .unknown

def and : Truth → Truth → Truth
  | .false, _ => .false
  | _, .false => .false
  | .true, .true => .true
  | _, _ => .unknown

def or : Truth → Truth → Truth
  | .true, _ => .true
  | _, .true => .true
  | .false, .false => .false
  | _, _ => .unknown

/-- `WHERE` keeps only rows on which the condition is true. -/
def holds (t : Truth) : Bool := t == .true

@[simp] theorem ofBool_eq_true {b : Bool} : ofBool b = .true ↔ b = Bool.true := by
  cases b <;> simp [ofBool]

@[simp] theorem ofBool_eq_false {b : Bool} : ofBool b = .false ↔ b = Bool.false := by
  cases b <;> simp [ofBool]

@[simp] theorem holds_iff {t : Truth} : t.holds = Bool.true ↔ t = .true := by
  cases t <;> decide

@[simp] theorem not_eq_true {t : Truth} : t.not = .true ↔ t = .false := by
  cases t <;> decide

@[simp] theorem and_eq_false {s t : Truth} : s.and t = .false ↔ s = .false ∨ t = .false := by
  cases s <;> cases t <;> decide

@[simp] theorem and_eq_true {s t : Truth} : s.and t = .true ↔ s = .true ∧ t = .true := by
  cases s <;> cases t <;> decide

@[simp] theorem or_eq_false {s t : Truth} : s.or t = .false ↔ s = .false ∧ t = .false := by
  cases s <;> cases t <;> decide

@[simp] theorem or_eq_true {s t : Truth} : s.or t = .true ↔ s = .true ∨ t = .true := by
  cases s <;> cases t <;> decide

end Truth

section Nullable

variable {α : Type*} (eq : α → α → Bool)

/-- `a = b`: unknown as soon as one side is `NULL`. -/
def sqlEq : Option α → Option α → Truth
  | some a, some b => .ofBool (eq a b)
  | _, _ => .unknown

def isNull (a : Option α) : Truth := .ofBool a.isNone

/-- `a <=> b` and `a IS NOT DISTINCT FROM b`: two `NULL`s agree, one `NULL` differs. -/
def notDistinct : Option α → Option α → Bool
  | some a, some b => eq a b
  | none, none => true
  | _, _ => false

variable {eq}

@[simp] theorem sqlEq_some_some {a b : α} : sqlEq eq (some a) (some b) = .ofBool (eq a b) := rfl

@[simp] theorem sqlEq_eq_true {a b : Option α} :
    sqlEq eq a b = .true ↔ ∃ x y, a = some x ∧ b = some y ∧ eq x y = true := by
  cases a <;> cases b <;> simp [sqlEq]

@[simp] theorem sqlEq_eq_false {a b : Option α} :
    sqlEq eq a b = .false ↔ ∃ x y, a = some x ∧ b = some y ∧ eq x y = false := by
  cases a <;> cases b <;> simp [sqlEq]

@[simp] theorem isNull_holds {a : Option α} : (isNull a).holds = a.isNone := by
  cases a <;> rfl

theorem notDistinct_iff_eq [DecidableEq α] {a b : Option α} :
    notDistinct (fun x y : α => x == y) a b = true ↔ a = b := by
  cases a <;> cases b <;> simp [notDistinct]

end Nullable

/-- Strings compare by their sort keys. Case-insensitive collations identify the
spellings of one key; the exact comparison is the collation with `key := id`. -/
structure Collation where
  key : Text → Text

namespace Collation

variable (coll : Collation)

def eq (a b : Text) : Bool := coll.key a == coll.key b

@[simp] theorem eq_iff {a b : Text} : coll.eq a b = true ↔ coll.key a = coll.key b := by
  simp [eq]

theorem eq_refl (a : Text) : coll.eq a a = true := by simp

/-- A case-insensitive collation, on ASCII letters. -/
def ascii : Collation := ⟨lowerAscii⟩

theorem ascii_letters_visible (t : Text) (h : ∃ c ∈ t, Char.isAlpha c = true) :
    ascii.key t ≠ ascii.key [] := by
  rcases h with ⟨c, hc, _⟩
  intro heq
  have hnil : t = [] := List.map_eq_nil_iff.mp heq
  rw [hnil] at hc
  cases hc

end Collation

end SqlLogic
