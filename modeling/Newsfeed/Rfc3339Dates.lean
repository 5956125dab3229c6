import Newsfeed.TextOperations
import Mathlib.Data.Prod.Lex
import Mathlib.Data.Rat.Defs
import Mathlib.Algebra.Order.Ring.Rat
import Mathlib.Algebra.Order.Field.Basic
import Mathlib.Tactic.Linarith
import Mathlib.Tactic.Positivity

/-! # RFC 3339 dates

What a date spelled as RFC 3339 asks denotes. Offsets are whole minutes, so an instant is a
minute of UTC and the seconds in it, of which a leap second makes 61.
-/
namespace Rfc3339Dates

open TextOperations

def isLeapYear (year : Nat) : Bool := year % 4 == 0 && (year % 100 != 0 || year % 400 == 0)

def daysInMonth (year : Nat) : Nat → Nat
  | 2 => if isLeapYear year then 29 else 28
  | 4 => 30
  | 6 => 30
  | 9 => 30
  | 11 => 30
  | _ => 31

structure DateTime where
  year : Nat
  month : Nat
  day : Nat
  hour : Nat
  minute : Nat
  second : Nat
  /-- The digits of the fraction of a second. -/
  fraction : Text
  /-- Minutes east of UTC. -/
  offset : ℤ
  month_range : 1 ≤ month ∧ month ≤ 12
  day_range : 1 ≤ day ∧ day ≤ daysInMonth year month
  clock_range : hour < 24 ∧ minute < 60 ∧ second ≤ 60
  fraction_digits : ∀ c ∈ fraction, c.isDigit = true

namespace DateTime

def days (d : DateTime) : Nat :=
  365 * d.year + (d.year + 3) / 4 - (d.year + 99) / 100 + (d.year + 399) / 400 +
    ((List.range (d.month - 1)).map fun m => daysInMonth d.year (m + 1)).sum + (d.day - 1)

def localMinutes (d : DateTime) : ℤ := ((d.days - 719528) * 24 + d.hour) * 60 + d.minute

def fractionValue (d : DateTime) : ℚ := Nat.ofDigitChars 10 d.fraction 0 / 10 ^ d.fraction.length

end DateTime

/-- A minute of UTC and the seconds since it began. -/
abbrev Instant := ℤ ×ₗ ℚ

def DateTime.instant (d : DateTime) : Instant :=
  toLex (d.localMinutes - d.offset, d.second + d.fractionValue)

theorem ofDigitChars_lt {digits : Text} (h : ∀ c ∈ digits, c.isDigit = true) :
    Nat.ofDigitChars 10 digits 0 < 10 ^ digits.length := by
  induction digits with
  | nil => simp [Nat.ofDigitChars]
  | cons c digits ih =>
    have htail := ih fun d hd => h d (List.mem_cons_of_mem c hd)
    have hdigit : c.toNat - '0'.toNat ≤ 9 := by
      have hc := h c List.mem_cons_self
      simp only [Char.isDigit, Bool.and_eq_true, decide_eq_true_eq, UInt32.le_iff_toNat_le] at hc
      have hle : c.toNat ≤ 57 := hc.2
      simp only [Char.reduceToNat]
      omega
    rw [Nat.ofDigitChars_cons, Nat.mul_zero, Nat.zero_add, Nat.ofDigitChars_eq_ofDigitChars_zero,
      List.length_cons, Nat.pow_succ]
    have hhead := Nat.mul_le_mul_left (10 ^ digits.length) hdigit
    omega

namespace DateTime

theorem fractionValue_nonneg (d : DateTime) : 0 ≤ d.fractionValue := by
  rw [fractionValue]
  positivity

theorem fractionValue_lt_one (d : DateTime) : d.fractionValue < 1 := by
  have hlt := ofDigitChars_lt d.fraction_digits
  rw [fractionValue, div_lt_one (by positivity)]
  exact_mod_cast hlt

def localSeconds (d : DateTime) : ℚ := d.localMinutes * 60 + d.second + d.fractionValue

theorem localSeconds_lt {d e : DateTime} (hzone : d.offset = e.offset) (hleap : d.second < 60)
    (h : d.instant < e.instant) : d.localSeconds < e.localSeconds := by
  rw [instant, instant, Prod.Lex.toLex_lt_toLex, hzone] at h
  rw [localSeconds, localSeconds]
  have hone := d.fractionValue_lt_one
  have hnonneg := e.fractionValue_nonneg
  have hsecond : (d.second : ℚ) + 1 ≤ 60 := by exact_mod_cast hleap
  have hsecond' : (0 : ℚ) ≤ e.second := Nat.cast_nonneg _
  rcases h with hminute | ⟨hminute, hlt⟩
  · have hnext : (d.localMinutes : ℚ) + 1 ≤ e.localMinutes := by
      have hint : d.localMinutes + 1 ≤ e.localMinutes := by omega
      exact_mod_cast hint
    linarith
  · have hsame : d.localMinutes = e.localMinutes := by omega
    rw [hsame]
    linarith

end DateTime

def readNumber (n : Nat) (t : Text) : Option (Nat × Text) :=
  if (t.take n).length = n ∧ (t.take n).all Char.isDigit then
    some (Nat.ofDigitChars 10 (t.take n) 0, t.drop n)
  else none

def readOneOf (chars : List Char) : Text → Option Text
  | c :: t => if chars.contains c then some t else none
  | [] => none

def readFraction : Text → Option ({ digits : Text // ∀ c ∈ digits, c.isDigit = true } × Text)
  | '.' :: t =>
    if (t.takeWhile Char.isDigit).isEmpty then none
    else some (⟨t.takeWhile Char.isDigit, fun _ => List.mem_takeWhile_imp⟩,
      t.dropWhile Char.isDigit)
  | t => some (⟨[], by simp⟩, t)

def readSign : Text → Option (ℤ × Text)
  | '+' :: t => some (1, t)
  | '-' :: t => some (-1, t)
  | '−' :: t => some (-1, t)
  | _ => none

def readOffset (t : Text) : Option ℤ :=
  if t = ['Z'] ∨ t = ['z'] then some 0
  else do
    let (sign, t) ← readSign t
    let (hours, t) ← readNumber 2 t
    let t ← readOneOf [':'] t
    let (minutes, t) ← readNumber 2 t
    if t = [] ∧ hours < 24 ∧ minutes < 60 then some (sign * (hours * 60 + minutes)) else none

def parseRfc3339 (t : Text) : Option DateTime := do
  let (year, t) ← readNumber 4 t
  let t ← readOneOf ['-'] t
  let (month, t) ← readNumber 2 t
  let t ← readOneOf ['-'] t
  let (day, t) ← readNumber 2 t
  let t ← readOneOf ['T', 't', ' '] t
  let (hour, t) ← readNumber 2 t
  let t ← readOneOf [':'] t
  let (minute, t) ← readNumber 2 t
  let t ← readOneOf [':'] t
  let (second, t) ← readNumber 2 t
  let (fraction, t) ← readFraction t
  let offset ← readOffset t
  if h : (1 ≤ month ∧ month ≤ 12) ∧ (1 ≤ day ∧ day ≤ daysInMonth year month) ∧
      hour < 24 ∧ minute < 60 ∧ second ≤ 60 then
    some ⟨year, month, day, hour, minute, second, fraction.val, offset, h.1, h.2.1, h.2.2,
      fraction.property⟩
  else none

example : (parseRfc3339 "2026-08-01T14:00:00.5+02:00".toList).map DateTime.instant =
    (parseRfc3339 "2026-08-01t12:00:00.50z".toList).map DateTime.instant := by decide +kernel

end Rfc3339Dates
