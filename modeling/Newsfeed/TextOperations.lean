import Mathlib.Algebra.Ring.Nat
import Mathlib.Data.Bool.AllAny
import Mathlib.Data.List.DropRight
import Mathlib.Data.Char
import Mathlib.Algebra.Order.BigOperators.Group.List
import Mathlib.Algebra.Order.Group.Nat

/-! # Text

Strings as sequences of Unicode scalar values, with the trimming and
replacement operations the Rust standard library and the SQL engines share.
-/
namespace TextOperations

abbrev Text := List Char

/-- `char::is_whitespace`: the Unicode `White_Space` property. -/
def isWhitespace (c : Char) : Bool :=
  let n := c.toNat
  (9 ≤ n && n ≤ 13) || n == 0x20 || n == 0x85 || n == 0xA0 || n == 0x1680 ||
    (0x2000 ≤ n && n ≤ 0x200A) || n == 0x2028 || n == 0x2029 || n == 0x202F ||
    n == 0x205F || n == 0x3000

def isSpace (c : Char) : Bool := c == ' '

def trimBy (p : Char → Bool) (t : Text) : Text := (t.dropWhile p).rdropWhile p

/-- `str::trim` of Rust. -/
def trim (t : Text) : Text := trimBy isWhitespace t

/-- `TRIM(x)` of the three SQL dialects removes blanks only. -/
def trimSpaces (t : Text) : Text := trimBy isSpace t

/-- `NULLIF(x, '')`. -/
def nullIfEmpty (t : Text) : Option Text := if t.isEmpty then none else some t

/-- `str::len` counts the bytes of the UTF-8 encoding. -/
def utf8Len (t : Text) : Nat := (t.map Char.utf8Size).sum

/-- Code units of the UTF-16 encoding, the unit of `nvarchar(n)`. -/
def utf16Len (t : Text) : Nat := (t.map fun c => if c.toNat < 0x10000 then 1 else 2).sum

/-- `str::to_lowercase` and `LOWER` on ASCII text; other characters are kept. -/
def lowerAscii (t : Text) : Text := t.map Char.toLower

/-- A regular-expression replacement of one character class, first match only. -/
def replaceFirst (p : Char → Bool) (by_ : Char) : Text → Text
  | [] => []
  | c :: cs => if p c then by_ :: cs else c :: replaceFirst p by_ cs

/-- A regular-expression replacement of one character class, every match. -/
def replaceEach (p : Char → Bool) (by_ : Char) (t : Text) : Text :=
  t.map fun c => if p c then by_ else c

/-- `[ ]{2,}` replaced by one blank, first match only. -/
def collapseFirstRun : Text → Text
  | [] => []
  | c :: cs =>
    if c = ' ' ∧ cs.head? = some ' ' then ' ' :: cs.dropWhile isSpace
    else c :: collapseFirstRun cs

/-- `[ ]{2,}` replaced by one blank, every match. -/
def collapseRuns : Text → Text
  | [] => []
  | c :: cs => if c = ' ' ∧ cs.head? = some ' ' then collapseRuns cs else c :: collapseRuns cs

theorem nullIfEmpty_eq_some {t u : Text} : nullIfEmpty t = some u ↔ t = u ∧ u ≠ [] := by
  unfold nullIfEmpty
  cases t with
  | nil => simp only [List.isEmpty_nil, ↓reduceIte, reduceCtorEq, ne_eq, false_iff, not_and,
      Classical.not_not]; exact fun h => h.symm
  | cons c cs =>
    simp only [List.isEmpty_cons, Bool.false_eq_true, ↓reduceIte, Option.some.injEq]
    constructor
    · rintro rfl; exact ⟨rfl, by simp⟩
    · exact fun h => h.1

theorem replaceFirst_length (p : Char → Bool) (by_ : Char) (t : Text) :
    (replaceFirst p by_ t).length = t.length := by
  induction t with
  | nil => rfl
  | cons c cs ih =>
    rw [replaceFirst]
    split
    · rfl
    · rw [List.length_cons, ih, List.length_cons]

theorem replaceFirst_eq_self {p : Char → Bool} {by_ : Char} (hb : p by_ = false) {t : Text}
    (h : replaceFirst p by_ t = t) : ∀ c ∈ t, p c = false := by
  induction t with
  | nil => simp
  | cons c cs ih =>
    rw [replaceFirst] at h
    intro d hd
    split at h
    · next hc =>
      rw [← (List.cons.inj h).1, hb] at hc
      cases hc
    · next hc =>
      rcases List.mem_cons.mp hd with rfl | hd
      · simpa using hc
      · exact ih (List.cons.inj h).2 d hd

theorem collapseFirstRun_sublist (t : Text) : (collapseFirstRun t).Sublist t := by
  induction t with
  | nil => exact List.Sublist.refl []
  | cons c cs ih =>
    rw [collapseFirstRun]
    split
    · next hc =>
      rw [hc.1]
      exact (List.dropWhile_sublist isSpace).cons_cons ' '
    · exact ih.cons_cons c

theorem trimBy_sublist (p : Char → Bool) (t : Text) : (trimBy p t).Sublist t :=
  (List.rdropWhile_prefix p _).sublist.trans (List.dropWhile_sublist p)

theorem mem_dropWhile {p : Char → Bool} {t : Text} {c : Char} (hc : c ∈ t) (hp : p c = false) :
    c ∈ t.dropWhile p := by
  rw [← List.takeWhile_append_dropWhile (p := p) (l := t)] at hc
  rcases List.mem_append.mp hc with htake | hdrop
  · rw [List.mem_takeWhile_imp htake] at hp
    cases hp
  · exact hdrop

theorem mem_trimBy {p : Char → Bool} {t : Text} {c : Char} (hc : c ∈ t) (hp : p c = false) :
    c ∈ trimBy p t := by
  rw [trimBy, List.rdropWhile, List.mem_reverse]
  exact mem_dropWhile (List.mem_reverse.mpr (mem_dropWhile hc hp)) hp

theorem trimBy_eq_self_iff {p : Char → Bool} {t : Text} :
    trimBy p t = t ↔ (∀ c, t.head? = some c → p c = false) ∧
      ∀ c, t.getLast? = some c → p c = false := by
  constructor
  · intro h
    have hhead : t.dropWhile p = t := by
      have hsuffix := List.dropWhile_suffix (l := t) p
      have hlen := (List.rdropWhile_prefix p (t.dropWhile p)).length_le
      rw [← trimBy, h] at hlen
      exact hsuffix.eq_of_length_le hlen
    have hlast : t.rdropWhile p = t := by rw [trimBy, hhead] at h; exact h
    constructor
    · intro c hc
      cases t with
      | nil => simp at hc
      | cons d t =>
        have hd := List.dropWhile_eq_self_iff.mp hhead (by simp)
        simp only [List.head?_cons, Option.some.injEq] at hc
        subst hc
        simpa using hd
    · intro c hc
      have hne : t ≠ [] := by rintro rfl; simp at hc
      have hl := List.rdropWhile_eq_self_iff.mp hlast hne
      rw [List.getLast?_eq_some_getLast hne, Option.some.injEq] at hc
      rw [hc] at hl
      simpa using hl
  · rintro ⟨hhead, hlast⟩
    have h1 : t.dropWhile p = t := by
      rw [List.dropWhile_eq_self_iff]
      intro hl
      have := hhead t[0] (List.head?_eq_getElem? ▸ List.getElem?_eq_getElem hl)
      simp [this]
    rw [trimBy, h1, List.rdropWhile_eq_self_iff]
    intro hl
    simp [hlast _ (List.getLast?_eq_some_getLast hl)]

theorem dropWhile_surrounded {p : Char → Bool} {s t : Text} (hs : ∀ c ∈ s, p c = true)
    (ht : ∀ c, t.head? = some c → p c = false) : (s ++ t).dropWhile p = t := by
  rw [List.dropWhile_append_of_pos hs]
  cases t with
  | nil => rfl
  | cons c t => rw [List.dropWhile_cons_of_neg (by simp [ht c rfl])]

theorem trimBy_surrounded {p : Char → Bool} {before middle after : Text}
    (hbefore : ∀ c ∈ before, p c = true) (hmiddle : ∀ c ∈ middle, p c = false)
    (hafter : ∀ c ∈ after, p c = true) : trimBy p (before ++ (middle ++ after)) = middle := by
  by_cases hnil : middle = []
  · have hall : ∀ c ∈ before ++ after, p c = true := by
      intro c hc
      exact (List.mem_append.mp hc).elim (hbefore c) (hafter c)
    rw [hnil, List.nil_append, trimBy, List.dropWhile_eq_nil_iff.mpr hall]
    rfl
  · have hhead : ∀ c, (middle ++ after).head? = some c → p c = false := by
      intro c hc
      rw [List.head?_append_of_ne_nil _ hnil] at hc
      exact hmiddle c (List.mem_of_mem_head? hc)
    have hlast : ∀ c, middle.reverse.head? = some c → p c = false := by
      intro c hc
      exact hmiddle c (List.mem_reverse.mp (List.mem_of_mem_head? hc))
    have hafter' : ∀ c ∈ after.reverse, p c = true :=
      fun c hc => hafter c (List.mem_reverse.mp hc)
    rw [trimBy, dropWhile_surrounded hbefore hhead, List.rdropWhile, List.reverse_append,
      dropWhile_surrounded hafter' hlast, List.reverse_reverse]

theorem trimBy_trimBy (p : Char → Bool) (t : Text) : trimBy p (trimBy p t) = trimBy p t := by
  have hlast : (trimBy p t).rdropWhile p = trimBy p t := List.rdropWhile_idempotent p _
  have hhead : (trimBy p t).dropWhile p = trimBy p t := by
    rw [List.dropWhile_eq_self_iff]
    intro hl
    have hpre : trimBy p t <+: t.dropWhile p := List.rdropWhile_prefix p _
    have hl' := lt_of_lt_of_le hl hpre.length_le
    rw [hpre.getElem hl]
    exact List.dropWhile_eq_self_iff.mp (List.dropWhile_idempotent p t) hl'
  conv_lhs => rw [trimBy, hhead, hlast]

theorem trimSpaces_of_trim {t : Text} (h : trim t = t) : trimSpaces t = t := by
  have hspace : ∀ c, isWhitespace c = false → isSpace c = false := by
    intro c hc
    by_contra hs
    have hc' : c = ' ' := by simpa [isSpace] using hs
    rw [hc'] at hc
    exact absurd hc (by decide)
  obtain ⟨hhead, hlast⟩ := trimBy_eq_self_iff.mp h
  exact trimBy_eq_self_iff.mpr
    ⟨fun c hc => hspace c (hhead c hc), fun c hc => hspace c (hlast c hc)⟩

theorem utf16Len_le_utf8Len (t : Text) : utf16Len t ≤ utf8Len t := by
  unfold utf16Len utf8Len
  refine List.sum_le_sum fun c _ => ?_
  split
  · exact Char.utf8Size_pos c
  · next hwide =>
    have hfour : c.utf8Size = 4 := by
      have hval : c.val.toNat = c.toNat := rfl
      unfold Char.utf8Size
      simp only [UInt32.le_iff_toNat_le, UInt32.toNat_ofNatLT, hval]
      rw [if_neg (by omega), if_neg (by omega), if_neg (by omega)]
    omega

theorem toNat_toLower (c : Char) :
    c.toLower.toNat = if 65 ≤ c.toNat ∧ c.toNat ≤ 90 then c.toNat + 32 else c.toNat := by
  have hval : c.val.toNat = c.toNat := rfl
  unfold Char.toLower
  simp only [ge_iff_le, UInt32.le_iff_toNat_le, hval]
  show (if h : 65 ≤ c.toNat ∧ c.toNat ≤ 90 then _ else c).toNat = _
  split
  · next h =>
    show (c.val + 32).toNat = _
    rw [UInt32.toNat_add, hval]
    exact Nat.mod_eq_of_lt (by simp; omega)
  · rfl

theorem toLower_toLower (c : Char) : c.toLower.toLower = c.toLower := by
  rw [← Char.toNat_inj, toNat_toLower, toNat_toLower]
  by_cases hupper : 65 ≤ c.toNat ∧ c.toNat ≤ 90
  · rw [if_pos hupper]
    exact if_neg (by omega)
  · rw [if_neg hupper]
    exact if_neg hupper

theorem lowerAscii_lowerAscii (t : Text) : lowerAscii (lowerAscii t) = lowerAscii t := by
  rw [lowerAscii, lowerAscii, List.map_map]
  exact List.map_congr_left fun c _ => toLower_toLower c

theorem toLower_of_isLower {c : Char} (h : c.isLower = true) : c.toLower = c := by
  have hlower : 'a'.val ≤ c.val := of_decide_eq_true (Bool.and_eq_true_iff.mp h).1
  have hle : 97 ≤ c.toNat := UInt32.le_iff_toNat_le.mp hlower
  rw [← Char.toNat_inj, toNat_toLower]
  exact if_neg (by omega)

theorem lowerAscii_letters {t : Text} (h : ∀ c ∈ t, c.isLower = true) : lowerAscii t = t :=
  (List.map_congr_left fun c hc => toLower_of_isLower (h c hc)).trans (List.map_id t)

end TextOperations
