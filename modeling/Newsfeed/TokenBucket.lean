import Mathlib.Algebra.Order.Floor.Semiring
import Mathlib.Algebra.Order.Field.Basic
import Mathlib.Logic.Function.Basic
import Mathlib.Tactic.Linarith
import Mathlib.Tactic.Ring

/-! # Token buckets

A bucket holds up to `capacity` cells. While it is not full, one cell comes back after every
`period`. A request takes a cell, or is rejected when there is none.
-/
namespace TokenBucket

section Arrivals

variable {κ α : Type*} [DecidableEq κ]

def arrivals (key : κ) (requests : List (κ × α)) : List α :=
  (requests.filter fun r => r.1 = key).map Prod.snd

theorem arrivals_self (key : κ) (now : α) (requests : List (κ × α)) :
    arrivals key ((key, now) :: requests) = now :: arrivals key requests := by
  rw [arrivals, List.filter_cons_of_pos (by simp), List.map_cons, arrivals]

theorem arrivals_other {k key : κ} (h : k ≠ key) (now : α) (requests : List (κ × α)) :
    arrivals key ((k, now) :: requests) = arrivals key requests := by
  rw [arrivals, List.filter_cons_of_neg (by simpa using h), arrivals]

end Arrivals

variable {K : Type*} [Field K] [LinearOrder K] [IsStrictOrderedRing K]

structure Config (K : Type*) [Zero K] [LT K] where
  capacity : ℕ
  period : K
  capacity_pos : 0 < capacity
  period_pos : 0 < period

/-- The cells at the moment `since`, at which a period begins. This is a quota of the governor
crate, as documented: `capacity` cells at once, and one more after every period. -/
structure Bucket (c : Config K) where
  cells : ℕ
  since : K
  bounded : cells ≤ c.capacity

variable {c : Config K}

def full (c : Config K) (now : K) : Bucket c := ⟨c.capacity, now, le_rfl⟩

/-- The moment at which the bucket is full again, when nothing is taken. -/
def Bucket.fullAt (b : Bucket c) : K := b.since + ((c.capacity : K) - b.cells) * c.period

section Steps

variable [FloorSemiring K]

/-- The cells that came back since `since`, one for each whole period. -/
def Bucket.returned (b : Bucket c) (now : K) : ℕ := ⌊(now - b.since) / c.period⌋₊

def Bucket.refill (b : Bucket c) (now : K) : Bucket c :=
  if h : c.capacity ≤ b.cells + b.returned now then full c now
  else ⟨b.cells + b.returned now, b.since + b.returned now * c.period, Nat.le_of_not_le h⟩

def Bucket.request (b : Bucket c) (now : K) : Bool × Bucket c :=
  match h : (b.refill now).cells with
  | 0 => (false, b.refill now)
  | n + 1 => (true, ⟨n, (b.refill now).since,
      Nat.le_of_succ_le (h ▸ (b.refill now).bounded)⟩)

/-- Whether each of the requests is admitted. -/
def Bucket.decisions (b : Bucket c) : List K → List Bool
  | [] => []
  | now :: times => (b.request now).1 :: (b.request now).2.decisions times

theorem Bucket.returned_le (b : Bucket c) {now : K} (h : b.since ≤ now) :
    b.returned now * c.period ≤ now - b.since := by
  have hfloor := Nat.floor_le (div_nonneg (sub_nonneg.mpr h) c.period_pos.le)
  rwa [le_div_iff₀ c.period_pos] at hfloor

theorem Bucket.lt_returned (b : Bucket c) (now : K) :
    now - b.since < (b.returned now + 1) * c.period := by
  have hfloor := Nat.lt_floor_add_one ((now - b.since) / c.period)
  rwa [div_lt_iff₀ c.period_pos] at hfloor

theorem Bucket.missing_le (b : Bucket c) {now : K} (h : b.since ≤ now)
    (hfull : c.capacity ≤ b.cells + b.returned now) :
    ((c.capacity : K) - b.cells) * c.period ≤ now - b.since := by
  have hcells : (c.capacity : K) - b.cells ≤ b.returned now := by
    have hcast : (c.capacity : K) ≤ b.cells + b.returned now := by exact_mod_cast hfull
    linarith
  exact (mul_le_mul_of_nonneg_right hcells c.period_pos.le).trans (b.returned_le h)

theorem Bucket.refill_spec (b : Bucket c) {now : K} (h : b.since ≤ now) :
    (b.refill now).fullAt = max b.fullAt now ∧ (b.refill now).since ≤ now := by
  unfold Bucket.refill
  split
  · next hfull =>
    have hle := b.missing_le h hfull
    refine ⟨?_, le_rfl⟩
    rw [max_eq_right (by unfold Bucket.fullAt; linarith)]
    simp [Bucket.fullAt, full]
  · next hnot =>
    have hcells : (b.returned now : K) + 1 ≤ c.capacity - b.cells := by
      have hcast : (b.cells : K) + b.returned now + 1 ≤ c.capacity := by
        exact_mod_cast Nat.lt_of_not_le hnot
      linarith
    have hle := mul_le_mul_of_nonneg_right hcells c.period_pos.le
    have hlt := b.lt_returned now
    have hback := b.returned_le h
    constructor
    · rw [max_eq_left (by unfold Bucket.fullAt; linarith)]
      simp only [Bucket.fullAt, Nat.cast_add]
      ring
    · dsimp only
      linarith

theorem Bucket.refill_empty (b : Bucket c) {now : K} (h : b.since ≤ now) :
    (b.refill now).cells = 0 ↔ now + ((c.capacity : K) - 1) * c.period < b.fullAt := by
  have hcap : (1 : K) ≤ c.capacity := by exact_mod_cast c.capacity_pos
  unfold Bucket.refill
  split
  · next hfull =>
    have hle := b.missing_le h hfull
    have hnonneg := mul_nonneg (sub_nonneg.mpr hcap) c.period_pos.le
    refine iff_of_false (Nat.pos_iff_ne_zero.mp c.capacity_pos) (not_lt.mpr ?_)
    unfold Bucket.fullAt
    linarith
  · have hlt := b.lt_returned now
    have hback := b.returned_le h
    unfold Bucket.fullAt
    constructor
    · intro hzero
      obtain ⟨hcells, hreturned⟩ := Nat.add_eq_zero_iff.mp hzero
      rw [hreturned] at hlt
      rw [hcells]
      push_cast at hlt ⊢
      linarith
    · intro hless
      by_contra hne
      have hone : (1 : K) ≤ b.cells + b.returned now := by
        exact_mod_cast Nat.one_le_iff_ne_zero.mpr hne
      have hmul := mul_le_mul_of_nonneg_right hone c.period_pos.le
      linarith

/-- A request is admitted when at most `capacity - 1` periods are missing, and takes one. -/
theorem Bucket.request_spec (b : Bucket c) {now : K} (h : b.since ≤ now) :
    ((b.request now).1 = true ↔ b.fullAt ≤ now + ((c.capacity : K) - 1) * c.period) ∧
      ((b.request now).1 = true → (b.request now).2.fullAt = max b.fullAt now + c.period) ∧
        (b.request now).2.since ≤ now := by
  obtain ⟨hfull, hsince⟩ := b.refill_spec h
  have hempty := b.refill_empty h
  unfold Bucket.request
  split
  · next hzero =>
    refine ⟨iff_of_false Bool.false_ne_true ?_, fun hno => ?_, hsince⟩
    · exact not_le.mpr (hempty.mp hzero)
    · exact absurd hno Bool.false_ne_true
  · next n hsucc =>
    refine ⟨iff_of_true rfl ?_, fun _ => ?_, hsince⟩
    · rw [← not_lt, ← hempty, hsucc]
      exact Nat.succ_ne_zero n
    · rw [← hfull]
      simp only [Bucket.fullAt, hsucc, Nat.cast_succ]
      ring

/-- All of the requests are admitted exactly when the debt that builds up before and during
the sequence never exceeds the capacity. -/
theorem Bucket.admitted_iff (b : Bucket c) {times : List K} (hsorted : times.Pairwise (· ≤ ·))
    (hlater : ∀ t ∈ times, b.since ≤ t) :
    (∀ d ∈ b.decisions times, d = true) ↔
      (∀ j (hj : j < times.length),
        b.fullAt + j * c.period ≤ times[j] + ((c.capacity : K) - 1) * c.period) ∧
      ∀ i j (hj : i + j < times.length),
        times[i] + j * c.period ≤ times[i + j] + ((c.capacity : K) - 1) * c.period := by
  induction times generalizing b with
  | nil => simp [Bucket.decisions]
  | cons now times ih =>
    obtain ⟨hnext, hsorted⟩ := List.pairwise_cons.mp hsorted
    obtain ⟨hadmitted, hfull, hsince⟩ := b.request_spec (hlater now List.mem_cons_self)
    have hcap : (1 : K) ≤ c.capacity := by exact_mod_cast c.capacity_pos
    have hdebt := mul_nonneg (sub_nonneg.mpr hcap) c.period_pos.le
    rw [Bucket.decisions, List.forall_mem_cons,
      ih (b.request now).2 hsorted fun t ht => hsince.trans (hnext t ht), hadmitted]
    constructor
    · intro h
      rcases h with ⟨hfirst, hbefore, hduring⟩
      have hfull' := hfull (hadmitted.mpr hfirst)
      have hmax := le_max_left b.fullAt now
      have hmax' := le_max_right b.fullAt now
      constructor
      · intro j hj
        cases j with
        | zero => simpa using hfirst
        | succ j =>
          have hj' := hbefore j (by simpa using hj)
          rw [List.getElem_cons_succ]
          push_cast
          linarith
      · intro i j hj
        cases i with
        | zero =>
          cases j with
          | zero => simpa using hdebt
          | succ j =>
            have hj' := hbefore j (by simpa using hj)
            simp only [List.getElem_cons_zero, Nat.zero_add, List.getElem_cons_succ]
            push_cast
            linarith
        | succ i =>
          have hindex : i + 1 + j = (i + j) + 1 := by omega
          simp only [hindex, List.getElem_cons_succ]
          exact hduring i j (by simp only [List.length_cons] at hj; omega)
    · intro h
      rcases h with ⟨hbefore, hduring⟩
      have hfirst : b.fullAt ≤ now + ((c.capacity : K) - 1) * c.period := by
        have hzero := hbefore 0 (Nat.succ_pos _)
        simp only [List.getElem_cons_zero, Nat.cast_zero, zero_mul, add_zero] at hzero
        exact hzero
      refine ⟨hfirst, fun j hj => ?_, fun i j hj => ?_⟩
      · have hj' := hbefore (j + 1) (by simpa using hj)
        have hj'' := hduring 0 (j + 1) (by simpa using hj)
        simp only [List.getElem_cons_zero, Nat.zero_add, List.getElem_cons_succ] at hj' hj''
        push_cast at hj' hj''
        rw [hfull (hadmitted.mpr hfirst)]
        rcases max_choice b.fullAt now with hmax | hmax <;> rw [hmax] <;> linarith
      · have hij := hduring (i + 1) j (by simp only [List.length_cons]; omega)
        have hindex : i + 1 + j = (i + j) + 1 := by omega
        simpa only [hindex, List.getElem_cons_succ] using hij

/-- From a full bucket all requests are admitted exactly when any `capacity + k + 1` requests
in a row take at least `k + 1` periods. -/
theorem full_admitted_iff {times : List K} {start : K} (hsorted : times.Pairwise (· ≤ ·))
    (hlater : ∀ t ∈ times, start ≤ t) :
    (∀ d ∈ (full c start).decisions times, d = true) ↔
      ∀ i k (h : i + (c.capacity + k) < times.length),
        ((k : K) + 1) * c.period ≤ times[i + (c.capacity + k)] - times[i] := by
  have hcap : (1 : K) ≤ c.capacity := by exact_mod_cast c.capacity_pos
  have hstart : (full c start).fullAt = start := by simp [Bucket.fullAt, full]
  rw [Bucket.admitted_iff (full c start) hsorted hlater]
  constructor
  · rintro ⟨_, hduring⟩ i k h
    have hik := hduring i (c.capacity + k) h
    push_cast at hik
    linarith
  · intro hpace
    have hduring : ∀ i j (hj : i + j < times.length),
        times[i] + j * c.period ≤ times[i + j] + ((c.capacity : K) - 1) * c.period := by
      intro i j hj
      rcases Nat.lt_or_ge j c.capacity with hfew | hmany
      · have hmono : times[i] ≤ times[i + j] := by
          rcases Nat.eq_zero_or_pos j with rfl | hpos
          · exact le_rfl
          · exact List.pairwise_iff_getElem.mp hsorted i (i + j) (by omega) hj (by omega)
        have hj' : (j : K) ≤ c.capacity - 1 := by
          have hcast : (j : K) + 1 ≤ c.capacity := by exact_mod_cast hfew
          linarith
        have hmul := mul_le_mul_of_nonneg_right hj' c.period_pos.le
        linarith
      · obtain ⟨k, rfl⟩ := Nat.exists_eq_add_of_le hmany
        have hk := hpace i k hj
        push_cast
        linarith
    refine ⟨fun j hj => ?_, hduring⟩
    have hfirst := hlater times[0] (List.getElem_mem _)
    have hj' := hduring 0 j (by omega)
    simp only [Nat.zero_add] at hj'
    rw [hstart]
    linarith

variable {κ : Type*} [DecidableEq κ]

/-- The buckets of the keys that were seen. -/
abbrev Limiter (κ : Type*) (c : Config K) := κ → Option (Bucket c)

/-- A key that was not seen before has a full bucket. -/
def Limiter.request (l : Limiter κ c) (key : κ) (now : K) : Bool × Limiter κ c :=
  let answer := ((l key).getD (full c now)).request now
  (answer.1, Function.update l key (some answer.2))

/-- Whether each request of one key is admitted, in a sequence of requests of all keys. -/
def Limiter.decisions (l : Limiter κ c) (key : κ) : List (κ × K) → List Bool
  | [] => []
  | (k, now) :: requests =>
    let answer := l.request k now
    if k = key then answer.1 :: answer.2.decisions key requests
    else answer.2.decisions key requests

omit [IsStrictOrderedRing K]

theorem Limiter.request_other (l : Limiter κ c) {k key : κ} (h : k ≠ key) (now : K) :
    (l.request k now).2 key = l key := Function.update_of_ne (Ne.symm h) _ l

theorem Limiter.decisions_of_seen (l : Limiter κ c) {key : κ} {b : Bucket c}
    (h : l key = some b) (requests : List (κ × K)) :
    l.decisions key requests = b.decisions (arrivals key requests) := by
  induction requests generalizing l b with
  | nil => rfl
  | cons r requests ih =>
    rcases r with ⟨k, now⟩
    rw [Limiter.decisions]
    by_cases hk : k = key
    · subst hk
      have hrest := ih (l.request k now).2 (Function.update_self k _ l)
      rw [if_pos rfl, hrest, arrivals_self, Bucket.decisions, Limiter.request, h]
      rfl
    · rw [if_neg hk, ih _ ((l.request_other hk now).trans h), arrivals_other hk]

theorem Limiter.decisions_of_unseen (l : Limiter κ c) {key : κ} (h : l key = none)
    (requests : List (κ × K)) :
    l.decisions key requests =
      (full c ((arrivals key requests).headD 0)).decisions (arrivals key requests) := by
  induction requests generalizing l with
  | nil => rfl
  | cons r requests ih =>
    rcases r with ⟨k, now⟩
    rw [Limiter.decisions]
    by_cases hk : k = key
    · subst hk
      have hrest := decisions_of_seen (l.request k now).2 (Function.update_self k _ l) requests
      rw [if_pos rfl, hrest, arrivals_self, List.headD_cons, Bucket.decisions, Limiter.request, h]
      rfl
    · rw [if_neg hk, ih _ ((l.request_other hk now).trans h), arrivals_other hk]

end Steps

end TokenBucket
