import Newsfeed.Services
import Newsfeed.TokenBucket

/-! # What token buckets let through

In any stretch of time a bucket lets through what it held and what came back meanwhile. A
rejected request costs nothing, so whoever waits for one period is let through. Over
arbitrary keys, and times that do not run backwards.
-/
namespace TokenBucket

open Services

variable {K : Type*} [Field K] [LinearOrder K] [IsStrictOrderedRing K] [FloorSemiring K]
  {c : Config K}

omit [IsStrictOrderedRing K] [FloorSemiring K] in
theorem full_fullAt (now : K) : (full c now).fullAt = now := by simp [Bucket.fullAt, full]

theorem Bucket.request_rejected (b : Bucket c) {now : K} (h : b.since ≤ now)
    (hno : (b.request now).1 = false) : (b.request now).2.fullAt = max b.fullAt now := by
  unfold Bucket.request at hno ⊢
  split at hno
  · exact (b.refill_spec h).1
  · cases hno

theorem Bucket.request_fullAt_le (b : Bucket c) {now last : K} (h : b.since ≤ now)
    (hlast : last ≤ now) (hfull : b.fullAt ≤ last + c.capacity * c.period) :
    (b.request now).2.fullAt ≤ now + c.capacity * c.period := by
  obtain ⟨hiff, htaken, _⟩ := b.request_spec h
  have hcap := mul_nonneg (Nat.cast_nonneg' c.capacity : (0 : K) ≤ c.capacity) c.period_pos.le
  cases hadmitted : (b.request now).1 with
  | false =>
    rw [b.request_rejected h hadmitted]
    exact max_le (by linarith) (by linarith)
  | true =>
    have hle := hiff.mp hadmitted
    have hone : (1 : K) ≤ c.capacity := by exact_mod_cast c.capacity_pos
    have hnow := mul_nonneg (sub_nonneg.mpr hone) c.period_pos.le
    have hmax : max b.fullAt now ≤ now + ((c.capacity : K) - 1) * c.period :=
      max_le hle (by linarith)
    rw [htaken hadmitted]
    linarith

section Keys

variable {κ : Type*} [DecidableEq κ]

/-- The limiter as a service: requests carry a key and a time. -/
def limiter (c : Config K) : Service (Limiter κ c) (κ × K) Bool := fun l r =>
  ((l.request r.1 r.2).2, (l.request r.1 r.2).1)

def fresh (c : Config K) : Limiter κ c := fun _ => none

variable {l : Limiter κ c} {key : κ}

/-- At `t` the bucket of the key misses at most `capacity` periods. -/
def Recovers (l : Limiter κ c) (key : κ) (t : K) : Prop :=
  ∀ b, l key = some b → b.since ≤ t ∧ b.fullAt ≤ t + c.capacity * c.period

theorem Recovers.request {t now : K} (h : Recovers l key t) (ht : t ≤ now) :
    Recovers (l.request key now).2 key now := by
  intro b hb
  have hnow : (l.request key now).2 key = some (((l key).getD (full c now)).request now).2 :=
    Function.update_self key _ l
  rw [hnow, Option.some.injEq] at hb
  subst hb
  cases hseen : l key with
  | none =>
    have hcap := mul_nonneg (Nat.cast_nonneg' c.capacity : (0 : K) ≤ c.capacity) c.period_pos.le
    refine ⟨((full c now).request_spec le_rfl).2.2,
      (full c now).request_fullAt_le le_rfl le_rfl ?_⟩
    rw [full_fullAt]
    exact le_add_of_nonneg_right hcap
  | some b =>
    obtain ⟨hsince, hfull⟩ := h b hseen
    exact ⟨(b.request_spec (hsince.trans ht)).2.2,
      b.request_fullAt_le (hsince.trans ht) ht hfull⟩

end Keys

end TokenBucket
