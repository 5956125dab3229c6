import Newsfeed.IpExtractor
import Newsfeed.TokenBucket
import Mathlib.Data.List.Chain
import Mathlib.Data.Rat.Floor

/-! # The rate limit

The configured number of requests per second reaches the limiter as the number of seconds
after which one cell comes back.
-/
namespace RateLimit

open TextOperations HttpHeaders IpAddresses IpExtractor TokenBucket

variable {K : Type*} [Field K] [LinearOrder K] [IsStrictOrderedRing K]

structure AppConfig where
  rateLimitRps : ℕ
  rateLimitBurst : ℕ
  trustProxy : Bool
  proxyCidrs : List IpNet

/-- The period is in seconds. -/
structure GovernorConfigBuilder (K : Type*) where
  period : K
  burstSize : ℕ

namespace GovernorConfigBuilder

/-- One cell comes back every `seconds` seconds. -/
def perSecond (b : GovernorConfigBuilder K) (seconds : ℕ) : GovernorConfigBuilder K :=
  { b with period := seconds }

def withBurstSize (b : GovernorConfigBuilder K) (burstSize : ℕ) : GovernorConfigBuilder K :=
  { b with burstSize := burstSize }

/-- Without a burst or a period there is no configuration. -/
def finish (b : GovernorConfigBuilder K) : Option (Config K) :=
  if h : 0 < b.burstSize ∧ 0 < b.period then some ⟨b.burstSize, b.period, h.1, h.2⟩ else none

end GovernorConfigBuilder

/-- The limiter of `build`, from the builder's defaults; `build` panics without one. -/
def governorConfig (default : GovernorConfigBuilder K) (cfg : AppConfig) : Option (Config K) :=
  ((default.perSecond cfg.rateLimitRps).withBurstSize cfg.rateLimitBurst).finish

def keyExtractor (cfg : AppConfig) : SecureIpExtractor := ⟨cfg.trustProxy, cfg.proxyCidrs⟩

def clientArrivals (cfg : AppConfig) (client : IpAddr) (requests : List (Request × K)) : List K :=
  arrivals client (requests.map fun r => ((keyExtractor cfg).extract r.1, r.2))

/-- The client's requests are at least `1 / rate_limit_rps` seconds apart. -/
def WithinRate (cfg : AppConfig) (client : IpAddr) (requests : List (Request × K)) : Prop :=
  (clientArrivals cfg client requests).IsChain fun a b => a + 1 / (cfg.rateLimitRps : K) ≤ b

/-- Any `rate_limit_burst + k + 1` requests of the client in a row take at least
`(k + 1) * rate_limit_rps` seconds. -/
def KeepsPace (cfg : AppConfig) (client : IpAddr) (requests : List (Request × K)) : Prop :=
  ∀ i k (h : i + (cfg.rateLimitBurst + k) < (clientArrivals cfg client requests).length),
    ((k : K) + 1) * cfg.rateLimitRps ≤
      (clientArrivals cfg client requests)[i + (cfg.rateLimitBurst + k)] -
        (clientArrivals cfg client requests)[i]

/-- No request of the client is rejected, whatever other clients send. -/
def NoneRejected [FloorSemiring K] (c : Config K) (cfg : AppConfig) (client : IpAddr)
    (requests : List (Request × K)) : Prop :=
  ∀ d ∈ Limiter.decisions (fun _ : IpAddr => (none : Option (Bucket c))) client
    (requests.map fun r => ((keyExtractor cfg).extract r.1, r.2)), d = true

section Spaced

variable {gap : K} {times : List K}

theorem gaps_of_chain (h : times.IsChain fun a b => a + gap ≤ b) {i : ℕ} (hi : i < times.length)
    (j : ℕ) (hj : i + j < times.length) : j * gap ≤ times[i + j] - times[i] := by
  induction j with
  | zero => simp
  | succ j ih =>
    have hprev := ih (by omega)
    have hstep : times[i + j] + gap ≤ times[i + j + 1] :=
      List.isChain_iff_getElem.mp h (i + j) hj
    have hindex : i + (j + 1) = i + j + 1 := rfl
    simp only [hindex]
    push_cast
    linarith

theorem sorted_of_chain (hgap : 0 ≤ gap) (h : times.IsChain fun a b => a + gap ≤ b) :
    times.Pairwise (· ≤ ·) := by
  rw [List.pairwise_iff_getElem]
  intro i j hi hj hij
  obtain ⟨k, rfl⟩ := Nat.exists_eq_add_of_le hij.le
  have hk := gaps_of_chain h hi k hj
  have hnonneg := mul_nonneg (Nat.cast_nonneg' k : (0 : K) ≤ k) hgap
  linarith

omit [IsStrictOrderedRing K] in
theorem headD_le (h : times.Pairwise (· ≤ ·)) : ∀ t ∈ times, times.headD 0 ≤ t := by
  intro t ht
  cases times with
  | nil => cases ht
  | cons first times =>
    rcases List.mem_cons.mp ht with rfl | ht
    · exact le_rfl
    · exact (List.pairwise_cons.mp h).1 t ht

end Spaced

def direct : Request := ⟨none, []⟩

/-- `n` requests, `1 / rate_limit_rps` seconds apart. -/
def steady (cfg : AppConfig) (n : ℕ) : List (Request × K) :=
  (List.range n).map fun i : ℕ => (direct, (i : K) / cfg.rateLimitRps)

omit [LinearOrder K] [IsStrictOrderedRing K] in
theorem clientArrivals_steady (cfg : AppConfig) (n : ℕ) :
    clientArrivals cfg ((keyExtractor cfg).extract direct) (steady cfg n : List (Request × K)) =
      (List.range n).map fun i : ℕ => (i : K) / cfg.rateLimitRps := by
  rw [clientArrivals, steady, List.map_map, arrivals, List.filter_eq_self.mpr, List.map_map]
  · rfl
  · intro r hr
    obtain ⟨i, _, rfl⟩ := List.mem_map.mp hr
    simp

omit [IsStrictOrderedRing K] in
theorem withinRate_steady (cfg : AppConfig) (n : ℕ) :
    WithinRate cfg ((keyExtractor cfg).extract direct)
      (steady cfg n : List (Request × K)) := by
  rw [WithinRate, clientArrivals_steady, List.isChain_iff_getElem]
  intro i hi
  simp only [List.getElem_map, List.getElem_range, Nat.cast_add, Nat.cast_one]
  rw [← add_div]

section Decisions

variable {cfg : AppConfig} {client : IpAddr} {requests : List (Request × K)}

theorem period_pos (hrps : 1 ≤ cfg.rateLimitRps) : (0 : K) < cfg.rateLimitRps :=
  Nat.cast_pos.mpr hrps

theorem governorConfig_eq (default : GovernorConfigBuilder K) (hrps : 1 ≤ cfg.rateLimitRps)
    (hburst : 1 ≤ cfg.rateLimitBurst) :
    governorConfig default cfg =
      some ⟨cfg.rateLimitBurst, cfg.rateLimitRps, hburst, period_pos hrps⟩ :=
  dif_pos ⟨hburst, period_pos hrps⟩

theorem noneRejected_iff [FloorSemiring K] {c : Config K}
    (hcapacity : c.capacity = cfg.rateLimitBurst) (hperiod : c.period = cfg.rateLimitRps)
    (h : WithinRate cfg client requests) :
    NoneRejected c cfg client requests ↔ KeepsPace cfg client requests := by
  rcases c with ⟨capacity, period, hcap, hpos⟩
  dsimp only at hcapacity hperiod
  subst hcapacity hperiod
  have hgap : (0 : K) ≤ 1 / cfg.rateLimitRps := by positivity
  have hsorted := sorted_of_chain hgap h
  rw [NoneRejected, Limiter.decisions_of_unseen _ rfl]
  exact full_admitted_iff hsorted (headD_le hsorted)

theorem keepsPace_of_one (hburst : 1 ≤ cfg.rateLimitBurst) (hone : cfg.rateLimitRps = 1)
    (h : WithinRate cfg client requests) : KeepsPace cfg client requests := by
  intro i k hk
  have hgaps := gaps_of_chain h (by omega) (cfg.rateLimitBurst + k) hk
  have hburst' : (1 : K) ≤ cfg.rateLimitBurst := by exact_mod_cast hburst
  rw [hone] at hgaps ⊢
  push_cast at hgaps ⊢
  linarith

theorem not_keepsPace_steady (hburst : 1 ≤ cfg.rateLimitBurst) (htwo : 2 ≤ cfg.rateLimitRps) :
    ¬ KeepsPace cfg ((keyExtractor cfg).extract direct)
      (steady cfg (2 * cfg.rateLimitBurst + 1) : List (Request × K)) := by
  intro hpace
  have hlong : 0 + (cfg.rateLimitBurst + cfg.rateLimitBurst) <
      (clientArrivals cfg ((keyExtractor cfg).extract direct)
        (steady cfg (2 * cfg.rateLimitBurst + 1) : List (Request × K))).length := by
    rw [clientArrivals_steady, List.length_map, List.length_range]
    omega
  have hslow := hpace 0 cfg.rateLimitBurst hlong
  simp only [clientArrivals_steady, List.getElem_map, List.getElem_range] at hslow
  have hrps : (2 : K) ≤ cfg.rateLimitRps := by exact_mod_cast htwo
  have hburst' : (1 : K) ≤ cfg.rateLimitBurst := by exact_mod_cast hburst
  have hfast : ((0 + (cfg.rateLimitBurst + cfg.rateLimitBurst) : ℕ) : K) / cfg.rateLimitRps ≤
      cfg.rateLimitBurst := by
    rw [div_le_iff₀ (by linarith)]
    push_cast
    have hmul := mul_le_mul_of_nonneg_left hrps (by linarith : (0 : K) ≤ cfg.rateLimitBurst)
    linarith
  have hmul := mul_le_mul_of_nonneg_left hrps (by linarith : (0 : K) ≤ cfg.rateLimitBurst + 1)
  push_cast at hslow hfast
  simp only [zero_div, sub_zero] at hslow
  linarith

end Decisions

/-- A client that stays within the configured rate is never rejected exactly when its long
stretches are as slow as one request in `rate_limit_rps` seconds. Over all sequences within
the rate this is so exactly for one request per second. -/
theorem rate_sustained_iff [FloorSemiring K] (default : GovernorConfigBuilder K) (cfg : AppConfig)
    (hrps : 1 ≤ cfg.rateLimitRps) (hburst : 1 ≤ cfg.rateLimitBurst) :
    ∃ c, governorConfig default cfg = some c ∧
      (∀ client (requests : List (Request × K)), WithinRate cfg client requests →
        (NoneRejected c cfg client requests ↔ KeepsPace cfg client requests)) ∧
      ((∀ client (requests : List (Request × K)), WithinRate cfg client requests →
        NoneRejected c cfg client requests) ↔ cfg.rateLimitRps = 1) := by
  refine ⟨_, governorConfig_eq default hrps hburst, fun client requests h => ?_, ?_⟩
  · exact noneRejected_iff rfl rfl h
  · constructor
    · intro hall
      by_contra hone
      have hwithin := withinRate_steady (K := K) cfg (2 * cfg.rateLimitBurst + 1)
      apply not_keepsPace_steady (K := K) hburst (by omega)
      exact (noneRejected_iff rfl rfl hwithin).mp (hall _ _ hwithin)
    · intro hone client requests h
      exact (noneRejected_iff rfl rfl h).mpr (keepsPace_of_one hburst hone h)

def sampleConfig (rps : ℕ) : AppConfig := ⟨rps, 1, false, []⟩

def twoRequests (gap : ℚ) : List (Request × ℚ) := [(direct, 0), (direct, gap)]

theorem withinRate_two (rps : ℕ) {gap : ℚ} (h : 1 / (rps : ℚ) ≤ gap) :
    WithinRate (sampleConfig rps) localhost (twoRequests gap) := by
  change List.IsChain (fun a b => a + 1 / (rps : ℚ) ≤ b) [0, gap]
  rw [List.isChain_pair, zero_add]
  exact h

theorem one_per_second_sustained :
    ∃ c, governorConfig ⟨1, 8⟩ (sampleConfig 1) = some c ∧
      NoneRejected c (sampleConfig 1) localhost (twoRequests 1) := by
  obtain ⟨c, hc, _, hall⟩ := rate_sustained_iff (K := ℚ) ⟨1, 8⟩ (sampleConfig 1) le_rfl le_rfl
  exact ⟨c, hc, hall.mpr rfl _ _ (withinRate_two 1 (by norm_num))⟩

/-- At two requests per second the second one, half a second later, is rejected. -/
theorem two_per_second_rejected :
    ∃ c, governorConfig ⟨1, 8⟩ (sampleConfig 2) = some c ∧
      WithinRate (sampleConfig 2) localhost (twoRequests (1 / 2)) ∧
      ¬ NoneRejected c (sampleConfig 2) localhost (twoRequests (1 / 2)) := by
  have hwithin := withinRate_two 2 (le_refl (1 / ((2 : ℕ) : ℚ)))
  refine ⟨_, governorConfig_eq _ (by decide) le_rfl, by simpa using hwithin, fun hnone => ?_⟩
  have hpace := (noneRejected_iff rfl rfl (by simpa using hwithin)).mp hnone
  have hslow : (((0 : ℕ) : ℚ) + 1) * ((2 : ℕ) : ℚ) ≤ 1 / 2 - 0 := hpace 0 0 (by decide)
  norm_num at hslow

end RateLimit
