import RecoverBull.Limiter.GuessRate
import Mathlib.Algebra.Order.BigOperators.Group.Finset

/-!
# Guessing in the long run

How long it takes to try the keys of a list: a span of time is so many cooldowns, and each
of them has one budget.
-/

namespace RecoverBull

variable {F : Type} [BucketNumber F] {P : Primitives} {cfg : Config} {s : AppState F} {log : Log}

/-- The number of stretches of a cooldown that cover the span. -/
def stretches (cfg : Config) (span : ℤ) : ℕ := (span / (cfg.rateLimitCooldown + 1)).toNat + 1

/-- **Guessing takes its time.** With clocks that never go back, whatever else happens, the
distinct candidates of an identifier whose attempts of a span of time were not given back
are at most one budget for each cooldown of the span, the last one begun included. -/
theorem guesses_in_span (P : Primitives) (cfg : Config) {log : Log} {s : AppState F}
    (h : Served P cfg log s) (hchron : Chronological log) (id : String) (start span : ℤ)
    (candidates : Finset CandidateTag)
    (hc : ∀ c ∈ candidates, ∃ r generation t, Reserved log r ⟨id, c, generation⟩ t ∧
      start ≤ t ∧ t ≤ start + span ∧ ¬Refunded log r) :
    candidates.card ≤ cfg.rateLimitMaxAttempts * stretches cfg span := by
  classical
  have hcd : 0 < cfg.rateLimitCooldown + 1 := Int.add_pos cfg.cooldown_pos one_pos
  choose! r generation t hres hlow hhigh href using hc
  -- The stretch of a candidate is that of its attempt.
  let stretch : CandidateTag → ℕ := fun c => ((t c - start) / (cfg.rateLimitCooldown + 1)).toNat
  have hmaps : ∀ c ∈ candidates, stretch c ∈ Finset.range (stretches cfg span) := by
    intro c hmem
    rw [Finset.mem_range, stretches, Nat.lt_succ_iff]
    apply Int.toNat_le_toNat
    apply Int.ediv_le_ediv hcd
    have := hhigh c hmem
    omega
  have hfiber : ∀ k ∈ Finset.range (stretches cfg span),
      {c ∈ candidates | stretch c = k}.card ≤ cfg.rateLimitMaxAttempts := by
    intro k _
    refine h.guesses_card_le hchron id (start + (cfg.rateLimitCooldown + 1) * k) fun c hmem => ?_
    obtain ⟨hmem, hk⟩ := Finset.mem_filter.mp hmem
    have hnonneg : 0 ≤ (t c - start) / (cfg.rateLimitCooldown + 1) :=
      Int.ediv_nonneg (by have := hlow c hmem; omega) hcd.le
    have hk : (t c - start) / (cfg.rateLimitCooldown + 1) = k := by
      rw [← hk, Int.toNat_of_nonneg hnonneg]
    have hdivision := Int.mul_ediv_add_emod (t c - start) (cfg.rateLimitCooldown + 1)
    have hmod := Int.emod_nonneg (t c - start) hcd.ne'
    have hlt := Int.emod_lt_of_pos (t c - start) hcd
    rw [hk] at hdivision
    exact ⟨r c, ⟨generation c, t c, hres c hmem, by omega, by omega⟩, href c hmem⟩
  have hcard := Finset.card_le_mul_card_image_of_maps_to hmaps cfg.rateLimitMaxAttempts hfiber
  rwa [Finset.card_range] at hcard

/-- One guess in a span of two cooldowns, of the two that it has room for. -/
theorem guesses_in_span_sample :
    ∃ (log : Log) (s : AppState ℚ), Served .sample .sample log s ∧
      Reserved log 0 ⟨sampleIdHash, sampleSecretId, 0⟩ 0 ∧
      ({sampleSecretId} : Finset CandidateTag).card ≤
        Config.sample.rateLimitMaxAttempts * stretches .sample (2 * minutes 1) ∧
      Config.sample.rateLimitMaxAttempts * stretches .sample (2 * minutes 1) = 2 := by
  have hrun : (run .sample .sample .sample
      (.fetchArrives 0 false ⟨sampleIdentifier, sampleKey⟩ ::
        ((sampleAdmission 0 false ⟨sampleIdentifier, sampleKey⟩ 0).tail ++
          sampleCompletion 0))).any
      (fun u => decide (Chronological u.2 ∧ Reserved u.2 0 ⟨sampleIdHash, sampleSecretId, 0⟩ 0 ∧
        ¬Refunded u.2 0)) = true := by
    rw [run_sampleKey]
    decide +kernel
  obtain ⟨log, s, h, hlog⟩ := served_of_run hrun
  obtain ⟨hchron, hres, href⟩ := of_decide_eq_true hlog
  refine ⟨log, s, h, hres, ?_, by decide⟩
  refine guesses_in_span .sample .sample h hchron sampleIdHash 0 _ _ fun c hc => ?_
  rw [Finset.mem_singleton.mp hc]
  exact ⟨0, 0, 0, hres, le_rfl, by decide, href⟩

end RecoverBull
