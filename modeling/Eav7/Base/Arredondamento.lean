import Eav7.Base.Binary64
import Mathlib.Data.Rat.Floor
import Mathlib.Tactic

/-!
# Rounding of natural numbers

Below `2 ^ 53` a natural number is a double; from there on it rounds to an integer.
-/

namespace Base.Binary64

theorem roundHalfEven_intCast (n : ℤ) : roundHalfEven n = n := by
  unfold roundHalfEven
  have hfloor : (n : ℚ).floor = n := Rat.floor_intCast n
  simp only [hfloor, sub_self]
  exact if_pos (by norm_num)

theorem pow2_natCast (k : ℕ) : pow2 (k : ℤ) = (2 : ℚ) ^ k := by
  change (((2 ^ k : ℕ)) : ℚ) = _
  push_cast
  rfl

theorem pow2_neg_succ (k : ℕ) : pow2 (Int.negSucc k) = ((2 : ℚ) ^ (k + 1))⁻¹ := by
  change mkRat 1 (2 ^ (k + 1)) = _
  rw [Rat.mkRat_eq_div]
  push_cast
  rw [one_div]

/-- The exponent of a positive natural number is that of its leading bit. -/
theorem exponent_natCast {n : ℕ} (hn : n ≠ 0) : exponent (n : ℚ) = (n.log2 : ℤ) := by
  have hle : pow2 (n.log2 : ℤ) ≤ (n : ℚ) := by
    rw [pow2_natCast]
    exact_mod_cast Nat.log2_self_le hn
  have hum : Nat.log2 1 = 0 := by decide
  unfold exponent
  simp only [Rat.num_natCast, Int.natAbs_natCast, Rat.den_natCast, hum, Nat.cast_zero, sub_zero]
  exact if_neg (not_lt_of_ge hle)

theorem nearest_natCast {n : ℕ} (hn : n ≠ 0) :
    nearest (n : ℚ) = roundHalfEven (n / pow2 ((n.log2 : ℤ) - 52)) * pow2 ((n.log2 : ℤ) - 52) := by
  have hmax : max ((n.log2 : ℤ) - 52) (-1074) = (n.log2 : ℤ) - 52 := max_eq_left (by omega)
  unfold nearest
  rw [if_neg (Nat.cast_ne_zero.mpr hn), abs_of_nonneg (Nat.cast_nonneg n), exponent_natCast hn]
  simp only [hmax]

/-- A natural number below `2 ^ 53` is a double. -/
theorem nearest_of_lt {n : ℕ} (h : n < 2 ^ 53) : nearest (n : ℚ) = n := by
  by_cases hn : n = 0
  · rw [hn]
    exact if_pos Nat.cast_zero
  · rw [nearest_natCast hn]
    have hlog : n.log2 < 53 := (Nat.log2_lt hn).mpr h
    rcases Nat.lt_or_ge n.log2 52 with hmenor | h52
    · obtain ⟨k, hk⟩ : ∃ k : ℕ, (n.log2 : ℤ) - 52 = Int.negSucc k :=
        ⟨51 - n.log2, by rw [Int.negSucc_eq]; omega⟩
      have hint : (n : ℚ) / ((2 : ℚ) ^ (k + 1))⁻¹ = ((n * 2 ^ (k + 1) : ℕ) : ℤ) := by
        rw [div_inv_eq_mul]
        push_cast
        rfl
      rw [hk, pow2_neg_succ, hint, roundHalfEven_intCast]
      push_cast
      rw [mul_assoc, mul_inv_cancel₀ (by positivity), mul_one]
    · have hzero : (n.log2 : ℤ) - 52 = (0 : ℕ) := by omega
      rw [hzero, pow2_natCast, pow_zero, div_one, mul_one]
      exact_mod_cast roundHalfEven_intCast n

/-- Every natural number rounds to an integer. -/
theorem exists_int_nearest (n : ℕ) : ∃ k : ℤ, nearest (n : ℚ) = k := by
  rcases Nat.lt_or_ge n (2 ^ 53) with h | h
  · exact ⟨n, nearest_of_lt h⟩
  · have hn : n ≠ 0 := by
      rintro rfl
      exact absurd h (by decide)
    have hlog : 53 ≤ n.log2 := (Nat.le_log2 hn).mpr h
    obtain ⟨k, hk⟩ : ∃ k : ℕ, (n.log2 : ℤ) - 52 = k := ⟨n.log2 - 52, by omega⟩
    refine ⟨roundHalfEven (n / pow2 k) * 2 ^ k, ?_⟩
    rw [nearest_natCast hn, hk, pow2_natCast]
    push_cast
    rfl

theorem int_of_ofRat {n : ℕ} {q : ℚ} (h : ofRat (n : ℚ) = some q) : ((q.floor : ℤ) : ℚ) = q := by
  unfold ofRat at h
  dsimp only at h
  split_ifs at h
  obtain ⟨k, hk⟩ := exists_int_nearest n
  cases h
  rw [hk, Rat.floor_intCast]

theorem floor_le_roundHalfEven (q : ℚ) : q.floor ≤ roundHalfEven q := by
  unfold roundHalfEven
  dsimp only
  split_ifs <;> omega

/-- Rounding keeps the sign. -/
theorem nearest_nonpos {q : ℚ} (h : q ≤ 0) : nearest q ≤ 0 := by
  have hpow : ∀ e : ℤ, 0 < pow2 e := by
    intro e
    cases e with
    | ofNat k =>
      rw [Int.ofNat_eq_natCast, pow2_natCast]
      positivity
    | negSucc k =>
      rw [pow2_neg_succ]
      positivity
  have hround : ∀ r : ℚ, r ≤ 0 → roundHalfEven r ≤ 0 := by
    intro r hr
    rcases hr.lt_or_eq with hr | rfl
    · have hfloor : r.floor < 0 := Rat.floor_lt_iff.mpr (by exact_mod_cast hr)
      unfold roundHalfEven
      dsimp only
      split_ifs <;> omega
    · exact (roundHalfEven_intCast 0).le
  unfold nearest
  split_ifs
  · exact le_rfl
  · refine mul_nonpos_of_nonpos_of_nonneg ?_ (hpow _).le
    exact_mod_cast hround _ (div_nonpos_of_nonpos_of_nonneg h (hpow _).le)

/-- Rounding does not cross the powers of two. -/
theorem two_pow_le_nearest {n k : ℕ} (hk : 52 ≤ k) (hn : 2 ^ k ≤ n) :
    (2 : ℚ) ^ k ≤ nearest (n : ℚ) := by
  have hzero : n ≠ 0 := fun h => by
    rw [h] at hn
    exact absurd hn (Nat.not_le_of_lt (Nat.two_pow_pos k))
  have hlog : k ≤ n.log2 := (Nat.le_log2 hzero).mpr hn
  obtain ⟨e, he⟩ : ∃ e : ℕ, n.log2 = e + 52 := ⟨n.log2 - 52, by omega⟩
  have hexp : (n.log2 : ℤ) - 52 = (e : ℤ) := by omega
  have hsignificando : ((2 ^ 52 : ℕ) : ℚ) ≤ n / (2 : ℚ) ^ e := by
    rw [le_div_iff₀ (by positivity)]
    have hlider := Nat.log2_self_le hzero
    rw [he, pow_add] at hlider
    rw [mul_comm]
    exact_mod_cast hlider
  have hfloor : (2 ^ 52 : ℕ) ≤ (n / (2 : ℚ) ^ e).floor := Rat.le_floor_iff.mpr hsignificando
  have hround := hfloor.trans (floor_le_roundHalfEven _)
  have hround : ((2 ^ 52 : ℕ) : ℚ) ≤ roundHalfEven (n / (2 : ℚ) ^ e) := by exact_mod_cast hround
  rw [nearest_natCast hzero, hexp, pow2_natCast]
  calc (2 : ℚ) ^ k ≤ 2 ^ (52 + e) := pow_le_pow_right₀ (by norm_num) (by omega)
    _ = ((2 ^ 52 : ℕ) : ℚ) * 2 ^ e := by
      rw [pow_add]
      push_cast
      rfl
    _ ≤ roundHalfEven (n / (2 : ℚ) ^ e) * 2 ^ e := by gcongr

theorem two_pow_le_of_ofRat {n k : ℕ} {q : ℚ} (hk : 52 ≤ k) (hn : 2 ^ k ≤ n)
    (h : ofRat (n : ℚ) = some q) : (2 : ℚ) ^ k ≤ q := by
  unfold ofRat at h
  dsimp only at h
  split_ifs at h
  cases h
  exact two_pow_le_nearest hk hn

/-- A natural number below `2 ^ 53` is itself as a double. -/
theorem ofRat_of_lt {n : ℕ} (h : n < 2 ^ 53) : ofRat (n : ℚ) = some (n : ℚ) := by
  have hfinito : |(n : ℚ)| < pow2 (1024 : ℕ) := by
    have hn : (n : ℚ) < (2 : ℚ) ^ 53 := by exact_mod_cast h
    rw [pow2_natCast, abs_of_nonneg (Nat.cast_nonneg n)]
    exact hn.trans (pow_lt_pow_right₀ (by norm_num) (by norm_num))
  unfold ofRat
  rw [nearest_of_lt h]
  exact if_pos hfinito

end Base.Binary64
