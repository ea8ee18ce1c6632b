import Eav7.Eavm.Vm

/-!
# Signed arithmetic against two's complement

A word stands for the integer of its two's complement reading. Each signed routine of the
machine goes through magnitudes and negations that wrap; it computes the word of what the
integers say.
-/

namespace Eav7.Eavm

/-! ## Signs and magnitudes -/

theorem neg_eq (x : Word) : neg x = -x := (BitVec.neg_eq_not_add x).symm

/-- The greatest magnitude is the one of the least word, which stays as it is. -/
theorem abs_eq (x : Word) : abs x = if x.msb then -x else x := by
  unfold abs negativo
  rw [neg_eq]

theorem slt_eq_slt (a b : Word) : slt a b = a.slt b := by
  have higuais (h : a.msb = b.msb) : decide (a.toNat < b.toNat) = a.slt b := by
    rw [BitVec.slt_eq_ult_of_msb_eq h, BitVec.ult_eq_decide]
  have hopostos (h : a.msb ≠ b.msb) : a.slt b = !decide (a.toNat < b.toNat) := by
    rw [BitVec.slt_eq_not_ult_of_msb_neq h, BitVec.ult_eq_decide]
  have hmaior (h : a.msb = true) : 2 ^ 255 ≤ a.toNat := BitVec.le_toNat_of_msb_true h
  have hmenor (h : b.msb = false) : b.toNat < 2 ^ 255 := BitVec.toNat_lt_of_msb_false h
  unfold slt negativo
  cases ha : a.msb <;> cases hb : b.msb
  · exact higuais (ha.trans hb.symm)
  · have := BitVec.toNat_lt_of_msb_false ha
    have := BitVec.le_toNat_of_msb_true hb
    rw [hopostos (by rw [ha, hb]; decide), decide_eq_true (by omega)]
    rfl
  · rw [hopostos (by rw [ha, hb]; decide), decide_eq_false (by have := hmaior ha; have := hmenor hb; omega)]
    rfl
  · exact higuais (ha.trans hb.symm)

/-! ## Quotient and remainder -/

theorem sinais_do_quociente (a b : Word) :
    (if negativo a != negativo b then neg (abs a / abs b) else abs a / abs b) = a.sdiv b := by
  rw [BitVec.sdiv_eq, abs_eq, abs_eq, neg_eq]
  unfold negativo
  cases a.msb <;> cases b.msb <;> rfl

theorem sdiv_eq_sdiv (a b : Word) : sdiv a b = a.sdiv b := by
  unfold sdiv
  by_cases hb : b = 0
  · rw [if_pos hb, hb]
    exact BitVec.sdiv_zero.symm
  · rw [if_neg hb]
    exact sinais_do_quociente a b

theorem smod_eq_srem {a b : Word} (hb : b ≠ 0) : smod a b = a.srem b := by
  unfold smod
  rw [if_neg hb, BitVec.srem_eq, abs_eq, abs_eq]
  unfold negativo
  simp only [neg_eq]
  cases a.msb <;> cases b.msb <;> rfl

/-- The quotient cut towards zero, also of the least word by minus one, where it wraps. -/
theorem sdiv_eq_tdiv (a b : Word) : sdiv a b = BitVec.ofInt 256 (a.toInt.tdiv b.toInt) := by
  apply BitVec.eq_of_toInt_eq
  rw [sdiv_eq_sdiv, BitVec.toInt_sdiv, BitVec.toInt_ofInt]

theorem smod_eq_tmod {a b : Word} (hb : b ≠ 0) :
    smod a b = BitVec.ofInt 256 (a.toInt.tmod b.toInt) := by
  rw [smod_eq_srem hb, ← BitVec.toInt_srem, BitVec.ofInt_toInt]

/-! ## Shifts -/

theorem getElem_todos {i : ℕ} (hi : i < 256) : (~~~(0 : Word))[i] = true := by
  rw [BitVec.getElem_not]
  exact congrArg not (BitVec.getElem_zero hi)

/-- From the width on, a shift leaves the sign alone. -/
theorem sshiftRight_of_le {v : Word} {n : ℕ} (h : 256 ≤ n) :
    v.sshiftRight n = if v.msb then ~~~0 else 0 := by
  ext i hi
  rw [BitVec.getElem_sshiftRight, dif_neg (by omega)]
  cases v.msb
  · exact (BitVec.getElem_zero hi).symm
  · exact (getElem_todos hi).symm

/-- The ones that the machine adds are the bits that the shift left empty. -/
theorem sar_eq_sshiftRight (s v : Word) : sar s v = v.sshiftRight s.toNat := by
  unfold sar negativo
  split_ifs with hlargo hneg hneg
  · rw [sshiftRight_of_le hlargo, if_pos hneg]
  · rw [sshiftRight_of_le hlargo, if_neg hneg]
  · ext i hi
    have hfora : i < 256 - s.toNat ↔ s.toNat + i < 256 := by omega
    simp only [BitVec.getElem_or, BitVec.getElem_ushiftRight, BitVec.getElem_shiftLeft,
      BitVec.getElem_sshiftRight, hfora]
    by_cases hdentro : s.toNat + i < 256
    · simp [hdentro]
    · rw [decide_eq_false hdentro, getElem_todos, hneg.1]
      simp [hdentro]
  · rcases not_and_or.mp hneg with hpos | hzero
    · rw [BitVec.sshiftRight_eq_of_msb_false (Bool.eq_false_of_not_eq_true hpos)]
    · rw [Nat.eq_zero_of_not_pos hzero, BitVec.sshiftRight_zero]
      exact BitVec.ushiftRight_zero v

theorem sar_eq_fdiv (s v : Word) : sar s v = BitVec.ofInt 256 (v.toInt.fdiv (2 ^ s.toNat)) := by
  apply BitVec.eq_of_toInt_eq
  have hpos : (0 : ℤ) ≤ 2 ^ s.toNat := by positivity
  have hdiv : (v.toInt.fdiv (2 ^ s.toNat)) = (v.sshiftRight s.toNat).toInt := by
    rw [BitVec.toInt_sshiftRight, Int.shiftRight_eq_div_pow, Int.fdiv_eq_ediv_of_nonneg _ hpos]
    push_cast
    rfl
  rw [sar_eq_sshiftRight, hdiv, BitVec.ofInt_toInt]

/-! ## Sign extension -/

/-- The mask of the bits below a place. -/
theorem getLsbD_mascara {bit i : ℕ} (hbit : bit < 256) :
    (((1 : Word) <<< bit) - 1).getLsbD i = decide (i < bit) := by
  have hlt : 2 ^ bit < 2 ^ 256 := Nat.pow_lt_pow_right (by decide) hbit
  have hum : (1 : Word) <<< bit = BitVec.ofNat 256 (2 ^ bit) := by
    apply BitVec.eq_of_toNat_eq
    rw [BitVec.toNat_shiftLeft, BitVec.toNat_ofNat, Nat.shiftLeft_eq]
    simp
  have hval : (((1 : Word) <<< bit) - 1).toNat = 2 ^ bit - 1 := by
    have hpos := Nat.two_pow_pos bit
    rw [hum, BitVec.toNat_sub_of_le, BitVec.toNat_ofNat, Nat.mod_eq_of_lt hlt]
    · rfl
    · rw [BitVec.le_def, BitVec.toNat_ofNat, Nat.mod_eq_of_lt hlt]
      exact hpos
  rw [BitVec.getLsbD, hval, Nat.testBit_two_pow_sub_one]

/-- The low bytes up to byte `b`, read as a signed number of their own width. -/
theorem signextend_eq_signExtend {b x : Word} (hb : b.toNat < 32) :
    signextend b x = (x.setWidth (8 * (b.toNat + 1))).signExtend 256 := by
  have hbit : b.toNat * 8 + 7 < 256 := by omega
  have hmsb : (x.setWidth (8 * (b.toNat + 1))).msb = x.getLsbD (b.toNat * 8 + 7) := by
    rw [BitVec.msb_setWidth]
    have h : 8 * (b.toNat + 1) - 1 = b.toNat * 8 + 7 := by omega
    rw [h]
    simp
  unfold signextend
  rw [if_neg (by omega)]
  dsimp only
  apply BitVec.eq_of_getLsbD_eq
  intro i hi
  rw [BitVec.getLsbD_signExtend, hmsb, BitVec.getLsbD_setWidth, decide_eq_true hi, Bool.true_and]
  cases hsinal : x.getLsbD (b.toNat * 8 + 7)
  · rw [if_neg nofun, BitVec.getLsbD_and, getLsbD_mascara hbit]
    by_cases hlt : i < b.toNat * 8 + 7
    · rw [if_pos (by omega), decide_eq_true hlt, decide_eq_true (by omega)]
      exact Bool.and_comm _ _
    · rw [decide_eq_false hlt, Bool.and_false]
      split_ifs with hdentro
      · rw [show i = b.toNat * 8 + 7 by omega, hsinal, Bool.and_false]
      · rfl
  · rw [if_pos rfl, BitVec.getLsbD_or, BitVec.getLsbD_not, getLsbD_mascara hbit]
    by_cases hlt : i < b.toNat * 8 + 7
    · rw [if_pos (by omega), decide_eq_true hlt, decide_eq_true (by omega : i < 8 * (b.toNat + 1))]
      simp
    · rw [decide_eq_false hlt, decide_eq_true hi]
      split_ifs with hdentro
      · rw [show i = b.toNat * 8 + 7 by omega, hsinal, decide_eq_true (by omega)]
        rfl
      · simp

theorem signextend_eq_toInt {b x : Word} (hb : b.toNat < 32) :
    signextend b x = BitVec.ofInt 256 (x.setWidth (8 * (b.toNat + 1))).toInt := by
  rw [signextend_eq_signExtend hb]
  rfl

/-! ## Exponentiation -/

/-- What the squaring loop holds. -/
structure Quadrados where
  r : Word
  base : Word
  exp : Word

/-- One turn of the squaring loop. -/
def Quadrados.volta (q : Quadrados) : Quadrados where
  r := if q.exp.getLsbD 0 then q.r * q.base else q.r
  base := q.base * q.base
  exp := q.exp >>> 1

theorem exp_volta (q : Quadrados) (n : ℕ) :
    (Quadrados.volta^[n] q).exp.toNat = q.exp.toNat / 2 ^ n := by
  induction n generalizing q with
  | zero => simp
  | succ n ih =>
    rw [Function.iterate_succ_apply, ih, Nat.pow_succ', ← Nat.div_div_eq_div_mul]
    exact congrArg (· / 2 ^ n) (toNat_shiftRight_one q.exp)

/-- The turns of the loop, up to the first one that finds the exponent at zero. -/
theorem expLaco_eq_volta {n : ℕ} {q : Quadrados} (hfim : (Quadrados.volta^[n] q).exp = 0)
    (hantes : ∀ m < n, (Quadrados.volta^[m] q).exp ≠ 0) (k : ℕ) :
    expLaco (n + k) q.r q.base q.exp = (Quadrados.volta^[n] q).r := by
  induction n generalizing q with
  | zero =>
    have hzero : q.exp = 0 := hfim
    rw [Nat.zero_add]
    cases k with
    | zero => rfl
    | succ k => rw [expLaco, if_pos hzero]; rfl
  | succ n ih =>
    have hne : q.exp ≠ 0 := hantes 0 (Nat.succ_pos n)
    rw [Nat.succ_add, expLaco, if_neg hne]
    exact ih (q := q.volta) hfim fun m hm => hantes (m + 1) (Nat.succ_lt_succ hm)

/-- The loop ends: it takes one turn for each bit of the exponent, at most 256. -/
theorem expMod2_256_termina (base exp : Word) :
    ∃ n ≤ 256, (Quadrados.volta^[n] ⟨1, base, exp⟩).exp = 0 ∧
      (∀ m < n, (Quadrados.volta^[m] ⟨1, base, exp⟩).exp ≠ 0) ∧
      expMod2_256 base exp = (Quadrados.volta^[n] ⟨1, base, exp⟩).r := by
  have hfim (n : ℕ) : (Quadrados.volta^[n] ⟨1, base, exp⟩).exp = 0 ↔ exp.toNat / 2 ^ n = 0 := by
    rw [← exp_volta ⟨1, base, exp⟩ n]
    exact BitVec.toNat_eq.trans Iff.rfl
  have hexiste : ∃ n, exp.toNat / 2 ^ n = 0 := ⟨256, Nat.div_eq_of_lt exp.isLt⟩
  have hmin : Nat.find hexiste ≤ 256 := Nat.find_min' hexiste (Nat.div_eq_of_lt exp.isLt)
  have hzero := (hfim _).mpr (Nat.find_spec hexiste)
  have hantes (m : ℕ) (hm : m < Nat.find hexiste) :
      (Quadrados.volta^[m] ⟨1, base, exp⟩).exp ≠ 0 := fun h => Nat.find_min hexiste hm ((hfim m).mp h)
  refine ⟨_, hmin, hzero, hantes, ?_⟩
  have h := expLaco_eq_volta (q := ⟨1, base, exp⟩) hzero hantes (256 - Nat.find hexiste)
  rwa [Nat.add_sub_cancel' hmin] at h

theorem expMod2_256_toNat (base exp : Word) :
    (expMod2_256 base exp).toNat = base.toNat ^ exp.toNat % 2 ^ 256 := by
  rw [expMod2_256_eq]
  induction exp.toNat with
  | zero => rfl
  | succ n ih => rw [pow_succ, BitVec.toNat_mul, ih, Nat.mod_mul_mod, ← pow_succ base.toNat]

/-! ## The signed instructions -/

/-- Every signed instruction and the exponentiation computes the word of its
specification over the integers. -/
theorem aritmetica_com_sinal (a b : Word) :
    sdiv a b = BitVec.ofInt 256 (a.toInt.tdiv b.toInt) ∧
      sdiv a 0 = 0 ∧ sdiv (BitVec.intMin 256) (-1) = BitVec.intMin 256 ∧
      smod a b = (if b = 0 then 0 else BitVec.ofInt 256 (a.toInt.tmod b.toInt)) ∧
      slt a b = decide (a.toInt < b.toInt) ∧
      Binaria.slt.valor a b = ofBool (decide (a.toInt < b.toInt)) ∧
      Binaria.sgt.valor a b = ofBool (decide (b.toInt < a.toInt)) ∧
      sar a b = BitVec.ofInt 256 (b.toInt.fdiv (2 ^ a.toNat)) ∧
      signextend a b = (if a.toNat < 32 then
        BitVec.ofInt 256 (b.setWidth (8 * (a.toNat + 1))).toInt else b) ∧
      (expMod2_256 a b).toNat = a.toNat ^ b.toNat % 2 ^ 256 ∧
      ∃ n ≤ 256, (Quadrados.volta^[n] ⟨1, a, b⟩).exp = 0 ∧
        (∀ m < n, (Quadrados.volta^[m] ⟨1, a, b⟩).exp ≠ 0) ∧
        expMod2_256 a b = (Quadrados.volta^[n] ⟨1, a, b⟩).r := by
  have hslt (x y : Word) : slt x y = decide (x.toInt < y.toInt) := slt_eq_slt x y
  refine ⟨sdiv_eq_tdiv a b, if_pos rfl, ?_, ?_, hslt a b, congrArg ofBool (hslt a b),
    congrArg ofBool (hslt b a), sar_eq_fdiv a b, ?_, expMod2_256_toNat a b,
    expMod2_256_termina a b⟩
  · rw [sdiv_eq_sdiv]
    exact BitVec.intMin_sdiv_neg_one
  · split_ifs with hb
    · rw [hb]
      exact if_pos rfl
    · exact smod_eq_tmod hb
  · split_ifs with ha
    · exact signextend_eq_toInt ha
    · exact if_pos (not_lt.mp ha)

end Eav7.Eavm
