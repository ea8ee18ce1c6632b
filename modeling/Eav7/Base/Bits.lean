import Mathlib.Algebra.Order.Ring.Nat
import Mathlib.Data.Nat.Bitwise

/-!
# Words of one width read as words of another

A sequence of words is a sequence of bits. The machine that changes the width keeps the bits
not yet given in an accumulator of a fixed size. It gives the words of the whole sequence as
long as the accumulator holds what is pending and one word more.
-/

namespace Base.Bits

/-- The low `k` bits of a number, the highest first. -/
def escrita : ℕ → ℕ → List Bool
  | 0, _ => []
  | k + 1, n => n.testBit k :: escrita k n

def valor (bs : List Bool) : ℕ := bs.foldl (fun n b => 2 * n + b.toNat) 0

/-- The words of `k` bits of a sequence. An incomplete last word is left out. -/
def grupos (k : ℕ) (bs : List Bool) : List ℕ :=
  if _h : k = 0 ∨ bs.length < k then [] else valor (bs.take k) :: grupos k (bs.drop k)
termination_by bs.length
decreasing_by
  rw [List.length_drop]
  omega

/-- Words of `i` bits come in, words of `o` bits go out, the accumulator has `w` bits. -/
def regrupa (i o w : ℕ) : List ℕ → (acumulador bits : ℕ) → List ℕ
  | [], _, _ => []
  | v :: vs, acumulador, bits =>
    let acumulador := acumulador * 2 ^ i % 2 ^ w + v
    let bits := bits + i
    if o ≤ bits then
      acumulador / 2 ^ (bits - o) % 2 ^ o :: regrupa i o w vs acumulador (bits - o)
    else regrupa i o w vs acumulador bits

@[simp] theorem length_escrita (k n : ℕ) : (escrita k n).length = k := by
  induction k with
  | zero => rfl
  | succ k ih => rw [escrita, List.length_cons, ih]

theorem escrita_congr {k n m : ℕ} (h : n % 2 ^ k = m % 2 ^ k) : escrita k n = escrita k m := by
  induction k with
  | zero => rfl
  | succ k ih =>
    have hbit : n.testBit k = m.testBit k := by
      have hn := Nat.testBit_mod_two_pow n (k + 1) k
      have hm := Nat.testBit_mod_two_pow m (k + 1) k
      simp only [Nat.lt_succ_self, decide_true, Bool.true_and] at hn hm
      rw [← hn, ← hm, h]
    have hresto : n % 2 ^ k = m % 2 ^ k := by
      have hdvd : 2 ^ k ∣ 2 ^ (k + 1) := Nat.pow_dvd_pow 2 (Nat.le_succ k)
      rw [← Nat.mod_mod_of_dvd n hdvd, h, Nat.mod_mod_of_dvd m hdvd]
    rw [escrita, escrita, hbit, ih hresto]

@[simp] theorem escrita_zero (k : ℕ) : escrita k 0 = List.replicate k false := by
  induction k with
  | zero => rfl
  | succ k ih => rw [escrita, ih, Nat.zero_testBit, List.replicate_succ]

/-- Writing more bits writes the high ones first. -/
theorem escrita_add (j k n : ℕ) : escrita (j + k) n = escrita j (n / 2 ^ k) ++ escrita k n := by
  induction j with
  | zero => rw [Nat.zero_add]; rfl
  | succ j ih =>
    rw [Nat.add_right_comm, escrita, escrita, ih, Nat.testBit_div_two_pow, List.cons_append]

theorem escrita_concat {k m : ℕ} (j n : ℕ) (hm : m < 2 ^ k) :
    escrita (j + k) (n * 2 ^ k + m) = escrita j n ++ escrita k m := by
  have hdiv : (n * 2 ^ k + m) / 2 ^ k = n := by
    rw [Nat.mul_comm, Nat.mul_add_div (Nat.two_pow_pos k), Nat.div_eq_of_lt hm, Nat.add_zero]
  rw [escrita_add, hdiv, escrita_congr (Nat.mul_add_mod_self_right n (2 ^ k) m)]

theorem valor_append_singleton (bs : List Bool) (b : Bool) :
    valor (bs ++ [b]) = 2 * valor bs + b.toNat := by
  rw [valor, List.foldl_append]
  rfl

theorem valor_escrita (k n : ℕ) : valor (escrita k n) = n % 2 ^ k := by
  induction k generalizing n with
  | zero => rw [Nat.pow_zero, Nat.mod_one]; rfl
  | succ k ih =>
    -- the last bit is the lowest one
    have hfim : escrita (k + 1) n = escrita k (n / 2) ++ [n.testBit 0] := by
      have h := escrita_add k 1 n
      rwa [Nat.pow_one] at h
    rw [hfim, valor_append_singleton, ih, Nat.testBit_zero, Nat.pow_succ', Nat.mod_mul]
    rcases Nat.mod_two_eq_zero_or_one n with h | h
    · simp [h]
    · simp [h, Nat.add_comm]

/-! ## Words of a sequence -/

theorem grupos_of_length_lt {k : ℕ} {bs : List Bool} (h : bs.length < k) : grupos k bs = [] := by
  rw [grupos, dif_pos (.inr h)]

theorem grupos_escrita_append {k : ℕ} (hk : 0 < k) (n : ℕ) (bs : List Bool) :
    grupos k (escrita k n ++ bs) = n % 2 ^ k :: grupos k bs := by
  have hlen : ¬ (k = 0 ∨ (escrita k n ++ bs).length < k) := by
    rw [List.length_append, length_escrita]
    omega
  rw [grupos, dif_neg hlen, List.take_left' (length_escrita k n),
    List.drop_left' (length_escrita k n), valor_escrita]

/-- The words of a sequence are the ones it was written from. -/
theorem grupos_flatMap_escrita {k : ℕ} (hk : 0 < k) {ns : List ℕ} {resto : List Bool}
    (hns : ∀ n ∈ ns, n < 2 ^ k) (hresto : resto.length < k) :
    grupos k (ns.flatMap (escrita k) ++ resto) = ns := by
  induction ns with
  | nil => exact grupos_of_length_lt hresto
  | cons n ns ih =>
    obtain ⟨hn, hns⟩ := List.forall_mem_cons.mp hns
    rw [List.flatMap_cons, List.append_assoc, grupos_escrita_append hk, Nat.mod_eq_of_lt hn,
      ih hns]

/-! ## The machine -/

section

variable {i o w : ℕ}

/-- The accumulator is never cleared: only its low bits, the pending ones, matter. -/
theorem escrita_acumulador {bits v : ℕ} (acumulador : ℕ) (hw : bits + i ≤ w) (hv : v < 2 ^ i) :
    escrita (bits + i) (acumulador * 2 ^ i % 2 ^ w + v) =
      escrita bits acumulador ++ escrita i v := by
  have hmod : (acumulador * 2 ^ i % 2 ^ w + v) % 2 ^ (bits + i) =
      (acumulador * 2 ^ i + v) % 2 ^ (bits + i) := by
    rw [Nat.add_mod, Nat.mod_mod_of_dvd _ (Nat.pow_dvd_pow 2 hw), ← Nat.add_mod]
  rw [escrita_congr hmod, escrita_concat bits acumulador hv]

/-- The machine gives the words of what is pending followed by what is still to come. -/
theorem regrupa_eq_grupos (hi : 0 < i) (hio : i ≤ o) (hw : o + i ≤ w + 1) {vs : List ℕ}
    (hvs : ∀ v ∈ vs, v < 2 ^ i) {acumulador bits : ℕ} (hbits : bits < o) :
    regrupa i o w vs acumulador bits =
      grupos o (escrita bits acumulador ++ vs.flatMap (escrita i)) := by
  induction vs generalizing acumulador bits with
  | nil =>
    rw [List.flatMap_nil, List.append_nil, grupos_of_length_lt (by rwa [length_escrita])]
    rfl
  | cons v vs ih =>
    obtain ⟨hv, hvs⟩ := List.forall_mem_cons.mp hvs
    have hcabe : bits + i ≤ w := by omega
    have hpendente := escrita_acumulador acumulador hcabe hv
    rw [List.flatMap_cons, ← List.append_assoc, ← hpendente]
    unfold regrupa
    dsimp only
    split_ifs with ho
    · -- a word is complete: it is the high part of what is pending
      have hparte : bits + i = o + (bits + i - o) := by omega
      rw [ih hvs (by omega)]
      conv_rhs => rw [hparte, escrita_add, List.append_assoc]
      rw [grupos_escrita_append (hi.trans_le hio)]
    · exact ih hvs (by omega)

end

end Base.Bits
