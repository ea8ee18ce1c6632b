import Mathlib.Algebra.Order.Ring.Nat
import Mathlib.Data.List.Basic
import Mathlib.Tactic.Common

/-!
# Files of records of one width

A file of records of the same width, one after the other, where the position of a record is
its index. Cutting such a file at a whole number of records keeps the first ones; reading at
a position finds the record that was written there. A number is written in a fixed number of
bytes, the least significant first.
-/

namespace Base.Registros

section

variable {α : Type} {w : ℕ} {rs : List (List α)}

/-- The record at a position. -/
def registro (w i : ℕ) (bs : List α) : List α := (bs.drop (w * i)).take w

/-- A file cut to a length, or filled up to it. -/
def comTamanho (zero : α) (n : ℕ) (bs : List α) : List α :=
  bs.take n ++ List.replicate (n - bs.length) zero

theorem length_flatten (h : ∀ r ∈ rs, r.length = w) : rs.flatten.length = w * rs.length := by
  induction rs with
  | nil => rfl
  | cons r rs ih =>
    obtain ⟨hr, hrs⟩ := List.forall_mem_cons.mp h
    rw [List.flatten_cons, List.length_append, hr, ih hrs, List.length_cons, Nat.mul_succ,
      Nat.add_comm]

theorem take_flatten (h : ∀ r ∈ rs, r.length = w) (n : ℕ) :
    rs.flatten.take (w * n) = (rs.take n).flatten := by
  induction rs generalizing n with
  | nil => simp
  | cons r rs ih =>
    obtain ⟨hr, hrs⟩ := List.forall_mem_cons.mp h
    cases n with
    | zero => simp
    | succ n =>
      have hlen : w * (n + 1) = r.length + w * n := by rw [hr, Nat.mul_succ, Nat.add_comm]
      rw [List.flatten_cons, hlen, List.take_length_add_append, ih hrs, List.take_succ_cons,
        List.flatten_cons]

theorem registro_flatten (h : ∀ r ∈ rs, r.length = w) (i : ℕ) :
    registro w i rs.flatten = rs[i]?.getD [] := by
  induction rs generalizing i with
  | nil => simp [registro]
  | cons r rs ih =>
    obtain ⟨hr, hrs⟩ := List.forall_mem_cons.mp h
    unfold registro
    cases i with
    | zero =>
      rw [Nat.mul_zero, List.drop_zero, List.flatten_cons, ← hr, List.take_left]
      rfl
    | succ i =>
      have hlen : w * (i + 1) = r.length + w * i := by rw [hr, Nat.mul_succ, Nat.add_comm]
      rw [List.flatten_cons, hlen, List.drop_length_add_append]
      exact ih hrs i

/-- Cutting a file at a position keeps the records before it. -/
theorem comTamanho_flatten (h : ∀ r ∈ rs, r.length = w) {n : ℕ} (hn : n ≤ rs.length) (zero : α) :
    comTamanho zero (w * n) rs.flatten = (rs.take n).flatten := by
  unfold comTamanho
  rw [length_flatten h, Nat.sub_eq_zero_of_le (Nat.mul_le_mul_left w hn), List.replicate_zero,
    List.append_nil, take_flatten h]

/-- A file that does not exist stands for an empty one, and is not cut. -/
theorem getD_comTamanho (hw : 0 < w) (h : ∀ r ∈ rs, r.length = w) {arquivo : Option (List α)}
    (harquivo : arquivo.getD [] = rs.flatten) {n : ℕ} (hn : n ≤ rs.length) (zero : α) :
    (arquivo.map (comTamanho zero (w * n))).getD [] = (rs.take n).flatten := by
  cases arquivo with
  | none =>
    have hlen := length_flatten h
    rw [← harquivo] at hlen
    have hvazio : rs.length = 0 := (Nat.mul_eq_zero.mp hlen.symm).resolve_left (Nat.ne_of_gt hw)
    rw [List.length_eq_zero_iff.mp hvazio, List.take_nil]
    rfl
  | some bs =>
    obtain rfl : bs = rs.flatten := harquivo
    exact comTamanho_flatten h hn zero

end

/-! ## Numbers -/

/-- The `n` low bytes of a number, the least significant first. -/
def littleEndian : ℕ → ℕ → List UInt8
  | 0, _ => []
  | n + 1, x => UInt8.ofNat x :: littleEndian n (x / 256)

def deLittleEndian (bs : List UInt8) : ℕ := bs.foldr (fun b x => b.toNat + 256 * x) 0

theorem littleEndian_length (n x : ℕ) : (littleEndian n x).length = n := by
  induction n generalizing x with
  | zero => rfl
  | succ n ih => rw [littleEndian, List.length_cons, ih]

theorem deLittleEndian_littleEndian {n x : ℕ} (h : x < 256 ^ n) :
    deLittleEndian (littleEndian n x) = x := by
  induction n generalizing x with
  | zero =>
    obtain rfl : x = 0 := by simpa using h
    rfl
  | succ n ih =>
    have hq : x / 256 < 256 ^ n := by
      rw [Nat.div_lt_iff_lt_mul (by decide)]
      exact h
    have hcauda : deLittleEndian (littleEndian n (x / 256)) = x / 256 := ih hq
    unfold deLittleEndian at hcauda ⊢
    rw [littleEndian, List.foldr_cons, hcauda, UInt8.toNat_ofNat']
    exact Nat.mod_add_div x 256

end Base.Registros
