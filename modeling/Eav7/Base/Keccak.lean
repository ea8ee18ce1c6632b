import Mathlib.Data.Nat.Bitwise
import Mathlib.Data.Nat.Notation

/-!
# The Keccak sponge

SHA3-256 and Keccak-256 on lists of bytes. The state is one natural number of
1600 bits, lane `x + 5y` at bit `64 (x + 5y)`, so a permutation is a few dozen
operations on large numbers.
-/

namespace Base.Keccak

def mascara64 : ℕ := 2 ^ 64 - 1

def mascara320 : ℕ := 2 ^ 320 - 1

def mascara1600 : ℕ := 2 ^ 1600 - 1

def rotl (x n : ℕ) : ℕ := ((x <<< n) &&& mascara64) ||| (x >>> (64 - n))

def lane (s i : ℕ) : ℕ := (s >>> (64 * i)) &&& mascara64

/-- One bit in each of the five lanes of a plane. -/
def bits5 : ℕ := 1 + 2 ^ 64 + 2 ^ 128 + 2 ^ 192 + 2 ^ 256

/-- One bit in each of the five planes of the state. -/
def planos5 : ℕ := 1 + 2 ^ 320 + 2 ^ 640 + 2 ^ 960 + 2 ^ 1280

/-- Rotates every lane of a plane by one. -/
def roda1 (p : ℕ) : ℕ := ((p &&& (bits5 * (2 ^ 63 - 1))) <<< 1) ||| ((p >>> 63) &&& bits5)

def theta (s : ℕ) : ℕ :=
  let c := (s ^^^ (s >>> 320) ^^^ (s >>> 640) ^^^ (s >>> 960) ^^^ (s >>> 1280)) &&& mascara320
  let r := roda1 c
  let esquerda := ((c <<< 64) &&& mascara320) ||| (c >>> 256)
  let direita := (r >>> 64) ||| ((r &&& mascara64) <<< 256)
  s ^^^ ((esquerda ^^^ direita) * planos5)

/-- Source lane, rotation and destination lane of the rho and pi steps. -/
def tabelaRhoPi : List (ℕ × ℕ × ℕ) :=
  [(0, 0, 0), (1, 1, 10), (2, 62, 20), (3, 28, 5), (4, 27, 15),
    (5, 36, 16), (6, 44, 1), (7, 6, 11), (8, 55, 21), (9, 20, 6),
    (10, 3, 7), (11, 10, 17), (12, 43, 2), (13, 25, 12), (14, 39, 22),
    (15, 41, 23), (16, 45, 8), (17, 15, 18), (18, 21, 3), (19, 8, 13),
    (20, 18, 14), (21, 2, 24), (22, 61, 9), (23, 56, 19), (24, 14, 4)]

def rhoPi (s : ℕ) : List (ℕ × ℕ × ℕ) → ℕ → ℕ
  | [], acc => acc
  | (i, r, j) :: t, acc => rhoPi s t (acc ||| (rotl (lane s i) r <<< (64 * j)))

/-- Each lane replaced by the next one of its plane. -/
def proxima (s : ℕ) : ℕ :=
  ((s >>> 64) &&& (planos5 * (2 ^ 256 - 1))) ||| ((s &&& (planos5 * mascara64)) <<< 256)

def chi (s : ℕ) : ℕ :=
  let a := proxima s
  s ^^^ ((a ^^^ mascara1600) &&& proxima a)

def constantes : List ℕ :=
  [0x0000000000000001, 0x0000000000008082, 0x800000000000808A, 0x8000000080008000,
    0x000000000000808B, 0x0000000080000001, 0x8000000080008081, 0x8000000000008009,
    0x000000000000008A, 0x0000000000000088, 0x0000000080008009, 0x000000008000000A,
    0x000000008000808B, 0x800000000000008B, 0x8000000000008089, 0x8000000000008003,
    0x8000000000008002, 0x8000000000000080, 0x000000000000800A, 0x800000008000000A,
    0x8000000080008081, 0x8000000000008080, 0x0000000080000001, 0x8000000080008008]

def rodadas : List ℕ → ℕ → ℕ
  | [], s => s
  | rc :: t, s => rodadas t (chi (rhoPi (theta s) tabelaRhoPi 0) ^^^ rc)

def permuta (s : ℕ) : ℕ := rodadas constantes s

def deBytes : List UInt8 → ℕ
  | [] => 0
  | b :: bs => b.toNat + 256 * deBytes bs

/-- The lowest bytes of a number, least significant first. -/
def paraBytes : ℕ → ℕ → List UInt8
  | 0, _ => []
  | n + 1, x => UInt8.ofNat x :: paraBytes n (x / 256)

/-- Absorbs blocks of 136 bytes; the last one carries the domain byte and the padding. -/
def absorve (dominio : ℕ) : ℕ → List UInt8 → ℕ → ℕ
  | 0, _, s => s
  | n + 1, bs, s =>
    if bs.length < 136 then
      permuta (s ^^^ (deBytes bs ^^^ (dominio <<< (8 * bs.length)) ^^^ (0x80 <<< (8 * 135))))
    else absorve dominio n (bs.drop 136) (permuta (s ^^^ deBytes (bs.take 136)))

def digest (dominio : ℕ) (bs : List UInt8) : List UInt8 :=
  paraBytes 32 (absorve dominio (bs.length + 1) bs 0)

def sha3 (bs : List UInt8) : List UInt8 := digest 6 bs

def keccak256 (bs : List UInt8) : List UInt8 := digest 1 bs

theorem paraBytes_length (n x : ℕ) : (paraBytes n x).length = n := by
  induction n generalizing x with
  | zero => rfl
  | succ n ih => rw [paraBytes, List.length_cons, ih]

theorem sha3_length (bs : List UInt8) : (sha3 bs).length = 32 := paraBytes_length 32 _

theorem keccak256_length (bs : List UInt8) : (keccak256 bs).length = 32 := paraBytes_length 32 _

example : sha3 [] =
    [0xa7, 0xff, 0xc6, 0xf8, 0xbf, 0x1e, 0xd7, 0x66, 0x51, 0xc1, 0x47, 0x56, 0xa0, 0x61, 0xd6,
      0x62, 0xf5, 0x80, 0xff, 0x4d, 0xe4, 0x3b, 0x49, 0xfa, 0x82, 0xd8, 0x0a, 0x4b, 0x80, 0xf8,
      0x43, 0x4a] := by
  decide +kernel

/-! ## The permutation in few operations -/

/-- A lane rotated and moved, its two pieces cut out of the state. -/
def desloca (s i r j : ℕ) : ℕ :=
  Nat.lor (Nat.shiftLeft (Nat.land (Nat.shiftRight s (64 * i)) (2 ^ (64 - r) - 1)) (64 * j + r))
    (Nat.shiftLeft (Nat.land (Nat.shiftRight s (64 * i + (64 - r))) (2 ^ r - 1)) (64 * j))

theorem testBit_rotl_lane {r : ℕ} (hr : r ≤ 64) (s i k : ℕ) : (rotl (lane s i) r).testBit k =
    ((decide (r ≤ k ∧ k < 64) && s.testBit (64 * i + (k - r))) ||
      (decide (k < r) && s.testBit (64 * i + (64 - r) + k))) := by
  unfold rotl lane mascara64
  simp only [Nat.testBit_or, Nat.testBit_and, Nat.testBit_shiftLeft, Nat.testBit_shiftRight,
    Nat.testBit_two_pow_sub_one]
  by_cases hk : k < r
  · have h1 : ¬ r ≤ k := by omega
    have h2 : 64 - r + k < 64 := by omega
    simp [hk, h1, h2, Nat.add_assoc]
  · have h1 : r ≤ k := by omega
    have h2 : ¬ 64 - r + k < 64 := by omega
    by_cases h3 : k < 64
    · have h4 : k - r < 64 := by omega
      simp [hk, h1, h2, h3, h4]
    · simp [hk, h1, h2, h3]

theorem desloca_eq {r : ℕ} (hr : r ≤ 64) (s i j : ℕ) :
    desloca s i r j = rotl (lane s i) r <<< (64 * j) := by
  refine Nat.eq_of_testBit_eq fun b => ?_
  change ((((s >>> (64 * i)) &&& (2 ^ (64 - r) - 1)) <<< (64 * j + r)) |||
    (((s >>> (64 * i + (64 - r))) &&& (2 ^ r - 1)) <<< (64 * j))).testBit b = _
  simp only [Nat.testBit_or, Nat.testBit_and, Nat.testBit_shiftLeft, Nat.testBit_shiftRight,
    Nat.testBit_two_pow_sub_one, testBit_rotl_lane hr]
  by_cases hj : 64 * j ≤ b
  · obtain ⟨k, rfl⟩ := Nat.exists_eq_add_of_le hj
    by_cases hk : r ≤ k
    · have h1 : 64 * j + k - (64 * j + r) = k - r := by omega
      have h2 : ¬ k < r := by omega
      have h3 : k - r < 64 - r ↔ k < 64 := by omega
      simp [hk, h1, h2, h3, Bool.and_comm]
    · have h2 : k < r := by omega
      simp [hk, h2]
  · have h1 : ¬ 64 * j + r ≤ b := by omega
    simp [hj, h1]

/-- All the lanes of a table moved. -/
def deslocaTodas (s : ℕ) : List (ℕ × ℕ × ℕ) → ℕ
  | [] => 0
  | (i, r, j) :: t => Nat.lor (desloca s i r j) (deslocaTodas s t)

theorem rhoPi_eq (s : ℕ) {t : List (ℕ × ℕ × ℕ)} (h : ∀ e ∈ t, e.2.1 ≤ 64) (acc : ℕ) :
    rhoPi s t acc = acc ||| deslocaTodas s t := by
  induction t generalizing acc with
  | nil => exact (Nat.or_zero acc).symm
  | cons e t ih =>
    obtain ⟨he, ht⟩ := List.forall_mem_cons.mp h
    rw [rhoPi, ih ht, ← desloca_eq he, Nat.or_assoc]
    rfl

/-- The lanes of the table of the permutation, one by one. -/
def rhoPiDireto (s : ℕ) : ℕ :=
  Nat.lor (desloca s 0 0 0) (Nat.lor (desloca s 1 1 10) (Nat.lor (desloca s 2 62 20)
    (Nat.lor (desloca s 3 28 5) (Nat.lor (desloca s 4 27 15) (Nat.lor (desloca s 5 36 16)
    (Nat.lor (desloca s 6 44 1) (Nat.lor (desloca s 7 6 11) (Nat.lor (desloca s 8 55 21)
    (Nat.lor (desloca s 9 20 6) (Nat.lor (desloca s 10 3 7) (Nat.lor (desloca s 11 10 17)
    (Nat.lor (desloca s 12 43 2) (Nat.lor (desloca s 13 25 12) (Nat.lor (desloca s 14 39 22)
    (Nat.lor (desloca s 15 41 23) (Nat.lor (desloca s 16 45 8) (Nat.lor (desloca s 17 15 18)
    (Nat.lor (desloca s 18 21 3) (Nat.lor (desloca s 19 8 13) (Nat.lor (desloca s 20 18 14)
    (Nat.lor (desloca s 21 2 24) (Nat.lor (desloca s 22 61 9) (Nat.lor (desloca s 23 56 19)
    (Nat.lor (desloca s 24 14 4) 0))))))))))))))))))))))))

theorem rhoPiDireto_eq (s : ℕ) : rhoPiDireto s = rhoPi s tabelaRhoPi 0 := by
  rw [rhoPi_eq s (by decide), Nat.zero_or]
  rfl

/-- A number computed before it is used. -/
def avaliado {α : Type*} (f : ℕ → α) : ℕ → α
  | 0 => f 0
  | n + 1 => f (Nat.succ n)

theorem avaliado_eq {α : Type*} (f : ℕ → α) (n : ℕ) : avaliado f n = f n := by
  cases n <;> rfl

def rodadasDiretas : List ℕ → ℕ → ℕ
  | [], s => s
  | rc :: t, s => rodadasDiretas t (avaliado (fun u => chi (rhoPiDireto u) ^^^ rc) (theta s))

theorem rodadasDiretas_eq (cs : List ℕ) (s : ℕ) : rodadasDiretas cs s = rodadas cs s := by
  induction cs generalizing s with
  | nil => rfl
  | cons c cs ih => rw [rodadasDiretas, rodadas, avaliado_eq, rhoPiDireto_eq, ih]

def permutaDireta (s : ℕ) : ℕ := avaliado (rodadasDiretas constantes) s

theorem permutaDireta_eq (s : ℕ) : permutaDireta s = permuta s :=
  (avaliado_eq _ s).trans (rodadasDiretas_eq constantes s)

/-! ## The sponge on a number -/

theorem deBytes_cons_div (b : UInt8) (bs : List UInt8) : deBytes (b :: bs) / 256 = deBytes bs := by
  have hb := b.toNat_lt
  rw [deBytes]
  omega

theorem deBytes_cons_mod (b : UInt8) (bs : List UInt8) : deBytes (b :: bs) % 256 = b.toNat := by
  have hb := b.toNat_lt
  rw [deBytes]
  omega

theorem deBytes_drop (n : ℕ) (bs : List UInt8) : deBytes (bs.drop n) = deBytes bs >>> (8 * n) := by
  induction n generalizing bs with
  | zero => rfl
  | succ n ih =>
    cases bs with
    | nil => exact (Nat.zero_shiftRight _).symm
    | cons b bs =>
      rw [List.drop_succ_cons, ih, Nat.mul_succ, Nat.add_comm, Nat.shiftRight_add,
        Nat.shiftRight_eq_div_pow _ 8]
      exact congrArg (· >>> (8 * n)) (deBytes_cons_div b bs).symm

theorem deBytes_take (n : ℕ) (bs : List UInt8) :
    deBytes (bs.take n) = deBytes bs &&& (2 ^ (8 * n) - 1) := by
  rw [Nat.and_two_pow_sub_one_eq_mod]
  induction n generalizing bs with
  | zero => exact (Nat.mod_one _).symm
  | succ n ih =>
    cases bs with
    | nil => exact (Nat.zero_mod _).symm
    | cons b bs =>
      have hpot : 2 ^ (8 * (n + 1)) = 256 * 2 ^ (8 * n) := by
        rw [Nat.mul_succ, Nat.pow_add, Nat.mul_comm]
      rw [List.take_succ_cons, hpot, Nat.mod_mul, deBytes_cons_mod, deBytes_cons_div, ← ih]
      rfl

/-- The sponge on the number of a text of `tamanho` bytes. -/
def absorveNumero (dominio : ℕ) : ℕ → (tamanho numero : ℕ) → ℕ → ℕ
  | 0, _, _, s => s
  | n + 1, tamanho, numero, s =>
    bif Nat.blt tamanho 136 then permutaDireta
      (s ^^^ (numero ^^^ (dominio <<< (8 * tamanho)) ^^^ (0x80 <<< (8 * 135))))
    else absorveNumero dominio n (tamanho - 136) (numero >>> (8 * 136))
      (permutaDireta (s ^^^ (numero &&& (2 ^ (8 * 136) - 1))))

theorem absorveNumero_eq (dominio n : ℕ) (bs : List UInt8) (s : ℕ) :
    absorveNumero dominio n bs.length (deBytes bs) s = absorve dominio n bs s := by
  induction n generalizing bs s with
  | zero => rfl
  | succ n ih =>
    rw [absorveNumero, absorve, permutaDireta_eq, permutaDireta_eq, ← deBytes_take, ← deBytes_drop,
      ← List.length_drop, ih, cond_eq_ite]
    exact if_congr Nat.blt_eq.to_iff rfl rfl

/-- The digest of a text from its size and its number. -/
def digestNumero (dominio tamanho numero : ℕ) : List UInt8 :=
  avaliado (paraBytes 32) (absorveNumero dominio (tamanho + 1) tamanho numero 0)

theorem digestNumero_eq (dominio : ℕ) (bs : List UInt8) :
    digestNumero dominio bs.length (deBytes bs) = digest dominio bs := by
  unfold digestNumero digest
  rw [avaliado_eq, absorveNumero_eq]

def sha3Direto (bs : List UInt8) : List UInt8 := digestNumero 6 bs.length (deBytes bs)

def keccak256Direto (bs : List UInt8) : List UInt8 := digestNumero 1 bs.length (deBytes bs)

theorem sha3Direto_eq : sha3Direto = sha3 := funext (digestNumero_eq 6)

theorem keccak256Direto_eq : keccak256Direto = keccak256 := funext (digestNumero_eq 1)

end Base.Keccak
