import Eav7.Cripto
import Mathlib.Data.BitVec

/-!
# Words of the virtual machine

Signed arithmetic, shifts and exponentiation over 256-bit words, the saturating
reads of a word as a machine integer, and its big-endian bytes.
-/

namespace Eav7

abbrev Address := Bytes

abbrev Word := BitVec 256

def zeroAddr : Address := List.replicate 20 0

def addrHex (a : Address) : String := "0x" ++ hexEncode a

namespace Eavm

/-- The greatest length of a `Vec`: its bytes fit in an `isize`. -/
def isizeMax : ℕ := 2 ^ 63 - 1

def usizeMax : ℕ := 2 ^ 64 - 1

def u64Max : ℕ := 2 ^ 64 - 1

def u128Max : ℕ := 2 ^ 128 - 1

def u32Max : ℕ := 2 ^ 32 - 1

def divCeil (a b : ℕ) : ℕ := (a + b - 1) / b

def saturatingAdd (a b : ℕ) : ℕ := min (a + b) u64Max

def saturatingMul (a b : ℕ) : ℕ := min (a * b) u64Max

def ofBool (b : Bool) : Word := if b then 1 else 0

/-! ## Signed arithmetic -/

def negativo (x : Word) : Bool := x.msb

/-- Two's complement: the least word is its own negation. -/
def neg (x : Word) : Word := ~~~x + 1

def abs (x : Word) : Word := if negativo x then neg x else x

def slt (a b : Word) : Bool :=
  match negativo a, negativo b with
  | true, false => true
  | false, true => false
  | _, _ => a.toNat < b.toNat

def div (a b : Word) : Word := if b = 0 then 0 else a / b

def mod (a b : Word) : Word := if b = 0 then 0 else a % b

def sdiv (a b : Word) : Word :=
  if b = 0 then 0
  else
    let q := abs a / abs b
    if negativo a != negativo b then neg q else q

/-- The remainder takes the sign of the dividend. -/
def smod (a b : Word) : Word :=
  if b = 0 then 0
  else
    let r := abs a % abs b
    if negativo a then neg r else r

def addMod (a b n : Word) : Word :=
  if n = 0 then 0 else BitVec.ofNat 256 ((a.toNat + b.toNat) % n.toNat)

def mulMod (a b n : Word) : Word :=
  if n = 0 then 0 else BitVec.ofNat 256 (a.toNat * b.toNat % n.toNat)

/-! ## Bits -/

def bitLen (w : Word) : ℕ := if w = 0 then 0 else w.toNat.log2 + 1

def leadingZeros (w : Word) : ℕ := 256 - bitLen w

def shl (s v : Word) : Word := if 256 ≤ s.toNat then 0 else v <<< s.toNat

def shr (s v : Word) : Word := if 256 ≤ s.toNat then 0 else v >>> s.toNat

/-- The shift that fills with the sign bit. -/
def sar (s v : Word) : Word :=
  if 256 ≤ s.toNat then (if negativo v then ~~~0 else 0)
  else
    let logico := v >>> s.toNat
    if negativo v ∧ 0 < s.toNat then logico ||| (~~~(0 : Word) <<< (256 - s.toNat)) else logico

/-- Byte 0 is the most significant one. -/
def byte (i x : Word) : Word :=
  if 32 ≤ i.toNat then 0 else (x >>> (8 * (31 - i.toNat))) &&& 0xff

def signextend (b x : Word) : Word :=
  if 32 ≤ b.toNat then x
  else
    let bit := b.toNat * 8 + 7
    let mask := ((1 : Word) <<< bit) - 1
    if x.getLsbD bit then x ||| ~~~mask else x &&& mask

/-- The squaring loop, which stops when the exponent runs out of bits. -/
def expLaco : ℕ → (r base exp : Word) → Word
  | 0, r, _, _ => r
  | n + 1, r, base, exp =>
    if exp = 0 then r
    else expLaco n (if exp.getLsbD 0 then r * base else r) (base * base) (exp >>> 1)

def expMod2_256 (base exp : Word) : Word := expLaco 256 1 base exp

theorem toNat_shiftRight_one (e : Word) : (e >>> 1).toNat = e.toNat / 2 := by
  rw [BitVec.toNat_ushiftRight, Nat.shiftRight_eq_div_pow, pow_one]

theorem expLaco_eq (n : ℕ) (r base exp : Word) (h : exp.toNat < 2 ^ n) :
    expLaco n r base exp = r * base ^ exp.toNat := by
  induction n generalizing r base exp with
  | zero =>
    have h0 : exp.toNat = 0 := by omega
    simp [expLaco, h0]
  | succ n ih =>
    unfold expLaco
    by_cases h0 : exp = 0
    · simp [h0]
    · have hlt : (exp >>> 1).toNat < 2 ^ n := by
        rw [toNat_shiftRight_one]
        omega
      have hbit : exp.getLsbD 0 = decide (exp.toNat % 2 = 1) := by
        rw [BitVec.getLsbD, Nat.testBit_zero]
      rw [if_neg h0, ih _ _ _ hlt, toNat_shiftRight_one, hbit]
      rcases Nat.mod_two_eq_zero_or_one exp.toNat with hm | hm
      · have hpow : base ^ exp.toNat = (base * base) ^ (exp.toNat / 2) := by
          rw [← pow_two, ← pow_mul]
          congr 1
          omega
        simp [hm, hpow]
      · have hpow : base ^ exp.toNat = base * (base * base) ^ (exp.toNat / 2) := by
          rw [← pow_two, ← pow_mul, ← pow_succ']
          congr 1
          omega
        simp [hm, hpow, mul_assoc]

/-- The loop computes the power modulo 2 ^ 256, for every base and exponent. -/
theorem expMod2_256_eq (base exp : Word) : expMod2_256 base exp = base ^ exp.toNat := by
  rw [expMod2_256, expLaco_eq 256 1 base exp exp.isLt, one_mul]

/-! ## Machine integers and bytes -/

def u128Sat (w : Word) : ℕ := min w.toNat u128Max

def u64Sat (w : Word) : ℕ := min w.toNat u64Max

def usizeSat (w : Word) : ℕ := min (u128Sat w) usizeMax

def naturalDeBytes (b : Bytes) : ℕ := b.foldl (fun n x => n * 256 + x.toNat) 0

/-- The `n` low bytes of a natural number, the most significant one first. -/
def bytesDeNatural (n x : ℕ) : Bytes :=
  (List.range n).map fun i => UInt8.ofNat (x / 256 ^ (n - 1 - i))

theorem bytesDeNatural_length (n x : ℕ) : (bytesDeNatural n x).length = n := by
  simp [bytesDeNatural]

/-- The word of at most 32 bytes; a longer slice keeps its last 32. -/
def wordDeBytes (b : Bytes) : Word := BitVec.ofNat 256 (naturalDeBytes (b.drop (b.length - 32)))

def paraBeBytes (w : Word) : Bytes := bytesDeNatural 32 w.toNat

def wordDeEndereco (a : Address) : Word := wordDeBytes a

def enderecoDeWord (w : Word) : Address := (paraBeBytes w).drop 12

end Eavm
end Eav7
