import Mathlib.Algebra.BigOperators.Group.Finset.Piecewise
import Mathlib.Algebra.GroupWithZero.Nat
import Mathlib.Algebra.Order.BigOperators.Group.Finset
import Mathlib.Data.Fintype.Basic
import Mathlib.Data.Fin.Basic

/-!
# Unsigned integers of a contract language

Arithmetic is checked: a sum, a difference or a product that does not fit reverts. A
conversion to a narrower type is not checked and keeps the low bits. A mapping is total and
is written one key at a time, so a sum over its keys changes by one term. The packed
encoding writes a number in as many bytes as its type has, the most significant first.
-/

namespace Base.Solidity

/-- The unsigned integers of `w` bits. -/
abbrev Uint (w : ℕ) := Fin (2 ^ w)

instance neZeroTwoPow (w : ℕ) : NeZero (2 ^ w) := ⟨(Nat.two_pow_pos w).ne'⟩

/-! The widths of the language, so that a literal of theirs carries a constant. -/

instance neZeroUint64 : NeZero (2 ^ 64) := neZeroTwoPow 64

instance neZeroUint128 : NeZero (2 ^ 128) := neZeroTwoPow 128

instance neZeroUint160 : NeZero (2 ^ 160) := neZeroTwoPow 160

instance neZeroUint256 : NeZero (2 ^ 256) := neZeroTwoPow 256

def overflow : String := "Panic(0x11)"

def divisionByZero : String := "Panic(0x12)"

section

variable {w v : ℕ}

/-- A result that has to fit. -/
def checked (w n : ℕ) : Except String (Uint w) :=
  if h : n < 2 ^ w then .ok ⟨n, h⟩ else .error overflow

def add (a b : Uint w) : Except String (Uint w) := checked w (a.val + b.val)

def sub (a b : Uint w) : Except String (Uint w) :=
  if b.val ≤ a.val then checked w (a.val - b.val) else .error overflow

def mul (a b : Uint w) : Except String (Uint w) := checked w (a.val * b.val)

def div (a b : Uint w) : Except String (Uint w) :=
  if b.val = 0 then .error divisionByZero else checked w (a.val / b.val)

/-- The conversion to another width, which keeps the low bits. -/
def cast (w : ℕ) (a : Uint v) : Uint w := ⟨a.val % 2 ^ w, Nat.mod_lt _ (Nat.two_pow_pos w)⟩

/-- The largest value of a type. -/
def typeMax (w : ℕ) : ℕ := 2 ^ w - 1

def require (p : Prop) [Decidable p] (texto : String) : Except String Unit :=
  if p then .ok () else .error texto

theorem checked_eq_ok {n : ℕ} {c : Uint w} : checked w n = .ok c ↔ c.val = n := by
  unfold checked
  split_ifs with h
  · rw [Except.ok.injEq]
    exact ⟨fun hc => hc ▸ rfl, fun hc => Fin.ext hc.symm⟩
  · refine ⟨nofun, fun hc => absurd (hc ▸ c.isLt) h⟩

theorem add_eq_ok {a b c : Uint w} : add a b = .ok c ↔ c.val = a.val + b.val := checked_eq_ok

theorem sub_eq_ok {a b c : Uint w} : sub a b = .ok c ↔ c.val + b.val = a.val := by
  unfold sub
  split_ifs with h
  · rw [checked_eq_ok]
    omega
  · refine ⟨nofun, fun hc => ?_⟩
    omega

theorem exists_checked {n : ℕ} (h : n < 2 ^ w) : ∃ c : Uint w, checked w n = .ok c ∧ c.val = n :=
  ⟨⟨n, h⟩, checked_eq_ok.mpr rfl, rfl⟩

theorem exists_add {a b : Uint w} (h : a.val + b.val < 2 ^ w) :
    ∃ c, add a b = .ok c ∧ c.val = a.val + b.val := exists_checked h

theorem exists_mul {a b : Uint w} (h : a.val * b.val < 2 ^ w) :
    ∃ c, mul a b = .ok c ∧ c.val = a.val * b.val := exists_checked h

theorem exists_sub {a b : Uint w} (h : b.val ≤ a.val) :
    ∃ c, sub a b = .ok c ∧ c.val = a.val - b.val := by
  unfold sub
  rw [if_pos h]
  exact exists_checked ((Nat.sub_le _ _).trans_lt a.isLt)

theorem exists_div {a b : Uint w} (h : b.val ≠ 0) :
    ∃ c, div a b = .ok c ∧ c.val = a.val / b.val := by
  unfold div
  rw [if_neg h]
  exact exists_checked ((Nat.div_le_self _ _).trans_lt a.isLt)

@[simp] theorem cast_val (a : Uint v) : (cast w a).val = a.val % 2 ^ w := rfl

theorem cast_val_of_lt {a : Uint v} (h : a.val < 2 ^ w) : (cast w a).val = a.val :=
  Nat.mod_eq_of_lt h

/-- An unchecked sum that fits. -/
theorem val_add_of_lt {a b : Uint w} (h : a.val + b.val < 2 ^ w) : (a + b).val = a.val + b.val := by
  rw [Fin.val_add, Nat.mod_eq_of_lt h]

/-- An unchecked difference that does not go below zero. -/
theorem val_sub_of_le {a b : Uint w} (h : b ≤ a) : (a - b).val = a.val - b.val :=
  Fin.sub_val_of_le h

/-- A conversion to a wider type changes no value. -/
theorem cast_val_of_le (h : v ≤ w) (a : Uint v) : (cast w a).val = a.val :=
  cast_val_of_lt (a.isLt.trans_le (Nat.pow_le_pow_right Nat.zero_lt_two h))

theorem le_typeMax_iff {n : ℕ} : n ≤ typeMax w ↔ n < 2 ^ w := by
  have := Nat.two_pow_pos w
  unfold typeMax
  omega

end

section

variable {α β : Type} {p : Prop} [Decidable p] {texto : String}

theorem require_eq_ok {u : Unit} : require p texto = .ok u ↔ p := by
  unfold require
  split_ifs with h
  · exact ⟨fun _ => h, fun _ => rfl⟩
  · exact ⟨nofun, fun hp => absurd hp h⟩

theorem bind_eq_ok {x : Except String α} {f : α → Except String β} {b : β} :
    (x >>= f) = .ok b ↔ ∃ a, x = .ok a ∧ f a = .ok b := by
  cases x with
  | ok a => exact ⟨fun h => ⟨a, rfl, h⟩, fun ⟨_, ha, h⟩ => Except.ok.inj ha ▸ h⟩
  | error e => exact ⟨nofun, fun ⟨_, ha, _⟩ => nomatch ha⟩

theorem require_eq_error {e : String} : require p texto = .error e ↔ ¬ p ∧ texto = e := by
  unfold require
  split_ifs with h
  · exact ⟨nofun, fun hp => absurd h hp.1⟩
  · exact ⟨fun he => ⟨h, Except.error.inj he⟩, fun he => congrArg _ he.2⟩

theorem bind_eq_error {x : Except String α} {f : α → Except String β} {e : String} :
    (x >>= f) = .error e ↔ x = .error e ∨ ∃ a, x = .ok a ∧ f a = .error e := by
  cases x with
  | ok a =>
    refine ⟨fun h => .inr ⟨a, rfl, h⟩, fun h => ?_⟩
    obtain h | ⟨_, ha, h⟩ := h
    · cases h
    · exact Except.ok.inj ha ▸ h
  | error e' =>
    have hf : (.error e' >>= f : Except String β) = .error e' := rfl
    rw [hf, Except.error.injEq, Except.error.injEq]
    exact ⟨.inl, fun h => h.elim id fun ⟨_, ha, _⟩ => nomatch ha⟩

theorem require_bind_eq_ok {f : Unit → Except String β} {b : β} :
    (require p texto >>= f) = .ok b ↔ p ∧ f () = .ok b := by
  rw [bind_eq_ok]
  exact ⟨fun ⟨_, hp, h⟩ => ⟨require_eq_ok.mp hp, h⟩, fun ⟨hp, h⟩ => ⟨(), require_eq_ok.mpr hp, h⟩⟩

/-- What comes after a check that passed. -/
theorem of_require {f : Unit → Except String β} {b : β} (h : (require p texto >>= f) = .ok b) :
    f () = .ok b := (require_bind_eq_ok.mp h).2

end

/-! ## Sums over a mapping -/

section

variable {κ ν : Type} [Fintype κ]

/-- Writing one key of a mapping changes one term of a sum. -/
theorem sum_update [DecidableEq κ] (f : κ → ν) (g : ν → ℕ) (k : κ) (v : ν) :
    ∑ x, g (Function.update f k v x) + g (f k) = ∑ x, g (f x) + g v := by
  have hfora : ∑ x ∈ Finset.univ.erase k, g (Function.update f k v x) =
      ∑ x ∈ Finset.univ.erase k, g (f x) := by
    refine Finset.sum_congr rfl fun x hx => ?_
    rw [Function.update_of_ne (Finset.ne_of_mem_erase hx)]
  rw [← Finset.sum_erase_add _ _ (Finset.mem_univ k), hfora, Function.update_self,
    ← Finset.sum_erase_add _ _ (Finset.mem_univ k)]
  omega

/-- A mapping written at one key only sums to what it has there. -/
theorem sum_update_default [DecidableEq κ] {g : ν → ℕ} {d : ν} (hd : g d = 0) (k : κ) (v : ν) :
    ∑ x, g (Function.update (fun _ => d) k v x) = g v := by
  have hk : g (Function.update (fun _ => d) k v k) = g v := by rw [Function.update_self]
  refine (Finset.sum_eq_single k ?_ ?_).trans hk
  · intro x _ hx
    rw [Function.update_of_ne hx, hd]
  · intro hfora
    exact absurd (Finset.mem_univ k) hfora

theorem le_sum (f : κ → ν) (g : ν → ℕ) (k : κ) : g (f k) ≤ ∑ x, g (f x) :=
  Finset.single_le_sum (f := fun x => g (f x)) (fun _ _ => Nat.zero_le _) (Finset.mem_univ k)

end

/-! ## Packed encoding -/

/-- The `n` low bytes of a number, the most significant first. -/
def bigEndian : ℕ → ℕ → List UInt8
  | 0, _ => []
  | n + 1, x => bigEndian n (x / 256) ++ [UInt8.ofNat x]

/-- The number that bytes write. -/
def deBigEndian (bs : List UInt8) : ℕ := bs.foldl (fun x b => x * 256 + b.toNat) 0

@[simp] theorem bigEndian_length (n x : ℕ) : (bigEndian n x).length = n := by
  induction n generalizing x with
  | zero => rfl
  | succ n ih => rw [bigEndian, List.length_append, ih, List.length_singleton]

theorem deBigEndian_append (bs : List UInt8) (b : UInt8) :
    deBigEndian (bs ++ [b]) = deBigEndian bs * 256 + b.toNat := List.foldl_append

theorem deBigEndian_bigEndian {n x : ℕ} (h : x < 256 ^ n) : deBigEndian (bigEndian n x) = x := by
  induction n generalizing x with
  | zero =>
    rw [pow_zero] at h
    rw [bigEndian]
    exact (Nat.lt_one_iff.mp h).symm
  | succ n ih =>
    rw [pow_succ] at h
    have hresto : (UInt8.ofNat x).toNat = x % 256 := UInt8.toNat_ofNat
    rw [bigEndian, deBigEndian_append, ih (Nat.div_lt_of_lt_mul (by rwa [mul_comm])), hresto]
    omega

theorem bigEndian_inj {n x y : ℕ} (hx : x < 256 ^ n) (hy : y < 256 ^ n)
    (h : bigEndian n x = bigEndian n y) : x = y := by
  rw [← deBigEndian_bigEndian hx, h, deBigEndian_bigEndian hy]

/-- A word of 32 bytes. -/
structure Bytes32 where
  bytes : List UInt8
  length_eq : bytes.length = 32
deriving DecidableEq

namespace Bytes32

instance : Zero Bytes32 := ⟨⟨List.replicate 32 0, List.length_replicate⟩⟩

@[ext] theorem ext {a b : Bytes32} (h : a.bytes = b.bytes) : a = b := by
  cases a
  cases b
  cases h
  rfl

/-- Words are compared as the numbers they write. -/
instance : LE Bytes32 := ⟨fun a b => deBigEndian a.bytes ≤ deBigEndian b.bytes⟩

instance (a b : Bytes32) : Decidable (a ≤ b) := inferInstanceAs (Decidable (_ ≤ (_ : ℕ)))

theorem le_total (a b : Bytes32) : a ≤ b ∨ b ≤ a := Nat.le_total _ _

end Bytes32
end Base.Solidity
