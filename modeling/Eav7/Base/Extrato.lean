import Mathlib.Algebra.Order.Group.Nat
import Eav7.Base.Percurso

/-!
# Amounts booked along a run

A booking gives every step of a run an amount. If a measure of the state rises by one
booking and falls by another, then what a run added to the measure is the difference of what
it booked.
-/

namespace Base

variable {σ α : Type} {passo : α → σ → σ → Prop} {s₀ s : σ} {passado : List (σ × α)}

/-- What a booking adds up to along a run, from its past and its last state. -/
def lancado (f : α → σ → σ → ℕ) : List (σ × α) → σ → ℕ
  | [], _ => 0
  | (s, a) :: passado, t => lancado f passado s + f a s t

variable {m : σ → ℕ} {f g : α → σ → σ → ℕ}

theorem lancado_add : lancado (fun a s t => f a s t + g a s t) passado s =
    lancado f passado s + lancado g passado s := by
  induction passado generalizing s with
  | nil => rfl
  | cons x passado ih =>
    change lancado _ passado x.1 + (f x.2 x.1 s + g x.2 x.1 s) =
      lancado f passado x.1 + f x.2 x.1 s + (lancado g passado x.1 + g x.2 x.1 s)
    rw [ih]
    exact Nat.add_add_add_comm _ _ _ _

theorem lancado_mul (k : ℕ) : lancado (fun a s t => k * f a s t) passado s =
    k * lancado f passado s := by
  induction passado generalizing s with
  | nil => rfl
  | cons x passado ih =>
    change lancado _ passado x.1 + k * f x.2 x.1 s = k * (lancado f passado x.1 + f x.2 x.1 s)
    rw [ih, Nat.mul_add]

/-- A fixed amount for each action of a kind. -/
theorem lancado_de (k : ℕ) (p : α → Bool) : lancado (fun a (_ _ : σ) => if p a then k else 0)
    passado s = k * passado.countP fun x => p x.2 := by
  induction passado generalizing s with
  | nil => rfl
  | cons x passado ih =>
    change lancado _ passado x.1 + (if p x.2 then k else 0) = _
    rw [ih, List.countP_cons, Nat.mul_add]
    split_ifs
    · rw [Nat.mul_one]
    · rfl

namespace Percurso

/-- What every step may add to a measure bounds what a run adds to it. -/
theorem limita (h : Percurso passo s₀ passado s)
    (hpasso : ∀ {antes : List (σ × α)} {a : α} {s t : σ}, Percurso passo s₀ antes s → passo a s t →
      m t + g a s t ≤ m s + f a s t) :
    m s + lancado g passado s ≤ m s₀ + lancado f passado s := by
  induction h with
  | inicio => exact le_refl _
  | @segue passado s t a h ha ih =>
    have hagora := hpasso h ha
    change m t + (lancado g passado s + g a s t) ≤ m s₀ + (lancado f passado s + f a s t)
    omega

/-- What every step adds to a measure adds up to what a run adds to it. -/
theorem conserva (h : Percurso passo s₀ passado s)
    (hpasso : ∀ {antes : List (σ × α)} {a : α} {s t : σ}, Percurso passo s₀ antes s → passo a s t →
      m t + g a s t = m s + f a s t) :
    m s + lancado g passado s = m s₀ + lancado f passado s := by
  induction h with
  | inicio => rfl
  | @segue passado s t a h ha ih =>
    have hagora := hpasso h ha
    change m t + (lancado g passado s + g a s t) = m s₀ + (lancado f passado s + f a s t)
    omega

end Percurso
end Base
