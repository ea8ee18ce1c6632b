import Mathlib.Algebra.BigOperators.Group.List.Basic
import Mathlib.Algebra.GroupWithZero.Nat
import Mathlib.Data.Nat.Basic

/-!
# Postings

Amounts posted to names, and balances that change by what was spent and what was paid.
-/

namespace Base

variable {κ : Type}

def somaDe (ps : List (κ × ℕ)) : ℕ := (ps.map Prod.snd).sum

@[simp] theorem somaDe_nil : somaDe ([] : List (κ × ℕ)) = 0 := rfl

@[simp] theorem somaDe_cons (p : κ × ℕ) (ps : List (κ × ℕ)) :
    somaDe (p :: ps) = p.2 + somaDe ps := rfl

@[simp] theorem somaDe_append (ps qs : List (κ × ℕ)) :
    somaDe (ps ++ qs) = somaDe ps + somaDe qs := by
  unfold somaDe
  rw [List.map_append, List.sum_append]

/-- Equal shares, the first one with the rest. -/
def quinhoes (quota resto : ℕ) : List κ → List (κ × ℕ)
  | [] => []
  | k :: ks => (k, quota + resto) :: ks.map (·, quota)

theorem somaDe_iguais (quota : ℕ) (ks : List κ) :
    somaDe (ks.map (·, quota)) = quota * ks.length := by
  induction ks with
  | nil => rfl
  | cons k ks ih =>
    rw [List.map_cons, somaDe_cons, ih, List.length_cons, Nat.mul_succ, Nat.add_comm]

/-- The shares of some names are what was shared. -/
theorem somaDe_quinhoes {ks : List κ} (h : ks ≠ []) (total : ℕ) :
    somaDe (quinhoes (total / ks.length) (total - total / ks.length * ks.length) ks) = total := by
  cases ks with
  | nil => exact absurd rfl h
  | cons k ks =>
    have hle := Nat.div_mul_le_self total (k :: ks).length
    generalize total / (k :: ks).length = quota at hle
    rw [quinhoes, somaDe_cons, somaDe_iguais]
    rw [List.length_cons, Nat.mul_succ] at *
    omega

variable [DecidableEq κ]

/-- What a name gets of some postings. -/
def cabe (y : κ) (ps : List (κ × ℕ)) : ℕ := ((ps.filter fun p => p.1 = y).map Prod.snd).sum

@[simp] theorem cabe_nil (y : κ) : cabe y [] = 0 := rfl

@[simp] theorem cabe_cons (y : κ) (p : κ × ℕ) (ps : List (κ × ℕ)) :
    cabe y (p :: ps) = (if p.1 = y then p.2 else 0) + cabe y ps := by
  unfold cabe
  rw [List.filter_cons]
  split_ifs with h h' h'
  · simp
  · exact absurd (of_decide_eq_true h) h'
  · exact absurd (decide_eq_true h') h
  · simp

@[simp] theorem cabe_append (y : κ) (ps qs : List (κ × ℕ)) :
    cabe y (ps ++ qs) = cabe y ps + cabe y qs := by
  unfold cabe
  rw [List.filter_append, List.map_append, List.sum_append]

/-- Balances after spending and being paid. -/
def Move (gastos pagos : List (κ × ℕ)) (antes depois : κ → ℕ) : Prop :=
  ∀ y, depois y + cabe y gastos = antes y + cabe y pagos

namespace Move

variable {g g' p p' : List (κ × ℕ)} {a b c : κ → ℕ}

theorem refl (a : κ → ℕ) : Move [] [] a a := fun _ => rfl

theorem trans (h : Move g p a b) (h' : Move g' p' b c) : Move (g ++ g') (p ++ p') a c := by
  intro y
  have hy := h y
  have hy' := h' y
  rw [cabe_append, cabe_append]
  omega

/-- Only what each name gets counts. -/
theorem congr (h : Move g p a b) (hg : ∀ y, cabe y g = cabe y g') (hp : ∀ y, cabe y p = cabe y p') :
    Move g' p' a b := by
  intro y
  rw [← hg, ← hp]
  exact h y

theorem gasta {k : κ} {v : ℕ} (h : v ≤ a k) (hb : ∀ y, b y = if y = k then a k - v else a y) :
    Move [(k, v)] [] a b := by
  intro y
  rw [hb y, cabe_cons, cabe_nil]
  by_cases hy : y = k
  · rw [if_pos hy, if_pos hy.symm, hy, Nat.add_zero, Nat.add_zero]
    exact Nat.sub_add_cancel h
  · rw [if_neg hy, if_neg (Ne.symm hy)]

theorem paga {k : κ} {v : ℕ} (hb : ∀ y, b y = if y = k then a k + v else a y) :
    Move [] [(k, v)] a b := by
  intro y
  rw [hb y, cabe_cons, cabe_nil]
  by_cases hy : y = k
  · rw [if_pos hy, if_pos hy.symm, hy]
    rfl
  · rw [if_neg hy, if_neg (Ne.symm hy)]

end Move

end Base
