import Mathlib.Algebra.BigOperators.Ring.List
import Mathlib.Algebra.Ring.Nat
import Eav7.Base.Arestas

/-!
# Rewards by an accumulator

A pool keeps one accumulator of what it paid on each unit of weight. A holder is owed its
weight times what the accumulator grew since its own mark. A payment raises what is owed
in total by its increment on every unit, and what one holder gives up is owed no more.
-/

namespace Base.Acumulador

variable {κ μ : Type*} [LinearOrder κ] {g g' : OrdMap κ μ} {peso : μ → ℕ} {marca marca' : κ → ℕ}
  {acc inc : ℕ} {k : κ}

/-- What is owed to all holders, in the scale of the accumulator. -/
def pendente (peso : μ → ℕ) (g : OrdMap κ μ) (marca : κ → ℕ) (acc : ℕ) : ℕ :=
  g.total fun k m => peso m * (acc - marca k)

/-- What is owed to one holder. -/
def devido (peso : μ → ℕ) (g : OrdMap κ μ) (marca : κ → ℕ) (acc : ℕ) (k : κ) : ℕ :=
  g.weight (fun j m => peso m * (acc - marca j)) k

theorem pendente_paga (hmarca : ∀ k, marca k ≤ acc) : pendente peso g marca (acc + inc) =
    pendente peso g marca acc + inc * g.total fun _ m => peso m := by
  have hinc : inc * (g.total fun _ m => peso m) = g.total fun _ m => inc * peso m := by
    unfold OrdMap.total
    exact (List.sum_map_mul_left g.entries (fun e => peso e.2) inc).symm
  unfold pendente
  rw [hinc, ← OrdMap.total_add]
  apply OrdMap.total_congr
  intro k m _
  rw [Nat.sub_add_comm (hmarca k), Nat.mul_add, Nat.mul_comm (peso m) inc]

theorem devido_eq_getD {d : μ} (hd : peso d = 0) (k : κ) :
    devido peso g marca acc k = peso (g.getD k d) * (acc - marca k) := by
  have hzero : peso d * (acc - marca k) = 0 := by
    rw [hd, Nat.zero_mul]
  exact OrdMap.weight_eq_getD (fun j m => peso m * (acc - marca j)) g k hzero

/-- What is owed in total moves with what is owed to the one holder that was written. -/
theorem pendente_muda (hg : ∀ j ≠ k, g'.get? j = g.get? j) (hm : ∀ j ≠ k, marca' j = marca j) :
    pendente peso g' marca' acc + devido peso g marca acc k =
      pendente peso g marca acc + devido peso g' marca' acc k := by
  have hpesos : ∀ j ≠ k, ∀ m, peso m * (acc - marca' j) = peso m * (acc - marca j) := by
    intro j hj m
    rw [hm j hj]
  exact OrdMap.total_fora hg hpesos

end Base.Acumulador
