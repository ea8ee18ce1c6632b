import Mathlib.Order.Lattice
import Mathlib.Data.List.Basic

/-!
# Sliding windows over a log

A log that is pruned as it grows, against everything that was ever logged. As long
as the cuts never go back, the entries above a cut are the same in both.
-/

namespace Base

variable {β κ : Type} [LinearOrder κ] {altura : β → κ} {c c' : κ} {log todos : List β}

/-- The entries above a cut. -/
def acima (altura : β → κ) (corte : κ) (es : List β) : List β :=
  es.filter fun e => corte < altura e

theorem acima_append (es fs : List β) :
    acima altura c (es ++ fs) = acima altura c es ++ acima altura c fs :=
  List.filter_append ..

/-- A later cut does not see an earlier one. -/
theorem acima_acima (h : c ≤ c') (es : List β) :
    acima altura c' (acima altura c es) = acima altura c' es := by
  unfold acima
  rw [List.filter_filter]
  refine List.filter_congr fun e _ => ?_
  by_cases hc : c' < altura e
  · simp [hc, lt_of_le_of_lt h hc]
  · simp [hc]

/-- The log still has all that lies above a cut and every later one. -/
def Podado (altura : β → κ) (corte : κ) (log todos : List β) : Prop :=
  ∀ c, corte ≤ c → acima altura c log = acima altura c todos

namespace Podado

theorem inicio : Podado altura c ([] : List β) [] := fun _ _ => rfl

theorem mono (h : Podado altura c log todos) (hc : c ≤ c') : Podado altura c' log todos :=
  fun d hd => h d (le_trans hc hd)

/-- A new entry, after which the log is pruned to its window. -/
theorem registra (h : Podado altura c log todos) (hc : c ≤ c') (e : β) :
    Podado altura c' (acima altura c' (log ++ [e])) (todos ++ [e]) := by
  intro d hd
  rw [acima_acima hd, acima_append, acima_append, h d (le_trans hc hd)]

end Podado
end Base
