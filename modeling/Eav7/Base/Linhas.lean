import Mathlib.Data.Nat.Notation
import Mathlib.Data.List.Basic
import Mathlib.Data.List.Induction
import Mathlib.Tactic.Common

/-!
# Terminated lines and their index

A file of lines, each closed by a terminator, with the offset and the length of every
line. The index finds each line back in the file, and the end that it gives is the end
of the file.
-/

namespace Base.Linhas

variable {α : Type} (nl : α)

/-- The lines one after the other, each with its terminator. -/
def escritas : List (List α) → List α
  | [] => []
  | l :: ls => l ++ nl :: escritas ls

/-- Offset and length of every line, from an offset on. -/
def indice : ℕ → List (List α) → List (ℕ × ℕ)
  | _, [] => []
  | p, l :: ls => (p, l.length) :: indice (p + l.length + 1) ls

/-- Where an index says that the file ends. -/
def fim (i : List (ℕ × ℕ)) : ℕ := (i.getLast?.map fun e => e.1 + e.2 + 1).getD 0

theorem escritas_append (ls ms : List (List α)) :
    escritas nl (ls ++ ms) = escritas nl ls ++ escritas nl ms := by
  induction ls with
  | nil => rfl
  | cons l ls ih => simp [escritas, ih]

theorem length_indice (p : ℕ) (ls : List (List α)) : (indice p ls).length = ls.length := by
  induction ls generalizing p with
  | nil => rfl
  | cons l ls ih => simp [indice, ih]

theorem indice_append (p : ℕ) (ls ms : List (List α)) :
    indice p (ls ++ ms) = indice p ls ++ indice (p + (escritas nl ls).length) ms := by
  induction ls generalizing p with
  | nil => rfl
  | cons l ls ih =>
    have hfim : p + l.length + 1 + (escritas nl ls).length =
        p + (escritas nl (l :: ls)).length := by
      simp only [escritas, List.length_append, List.length_cons]
      omega
    rw [List.cons_append, indice, indice, List.cons_append, ih, hfim]

theorem getElem?_indice (p : ℕ) (ls : List (List α)) (h : ℕ) :
    (indice p ls)[h]? = ls[h]?.map fun l => (p + (escritas nl (ls.take h)).length, l.length) := by
  induction ls generalizing p h with
  | nil => simp [indice]
  | cons l ls ih =>
    cases h with
    | zero => simp [indice, escritas]
    | succ h =>
      have hfim : p + l.length + 1 + (escritas nl (ls.take h)).length =
          p + (escritas nl (l :: ls.take h)).length := by
        simp only [escritas, List.length_append, List.length_cons]
        omega
      simp only [indice, List.getElem?_cons_succ, List.take_succ_cons, ih, hfim]

/-- The file splits at every line. -/
theorem escritas_take_drop (ls : List (List α)) (h : ℕ) :
    escritas nl (ls.take h) ++ escritas nl (ls.drop h) = escritas nl ls := by
  rw [← escritas_append, List.take_append_drop]

theorem take_escritas (ls : List (List α)) (h : ℕ) :
    (escritas nl ls).take (escritas nl (ls.take h)).length = escritas nl (ls.take h) := by
  conv_lhs => rw [← escritas_take_drop nl ls h]
  exact List.take_left

/-- The index finds a line back. -/
theorem recorte {ls : List (List α)} {h : ℕ} {l : List α} (hl : ls[h]? = some l) :
    ((escritas nl ls).drop (escritas nl (ls.take h)).length).take l.length = l := by
  obtain ⟨hlt, rfl⟩ := List.getElem?_eq_some_iff.mp hl
  conv_lhs => rw [← escritas_take_drop nl ls h, List.drop_left, List.drop_eq_getElem_cons hlt]
  exact List.take_left

theorem recorte_le {ls : List (List α)} {h : ℕ} {l : List α} (hl : ls[h]? = some l) :
    (escritas nl (ls.take h)).length + l.length ≤ (escritas nl ls).length := by
  obtain ⟨hlt, rfl⟩ := List.getElem?_eq_some_iff.mp hl
  rw [← escritas_take_drop nl ls h, List.drop_eq_getElem_cons hlt]
  simp only [escritas, List.length_append, List.length_cons]
  omega

theorem take_indice (p : ℕ) (ls : List (List α)) (h : ℕ) :
    (indice p ls).take h = indice p (ls.take h) := by
  induction ls generalizing p h with
  | nil => simp [indice]
  | cons l ls ih => cases h <;> simp [indice, ih]

theorem fim_indice (ls : List (List α)) : fim (indice 0 ls) = (escritas nl ls).length := by
  induction ls using List.reverseRecOn with
  | nil => rfl
  | append_singleton ls l _ =>
    rw [indice_append nl, escritas_append, fim, indice, indice, List.getLast?_concat]
    simp only [escritas, Option.map_some, Option.getD_some, List.length_append, List.length_cons,
      List.length_nil]
    omega

end Base.Linhas
