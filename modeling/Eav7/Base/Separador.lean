import Mathlib.Data.List.Basic

/-!
# Parts joined by a separator

Cutting what was joined cuts each part. Parts free of the separator come back as they
were; with the separator inside, a part comes back in pieces, and the pieces say only
how the whole reads. One part in a known place may hold it: the others fix its ends.
-/

namespace Base

variable {α : Type} [DecidableEq α] {sep : α}

/-- The pieces of joined parts, each part cut at the separator. -/
def pedacos (sep : α) (partes : List (List α)) : List (List α) :=
  partes.flatMap (·.splitOn sep)

@[simp] theorem pedacos_append (ps qs : List (List α)) :
    pedacos sep (ps ++ qs) = pedacos sep ps ++ pedacos sep qs :=
  List.flatMap_append

theorem pedacos_cons (p : List α) (ps : List (List α)) :
    pedacos sep (p :: ps) = p.splitOn sep ++ pedacos sep ps :=
  List.flatMap_cons

/-- Parts without the separator are their own pieces. -/
theorem pedacos_of_livres {partes : List (List α)} (h : ∀ p ∈ partes, sep ∉ p) :
    pedacos sep partes = partes := by
  induction partes with
  | nil => rfl
  | cons p partes ih =>
    obtain ⟨hp, hresto⟩ := List.forall_mem_cons.mp h
    rw [pedacos_cons, List.splitOn_eq_singleton hp, ih hresto]
    rfl

theorem splitOn_intercalate {partes : List (List α)} (h : partes ≠ []) :
    ([sep].intercalate partes).splitOn sep = pedacos sep partes := by
  induction partes with
  | nil => exact absurd rfl h
  | cons p partes ih =>
    cases partes with
    | nil => simp [pedacos]
    | cons q partes =>
      rw [List.intercalate_cons_cons, List.append_assoc, List.singleton_append,
        List.splitOn_append_cons_self, ih (List.cons_ne_nil q partes), ← pedacos_cons]

/-- What is joined is fixed by its pieces. -/
theorem intercalate_pedacos (partes : List (List α)) :
    [sep].intercalate (pedacos sep partes) = [sep].intercalate partes := by
  cases partes with
  | nil => rfl
  | cons p partes =>
    rw [← splitOn_intercalate (List.cons_ne_nil p partes), List.intercalate_splitOn]

theorem intercalate_eq_iff {ps qs : List (List α)} (hps : ps ≠ []) (hqs : qs ≠ []) :
    [sep].intercalate ps = [sep].intercalate qs ↔ pedacos sep ps = pedacos sep qs := by
  constructor
  · intro h
    rw [← splitOn_intercalate hps, ← splitOn_intercalate hqs, h]
  · intro h
    rw [← intercalate_pedacos ps, ← intercalate_pedacos qs, h]

theorem splitOn_injective : Function.Injective (List.splitOn sep : List α → List (List α)) := by
  intro p q h
  have hp : [sep].intercalate (p.splitOn sep) = p := List.intercalate_splitOn sep
  have hq : [sep].intercalate (q.splitOn sep) = q := List.intercalate_splitOn sep
  rw [← hp, ← hq, h]

theorem length_splitOn_pos (sep : α) (p : List α) : 0 < (p.splitOn sep).length :=
  List.length_pos_iff.mpr (List.splitOn_ne_nil sep p)

theorem one_lt_length_splitOn {p : List α} (h : sep ∈ p) : 1 < (p.splitOn sep).length := by
  obtain ⟨antes, depois, rfl⟩ := List.append_of_mem h
  rw [List.splitOn_append_cons_self, List.length_append]
  have := length_splitOn_pos sep antes
  have := length_splitOn_pos sep depois
  omega

theorem length_le_pedacos (sep : α) (partes : List (List α)) :
    partes.length ≤ (pedacos sep partes).length := by
  induction partes with
  | nil => exact Nat.le_refl _
  | cons p partes ih =>
    rw [pedacos_cons, List.length_append, List.length_cons]
    have := length_splitOn_pos sep p
    omega

/-- A separator inside a part makes more pieces than parts. -/
theorem length_lt_pedacos {partes : List (List α)} {p : List α} (hp : p ∈ partes)
    (h : sep ∈ p) : partes.length < (pedacos sep partes).length := by
  obtain ⟨antes, depois, rfl⟩ := List.append_of_mem hp
  have hantes := length_le_pedacos sep antes
  have hdepois := length_le_pedacos sep depois
  have hmeio := one_lt_length_splitOn h
  simp only [pedacos_append, pedacos_cons, List.length_append, List.length_cons]
  omega

/-- One part may hold the separator when as many free parts stand before and after it. -/
theorem intercalate_meio_inj {antes antes' depois depois' : List (List α)} {p p' : List α}
    (hlantes : antes.length = antes'.length) (hldepois : depois.length = depois'.length)
    (hantes : ∀ q ∈ antes, sep ∉ q) (hantes' : ∀ q ∈ antes', sep ∉ q)
    (hdepois : ∀ q ∈ depois, sep ∉ q) (hdepois' : ∀ q ∈ depois', sep ∉ q)
    (h : [sep].intercalate (antes ++ p :: depois) = [sep].intercalate (antes' ++ p' :: depois')) :
    antes = antes' ∧ p = p' ∧ depois = depois' := by
  have hpedacos := (intercalate_eq_iff (by simp) (by simp)).mp h
  rw [pedacos_append, pedacos_append, pedacos_cons, pedacos_cons, pedacos_of_livres hantes,
    pedacos_of_livres hantes', pedacos_of_livres hdepois, pedacos_of_livres hdepois'] at hpedacos
  obtain ⟨rfl, hresto⟩ := List.append_inj hpedacos hlantes
  obtain ⟨hp, rfl⟩ := List.append_inj' hresto hldepois
  exact ⟨rfl, splitOn_injective hp, rfl⟩

end Base
