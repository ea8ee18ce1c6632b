import Mathlib.Data.Nat.Basic

/-!
# Journaled states

A journaled state shows a view, and says for each live mark which view an undo to
that mark would give back. An operation that only adds to the journal is
`Preserva`; a run between a mark and the undo to it is erased.

An undo log is the usual way to have one: every write pushes a record from which
the view before the write can be rebuilt.
-/

namespace Base

/-- The view of a state, the depth of its journal, and the view an undo would give
back at each mark up to that depth. -/
structure Diario (σ V : Type*) where
  ver : σ → V
  prof : σ → ℕ
  volta : σ → ℕ → V

namespace Diario

variable {σ V : Type*} (d : Diario σ V)

/-- Every mark of `s` is still there, and leads to the same view. -/
structure Preserva (s t : σ) : Prop where
  prof : d.prof s ≤ d.prof t
  volta : ∀ k ≤ d.prof s, d.volta t k = d.volta s k

/-- `m` marks the view of `s`, and `t` is the state that knows the mark. -/
structure Marca (s : σ) (m : ℕ) (t : σ) : Prop where
  preserva : d.Preserva s t
  ver : d.ver t = d.ver s
  depois : d.prof s ≤ m
  dentro : m ≤ d.prof t
  volta : d.volta t m = d.ver s

/-- `t` is `s` undone to the mark `m`. -/
structure Desfeito (s : σ) (m : ℕ) (t : σ) : Prop where
  ver : d.ver t = d.volta s m
  dentro : m ≤ d.prof t
  volta : ∀ k ≤ m, d.volta t k = d.volta s k

variable {d} {s t u : σ} {m : ℕ}

namespace Preserva

theorem refl (s : σ) : d.Preserva s s := ⟨Nat.le_refl _, fun _ _ => rfl⟩

theorem trans (h : d.Preserva s t) (h' : d.Preserva t u) : d.Preserva s u where
  prof := Nat.le_trans h.prof h'.prof
  volta k hk := (h'.volta k (Nat.le_trans hk h.prof)).trans (h.volta k hk)

end Preserva

/-- Between a mark and the undo to it nothing is left, neither in the view nor in
the journal of the state that was marked. -/
theorem restaura {a b : σ} (hm : d.Marca s m a) (hrun : d.Preserva a b) (hu : d.Desfeito b m t) :
    d.ver t = d.ver s ∧ d.Preserva s t := by
  refine ⟨?_, Nat.le_trans hm.depois hu.dentro, fun k hk => ?_⟩
  · rw [hu.ver, hrun.volta m hm.dentro, hm.volta]
  · have hkm : k ≤ m := Nat.le_trans hk hm.depois
    rw [hu.volta k hkm, hrun.volta k (Nat.le_trans hkm hm.dentro), hm.preserva.volta k hk]

end Diario

/-! ## Undo logs -/

section

variable {σ V E : Type*} (undo : E → V → V)

/-- Undoes the given records, the most recent first. -/
def desfazer : List E → V → V
  | [], v => v
  | e :: es, v => desfazer es (undo e v)

theorem desfazer_append (es fs : List E) (v : V) :
    desfazer undo (es ++ fs) v = desfazer undo fs (desfazer undo es v) := by
  induction es generalizing v with
  | nil => rfl
  | cons e es ih => exact ih (undo e v)

variable (ver : σ → V) (log : σ → List E)

/-- The journal of an undo log: a mark is a length of the log. -/
def diarioDoLog : Diario σ V where
  ver := ver
  prof s := (log s).length
  volta s k := desfazer undo ((log s).take ((log s).length - k)) (ver s)

variable {undo ver log} {s t : σ}

/-- A write that pushes the records that undo it. -/
theorem preserva_de_push {es : List E} (hlog : log t = es ++ log s)
    (hundo : desfazer undo es (ver t) = ver s) : (diarioDoLog undo ver log).Preserva s t where
  prof := by
    simp only [diarioDoLog, hlog, List.length_append]
    omega
  volta k hk := by
    have hk' : k ≤ (log s).length := hk
    have hlen : (log t).length - k = es.length + ((log s).length - k) := by
      rw [hlog, List.length_append]
      omega
    change desfazer undo ((log t).take ((log t).length - k)) (ver t) = _
    rw [hlen, hlog, List.take_length_add_append, desfazer_append, hundo]
    rfl

/-- The present length marks the present view. -/
theorem marca_do_log (s : σ) : (diarioDoLog undo ver log).Marca s (log s).length s where
  preserva := Diario.Preserva.refl s
  ver := rfl
  depois := Nat.le_refl _
  dentro := Nat.le_refl _
  volta := by
    change desfazer undo ((log s).take ((log s).length - (log s).length)) (ver s) = ver s
    rw [Nat.sub_self, List.take_zero]
    rfl

/-- Undoing the records above a mark, and dropping them, is an undo to the mark. -/
theorem desfeito_do_log {m : ℕ} (hm : m ≤ (log s).length)
    (hlog : log t = (log s).drop ((log s).length - m))
    (hver : ver t = desfazer undo ((log s).take ((log s).length - m)) (ver s)) :
    (diarioDoLog undo ver log).Desfeito s m t := by
  have hlen : (log t).length = m := by
    rw [hlog, List.length_drop]
    omega
  refine ⟨hver, Nat.le_of_eq hlen.symm, fun k hk => ?_⟩
  change desfazer undo ((log t).take ((log t).length - k)) (ver t) =
    desfazer undo ((log s).take ((log s).length - k)) (ver s)
  have hsplit : (log s).take ((log s).length - k) =
      (log s).take ((log s).length - m) ++ (log t).take (m - k) := by
    rw [hlog, ← List.take_add]
    congr 1
    omega
  rw [hsplit, desfazer_append, ← hver, hlen]

end

end Base
