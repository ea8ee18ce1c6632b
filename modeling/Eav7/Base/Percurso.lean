import Mathlib.Data.List.Basic

/-!
# Runs of accepted steps

A run goes from a first state to a last one through accepted steps, and its past
lists what happened, the newest first: the state each action found and the action.
A property of states that every step keeps holds at the end of every run; a property
that an action establishes and every step keeps holds from that action on.
-/

namespace Base

variable {σ α : Type} {passo : α → σ → σ → Prop}

inductive Percurso (passo : α → σ → σ → Prop) (s₀ : σ) : List (σ × α) → σ → Prop
  | inicio : Percurso passo s₀ [] s₀
  | segue {passado : List (σ × α)} {s t : σ} {a : α} (h : Percurso passo s₀ passado s)
      (ha : passo a s t) : Percurso passo s₀ ((s, a) :: passado) t

namespace Percurso

variable {s₀ s t : σ} {passado depois antes : List (σ × α)}

/-- What every step keeps holds at the end of a run. -/
theorem invariante {I : σ → Prop} (h : Percurso passo s₀ passado s) (h₀ : I s₀)
    (hpasso : ∀ {a s t}, I s → passo a s t → I t) : I s := by
  induction h with
  | inicio => exact h₀
  | segue _ ha ih => exact hpasso ih ha

theorem append (h : Percurso passo s₀ antes s) (h' : Percurso passo s depois t) :
    Percurso passo s₀ (depois ++ antes) t := by
  induction h' with
  | inicio => exact h
  | segue _ ha ih => exact ih.segue ha

theorem umPasso {a : α} (ha : passo a s t) : Percurso passo s [(s, a)] t := inicio.segue ha

/-- A run may be cut before and after any of its actions. -/
theorem corta {x : σ × α} (h : Percurso passo s₀ (depois ++ x :: antes) s) :
    Percurso passo s₀ antes x.1 ∧ ∃ t, passo x.2 x.1 t ∧ Percurso passo t depois s := by
  induction depois generalizing s with
  | nil =>
    cases h with
    | segue h ha => exact ⟨h, s, ha, inicio⟩
  | cons y depois ih =>
    cases h with
    | segue h ha =>
      obtain ⟨hantes, t, hx, hdepois⟩ := ih h
      exact ⟨hantes, t, hx, hdepois.segue ha⟩

/-- Every action of a run fired on a state that the run went through. -/
theorem disparou {x : σ × α} (h : Percurso passo s₀ passado s) (hx : x ∈ passado) :
    ∃ antes t, Percurso passo s₀ antes x.1 ∧ passo x.2 x.1 t ∧ antes ⊆ passado := by
  obtain ⟨depois, antes, rfl⟩ := List.append_of_mem hx
  obtain ⟨hantes, t, hpasso, -⟩ := h.corta
  exact ⟨antes, t, hantes, hpasso, fun y hy => by simp [hy]⟩

/-- What an action leaves true and every step keeps is true of every later state of
the run. -/
theorem dali_em_diante {I : σ → Prop} {x : σ × α}
    (h : Percurso passo s₀ (depois ++ x :: antes) s) (hx : ∀ t, passo x.2 x.1 t → I t)
    (hpasso : ∀ {a s t}, I s → passo a s t → I t) : I s ∧ ∀ y ∈ depois, I y.1 := by
  obtain ⟨-, t, ht, hdepois⟩ := h.corta
  refine ⟨hdepois.invariante (hx t ht) hpasso, fun y hy => ?_⟩
  obtain ⟨meio, u, hmeio, -, -⟩ := hdepois.disparou hy
  exact hmeio.invariante (hx t ht) hpasso

end Percurso
end Base
