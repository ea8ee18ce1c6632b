import Eav7.TxIdeal

/-!
# Runs played from a script

A script lists what idealised accounts sign, the oldest first. If evaluation finds every
line ready on the state that the lines before it leave, then the script is a run.
-/

namespace Eav7

open Base

/-- A line of a script: what an account signs, when, and what it is charged. -/
structure Ato where
  chave : String
  endereco : String
  tx : Tx
  tipo : Tipo
  height : ℕ
  blockTs : ℕ
  recebido : ℕ
  gb : Peek
  fee : Amount

namespace Ato

variable (amb : Ambiente) (ato : Ato)

def assinada : Tx := ato.tx.assinada amb.cripto ato.chave ato.endereco

def acao : Acao := .transacao (ato.assinada amb) ato.height ato.blockTs

def pronto (s : State) : Bool :=
  pronta amb ato.chave ato.endereco ato.tx ato.tipo s ato.height ato.blockTs ato.recebido ato.gb
    ato.fee

/-- The state after a line. -/
def depois (s : State) : State :=
  depoisDe (fim (manipulador amb (ato.assinada amb) ⟨ato.height, ato.blockTs, ato.fee⟩ ato.tipo) s)
    (ato.assinada amb) ato.height ato.recebido ato.gb ato.fee

end Ato

section

variable (amb : Ambiente)

def encena (s : State) : List Ato → State
  | [] => s
  | ato :: atos => encena (ato.depois amb s) atos

/-- Every line is ready when its turn comes. -/
def ensaia (s : State) : List Ato → Bool
  | [] => true
  | ato :: atos => ato.pronto amb s && ensaia (ato.depois amb s) atos

/-- The past of a script that was played after another past. -/
def passadoDe (s : State) (antes : List (State × Acao)) : List Ato → List (State × Acao)
  | [] => antes
  | ato :: atos => passadoDe (ato.depois amb s) ((s, ato.acao amb) :: antes) atos

end

variable {amb : Ambiente} {s₀ s : State} {antes : List (State × Acao)}

theorem ensaia_append (atos outros : List Ato) : ensaia amb s (atos ++ outros) =
    (ensaia amb s atos && ensaia amb (encena amb s atos) outros) := by
  induction atos generalizing s with
  | nil => rfl
  | cons ato atos ih => rw [List.cons_append, ensaia, ensaia, encena, ih, Bool.and_assoc]

theorem subset_passadoDe (atos : List Ato) : antes ⊆ passadoDe amb s antes atos := by
  induction atos generalizing s antes with
  | nil => exact List.Subset.refl _
  | cons ato atos ih => exact fun x hx => ih (List.mem_cons_of_mem _ hx)

/-- Every line of a script is an action of its past. -/
theorem mem_passadoDe {atos : List Ato} {ato : Ato} (h : ato ∈ atos) :
    ∃ u, (u, ato.acao amb) ∈ passadoDe amb s antes atos := by
  induction atos generalizing s antes with
  | nil => cases h
  | cons outro atos ih =>
    rcases List.mem_cons.mp h with rfl | h
    · exact ⟨s, subset_passadoDe atos List.mem_cons_self⟩
    · exact ih h

theorem execucao_de_ensaia (hd : amb.cripto.Digere) {atos : List Ato}
    (hcapaz : ∀ ato ∈ atos, (produtorDe ato.chave ato.endereco).Capaz amb.cripto)
    (h : Execucao amb s₀ antes s) (hensaia : ensaia amb s atos = true) :
    Execucao amb s₀ (passadoDe amb s antes atos) (encena amb s atos) := by
  induction atos generalizing s antes with
  | nil => exact h
  | cons ato atos ih =>
    obtain ⟨hato, hatos⟩ := List.forall_mem_cons.mp hcapaz
    obtain ⟨hpronto, hensaia⟩ := (Bool.and_eq_true _ _ ▸ hensaia : _ ∧ _)
    exact ih hatos (h.segue (aceita_de_pronta hato hd hpronto)) hensaia

end Eav7
