import Eav7.EavmTx
import Eav7.Eavm.MundoDoEstado

/-!
# What the machine cannot create or destroy

The machine moves native balances and nothing else of an account: the total of the
native balances and every contract balance stay as they were, through any nesting
of frames and reverts.
-/

namespace Eav7

open Base Eavm

namespace State

def totalNativo (s : State) : ℕ := s.accounts.total fun _ c => c.balance

def totalContratos (s : State) : ℕ := s.contracts.total fun _ c => c.balance

/-- An account but for its balance. -/
def semSaldo (s : State) (e7 : String) : Account := { s.account e7 with balance := 0 }

/-- A state but for what the machine writes to. -/
def semMundo (s : State) : State := { s with accounts := ∅, contracts := ∅ }

theorem totalNativo_comSaldo (s : State) (e7 : String) (n : Amount) :
    (s.comSaldo e7 n).totalNativo + s.balanceOf e7 = s.totalNativo + n := by
  have h := OrdMap.total_insert (fun _ (c : Account) => c.balance) s.accounts e7
    { s.account e7 with balance := n }
  rw [OrdMap.weight_eq_getD (d := {}) _ _ _ rfl] at h
  exact h

theorem balanceOf_comSaldo (s : State) (e7 e : String) (n : ℕ) :
    (s.comSaldo e7 n).balanceOf e = if e = e7 then n else s.balanceOf e := by
  unfold comSaldo balanceOf
  rw [account_comConta, apply_ite Account.balance]

theorem semSaldo_comSaldo (s : State) (e7 e : String) (n : Amount) :
    (s.comSaldo e7 n).semSaldo e = s.semSaldo e := by
  unfold comSaldo semSaldo
  rw [account_comConta]
  split_ifs with h
  · rw [h]
  · rfl

/-- What a run of the machine keeps. -/
structure Conservado (s t : State) : Prop where
  nativo : t.totalNativo = s.totalNativo
  contratos : t.totalContratos = s.totalContratos
  livro : ∀ a, (t.contracts.getD a contratoVazio).balance = (s.contracts.getD a contratoVazio).balance
  campos : ∀ e7, t.semSaldo e7 = s.semSaldo e7
  faixa : (∀ e7, s.balanceOf e7 < u128Limit) → ∀ e7, t.balanceOf e7 < u128Limit
  resto : t.semMundo = s.semMundo

namespace Conservado

variable {s t u : State}

theorem refl (s : State) : Conservado s s := ⟨rfl, rfl, fun _ => rfl, fun _ => rfl, id, rfl⟩

theorem trans (h : Conservado s t) (h' : Conservado t u) : Conservado s u where
  nativo := h'.nativo.trans h.nativo
  contratos := h'.contratos.trans h.contratos
  livro a := (h'.livro a).trans (h.livro a)
  campos e7 := (h'.campos e7).trans (h.campos e7)
  faixa hs := h'.faixa (h.faixa hs)
  resto := h'.resto.trans h.resto

/-- Writing a contract with the balance it had. -/
theorem escritaNoContrato (s : State) (a : String) {c : Contract}
    (hc : c.balance = (s.contracts.getD a contratoVazio).balance) :
    Conservado s { s with contracts := s.contracts.insert a c } where
  nativo := rfl
  contratos := by
    have h := OrdMap.total_insert (fun _ (c : Contract) => c.balance) s.contracts a c
    rw [OrdMap.weight_eq_getD (d := contratoVazio) _ _ _ rfl, hc] at h
    exact Nat.add_right_cancel h
  livro b := by
    change ((s.contracts.insert a c).getD b contratoVazio).balance = _
    rw [OrdMap.getD_insert]
    split_ifs with hb
    · rw [hb, hc]
    · rfl
  campos _ := rfl
  faixa := id
  resto := rfl

/-- A debit and a credit of the same amount, also between names of one account. -/
theorem debitoCredito (s : State) {de para : String} {v n m : ℕ}
    (hn : n + v = s.balanceOf de) (hm : m = (s.comSaldo de n).balanceOf para + v)
    (hfaixa : m < u128Limit) : Conservado s ((s.comSaldo de n).comSaldo para m) where
  nativo := by
    have hd := totalNativo_comSaldo s de n
    have hc := totalNativo_comSaldo (s.comSaldo de n) para m
    omega
  contratos := rfl
  livro _ := rfl
  campos e7 := by rw [semSaldo_comSaldo, semSaldo_comSaldo]
  faixa hs e7 := by
    rw [balanceOf_comSaldo, balanceOf_comSaldo]
    split_ifs
    · exact hfaixa
    · exact Nat.lt_of_le_of_lt (hn ▸ Nat.le_add_right n v) (hs de)
    · exact hs e7
  resto := rfl

end Conservado

end State

namespace EavmWorld

open State

variable {cr : Cripto}

theorem materializaCtr_conservado (w : EavmWorld) (a : String) :
    Conservado w.state (w.materializaCtr a).state := by
  unfold materializaCtr
  split_ifs with h
  · exact Conservado.refl _
  · refine Conservado.escritaNoContrato w.state a ?_
    have hnone : w.state.contracts.get? a = none :=
      OrdMap.contains_eq_false.mp (Bool.eq_false_iff.mpr h)
    rw [OrdMap.getD, hnone]
    rfl

theorem moveValue_conservado (w : EavmWorld) (de para : Address) (value : Word)
    (kind : TransferKind) : Conservado w.state (w.moveValue cr de para value kind).2.state := by
  unfold moveValue
  by_cases h1 : w.state.balanceOf (cr.e7OfAddr de) < value.toNat
  · rw [if_pos h1]
    exact Conservado.refl _
  rw [if_neg h1]
  by_cases h2 : u128Limit ≤ value.toNat
  · rw [if_pos h2]
    exact Conservado.refl _
  rw [if_neg h2]
  cases hd : w.addBalance cr de value.toNat true with
  | none =>
    dsimp only
    rw [desfazAte_length]
    exact Conservado.refl _
  | some w1 =>
    have hw1 := addBalance_preserva hd
    obtain ⟨n, hn, hw1state⟩ := addBalance_inv hd
    dsimp only
    cases hp : w1.addBalance cr para value.toNat false with
    | none =>
      have hvolta : diario.ver (w1.desfazAte w.journal.length) = diario.ver w :=
        (Diario.restaura (marca_do_log w) hw1 (desfeito_desfazAte hw1.prof)).1
      have hstate : (w1.desfazAte w.journal.length).state = w.state :=
        state_de_visao hvolta
      rw [hstate]
      exact Conservado.refl _
    | some w2 =>
      obtain ⟨m, hm, hw2state⟩ := addBalance_inv hp
      have hpar : Conservado w.state w2.state := by
        rw [hw2state]
        rw [hw1state] at hm ⊢
        exact Conservado.debitoCredito w.state (by simpa using hn) hm.1 hm.2
      dsimp only
      split_ifs
      · exact hpar
      · exact hpar

theorem putCode_conservado (w : EavmWorld) (a : Address) (code : Bytes) :
    Conservado w.state (w.putCode a code).state :=
  (materializaCtr_conservado w (addrHex a)).trans (Conservado.escritaNoContrato _ _ rfl)

/-- Every write of the world keeps the totals. -/
theorem world_conserva (cr : Cripto) :
    Conserva (world cr) diario fun v v' => Conservado v.state v'.state where
  refl v := Conservado.refl v.state
  trans := Conservado.trans
  setStorage w a _ _ := (materializaCtr_conservado w (addrHex a)).trans
    (Conservado.escritaNoContrato _ _ rfl)
  putCode := putCode_conservado
  moveValue := moveValue_conservado
  bumpNonce w a := (materializaCtr_conservado w (addrHex a)).trans
    (Conservado.escritaNoContrato _ _ rfl)

end EavmWorld

/-! ## A whole execution -/

section

open State EavmWorld

variable {cr : Cripto} {pc : Precompilados}

/-- A top-level run adds to the journal, and keeps the totals. -/
theorem executarNoMundo_mantem (p : ExecParams) (w : EavmWorld) :
    diario.Preserva w (executarNoMundo cr pc p w).2 ∧
      Conservado w.state (executarNoMundo cr pc p w).2.state := by
  have hquadro : QuadroMantem diario (fun v v' => Conservado v.state v'.state) cr
      (eavmHost (world cr) cr pc maxCallDepth) p :=
    (eavmHost_isola (world_journaled cr) (world_conserva cr) maxCallDepth).2.2 p
  have hruns := hquadro { world := w }
  unfold executarNoMundo executaNoMundo
  split
  case h_1 r h hrun => exact ⟨(hruns.ok hrun).1.diario, (hruns.ok hrun).1.visao⟩
  case h_2 e h hrun => exact ⟨(hruns.error hrun).diario, (hruns.error hrun).visao⟩

end

end Eav7
