import Eav7.Base.OrdMap

/-!
# Books of an asset

A book holds the balances of an asset, what of it is set aside and how much there is.
A posting within the balances moves an amount between them, and keeps the book in
order: what is held and what is set aside make up the supply.
-/

namespace Base

structure Razao (κ : Type) [LinearOrder κ] where
  saldos : OrdMap κ ℕ
  reserva : ℕ
  suprimento : ℕ

/-- A movement of an amount: between two holders, or between one of them and the supply
or the reserve. -/
inductive Lancamento (κ : Type) where
  | transfere (de para : κ) (x : ℕ)
  | emite (para : κ) (x : ℕ)
  | queima (de : κ) (x : ℕ)
  | trava (de : κ) (x : ℕ)
  | libera (para : κ) (x : ℕ)

variable {κ : Type} [LinearOrder κ]

namespace Lancamento

/-- What a holder gives. -/
def sai (y : κ) : Lancamento κ → ℕ
  | transfere de _ x | queima de x | trava de x => if y = de then x else 0
  | emite .. | libera .. => 0

/-- What a holder receives. -/
def entra (y : κ) : Lancamento κ → ℕ
  | transfere _ para x | emite para x | libera para x => if y = para then x else 0
  | queima .. | trava .. => 0

end Lancamento

namespace Razao

variable (r : Razao κ)

def saldo (k : κ) : ℕ := r.saldos.getD k 0

def total : ℕ := r.saldos.total fun _ v => v

def EmOrdem : Prop := r.total + r.reserva = r.suprimento

def comSaldo (k : κ) (v : ℕ) : Razao κ := { r with saldos := r.saldos.insert k v }

def tira (k : κ) (x : ℕ) : Razao κ := r.comSaldo k (r.saldo k - x)

def poe (k : κ) (x : ℕ) : Razao κ := r.comSaldo k (r.saldo k + x)

def aplica : Lancamento κ → Razao κ
  | .transfere de para x => (r.tira de x).poe para x
  | .emite para x => { r.poe para x with suprimento := r.suprimento + x }
  | .queima de x => { r.tira de x with suprimento := r.suprimento - x }
  | .trava de x => { r.tira de x with reserva := r.reserva + x }
  | .libera para x => { r.poe para x with reserva := r.reserva - x }

/-- Nobody gives what is not there. -/
def Cabe : Lancamento κ → Prop
  | .transfere de _ x | .trava de x => x ≤ r.saldo de
  | .emite _ _ => True
  | .queima de x => x ≤ r.saldo de ∧ x ≤ r.suprimento
  | .libera _ x => x ≤ r.reserva

variable {r} {k y : κ} {x v : ℕ}

theorem saldo_comSaldo : (r.comSaldo k v).saldo y = if y = k then v else r.saldo y :=
  OrdMap.getD_insert _ _ _ _ _

theorem total_comSaldo : (r.comSaldo k v).total + r.saldo k = r.total + v := by
  have h := OrdMap.total_insert (fun _ v => v) r.saldos k v
  rw [OrdMap.weight_eq_getD _ _ _ (d := 0) rfl] at h
  exact h

theorem saldo_le_total : r.saldo k ≤ r.total := by
  have h := OrdMap.weight_le_total (fun _ v => v) r.saldos k
  rwa [OrdMap.weight_eq_getD _ _ _ (d := 0) rfl] at h

theorem total_tira (h : x ≤ r.saldo k) : (r.tira k x).total + x = r.total := by
  have ht := total_comSaldo (r := r) (k := k) (v := r.saldo k - x)
  unfold tira
  omega

theorem total_poe : (r.poe k x).total = r.total + x := by
  have ht := total_comSaldo (r := r) (k := k) (v := r.saldo k + x)
  unfold poe
  omega

/-- After an amount is taken, the total leaves room for it with any holder. -/
theorem saldo_tira_le (h : x ≤ r.saldo k) : (r.tira k x).saldo y + x ≤ r.total := by
  have hle := saldo_le_total (r := r.tira k x) (k := y)
  have ht := total_tira h
  omega

/-- The supply bounds what is held, with what is set aside. -/
theorem EmOrdem.total_le (h : r.EmOrdem) : r.total ≤ r.suprimento := by
  unfold EmOrdem at h
  omega

theorem EmOrdem.saldo_add_reserva_le (h : r.EmOrdem) : r.saldo k + r.reserva ≤ r.suprimento := by
  have hle := saldo_le_total (r := r) (k := k)
  unfold EmOrdem at h
  omega

/-- A posting within the balances keeps the book in order. -/
theorem EmOrdem.aplica {l : Lancamento κ} (h : r.EmOrdem) (hc : r.Cabe l) :
    (r.aplica l).EmOrdem := by
  unfold EmOrdem at *
  cases l with
  | transfere de para x =>
    have htira := total_tira hc
    have hpoe := total_poe (r := r.tira de x) (k := para) (x := x)
    change ((r.tira de x).poe para x).total + r.reserva = r.suprimento
    omega
  | emite para x =>
    have hpoe := total_poe (r := r) (k := para) (x := x)
    change (r.poe para x).total + r.reserva = r.suprimento + x
    omega
  | queima de x =>
    have htira := total_tira hc.1
    have hsuprimento := hc.2
    change (r.tira de x).total + r.reserva = r.suprimento - x
    omega
  | trava de x =>
    have htira := total_tira hc
    change (r.tira de x).total + (r.reserva + x) = r.suprimento
    omega
  | libera para x =>
    have hpoe := total_poe (r := r) (k := para) (x := x)
    have hreserva : x ≤ r.reserva := hc
    change (r.poe para x).total + (r.reserva - x) = r.suprimento
    omega

/-- A balance changes by what the posting gives to its holder and takes from it. -/
theorem saldo_aplica {l : Lancamento κ} (hc : r.Cabe l) (y : κ) :
    (r.aplica l).saldo y + l.sai y = r.saldo y + l.entra y := by
  have htira : ∀ {de x}, x ≤ r.saldo de →
      (r.tira de x).saldo y + (if y = de then x else 0) = r.saldo y := by
    intro de x h
    unfold tira
    rw [saldo_comSaldo]
    split_ifs with hy
    · rw [hy]
      exact Nat.sub_add_cancel h
    · rfl
  have hpoe : ∀ (r : Razao κ) (para : κ) (x : ℕ),
      (r.poe para x).saldo y = r.saldo y + if y = para then x else 0 := by
    intro r para x
    unfold poe
    rw [saldo_comSaldo]
    split_ifs with hy
    · rw [hy]
    · rfl
  cases l with
  | transfere de para x =>
    have ht := htira hc
    have hp := hpoe (r.tira de x) para x
    change ((r.tira de x).poe para x).saldo y + (if y = de then x else 0) =
      r.saldo y + if y = para then x else 0
    omega
  | emite para x => exact hpoe r para x
  | queima de x => exact htira hc.1
  | trava de x => exact htira hc
  | libera para x => exact hpoe r para x

end Razao
end Base
