import Eav7.Types
import Eav7.Config
import Eav7.Coercao
import Eav7.Base.Fallible

/-!
# The consensus state and its money operations

A handler is a fallible operation on the state: what it wrote before failing
stays written, as with `&mut State` in the source. Amounts are 128-bit words
with checked sums and differences.
-/

namespace Eav7

open Base

structure StateError where
  msg : String
  deriving DecidableEq

structure State where
  accounts : OrdMap String Account := ∅
  totalMinted : Amount := 0
  totalBurned : Amount := 0
  unbonding : List (String × Amount × ℕ) := []
  votes : OrdMap String (OrdMap String Amount) := ∅
  candidateVotes : OrdMap String Amount := ∅
  commission : OrdMap String ℕ := ∅
  pendingCommission : OrdMap String (ℕ × ℕ) := ∅
  tokens : OrdMap String Token := ∅
  nfts : OrdMap String Collection := ∅
  names : OrdMap String NameRecord := ∅
  contracts : OrdMap String Contract := ∅
  permissions : OrdMap String Permission := ∅
  pendingOps : OrdMap String PendingOp := ∅
  pendingPerm : OrdMap String PendingPerm := ∅
  proposals : OrdMap String Proposal := ∅
  params : OrdMap String String := ∅
  oracles : OrdMap String Oracle := ∅
  aiTasks : OrdMap String Task := ∅
  aiAttesters : OrdMap String Attester := ∅
  bridge : Bridge := {}
  bridgeRelayers : OrdMap String Unit := ∅
  bridgeSourceCommittees : OrdMap String Committee := ∅
  delegations : OrdMap String (OrdMap String Amount) := ∅
  vesting : OrdMap String Vesting := ∅
  slashed : OrdMap String Bool := ∅
  rewardAccPerVote : OrdMap String Amount := ∅
  voterRewardDebt : OrdMap String (OrdMap String Amount) := ∅
  treasury : Amount := 0

instance : Inhabited State := ⟨{}⟩

/-- The execution context of a handler. Each handler debits `fee` itself. -/
structure Ctx where
  height : ℕ
  blockTs : ℕ
  fee : Amount

abbrev R (α : Type) := Except StateError α

abbrev Op (α : Type) := EStateM StateError State α

def erro {α : Type} (msg : String) : R α := .error ⟨msg⟩

/-- Fails with the message when the condition holds. -/
def recusar (c : Prop) [Decidable c] (msg : String) : R Unit :=
  if c then erro msg else .ok ()

/-- The value of an option, or the failure. -/
def exigir {α : Type} (x : Option α) (msg : String) : R α :=
  match x with
  | some a => .ok a
  | none => erro msg

def soma (a b : Amount) : R Amount :=
  if a + b < u128Limit then .ok (a + b) else erro "estouro aritmético na soma"

def sub (a b : Amount) : R Amount :=
  if b ≤ a then .ok (a - b) else erro "estouro aritmético na subtração"

/-- `checked_mul`, with the caller's message. -/
def produto (a b : Amount) (msg : String) : R Amount :=
  if a * b < u128Limit then .ok (a * b) else erro msg

theorem recusar_eq_ok {c : Prop} [Decidable c] {msg : String} {u : Unit} :
    recusar c msg = .ok u ↔ ¬ c := by
  unfold recusar erro
  split_ifs with h <;> simp [h]

theorem exigir_eq_ok {α : Type} {x : Option α} {msg : String} {a : α} :
    exigir x msg = .ok a ↔ x = some a := by
  unfold exigir erro
  cases x <;> simp

theorem soma_eq_ok {a b c : Amount} : soma a b = .ok c ↔ c = a + b ∧ a + b < u128Limit := by
  unfold soma erro
  split_ifs with h <;> simp [h, eq_comm]

theorem sub_eq_ok {a b c : Amount} : sub a b = .ok c ↔ c = a - b ∧ b ≤ a := by
  unfold sub erro
  split_ifs with h <;> simp [h, eq_comm]

theorem produto_eq_ok {a b c : Amount} {msg : String} :
    produto a b msg = .ok c ↔ c = a * b ∧ a * b < u128Limit := by
  unfold produto erro
  split_ifs with h <;> simp [h, eq_comm]

namespace Account

def resourceStake (acc : Account) : R Amount := do
  soma (← sub acc.staked acc.delegatedOut) acc.delegatedIn

end Account

namespace State

variable (s : State)

/-- The stored account, or a zero one. Reading materialises nothing. -/
def account (address : String) : Account := s.accounts.getD address {}

def balanceOf (address : String) : Amount := (s.account address).balance

/-- Writes an account, materialising it. -/
def comConta (address : String) (f : Account → Account) : State :=
  { s with accounts := s.accounts.insert address (f (s.account address)) }

def comSaldo (address : String) (saldo : Amount) : State :=
  s.comConta address fun c => { c with balance := saldo }

@[simp] theorem account_comConta_self (a : String) (f : Account → Account) :
    (s.comConta a f).account a = f (s.account a) := by
  simp [comConta, account, OrdMap.getD_insert]

theorem account_comConta (a b : String) (f : Account → Account) :
    (s.comConta a f).account b = if b = a then f (s.account a) else s.account b := by
  simp [comConta, account, OrdMap.getD_insert]

theorem comConta_comConta (a : String) (f g : Account → Account) :
    (s.comConta a f).comConta a g = s.comConta a fun c => g (f c) := by
  simp [comConta, account, OrdMap.getD_insert]

end State

/-- Debits a balance. The account is materialised even when the debit fails. -/
def debitar (endereco : String) (valor : Amount) : Op Unit := do
  let s ← get
  set (s.comConta endereco id)
  recusar (s.balanceOf endereco < valor) "saldo insuficiente"
  set (s.comSaldo endereco (s.balanceOf endereco - valor))

/-- Credits a balance, materialising the account. -/
def creditar (endereco : String) (valor : Amount) : Op Unit := do
  let s ← get
  set (s.comConta endereco id)
  let saldo ← soma (s.balanceOf endereco) valor
  set (s.comSaldo endereco saldo)

/-- Debits a balance and counts the amount as burned. -/
def queimar (endereco : String) (valor : Amount) : Op Unit := do
  debitar endereco valor
  let s ← get
  let queimado ← soma s.totalBurned valor
  set { s with totalBurned := queimado }

end Eav7
