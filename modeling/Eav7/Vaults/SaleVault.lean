import Eav7.Base.Keccak
import Eav7.Vaults.Vesting

/-!
# The sale vault

Grants enter by a Merkle claim or by the relayer, and money leaves by the releases and by
the sweep after the deadline; both call out. The sweep sends what it is asked for up to the
whole balance, so the vault stays solvent exactly as long as nobody sweeps more than the
excess.
-/

namespace Eav7.Vaults

open Base Solidity Reentrancia

/-- The storage of the contract, with its balance and the number of the block. -/
structure SaleVault where
  admin : Address
  relayer : Address
  merkleRoot : Bytes32 := 0
  saleOpen : Bool := false
  autoOpen : Bool := false
  paused : Bool := false
  claimDeadline : Uint 64 := 0
  sweepTo : Address
  defaultCliff : Uint 64 := 31536000
  defaultDuration : Uint 64 := 94608000
  saleAllocated : Uint 128 := 0
  saleSold : Uint 128 := 0
  grants : Address → Grant := fun _ => {}
  leafUsed : Bytes32 → Bool := fun _ => false
  paymentUsed : Bytes32 → Bool := fun _ => false
  balance : ℕ
  number : Uint 256

namespace SaleVault

/-- The constructor, on the balance that the address already had. -/
def construct (admin sweepTo relayer : Address) (balance : ℕ) (number : Uint 256) :
    Except String SaleVault := do
  require (admin ≠ 0 ∧ sweepTo ≠ 0 ∧ relayer ≠ 0) "zero"
  return { admin, sweepTo, relayer, balance, number }

section

variable (this : Address) (keccak256 : List UInt8 → Bytes32) (s : SaleVault) (sender : Address)

def onlyAdmin : Except String Unit := require (sender = s.admin) "admin"

def onlyRelayer : Except String Unit := require (sender = s.relayer) "relayer"

def whenNotPaused : Except String Unit := require (s.paused = false) "paused"

def receive (value : ℕ) : SaleVault := { s with balance := s.balance + value }

/-! ## Settings -/

def transferAdmin (next : Address) : Except String SaleVault := do
  s.onlyAdmin sender
  require (next ≠ 0) "zero"
  return { s with admin := next }

def setRelayer (next : Address) : Except String SaleVault := do
  s.onlyAdmin sender
  require (next ≠ 0) "zero"
  return { s with relayer := next }

def setSweepTo (next : Address) : Except String SaleVault := do
  s.onlyAdmin sender
  require (next ≠ 0) "zero"
  return { s with sweepTo := next }

def setPaused (v : Bool) : Except String SaleVault := do
  s.onlyAdmin sender
  return { s with paused := v }

def setDefaults (cliffBlocks durationBlocks : Uint 64) : Except String SaleVault := do
  s.onlyAdmin sender
  require (s.saleOpen = false) "open"
  require (durationBlocks > cliffBlocks) "defaults"
  return { s with defaultCliff := cliffBlocks, defaultDuration := durationBlocks }

def setSaleAllocated (amount : Uint 128) : Except String SaleVault := do
  s.onlyAdmin sender
  require (s.saleOpen = false) "open"
  require (amount > 0) "zero"
  return { s with saleAllocated := amount }

def setMerkleRoot (root : Bytes32) : Except String SaleVault := do
  s.onlyAdmin sender
  require (root ≠ 0) "root"
  return { s with merkleRoot := root }

def openSale (deadlineBlock : Uint 64) (enableAuto : Bool) : Except String SaleVault := do
  s.onlyAdmin sender
  require (s.saleOpen = false) "open"
  require (enableAuto = true ∨ s.merkleRoot ≠ 0) "mode"
  if enableAuto then require (s.saleAllocated > 0) "cap"
  return { s with saleOpen := true, autoOpen := enableAuto, claimDeadline := deadlineBlock }

/-! ## Grants -/

def writeGrant (account : Address) (amount : Uint 256) (cliffBlocks durationBlocks : Uint 64) :
    SaleVault :=
  let g : Grant :=
    { total := cast 128 amount, released := 0, start := cast 64 s.number
      cliff := cliffBlocks, duration := durationBlocks }
  { s with grants := Function.update s.grants account g }

/-- The claims are over: no grant is written from here on. -/
def noPrazo : Prop := s.claimDeadline = 0 ∨ s.number.val ≤ s.claimDeadline.val

instance : Decidable s.noPrazo := inferInstanceAs (Decidable (_ ∨ _))

/-- What is hashed into a leaf of the sale list. -/
def folha (index : Uint 256) (account : Address) (amount : Uint 256)
    (cliffBlocks durationBlocks : Uint 64) : List UInt8 :=
  bigEndian 32 index.val ++ bigEndian 20 account.val ++ bigEndian 32 amount.val ++
    bigEndian 8 cliffBlocks.val ++ bigEndian 8 durationBlocks.val

end

section

variable (keccak256 : List UInt8 → Bytes32)

/-- One level of `_verify`: the smaller word is hashed first. -/
def sobe (computed p : Bytes32) : Bytes32 :=
  if computed ≤ p then keccak256 (computed.bytes ++ p.bytes)
  else keccak256 (p.bytes ++ computed.bytes)

def verify (proof : List Bytes32) (root leaf : Bytes32) : Bool :=
  proof.foldl (sobe keccak256) leaf = root

end

section

variable (this : Address) (keccak256 : List UInt8 → Bytes32) (s : SaleVault) (sender : Address)

def claim (index amount : Uint 256) (cliffBlocks durationBlocks : Uint 64)
    (proof : List Bytes32) : Except String SaleVault := do
  s.whenNotPaused
  require (s.saleOpen = true ∧ s.merkleRoot ≠ 0) "merkle"
  require s.noPrazo "deadline"
  require (amount > 0 ∧ amount.val ≤ typeMax 128) "amount"
  require (durationBlocks > cliffBlocks) "vest"
  require ((s.grants sender).total = 0) "exists"
  let leaf := keccak256 (folha index sender amount cliffBlocks durationBlocks)
  require (s.leafUsed leaf = false) "leaf"
  require (verify keccak256 proof s.merkleRoot leaf = true) "proof"
  let s := { s with leafUsed := Function.update s.leafUsed leaf true }
  return s.writeGrant sender amount cliffBlocks durationBlocks

def grant (beneficiary : Address) (amount : Uint 256) (paymentId : Bytes32) :
    Except String SaleVault := do
  s.onlyRelayer sender
  s.whenNotPaused
  require (s.saleOpen = true ∧ s.autoOpen = true) "auto"
  require s.noPrazo "deadline"
  require (beneficiary ≠ 0) "beneficiary"
  require (amount > 0 ∧ amount.val ≤ typeMax 128) "amount"
  require (paymentId ≠ 0) "payment"
  require (s.paymentUsed paymentId = false) "replay"
  require ((s.grants beneficiary).total = 0) "exists"
  let sold ← add (cast 256 s.saleSold) amount
  require (sold.val ≤ s.saleAllocated.val) "cap"
  let s := { s with
    paymentUsed := Function.update s.paymentUsed paymentId true, saleSold := cast 128 sold }
  return s.writeGrant beneficiary amount s.defaultCliff s.defaultDuration

/-! ## Money going out -/

def vested (account : Address) (height : Uint 256) : Except String (Uint 256) :=
  (s.grants account).vested height

def releasable (account : Address) : Except String (Uint 256) :=
  (s.grants account).releasable s.number

/-- A call with value, whose failure reverts. -/
def paga (para : Address) (value : ℕ) : Except String (Pagamento × SaleVault) := do
  require (value ≤ s.balance) "transfer"
  return (⟨para, value⟩, { s with balance := saldoDepois this para s.balance value })

def release : Except String (Pagamento × SaleVault) := do
  s.whenNotPaused
  let amount ← s.releasable sender
  require (amount > 0) "nothing"
  let g := s.grants sender
  let released ← add (cast 256 g.released) amount
  require (s.balance ≥ amount.val) "liquidity"
  let g := { g with released := cast 128 released }
  let s := { s with grants := Function.update s.grants sender g }
  s.paga this sender amount.val

def sweepExcess (maxAmount : Uint 256) : Except String (Pagamento × SaleVault) := do
  s.onlyAdmin sender
  require (s.saleOpen = true ∧ s.claimDeadline ≠ 0 ∧ s.number.val > s.claimDeadline.val) "early"
  require (maxAmount > 0) "zero"
  let send := if maxAmount.val < s.balance then maxAmount.val else s.balance
  require (send > 0) "empty"
  s.paga this s.sweepTo send

end

/-! ## The contract as a machine -/

/-- The external functions with their arguments. -/
inductive Fn
  | receive (value : ℕ)
  | transferAdmin (next : Address)
  | setRelayer (next : Address)
  | setSweepTo (next : Address)
  | setPaused (v : Bool)
  | setDefaults (cliffBlocks durationBlocks : Uint 64)
  | setSaleAllocated (amount : Uint 128)
  | setMerkleRoot (root : Bytes32)
  | openSale (deadlineBlock : Uint 64) (enableAuto : Bool)
  | claim (index amount : Uint 256) (cliffBlocks durationBlocks : Uint 64) (proof : List Bytes32)
  | grant (beneficiary : Address) (amount : Uint 256) (paymentId : Bytes32)
  | release
  | sweepExcess (maxAmount : Uint 256)

structure Chamada where
  sender : Address
  fn : Fn

section

variable (this : Address) (keccak256 : List UInt8 → Bytes32)

def executa (c : Chamada) (s : SaleVault) : Except String (Reentrancia.Saida SaleVault Pagamento) :=
  match c.fn with
  | .receive value => .ok (.volta (s.receive value))
  | .transferAdmin next => return .volta (← s.transferAdmin c.sender next)
  | .setRelayer next => return .volta (← s.setRelayer c.sender next)
  | .setSweepTo next => return .volta (← s.setSweepTo c.sender next)
  | .setPaused v => return .volta (← s.setPaused c.sender v)
  | .setDefaults cliffBlocks durationBlocks =>
    return .volta (← s.setDefaults c.sender cliffBlocks durationBlocks)
  | .setSaleAllocated amount => return .volta (← s.setSaleAllocated c.sender amount)
  | .setMerkleRoot root => return .volta (← s.setMerkleRoot c.sender root)
  | .openSale deadlineBlock enableAuto =>
    return .volta (← s.openSale c.sender deadlineBlock enableAuto)
  | .claim index amount cliffBlocks durationBlocks proof =>
    return .volta (← s.claim keccak256 c.sender index amount cliffBlocks durationBlocks proof)
  | .grant beneficiary amount paymentId =>
    return .volta (← s.grant c.sender beneficiary amount paymentId)
  | .release => do
    let (p, t) ← s.release this c.sender
    return .entrega p t
  | .sweepExcess maxAmount => do
    let (p, t) ← s.sweepExcess this c.sender maxAmount
    return .entrega p t

end

/-- Blocks go by. -/
def passa (s t : SaleVault) : Prop := ∃ n, s.number ≤ n ∧ t = { s with number := n }

/-! ## What an accepted call does -/

namespace Chamada

/-- What a call brings in. -/
def deposito (c : Chamada) : ℕ :=
  match c.fn with
  | .receive value => value
  | _ => 0

/-- The total of the grant that a call writes. -/
def concessao (c : Chamada) : ℕ :=
  match c.fn with
  | .claim _ amount _ _ _ => amount.val
  | .grant _ amount _ => amount.val
  | _ => 0

end Chamada

def depositado (feitas : List Chamada) : ℕ := (feitas.map Chamada.deposito).sum

def concedido (feitas : List Chamada) : ℕ := (feitas.map Chamada.concessao).sum

/-- Nothing more can be granted: the sale is open and past its deadline. -/
def Encerrada (s : SaleVault) : Prop := s.saleOpen = true ∧ ¬ s.noPrazo

/-- What is owed over all the accounts. -/
def devido (s : SaleVault) : ℕ := ∑ a, (s.grants a).devido

/-- The effect of an accepted call on the money, the grants and the deadline. -/
inductive Efeito (this : Address) (c : Chamada) (s t : SaleVault) : Prop
  | ajusta (hfn : c.deposito = 0 ∧ c.concessao = 0) (hbalance : t.balance = s.balance)
      (hgrants : t.grants = s.grants) (hnumber : t.number = s.number)
      (hprazo : s.Encerrada → t.Encerrada)
  | recebe (hfn : c.concessao = 0) (ht : t = s.receive c.deposito)
  | concede (conta : Address) (hfn : c.deposito = 0)
      (hvale : c.concessao < 2 ^ 128) (haberta : ¬ s.Encerrada)
      (hnova : (s.grants conta).total = 0) (hbalance : t.balance = s.balance)
      (hnumber : t.number = s.number) (hprazo : ¬ t.Encerrada)
      (hgrants : ∃ g : Grant, g.total.val = c.concessao ∧ g.released = 0 ∧
        t.grants = Function.update s.grants conta g)
  | paga (amount : Uint 256) (hfn : c.deposito = 0 ∧ c.concessao = 0)
      (hamount : (s.grants c.sender).releasable s.number = .ok amount)
      (hbalance : s.balance - amount.val ≤ t.balance) (hnumber : t.number = s.number)
      (hprazo : s.Encerrada → t.Encerrada)
      (hgrants : ∃ g : Grant, g.vestido = (s.grants c.sender).vestido ∧
        g.total = (s.grants c.sender).total ∧
        g.released.val = (s.grants c.sender).released.val + amount.val ∧
        t.grants = Function.update s.grants c.sender g)
  | varre (maxAmount : Uint 256) (hfn : c.fn = .sweepExcess maxAmount) (hprazo : s.Encerrada)
      (hbalance : t.balance = saldoDepois this s.sweepTo s.balance (min maxAmount.val s.balance))
      (hgrants : t.grants = s.grants) (hnumber : t.number = s.number) (hprazo' : t.Encerrada)

section

variable {this : Address} {keccak256 : List UInt8 → Bytes32} {s t : SaleVault} {sender : Address}
  {p : Pagamento}

theorem paga_eq_ok {para : Address} {value : ℕ} : s.paga this para value = .ok (p, t) ↔
    value ≤ s.balance ∧ p = ⟨para, value⟩ ∧
      t = { s with balance := saldoDepois this para s.balance value } := by
  unfold paga
  rw [require_bind_eq_ok]
  refine and_congr_right fun _ => ?_
  change Except.ok _ = Except.ok _ ↔ _
  rw [Except.ok.injEq, Prod.mk.injEq, eq_comm, @eq_comm _ _ t]

/-- An accepted release: what it pays, and the grant and the balance that it leaves. -/
theorem release_eq_ok : s.release this sender = .ok (p, t) ↔
    s.paused = false ∧ ∃ amount released : Uint 256, s.releasable sender = .ok amount ∧
      0 < amount ∧ released.val = (s.grants sender).released.val + amount.val ∧
      amount.val ≤ s.balance ∧ p = ⟨sender, amount.val⟩ ∧
      t = { s with
        grants := Function.update s.grants sender
          { s.grants sender with released := cast 128 released }
        balance := saldoDepois this sender s.balance amount.val } := by
  unfold release whenNotPaused
  simp only [Solidity.bind_eq_ok, require_eq_ok, exists_const, paga_eq_ok, add_eq_ok]
  refine and_congr_right fun _ => exists_congr fun amount => ?_
  have hreleased : (cast 256 (s.grants sender).released).val = (s.grants sender).released.val :=
    cast_val_of_le (by decide) _
  constructor
  · rintro ⟨hamount, hpos, released, hsoma, -, hsaldo, hp, ht⟩
    exact ⟨released, hamount, hpos, hsoma.trans (by rw [hreleased]), hsaldo, hp, ht⟩
  · rintro ⟨released, hamount, hpos, hsoma, hsaldo, hp, ht⟩
    exact ⟨hamount, hpos, released, hsoma.trans (by rw [hreleased]), hsaldo, hsaldo, hp, ht⟩

/-- An accepted sweep: whatever is asked for, up to the whole balance. -/
theorem sweepExcess_eq_ok {maxAmount : Uint 256} :
    s.sweepExcess this sender maxAmount = .ok (p, t) ↔ sender = s.admin ∧ s.Encerrada ∧
      0 < maxAmount ∧ 0 < s.balance ∧ p = ⟨s.sweepTo, min maxAmount.val s.balance⟩ ∧
      t = { s with
        balance := saldoDepois this s.sweepTo s.balance (min maxAmount.val s.balance) } := by
  have hsend : (if maxAmount.val < s.balance then maxAmount.val else s.balance) =
      min maxAmount.val s.balance := by
    split_ifs with h
    · exact (min_eq_left h.le).symm
    · exact (min_eq_right (not_lt.mp h)).symm
  have hprazo : (s.saleOpen = true ∧ s.claimDeadline ≠ 0 ∧ s.number.val > s.claimDeadline.val) ↔
      s.Encerrada := by
    unfold Encerrada noPrazo
    rw [not_or, not_le]
  unfold sweepExcess onlyAdmin
  simp only [Solidity.bind_eq_ok, require_eq_ok, exists_const, paga_eq_ok, hsend, hprazo]
  refine and_congr_right fun _ => and_congr_right fun _ => and_congr_right fun hmax => ?_
  have hmax : 0 < maxAmount.val := hmax
  constructor
  · rintro ⟨hpos, -, h⟩
    exact ⟨by omega, h⟩
  · rintro ⟨hpos, h⟩
    exact ⟨by omega, min_le_right _ _, h⟩

theorem claim_eq_ok {index amount : Uint 256} {cliffBlocks durationBlocks : Uint 64}
    {proof : List Bytes32}
    (h : s.claim keccak256 sender index amount cliffBlocks durationBlocks proof = .ok t) :
    s.saleOpen = true ∧ s.noPrazo ∧ amount.val < 2 ^ 128 ∧ (s.grants sender).total = 0 ∧
      ∃ usadas, t = { s with leafUsed := usadas }.writeGrant sender amount cliffBlocks
        durationBlocks := by
  unfold claim whenNotPaused at h
  simp only [Solidity.bind_eq_ok, require_eq_ok, exists_const] at h
  obtain ⟨-, ⟨haberta, -⟩, hprazo, ⟨-, hvale⟩, -, hnova, -, -, ht⟩ := h
  exact ⟨haberta, hprazo, le_typeMax_iff.mp hvale, hnova, _, (Except.ok.inj ht).symm⟩

theorem grant_eq_ok {beneficiary : Address} {amount : Uint 256} {paymentId : Bytes32}
    (h : s.grant sender beneficiary amount paymentId = .ok t) :
    s.saleOpen = true ∧ s.noPrazo ∧ amount.val < 2 ^ 128 ∧ (s.grants beneficiary).total = 0 ∧
      ∃ usados vendido, t = { s with paymentUsed := usados, saleSold := vendido }.writeGrant
        beneficiary amount s.defaultCliff s.defaultDuration := by
  unfold grant onlyRelayer whenNotPaused at h
  simp only [Solidity.bind_eq_ok, require_eq_ok, exists_const] at h
  obtain ⟨-, -, ⟨haberta, -⟩, hprazo, -, ⟨-, hvale⟩, -, -, hnova, vendido, -, -, ht⟩ := h
  exact ⟨haberta, hprazo, le_typeMax_iff.mp hvale, hnova, _, _, (Except.ok.inj ht).symm⟩

/-- Every accepted call is a setting, a deposit, a grant, a release or a sweep. -/
theorem efeito_of_executa {c : Chamada} {saida : Reentrancia.Saida SaleVault Pagamento}
    (h : executa this keccak256 c s = .ok saida) : Efeito this c s saida.estado := by
  obtain ⟨sender, fn⟩ := c
  cases fn with
  | receive value =>
    cases h
    exact .recebe rfl rfl
  | transferAdmin next =>
    obtain ⟨t, ht, ⟨⟩⟩ := Solidity.bind_eq_ok.mp h
    cases of_require (of_require ht)
    exact .ajusta ⟨rfl, rfl⟩ rfl rfl rfl id
  | setRelayer next =>
    obtain ⟨t, ht, ⟨⟩⟩ := Solidity.bind_eq_ok.mp h
    cases of_require (of_require ht)
    exact .ajusta ⟨rfl, rfl⟩ rfl rfl rfl id
  | setSweepTo next =>
    obtain ⟨t, ht, ⟨⟩⟩ := Solidity.bind_eq_ok.mp h
    cases of_require (of_require ht)
    exact .ajusta ⟨rfl, rfl⟩ rfl rfl rfl id
  | setPaused v =>
    obtain ⟨t, ht, ⟨⟩⟩ := Solidity.bind_eq_ok.mp h
    cases of_require ht
    exact .ajusta ⟨rfl, rfl⟩ rfl rfl rfl id
  | setDefaults cliffBlocks durationBlocks =>
    obtain ⟨t, ht, ⟨⟩⟩ := Solidity.bind_eq_ok.mp h
    cases of_require (of_require (of_require ht))
    exact .ajusta ⟨rfl, rfl⟩ rfl rfl rfl id
  | setSaleAllocated amount =>
    obtain ⟨t, ht, ⟨⟩⟩ := Solidity.bind_eq_ok.mp h
    cases of_require (of_require (of_require ht))
    exact .ajusta ⟨rfl, rfl⟩ rfl rfl rfl id
  | setMerkleRoot root =>
    obtain ⟨t, ht, ⟨⟩⟩ := Solidity.bind_eq_ok.mp h
    cases of_require (of_require ht)
    exact .ajusta ⟨rfl, rfl⟩ rfl rfl rfl id
  | openSale deadlineBlock enableAuto =>
    obtain ⟨t, ht, ⟨⟩⟩ := Solidity.bind_eq_ok.mp h
    obtain ⟨hfechada, ht⟩ := require_bind_eq_ok.mp (of_require ht)
    have hprazo : s.Encerrada → t.Encerrada := fun h => by rw [h.1] at hfechada; cases hfechada
    cases enableAuto with
    | true =>
      cases of_require (of_require ht)
      exact .ajusta ⟨rfl, rfl⟩ rfl rfl rfl hprazo
    | false =>
      cases of_require ht
      exact .ajusta ⟨rfl, rfl⟩ rfl rfl rfl hprazo
  | claim index amount cliffBlocks durationBlocks proof =>
    obtain ⟨t, ht, ⟨⟩⟩ := Solidity.bind_eq_ok.mp h
    obtain ⟨haberta, hprazo, hvale, hnova, usadas, rfl⟩ := claim_eq_ok ht
    exact .concede sender rfl hvale (fun h => h.2 hprazo) hnova rfl rfl (fun h => h.2 hprazo)
      ⟨_, cast_val_of_lt hvale, rfl, rfl⟩
  | grant beneficiary amount paymentId =>
    obtain ⟨t, ht, ⟨⟩⟩ := Solidity.bind_eq_ok.mp h
    obtain ⟨haberta, hprazo, hvale, hnova, usados, vendido, rfl⟩ := grant_eq_ok ht
    exact .concede beneficiary rfl hvale (fun h => h.2 hprazo) hnova rfl rfl (fun h => h.2 hprazo)
      ⟨_, cast_val_of_lt hvale, rfl, rfl⟩
  | release =>
    obtain ⟨⟨p, t⟩, ht, ⟨⟩⟩ := Solidity.bind_eq_ok.mp h
    obtain ⟨-, amount, released, hamount, -, hsoma, -, -, rfl⟩ := release_eq_ok.mp ht
    have hcabe : released.val < 2 ^ 128 := hsoma.trans_lt (Grant.releasable_cabe hamount)
    exact .paga amount ⟨rfl, rfl⟩ hamount saldoDepois_ge rfl id
      ⟨{ s.grants sender with released := cast 128 released }, rfl, rfl,
        (cast_val_of_lt hcabe).trans hsoma, rfl⟩
  | sweepExcess maxAmount =>
    obtain ⟨⟨p, t⟩, ht, ⟨⟩⟩ := Solidity.bind_eq_ok.mp h
    obtain ⟨-, hprazo, -, -, -, rfl⟩ := sweepExcess_eq_ok.mp ht
    exact .varre maxAmount rfl hprazo rfl rfl rfl hprazo

theorem encerrada_passa (h : passa s t) (hs : s.Encerrada) : t.Encerrada := by
  obtain ⟨n, hn, rfl⟩ := h
  have hn : s.number.val ≤ n.val := hn
  refine ⟨hs.1, fun h => hs.2 (h.imp_right fun hle => ?_)⟩
  exact hn.trans hle

end

/-! ## The books -/

/-- What the grants and the balance say about the calls that stand. -/
structure Contas (s : SaleVault) (feitas : List Chamada) : Prop where
  regular : ∀ a, (s.grants a).released.val ≤ (s.grants a).vestido s.number.val
  concedido : ∑ a, (s.grants a).total.val = concedido feitas
  /-- Until the deadline nothing leaves but through the releases. -/
  caixa : ¬ s.Encerrada → depositado feitas ≤ s.balance + ∑ a, (s.grants a).released.val

namespace Contas

variable {s t : SaleVault} {feitas : List Chamada} {this : Address} {c : Chamada}

theorem released_le (h : Contas s feitas) (a : Address) :
    (s.grants a).released.val ≤ (s.grants a).total.val :=
  (h.regular a).trans (Grant.vestido_le_total _ _)

theorem devido_add (h : Contas s feitas) :
    s.devido + ∑ a, (s.grants a).released.val = SaleVault.concedido feitas := by
  rw [← h.concedido, devido, ← Finset.sum_add_distrib]
  exact Finset.sum_congr rfl fun a _ => Nat.sub_add_cancel (h.released_le a)

theorem construct {admin sweepTo relayer : Address} {balance : ℕ} {number : Uint 256}
    (h : SaleVault.construct admin sweepTo relayer balance number = .ok s) : Contas s [] := by
  cases of_require h
  refine ⟨fun a => Nat.zero_le _, ?_, fun _ => Nat.zero_le _⟩
  exact Finset.sum_const_zero

/-- An accepted call keeps the books. -/
theorem efeito (h : Contas s feitas) (he : Efeito this c s t) : Contas t (c :: feitas) := by
  have hconcedido : SaleVault.concedido (c :: feitas) =
      c.concessao + SaleVault.concedido feitas := List.sum_cons
  have hdepositado : depositado (c :: feitas) = c.deposito + depositado feitas := List.sum_cons
  cases he with
  | ajusta hfn hbalance hgrants hnumber hprazo =>
    refine ⟨?_, ?_, fun haberta => ?_⟩
    · rw [hgrants, hnumber]
      exact h.regular
    · rw [hgrants, h.concedido, hconcedido, hfn.2, zero_add]
    · rw [hdepositado, hfn.1, zero_add, hbalance, hgrants]
      exact h.caixa fun hs => haberta (hprazo hs)
  | recebe hfn ht =>
    subst ht
    refine ⟨h.regular, ?_, fun haberta => ?_⟩
    · rw [hconcedido, hfn, zero_add]
      exact h.concedido
    · have hcaixa := h.caixa haberta
      have hbalance : (s.receive c.deposito).balance = s.balance + c.deposito := rfl
      have hgrants : (s.receive c.deposito).grants = s.grants := rfl
      rw [hdepositado, hbalance, hgrants]
      omega
  | concede conta hfn hvale haberta hnova hbalance hnumber hprazo hgrants =>
    obtain ⟨g, htotal, hreleased, hgrants⟩ := hgrants
    have hzero : (s.grants conta).released.val = 0 := by
      have := h.released_le conta
      rw [hnova] at this
      exact Nat.le_zero.mp this
    have htotais := sum_update s.grants (fun g => g.total.val) conta g
    have hsoltos := sum_update s.grants (fun g => g.released.val) conta g
    rw [← hgrants] at htotais hsoltos
    refine ⟨fun a => ?_, ?_, fun _ => ?_⟩
    · rw [hgrants, hnumber]
      by_cases ha : a = conta
      · rw [ha, Function.update_self, hreleased]
        exact Nat.zero_le _
      · rw [Function.update_of_ne ha]
        exact h.regular a
    · have hnova : (s.grants conta).total.val = 0 := congrArg Fin.val hnova
      have := h.concedido
      omega
    · have hreleased : g.released.val = 0 := congrArg Fin.val hreleased
      have := h.caixa haberta
      omega
  | paga amount hfn hamount hbalance hnumber hprazo hgrants =>
    obtain ⟨g, hvestido, htotal, hreleased, hgrants⟩ := hgrants
    have htotais := sum_update s.grants (fun g => g.total.val) c.sender g
    have hsoltos := sum_update s.grants (fun g => g.released.val) c.sender g
    have hamount := Grant.releasable_eq_ok.mp hamount
    rw [← hgrants] at htotais hsoltos
    refine ⟨fun a => ?_, ?_, fun haberta => ?_⟩
    · rw [hgrants, hnumber]
      by_cases ha : a = c.sender
      · have := h.regular c.sender
        rw [ha, Function.update_self, hvestido, hreleased]
        omega
      · rw [Function.update_of_ne ha]
        exact h.regular a
    · have := h.concedido
      have := congrArg Fin.val htotal
      omega
    · have := h.caixa fun hs => haberta (hprazo hs)
      omega
  | varre maxAmount hfn hprazo hbalance hgrants hnumber hprazo' =>
    have hnada : c.concessao = 0 := by
      unfold Chamada.concessao
      rw [hfn]
    refine ⟨?_, ?_, fun haberta => absurd hprazo' haberta⟩
    · rw [hgrants, hnumber]
      exact h.regular
    · rw [hgrants, h.concedido, hconcedido, hnada, zero_add]

theorem passa (h : Contas s feitas) (hpassa : SaleVault.passa s t) : Contas t feitas := by
  have hencerrada := encerrada_passa hpassa
  obtain ⟨n, hn, rfl⟩ := hpassa
  exact ⟨fun a => (h.regular a).trans (Grant.vestido_mono _ hn), h.concedido,
    fun haberta => h.caixa fun hs => haberta (hencerrada hs)⟩

end Contas

/-! ## Solvency -/

section

variable {this : Address} {keccak256 : List UInt8 → Bytes32} {s t : SaleVault}
  {feitas : List Chamada} {c : Chamada} {sender : Address}

/-- The books are kept by every call and by the blocks, whatever anybody asks for. -/
theorem contas_mantem :
    Mantem (executa this keccak256) passa (fun _ _ => True) (fun _ _ => True) Contas where
  chama h _ hexec _ := h.efeito (efeito_of_executa hexec)
  entre h hpassa _ := h.passa hpassa

/-- A sweep asks for no more than the excess over what is owed, or sends it back here. -/
def Excedente (this : Address) (c : Chamada) (s : SaleVault) : Prop :=
  ∀ maxAmount, c.fn = .sweepExcess maxAmount →
    s.sweepTo = this ∨ min maxAmount.val s.balance + s.devido ≤ s.balance

theorem devido_of_grants (h : t.grants = s.grants) : t.devido = s.devido := by
  unfold devido
  rw [h]

/-- While grants can still be written the deposits that cover them are all here. -/
theorem Contas.cobre (h : Contas s feitas) (haberta : ¬ s.Encerrada)
    (hdepositos : SaleVault.concedido feitas ≤ depositado feitas) : s.devido ≤ s.balance := by
  have hdevido := h.devido_add
  have hcaixa := h.caixa haberta
  omega

/-- What is owed stays covered by a call that sweeps no more than the excess. -/
theorem cobre_efeito (h : Contas s feitas) (hcobre : s.devido ≤ s.balance)
    (hdepois : Contas t (c :: feitas)) (he : Efeito this c s t) (hvarre : Excedente this c s)
    (hdepositos : concedido (c :: feitas) ≤ depositado (c :: feitas)) :
    t.devido ≤ t.balance := by
  cases he with
  | ajusta hfn hbalance hgrants hnumber hprazo =>
    rw [devido_of_grants hgrants, hbalance]
    exact hcobre
  | recebe hfn ht =>
    subst ht
    exact hcobre.trans (Nat.le_add_right _ _)
  | concede conta hfn hvale haberta hnova hbalance hnumber hprazo hgrants =>
    exact hdepois.cobre hprazo hdepositos
  | paga amount hfn hamount hbalance hnumber hprazo hgrants =>
    -- What is paid is no longer owed: the same grants, with that much more released.
    obtain ⟨g, -, -, hreleased, hgrants⟩ := hgrants
    have hsoltos := sum_update s.grants (fun g => g.released.val) c.sender g
    have hconcedido : concedido (c :: feitas) = c.concessao + concedido feitas := List.sum_cons
    have hantes := h.devido_add
    have hdevido := hdepois.devido_add
    rw [← hgrants] at hsoltos
    omega
  | varre maxAmount hfn hprazo hbalance hgrants hnumber hprazo' =>
    rw [devido_of_grants hgrants, hbalance, saldoDepois]
    split_ifs with hpropria
    · exact hcobre
    · have hexcesso := (hvarre maxAmount hfn).resolve_left hpropria
      omega

theorem cobre_mantem : Mantem (executa this keccak256) passa (Excedente this)
    (fun _ l => concedido l ≤ depositado l)
    (fun s l => Contas s l ∧ s.devido ≤ s.balance) where
  chama h hvarre hexec hdepositos :=
    have he := efeito_of_executa hexec
    have hdepois := h.1.efeito he
    ⟨hdepois, cobre_efeito h.1 h.2 hdepois he hvarre hdepositos⟩
  entre h hpassa _ := by
    refine ⟨h.1.passa hpassa, ?_⟩
    obtain ⟨n, -, rfl⟩ := hpassa
    exact h.2

theorem release_liquidity (h : s.release this sender = .error "liquidity") :
    ∃ amount, s.releasable sender = .ok amount ∧ s.balance < amount.val := by
  obtain ⟨amount, hamount⟩ := Grant.exists_releasable (s.grants sender) s.number
  have hreleased : (cast 256 (s.grants sender).released).val = (s.grants sender).released.val :=
    cast_val_of_le (by decide) _
  have hcabe := Grant.releasable_cabe hamount
  obtain ⟨released, hsoma, -⟩ := exists_add (a := cast 256 (s.grants sender).released)
    (b := amount) (by omega)
  have hreleasable : s.releasable sender = .ok amount := hamount
  unfold release whenNotPaused paga at h
  simp only [Solidity.bind_eq_error, require_eq_error, hreleasable, hsoma, String.reduceEq,
    reduceCtorEq, and_false, false_or, Except.ok.injEq, exists_eq_left'] at h
  obtain ⟨-, -, -, -, ⟨hfalta, -⟩ | ⟨-, -, -, -, h⟩⟩ := h
  · exact ⟨amount, hamount, not_le.mp hfalta⟩
  · cases h

/-- What the vault promises to those with a grant. -/
structure Solvente (this : Address) (s : SaleVault) : Prop where
  cobre : s.devido ≤ s.balance
  released_le : ∀ a, (s.grants a).released ≤ (s.grants a).total
  liquidez : ∀ sender, s.release this sender ≠ .error "liquidity"
  paga : ∀ sender p t, s.release this sender = .ok (p, t) → ∃ v,
    s.vested sender s.number = .ok v ∧
      p = ⟨sender, v.val - (s.grants sender).released.val⟩

theorem Contas.solvente (h : Contas s feitas) (hcobre : s.devido ≤ s.balance) :
    Solvente this s where
  cobre := hcobre
  released_le := h.released_le
  liquidez sender herro := by
    obtain ⟨amount, hamount, hfalta⟩ := release_liquidity herro
    have hamount := Grant.releasable_eq_ok.mp hamount
    have htotal := Grant.vestido_le_total (s.grants sender) s.number.val
    have hparcela : (s.grants sender).devido ≤ s.devido := le_sum s.grants Grant.devido sender
    unfold Grant.devido at hparcela
    omega
  paga sender p t hsai := by
    obtain ⟨-, amount, released, hamount, -, -, -, rfl, -⟩ := release_eq_ok.mp hsai
    have hamount := Grant.releasable_eq_ok.mp hamount
    have hcabe : (s.grants sender).vestido s.number.val < 2 ^ 256 :=
      (Grant.vestido_le_total _ _).trans_lt ((s.grants sender).total.isLt.trans_le (by decide))
    exact ⟨⟨_, hcabe⟩, Grant.vested_eq_ok.mpr rfl, by rw [hamount]⟩

/-- An accepted sweep that leaves what is owed took no more than the excess. -/
theorem excedente_of_cobre {saida : Reentrancia.Saida SaleVault Pagamento}
    (hexec : executa this keccak256 c s = .ok saida)
    (hcobre : saida.estado.devido ≤ saida.estado.balance) : Excedente this c s := by
  obtain ⟨sender, fn⟩ := c
  rintro maxAmount hfn
  cases hfn
  obtain ⟨⟨p, t⟩, ht, ⟨⟩⟩ := Solidity.bind_eq_ok.mp hexec
  obtain ⟨-, -, -, -, -, rfl⟩ := sweepExcess_eq_ok.mp ht
  have hcobre : s.devido ≤ saldoDepois this s.sweepTo s.balance (min maxAmount.val s.balance) :=
    hcobre
  by_cases hpropria : s.sweepTo = this
  · exact .inl hpropria
  · rw [saldoDepois, if_neg hpropria] at hcobre
    omega

/-- With deposits that cover the grants, the vault is solvent at every moment exactly when no
accepted sweep takes more than the excess. -/
theorem solvente_iff_excedente {admin sweepTo relayer : Address} {balance : ℕ}
    {number : Uint 256} {s₀ : SaleVault} {passado : List (Maquina SaleVault Chamada × Lance Chamada)}
    {m : Maquina SaleVault Chamada}
    (hdeploy : construct admin sweepTo relayer balance number = .ok s₀)
    (h : Reentrancia.Historia (executa this keccak256) passa s₀ passado m)
    (hdepositos : ∀ n, Momento passado m n → concedido n.feitas ≤ depositado n.feitas) :
    (∀ n, Momento passado m n → Solvente this n.estado) ↔
      ∀ n c, (n, .chama c) ∈ passado → Excedente this c n.estado := by
  have hinicio := Contas.construct hdeploy
  constructor
  · intro hsolvente n c hc
    obtain ⟨saida, hexec, n', hn', hestado, -⟩ := momento_depois h hc
    exact excedente_of_cobre hexec (hestado ▸ (hsolvente n' hn').cobre)
  · intro hvarre n hn
    have hnada : s₀.devido + _ = 0 := hinicio.devido_add
    have hzero : s₀.devido ≤ s₀.balance := by omega
    obtain ⟨hcontas, hcobre⟩ := cobre_mantem.momento h ⟨hinicio, hzero⟩ hvarre hdepositos hn
    exact hcontas.solvente hcobre

/-! ## A sale and its sweep -/

/-- The hash of the chain, as the contracts see it. -/
def palavra (bs : List UInt8) : Bytes32 := ⟨Keccak.keccak256 bs, Keccak.keccak256_length bs⟩

def pagamento : Bytes32 := ⟨List.replicate 32 1, List.length_replicate⟩

def partida : SaleVault := { admin := 1, sweepTo := 2, relayer := 3, balance := 0, number := 0 }

def parcela : Grant :=
  { total := 100, released := 0, start := 0, cliff := 31536000, duration := 94608000 }

/-- What an auto sale with a deposit and one grant of a hundred is after its deadline. -/
def vendida (deposito : ℕ) : SaleVault :=
  { partida with
    saleOpen := true
    autoOpen := true
    claimDeadline := 10
    saleAllocated := 100
    saleSold := 100
    grants := Function.update (fun _ => {}) 4 parcela
    paymentUsed := Function.update (fun _ => false) pagamento true
    balance := deposito
    number := 11 }

def venda (deposito : ℕ) : List Chamada :=
  [⟨3, .grant 4 100 pagamento⟩, ⟨1, .openSale 10 true⟩, ⟨1, .setSaleAllocated 100⟩,
    ⟨5, .receive deposito⟩]

theorem venda_cobre {deposito : ℕ} (hdeposito : 100 ≤ deposito) :
    concedido (venda deposito) ≤ depositado (venda deposito) := by
  have htotal : depositado (venda deposito) = deposito := by
    simp [depositado, venda, Chamada.deposito]
  rw [htotal]
  exact hdeposito

theorem venda_historia (this : Address) {deposito : ℕ} (hdeposito : 100 ≤ deposito) :
    ∃ passado, Reentrancia.Historia (executa this palavra) passa partida passado
        ⟨vendida deposito, venda deposito, []⟩ ∧
      ∀ x ∈ passado, concedido x.1.feitas ≤ depositado x.1.feitas ∧
        ∀ c maxAmount, x.2 = .chama c → c.fn ≠ .sweepExcess maxAmount := by
  have hrecebe : executa this palavra ⟨5, .receive deposito⟩ partida =
      .ok (.volta { partida with balance := deposito }) := by
    change Except.ok (Saida.volta { partida with balance := 0 + deposito }) = _
    rw [Nat.zero_add]
  refine ⟨_, .segue (.segue (.segue (.segue (.segue .inicio (.volta hrecebe)) (.volta rfl))
    (.volta rfl)) (.volta rfl)) (.entre ⟨11, Nat.zero_le 11, rfl⟩), ?_⟩
  simp only [List.forall_mem_cons]
  refine ⟨⟨venda_cobre hdeposito, nofun⟩, ⟨Nat.zero_le _, ?_⟩, ⟨Nat.zero_le _, ?_⟩,
    ⟨Nat.zero_le _, ?_⟩, ⟨Nat.zero_le _, ?_⟩, fun x hx => by cases hx⟩
  all_goals
    rintro c maxAmount ⟨⟩
    exact nofun

/-- The sale with its sweep, up to the moment when the money is on its way out. -/
theorem varrida_historia (this : Address) {deposito : ℕ} (hdeposito : 100 ≤ deposito)
    (maxAmount : Uint 256) (hmax : 0 < maxAmount) :
    ∃ passado m, Reentrancia.Historia (executa this palavra) passa partida passado m ∧
      m.estado = { vendida deposito with
        balance := saldoDepois this 2 deposito (min maxAmount.val deposito) } ∧
      (∀ n, Momento passado m n → concedido n.feitas ≤ depositado n.feitas) ∧
      ∀ n c outra, (n, .chama c) ∈ passado → c.fn = .sweepExcess outra →
        n.estado = vendida deposito ∧ outra = maxAmount := by
  obtain ⟨passado, h, hpassado⟩ := venda_historia this hdeposito
  have hcobre := venda_cobre hdeposito
  have hencerrada : (vendida deposito).Encerrada := by
    refine ⟨rfl, ?_⟩
    rintro (hnunca | hantes)
    · exact absurd hnunca (by decide : (10 : Uint 64) ≠ 0)
    · exact absurd hantes (by decide : ¬ (11 : Uint 256).val ≤ (10 : Uint 64).val)
  have hsai : (vendida deposito).sweepExcess this 1 maxAmount = .ok (_, _) :=
    sweepExcess_eq_ok.mpr ⟨rfl, hencerrada, hmax,
      Nat.zero_lt_of_lt (Nat.lt_of_lt_of_le (by decide : 99 < 100) hdeposito), rfl, rfl⟩
  have hexec : executa this palavra ⟨1, .sweepExcess maxAmount⟩ (vendida deposito) =
      .ok (.entrega _ _) := Solidity.bind_eq_ok.mpr ⟨_, hsai, rfl⟩
  refine ⟨_, _, .segue h (.entrega hexec), rfl, ?_, ?_⟩
  · rintro n (rfl | ⟨a, hn⟩)
    · have hconcedido : concedido (⟨1, .sweepExcess maxAmount⟩ :: venda deposito) =
        0 + concedido (venda deposito) := List.sum_cons
      have hdepositado : depositado (⟨1, .sweepExcess maxAmount⟩ :: venda deposito) =
        0 + depositado (venda deposito) := List.sum_cons
      change concedido (⟨1, .sweepExcess maxAmount⟩ :: venda deposito) ≤
        depositado (⟨1, .sweepExcess maxAmount⟩ :: venda deposito)
      omega
    · rcases List.mem_cons.mp hn with hn | hn
      · cases hn
        exact hcobre
      · exact (hpassado _ hn).1
  · intro n c outra hn hfn
    rcases List.mem_cons.mp hn with hn | hn
    · cases hn
      cases hfn
      exact ⟨rfl, rfl⟩
    · exact absurd hfn ((hpassado _ hn).2 c outra rfl)

theorem devido_vendida (deposito : ℕ) : (vendida deposito).devido = 100 := by
  have hsoma : (vendida deposito).devido = parcela.devido :=
    sum_update_default (show Grant.devido {} = 0 from rfl) 4 parcela
  rw [hsoma]
  rfl

/-- The deposits cover the only grant, nobody has released anything, and a sweep of a hundred
leaves nothing in the vault. -/
theorem varredura_sem_excedente : ∃ s₀ passado m,
    construct 1 2 3 0 0 = .ok s₀ ∧
      Reentrancia.Historia (executa 7 palavra) passa s₀ passado m ∧
      (∀ n, Momento passado m n → concedido n.feitas ≤ depositado n.feitas) ∧
      m.estado.balance = 0 ∧ m.estado.devido = 100 := by
  obtain ⟨passado, m, h, hestado, hdepositos, -⟩ :=
    varrida_historia 7 (le_refl 100) 100 (by decide)
  refine ⟨_, passado, m, rfl, h, hdepositos, ?_, ?_⟩
  · rw [hestado]
    decide
  · rw [hestado]
    exact devido_vendida 100

/-- The same sale with fifty more is swept of its excess, and stays solvent. -/
theorem varredura_do_excedente : ∃ s₀ passado m,
    construct 1 2 3 0 0 = .ok s₀ ∧
      Reentrancia.Historia (executa 7 palavra) passa s₀ passado m ∧
      m.estado.balance = 100 ∧ ∀ n, Momento passado m n → Solvente 7 n.estado := by
  obtain ⟨passado, m, h, hestado, hdepositos, hvarre⟩ :=
    varrida_historia 7 (by decide : 100 ≤ 150) 50 (by decide)
  have hdeploy : construct 1 2 3 0 0 = .ok partida := rfl
  refine ⟨_, passado, m, hdeploy, h, ?_, (solvente_iff_excedente hdeploy h hdepositos).mpr ?_⟩
  · rw [hestado]
    decide
  · intro n c hc maxAmount hfn
    obtain ⟨hn, rfl⟩ := hvarre n c maxAmount hc hfn
    have hsaldo : (vendida 150).balance = 150 := rfl
    have hpedido : (50 : Uint 256).val = 50 := rfl
    right
    rw [hn, devido_vendida, hsaldo, hpedido]
    decide

end

end SaleVault
end Eav7.Vaults
