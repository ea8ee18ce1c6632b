import Eav7.Base.Keccak
import Eav7.Base.Percurso
import Eav7.Vaults.Vesting

/-!
# The managed token

An ERC20 with an owner who mints, pauses and lists, and with EIP-2612 permits. Sums that are
not checked rest on one invariant, the balances add up to the supply; allowances and permits
are accounted over the run of the accepted calls.
-/

namespace Eav7.Vaults

open Base Solidity

structure EAV20Managed where
  name : String
  symbol : String
  decimals : Uint 8
  totalSupply : Uint 256
  owner : Address
  paused : Bool := false
  balanceOf : Address → Uint 256
  allowance : Address → Address → Uint 256 := fun _ _ => 0
  blacklisted : Address → Bool := fun _ => false
  nonces : Address → Uint 256 := fun _ => 0
  DOMAIN_SEPARATOR : Bytes32

namespace EAV20Managed

/-- The bytes of a string. -/
def bytes (s : String) : List UInt8 := s.toByteArray.data.toList

def eip712Domain : String :=
  "EIP712Domain(string name,string version,uint256 chainId,address verifyingContract)"

def permitType : String :=
  "Permit(address owner,address spender,uint256 value,uint256 nonce,uint256 deadline)"

section

variable (keccak256 : List UInt8 → Bytes32)

def PERMIT_TYPEHASH : Bytes32 := keccak256 (bytes permitType)

def domainSeparator (name : String) (chainid : Uint 256) (this : Address) : Bytes32 :=
  keccak256 ((keccak256 (bytes eip712Domain)).bytes ++ (keccak256 (bytes name)).bytes ++
    (keccak256 (bytes "1")).bytes ++ bigEndian 32 chainid.val ++ bigEndian 32 this.val)

def construct (this : Address) (chainid : Uint 256) (name symbol : String) (decimals : Uint 8)
    (initialSupply : Uint 256) (recipient owner : Address) : Except String EAV20Managed := do
  require (recipient ≠ 0 ∧ owner ≠ 0) "zero"
  return {
    name, symbol, decimals, owner
    totalSupply := initialSupply
    balanceOf := Function.update (fun _ => 0) recipient initialSupply
    DOMAIN_SEPARATOR := domainSeparator keccak256 name chainid this }

end

section

variable (s : EAV20Managed) (sender : Address)

def onlyOwner : Except String Unit := require (sender = s.owner) "owner"

def whenNotPaused : Except String Unit := require (s.paused = false) "paused"

def transferOwnership (next : Address) : Except String EAV20Managed := do
  s.onlyOwner sender
  require (next ≠ 0) "zero"
  return { s with owner := next }

def setPaused (v : Bool) : Except String EAV20Managed := do
  s.onlyOwner sender
  return { s with paused := v }

def setBlacklist (account : Address) (listed : Bool) : Except String EAV20Managed := do
  s.onlyOwner sender
  return { s with blacklisted := Function.update s.blacklisted account listed }

/-! The sums and differences of `unchecked` blocks are the ones of the type, which wrap. -/

def mint (para : Address) (value : Uint 256) : Except String EAV20Managed := do
  s.onlyOwner sender
  s.whenNotPaused
  require (para ≠ 0 ∧ s.blacklisted para = false) "to"
  let totalSupply ← add s.totalSupply value
  return { s with
    totalSupply
    balanceOf := Function.update s.balanceOf para (s.balanceOf para + value) }

def burn (value : Uint 256) : Except String EAV20Managed := do
  s.whenNotPaused
  require (s.blacklisted sender = false) "sender"
  let bal := s.balanceOf sender
  require (bal ≥ value) "balance"
  return { s with
    balanceOf := Function.update s.balanceOf sender (bal - value)
    totalSupply := s.totalSupply - value }

/-- `_transfer`, where the receiver's balance is read after the sender's was written. -/
def transferInternal (origem para : Address) (value : Uint 256) : Except String EAV20Managed := do
  require (para ≠ 0) "to"
  require (s.blacklisted origem = false ∧ s.blacklisted para = false) "blacklist"
  let bal := s.balanceOf origem
  require (bal ≥ value) "balance"
  let balanceOf := Function.update s.balanceOf origem (bal - value)
  return { s with balanceOf := Function.update balanceOf para (balanceOf para + value) }

def transfer (para : Address) (value : Uint 256) : Except String EAV20Managed := do
  s.whenNotPaused
  s.transferInternal sender para value

/-- The allowance of a spender written. -/
def comAllowance (owner spender : Address) (value : Uint 256) : EAV20Managed :=
  { s with allowance :=
      Function.update s.allowance owner (Function.update (s.allowance owner) spender value) }

def approve (spender : Address) (value : Uint 256) : Except String EAV20Managed :=
  .ok (s.comAllowance sender spender value)

def transferFrom (origem para : Address) (value : Uint 256) : Except String EAV20Managed := do
  s.whenNotPaused
  let allowed := s.allowance origem sender
  require (allowed ≥ value) "allowance"
  let s := if allowed.val ≠ typeMax 256 then s.comAllowance origem sender (allowed - value) else s
  s.transferInternal origem para value

end

/-- What the owner of an allowance signs, and the signature. -/
structure Permit where
  owner : Address
  spender : Address
  value : Uint 256
  deadline : Uint 256
  v : Uint 8
  r : Bytes32
  s : Bytes32

section

variable (keccak256 : List UInt8 → Bytes32)
  (ecrecover : Bytes32 → Uint 8 → Bytes32 → Bytes32 → Address)

/-- What is hashed for the fields of a permit under a nonce. -/
def structDe (p : Permit) (nonce : Uint 256) : List UInt8 :=
  (PERMIT_TYPEHASH keccak256).bytes ++ bigEndian 32 p.owner.val ++ bigEndian 32 p.spender.val ++
    bigEndian 32 p.value.val ++ bigEndian 32 nonce.val ++ bigEndian 32 p.deadline.val

/-- What is hashed for the digest. -/
def envelope (separator structHash : Bytes32) : List UInt8 :=
  [0x19, 0x01] ++ separator.bytes ++ structHash.bytes

def digest (separator : Bytes32) (p : Permit) (nonce : Uint 256) : Bytes32 :=
  keccak256 (envelope separator (keccak256 (structDe keccak256 p nonce)))

def permit (s : EAV20Managed) (timestamp : Uint 256) (p : Permit) :
    Except String EAV20Managed := do
  require (timestamp ≤ p.deadline) "deadline"
  let nonce := s.nonces p.owner
  let seguinte ← add nonce 1
  let s := { s with nonces := Function.update s.nonces p.owner seguinte }
  let recovered := ecrecover (digest keccak256 s.DOMAIN_SEPARATOR p nonce) p.v p.r p.s
  require (recovered ≠ 0 ∧ recovered = p.owner) "permit"
  return s.comAllowance p.owner p.spender p.value

end

/-! ## The contract as a machine -/

/-- The external functions that write, with their arguments. -/
inductive Fn
  | transferOwnership (next : Address)
  | setPaused (v : Bool)
  | setBlacklist (account : Address) (listed : Bool)
  | mint (para : Address) (value : Uint 256)
  | burn (value : Uint 256)
  | transfer (para : Address) (value : Uint 256)
  | approve (spender : Address) (value : Uint 256)
  | transferFrom (origem para : Address) (value : Uint 256)
  | permit (p : Permit)

structure Chamada where
  sender : Address
  timestamp : Uint 256
  fn : Fn

section

variable (keccak256 : List UInt8 → Bytes32)
  (ecrecover : Bytes32 → Uint 8 → Bytes32 → Bytes32 → Address)

def executa (c : Chamada) (s : EAV20Managed) : Except String EAV20Managed :=
  match c.fn with
  | .transferOwnership next => s.transferOwnership c.sender next
  | .setPaused v => s.setPaused c.sender v
  | .setBlacklist account listed => s.setBlacklist c.sender account listed
  | .mint para value => s.mint c.sender para value
  | .burn value => s.burn c.sender value
  | .transfer para value => s.transfer c.sender para value
  | .approve spender value => s.approve c.sender spender value
  | .transferFrom origem para value => s.transferFrom c.sender origem para value
  | .permit p => s.permit keccak256 ecrecover c.timestamp p

/-- A run of accepted calls, the newest first; a call that reverts changes nothing. -/
abbrev Historia (s₀ : EAV20Managed) : List (EAV20Managed × Chamada) → EAV20Managed → Prop :=
  Percurso (fun c s t => executa keccak256 ecrecover c s = .ok t) s₀

end

namespace Chamada

/-- The allowance that a call sets, and to what. -/
def ajuste (c : Chamada) : Option (Address × Address × Uint 256) :=
  match c.fn with
  | .approve spender value => some (c.sender, spender, value)
  | .permit p => some (p.owner, p.spender, p.value)
  | _ => none

/-- What a call moves: from where, to where and how much. -/
structure Movimento where
  origem : Option Address := none
  para : Option Address := none
  value : ℕ := 0

def movimento (c : Chamada) : Movimento :=
  match c.fn with
  | .mint para value => { para := some para, value := value.val }
  | .burn value => { origem := some c.sender, value := value.val }
  | .transfer para value => ⟨some c.sender, some para, value.val⟩
  | .transferFrom origem para value => ⟨some origem, some para, value.val⟩
  | _ => {}

/-- What a call takes out of an account. -/
def sai (c : Chamada) (a : Address) : ℕ :=
  if c.movimento.origem = some a then c.movimento.value else 0

/-- What a call brings into an account. -/
def entra (c : Chamada) (a : Address) : ℕ :=
  if c.movimento.para = some a then c.movimento.value else 0

/-- What a spender moves out of an owner with a call. -/
def movido (owner spender : Address) (c : Chamada) : ℕ :=
  match c.fn with
  | .transferFrom origem _ value => if origem = owner ∧ c.sender = spender then value.val else 0
  | _ => 0

/-- The permit of a call. -/
def permit? (c : Chamada) : Option Permit :=
  match c.fn with
  | .permit p => some p
  | _ => none

end Chamada

/-! ## What an accepted call does -/

/-- The balances after a value moved, the receiver's read last. -/
def entregue (b : Address → Uint 256) (origem para : Address) (value : Uint 256) :
    Address → Uint 256 :=
  let b := Function.update b origem (b origem - value)
  Function.update b para (b para + value)

/-- The effect of a call on the balances and the supply, and what it found. -/
inductive MudaSaldos (c : Chamada) (s t : EAV20Managed) : Prop
  | nada (hmov : c.movimento = {}) (hbalance : t.balanceOf = s.balanceOf)
      (htotal : t.totalSupply = s.totalSupply)
  | emite (para : Address) (value : Uint 256)
      (hmov : c.movimento = { para := some para, value := value.val })
      (hativo : s.paused = false) (hlivre : s.blacklisted para = false)
      (htotal : t.totalSupply.val = s.totalSupply.val + value.val)
      (hbalance : t.balanceOf = Function.update s.balanceOf para (s.balanceOf para + value))
  | queima (origem : Address) (value : Uint 256)
      (hmov : c.movimento = { origem := some origem, value := value.val })
      (hativo : s.paused = false) (hlivre : s.blacklisted origem = false)
      (htem : value ≤ s.balanceOf origem) (htotal : t.totalSupply = s.totalSupply - value)
      (hbalance : t.balanceOf = Function.update s.balanceOf origem (s.balanceOf origem - value))
  | move (origem para : Address) (value : Uint 256)
      (hmov : c.movimento = ⟨some origem, some para, value.val⟩) (hativo : s.paused = false)
      (hlivre : s.blacklisted origem = false ∧ s.blacklisted para = false)
      (htem : value ≤ s.balanceOf origem) (htotal : t.totalSupply = s.totalSupply)
      (hbalance : t.balanceOf = entregue s.balanceOf origem para value)

section

variable {keccak256 : List UInt8 → Bytes32}
  {ecrecover : Bytes32 → Uint 8 → Bytes32 → Bytes32 → Address}
  {s t : EAV20Managed} {sender origem para : Address} {value : Uint 256}

theorem transferInternal_eq_ok : s.transferInternal origem para value = .ok t ↔
    para ≠ 0 ∧ (s.blacklisted origem = false ∧ s.blacklisted para = false) ∧
      value ≤ s.balanceOf origem ∧
      t = { s with balanceOf := entregue s.balanceOf origem para value } := by
  unfold transferInternal
  simp only [require_bind_eq_ok]
  refine and_congr_right fun _ => and_congr_right fun _ => and_congr_right fun _ => ?_
  change Except.ok _ = Except.ok _ ↔ _
  rw [Except.ok.injEq, eq_comm]
  rfl

theorem transfer_eq_ok (h : s.transfer sender para value = .ok t) : s.paused = false ∧
    s.transferInternal sender para value = .ok t :=
  require_bind_eq_ok.mp h

/-- The allowance that a transfer on behalf of another leaves. -/
def gasta (s : EAV20Managed) (origem sender : Address) (value : Uint 256) : EAV20Managed :=
  if (s.allowance origem sender).val ≠ typeMax 256 then
    s.comAllowance origem sender (s.allowance origem sender - value)
  else s

theorem transferFrom_eq_ok (h : s.transferFrom sender origem para value = .ok t) :
    s.paused = false ∧ value ≤ s.allowance origem sender ∧
      (s.gasta origem sender value).transferInternal origem para value = .ok t := by
  obtain ⟨hativo, h⟩ := require_bind_eq_ok.mp h
  obtain ⟨hallowance, h⟩ := require_bind_eq_ok.mp h
  exact ⟨hativo, hallowance, h⟩

/-- Only an allowance changes. -/
theorem gasta_eq : s.gasta origem sender value =
    { s with allowance := (s.gasta origem sender value).allowance } := by
  unfold gasta
  split_ifs
  · rfl
  · rfl

theorem permit_eq_ok {timestamp : Uint 256} {p : Permit}
    (h : s.permit keccak256 ecrecover timestamp p = .ok t) :
    ∃ seguinte : Uint 256, seguinte.val = (s.nonces p.owner).val + 1 ∧
      p.owner ≠ 0 ∧
      ecrecover (digest keccak256 s.DOMAIN_SEPARATOR p (s.nonces p.owner)) p.v p.r p.s = p.owner ∧
      t = { s with nonces := Function.update s.nonces p.owner seguinte }.comAllowance
        p.owner p.spender p.value := by
  unfold permit at h
  obtain ⟨-, h⟩ := require_bind_eq_ok.mp h
  obtain ⟨seguinte, hseguinte, h⟩ := Solidity.bind_eq_ok.mp h
  obtain ⟨⟨hzero, hrecovered⟩, h⟩ := require_bind_eq_ok.mp h
  exact ⟨seguinte, add_eq_ok.mp hseguinte, hrecovered ▸ hzero, hrecovered,
    (Except.ok.inj h).symm⟩

theorem mudaSaldos_of_executa {c : Chamada} (h : executa keccak256 ecrecover c s = .ok t) :
    MudaSaldos c s t := by
  obtain ⟨sender, timestamp, fn⟩ := c
  cases fn with
  | transferOwnership next =>
    cases of_require (of_require h)
    exact .nada rfl rfl rfl
  | setPaused v =>
    cases of_require h
    exact .nada rfl rfl rfl
  | setBlacklist account listed =>
    cases of_require h
    exact .nada rfl rfl rfl
  | mint para value =>
    obtain ⟨hativo, h⟩ := require_bind_eq_ok.mp (of_require h)
    obtain ⟨⟨-, hlivre⟩, h⟩ := require_bind_eq_ok.mp h
    obtain ⟨totalSupply, htotal, h⟩ := Solidity.bind_eq_ok.mp h
    cases h
    exact .emite para value rfl hativo hlivre (add_eq_ok.mp htotal) rfl
  | burn value =>
    obtain ⟨hativo, h⟩ := require_bind_eq_ok.mp h
    obtain ⟨hlivre, h⟩ := require_bind_eq_ok.mp h
    obtain ⟨htem, h⟩ := require_bind_eq_ok.mp h
    cases h
    exact .queima sender value rfl hativo hlivre htem rfl rfl
  | transfer para value =>
    obtain ⟨hativo, h⟩ := transfer_eq_ok h
    obtain ⟨-, hlivre, htem, rfl⟩ := transferInternal_eq_ok.mp h
    exact .move sender para value rfl hativo hlivre htem rfl rfl
  | approve spender value =>
    cases h
    exact .nada rfl rfl rfl
  | transferFrom origem para value =>
    obtain ⟨hativo, -, h⟩ := transferFrom_eq_ok h
    rw [gasta_eq] at h
    obtain ⟨-, hlivre, htem, rfl⟩ := transferInternal_eq_ok.mp h
    exact .move origem para value rfl hativo hlivre htem rfl rfl
  | permit p =>
    obtain ⟨seguinte, -, -, -, rfl⟩ := permit_eq_ok h
    exact .nada rfl rfl rfl

/-! ## The balances add up -/

def Integro (s : EAV20Managed) : Prop := ∑ a, (s.balanceOf a).val = s.totalSupply.val

theorem Integro.saldo_le (hs : s.Integro) (a : Address) :
    (s.balanceOf a).val ≤ s.totalSupply.val := by
  rw [← hs]
  exact le_sum s.balanceOf (fun v => v.val) a

theorem soma_debitada {b : Address → Uint 256} (htem : value ≤ b origem) :
    ∑ a, (Function.update b origem (b origem - value) a).val + value.val = ∑ a, (b a).val := by
  have hsoma := sum_update b (fun v => v.val) origem (b origem - value)
  rw [val_sub_of_le htem] at hsoma
  have htem : value.val ≤ (b origem).val := htem
  omega

theorem soma_creditada {b : Address → Uint 256}
    (hcabe : ∑ a, (b a).val + value.val < 2 ^ 256) :
    (b para + value).val = (b para).val + value.val ∧
      ∑ a, (Function.update b para (b para + value) a).val = ∑ a, (b a).val + value.val := by
  have hpara := le_sum b (fun v => v.val) para
  have hval : (b para + value).val = (b para).val + value.val := val_add_of_lt (by omega)
  have hsoma := sum_update b (fun v => v.val) para (b para + value)
  rw [hval] at hsoma
  exact ⟨hval, by omega⟩

theorem soma_entregue {b : Address → Uint 256} (htem : value ≤ b origem)
    (hcabe : ∑ a, (b a).val < 2 ^ 256) :
    ∑ a, (entregue b origem para value a).val = ∑ a, (b a).val := by
  have hdebito := soma_debitada htem
  unfold entregue
  rw [(soma_creditada (by omega)).2, hdebito]

/-- Every accepted call keeps the sum, so no unchecked addition wraps. -/
theorem Integro.passo {c : Chamada} (hs : s.Integro) (h : MudaSaldos c s t) : t.Integro := by
  have hlimite := s.totalSupply.isLt
  cases h with
  | nada _ hbalance htotal =>
    unfold Integro
    rw [hbalance, htotal]
    exact hs
  | emite para value _ _ _ htotal hbalance =>
    have hlimite' := t.totalSupply.isLt
    unfold Integro
    rw [hbalance, htotal, (soma_creditada (by rw [hs]; omega)).2, hs]
  | queima origem value _ _ _ htem htotal hbalance =>
    have hdebito := soma_debitada htem
    have htem' : value.val ≤ (s.balanceOf origem).val := htem
    have htotal' : value ≤ s.totalSupply := htem'.trans (hs.saldo_le origem)
    unfold Integro
    rw [hbalance, htotal, val_sub_of_le htotal', ← hs]
    omega
  | move origem para value _ _ _ htem htotal hbalance =>
    unfold Integro
    rw [hbalance, htotal, soma_entregue htem (by rw [hs]; exact hlimite), hs]

theorem integro_construct {this recipient owner : Address} {chainid initialSupply : Uint 256}
    {name symbol : String} {decimals : Uint 8}
    (h : construct keccak256 this chainid name symbol decimals initialSupply recipient owner =
      .ok s) : s.Integro := by
  cases of_require h
  exact sum_update_default (g := fun v : Uint 256 => v.val) (d := 0) rfl recipient initialSupply

theorem saldo_debitado {b : Address → Uint 256} (htem : value ≤ b origem) (a : Address) :
    (Function.update b origem (b origem - value) a).val + (if origem = a then value.val else 0) =
      (b a).val := by
  have htem' : value.val ≤ (b origem).val := htem
  by_cases ha : origem = a
  · subst ha
    rw [Function.update_self, val_sub_of_le htem, if_pos rfl]
    omega
  · rw [Function.update_of_ne (Ne.symm ha), if_neg ha, Nat.add_zero]

theorem saldo_creditado {b : Address → Uint 256}
    (hcabe : ∑ a, (b a).val + value.val < 2 ^ 256) (a : Address) :
    (Function.update b para (b para + value) a).val =
      (b a).val + if para = a then value.val else 0 := by
  by_cases ha : para = a
  · subst ha
    rw [Function.update_self, (soma_creditada hcabe).1, if_pos rfl]
  · rw [Function.update_of_ne (Ne.symm ha), if_neg ha, Nat.add_zero]

/-- The balances change by what the call moves, as numbers. -/
theorem Integro.saldo {c : Chamada} (hs : s.Integro) (h : MudaSaldos c s t) (a : Address) :
    (t.balanceOf a).val + c.sai a = (s.balanceOf a).val + c.entra a := by
  have hlimite := s.totalSupply.isLt
  unfold Chamada.sai Chamada.entra
  cases h with
  | nada hmov hbalance _ =>
    rw [hmov, hbalance]
  | emite para value hmov _ _ htotal hbalance =>
    have hlimite' := t.totalSupply.isLt
    simp only [hmov, hbalance, Option.some.injEq, reduceCtorEq, if_false, Nat.add_zero]
    exact saldo_creditado (by rw [hs]; omega) a
  | queima origem value hmov _ _ htem _ hbalance =>
    simp only [hmov, hbalance, Option.some.injEq, reduceCtorEq, if_false, Nat.add_zero]
    exact saldo_debitado htem a
  | move origem para value hmov _ _ htem _ hbalance =>
    have hdebito := soma_debitada htem
    have hsaida := saldo_debitado htem a
    simp only [hmov, hbalance, Option.some.injEq]
    unfold entregue
    rw [saldo_creditado (by rw [hdebito, hs]; exact hlimite)]
    omega

/-- No account of a paused token and no listed account changes its balance. -/
theorem balanceOf_parado {c : Chamada} {a : Address} (h : MudaSaldos c s t)
    (hparado : s.paused = true ∨ s.blacklisted a = true) : t.balanceOf a = s.balanceOf a := by
  have hdiferente : ∀ {b : Address}, s.paused = false → s.blacklisted b = false → a ≠ b := by
    rintro b hativo hlivre rfl
    rcases hparado with hparado | hparado
    · rw [hparado] at hativo
      cases hativo
    · rw [hparado] at hlivre
      cases hlivre
  cases h with
  | nada _ hbalance _ => rw [hbalance]
  | emite para value _ hativo hlivre _ hbalance =>
    rw [hbalance, Function.update_of_ne (hdiferente hativo hlivre)]
  | queima origem value _ hativo hlivre _ _ hbalance =>
    rw [hbalance, Function.update_of_ne (hdiferente hativo hlivre)]
  | move origem para value _ hativo hlivre _ _ hbalance =>
    rw [hbalance]
    unfold entregue
    rw [Function.update_of_ne (hdiferente hativo hlivre.2),
      Function.update_of_ne (hdiferente hativo hlivre.1)]

/-! ## Allowances -/

theorem comAllowance_allowance {owner spender a b : Address} :
    (s.comAllowance owner spender value).allowance a b =
      if a = owner ∧ b = spender then value else s.allowance a b := by
  unfold comAllowance
  dsimp only
  by_cases ha : a = owner
  · subst ha
    rw [Function.update_self]
    by_cases hb : b = spender
    · subst hb
      rw [Function.update_self, if_pos ⟨rfl, rfl⟩]
    · rw [Function.update_of_ne hb, if_neg fun h => hb h.2]
  · rw [Function.update_of_ne ha, if_neg fun h => ha h.1]

theorem gasta_allowance {owner spender : Address} (htem : value ≤ s.allowance origem sender)
    (hmax : (s.allowance owner spender).val ≠ typeMax 256) :
    ((s.gasta origem sender value).allowance owner spender).val +
      (if origem = owner ∧ sender = spender then value.val else 0) =
        (s.allowance owner spender).val := by
  by_cases h : origem = owner ∧ sender = spender
  · obtain ⟨rfl, rfl⟩ := h
    have htem' : value.val ≤ (s.allowance origem sender).val := htem
    unfold gasta
    rw [if_pos hmax, comAllowance_allowance, if_pos ⟨rfl, rfl⟩, if_pos ⟨rfl, rfl⟩,
      val_sub_of_le htem]
    omega
  · have hoposto : ¬ (owner = origem ∧ spender = sender) := fun h' => h ⟨h'.1.symm, h'.2.symm⟩
    rw [if_neg h, Nat.add_zero]
    unfold gasta
    split_ifs
    · rw [comAllowance_allowance, if_neg hoposto]
    · rfl

/-- A setting writes its value; any other call spends what it moves. -/
theorem allowance_of_executa {c : Chamada} (h : executa keccak256 ecrecover c s = .ok t)
    (owner spender : Address) :
    (∀ v, c.ajuste = some (owner, spender, v) → t.allowance owner spender = v) ∧
      ((∀ v, c.ajuste ≠ some (owner, spender, v)) →
        (s.allowance owner spender).val ≠ typeMax 256 →
        (t.allowance owner spender).val + c.movido owner spender =
          (s.allowance owner spender).val) := by
  obtain ⟨sender, timestamp, fn⟩ := c
  cases fn with
  | transferOwnership next =>
    cases of_require (of_require h)
    exact ⟨nofun, fun _ _ => rfl⟩
  | setPaused v =>
    cases of_require h
    exact ⟨nofun, fun _ _ => rfl⟩
  | setBlacklist account listed =>
    cases of_require h
    exact ⟨nofun, fun _ _ => rfl⟩
  | mint para value =>
    obtain ⟨totalSupply, -, h⟩ := Solidity.bind_eq_ok.mp (of_require (of_require (of_require h)))
    cases h
    exact ⟨nofun, fun _ _ => rfl⟩
  | burn value =>
    cases of_require (of_require (of_require h))
    exact ⟨nofun, fun _ _ => rfl⟩
  | transfer para value =>
    obtain ⟨-, -, -, rfl⟩ := transferInternal_eq_ok.mp (transfer_eq_ok h).2
    exact ⟨nofun, fun _ _ => rfl⟩
  | approve spender' value =>
    cases h
    constructor
    · rintro v ⟨⟩
      rw [comAllowance_allowance, if_pos ⟨rfl, rfl⟩]
    · intro hfora _
      rw [comAllowance_allowance, if_neg]
      · rfl
      · rintro ⟨rfl, rfl⟩
        exact hfora value rfl
  | transferFrom origem para value =>
    obtain ⟨-, htem, h⟩ := transferFrom_eq_ok h
    obtain ⟨-, -, -, rfl⟩ := transferInternal_eq_ok.mp h
    exact ⟨nofun, fun _ hmax => gasta_allowance htem hmax⟩
  | permit p =>
    obtain ⟨seguinte, -, -, -, rfl⟩ := permit_eq_ok h
    constructor
    · rintro v ⟨⟩
      rw [comAllowance_allowance, if_pos ⟨rfl, rfl⟩]
    · intro hfora _
      rw [comAllowance_allowance, if_neg]
      · rfl
      · rintro ⟨rfl, rfl⟩
        exact hfora p.value rfl

/-! ## Permits -/

/-- The signature of a permit, with who signed. -/
def Permit.assinatura (p : Permit) : Address × Uint 8 × Bytes32 × Bytes32 :=
  (p.owner, p.v, p.r, p.s)

/-- An accepted permit recovers its owner from a digest with the nonce that it consumes. -/
theorem nonces_of_executa {c : Chamada} (h : executa keccak256 ecrecover c s = .ok t) :
    t.DOMAIN_SEPARATOR = s.DOMAIN_SEPARATOR ∧
      (∀ a, (s.nonces a).val ≤ (t.nonces a).val) ∧
      ∀ p, c.permit? = some p → (s.nonces p.owner).val < (t.nonces p.owner).val ∧
        p.owner ≠ 0 ∧
        ecrecover (digest keccak256 s.DOMAIN_SEPARATOR p (s.nonces p.owner)) p.v p.r p.s =
          p.owner := by
  obtain ⟨sender, timestamp, fn⟩ := c
  cases fn with
  | transferOwnership next =>
    cases of_require (of_require h)
    exact ⟨rfl, fun _ => le_refl _, nofun⟩
  | setPaused v =>
    cases of_require h
    exact ⟨rfl, fun _ => le_refl _, nofun⟩
  | setBlacklist account listed =>
    cases of_require h
    exact ⟨rfl, fun _ => le_refl _, nofun⟩
  | mint para value =>
    obtain ⟨totalSupply, -, h⟩ := Solidity.bind_eq_ok.mp (of_require (of_require (of_require h)))
    cases h
    exact ⟨rfl, fun _ => le_refl _, nofun⟩
  | burn value =>
    cases of_require (of_require (of_require h))
    exact ⟨rfl, fun _ => le_refl _, nofun⟩
  | transfer para value =>
    obtain ⟨-, -, -, rfl⟩ := transferInternal_eq_ok.mp (transfer_eq_ok h).2
    exact ⟨rfl, fun _ => le_refl _, nofun⟩
  | approve spender value =>
    cases h
    exact ⟨rfl, fun _ => le_refl _, nofun⟩
  | transferFrom origem para value =>
    obtain ⟨-, -, h⟩ := transferFrom_eq_ok h
    rw [gasta_eq] at h
    obtain ⟨-, -, -, rfl⟩ := transferInternal_eq_ok.mp h
    exact ⟨rfl, fun _ => le_refl _, nofun⟩
  | permit p =>
    obtain ⟨seguinte, hseguinte, hzero, hrecovered, rfl⟩ := permit_eq_ok h
    have hnonces : ∀ a, (Function.update s.nonces p.owner seguinte a).val =
        if a = p.owner then (s.nonces p.owner).val + 1 else (s.nonces a).val := by
      intro a
      split_ifs with ha
      · rw [ha, Function.update_self, hseguinte]
      · rw [Function.update_of_ne ha]
    refine ⟨rfl, fun a => ?_, ?_⟩
    · refine le_of_le_of_eq ?_ (hnonces a).symm
      split_ifs with ha
      · rw [ha]
        exact Nat.le_succ _
      · exact le_refl _
    · rintro _ ⟨⟩
      refine ⟨lt_of_lt_of_eq ?_ (hnonces p.owner).symm, hzero, hrecovered⟩
      rw [if_pos rfl]
      exact Nat.lt_succ_self _

theorem envelope_inj {separator a b : Bytes32} (h : envelope separator a = envelope separator b) :
    a = b :=
  Bytes32.ext (List.append_cancel_left h)

/-- The nonce is part of what is signed. -/
theorem structDe_nonce {p p' : Permit} {nonce nonce' : Uint 256}
    (h : structDe keccak256 p nonce = structDe keccak256 p' nonce') : nonce = nonce' := by
  unfold structDe at h
  have hsem := (List.append_inj' h (by rw [bigEndian_length, bigEndian_length])).1
  have hnonce := (List.append_inj' hsem (by rw [bigEndian_length, bigEndian_length])).2
  have hpotencia : (256 : ℕ) ^ 32 = 2 ^ 256 := by norm_num
  exact Fin.ext (bigEndian_inj (lt_of_lt_of_eq nonce.isLt hpotencia.symm)
    (lt_of_lt_of_eq nonce'.isLt hpotencia.symm) hnonce)

/-! ## The run -/

/-- What a spender moved out of an owner over a run. -/
def movidoPor (owner spender : Address) (passado : List (EAV20Managed × Chamada)) : ℕ :=
  (passado.map fun x => x.2.movido owner spender).sum

/-- No call of the run sets this allowance. -/
def SemAjuste (owner spender : Address) (passado : List (EAV20Managed × Chamada)) : Prop :=
  ∀ x ∈ passado, ∀ v, x.2.ajuste ≠ some (owner, spender, v)

/-- The signatures of the accepted permits of a run. -/
def assinaturas (passado : List (EAV20Managed × Chamada)) :
    List (Address × Uint 8 × Bytes32 × Bytes32) :=
  passado.filterMap fun x => x.2.permit?.map Permit.assinatura

/-- What the accepted permits of a run hash. -/
def hasheados (keccak256 : List UInt8 → Bytes32) (passado : List (EAV20Managed × Chamada)) :
    Set (List UInt8) :=
  {bs | ∃ x ∈ passado, ∃ p, x.2.permit? = some p ∧
    (bs = structDe keccak256 p (x.1.nonces p.owner) ∨ bs = envelope x.1.DOMAIN_SEPARATOR
      (keccak256 (structDe keccak256 p (x.1.nonces p.owner))))}

/-- The digests of the accepted permits of a run. -/
def digests (keccak256 : List UInt8 → Bytes32) (passado : List (EAV20Managed × Chamada)) :
    Set Bytes32 :=
  {d | ∃ x ∈ passado, ∃ p, x.2.permit? = some p ∧
    d = digest keccak256 x.1.DOMAIN_SEPARATOR p (x.1.nonces p.owner)}

/-- A signature recovers an account from one digest only. -/
def UmDigest (ecrecover : Bytes32 → Uint 8 → Bytes32 → Bytes32 → Address) (D : Set Bytes32) :
    Prop :=
  ∀ d ∈ D, ∀ d' ∈ D, ∀ v r s, ecrecover d v r s ≠ 0 → ecrecover d v r s = ecrecover d' v r s →
    d = d'

variable {s₀ : EAV20Managed} {passado depois : List (EAV20Managed × Chamada)}

/-- Between two settings, what was moved and what is left add up to what there was. -/
theorem movido_add_allowance {owner spender : Address}
    (h : Historia keccak256 ecrecover s depois t) (hsem : SemAjuste owner spender depois)
    (hmax : (s.allowance owner spender).val ≠ typeMax 256) :
    movidoPor owner spender depois + (t.allowance owner spender).val =
      (s.allowance owner spender).val := by
  induction h with
  | inicio => exact Nat.zero_add _
  | @segue depois u t c hdepois hc ih =>
    obtain ⟨hagora, hantes⟩ := List.forall_mem_cons.mp hsem
    have hgasto := ih hantes
    have hlimite := le_typeMax_iff.mpr (s.allowance owner spender).isLt
    have hpasso := (allowance_of_executa hc owner spender).2 hagora (by omega)
    have hsoma : movidoPor owner spender ((u, c) :: depois) =
        c.movido owner spender + movidoPor owner spender depois := List.sum_cons
    omega

/-- What was accepted of the permits, against the nonces now. -/
theorem permits_da_historia (h : Historia keccak256 ecrecover s₀ passado s) :
    ∀ x ∈ passado, ∀ p, x.2.permit? = some p →
      (x.1.nonces p.owner).val < (s.nonces p.owner).val ∧
        x.1.DOMAIN_SEPARATOR = s.DOMAIN_SEPARATOR ∧ p.owner ≠ 0 ∧
        ecrecover (digest keccak256 x.1.DOMAIN_SEPARATOR p (x.1.nonces p.owner)) p.v p.r p.s =
          p.owner := by
  induction h with
  | inicio => nofun
  | segue _ hc ih =>
    obtain ⟨hseparator, hcresce, hpermit⟩ := nonces_of_executa hc
    intro x hx p hp
    rcases List.mem_cons.mp hx with rfl | hx
    · obtain ⟨hconsome, hzero, hrecovered⟩ := hpermit p hp
      exact ⟨hconsome, hseparator.symm, hzero, hrecovered⟩
    · obtain ⟨hmenor, hsep, hzero, hrecovered⟩ := ih x hx p hp
      exact ⟨hmenor.trans_le (hcresce _), hsep.trans hseparator.symm, hzero, hrecovered⟩

theorem assinaturas_nodup (h : Historia keccak256 ecrecover s₀ passado s)
    (hkeccak : Set.InjOn keccak256 (hasheados keccak256 passado))
    (hecrecover : UmDigest ecrecover (digests keccak256 passado)) :
    (assinaturas passado).Nodup := by
  induction h with
  | inicio => exact List.nodup_nil
  | @segue passado s t c hpassado hc ih =>
    have hantes : (assinaturas passado).Nodup := by
      refine ih (hkeccak.mono ?_) fun d hd d' hd' => hecrecover d ?_ d' ?_
      · rintro bs ⟨x, hx, hbs⟩
        exact ⟨x, List.mem_cons_of_mem _ hx, hbs⟩
      · obtain ⟨x, hx, hp⟩ := hd
        exact ⟨x, List.mem_cons_of_mem _ hx, hp⟩
      · obtain ⟨x, hx, hp⟩ := hd'
        exact ⟨x, List.mem_cons_of_mem _ hx, hp⟩
    cases hp : c.permit? with
    | none =>
      have hmesmas : assinaturas ((s, c) :: passado) = assinaturas passado := by
        unfold assinaturas
        rw [List.filterMap_cons, hp]
        rfl
      rw [hmesmas]
      exact hantes
    | some p =>
      have hmais : assinaturas ((s, c) :: passado) = p.assinatura :: assinaturas passado := by
        unfold assinaturas
        rw [List.filterMap_cons, hp]
        rfl
      rw [hmais]
      refine List.nodup_cons.mpr ⟨fun hrepetida => ?_, hantes⟩
      obtain ⟨x, hx, hassinatura⟩ := List.mem_filterMap.mp hrepetida
      obtain ⟨p', hp', hmesma⟩ := Option.map_eq_some_iff.mp hassinatura
      unfold Permit.assinatura at hmesma
      simp only [Prod.mk.injEq] at hmesma
      obtain ⟨howner, hv, hr, hs⟩ := hmesma
      obtain ⟨hmenor, hsep, hzero, hrecovered'⟩ := permits_da_historia hpassado x hx p' hp'
      obtain ⟨-, -, hrecovered⟩ := (nonces_of_executa hc).2.2 p hp
      have hx' := List.mem_cons_of_mem (s, c) hx
      have hagora : (s, c) ∈ (s, c) :: passado := List.mem_cons_self
      -- the same signature signs one digest, so one envelope and one struct
      have hdigest : digest keccak256 x.1.DOMAIN_SEPARATOR p' (x.1.nonces p'.owner) =
          digest keccak256 s.DOMAIN_SEPARATOR p (s.nonces p.owner) := by
        refine hecrecover _ ⟨x, hx', p', hp', rfl⟩ _ ⟨_, hagora, p, hp, rfl⟩ p'.v p'.r p'.s ?_ ?_
        · rw [hrecovered']
          exact hzero
        · rw [hrecovered', hv, hr, hs, hrecovered, howner]
      have henvelope := hkeccak ⟨x, hx', p', hp', .inr rfl⟩ ⟨_, hagora, p, hp, .inr rfl⟩ hdigest
      rw [hsep] at henvelope
      have hstruct := hkeccak ⟨x, hx', p', hp', .inl rfl⟩ ⟨_, hagora, p, hp, .inl rfl⟩
        (envelope_inj henvelope)
      have hnonce := congrArg Fin.val (structDe_nonce hstruct)
      dsimp only at hnonce
      rw [howner] at hnonce hmenor
      omega

/-- The balances add up to the supply and move as numbers; a paused token and a listed account
keep theirs; a spender never moves more than the amount set; a permit counts once. -/
theorem token_em_ordem {this recipient owner : Address} {chainid initialSupply : Uint 256}
    {name symbol : String} {decimals : Uint 8}
    (hc : construct keccak256 this chainid name symbol decimals initialSupply recipient owner =
      .ok s₀) (h : Historia keccak256 ecrecover s₀ passado s) :
    ∑ a, (s.balanceOf a).val = s.totalSupply.val ∧
      (∀ c t, executa keccak256 ecrecover c s = .ok t → ∀ a,
        (t.balanceOf a).val + c.sai a = (s.balanceOf a).val + c.entra a) ∧
      (∀ depois t, Historia keccak256 ecrecover s depois t → (∀ x ∈ depois, x.1.paused = true) →
        t.balanceOf = s.balanceOf) ∧
      (∀ depois t a, Historia keccak256 ecrecover s depois t →
        (∀ x ∈ depois, x.1.blacklisted a = true) → t.balanceOf a = s.balanceOf a) ∧
      (∀ owner spender, SemAjuste owner spender passado → movidoPor owner spender passado = 0) ∧
      (∀ c t owner spender value, executa keccak256 ecrecover c s = .ok t →
        c.ajuste = some (owner, spender, value) → t.allowance owner spender = value ∧
        ∀ depois u, Historia keccak256 ecrecover t depois u → SemAjuste owner spender depois →
          value.val ≠ typeMax 256 → movidoPor owner spender depois ≤ value.val) ∧
      (Set.InjOn keccak256 (hasheados keccak256 passado) →
        UmDigest ecrecover (digests keccak256 passado) → (assinaturas passado).Nodup) := by
  have hs : s.Integro := h.invariante (integro_construct hc)
    fun hs hc => hs.passo (mudaSaldos_of_executa hc)
  refine ⟨hs, fun c t hc => hs.saldo (mudaSaldos_of_executa hc), ?_, ?_, ?_, ?_,
    assinaturas_nodup h⟩
  · intro depois t hdepois hpausado
    induction hdepois with
    | inicio => rfl
    | segue _ hc ih =>
      obtain ⟨hagora, hantes⟩ := List.forall_mem_cons.mp hpausado
      funext a
      rw [balanceOf_parado (mudaSaldos_of_executa hc) (.inl hagora), ih hantes]
  · intro depois t a hdepois hlistado
    induction hdepois with
    | inicio => rfl
    | segue _ hc ih =>
      obtain ⟨hagora, hantes⟩ := List.forall_mem_cons.mp hlistado
      rw [balanceOf_parado (mudaSaldos_of_executa hc) (.inr hagora), ih hantes]
  · intro owner spender hsem
    cases of_require hc
    have hsoma := movido_add_allowance h hsem (by unfold typeMax; norm_num)
    exact Nat.eq_zero_of_add_eq_zero_right hsoma
  · intro c t owner spender value hc hajuste
    have hvale := (allowance_of_executa hc owner spender).1 value hajuste
    refine ⟨hvale, fun depois u hdepois hsem hmax => ?_⟩
    have hsoma := movido_add_allowance hdepois hsem (by rw [hvale]; exact hmax)
    rw [hvale] at hsoma
    omega

end

/-! ## A token with an approval that is spent in part -/

def keccakDeTeste (bs : List UInt8) : Bytes32 := ⟨Keccak.keccak256 bs, Keccak.keccak256_length bs⟩

def tokenDeTeste : EAV20Managed :=
  { name := "Token"
    symbol := "TKN"
    decimals := 6
    totalSupply := 100
    owner := 3
    balanceOf := Function.update (fun _ => 0) 2 100
    DOMAIN_SEPARATOR := domainSeparator keccakDeTeste "Token" 7 1 }

/-- The holder approves five, and the spender takes three of them. -/
theorem token_gasto_em_parte : ∃ s : EAV20Managed,
    executa keccakDeTeste (fun _ _ _ _ => 0) ⟨4, 0, .transferFrom 2 5 3⟩
        (tokenDeTeste.comAllowance 2 4 5) = .ok s ∧
      ∑ a, (s.balanceOf a).val = s.totalSupply.val ∧ s.allowance 2 4 = 2 := by
  have hc : construct keccakDeTeste 1 7 "Token" "TKN" 6 100 2 3 = .ok tokenDeTeste := rfl
  have hantes : Historia keccakDeTeste (fun _ _ _ _ => 0) tokenDeTeste _
      (tokenDeTeste.comAllowance 2 4 5) :=
    .segue (a := ⟨2, 0, .approve 4 5⟩) .inicio rfl
  obtain ⟨s, hs⟩ : ∃ s, executa keccakDeTeste (fun _ _ _ _ => 0) ⟨4, 0, .transferFrom 2 5 3⟩
      (tokenDeTeste.comAllowance 2 4 5) = .ok s := ⟨_, rfl⟩
  refine ⟨s, hs, (token_em_ordem hc (hantes.segue hs)).1, ?_⟩
  have hgasto : (s.allowance 2 4).val + 3 = 5 :=
    (allowance_of_executa hs 2 4).2 nofun (by decide)
  refine Fin.ext ?_
  change (s.allowance 2 4).val = 2
  omega

end EAV20Managed
end Eav7.Vaults
