import Eav7.TokenTx
import Eav7.Recursos
import Eav7.Ambiente

/-!
# Transactions of the EVM route

The virtual machine runs before the fee is known, on a journaled world. Every
refusal after the run undoes the whole journal.
-/

namespace Eav7

open Base

namespace EavmTx

def energyFree : ℕ := 10
def energyPerStaked : ℕ := 1
def energyRegenBlocks : ℕ := 86400
def burnPerEnergy : ℕ := 20000
def gasCodeDepositByte : ℕ := 20

def maxEnergy (acc : Account) : ℚ :=
  Binary64.add energyFree (Binary64.mul acc.resourceUnits energyPerStaked)

/-- The energy an address has left; an absent account reads the free quota. -/
def energiaDisponivel (s : State) (address : String) (height : ℕ) : ℚ :=
  match s.accounts.get? address with
  | none => energyFree
  | some acc =>
    let maxE := maxEnergy acc
    let elapsed := Binary64.nearest (height - acc.energyBlock : ℕ)
    let recovered := (Binary64.div (Binary64.mul maxE elapsed) energyRegenBlocks).floor
    let used := max (Binary64.sub (Binary64.nearest acc.energyUsed) recovered) 0
    max (Binary64.sub maxE used) 0

/-- The energy a call may use, counting what fee limit and balance can burn. -/
def energiaOrcada (s : State) (tx : Tx) (height feeLimit : ℕ) : ℚ :=
  let burnable := Binary64.nearest
    (min (feeLimit / burnPerEnergy) ((s.account tx.de).balance / burnPerEnergy) : ℕ)
  Binary64.sub (Binary64.add (energiaDisponivel s tx.de height) burnable)
    (Config.energyCost tx.txType)

def gasDe (energia : ℚ) : ℕ :=
  Binary64.toNat u64Limit (min Config.maxEavmGas (Binary64.mul energia Config.gasPerEnergy))

def campoTexto (tx : Tx) (chave : String) : String := (texto (tx.campo chave)).getD ""

def valorDaTx (tx : Tx) : R Amount := exigir (parseU128 tx.amount) "valor inválido"

section

variable (cr : Cripto)

/-- The 0x form of the sender, as the virtual machine sees it. -/
def senderEavmForm (tx : Tx) : R Address :=
  if tx.scheme = eavmScheme ∧ campoTexto tx "eavmFrom" ≠ "" then
    exigir (parseAddrStrict (minusculas (campoTexto tx "eavmFrom"))) "data.eavmFrom inválido"
  else do
    let enc ← cr.encodeE7Dest tx.de
    exigir (parseAddrStrict enc) "endereço E7 inválido"

def excedeu : String :=
  "GB insuficiente e limite de taxa excedido — faça stake ou aumente o limite"

/-- The GB quota and fee of a transaction, which its fee limit must cover. -/
def apurarGb (s : State) (tx : Tx) (height feeLimit : ℕ) : R (Peek × Amount) := do
  let gb := peekGb (s.account tx.de) height (consumoGb tx)
  let fee ← taxaGb gb
  recusar (feeLimit < fee) excedeu
  return (gb, fee)

def aplicarTransfer (tx : Tx) (height feeLimit : ℕ) : Op Amount := do
  let s ← get
  let amount ← valorDaTx tx
  let (gb, fee) ← apurarGb s tx height feeLimit
  let total ← soma amount fee
  recusar (s.balanceOf tx.de < total) "saldo insuficiente"
  debitar tx.de total
  creditar (tx.para.getD "null") amount
  modify (·.comConta tx.de (commitGb height gb))
  return fee

/-- The target of a deployment and the code that runs there. -/
def alvoDeploy (s : State) (tx : Tx) (sender : Address) : R (Address × Bytes) := do
  let code := bufferFromHex (campoTexto tx "code")
  recusar (code = []) "EAVM_DEPLOY exige data.code (bytecode)"
  let ca := Eavm.createAddress cr sender (s.account tx.de).nonce
  recusar (∃ c ∈ s.contracts.get? (addrHex ca), c.code ≠ "") "endereço de contrato já ocupado"
  return (ca, code)

def alvoCall (s : State) (tx : Tx) : R (Address × Bytes) := do
  let alvo := minusculas (campoTexto tx "to")
  let ca ← exigir ((parseAddrStrict alvo).filter fun _ => s.contracts.contains alvo)
    "destino não é um contrato EAVM (use data.to = 0x…)"
  return (ca, EavmWorld.getCode { state := s } ca)

structure Preparo where
  deploy : Bool
  value : Amount
  gas : ℕ
  sender : Address
  contrato : Address
  code : Bytes

def preparar (s : State) (tx : Tx) (height feeLimit : ℕ) : R Preparo := do
  let deploy := tx.txType == "EAVM_DEPLOY"
  let value ← valorDaTx tx
  let energia := energiaOrcada s tx height feeLimit
  recusar (energia ≤ 0) "energia/saldo insuficiente para executar o contrato"
  let sender ← senderEavmForm cr tx
  let (contrato, code) ← if deploy then alvoDeploy cr s tx sender else alvoCall s tx
  return { deploy := deploy, value := value, gas := gasDe energia, sender := sender,
           contrato := contrato, code := code }

def blocoDe (height blockTs : ℕ) : Eavm.BlockContext :=
  { number := height, timestamp := blockTs, gasLimit := 0, chainId := Config.eavmChainId }

def paramsDe (p : Preparo) (tx : Tx) (height blockTs : ℕ) : Eavm.ExecParams :=
  { code := p.code
    calldata := bufferFromHex (if p.deploy then "" else campoTexto tx "input")
    gas := p.gas
    caller := p.sender
    address := p.contrato
    origin := some p.sender
    value := BitVec.ofNat 256 p.value
    block := blocoDe height blockTs
    gasPrice := 0
    depth := 0 }

def depositoDe (r : Eavm.ExecResult) : ℕ :=
  min (r.returnData.length * gasCodeDepositByte) (u64Limit - 1)

/-- A deployment stores the returned code when its deposit fits the gas. -/
def concluirDeploy (p : Preparo) (r : Eavm.ExecResult) (w : EavmWorld) : Eavm.ExecResult × EavmWorld :=
  if r.success ∧ r.returnData.length ≤ Config.maxContractBytes ∧
      min (r.gasUsed + depositoDe r) (u64Limit - 1) ≤ p.gas then
    ({ r with gasUsed := min (r.gasUsed + depositoDe r) (u64Limit - 1) },
      w.putCode p.contrato r.returnData)
  else ({ r with success := false }, w)

def concluirExecucao (p : Preparo) (f : Option Eavm.ExecResult × EavmWorld) : Eavm.ExecResult × EavmWorld :=
  match f with
  | (some r, w) => if p.deploy then concluirDeploy p r w else (r, w)
  | (none, w) =>
    ({ success := false, returnData := [], gasUsed := p.gas, gasLeft := 0, logs := [] }, w)

end

structure EavmXfer where
  kind : TransferKind
  de : String
  para : String
  deE7 : String
  paraE7 : String
  amount : Amount

/-- The receipt of an execution. -/
structure EavmOutcome where
  success : Bool
  gasUsed : ℕ
  returnData : Bytes
  contractAddr : String
  isDeploy : Bool
  logs : List Eavm.Log
  xfers : List EavmXfer

section

variable (amb : Ambiente)

/-- Moves the entry value of a transaction to its target. -/
def entradaDe (cr : Cripto) (s : State) (p : Preparo) : Bool × EavmWorld :=
  if 0 < p.value then
    ({ state := s } : EavmWorld).moveValue cr p.sender p.contrato (BitVec.ofNat 256 p.value) .entry
  else (true, { state := s })

/-- The world after the entry value, the run and, unless it succeeded, the
revert of everything. -/
def executar (s : State) (p : Preparo) (tx : Tx) (height blockTs : ℕ) :
    R (Eavm.ExecResult × EavmWorld) :=
  let entrada := entradaDe amb.cripto s p
  if entrada.1 then
    let f := concluirExecucao p
      (executarNoMundo amb.cripto amb.precompilados (paramsDe p tx height blockTs) entrada.2)
    .ok (f.1, if f.1.success then f.2 else f.2.desfazAte 0)
  else erro "saldo insuficiente para o valor enviado ao contrato"

def e7Of (cr : Cripto) (addr0x : String) : String :=
  (cr.decodeE7Dest addr0x).getD (cr.deriveAddressFrom (bytesDe s!"EAV7-EAVM:{minusculas addr0x}"))

def xferDe (cr : Cripto) (x : Xfer) : EavmXfer :=
  { kind := x.kind, de := x.de, para := x.para, deE7 := e7Of cr x.de, paraE7 := e7Of cr x.para,
    amount := x.amount }

def reciboDe (p : Preparo) (r : Eavm.ExecResult) (w : EavmWorld) : EavmOutcome :=
  { success := r.success, gasUsed := r.gasUsed, returnData := r.returnData,
    contractAddr := addrHex p.contrato, isDeploy := p.deploy,
    logs := if r.success then r.logs else [], xfers := w.xfers.map (xferDe amb.cripto) }

/-- Charges the fee on the world after the run. An overflow of the fee itself is
reported without any undoing. -/
def cobrarVm (w : EavmWorld) (tx : Tx) (height feeLimit : ℕ) : Op Amount := do
  set w.state
  let gb := peekGb (w.state.account tx.de) height (consumoGb tx)
  let fee ← taxaGb gb
  if feeLimit < fee then do
    set (w.desfazAte 0).state
    recusar True excedeu
  if w.state.balanceOf tx.de < fee then do
    set (w.desfazAte 0).state
    recusar True "saldo insuficiente"
  modify (·.comConta tx.de fun c =>
    commitGb height gb { c with balance := w.state.balanceOf tx.de - fee })
  return fee

def aplicarVm (tx : Tx) (height blockTs feeLimit : ℕ) : Op (Amount × EavmOutcome) := do
  let s ← get
  let p ← preparar amb.cripto s tx height feeLimit
  let (r, w) ← executar amb s p tx height blockTs
  let fee ← cobrarVm w tx height feeLimit
  return (fee, reciboDe amb p r w)

/-- The limit the sender authorised, below the protocol maximum. -/
def feeLimitDe (tx : Tx) : R Amount := do
  let feeLimit ← exigir (parseU128 tx.fee) "fee inválida"
  recusar (Config.maxFeeLimit < feeLimit) "limite de taxa (fee) acima do máximo permitido"
  return feeLimit

def tipos : List String := ["EAVM_DEPLOY", "EAVM_CALL", "EAVM_TRANSFER"]

def aplicar (tx : Tx) (height blockTs : ℕ) : Op (Amount × Option EavmOutcome) := do
  let feeLimit ← feeLimitDe tx
  if tx.txType = "EAVM_TRANSFER" then do
    let fee ← aplicarTransfer tx height feeLimit
    return (fee, none)
  else do
    let (fee, recibo) ← aplicarVm amb tx height blockTs feeLimit
    return (fee, some recibo)

end

end EavmTx
end Eav7
