import Eav7.Ambiente
import Eav7.Value
import Eav7.Base.Binary64
import Eav7.Eavm.Precompiles
import Eav7.Eavm.Rlp

/-!
# Ethereum envelopes

A transaction signed by an Ethereum wallet travels inside one of the protocol. The
verifier derives everything again from the signed bytes and compares it field by field.
The nonce of the signed bytes is a double, as in JavaScript.
-/

namespace Eav7

open Base Eavm

def eavmStakeAddress : String := "0x0000000000000000000000000000000000007001"
def eavmUnstakeAddress : String := "0x0000000000000000000000000000000000007002"
def maxRawChars : ℕ := 8192

/-! ## The signed transaction -/

/-- What the signed bytes say, with the sender that the signature recovers. The nonce
is absent when it overflows a double. -/
structure ParsedTx where
  eavmType : ℕ
  chainId : Option ℕ
  nonce : Option ℚ
  gasPrice : ℕ
  gasLimit : ℕ
  para : Option String
  value : ℕ
  dataHex : String
  de : String
  eavmHash : String

/-- The fields of either format, before the recovery of the sender. -/
structure CamposEavm where
  tipo : ℕ
  nonce : ℕ
  gasPrice : ℕ
  gas : ℕ
  para : Rlp
  value : ℕ
  data : Rlp
  r : ℕ
  s : ℕ
  signingHash : Bytes
  recId : Option ℕ
  chainId : Option ℕ

section

variable (cr : Cripto)

/-- The format of EIP-1559, after its leading byte. -/
def camposTipo2 (raw : Bytes) : Falha CamposEavm := do
  match ← Rlp.decode raw with
  | .lista [cid, nonce, maxPrio, maxFee, gas, para, value, data, accessList, yParity, r, s] => do
    falharSe (accessList.eLista = true ∧ accessList.itemLen ≠ 0) "accessList não suportada"
    let nonceLido ← nonce.strictInt "nonce"
    let _ ← maxPrio.strictInt "maxPriorityFee"
    let gasPrice ← maxFee.strictInt "maxFee"
    let gasLido ← gas.strictInt "gas"
    let valueLido ← value.strictInt "value"
    let rLido ← r.strictInt "r"
    let sLido ← s.strictInt "s"
    let chainId ← cid.strictInt "chainId"
    let recId ← yParity.strictInt "yParity"
    Rlp.exigeBytes [("nonce", nonce), ("gasPrice", maxFee), ("gas", gas), ("to", para),
      ("value", value), ("data", data), ("r", r), ("s", s)]
    let corpo := Rlp.encode (.lista [cid, nonce, maxPrio, maxFee, gas, para, value, data, accessList])
    return {
      tipo := 2, nonce := nonceLido, gasPrice := gasPrice, gas := gasLido, para := para,
      value := valueLido, data := data, r := rLido, s := sLido,
      signingHash := cr.keccak256 (0x02 :: corpo), recId := some recId, chainId := some chainId }
  | _ => falhar "transação tipo 2 malformada"

/-- The legacy format, with the chain in `v` or without one. -/
def camposLegacy (raw : Bytes) : Falha CamposEavm := do
  match ← Rlp.decode raw with
  | .lista [nonce, gasPrice, gas, para, value, data, v, r, s] => do
    let nonceLido ← nonce.strictInt "nonce"
    let gasPriceLido ← gasPrice.strictInt "gasPrice"
    let gasLido ← gas.strictInt "gas"
    let valueLido ← value.strictInt "value"
    let rLido ← r.strictInt "r"
    let sLido ← s.strictInt "s"
    let vLido ← v.strictInt "v"
    Rlp.exigeBytes [("nonce", nonce), ("gasPrice", gasPrice), ("gas", gas), ("to", para),
      ("value", value), ("data", data), ("r", r), ("s", s)]
    let assinados := [nonce, gasPrice, gas, para, value, data]
    let cid := (vLido - 35) / 2
    let hashList :=
      if 35 ≤ vLido then assinados ++ [.bytes (Rlp.minBytes cid), .bytes [], .bytes []]
      else assinados
    return {
      tipo := 0, nonce := nonceLido, gasPrice := gasPriceLido, gas := gasLido, para := para,
      value := valueLido, data := data, r := rLido, s := sLido,
      signingHash := cr.keccak256 (Rlp.encode (.lista hashList)),
      recId := if 35 ≤ vLido then some ((vLido - 35) % 2)
        else if 27 ≤ vLido then some (vLido - 27) else none,
      chainId := if 35 ≤ vLido then some cid else none }
  | _ => falhar "transação legacy malformada"

def falhaDeRecuperacao : String := "assinatura EVM inválida (recuperação de chave falhou)"

/-- The sender, from a signature with a low `s`. -/
def recuperar (c : CamposEavm) : Falha Address := do
  falharSe (secp256k1N / 2 < c.s) "assinatura com s alto rejeitada (EIP-2)"
  falharSe (c.r = 0 ∨ c.s = 0 ∨ secp256k1N ≤ c.r ∨ secp256k1N ≤ c.s) falhaDeRecuperacao
  match c.recId with
  | none => falhar falhaDeRecuperacao
  | some recId => do
    falharSe (3 < recId) falhaDeRecuperacao
    match recoverEthAddress cr c.signingHash c.r c.s recId with
    | none => falhar falhaDeRecuperacao
    | some de => .ok de

/-- The bytes of a raw text whose characters were checked; a loose last digit is dropped. -/
def bytesDoRaw (rawHex : String) : Bytes := paresHex (rawHex.toList.drop 2)

def camposDoRaw (raw : Bytes) : Falha CamposEavm :=
  match raw with
  | [] => falhar "transação raw deve ser hex 0x"
  | primeiro :: resto =>
    if primeiro = 0x02 then camposTipo2 cr resto
    else if 0xc0 ≤ primeiro.toNat then camposLegacy cr raw
    else falhar
      s!"tipo de transação EVM não suportado: 0x{String.ofList (naturalHex primeiro.toNat)}"

def decodeRawTransaction (rawHex : String) : Falha ParsedTx := do
  let corpo := rawHex.toList.drop 2
  falharSe (rawHex.toList.take 2 ≠ ['0', 'x'] ∨ corpo.length < 2 ∨
    corpo.any (fun c => (digito? 16 c).isNone) = true) "transação raw deve ser hex 0x"
  let raw := bytesDoRaw rawHex
  let c ← camposDoRaw cr raw
  let de ← recuperar cr c
  return {
    eavmType := c.tipo, chainId := c.chainId, nonce := Binary64.ofRat c.nonce,
    gasPrice := c.gasPrice, gasLimit := c.gas,
    para := if c.para.itemLen = 0 then none else some c.para.hex0x,
    value := c.value, dataHex := c.data.hex0x, de := addrHex de,
    eavmHash := "0x" ++ hexEncode (cr.keccak256 raw) }

/-! ## Its meaning for the protocol -/

inductive EnvelopeType where
  | stake | unstake | deploy | call | transfer
  deriving DecidableEq

namespace EnvelopeType

def asStr : EnvelopeType → String
  | stake => "STAKE"
  | unstake => "UNSTAKE"
  | deploy => "EAVM_DEPLOY"
  | call => "EAVM_CALL"
  | transfer => "EAVM_TRANSFER"

def op : EnvelopeType → Option String
  | stake => some "STAKE"
  | unstake => some "UNSTAKE"
  | _ => none

def isContract : EnvelopeType → Bool
  | deploy | call => true
  | _ => false

def fee : EnvelopeType → Amount
  | stake => 10000
  | unstake => 10000
  | deploy => 200000
  | call => 100000
  | transfer => 10000

end EnvelopeType

/-- A system address stands for a native operation. -/
def opForTo (para : Option String) : Option EnvelopeType :=
  para.bind fun a =>
    let lower := cr.toLowercase a
    if lower = eavmStakeAddress then some .stake
    else if lower = eavmUnstakeAddress then some .unstake
    else none

def checkParsed (parsed : ParsedTx) : Falha Unit := do
  falharSe (parsed.chainId ≠ some Config.eavmChainId)
    s!"chainId incorreto (a rede EAV7 usa {Config.eavmChainId})"
  falharSe (parsed.value % Config.eavmWeiPerE7 ≠ 0) "valor com mais de 6 casas decimais de EAV7"
  falharSe ((opForTo cr parsed.para).isSome = true ∧ parsed.dataHex ≠ "0x")
    "endereço de sistema não aceita calldata"
  falharSe (2 + Config.maxEavmCalldata * 2 < jsLen parsed.dataHex)
    s!"calldata acima do máximo ({Config.maxEavmCalldata} bytes)"

def classify (parsed : ParsedTx) : EnvelopeType :=
  match opForTo cr parsed.para with
  | some op => op
  | none =>
    if parsed.para = none then .deploy
    else if parsed.dataHex ≠ "0x" then .call
    else .transfer

def destE7For (para : String) : Falha String :=
  match (cr.decodeE7Dest para).or (cr.eavmToE7 para) with
  | some e7 => .ok e7
  | none => falhar "endereço EAVM inválido"

/-! ## Verification -/

/-- What throws in the reference is wrapped. -/
def embrulha {α : Type} (x : Falha α) : Falha α :=
  match x with
  | .ok a => .ok a
  | .error e => falhar s!"transação EAVM inválida: {e}"

def rawDe (tx : Tx) : String := (texto (tx.campo "raw")).getD ""

def nuloOuAusente (tx : Tx) (chave : String) : Bool :=
  match tx.campo chave with
  | none | some .null => true
  | _ => false

/-- `tx.nonce === parsed.nonce + 1` over doubles. -/
def nonceConfere (nonce : ℤ) (lido : Option ℚ) : Bool :=
  match lido with
  | some q => Binary64.nearest nonce == Binary64.add q 1
  | none => false

def verifyRaw (raw : String) : Falha Unit :=
  let corpo := raw.toList.drop 2
  falharSe (raw.toList.take 2 ≠ ['0', 'x'] ∨ corpo = [] ∨ corpo.all hexMinusculo = false ∨
    maxRawChars < raw.toList.length) "transação raw inválida"

def verifyDestinoEavm (tx : Tx) (parsed : ParsedTx) (tipo : EnvelopeType) : Falha Unit :=
  if tipo.op.isSome ∨ tipo.isContract then
    falharSe (tx.para.isSome = true) "operação nativa ou de contrato não deve ter destino"
  else do
    let e7 ← embrulha (destE7For cr (parsed.para.getD ""))
    falharSe (tx.para ≠ some e7) "to não corresponde à transação assinada"

/-- What the machine will run comes from the signed bytes. -/
def verifyContrato (tx : Tx) (parsed : ParsedTx) (tipo : EnvelopeType) : Falha Unit :=
  match tipo with
  | .deploy => do
    falharSe (texto (tx.campo "code") ≠ some parsed.dataHex)
      "bytecode não corresponde ao raw assinado"
    falharSe (nuloOuAusente tx "to" = false ∨ nuloOuAusente tx "input" = false)
      "deploy não deve ter destino nem input"
  | .call => do
    falharSe (texto (tx.campo "to") ≠ some (cr.toLowercase (parsed.para.getD "")))
      "destino do contrato não corresponde ao raw"
    falharSe (texto (tx.campo "input") ≠ some parsed.dataHex)
      "calldata não corresponde ao raw assinado"
    falharSe (nuloOuAusente tx "code" = false) "chamada não deve carregar bytecode"
  | _ =>
    falharSe (nuloOuAusente tx "code" = false ∨ nuloOuAusente tx "to" = false ∨
      nuloOuAusente tx "input" = false) "transação simples não deve carregar dados de contrato"

def eavmToConfere (tx : Tx) (parsed : ParsedTx) : Bool :=
  match tx.campo "eavmTo", parsed.para with
  | some .null, none => true
  | some (.str s), some t => s == t
  | _, _ => false

def opConfere (tx : Tx) (op : Option String) : Bool :=
  match tx.campo "op", op with
  | none, none | some .null, none => true
  | some (.str s), some o => s == o
  | _, _ => false

def verifyMetadados (tx : Tx) (parsed : ParsedTx) (tipo : EnvelopeType) : Falha Unit := do
  falharSe (texto (tx.campo "eavmHash") ≠ some parsed.eavmHash ∨
    texto (tx.campo "eavmFrom") ≠ some parsed.de ∨ eavmToConfere tx parsed = false)
    "metadados EAVM não conferem com o raw"
  falharSe (opConfere tx tipo.op = false) "operação não confere"

def verifyEavmEnvelope (tx : Tx) : Falha Unit := do
  falharSe (tx.protocol ≠ Config.protocol) "protocolo inválido"
  falharSe (tx.scheme ≠ eavmScheme) s!"esquema inválido (esperado {eavmScheme})"
  let raw := rawDe tx
  verifyRaw raw
  let parsed ← embrulha (decodeRawTransaction cr raw)
  checkParsed cr parsed
  let tipo := classify cr parsed
  falharSe (tx.txType ≠ tipo.asStr) "tipo não corresponde à transação assinada"
  falharSe (tx.fee ≠ toString tipo.fee ∧ tx.fee ≠ "0") "taxa inválida"
  match cr.eavmToE7 parsed.de with
  | none => falhar "transação EAVM inválida: endereço EAVM inválido"
  | some de => falharSe (tx.de ≠ de) "from não corresponde à assinatura recuperada"
  verifyDestinoEavm cr tx parsed tipo
  verifyContrato cr tx parsed tipo
  falharSe (tx.amount ≠ toString (parsed.value / Config.eavmWeiPerE7))
    "amount não corresponde ao valor assinado"
  falharSe (nonceConfere tx.nonce parsed.nonce = false) "nonce não corresponde ao nonce EAVM"
  falharSe (tx.timestamp ≤ 0 ∨ maxSafeInteger < tx.timestamp) "timestamp inválido"
  verifyMetadados tx parsed tipo
  falharSe (tx.id ≠ some (cr.eavHashOne s!"EAV7-EAVM-TX:{raw}")) "id da transação não confere"

end

end Eav7
