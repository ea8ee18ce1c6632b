import Eav7.Contracts
import Eav7.Block

/-!
# What the handlers call outside the state

The cryptographic crates, those behind the precompiled contracts, and the
verifier of Ethereum envelopes.
-/

namespace Eav7

structure Ambiente where
  cripto : Cripto
  precompilados : Eavm.Precompilados
  verifyEavmEnvelope : Tx → Falha Unit

def txTypes : List String :=
  ["TRANSFER", "STAKE", "UNSTAKE", "VOTE", "DELEGATE_RESOURCE", "UNDELEGATE_RESOURCE",
    "GOV_PROPOSE", "GOV_VOTE", "SLASH_DOUBLE_SIGN", "VESTING_CREATE", "VESTING_CLAIM",
    "SET_COMMISSION", "CLAIM_VOTER_REWARD", "META_TX", "BRIDGE_COMMITTEE_UPDATE",
    "PERMISSION_UPDATE", "PERMISSION_PROPOSE", "PERMISSION_APPROVE", "PERMISSION_VETO",
    "MULTISIG_PROPOSE", "MULTISIG_APPROVE", "TOKEN_CREATE", "TOKEN_TRANSFER", "TOKEN_APPROVE",
    "TOKEN_TRANSFER_FROM", "TOKEN_MINT", "TOKEN_BURN", "TOKEN_PAUSE", "TOKEN_UNPAUSE",
    "TOKEN_BLACKLIST", "TOKEN_FREEZE", "TOKEN_UNFREEZE", "NFT_CREATE", "NFT_MINT",
    "NFT_TRANSFER", "NFT_APPROVE", "NFT_BURN", "NAME_REGISTER", "NAME_UPDATE", "NAME_TRANSFER",
    "NAME_RELEASE", "AI_TASK", "AI_RESULT", "AI_COMMIT", "AI_REVEAL", "AI_CLAIM",
    "AI_CHALLENGE", "AI_VERDICT", "AI_BID", "AI_AWARD", "ORACLE_REGISTER", "BRIDGE_OUT",
    "BRIDGE_IN", "BRIDGE_SETTLE", "AI_REFUND", "EAVM_TRANSFER", "EAVM_DEPLOY", "EAVM_CALL"]

def requiresTo : List String :=
  ["TRANSFER", "TOKEN_TRANSFER", "TOKEN_APPROVE", "TOKEN_TRANSFER_FROM", "BRIDGE_IN"]

/-- A canonical decimal of at most 30 digits. -/
def eAmountValido (s : String) : Bool :=
  s.toList.all eDigito && s.toList.length ≤ 30 && (s == "0" || (s.toList.headD '0' != '0'))

namespace Ambiente

variable (amb : Ambiente)

def verifyCampos (tx : Tx) : Falha Unit := do
  falharSe (tx.protocol ≠ Config.protocol) s!"protocolo inválido (esperado {Config.protocol})"
  falharSe (tx.scheme ≠ signatureScheme)
    s!"esquema de assinatura inválido (esperado {signatureScheme})"
  falharSe (tx.txType ∉ txTypes) s!"tipo de transação desconhecido: {tx.txType}"
  falharSe (tx.txType = "EAVM_TRANSFER") "EAVM_TRANSFER só é válido via esquema EAVM"
  falharSe (eAmountValido tx.amount = false) "amount inválido"
  falharSe (eAmountValido tx.fee = false) "fee inválida"
  match parseU128 tx.fee with
  | none => falhar "fee inválida"
  | some fee =>
    falharSe (Config.maxFeeLimit < fee) "limite de taxa (fee) acima do máximo permitido"
  falharSe (tx.nonce < 1 ∨ maxSafeInteger < tx.nonce) "nonce inválido"
  falharSe (tx.timestamp ≤ 0 ∨ maxSafeInteger < tx.timestamp) "timestamp inválido"

def verifyDestino (tx : Tx) : Falha Unit :=
  match tx.para with
  | some para => falharSe (amb.cripto.isValidAddress para = false) "endereço de destino inválido"
  | none => falharSe (tx.txType ∈ requiresTo) "endereço de destino inválido"

def verifyData (tx : Tx) : Falha Unit :=
  match tx.data with
  | some (.map m) =>
    falharSe (Config.maxDataBytes < canonicalJsonLen (.map m)) "campo data excede o limite"
  | _ => falhar "campo data inválido"

def verifyAssinaturas (tx : Tx) : Falha Unit :=
  match tx.publicKey, tx.pqPublicKey with
  | some pk, some pqpk =>
    match tx.signature, tx.pqSignature with
    | some sig, some pqsig =>
      match amb.cripto.addressFromPublicKeys pk pqpk with
      | none => falhar "chave pública inválida"
      | some derivado => do
        falharSe (derivado ≠ tx.de) "chaves públicas não correspondem ao endereço de origem"
        falharSe (amb.cripto.hybridVerify pk pqpk (bytesDe tx.signingPayload) sig pqsig = false)
          "assinatura híbrida inválida"
    | _, _ => falhar "assinaturas ausentes (esquema híbrido exige as duas)"
  | _, _ => falhar "chaves públicas ausentes (esquema híbrido exige as duas)"

/-- The stateless validation of a transaction. -/
def verifyTransaction (tx : Tx) : Falha Unit :=
  if tx.scheme = eavmScheme then amb.verifyEavmEnvelope tx
  else do
    verifyCampos tx
    falharSe (amb.cripto.isValidAddress tx.de = false) "endereço de origem inválido"
    amb.verifyDestino tx
    verifyData tx
    amb.verifyAssinaturas tx
    falharSe (tx.id ≠ some (amb.cripto.txId tx)) "id da transação não confere"

end Ambiente
end Eav7
