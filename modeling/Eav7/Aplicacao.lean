import Eav7.AiTx
import Eav7.EavmTx

/-!
# Applying a transaction

The dispatch by type, the resource fee and the epilogue that burns it.
-/

namespace Eav7

open Base

structure AppliedTx where
  fee : Amount
  eavm : Option EavmTx.EavmOutcome

/-- The types that reach a handler through the common dispatch. -/
inductive Tipo where
  | transfer | stake | unstake | vote | setCommission | slashDoubleSign | delegateResource
  | undelegateResource | vestingCreate | vestingClaim | claimVoterReward
  | tokenCreate | tokenTransfer | tokenApprove | tokenTransferFrom | tokenMint | tokenBurn
  | tokenPause | tokenUnpause | tokenBlacklist | tokenFreeze | tokenUnfreeze
  | nftCreate | nftMint | nftTransfer | nftApprove | nftBurn
  | nameRegister | nameUpdate | nameTransfer | nameRelease
  | govPropose | govVote | permissionUpdate | permissionPropose | permissionApprove
  | permissionVeto | multisigPropose | multisigApprove | metaTx | oracleRegister
  | aiTask | aiResult | aiClaim | aiChallenge | aiVerdict | aiBid | aiAward | aiCommit
  | aiReveal | aiRefund
  | bridgeIn | bridgeOut | bridgeSettle | bridgeCommitteeUpdate
  deriving DecidableEq

namespace Tipo

def nomes : List (String × Tipo) :=
  [("TRANSFER", transfer), ("STAKE", stake), ("UNSTAKE", unstake), ("VOTE", vote),
    ("SET_COMMISSION", setCommission), ("SLASH_DOUBLE_SIGN", slashDoubleSign),
    ("DELEGATE_RESOURCE", delegateResource), ("UNDELEGATE_RESOURCE", undelegateResource),
    ("VESTING_CREATE", vestingCreate), ("VESTING_CLAIM", vestingClaim),
    ("CLAIM_VOTER_REWARD", claimVoterReward), ("TOKEN_CREATE", tokenCreate),
    ("TOKEN_TRANSFER", tokenTransfer), ("TOKEN_APPROVE", tokenApprove),
    ("TOKEN_TRANSFER_FROM", tokenTransferFrom), ("TOKEN_MINT", tokenMint),
    ("TOKEN_BURN", tokenBurn), ("TOKEN_PAUSE", tokenPause), ("TOKEN_UNPAUSE", tokenUnpause),
    ("TOKEN_BLACKLIST", tokenBlacklist), ("TOKEN_FREEZE", tokenFreeze),
    ("TOKEN_UNFREEZE", tokenUnfreeze), ("NFT_CREATE", nftCreate), ("NFT_MINT", nftMint),
    ("NFT_TRANSFER", nftTransfer), ("NFT_APPROVE", nftApprove), ("NFT_BURN", nftBurn),
    ("NAME_REGISTER", nameRegister), ("NAME_UPDATE", nameUpdate),
    ("NAME_TRANSFER", nameTransfer), ("NAME_RELEASE", nameRelease), ("GOV_PROPOSE", govPropose),
    ("GOV_VOTE", govVote), ("PERMISSION_UPDATE", permissionUpdate),
    ("PERMISSION_PROPOSE", permissionPropose), ("PERMISSION_APPROVE", permissionApprove),
    ("PERMISSION_VETO", permissionVeto), ("MULTISIG_PROPOSE", multisigPropose),
    ("MULTISIG_APPROVE", multisigApprove), ("META_TX", metaTx),
    ("ORACLE_REGISTER", oracleRegister), ("AI_TASK", aiTask), ("AI_RESULT", aiResult),
    ("AI_CLAIM", aiClaim), ("AI_CHALLENGE", aiChallenge), ("AI_VERDICT", aiVerdict),
    ("AI_BID", aiBid), ("AI_AWARD", aiAward), ("AI_COMMIT", aiCommit), ("AI_REVEAL", aiReveal),
    ("AI_REFUND", aiRefund), ("BRIDGE_IN", bridgeIn), ("BRIDGE_OUT", bridgeOut),
    ("BRIDGE_SETTLE", bridgeSettle), ("BRIDGE_COMMITTEE_UPDATE", bridgeCommitteeUpdate)]

def deTexto (t : String) : Option Tipo := nomes.lookup t

end Tipo

section

variable (amb : Ambiente)

/-- The handler of a type. -/
def manipulador (tx : Tx) (ctx : Ctx) : Tipo → Op Unit
  | .transfer => transfer tx ctx
  | .stake => stake tx ctx
  | .unstake => unstake tx ctx
  | .vote => vote amb.cripto tx ctx
  | .setCommission => setCommission tx ctx
  | .slashDoubleSign => slashDoubleSign amb.cripto tx ctx
  | .delegateResource => delegateResource amb.cripto tx ctx
  | .undelegateResource => undelegateResource amb.cripto tx ctx
  | .vestingCreate => vestingCreate amb.cripto tx ctx
  | .vestingClaim => vestingClaim tx ctx
  | .claimVoterReward => claimVoterReward amb.cripto tx ctx
  | .tokenCreate => TokenTx.criar amb.cripto tx ctx
  | .tokenTransfer => TokenTx.transferir amb.cripto tx ctx
  | .tokenApprove => TokenTx.aprovar amb.cripto tx ctx
  | .tokenTransferFrom => TokenTx.transferirDe amb.cripto tx ctx
  | .tokenMint => TokenTx.emitir amb.cripto tx ctx
  | .tokenBurn => TokenTx.queimar tx ctx
  | .tokenPause => TokenTx.pausar tx ctx
  | .tokenUnpause => TokenTx.pausar tx ctx
  | .tokenBlacklist => TokenTx.bloquear amb.cripto tx ctx
  | .tokenFreeze => TokenTx.congelar tx ctx
  | .tokenUnfreeze => TokenTx.descongelar tx ctx
  | .nftCreate => NftTx.nftCreate amb.cripto tx ctx
  | .nftMint => NftTx.nftMint amb.cripto tx ctx
  | .nftTransfer => NftTx.nftTransfer amb.cripto tx ctx
  | .nftApprove => NftTx.nftApprove amb.cripto tx ctx
  | .nftBurn => NftTx.nftBurn tx ctx
  | .nameRegister => NftTx.nameRegister amb.cripto tx ctx
  | .nameUpdate => NftTx.nameUpdate amb.cripto tx ctx
  | .nameTransfer => NftTx.nameTransfer amb.cripto tx ctx
  | .nameRelease => NftTx.nameRelease tx ctx
  | .govPropose => GovTx.govPropose amb.cripto tx ctx
  | .govVote => GovTx.govVote tx ctx
  | .permissionUpdate => GovTx.permissionUpdate amb.cripto tx ctx
  | .permissionPropose => GovTx.permissionPropose amb.cripto tx ctx
  | .permissionApprove => GovTx.permissionApprove amb.cripto tx ctx
  | .permissionVeto => GovTx.permissionVeto amb.cripto tx ctx
  | .multisigPropose => GovTx.multisigPropose amb.cripto tx ctx
  | .multisigApprove => GovTx.multisigApprove amb.cripto tx ctx
  | .metaTx => GovTx.metaTx amb tx ctx
  | .oracleRegister => GovTx.oracleRegister tx ctx
  | .aiTask => AiTx.aiTask amb.cripto tx ctx
  | .aiResult => AiTx.aiResult amb.cripto tx ctx
  | .aiClaim => AiTx.aiClaim tx ctx
  | .aiChallenge => AiTx.aiChallenge tx ctx
  | .aiVerdict => AiTx.aiVerdict tx ctx
  | .aiBid => AiTx.aiBid tx ctx
  | .aiAward => AiTx.aiAward tx ctx
  | .aiCommit => AiTx.aiCommit tx ctx
  | .aiReveal => AiTx.aiReveal amb.cripto tx ctx
  | .aiRefund => AiTx.aiRefund tx ctx
  | .bridgeIn => BridgeTx.bridgeIn amb.cripto tx ctx
  | .bridgeOut => BridgeTx.bridgeOut amb.cripto tx ctx
  | .bridgeSettle => BridgeTx.bridgeSettle tx ctx
  | .bridgeCommitteeUpdate => BridgeTx.committeeUpdate amb.cripto tx ctx

def despachar (tx : Tx) (ctx : Ctx) : Op Unit :=
  match Tipo.deTexto tx.txType with
  | some tipo => manipulador amb tx ctx tipo
  | none => Base.lift (erro s!"tipo de transação desconhecido: {tx.txType}")

/-- The nonce a transaction must carry; it is signed on the wire. -/
def conferirNonce (s : State) (tx : Tx) : R ℕ := do
  let esperado := (s.account tx.de).nonce + 1
  recusar (tx.nonce < 0 ∨ u64Limit ≤ tx.nonce ∨ tx.nonce ≠ esperado)
    s!"nonce inválido (esperado {esperado}, recebido {tx.nonce})"
  return esperado

/-- The guards before the dispatch, in the order of their messages. -/
def conferirEntrada (s : State) (tx : Tx) : R ℕ := do
  let recebido ← conferirNonce s tx
  recusar (∃ f ∈ parseU128 tx.fee, Config.maxFeeLimit < f)
    "limite de taxa (fee) acima do máximo permitido"
  recusar (s.permissions.contains tx.de)
    "conta multisig: opere via MULTISIG_PROPOSE/APPROVE, não por assinatura única"
  return recebido

/-- Measures the GB quota and the fee, writing nothing. -/
def apurarTaxa (s : State) (tx : Tx) (height : ℕ) : R (Peek × Amount) := do
  let limite ← exigir (parseU128 tx.fee) "taxa inválida"
  EavmTx.apurarGb s tx height limite

/-- Burns the fee that the handler debited. -/
def queimarTaxa (fee : Amount) : Op Unit := do
  let s ← get
  let queimado ← soma s.totalBurned fee
  modify fun s => { s with totalBurned := queimado }

def aplicarEavm (tx : Tx) (height blockTs recebido : ℕ) : Op AppliedTx := do
  let (fee, recibo) ← EavmTx.aplicar amb tx height blockTs
  modify (·.comConta tx.de fun c => { c with nonce := recebido })
  queimarTaxa fee
  return { fee := fee, eavm := recibo }

def aplicarNativa (s : State) (tx : Tx) (height blockTs recebido : ℕ) : Op AppliedTx := do
  let (gb, fee) ← apurarTaxa s tx height
  despachar amb tx { height := height, blockTs := blockTs, fee := fee }
  modify (·.comConta tx.de fun c => commitGb height gb { c with nonce := recebido })
  queimarTaxa fee
  return { fee := fee, eavm := none }

def applyTransaction (tx : Tx) (height blockTs : ℕ) : Op AppliedTx := do
  let s ← get
  let recebido ← conferirEntrada s tx
  if tx.txType ∈ EavmTx.tipos then aplicarEavm amb tx height blockTs recebido
  else aplicarNativa amb s tx height blockTs recebido

end

end Eav7
