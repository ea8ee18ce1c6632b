import Eav7.GovTx

/-!
# Multisignature operations and sponsored transactions

An operation is validated against the state of the moment it gathers enough
weight, then applied in the same transaction. Token, collection and vote
operations keep part of their checks for the application.
-/

namespace Eav7

open Base

namespace GovTx

inductive OpResolvida where
  | transfer (para : String) (amount : Amount)
  | stake (amount : Amount)
  | unstake (amount : Amount)
  | setCommission (pct : ℕ)
  | permissionChange (perm : Option Permission)
  | tokenTransfer (token para : String) (amount : Amount)
  | nftTransfer (colecao tokenId para : String)
  | vote (votos : JsonValue)
  | claimVoterReward (validador : String)
  | govPropose (param : String) (value : ValorGov) (votingBlocks : ℕ)
  | govVote (proposalId : String)

section

variable (cr : Cripto)

def amountPositivo (v : Option JsonValue) : R Amount := do
  let amount ← exigir (comoAmount v) "valor deve ser positivo"
  recusar (amount = 0) "valor deve ser positivo"
  return amount

def validarTransfer (s : State) (conta : Account) (op : JsonValue) : R OpResolvida := do
  let para := (texto (op.campo "to")).getD ""
  recusar (cr.isValidAddress para = false) "destino inválido"
  let amount ← amountPositivo (op.campo "amount")
  recusar (conta.balance < amount) "saldo insuficiente na conta multisig"
  recusar (u128Limit ≤ s.balanceOf para + amount) "estouro de saldo no destino"
  return .transfer para amount

def validarStake (conta : Account) (op : JsonValue) : R OpResolvida := do
  let amount ← amountPositivo (op.campo "amount")
  recusar (conta.balance < amount) "saldo insuficiente na conta multisig"
  recusar (u128Limit ≤ conta.staked + amount) "estouro de stake"
  return .stake amount

def validarUnstake (s : State) (account : String) (conta : Account) (op : JsonValue)
    (height : ℕ) : R OpResolvida := do
  let amount ← amountPositivo (op.campo "amount")
  recusar (conta.staked < amount) "stake insuficiente"
  let ativos ← validadores s (some (account, conta.staked - amount))
  recusar (ativos.length = 0) "não é possível remover o último validador ativo da rede"
  recusar (Config.maxUnbondingEntries ≤ emFila s account)
    s!"limite de {Config.maxUnbondingEntries} saques simultâneos atingido"
  let _ ← alturaApos height Config.unbondingBlocks "estouro de altura no unbonding"
  return .unstake amount

def validarSetCommission (op : JsonValue) (height : ℕ) : R OpResolvida := do
  let pct ← exigir (comoI128 (op.campo "percent")) "comissão deve ser 0..100"
  recusar (pct < 0 ∨ 100 < pct) "comissão deve ser 0..100"
  let _ ← alturaApos height Config.commissionDelayBlocks "estouro de altura na comissão"
  return .setCommission pct.toNat

def validarPermissionChange (op : JsonValue) : R OpResolvida :=
  match op.campo "permission" with
  | some .null => .ok (.permissionChange none)
  | outro => do return .permissionChange (some (.v1 (← normalizarNivel cr outro)))

def validarTokenTransfer (s : State) (op : JsonValue) : R OpResolvida := do
  let token := (texto (op.campo "token")).getD ""
  recusar (s.tokens.contains token = false) "token inexistente"
  let para := (texto (op.campo "to")).getD ""
  let amount ← amountPositivo (op.campo "amount")
  recusar (cr.isValidAddress para = false) "destino inválido"
  return .tokenTransfer token para amount

def validarClaim (s : State) (account : String) (op : JsonValue) : R OpResolvida := do
  let validador := (texto (op.campo "validator")).getD ""
  recusar (cr.isValidAddress validador = false) "validador inválido"
  recusar ((s.votosDe account).contains validador = false) "você não vota nesse validador"
  return .claimVoterReward validador

def validarGovPropose (s : State) (account : String) (op : JsonValue) (height : ℕ) :
    R OpResolvida := do
  let ativos ← validadores s none
  recusar (account ∉ ativos) "só validador ativo pode propor"
  let param := (texto (op.campo "param")).getD ""
  let value ← resolverValorGov cr param (op.campo "value") height
  let vb ← votingBlocksDe (op.campo "votingBlocks")
  return .govPropose param value vb

def validarGovVote (s : State) (account : String) (op : JsonValue) (height : ℕ) :
    R OpResolvida := do
  let pid := (texto (op.campo "proposalId")).getD ""
  let p ← propostaAberta s pid height
  let ativos ← validadores s none
  recusar (account ∉ ativos) "só validador ativo pode votar"
  recusar (p.votes.contains account) "validador já votou nesta proposta"
  return .govVote pid

def validarOp (s : State) (account : String) (op : JsonValue) (height : ℕ) : R OpResolvida := do
  let tipo ← exigir (texto (op.campo "type")) "operação inválida"
  let conta := s.account account
  match tipo with
  | "TRANSFER" => validarTransfer cr s conta op
  | "STAKE" => validarStake conta op
  | "UNSTAKE" => validarUnstake s account conta op height
  | "SET_COMMISSION" => validarSetCommission op height
  | "PERMISSION_CHANGE" => validarPermissionChange cr op
  | "TOKEN_TRANSFER" => validarTokenTransfer cr s op
  | "NFT_TRANSFER" =>
    return .nftTransfer ((texto (op.campo "collection")).getD "")
      (NftTx.jsString (op.campo "tokenId")) ((texto (op.campo "to")).getD "")
  | "VOTE" => return .vote ((op.campo "votes").getD .null)
  | "CLAIM_VOTER_REWARD" => validarClaim cr s account op
  | "GOV_PROPOSE" => validarGovPropose cr s account op height
  | "GOV_VOTE" => validarGovVote s account op height
  | outro => erro s!"tipo de operação multisig não suportado: {outro}"

def gravarPropostaGov (proposer param : String) (value : ValorGov) (votingBlocks height : ℕ)
    (id : String) (createdAt : ℤ) : Op Unit := do
  let s ← get
  let deadline ← alturaApos height votingBlocks "estouro de altura na janela de votação"
  let executeAt ← apurar s (cedula proposer) height
  modify fun s => { s with
    proposals := s.proposals.insert id
      (proposta id param value proposer deadline executeAt createdAt) }

/-- The index in the source aborts on a missing proposal; the validation of the
same transaction rules that out. -/
def aplicarVotoGov (voter proposalId : String) (height : ℕ) : Op Unit := do
  let s ← get
  let p ← exigir (s.proposals.get? proposalId) "verificado na validação"
  let votos := p.votes.insert voter true
  let executeAt ← apurar s votos height
  modify fun s => { s with
    proposals := s.proposals.insert proposalId (comVotos p votos executeAt) }

/-- Drops the pending operations that satisfy a predicate. -/
def retiraOps (p : PendingOp → Bool) (s : State) : State :=
  { s with pendingOps := s.pendingOps.filter fun _ op => !p op }

def aplicarPermissionChange (account : String) (perm : Option Permission) (s : State) : State :=
  retiraOps (fun p => p.account == account)
    { s with
      permissions := match perm with
        | none => s.permissions.erase account
        | some p => s.permissions.insert account p }

def aplicarOp (account : String) (op : OpResolvida) (height : ℕ) (opId : String) : Op Unit :=
  match op with
  | .transfer para amount => do
    debitar account amount
    creditar para amount
  | .stake amount => do
    debitar account amount
    let s ← get
    recusar (u128Limit ≤ (s.account account).staked + amount) "estouro de stake"
    modify (·.comConta account fun c => { c with staked := c.staked + amount })
  | .unstake amount => do
    let s ← get
    recusar ((s.account account).staked < amount) "stake insuficiente"
    modify (·.comConta account fun c => { c with staked := c.staked - amount })
    let matura ← alturaApos height Config.unbondingBlocks "estouro de altura no unbonding"
    modify fun s => { s with unbonding := s.unbonding ++ [(account, amount, matura)] }
  | .setCommission pct => do
    let em ← alturaApos height Config.commissionDelayBlocks "estouro de altura na comissão"
    modify fun s => { s with pendingCommission := s.pendingCommission.insert account (pct, em) }
  | .tokenTransfer token para amount =>
    TokenTx.efeitoMetaTransfer token account para amount height
  | .nftTransfer colecao tokenId para =>
    NftTx.efeitoMultisigTransfer cr colecao tokenId account para
  | .vote votos => aplicarVoto cr account (some votos)
  | .claimVoterReward validador => liquidarRecompensa account validador
  | .permissionChange perm => modify (aplicarPermissionChange account perm)
  | .govPropose param value votingBlocks =>
    gravarPropostaGov account param value votingBlocks height opId 0
  | .govVote proposalId => aplicarVotoGov account proposalId height

/-! ## Proposing and approving -/

/-- The permission that an operation is proposed under. -/
def permissaoPedida (perm : Permission) (opType : String) (d : JsonValue) : R ℕ :=
  if exigeOwner opType then
    if perm.eV2 then .ok ownerPermissionId
    else erro "GOV/comissão multisig exige permissões v2 com owner"
  else match d.campo "permissionId" with
    | none => .ok 0
    | some .null => .ok 0
    | outro => exigir (comoU64 outro) "permissionId inválido"

def foraDoEscopo (operations : Option (List String)) (opType : String) : Bool :=
  match operations with
  | some escopo => !escopo.contains opType
  | none => false

/-- The validated operation, when the weight already suffices. -/
def validarSe (quorum : Bool) (s : State) (account : String) (op : JsonValue) (height : ℕ) :
    R (Option OpResolvida) :=
  if quorum then (validarOp cr s account op height).map some else .ok none

def opDe (d : JsonValue) : R (List (String × JsonValue)) :=
  match d.campo "op" with
  | some (.map m) => .ok m
  | _ => erro "operação inválida"

/-- Everything a proposal is checked for before the fee is debited. -/
structure Proposta where
  account : String
  op : List (String × JsonValue)
  peso : ℕ
  permissionId : ℕ
  resolvida : Option OpResolvida
  deadline : ℕ
  id : String

def conferirProposta (s : State) (tx : Tx) (ctx : Ctx) : R Proposta := do
  let d ← dados tx
  let account := (texto (d.campo "account")).getD ""
  recusar (cr.isValidAddress account = false) "conta multisig inválida"
  let perm ← exigir (s.permissions.get? account) "conta não é multisig"
  let op ← opDe d
  let opType ← exigir (texto ((JsonValue.map op).campo "type")) "operação inválida"
  let permissionId ← permissaoPedida perm opType d
  let (nivel, operations) ← exigir (perm.nivelDeGasto permissionId)
    (if permissionId = ownerPermissionId then "owner inexistente nesta conta"
      else s!"permissão active {permissionId} inexistente")
  let peso ← exigir (nivel.keys.get? tx.de)
    (if permissionId = ownerPermissionId then
        "remetente não é chave do owner (witness/active não autoriza gov)"
      else "remetente não é uma chave autorizada da conta")
  recusar (opType = "PERMISSION_CHANGE" ∧ perm.eV2)
    "conta v2: altere permissões via PERMISSION_PROPOSE/APPROVE"
  recusar (foraDoEscopo operations opType)
    s!"operação fora do escopo desta permissão: {opType}"
  let resolvida ← validarSe cr (nivel.threshold ≤ peso) s account (.map op) ctx.height
  let deadline ← alturaApos ctx.height Config.multisigOpTtlBlocks
    "estouro de altura no TTL da operação"
  let id ← idDaTx tx
  return { account := account, op := op, peso := peso, permissionId := permissionId,
           resolvida := resolvida, deadline := deadline, id := id }

def multisigPropose (tx : Tx) (ctx : Ctx) : Op Unit := do
  let s ← get
  let p ← conferirProposta cr s tx ctx
  cobrarTaxa tx ctx
  match p.resolvida with
  | some op => aplicarOp cr p.account op ctx.height p.id
  | none =>
    modify fun s => { s with
      pendingOps := s.pendingOps.insert p.id
        { account := p.account, op := p.op, approvals := (∅ : OrdMap String ℕ).insert tx.de p.peso,
          weight := p.peso, permissionId := p.permissionId, createdAt := tx.timestamp,
          deadline := p.deadline } }

/-- Everything an approval is checked for before the fee is debited. -/
structure Aprovacao where
  opId : String
  pending : PendingOp
  peso : ℕ
  novoPeso : ℕ
  resolvida : Option OpResolvida

def conferirAprovacao (s : State) (tx : Tx) (ctx : Ctx) : R Aprovacao := do
  let d ← dados tx
  let opId := (texto (d.campo "opId")).getD ""
  let pending ← exigir (s.pendingOps.get? opId) "operação pendente inexistente"
  let tipoOp := (texto ((JsonValue.map pending.op).campo "type")).getD ""
  let perm ← exigir (s.permissions.get? pending.account) "conta não é mais multisig"
  let (nivel, operations) ← exigir (perm.nivelDeGasto pending.permissionId)
    "permissão active da operação não existe mais"
  let peso ← exigir (nivel.keys.get? tx.de) "remetente não é uma chave autorizada da conta"
  recusar (pending.approvals.contains tx.de) "chave já aprovou esta operação"
  recusar (u64Limit ≤ pending.weight + peso) "estouro no peso das aprovações"
  let novoPeso := pending.weight + peso
  recusar (nivel.threshold ≤ novoPeso ∧ foraDoEscopo operations tipoOp)
    s!"operação fora do escopo desta permissão: {tipoOp}"
  let resolvida ← validarSe cr (nivel.threshold ≤ novoPeso) s pending.account
    (.map pending.op) ctx.height
  return { opId := opId, pending := pending, peso := peso, novoPeso := novoPeso,
           resolvida := resolvida }

def multisigApprove (tx : Tx) (ctx : Ctx) : Op Unit := do
  let s ← get
  let a ← conferirAprovacao cr s tx ctx
  cobrarTaxa tx ctx
  match a.resolvida with
  | some op => do
    modify fun s => { s with pendingOps := s.pendingOps.erase a.opId }
    aplicarOp cr a.pending.account op ctx.height a.opId
  | none =>
    modify fun s => { s with
      pendingOps := s.pendingOps.insert a.opId
        { a.pending with
          approvals := a.pending.approvals.insert tx.de a.peso
          weight := a.novoPeso } }

end

/-! ## Sponsored transactions -/

def textoObrigatorio (m : OrdMap String JsonValue) (chave : String) : R String :=
  exigir (texto (m.get? chave)) "inner inválida"

def inteiroObrigatorio (m : OrdMap String JsonValue) (chave : String) : R ℤ :=
  exigir ((m.get? chave).bind (·.inteiro?)) "inner inválida"

def txDeJson (v : Option JsonValue) : R Tx := do
  let m ← exigirMapa v "inner inválida"
  let protocol ← textoObrigatorio m "protocol"
  let scheme ← textoObrigatorio m "scheme"
  let txType ← textoObrigatorio m "type"
  let de ← textoObrigatorio m "from"
  let amount ← textoObrigatorio m "amount"
  let fee ← textoObrigatorio m "fee"
  let nonce ← inteiroObrigatorio m "nonce"
  let timestamp ← inteiroObrigatorio m "timestamp"
  return {
    protocol := protocol, scheme := scheme, txType := txType, de := de,
    para := texto (m.get? "to"), amount := amount, fee := fee, nonce := nonce,
    timestamp := timestamp, data := m.get? "data", publicKey := texto (m.get? "publicKey"),
    pqPublicKey := texto (m.get? "pqPublicKey"), signature := texto (m.get? "signature"),
    pqSignature := texto (m.get? "pqSignature"), id := texto (m.get? "id") }

def verificarInner (amb : Ambiente) (inner : Tx) : R Unit :=
  match amb.verifyTransaction inner with
  | .ok _ => .ok ()
  | .error e => erro s!"inner inválida: {e}"

/-- The next nonce of the sponsored user, as the inner transaction must carry it. -/
def nonceDaInner (conta : Account) (inner : Tx) : R ℕ := do
  recusar (u64Limit ≤ conta.nonce + 1) "estouro de nonce da inner"
  recusar (inner.nonce ≠ (conta.nonce + 1 : ℕ))
    s!"nonce da inner inválido (esperado {conta.nonce + 1})"
  return conta.nonce + 1

/-- What the inner transaction of a sponsored one is checked for, with its nonce. -/
def conferirInner (amb : Ambiente) (s : State) (tx : Tx) : R (Tx × ℕ) := do
  let d ← dados tx
  let inner ← txDeJson (d.campo "inner")
  recusar (inner.txType = "META_TX") "inner inválida"
  verificarInner amb inner
  recusar (s.permissions.contains inner.de)
    "conta multisig: opere via MULTISIG_PROPOSE/APPROVE, não por meta-tx"
  let recebido ← nonceDaInner (s.account inner.de) inner
  return (inner, recebido)

def metaToken (inner : Tx) (recebido : ℕ) (ctx : Ctx) : Op Unit := do
  let tokenId ← exigir (texto (inner.campo "token")) "token inexistente"
  let valor ← exigir (parseU128 inner.amount) "valor inválido"
  TokenTx.efeitoMetaTransfer tokenId inner.de (inner.para.getD "") valor ctx.height
  modify (·.comConta inner.de fun c => { c with nonce := recebido })

def metaTransfer (cr : Cripto) (inner : Tx) (recebido : ℕ) : Op Unit := do
  let s ← get
  let destino := inner.para.getD ""
  recusar (cr.isValidAddress destino = false) "destino inválido"
  let amount ← exigir (parseU128 inner.amount) "valor deve ser positivo"
  recusar (amount = 0) "valor deve ser positivo"
  recusar (s.balanceOf inner.de < amount) "saldo insuficiente"
  recusar (u128Limit ≤ s.balanceOf destino + amount) "estouro de saldo no destino"
  debitar inner.de amount
  creditar destino amount
  modify (·.comConta inner.de fun c => { c with nonce := recebido })

/-- Only transfers can be sponsored. -/
def metaTx (amb : Ambiente) (tx : Tx) (ctx : Ctx) : Op Unit := do
  let s ← get
  let (inner, recebido) ← conferirInner amb s tx
  if inner.txType = "TOKEN_TRANSFER" then metaToken inner recebido ctx
  else do
    recusar (inner.txType ≠ "TRANSFER") s!"tipo não patrocinável via meta-tx: {inner.txType}"
    metaTransfer amb.cripto inner recebido

/-! ## Oracles -/

def reputacaoInicial : ℕ := 50

def oracleRegistrado (address : String) (stake : Amount) (registeredAt : ℕ) : Oracle :=
  { address := address, stake := stake, registeredAt := registeredAt, tasksCompleted := 0,
    completed := 0, failed := 0, slashed := 0, reputation := some reputacaoInicial,
    bridgeTransfers := 0, endpoint := none }

def endpointDe (data : Option JsonValue) : R (Option String) :=
  match data with
  | none => erro "campo data inválido"
  | some .null => erro "campo data inválido"
  | some d => .ok (texto (d.campo "endpoint"))

def oracleRegister (tx : Tx) (ctx : Ctx) : Op Unit := do
  let s ← get
  let amount ← exigir (parseU128 tx.amount) "valor inválido"
  recusar (s.oracles.contains tx.de = false ∧ amount < Config.minOracleStake)
    s!"stake mínimo de oráculo é {Config.minOracleStake} e7"
  let total ← soma amount ctx.fee
  recusar (s.balanceOf tx.de < total) "saldo insuficiente"
  let stakeAtual := ((s.oracles.get? tx.de).map (·.stake)).getD 0
  recusar (u128Limit ≤ stakeAtual + amount) "estouro de stake"
  let registradoEm ← TokenTx.timestampDe tx
  let endpoint ← endpointDe tx.data
  debitar tx.de total
  let o := (s.oracles.get? tx.de).getD (oracleRegistrado tx.de 0 registradoEm)
  modify fun s => { s with
    oracles := s.oracles.insert tx.de
      { o with
        stake := stakeAtual + amount
        endpoint := endpoint.or o.endpoint } }

end GovTx
end Eav7
