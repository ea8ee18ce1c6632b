import Eav7.Permissao
import Eav7.Ambiente

/-!
# Governance, permissions and multisignature transactions

Proposals and their ballots, timelocked permission changes, operations executed
under several keys, and transactions sponsored by another account.
-/

namespace Eav7

open Base

namespace GovTx

/-! ## Parameters and validators -/

/-- The governable parameters with their bounds; the flag marks the big ones. -/
def especificacao (param : String) : Option (Bool × ℤ × ℤ) :=
  [("BLOCK_REWARD", true, 0, 1000 * (Config.unit : ℤ)),
    ("MIN_VALIDATOR_STAKE", true, 1, 10000000 * (Config.unit : ℤ)),
    ("MAX_VALIDATORS", false, 1, 101),
    ("FEE_EXEMPT_STAKE", true, 0, 1000000 * (Config.unit : ℤ)),
    ("MIN_ORACLE_STAKE", true, 0, 1000000 * (Config.unit : ℤ)),
    ("TREASURY_PCT", false, 0, 50),
    ("BRIDGE_BREAKER_BPS", false, 100, 10000)].lookup param

def coagirValorGov (spec : Bool × ℤ × ℤ) (raw : Option JsonValue) : R ValorGov := do
  let v ← exigir (comoI128 raw) "valor inválido (esperado inteiro)"
  recusar (v < spec.2.1 ∨ spec.2.2 < v)
    (if spec.1 then "valor fora dos limites permitidos" else "valor inválido/fora dos limites")
  return .inteiro (toString v)

def paramU128 (s : State) (nome : String) (padrao : ℕ) : R ℕ :=
  match s.params.get? nome with
  | none => .ok padrao
  | some v => exigir (parseU128 v) s!"parâmetro {nome} corrompido"

def paramUsize (s : State) (nome : String) (padrao : ℕ) : R ℕ :=
  match s.params.get? nome with
  | none => .ok padrao
  | some v => exigir (parseU64 v) s!"parâmetro {nome} corrompido"

def u128Max : ℕ := u128Limit - 1

/-- Higher weight first, then the address. -/
def antes (a b : Amount × String) : Prop := b.1 < a.1 ∨ (a.1 = b.1 ∧ a.2 ≤ b.2)

instance : DecidableRel antes := fun a b => by unfold antes; infer_instance

/-- The eligible accounts with stake plus votes, reading `ajuste` in place of
one account's stake. -/
def ranquearCandidatos (s : State) (ajuste : Option (String × Amount)) :
    R (List (Amount × String)) := do
  let minStake ← paramU128 s "MIN_VALIDATOR_STAKE" Config.minValidatorStake
  let elegiveis := s.accounts.entries.filterMap fun e =>
    let staked := match ajuste with
      | some (a, novo) => if a = e.1 then novo else e.2.staked
      | none => e.2.staked
    if e.2.eavmManaged ∨ staked < minStake then none
    else some (min (staked + s.candidateVotes.getD e.1 0) u128Max, e.1)
  return elegiveis.insertionSort antes

def validadores (s : State) (ajuste : Option (String × Amount)) : R (List String) := do
  let maximo ← paramUsize s "MAX_VALIDATORS" Config.maxValidators
  let elegiveis ← ranquearCandidatos s ajuste
  return (elegiveis.take maximo).map Prod.snd

/-- The execution height when the ballots of active validators reach two thirds
plus one. -/
def apurar (s : State) (votos : OrdMap String Bool) (height : ℕ) : R (Option ℕ) := do
  let ativos ← validadores s none
  let n := ativos.length
  if n = 0 then return none
  else
    let sim := (votos.keys.filter ativos.contains).length
    if sim < 2 * n / 3 + 1 then return none
    else
      let at_ ← alturaApos height Config.govTimelockBlocks
        "estouro de altura no timelock de governança"
      return some at_

/-- Debits the fee, checking the balance first. -/
def cobrarTaxa (tx : Tx) (ctx : Ctx) : Op Unit := do
  let s ← get
  recusar (s.balanceOf tx.de < ctx.fee) "saldo insuficiente para a taxa"
  debitar tx.de ctx.fee

def idDaTx (tx : Tx) : R String := exigir tx.id "transação sem id"

/-! ## The value of a proposal -/

def maxCommitteeMembers : ℕ := 200

def membrosTexto : List JsonValue → R (List String)
  | [] => .ok []
  | .str s :: vs => do return minusculas s :: (← membrosTexto vs)
  | _ :: _ => erro "endereço de membro inválido (eth 0x+40 hex)"

def membrosMinusculos (v : Option JsonValue) (maximo : ℕ) : R (List String) := do
  let lista ← match v with
    | some (.list l) => (.ok l : R (List JsonValue))
    | _ => erro "nº de membros inválido"
  recusar (lista.length = 0 ∨ maximo < lista.length) "nº de membros inválido"
  let out ← membrosTexto lista
  recusar (¬ out.Nodup) "membros duplicados"
  return out

def quorumValido (v : Option JsonValue) (n : ℕ) : R ℤ := do
  let q ← exigir (comoI128 v) "quorum inválido"
  recusar (q ≤ 0 ∨ (n : ℤ) < q) "quorum inválido"
  return q

def identificadorAscii (extra : List Char) (s : String) : Bool :=
  s.toList.all fun c => asciiAlfanumerico c || extra.contains c

def validarComite (v : Option JsonValue) : R ValorGov := do
  let m ← exigirMapa v "valor de comitê inválido"
  let chain := (texto (m.get? "sourceChain")).getD ""
  recusar (¬ (2 ≤ chain.toList.length ∧ chain.toList.length ≤ 32 ∧
    identificadorAscii ['_', '-'] chain)) "sourceChain inválida"
  let membros ← membrosMinusculos (m.get? "members") maxCommitteeMembers
  let quorum ← quorumValido (m.get? "quorum") membros.length
  return .objeto [("members", .list (membros.map .str)), ("quorum", .int quorum),
    ("sourceChain", .str (maiusculas chain))]

section

variable (cr : Cripto)

def validarGastoTesouraria (v : Option JsonValue) : R ValorGov := do
  let m ← exigirMapa v "gasto de tesouraria inválido"
  let dest := (texto (m.get? "recipient")).getD ""
  recusar (cr.isValidAddress dest = false) "destinatário inválido"
  let amount ← exigir (comoI128 (m.get? "amount")) "valor inválido"
  recusar (amount ≤ 0) "valor deve ser positivo"
  return .objeto [("amount", .str (toString amount)), ("recipient", .str dest)]

def coagirOuVazio (v : Option JsonValue) : String :=
  match v with
  | none => ""
  | some .null => ""
  | some outro => jsStringDe outro

def kindDe (v : Option JsonValue) : String :=
  maiusculas <| match v with
    | none => "TEE"
    | some .null => "TEE"
    | some outro => jsStringDe outro

def validarAtestador (v : Option JsonValue) : R ValorGov := do
  let m ← exigirMapa v "valor de atestador inválido"
  let id := coagirOuVazio (m.get? "attesterId")
  recusar (¬ (2 ≤ jsLen id ∧ jsLen id ≤ 64 ∧ identificadorAscii ['_', '.', '-'] id))
    "attesterId inválido"
  let kind := kindDe (m.get? "kind")
  recusar (kind ≠ "TEE" ∧ kind ≠ "ZK") "kind deve ser TEE ou ZK"
  let membros ← membrosMinusculos (m.get? "members") Config.maxAiAttesterMembers
  recusar (membros.any fun e => (parseAddrStrict e).isNone)
    "endereço de membro inválido (eth 0x+40 hex)"
  let quorum ← quorumValido (m.get? "quorum") membros.length
  let measurement := coagirOuVazio (m.get? "measurement")
  recusar (measurement = "" ∨ 256 < jsLen measurement) "measurement inválida (1..256 chars)"
  return .objeto [("attesterId", .str id), ("kind", .str kind),
    ("measurement", .str measurement), ("members", .list (membros.map .str)),
    ("quorum", .int quorum)]

/-- The validated value of a proposal on a parameter. -/
def resolverValorGov (param : String) (raw : Option JsonValue) (height : ℕ) : R ValorGov :=
  if param = "BRIDGE_COMMITTEE" then validarComite raw
  else if param = "TREASURY_SPEND" then validarGastoTesouraria cr raw
  else if param = "AI_ATTESTER" then do
    recusar (height < Config.aiTeeHeight) "atestação de IA (Fase 6) ainda não ativa"
    validarAtestador raw
  else do
    let spec ← exigir (especificacao param) s!"parâmetro não governável: {param}"
    coagirValorGov spec raw

def votingBlocksDe (v : Option JsonValue) : R ℕ := do
  let vb ← match v with
    | none => (.ok Config.govMaxVotingBlocks : R ℕ)
    | some .null => .ok Config.govMaxVotingBlocks
    | v => exigir (comoU64 v) "votingBlocks inválido"
  recusar (vb = 0 ∨ Config.govMaxVotingBlocks < vb) "votingBlocks inválido"
  return vb

def cedula (eleitor : String) : OrdMap String Bool := (∅ : OrdMap String Bool).insert eleitor true

def proposta (id param : String) (value : ValorGov) (proposer : String) (deadline : ℕ)
    (executeAt : Option ℕ) (createdAt : ℤ) : Proposal :=
  { id := id, param := param, value := value, proposer := proposer, votes := cedula proposer,
    deadline := deadline, executeAt := executeAt, createdAt := createdAt,
    state := if executeAt.isSome then "QUEUED" else "VOTING" }

def govPropose (tx : Tx) (ctx : Ctx) : Op Unit := do
  let s ← get
  let ativos ← validadores s none
  recusar (tx.de ∉ ativos) "só validador ativo pode propor"
  let d ← dados tx
  let param := (texto (d.campo "param")).getD ""
  let value ← resolverValorGov cr param (d.campo "value") ctx.height
  let vb ← votingBlocksDe (d.campo "votingBlocks")
  let deadline ← alturaApos ctx.height vb "estouro de altura na janela de votação"
  let id ← idDaTx tx
  let executeAt ← apurar s (cedula tx.de) ctx.height
  cobrarTaxa tx ctx
  modify fun s => { s with
    proposals := s.proposals.insert id
      (proposta id param value tx.de deadline executeAt tx.timestamp) }

/-- The proposal with its new ballots, queued once they suffice. -/
def comVotos (p : Proposal) (votos : OrdMap String Bool) (executeAt : Option ℕ) : Proposal :=
  match executeAt with
  | some at_ => { p with votes := votos, state := "QUEUED", executeAt := some at_ }
  | none => { p with votes := votos }

def propostaAberta (s : State) (pid : String) (height : ℕ) : R Proposal := do
  let p ← exigir ((s.proposals.get? pid).filter fun p => p.state == "VOTING")
    "proposta inexistente ou encerrada"
  recusar (p.deadline < height) "proposta expirada"
  return p

def govVote (tx : Tx) (ctx : Ctx) : Op Unit := do
  let s ← get
  let d ← dados tx
  let pid := (texto (d.campo "proposalId")).getD ""
  let p ← propostaAberta s pid ctx.height
  let ativos ← validadores s none
  recusar (tx.de ∉ ativos) "só validador ativo pode votar"
  recusar (p.votes.contains tx.de) "validador já votou nesta proposta"
  let votos := p.votes.insert tx.de true
  let executeAt ← apurar s votos ctx.height
  cobrarTaxa tx ctx
  modify fun s => { s with proposals := s.proposals.insert pid (comVotos p votos executeAt) }

/-! ## Permission changes -/

/-- A permission is version 2 when it carries an owner. -/
def pedeV2 (raw : Option JsonValue) : Bool :=
  match raw.bind (·.campo "owner") with
  | none => false
  | some .null => false
  | some _ => true

def permissaoDe (raw : Option JsonValue) : R Permission :=
  if pedeV2 raw then normalizarPermissaoV2 cr raw else (normalizarNivel cr raw).map .v1

def permissionUpdate (tx : Tx) (ctx : Ctx) : Op Unit := do
  let s ← get
  recusar (s.permissions.contains tx.de)
    "conta multisig: opere via MULTISIG_PROPOSE/APPROVE, não por assinatura única"
  let d ← dados tx
  let raw := d.campo "permission"
  let perm ← permissaoDe cr raw
  cobrarTaxa tx ctx
  modify fun s => { s with permissions := s.permissions.insert tx.de perm }

def contaDaPermissao (d : JsonValue) : R String := do
  let conta := (texto (d.campo "account")).getD ""
  recusar (cr.isValidAddress conta = false) "conta inválida"
  return conta

def delayDaPermissao (perm : Permission) : R ℕ :=
  match perm with
  | .v2 _ _ _ _ delay => .ok delay
  | .v1 _ => erro "conta não usa permissões v2"

/-- The height at which an authorised change executes. -/
def inicioDoTimelock (autorizada : Bool) (height delay : ℕ) : R (Option ℕ) :=
  if autorizada then do
    let at_ ← alturaApos height delay "estouro de altura no timelock de permissão"
    return some at_
  else .ok none

def permissionPropose (tx : Tx) (ctx : Ctx) : Op Unit := do
  let s ← get
  let d ← dados tx
  let conta ← contaDaPermissao cr d
  let perm ← exigir (s.permissions.get? conta) "conta não usa permissões v2"
  recusar (perm.eV2 = false) "conta não usa permissões v2"
  recusar (perm.eChave tx.de = false) "remetente não participa desta permissão"
  let mudanca ← normalizarMudanca cr (d.campo "change")
  let _ ← simularMudanca perm mudanca
  let delay ← delayDaPermissao perm
  let executeAt ← inicioDoTimelock (autorizaMudanca perm mudanca [tx.de]) ctx.height delay
  cobrarTaxa tx ctx
  modify fun s => { s with
    pendingPerm := s.pendingPerm.insert conta
      { change := mudanca, approvals := cedula tx.de, vetoes := ∅, executeAt := executeAt,
        proposedAt := ctx.height } }

def permissionApprove (tx : Tx) (ctx : Ctx) : Op Unit := do
  let s ← get
  let d ← dados tx
  let conta ← contaDaPermissao cr d
  let pend ← exigir (s.pendingPerm.get? conta) "não há mudança pendente para esta conta"
  let perm ← exigir (s.permissions.get? conta) "remetente não participa desta permissão"
  recusar (perm.eChave tx.de = false) "remetente não participa desta permissão"
  recusar (pend.approvals.contains tx.de) "já aprovado por esta chave"
  let approvals := pend.approvals.insert tx.de true
  let delay ← delayDaPermissao perm
  let novo ← inicioDoTimelock
    (pend.executeAt.isNone && autorizaMudanca perm pend.change approvals.keys) ctx.height delay
  cobrarTaxa tx ctx
  modify fun s => { s with
    pendingPerm := s.pendingPerm.insert conta
      { pend with approvals := approvals, executeAt := novo.or pend.executeAt } }

def permissionVeto (tx : Tx) (ctx : Ctx) : Op Unit := do
  let s ← get
  let d ← dados tx
  let conta ← contaDaPermissao cr d
  let pend ← exigir (s.pendingPerm.get? conta) "não há mudança pendente para esta conta"
  let owner ← exigir (((s.permissions.get? conta).bind (·.owner?)).filter fun o =>
    o.keys.contains tx.de) "veto exige chave do owner"
  recusar (pend.vetoes.contains tx.de) "já vetado por esta chave"
  let vetoes := pend.vetoes.insert tx.de true
  cobrarTaxa tx ctx
  modify fun s => { s with
    pendingPerm :=
      if owner.atingeLimiar vetoes.keys then s.pendingPerm.erase conta
      else s.pendingPerm.insert conta { pend with vetoes := vetoes } }

end

end GovTx
end Eav7
