import Eav7.AiTx

/-!
# The state root

Every section of the state as a list of leaves, each the hash of its domain, its
key and the canonical bytes of its value. The root is the Merkle root of the
sorted leaves.
-/

namespace Eav7

open Base

/-- A canonical value. Integers are carried as decimal text. -/
inductive Value where
  | null
  | bool (b : Bool)
  | int (decimal : String)
  | str (s : String)
  | list (itens : List Value)
  | map (pares : List (String × Value))

namespace Value

def uint (n : ℕ) : Value := .int (toString n)

def inteiro (n : ℤ) : Value := .int (toString n)

def strOuNulo (v : Option String) : Value := v.elim .null .str

/-- A map given field by field, stored in key order. -/
def campos (pares : List (String × Value)) : Value := .map (OrdMap.ofList pares).entries

def mapaCom {ν : Type} (f : ν → Value) (m : OrdMap String ν) : Value :=
  .map (m.entries.map fun e => (e.1, f e.2))

def textos (l : List String) : Value := .list (l.map .str)

/-- A field that is written only when present. -/
def seHouver (chave : String) (v : Option Value) : List (String × Value) :=
  v.elim [] fun v => [(chave, v)]

mutual
def deJson : JsonValue → Value
  | .null => .null
  | .bool b => .bool b
  | .int n => .inteiro n
  | .str s => .str s
  | .list l => .list (deJsonItens l)
  | .map m => campos (deJsonPares m).reverse

def deJsonItens : List JsonValue → List Value
  | [] => []
  | v :: vs => deJson v :: deJsonItens vs

def deJsonPares : List (String × JsonValue) → List (String × Value)
  | [] => []
  | e :: es => (e.1, deJson e.2) :: deJsonPares es
end

/-- A length in four big-endian bytes. -/
def escreveLen (n : ℕ) : Falha Bytes :=
  if n < 2 ^ 32 then
    .ok [UInt8.ofNat (n / 2 ^ 24), UInt8.ofNat (n / 2 ^ 16), UInt8.ofNat (n / 2 ^ 8), UInt8.ofNat n]
  else falhar s!"comprimento fora da faixa: {n}"

def escreveTexto (tag : UInt8) (s : String) : Falha Bytes := do
  let bs := bytesDe s
  let n ← escreveLen bs.length
  return tag :: n ++ bs

mutual
def encode : Value → Falha Bytes
  | .null => .ok [0x00]
  | .bool false => .ok [0x01]
  | .bool true => .ok [0x02]
  | .int d => escreveTexto 0x03 d
  | .str s => escreveTexto 0x04 s
  | .list itens => do
    let n ← escreveLen itens.length
    return 0x05 :: n ++ (← encodeItens itens)
  | .map pares => do
    let n ← escreveLen pares.length
    return 0x06 :: n ++ (← encodePares pares)

def encodeItens : List Value → Falha Bytes
  | [] => .ok []
  | v :: vs => do return (← encode v) ++ (← encodeItens vs)

def encodePares : List (String × Value) → Falha Bytes
  | [] => .ok []
  | e :: es => do return (← escreveTexto 0x04 e.1) ++ (← encode e.2) ++ (← encodePares es)
end

end Value

/-! ## The value of each record -/

section

open Value

def Account.toValue (acc : Account) : Value :=
  campos <|
    [("balance", uint acc.balance), ("bandwidthBlock", uint acc.bandwidthBlock),
      ("bandwidthUsed", uint acc.bandwidthUsed), ("delegatedIn", uint acc.delegatedIn),
      ("delegatedOut", uint acc.delegatedOut), ("energyBlock", uint acc.energyBlock),
      ("energyUsed", uint acc.energyUsed), ("nonce", uint acc.nonce),
      ("staked", uint acc.staked)] ++
    (if acc.eavmManaged then [("eavmManaged", .bool true)] else []) ++
    (if acc.gbUsed ≠ 0 ∨ acc.gbBlock ≠ 0 then
      [("gbBlock", uint acc.gbBlock), ("gbUsed", uint acc.gbUsed)] else [])

def Token.toValue (t : Token) : Value :=
  campos
    [("standard", .str t.standard), ("id", .str t.id), ("name", .str t.name),
      ("symbol", .str t.symbol), ("decimals", uint t.decimals),
      ("totalSupply", uint t.totalSupply), ("creator", .str t.creator), ("owner", .str t.owner),
      ("mintable", .bool t.mintable), ("paused", .bool t.paused), ("createdAt", uint t.createdAt),
      ("balances", mapaCom uint t.balances), ("allowances", mapaCom (mapaCom uint) t.allowances),
      ("blacklist", mapaCom .bool t.blacklist),
      ("frozen", mapaCom (fun f =>
        campos [("amount", .str (toString f.1)), ("unlockAt", uint f.2)]) t.frozen)]

def NftToken.toValue (t : NftToken) : Value := campos [("owner", .str t.owner), ("uri", .str t.uri)]

def Collection.toValue (c : Collection) : Value :=
  campos
    [("approvals", mapaCom .str c.approvals), ("createdAt", uint c.createdAt), ("id", .str c.id),
      ("name", .str c.name), ("nextId", uint c.nextId), ("owner", .str c.owner),
      ("standard", .str c.standard), ("symbol", .str c.symbol),
      ("tokens", mapaCom NftToken.toValue c.tokens)]

def NameRecord.toValue (r : NameRecord) : Value :=
  campos [("owner", .str r.owner), ("registeredAt", uint r.registeredAt), ("target", .str r.target)]

def Contract.toValue (c : Contract) : Value :=
  campos
    [("balance", uint c.balance), ("code", .str c.code), ("nonce", uint c.nonce),
      ("storage", mapaCom .str c.storage)]

def Vesting.toValue (v : Vesting) : Value :=
  campos
    [("beneficiary", .str v.beneficiary), ("total", .str (toString v.total)),
      ("claimed", .str (toString v.claimed)), ("start", uint v.start), ("cliff", uint v.cliff),
      ("duration", uint v.duration)]

def Nivel.camposDe (n : Nivel) : List (String × Value) :=
  [("keys", mapaCom uint n.keys), ("threshold", uint n.threshold)]

def Nivel.toValue (n : Nivel) : Value := campos n.camposDe

def Active.camposDe (a : Active) : List (String × Value) :=
  a.nivel.camposDe ++ seHouver "name" (a.name.map .str) ++
    seHouver "operations" (a.operations.map textos)

def Active.toValue (a : Active) (id : ℕ) : Value := campos (("id", uint id) :: a.camposDe)

def Permission.toValue : Permission → Value
  | .v1 n => n.toValue
  | .v2 owner actives witness recovery delayBlocks =>
    campos <|
      [("actives", .list (actives.mapIdx fun i a => a.toValue i)),
        ("delayBlocks", uint delayBlocks), ("owner", owner.toValue)] ++
      seHouver "recovery" (recovery.map .str) ++ seHouver "witness" (witness.map .str)

def Mudanca.toValue : Mudanca → Value
  | .owner n => campos [("level", .str "owner"), ("value", n.toValue)]
  | .active id valor =>
    campos [("id", uint id), ("level", .str "active"),
      ("value", valor.elim .null fun a => a.toValue id)]
  | .witness chave => campos [("level", .str "witness"), ("value", strOuNulo chave)]
  | .recovery chave => campos [("level", .str "recovery"), ("value", strOuNulo chave)]
  | .delay d => campos [("level", .str "delay"), ("value", uint d)]

def PendingOp.toValue (p : PendingOp) : Value :=
  campos
    [("account", .str p.account), ("approvals", mapaCom uint p.approvals),
      ("createdAt", inteiro p.createdAt), ("deadline", uint p.deadline),
      ("op", deJson (.map p.op)), ("permissionId", uint p.permissionId), ("weight", uint p.weight)]

def PendingPerm.toValue (p : PendingPerm) : Value :=
  campos
    [("approvals", mapaCom .bool p.approvals), ("change", p.change.toValue),
      ("executeAt", p.executeAt.elim .null uint), ("proposedAt", uint p.proposedAt),
      ("vetoes", mapaCom .bool p.vetoes)]

def ValorGov.toValue : ValorGov → Value
  | .inteiro d => .int d
  | .objeto m => deJson (.map m)

def Proposal.toValue (p : Proposal) : Value :=
  campos <|
    [("createdAt", inteiro p.createdAt), ("deadline", uint p.deadline), ("id", .str p.id),
      ("param", .str p.param), ("proposer", .str p.proposer), ("status", .str p.state),
      ("value", p.value.toValue), ("votes", mapaCom .bool p.votes)] ++
    seHouver "executeAt" (p.executeAt.map uint)

def Oracle.toValue (o : Oracle) : Value :=
  campos <|
    [("address", .str o.address), ("bridgeTransfers", uint o.bridgeTransfers),
      ("completed", uint o.completed), ("endpoint", strOuNulo o.endpoint),
      ("failed", uint o.failed), ("registeredAt", uint o.registeredAt),
      ("slashed", uint o.slashed), ("stake", uint o.stake),
      ("tasksCompleted", uint o.tasksCompleted)] ++
    seHouver "reputation" (o.reputation.map uint)

def Entrega.camposDe : Entrega → List (String × Value)
  | .pendente => [("oracle", .null)]
  | .entregue oracle resultUri => [("oracle", .str oracle), ("resultUri", strOuNulo resultUri)]

def Fase.texto : Fase → String
  | .commit => "COMMIT"
  | .done => "DONE"

def Quorum.revealsValue (q : Quorum) : Value :=
  .map (q.reveals.entries.map fun e =>
    (e.1, campos (("resultHash", .str e.2) ::
      seHouver "output" ((q.revealOutputs.get? e.1).map .str))))

def TaskKind.camposDe : TaskKind → List (String × Value)
  | .quorum q =>
    [("mode", .str "QUORUM"), ("quorum", uint q.quorum), ("phase", .str q.phase.texto),
      ("commitDeadline", uint q.commitDeadline), ("revealDeadline", uint q.revealDeadline),
      ("commits", mapaCom .str q.commits), ("reveals", q.revealsValue),
      ("winners", q.winners.elim .null textos)]
  | .aberta a =>
    [("mode", .str "OPEN"), ("budget", uint a.budget), ("bidDeadline", uint a.bidDeadline),
      ("bids", mapaCom (fun b => campos [("at", uint b.2), ("price", uint b.1)]) a.bids),
      ("assignedOracle", strOuNulo a.assignedOracle)] ++ a.entrega.camposDe
  | .designada d =>
    [("assignedOracle", .str d.assignedOracle), ("private", .bool d.priv)] ++ d.entrega.camposDe

def Challenge.camposDe : Challenge → List (String × Value)
  | .nenhum => []
  | .janela deadline => [("challengeDeadline", uint deadline)]
  | .disputa deadline challenger bond verdictDeadline votes =>
    [("bond", uint bond), ("challengeDeadline", uint deadline), ("challenger", .str challenger),
      ("verdictDeadline", uint verdictDeadline), ("votes", mapaCom .bool votes)]

def Task.toValue (t : Task) : Value :=
  campos <|
    [("completedAt", t.completedAt.elim .null inteiro), ("createdAt", uint t.createdAt),
      ("expiresAt", uint t.deadline), ("id", .str t.id), ("model", strOuNulo t.model),
      ("output", strOuNulo t.output), ("params", t.params.elim .null deJson),
      ("prompt", strOuNulo t.prompt), ("requester", .str t.requester),
      ("reward", uint t.reward), ("resultHash", strOuNulo t.resultHash),
      ("status", .str t.state)] ++
    t.kind.camposDe ++ t.challenge.camposDe ++ seHouver "verified" (t.verified.map .str)

def Attester.toValue (a : Attester) : Value :=
  campos
    [("kind", .str a.kind), ("measurement", .str a.measurement), ("members", textos a.members),
      ("quorum", uint a.quorum), ("registeredAt", uint a.registeredAt)]

def Saida.toValue (s : Saida) : Value :=
  campos <|
    [("amount", uint s.amount), ("createdAt", inteiro s.createdAt), ("direction", .str "OUT"),
      ("from", .str s.de), ("id", .str s.id), ("targetAddress", .str s.targetAddress),
      ("targetChain", .str s.targetChain), ("token", strOuNulo s.token)] ++
    match s.liquidacao with
    | .travada => [("status", .str "LOCKED")]
    | .paga settledBy externalTxHash settledAt =>
      [("status", .str "PAID"), ("externalTxHash", strOuNulo externalTxHash),
        ("settledAt", inteiro settledAt), ("settledBy", .str settledBy)]

def Entrada.toValue (e : Entrada) : Value :=
  campos <|
    [("amount", uint e.amount), ("attestations", uint e.attestations),
      ("createdAt", inteiro e.createdAt), ("direction", .str "IN"), ("id", .str e.id),
      ("relayer", .str e.relayer), ("sourceChain", .str e.sourceChain),
      ("sourceTxHash", .str e.sourceTxHash), ("to", .str e.para),
      ("token", strOuNulo e.token)] ++
    match e.estagio with
    | .atestada quorum => [("status", .str "ATTESTED"), ("quorum", uint quorum)]
    | .liberada => [("status", .str "RELEASED")]

def Transfer.toValue : Transfer → Value
  | .saida s => s.toValue
  | .entrada e => e.toValue

def Attestation.toValue (a : Attestation) : Value :=
  campos
    [("amount", .str a.amount), ("createdAt", inteiro a.createdAt), ("relayers", textos a.relayers),
      ("to", .str a.para), ("token", strOuNulo a.token)]

def Release.toValue (r : Release) : Value :=
  campos [("amount", .str (toString r.amount)), ("asset", .str r.asset), ("height", uint r.height)]

def Bridge.toValue (b : Bridge) : Value :=
  campos <|
    [("attestations", mapaCom Attestation.toValue b.attestations),
      ("lockedNative", uint b.lockedNative), ("lockedTokens", mapaCom uint b.lockedTokens),
      ("processedInbound", mapaCom .str b.processedInbound),
      ("transfers", mapaCom Transfer.toValue b.transfers)] ++
    if b.releaseLog = [] then []
    else [("releaseLog", .list (b.releaseLog.map Release.toValue))]

def Committee.toValue (c : Committee) : Value :=
  campos [("epoch", uint c.epoch), ("members", textos c.members), ("quorum", uint c.quorum)]

/-! ## The leaves -/

abbrev Registro := String × String × Value

/-- One leaf for each entry of a section. -/
def secao {ν : Type} (dominio : String) (f : ν → Value) (m : OrdMap String ν) : List Registro :=
  m.entries.map fun e => (dominio, e.1, f e.2)

def unbondingValue (fila : List (String × Amount × ℕ)) : Value :=
  .list (fila.map fun u =>
    campos [("address", .str u.1), ("amount", .str (toString u.2.1)), ("matureAt", uint u.2.2)])

/-- Every entry of the state with its domain and key. -/
def State.enumerar (s : State) : List Registro :=
  [("meta", "totalMinted", uint s.totalMinted), ("meta", "totalBurned", uint s.totalBurned)] ++
    secao "acct" Account.toValue s.accounts ++ secao "tok" Token.toValue s.tokens ++
    secao "nft" Collection.toValue s.nfts ++ secao "name" NameRecord.toValue s.names ++
    secao "ctr" Contract.toValue s.contracts ++
    secao "vote" (mapaCom fun v : Amount => .str (toString v)) s.votes ++
    secao "cvotes" uint s.candidateVotes ++ secao "comm" uint s.commission ++
    secao "pcomm" (fun c : ℕ × ℕ => campos [("pct", uint c.1), ("activeAt", uint c.2)])
      s.pendingCommission ++
    secao "deleg" (mapaCom uint) s.delegations ++ secao "racc" uint s.rewardAccPerVote ++
    secao "rdebt" (mapaCom uint) s.voterRewardDebt ++
    [("gov", "params", mapaCom .int s.params), ("treasury", "balance", uint s.treasury),
      ("slash", "set", mapaCom .bool s.slashed),
      ("unbond", "queue", unbondingValue s.unbonding)] ++
    secao "perm" Permission.toValue s.permissions ++ secao "pop" PendingOp.toValue s.pendingOps ++
    secao "pperm" PendingPerm.toValue s.pendingPerm ++ secao "gov" Proposal.toValue s.proposals ++
    secao "orc" Oracle.toValue s.oracles ++ secao "ai" Task.toValue s.aiTasks ++
    secao "attest" Attester.toValue s.aiAttesters ++ secao "vest" Vesting.toValue s.vesting ++
    [("brg", "state", s.bridge.toValue),
      ("brg", "relayers", mapaCom (fun _ => .bool true) s.bridgeRelayers),
      ("brg", "committees", mapaCom Committee.toValue s.bridgeSourceCommittees)]

end

namespace Cripto

variable (cr : Cripto)

def leaf (e : Registro) : Falha String := do
  let canonico ← e.2.2.encode
  return cr.eavHash (bytesDe e.1 ++ 0x1f :: bytesDe e.2.1 ++ 0x1f :: canonico)

def folhas : List Registro → Falha (List String)
  | [] => .ok []
  | e :: es => do return (← cr.leaf e) :: (← folhas es)

def stateLeaves (s : State) : Falha (List String) := cr.folhas s.enumerar

def computeStateRoot (folhas : List String) : String :=
  cr.merkleRoot (folhas.insertionSort (· ≤ ·))

/-- The root that the header of a block commits to. -/
def stateRootOf (s : State) : Falha String := (cr.stateLeaves s).map cr.computeStateRoot

end Cripto
end Eav7
