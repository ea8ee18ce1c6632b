import Eav7.BridgeTx
import Eav7.Multisig

/-!
# The AI layer

Tasks with an escrowed reward: assigned to one oracle, put out to bids, or
answered by a quorum under commit and reveal. A delivered result waits for a
challenge, which a jury of oracles decides.
-/

namespace Eav7

open Base

namespace Oracle

variable (o : Oracle)

def rep : ℕ := o.reputation.getD GovTx.reputacaoInicial

def sobe (passo : ℕ) : Oracle := { o with reputation := some (min (o.rep + passo) 100) }

def desce (passo : ℕ) : Oracle := { o with reputation := some (o.rep - passo) }

def creditarAcerto : Oracle :=
  { o.sobe 4 with
    tasksCompleted := min (o.tasksCompleted + 1) u64Max
    completed := min (o.completed + 1) u64Max }

def falhou (passo : ℕ) : Oracle := { o.desce passo with failed := min (o.failed + 1) u64Max }

end Oracle

namespace Task

variable (t : Task)

def assignedOracle : Option String :=
  match t.kind with
  | .designada d => some d.assignedOracle
  | .aberta a => a.assignedOracle
  | .quorum _ => none

def entrega : Option Entrega :=
  match t.kind with
  | .designada d => some d.entrega
  | .aberta a => some a.entrega
  | .quorum _ => none

/-- The oracle that delivered. -/
def oracle : Option String :=
  match t.entrega with
  | some (.entregue oracle _) => some oracle
  | _ => none

/-- The task with a delivery; a quorum task takes none. -/
def comEntrega (e : Entrega) : Option Task :=
  match t.kind with
  | .designada d => some { t with kind := .designada { d with entrega := e } }
  | .aberta a => some { t with kind := .aberta { a with entrega := e } }
  | .quorum _ => none

def quorum? : Option Quorum :=
  match t.kind with
  | .quorum q => some q
  | _ => none

def aberta? : Option Aberta :=
  match t.kind with
  | .aberta a => some a
  | _ => none

def challengeDeadline : ℕ :=
  match t.challenge with
  | .nenhum => 0
  | .janela deadline => deadline
  | .disputa deadline _ _ _ _ => deadline

def verdictDeadline : ℕ :=
  match t.challenge with
  | .disputa _ _ _ verdictDeadline _ => verdictDeadline
  | _ => 0

def challenger : Option String :=
  match t.challenge with
  | .disputa _ challenger _ _ _ => some challenger
  | _ => none

def bond : Amount :=
  match t.challenge with
  | .disputa _ _ bond _ _ => bond
  | _ => 0

def votes : OrdMap String Bool :=
  match t.challenge with
  | .disputa _ _ _ _ votes => votes
  | _ => ∅

/-- Replaces the ballots of a dispute; nothing on a task without one. -/
def comVotes (votes : OrdMap String Bool) : Task :=
  match t.challenge with
  | .disputa d c b v _ => { t with challenge := .disputa d c b v votes }
  | _ => t

end Task

namespace AiTx

def maxSaltLen : ℕ := 128
def repErro : ℕ := 12
def repJuradoCerto : ℕ := 2
def repJuradoErrado : ℕ := 4
def repNaoRevelou : ℕ := 8

/-- A field that is neither absent nor null. -/
def presente (tx : Tx) (nome : String) : Option JsonValue :=
  match tx.campo nome with
  | some .null => none
  | outro => outro

def campoTexto (tx : Tx) (nome : String) : Option String := texto (tx.campo nome)

def eVerdadeiro (tx : Tx) (nome : String) : Bool :=
  match tx.campo nome with
  | some (.bool true) => true
  | _ => false

def eHex64 (s : String) : Bool :=
  s.toList.length == 64 && s.toList.all fun c => (digito? 16 c).isSome

def numero (v : JsonValue) : Option ℕ := BridgeTx.inteiro v

def quantia (v : JsonValue) : Option Amount :=
  (jsBigintDe v).bind fun n => if 0 ≤ n then some n.toNat else none

def valor (tx : Tx) : R Amount := exigir (parseU128 tx.amount) "amount inválido"

def somaTs (a b : ℕ) : R ℕ := alturaApos a b "estouro aritmético no prazo"

def idDaTx (tx : Tx) : R String := exigir tx.id "transação sem id"

def exigeSaldo (s : State) (quem : String) (valor : Amount) (msg : String) : R Unit :=
  recusar (s.balanceOf quem < valor) msg

def comOraculo (nome : String) (f : Oracle → Oracle) (s : State) : State :=
  match s.oracles.get? nome with
  | some o => { s with oracles := s.oracles.insert nome (f o) }
  | none => s

def comTarefa (id : String) (f : Task → Task) (s : State) : State :=
  match s.aiTasks.get? id with
  | some t => { s with aiTasks := s.aiTasks.insert id (f t) }
  | none => s

def taskIdDe (tx : Tx) : String := (campoTexto tx "taskId").getD ""

def tarefaDe (s : State) (tx : Tx) (msg : String) : R Task := exigir (s.aiTasks.get? (taskIdDe tx)) msg

def exigeOraculo (s : State) (tx : Tx) (msg : String) : R Unit :=
  recusar (s.oracles.contains tx.de = false) msg

/-! ## Creating a task -/

def promptDe (tx : Tx) : R String := do
  let prompt ← exigir ((campoTexto tx "prompt").filter fun p => p != "") "prompt obrigatório"
  recusar (Config.maxAiPromptBytes < prompt.utf8ByteSize) "prompt excede o limite"
  return prompt

/-- What the three kinds of task share. -/
structure Pedido where
  id : String
  prompt : String
  recompensa : Amount
  escrow : Amount

def lerPedido (tx : Tx) (ctx : Ctx) : R Pedido := do
  let id ← idDaTx tx
  let prompt ← promptDe tx
  let recompensa ← valor tx
  recusar (recompensa = 0) "recompensa da tarefa deve ser positiva"
  let escrow ← soma recompensa ctx.fee
  return { id := id, prompt := prompt, recompensa := recompensa, escrow := escrow }

def novaTarefa (p : Pedido) (tx : Tx) (ctx : Ctx) (state : String) (deadline : ℕ)
    (kind : TaskKind) : Task :=
  { id := p.id, requester := tx.de, reward := p.recompensa, state := state, deadline := deadline,
    resultHash := none, output := none, prompt := some p.prompt, params := presente tx "params",
    model := campoTexto tx "model", createdAt := ctx.blockTs, completedAt := none,
    verified := none, kind := kind, challenge := .nenhum }

def tarefaDeQuorum (s : State) (p : Pedido) (tx : Tx) (ctx : Ctx) (bruto : JsonValue) :
    R Task := do
  let q ← exigir ((numero bruto).filter fun q =>
    Config.minAiQuorum ≤ q && q ≤ Config.maxAiQuorum)
    s!"quórum inválido ({Config.minAiQuorum}..{Config.maxAiQuorum})"
  exigeSaldo s tx.de p.escrow "saldo insuficiente para escrow da recompensa"
  let fimCommit ← somaTs ctx.blockTs Config.aiCommitWindowMs
  let fimReveal ← somaTs fimCommit Config.aiRevealWindowMs
  return novaTarefa p tx ctx "PENDING" fimReveal <| .quorum
    { quorum := q, phase := .commit, commitDeadline := fimCommit, revealDeadline := fimReveal,
      commits := ∅, reveals := ∅, revealOutputs := ∅, winners := none }

def tarefaAberta (s : State) (p : Pedido) (tx : Tx) (ctx : Ctx) : R Task := do
  exigeSaldo s tx.de p.escrow "saldo insuficiente para o orçamento da tarefa"
  let fimLances ← somaTs ctx.blockTs Config.aiBidWindowMs
  let expira ← somaTs ctx.blockTs Config.aiTaskTimeoutMs
  return novaTarefa p tx ctx "BIDDING" expira <| .aberta
    { budget := p.recompensa, bidDeadline := fimLances, bids := ∅, assignedOracle := none,
      entrega := .pendente }

def tarefaDesignada (cr : Cripto) (s : State) (p : Pedido) (tx : Tx) (ctx : Ctx) : R Task := do
  let designado ← exigir ((campoTexto tx "oracle").filter cr.isValidAddress)
    "AI_TASK exige um oráculo designado (data.oracle)"
  exigeSaldo s tx.de p.escrow "saldo insuficiente para escrow da recompensa"
  let expira ← somaTs ctx.blockTs Config.aiTaskTimeoutMs
  return novaTarefa p tx ctx "PENDING" expira <| .designada
    { assignedOracle := designado, priv := eVerdadeiro tx "private", entrega := .pendente }

def montarTarefa (cr : Cripto) (s : State) (p : Pedido) (tx : Tx) (ctx : Ctx) : R Task :=
  match presente tx "quorum" with
  | some bruto => tarefaDeQuorum s p tx ctx bruto
  | none =>
    if eVerdadeiro tx "open" then tarefaAberta s p tx ctx else tarefaDesignada cr s p tx ctx

def aiTask (cr : Cripto) (tx : Tx) (ctx : Ctx) : Op Unit := do
  let s ← get
  let p ← lerPedido tx ctx
  let tarefa ← montarTarefa cr s p tx ctx
  debitar tx.de p.escrow
  modify fun s => { s with aiTasks := s.aiTasks.insert p.id tarefa }

/-! ## Delivering a result -/

structure Resultado where
  output : Option String
  hash : String
  uri : Option String

def uriDe (tx : Tx) : R (Option String) :=
  match presente tx "resultUri" with
  | none => .ok none
  | some _ =>
    (exigir ((campoTexto tx "resultUri").filter fun u => u.utf8ByteSize ≤ Config.maxAiUriBytes)
      "resultUri inválido").map some

def outputDe (tx : Tx) : R String := do
  let output ← exigir ((campoTexto tx "output").filter fun o => o != "") "output obrigatório"
  recusar (Config.maxAiOutputBytes < output.utf8ByteSize) "output excede o limite"
  return output

/-- A result by hash only, or in full. -/
def resultadoDe (cr : Cripto) (tx : Tx) : R Resultado :=
  if (presente tx "resultHash").isSome then do
    let h ← exigir ((campoTexto tx "resultHash").filter eHex64) "resultHash inválido (64 hex)"
    let uri ← uriDe tx
    return { output := none, hash := minusculas h, uri := uri }
  else do
    let o ← outputDe tx
    return { output := some o, hash := cr.eavHashOne o, uri := none }

/-- The kind of the attester that vouches for a result. -/
def verificadoDe (cr : Cripto) (s : State) (tx : Tx) (ctx : Ctx) (hash : String) :
    R (Option String) :=
  match presente tx "attestation" with
  | none => .ok none
  | some att =>
    if ctx.height < Config.aiTeeHeight then .ok none
    else do
      let attId := (texto (att.campo "attesterId")).getD ""
      let atestador ← exigir (s.aiAttesters.get? attId) "atestador de IA não registrado"
      let digest := cr.aiAttestDigest (taskIdDe tx) hash attId atestador.measurement
      let validas := cr.verifyCommitteeProof digest (att.campo "sigs") atestador.members
      recusar (validas < atestador.quorum) s!"atestação insuficiente ({validas}/{atestador.quorum})"
      return some atestador.kind

def entregar (t : Task) (r : Resultado) (tx : Tx) : R Task := do
  let t ← exigir (t.comEntrega (.entregue tx.de r.uri))
    "remetente não é o oráculo designado para esta tarefa"
  return { t with
    output := r.output
    resultHash := some r.hash
    completedAt := some tx.timestamp
    prompt := none
    params := none }

/-- The fee in the context is not debited here. -/
def aiResult (cr : Cripto) (tx : Tx) (ctx : Ctx) : Op Unit := do
  let s ← get
  exigeOraculo s tx "remetente não é um oráculo de IA registrado"
  let t ← tarefaDe s tx "tarefa de IA inexistente"
  recusar (t.state ≠ "PENDING") "tarefa de IA já concluída"
  recusar (t.assignedOracle ≠ some tx.de) "remetente não é o oráculo designado para esta tarefa"
  let r ← resultadoDe cr tx
  let verificado ← verificadoDe cr s tx ctx r.hash
  let fimDesafio ← somaTs ctx.blockTs Config.aiChallengeWindowMs
  let entregue ← entregar t r tx
  match verificado with
  | some kind => do
    modify (comTarefa (taskIdDe tx) fun _ => { entregue with verified := some kind, state := "DONE" })
    modify (comOraculo tx.de Oracle.creditarAcerto)
    creditar tx.de t.reward
  | none =>
    modify (comTarefa (taskIdDe tx) fun _ =>
      { entregue with state := "CHALLENGE_PERIOD", challenge := .janela fimDesafio })

/-! ## Settlement, challenge and verdict -/

def concluir (estado : String) (t : Task) : Task := { t with state := estado }

def aiClaim (tx : Tx) (ctx : Ctx) : Op Unit := do
  let s ← get
  let t ← tarefaDe s tx "tarefa de IA inexistente"
  exigeSaldo s tx.de ctx.fee "saldo insuficiente para a taxa"
  if t.state = "CHALLENGE_PERIOD" then do
    recusar (ctx.blockTs < t.challengeDeadline) "janela de desafio ainda aberta"
    let oraculo ← exigir t.oracle "tarefa sem oráculo entregador"
    debitar tx.de ctx.fee
    creditar oraculo t.reward
    modify (comOraculo oraculo Oracle.creditarAcerto)
    modify (comTarefa (taskIdDe tx) (concluir "DONE"))
  else if t.state = "DISPUTED" then do
    recusar (ctx.blockTs < t.verdictDeadline) "júri ainda no prazo"
    recusar (Config.aiVerdictQuorum ≤ t.votes.size) "disputa deve ser resolvida por veredito"
    let oraculo ← exigir t.oracle "tarefa sem oráculo entregador"
    let desafiante ← exigir t.challenger "disputa sem desafiante"
    debitar tx.de ctx.fee
    creditar oraculo t.reward
    creditar desafiante t.bond
    modify (comTarefa (taskIdDe tx) fun t => (concluir "DONE" t).comVotes ∅)
  else recusar True "tarefa não está liquidável"

def aiChallenge (tx : Tx) (ctx : Ctx) : Op Unit := do
  let s ← get
  let t ← tarefaDe s tx "tarefa de IA inexistente"
  recusar (t.state ≠ "CHALLENGE_PERIOD") "tarefa não está em janela de desafio"
  recusar (t.challengeDeadline ≤ ctx.blockTs) "janela de desafio expirada"
  let custo ← soma Config.aiChallengeBond ctx.fee
  exigeSaldo s tx.de custo "saldo insuficiente para a fiança do desafio"
  let fimVeredito ← somaTs ctx.blockTs Config.aiVerdictWindowMs
  debitar tx.de custo
  modify (comTarefa (taskIdDe tx) fun t => { t with
    state := "DISPUTED"
    challenge := .disputa t.challengeDeadline tx.de Config.aiChallengeBond fimVeredito ∅ })

/-- A dispute open to the sender's ballot. -/
def disputaPara (s : State) (tx : Tx) (ctx : Ctx) : R Task := do
  exigeOraculo s tx "só oráculo registrado pode julgar"
  let t ← exigir ((s.aiTasks.get? (taskIdDe tx)).filter fun t => t.state == "DISPUTED")
    "tarefa não está em disputa"
  recusar (t.verdictDeadline ≤ ctx.blockTs) "janela de veredito expirada"
  recusar (some tx.de = t.oracle ∨ some tx.de = t.challenger)
    "parte interessada não pode julgar"
  recusar (t.votes.contains tx.de) "jurado já votou nesta disputa"
  recusar (t.challenger = none) "tarefa não está em disputa"
  exigeSaldo s tx.de ctx.fee "saldo insuficiente para a taxa"
  return t

/-- The reputation of each juror moves with the outcome. -/
def ajustarJurados (mantido : Bool) : List (String × Bool) → State → State
  | [], s => s
  | (jurado, voto) :: resto, s =>
    ajustarJurados mantido resto <| comOraculo jurado
      (fun o => if voto = mantido then o.sobe repJuradoCerto else o.desce repJuradoErrado) s

def manter (t : Task) (taskId : String) : Op Unit := do
  let oraculo ← exigir t.oracle "tarefa sem oráculo entregador"
  let total ← soma t.reward t.bond
  creditar oraculo total
  modify (comOraculo oraculo Oracle.creditarAcerto)
  modify (comTarefa taskId (concluir "UPHELD"))

/-- Takes the bounty from the stake of the oracle whose result fell. -/
def penalizarOraculo (nome : String) : Op Amount := do
  let s ← get
  match s.oracles.get? nome with
  | none => return 0
  | some o => do
    let bounty := min o.stake Config.aiOracleSlash
    set (comOraculo nome (fun _ => { o.falhou repErro with stake := o.stake - bounty }) s)
    if 0 < bounty then
      let slashed ← soma o.slashed bounty
      modify (comOraculo nome fun o => { o with slashed := slashed })
    return bounty

def penalizarSe (nome : Option String) : Op Amount :=
  match nome with
  | some nome => penalizarOraculo nome
  | none => pure 0

def derrubar (t : Task) (taskId : String) : Op Unit := do
  let desafiante ← exigir t.challenger "disputa sem desafiante"
  creditar t.requester t.reward
  let bounty ← penalizarSe t.oracle
  let total ← soma t.bond bounty
  creditar desafiante total
  modify (comTarefa taskId (concluir "OVERTURNED"))

/-- Settles a dispute once the jury is complete. -/
def resolver (t : Task) (taskId : String) (votos : OrdMap String Bool) : Op Unit := do
  let mantido := decide (votos.size < (votos.values.filter id).length * 2)
  if mantido then manter t taskId else derrubar t taskId
  modify (ajustarJurados mantido votos.entries)
  modify (comTarefa taskId fun t => { t with output := none }.comVotes ∅)

def aiVerdict (tx : Tx) (ctx : Ctx) : Op Unit := do
  let s ← get
  let t ← disputaPara s tx ctx
  debitar tx.de ctx.fee
  let votos := t.votes.insert tx.de (eVerdadeiro tx "valid")
  modify (comTarefa (taskIdDe tx) (·.comVotes votos))
  if Config.aiVerdictQuorum ≤ votos.size then resolver t (taskIdDe tx) votos

/-! ## The market -/

def precoDe (tx : Tx) (budget : Amount) : R Amount := do
  let preco ← exigir ((tx.campo "price").bind quantia) "preço do lance inválido"
  recusar (preco = 0 ∨ budget < preco) "preço do lance inválido (0 < preço <= orçamento)"
  return preco

def comAberta (f : Aberta → Aberta) (t : Task) : Task :=
  match t.kind with
  | .aberta a => { t with kind := .aberta (f a) }
  | _ => t

def aiBid (tx : Tx) (ctx : Ctx) : Op Unit := do
  let s ← get
  exigeOraculo s tx "só oráculo registrado pode dar lance"
  let t ← tarefaDe s tx "tarefa aberta inexistente"
  let aberta ← exigir t.aberta? "tarefa aberta inexistente"
  recusar (t.state ≠ "BIDDING") "lances encerrados"
  recusar (aberta.bidDeadline ≤ ctx.blockTs) "janela de lances expirada"
  let preco ← precoDe tx aberta.budget
  exigeSaldo s tx.de ctx.fee "saldo insuficiente para a taxa"
  debitar tx.de ctx.fee
  modify (comTarefa (taskIdDe tx) (comAberta fun a =>
    { a with bids := a.bids.insert tx.de (preco, ctx.blockTs) }))

def aiAward (tx : Tx) (ctx : Ctx) : Op Unit := do
  let s ← get
  let t ← tarefaDe s tx "tarefa aberta inexistente"
  let aberta ← exigir t.aberta? "tarefa aberta inexistente"
  recusar (t.requester ≠ tx.de) "só o solicitante adjudica"
  recusar (t.state ≠ "BIDDING") "tarefa não está em lances"
  recusar (t.deadline ≤ ctx.blockTs) "tarefa expirada"
  let vencedor := (campoTexto tx "oracle").getD ""
  let (preco, _) ← exigir (aberta.bids.get? vencedor) "oráculo escolhido não deu lance"
  exigeSaldo s tx.de ctx.fee "saldo insuficiente para a taxa"
  debitar tx.de ctx.fee
  if 0 < aberta.budget - preco then creditar tx.de (aberta.budget - preco)
  modify (comTarefa (taskIdDe tx) fun t =>
    { comAberta (fun a => { a with assignedOracle := some vencedor, bids := ∅ }) t with
      reward := preco
      state := "PENDING" })

/-! ## Commit and reveal -/

def comQuorum (f : Quorum → Quorum) (t : Task) : Task :=
  match t.kind with
  | .quorum q => { t with kind := .quorum (f q) }
  | _ => t

def aiCommit (tx : Tx) (ctx : Ctx) : Op Unit := do
  let s ← get
  exigeOraculo s tx "remetente não é um oráculo de IA registrado"
  let t ← tarefaDe s tx "tarefa de quórum inexistente"
  let q ← exigir t.quorum? "tarefa de quórum inexistente"
  recusar (t.state ≠ "PENDING" ∨ q.phase ≠ .commit) "fase de commit encerrada"
  recusar (q.commitDeadline ≤ ctx.blockTs) "janela de commit expirada"
  recusar (q.commits.contains tx.de) "oráculo já commitou nesta tarefa"
  let commit ← exigir ((campoTexto tx "commit").filter eHex64) "commit inválido (64 hex)"
  exigeSaldo s tx.de ctx.fee "saldo insuficiente para a taxa"
  debitar tx.de ctx.fee
  modify (comTarefa (taskIdDe tx) (comQuorum fun q =>
    { q with commits := q.commits.insert tx.de commit }))

def saltDe (tx : Tx) : R String :=
  exigir ((campoTexto tx "salt").filter fun s => s != "" && jsLen s ≤ maxSaltLen) "salt inválido"

/-- The output a sender may reveal now, with the quorum it belongs to. -/
def conferirReveal (cr : Cripto) (s : State) (tx : Tx) (ctx : Ctx) :
    R (Task × Quorum × String) := do
  exigeOraculo s tx "remetente não é um oráculo de IA registrado"
  let t ← tarefaDe s tx "tarefa de quórum inexistente"
  let q ← exigir t.quorum? "tarefa de quórum inexistente"
  recusar (t.state ≠ "PENDING") "tarefa já concluída"
  let commit ← exigir (q.commits.get? tx.de) "oráculo não commitou nesta tarefa"
  recusar (q.reveals.contains tx.de) "oráculo já revelou"
  recusar (ctx.blockTs < q.commitDeadline) "a janela de reveal ainda não abriu"
  recusar (q.revealDeadline ≤ ctx.blockTs) "janela de reveal expirada"
  let output ← outputDe tx
  let salt ← saltDe tx
  recusar (cr.eavHashOne s!"{output}|{salt}" ≠ minusculas commit)
    "reveal não confere com o commit"
  exigeSaldo s tx.de ctx.fee "saldo insuficiente para a taxa"
  return (t, q, output)

/-- The least hash that enough oracles revealed. -/
def vencedora (reveals : OrdMap String String) (alvo : ℕ) : Option String :=
  (reveals.values.insertionSort (· ≤ ·)).find? fun h => alvo ≤ reveals.values.count h

/-- Pays the winners their shares; the first one takes the remainder too. -/
def pagarVencedores (quota resto : Amount) : List String → Op Unit
  | [] => pure ()
  | quem :: outros => do
    let parte ← if 0 < resto then soma quota resto else (.ok quota : R Amount)
    creditar quem parte
    modify (comOraculo quem Oracle.creditarAcerto)
    pagarVencedores quota 0 outros

def rebaixar (passo : ℕ) : List String → State → State
  | [], s => s
  | quem :: outros, s => rebaixar passo outros (comOraculo quem (·.falhou passo) s)

/-- A quorum task decided for one hash. -/
def apurarQuorum (tx : Tx) (hash : String) (vencedores : List String) (q : Quorum) (t : Task) :
    Task :=
  { t with
    kind := .quorum { q with phase := .done, winners := some vencedores, revealOutputs := ∅ }
    state := "DONE"
    resultHash := some hash
    output := vencedores.head?.bind q.revealOutputs.get?
    completedAt := some tx.timestamp
    prompt := none
    params := none }

def quemRevelou (q : Quorum) (p : String → Bool) : List String :=
  (q.reveals.entries.filter fun e => p e.2).map Prod.fst

/-- The quorum with the sender's reveal. -/
def comReveal (cr : Cripto) (tx : Tx) (output : String) (q : Quorum) : Quorum :=
  { q with
    reveals := q.reveals.insert tx.de (cr.eavHashOne output)
    revealOutputs := q.revealOutputs.insert tx.de output }

def encerrarQuorum (tx : Tx) (t : Task) (q : Quorum) (hash : String) : Op Unit := do
  let vencedores := quemRevelou q (· == hash)
  recusar (vencedores.length = 0) "quórum apurado sem vencedores"
  let quota := t.reward / vencedores.length
  modify (comTarefa (taskIdDe tx) (apurarQuorum tx hash vencedores q))
  pagarVencedores quota (t.reward - quota * vencedores.length) vencedores
  modify (rebaixar repErro (quemRevelou q (· != hash)))

def aiReveal (cr : Cripto) (tx : Tx) (ctx : Ctx) : Op Unit := do
  let s ← get
  let (t, q, output) ← conferirReveal cr s tx ctx
  debitar tx.de ctx.fee
  let q' := comReveal cr tx output q
  modify (comTarefa (taskIdDe tx) (comQuorum fun _ => q'))
  match vencedora q'.reveals q.quorum with
  | none => pure ()
  | some hash => encerrarQuorum tx t q' hash

/-! ## Refunds -/

def reembolsar (tx : Tx) (t : Task) : Task :=
  { comQuorum (fun q => { q with commits := ∅, reveals := ∅, revealOutputs := ∅ }) t with
    state := "REFUNDED"
    completedAt := some tx.timestamp
    prompt := none
    params := none }

def faltosos (q : Quorum) : List String := q.commits.keys.filter fun a => !q.reveals.contains a

/-- Takes the bounty from the oracle that let an assigned task expire. -/
def cobrarFaltoso (de : String) (designado : Option String) : Op Unit := do
  let slash ← penalizarSe designado
  if 0 < slash then creditar de slash

/-- The fee in the context is not debited here. -/
def aiRefund (tx : Tx) (ctx : Ctx) : Op Unit := do
  let s ← get
  let t ← tarefaDe s tx "tarefa de IA inexistente"
  recusar (t.requester ≠ tx.de) "apenas o solicitante pode reembolsar"
  recusar (t.state ≠ "PENDING" ∧ t.state ≠ "BIDDING") "tarefa de IA não é reembolsável"
  recusar (ctx.blockTs < t.deadline) "a tarefa ainda não expirou"
  modify (comTarefa (taskIdDe tx) (reembolsar tx))
  creditar tx.de t.reward
  match t.quorum? with
  | some q => modify (rebaixar repNaoRevelou (faltosos q))
  | none => cobrarFaltoso tx.de t.assignedOracle

end AiTx
end Eav7
