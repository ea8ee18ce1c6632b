import Eav7.State
import Eav7.Block

/-!
# Value transactions

Transfers, staking, votes, delegated resources, vesting and slashing. Every
handler checks first and writes last; the fee in the context is debited by the
handler itself.
-/

namespace Eav7

open Base

def Tx.campo (tx : Tx) (chave : String) : Option JsonValue := tx.data.bind (·.campo chave)

def texto (v : Option JsonValue) : Option String := v.bind (·.texto?)

def soDigitos (s : String) : Bool := s.toList != [] && s.toList.all eDigito

/-- An unsigned amount given as decimal text or as an integer. -/
def comoAmount (v : Option JsonValue) : R Amount :=
  match v with
  | some (.str s) =>
    if soDigitos s = false then erro "valor não é um decimal sem sinal"
    else exigir (parseU128 s) "valor fora da faixa representável"
  | some (.int n) => if 0 ≤ n then .ok n.toNat else erro "valor negativo"
  | _ => erro "valor ausente ou de tipo inválido"

def comoI64 (v : Option JsonValue) : Option ℤ :=
  match v with
  | some (.int n) => some n
  | some (.str s) => jsNumberSeguro s
  | _ => none

/-- An amount field that may be absent or null, read as zero then. -/
def amountOuZero (v : Option JsonValue) : R Amount :=
  match v with
  | none => .ok 0
  | some .null => .ok 0
  | v => comoAmount v

def amountDaTx (tx : Tx) : R Amount :=
  if soDigitos tx.amount = false then erro "amount inválido"
  else exigir (parseU128 tx.amount) "amount fora da faixa representável"

namespace State

variable (s : State)

def paramAmount (nome : String) (padrao : Amount) : R Amount :=
  match s.params.get? nome with
  | some v => exigir (parseU128 v) s!"parâmetro {nome} inválido no estado"
  | none => .ok padrao

/-- Some account not managed by the EVM reaches the minimum stake, reading
`ajuste` in place of one account's stake. -/
def haValidador (minStake : Amount) (ajuste : Option (String × Amount)) : Bool :=
  s.accounts.entries.any fun e =>
    !e.2.eavmManaged &&
      decide (minStake ≤ match ajuste with
        | some (alvo, novo) => if alvo = e.1 then novo else e.2.staked
        | none => e.2.staked)

def votosDe (eleitor : String) : OrdMap String Amount := s.votes.getD eleitor ∅

def debito (eleitor validador : String) : Amount :=
  (s.voterRewardDebt.getD eleitor ∅).getD validador 0

def setDebito (eleitor validador : String) (valor : Amount) : State :=
  { s with
    voterRewardDebt := s.voterRewardDebt.insert eleitor
      ((s.voterRewardDebt.getD eleitor ∅).insert validador valor) }

def delegado (dono para : String) : Amount := (s.delegations.getD dono ∅).getD para 0

def poeDelegacao (dono para : String) (valor : Amount) : State :=
  { s with delegations := s.delegations.insert dono ((s.delegations.getD dono ∅).insert para valor) }

/-- The sum of the votes an account has allocated. -/
def votadoTotal (endereco : String) : R Amount :=
  (s.votosDe endereco).values.foldlM soma 0

end State

/-- Credits the reward accrued on a vote and moves the debt to the accumulator. -/
def liquidarRecompensa (eleitor validador : String) : Op Unit := do
  let s ← get
  let votos := (s.votosDe eleitor).getD validador 0
  let acc := s.rewardAccPerVote.getD validador 0
  if 0 < votos then
    let delta ← sub acc (s.debito eleitor validador)
    let total ← produto votos delta "estouro aritmético na recompensa de eleitor"
    if 0 < total / Config.rewardScale then creditar eleitor (total / Config.rewardScale)
  modify (·.setDebito eleitor validador acc)

/-! ## Transfers and stake -/

def transfer (tx : Tx) (ctx : Ctx) : Op Unit := do
  let s ← get
  let amount ← amountDaTx tx
  recusar (amount = 0) "valor da transferência deve ser positivo"
  let para ← exigir tx.para "endereço de destino inválido"
  let total ← soma amount ctx.fee
  recusar (s.balanceOf tx.de < total) "saldo insuficiente"
  if para ≠ tx.de then
    let _ ← soma (s.balanceOf para) amount
  debitar tx.de total
  creditar para amount

def stake (tx : Tx) (ctx : Ctx) : Op Unit := do
  let s ← get
  let amount ← amountDaTx tx
  recusar (amount = 0) "stake deve ser positivo"
  let total ← soma amount ctx.fee
  recusar (s.balanceOf tx.de < total) "saldo insuficiente"
  let novoStake ← soma (s.account tx.de).staked amount
  debitar tx.de total
  modify (·.comConta tx.de fun c =>
    { c with staked := novoStake, eavmManaged := c.eavmManaged || tx.scheme == eavmScheme })

/-- A height after a delay, checked against the 64-bit range. -/
def alturaApos (height blocos : ℕ) (msg : String) : R ℕ :=
  if height + blocos < u64Limit then .ok (height + blocos) else erro msg

def emFila (s : State) (dono : String) : ℕ := (s.unbonding.filter fun u => u.1 == dono).length

def unstake (tx : Tx) (ctx : Ctx) : Op Unit := do
  let s ← get
  let amount ← amountDaTx tx
  recusar (amount = 0) "unstake deve ser positivo"
  let conta := s.account tx.de
  recusar (conta.staked < amount) "stake insuficiente"
  recusar (conta.balance < ctx.fee) "saldo insuficiente para a taxa"
  let restante ← sub conta.staked amount
  let pisoVotos ← s.votadoTotal tx.de
  recusar (restante < pisoVotos)
    "unstake deixaria votos sem lastro; refaça VOTE (reduza os votos) primeiro"
  recusar (restante < conta.delegatedOut)
    "unstake deixaria recurso delegado sem lastro; retire a delegação primeiro"
  let minStake ← s.paramAmount "MIN_VALIDATOR_STAKE" Config.minValidatorStake
  recusar (s.haValidador minStake (some (tx.de, restante)) = false)
    "não é possível remover o último validador ativo da rede"
  recusar (Config.maxUnbondingEntries ≤ emFila s tx.de)
    s!"limite de {Config.maxUnbondingEntries} saques simultâneos atingido"
  let maturaEm ← alturaApos ctx.height Config.unbondingBlocks
    "estouro aritmético na altura de maturação"
  debitar tx.de ctx.fee
  modify (·.comConta tx.de fun c => { c with staked := restante })
  modify fun s => { s with unbonding := s.unbonding ++ [(tx.de, amount, maturaEm)] }

/-! ## Votes -/

section Votes

variable (cr : Cripto)

/-- Reads an allocation candidate by candidate, accumulating its total. -/
def analisaVotos (s : State) (conta : String) (minStake : Amount) :
    List (String × JsonValue) → Amount → R (Amount × List (String × Amount))
  | [], total => .ok (total, [])
  | (candidato, bruto) :: resto, total => do
    recusar (cr.isValidAddress candidato = false) "endereço de candidato inválido"
    recusar (candidato = conta) "não pode votar em si mesmo (o self-stake já conta)"
    recusar ((s.account candidato).staked < minStake)
      "candidato não elegível (self-stake abaixo do mínimo)"
    let valor ← comoAmount (some bruto)
    recusar (valor = 0) "voto deve ser positivo"
    let total ← soma total valor
    let (total, analisados) ← analisaVotos s conta minStake resto total
    return (total, (candidato, valor) :: analisados)

/-- Everything `aplicarVoto` checks before it writes. -/
def validarVoto (s : State) (conta : String) (votos : Option JsonValue) :
    R (List (String × Amount)) := do
  let alocacao ← match votos with
    | some (.map m) => (.ok (mapaDe m).entries : R (List (String × JsonValue)))
    | _ => erro "votos inválidos"
  recusar (alocacao.length = 0 ∨ Config.maxVoteTargets < alocacao.length)
    "nº de candidatos inválido"
  let minStake ← s.paramAmount "MIN_VALIDATOR_STAKE" Config.minValidatorStake
  let (total, analisados) ← analisaVotos cr s conta minStake alocacao 0
  recusar ((s.account conta).staked < total) "votos excedem o poder de voto (stake)"
  return analisados

/-- Settles and withdraws the previous allocation. -/
def retiraVotos (conta : String) : List (String × Amount) → Op Unit
  | [] => pure ()
  | (candidato, valor) :: resto => do
    liquidarRecompensa conta candidato
    let s ← get
    let restante ← sub (s.candidateVotes.getD candidato 0) valor
    modify fun s =>
      if 0 < restante then { s with candidateVotes := s.candidateVotes.insert candidato restante }
      else { s with candidateVotes := s.candidateVotes.erase candidato }
    retiraVotos conta resto

/-- Adds the new allocation, with no claim on rewards distributed before. -/
def colocaVotos (conta : String) : List (String × Amount) → Op Unit
  | [] => pure ()
  | (candidato, valor) :: resto => do
    let s ← get
    let novo ← soma (s.candidateVotes.getD candidato 0) valor
    modify fun s => { s with candidateVotes := s.candidateVotes.insert candidato novo }
    modify fun s => s.setDebito conta candidato (s.rewardAccPerVote.getD candidato 0)
    colocaVotos conta resto

def aplicarVoto (conta : String) (votos : Option JsonValue) : Op Unit := do
  let s ← get
  let analisados ← validarVoto cr s conta votos
  retiraVotos conta (s.votosDe conta).entries
  colocaVotos conta analisados
  modify fun s => { s with votes := s.votes.insert conta (OrdMap.ofList analisados) }

def vote (tx : Tx) (ctx : Ctx) : Op Unit := do
  let s ← get
  recusar (s.balanceOf tx.de < ctx.fee) "saldo insuficiente para a taxa"
  aplicarVoto cr tx.de (tx.campo "votes")
  debitar tx.de ctx.fee

/-- A commission of 0 to 100 per cent. -/
def comoPct (v : Option JsonValue) : R ℕ :=
  exigir ((comoI64 v).bind fun p => if 0 ≤ p ∧ p ≤ 100 then some p.toNat else none)
    "comissão deve ser 0..100"

def setCommission (tx : Tx) (ctx : Ctx) : Op Unit := do
  let s ← get
  let pct ← comoPct (tx.campo "percent")
  recusar (s.balanceOf tx.de < ctx.fee) "saldo insuficiente para a taxa"
  let ativaEm ← alturaApos ctx.height Config.commissionDelayBlocks
    "estouro aritmético na altura de ativação"
  debitar tx.de ctx.fee
  modify fun s => { s with pendingCommission := s.pendingCommission.insert tx.de (pct, ativaEm) }

/-- A text field holding a valid address. -/
def enderecoEm (v : Option JsonValue) (msg : String) : R String :=
  exigir ((texto v).filter cr.isValidAddress) msg

def claimVoterReward (tx : Tx) (ctx : Ctx) : Op Unit := do
  let s ← get
  let validador ← enderecoEm cr (tx.campo "validator") "validador inválido"
  recusar ((s.votosDe tx.de).contains validador = false) "você não vota nesse validador"
  recusar (s.balanceOf tx.de < ctx.fee) "saldo insuficiente para a taxa"
  debitar tx.de ctx.fee
  liquidarRecompensa tx.de validador

end Votes

/-! ## Vesting -/

def u64Max : ℕ := u64Limit - 1

/-- The part of a schedule released at a height: nothing before the cliff, then
linear in the blocks since the start. -/
def Vesting.vested (v : Vesting) (height : ℕ) : R Amount :=
  if height < min (v.start + v.cliff) u64Max then .ok 0
  else if min (v.start + v.duration) u64Max ≤ height then .ok v.total
  else do
    let total ← produto v.total (height - v.start) "estouro aritmético no cálculo do vesting"
    return total / v.duration

def duracaoVesting (v : Option JsonValue) : R ℕ :=
  exigir ((comoI64 v).bind fun d =>
    if 0 < d ∧ d ≤ Config.maxVestingBlocks then some d.toNat else none) "duração inválida"

def cliffVesting (v : Option JsonValue) (duracao : ℕ) : R ℕ := do
  let cliff ← match v with
    | none => (.ok 0 : R ℤ)
    | some .null => .ok 0
    | v => exigir (comoI64 v) "cliff inválido"
  recusar (cliff < 0 ∨ (duracao : ℤ) < cliff) "cliff inválido"
  return cliff.toNat

def vestingCreate (cr : Cripto) (tx : Tx) (ctx : Ctx) : Op Unit := do
  let s ← get
  let beneficiario ← enderecoEm cr (tx.campo "beneficiary") "beneficiário inválido"
  let amount ← amountDaTx tx
  recusar (amount = 0) "valor de vesting deve ser positivo"
  let duracao ← duracaoVesting (tx.campo "durationBlocks")
  let cliff ← cliffVesting (tx.campo "cliffBlocks") duracao
  let total ← soma amount ctx.fee
  recusar (s.balanceOf tx.de < total) "saldo insuficiente para travar o vesting"
  let id ← exigir tx.id "transação sem id: o vesting não tem chave"
  debitar tx.de total
  modify fun s => { s with
    vesting := s.vesting.insert id
      { beneficiary := beneficiario, total := amount, claimed := 0, start := ctx.height,
        cliff := cliff, duration := duracao } }

def vestingClaim (tx : Tx) (ctx : Ctx) : Op Unit := do
  let s ← get
  let id := (texto (tx.campo "vestingId")).getD ""
  let v ← exigir (s.vesting.get? id) "vesting inexistente"
  recusar (v.beneficiary ≠ tx.de) "só o beneficiário resgata"
  recusar (s.balanceOf tx.de < ctx.fee) "saldo insuficiente para a taxa"
  let vencido ← v.vested ctx.height
  let resgatavel := vencido - v.claimed
  recusar (resgatavel = 0) "nada a resgatar ainda (cliff/linear)"
  let novoResgatado ← soma v.claimed resgatavel
  let _ ← soma (s.balanceOf tx.de) resgatavel
  debitar tx.de ctx.fee
  creditar tx.de resgatavel
  modify fun s =>
    if v.total ≤ novoResgatado then { s with vesting := s.vesting.erase id }
    else { s with vesting := s.vesting.insert id { v with claimed := novoResgatado } }

/-! ## Delegated resources -/

def delegateResource (cr : Cripto) (tx : Tx) (ctx : Ctx) : Op Unit := do
  let s ← get
  let para ← enderecoEm cr (tx.campo "to") "delegatário inválido"
  recusar (para = tx.de) "não pode delegar para si mesmo"
  let valor ← amountOuZero (tx.campo "amount")
  recusar (valor = 0) "valor de delegação deve ser positivo"
  let conta := s.account tx.de
  let novoOut ← soma conta.delegatedOut valor
  recusar (conta.staked < novoOut) "delegação excede o stake disponível"
  recusar (conta.balance < ctx.fee) "saldo insuficiente para a taxa"
  let novoIn ← soma (s.account para).delegatedIn valor
  let novaAresta ← soma (s.delegado tx.de para) valor
  debitar tx.de ctx.fee
  modify (·.comConta tx.de fun c => { c with delegatedOut := novoOut })
  modify (·.comConta para fun c => { c with delegatedIn := novoIn })
  modify (·.poeDelegacao tx.de para novaAresta)

namespace State

/-- Removes one edge, and the owner's map once it is empty. -/
def tiraDelegacao (s : State) (dono para : String) : State :=
  match s.delegations.get? dono with
  | none => s
  | some m =>
    if (m.erase para).entries = [] then { s with delegations := s.delegations.erase dono }
    else { s with delegations := s.delegations.insert dono (m.erase para) }

end State

def undelegateResource (cr : Cripto) (tx : Tx) (ctx : Ctx) : Op Unit := do
  let s ← get
  let para ← enderecoEm cr (tx.campo "to") "delegatário inválido"
  let valor ← amountOuZero (tx.campo "amount")
  recusar (valor = 0) "valor deve ser positivo"
  let atual := s.delegado tx.de para
  recusar (atual < valor) "delegação insuficiente para retirar"
  recusar (s.balanceOf tx.de < ctx.fee) "saldo insuficiente para a taxa"
  let novoOut ← sub (s.account tx.de).delegatedOut valor
  let novoIn ← sub (s.account para).delegatedIn valor
  let resto ← sub atual valor
  debitar tx.de ctx.fee
  modify (·.comConta tx.de fun c => { c with delegatedOut := novoOut })
  modify (·.comConta para fun c => { c with delegatedIn := novoIn })
  modify fun s =>
    if 0 < resto then s.poeDelegacao tx.de para resto else s.tiraDelegacao tx.de para

/-! ## Slashing -/

section Slashing

variable (cr : Cripto)

/-- The offender named by two conflicting block headers, with the key under
which the penalty is recorded. -/
def infratorDe (s : State) (a b : JsonValue) : R (String × String) := do
  recusar (!JsonValue.camposIguais (a.campo "producer") (b.campo "producer"))
    "produtores diferentes — não é assinatura dupla"
  recusar (!JsonValue.camposIguais (a.campo "height") (b.campo "height"))
    "alturas diferentes — não é assinatura dupla"
  recusar (JsonValue.camposIguais (a.campo "hash") (b.campo "hash"))
    "mesmo bloco — não há conflito"
  let contaA := texto (a.campo "producerAccount")
  recusar (contaA ≠ texto (b.campo "producerAccount"))
    "contas produtoras diferentes — não é assinatura dupla"
  let produtor := (texto (a.campo "producer")).getD ""
  let infrator := contaA.getD produtor
  recusar (∃ ca ∈ contaA, (s.permissions.get? ca).bind (·.witness) ≠ some produtor)
    "chave assinante não é o witness registrado para a conta produtora"
  let altura ← match a.campo "height" with
    | some (.int h) => if 0 ≤ h then (.ok h : R ℤ) else erro "altura da evidência inválida"
    | _ => erro "altura da evidência inválida"
  return (infrator, s!"{infrator}:{altura}")

def somaUnbonding (dono : String) : List (String × Amount × ℕ) → Amount → R Amount
  | [], total => .ok total
  | u :: us, total =>
    if u.1 = dono then do somaUnbonding dono us (← soma total u.2.1)
    else somaUnbonding dono us total

def evidencia (nome : String) (v : JsonValue) : R Unit :=
  match (do cr.verifyBlockIntegrity (← blockFromJson v) : Falha Unit) with
  | .ok _ => .ok ()
  | .error e => erro s!"evidência {nome} inválida: {e}"

/-- Takes up to `restante` from the offender's queued withdrawals, in order. -/
def cortaUnbonding (infrator : String) :
    List (String × Amount × ℕ) → Amount → List (String × Amount × ℕ)
  | [], _ => []
  | u :: us, restante =>
    if u.1 ≠ infrator ∨ restante = 0 then u :: cortaUnbonding infrator us restante
    else
      let tirado := min u.2.1 restante
      if 0 < u.2.1 - tirado then
        (u.1, u.2.1 - tirado, u.2.2) :: cortaUnbonding infrator us (restante - tirado)
      else cortaUnbonding infrator us (restante - tirado)

/-- Withdraws `excesso` from the offender's delegations, in address order. -/
def cortaDelegacoes (infrator : String) : List (String × Amount) → Amount → State → State
  | [], _, s => s
  | (destino, valor) :: resto, excesso, s =>
    if excesso = 0 then s
    else
      let tirado := min valor excesso
      let s := s.comConta destino fun c => { c with delegatedIn := c.delegatedIn - tirado }
      let s := match s.delegations.get? infrator with
        | none => s
        | some m => { s with
            delegations := s.delegations.insert infrator
              (if 0 < valor - tirado then m.insert destino (valor - tirado) else m.erase destino) }
      cortaDelegacoes infrator resto (excesso - tirado) s

/-- Cuts the delegated resource back to what the remaining stake covers. -/
def rebaixaDelegado (infrator : String) (s : State) : State :=
  let conta := s.account infrator
  if conta.delegatedOut ≤ conta.staked then s
  else
    let s := cortaDelegacoes infrator (s.delegations.getD infrator ∅).entries
      (conta.delegatedOut - conta.staked) s
    let s := match s.delegations.get? infrator with
      | some m =>
        if m.entries = [] then { s with delegations := s.delegations.erase infrator } else s
      | none => s
    s.comConta infrator fun c => { c with delegatedOut := conta.staked }

/-- Removes the penalty from the stake, then from the queue, then rebalances. -/
def penaliza (infrator : String) (penalidade : Amount) (s : State) : State :=
  let doStake := min (s.account infrator).staked penalidade
  let s := s.comConta infrator fun c => { c with staked := c.staked - doStake }
  let restante := penalidade - doStake
  let s := if 0 < restante then
      { s with unbonding := cortaUnbonding infrator s.unbonding restante }
    else s
  rebaixaDelegado infrator s

def slashDoubleSign (tx : Tx) (_ctx : Ctx) : Op Unit := do
  let s ← get
  let (a, b) ← match tx.campo "blockA", tx.campo "blockB" with
    | some (.map a), some (.map b) =>
      (.ok (JsonValue.map a, JsonValue.map b) : R (JsonValue × JsonValue))
    | _, _ => erro "evidência ausente"
  let (infrator, chave) ← infratorDe s a b
  recusar (s.slashed.getD chave false) "essa assinatura dupla já foi penalizada"
  let emUnbonding ← somaUnbonding infrator s.unbonding 0
  let emRisco ← soma (s.account infrator).staked emUnbonding
  recusar (emRisco = 0) "infrator sem stake para penalizar"
  evidencia cr "A" a
  evidencia cr "B" b
  let bruto ← produto emRisco Config.slashPercent "estouro no cálculo da penalidade"
  let penalidade := bruto / 100
  let brutoPremio ← produto penalidade Config.slashReporterPercent "estouro no cálculo do prêmio"
  let premio := brutoPremio / 100
  modify (penaliza infrator penalidade)
  let s ← get
  let queimado ← soma s.totalBurned (penalidade - premio)
  set { s with totalBurned := queimado }
  creditar tx.de premio
  modify fun s => { s with slashed := s.slashed.insert chave true }

end Slashing

end Eav7
