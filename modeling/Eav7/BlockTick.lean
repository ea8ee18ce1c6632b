import Eav7.Aplicacao

/-!
# What a block does to the state

The genesis allocations, the transactions of a block, the reward and its
distribution, and the deterministic hook that matures what was scheduled.
-/

namespace Eav7

open Base

/-! ## The active set -/

structure Validator where
  address : String
  staked : Amount
  votes : Amount
  deriving DecidableEq

namespace Validator

def peso (v : Validator) : Amount := min (v.staked + v.votes) GovTx.u128Max

/-- Higher weight first, then the address. -/
def antes (a b : Validator) : Prop := b.peso < a.peso ∨ (a.peso = b.peso ∧ a.address ≤ b.address)

instance : DecidableRel antes := fun a b => by unfold antes; infer_instance

end Validator

namespace State

variable (s : State)

def paramUsize (nome : String) (padrao : ℕ) : R ℕ :=
  match s.params.get? nome with
  | some v => exigir (parseU64 v) s!"parâmetro {nome} inválido no estado"
  | none => .ok padrao

/-- The accounts that reach the minimum stake, in address order. -/
def candidatos (minStake : Amount) : List Validator :=
  s.accounts.entries.filterMap fun e =>
    if minStake ≤ e.2.staked ∧ ¬ e.2.eavmManaged then
      some ⟨e.1, e.2.staked, s.candidateVotes.getD e.1 0⟩
    else none

def validators : R (List Validator) := do
  let minStake ← s.paramAmount "MIN_VALIDATOR_STAKE" Config.minValidatorStake
  let maximo ← s.paramUsize "MAX_VALIDATORS" Config.maxValidators
  return ((s.candidatos minStake).insertionSort Validator.antes).take maximo

/-- The reward of a height, from the base in force and its halvings. -/
def blockReward (height : ℕ) : R Amount := do
  let base ← s.paramAmount "BLOCK_REWARD" Config.blockReward
  let halvings := height / Config.halvingIntervalBlocks
  return if 64 ≤ halvings then 0 else base / 2 ^ halvings

end State

/-! ## The reward -/

/-- The shares of a reward on a validator with votes: the increment of the
accumulator and what the producer keeps. -/
structure Partilha where
  inc : Amount
  produtor : Amount

def partilhar (reward pct totalVotos : Amount) : R Partilha := do
  let bruto ← produto reward pct "estouro na comissão"
  let comissao := bruto / 100
  let parcela := reward - comissao
  let escala ← produto parcela Config.rewardScale "estouro na escala de recompensa"
  let inc := escala / totalVotos
  let pago ← produto inc totalVotos "estouro no dust"
  return { inc := inc, produtor := comissao + (parcela - pago / Config.rewardScale) }

def distribuirAosVotos (producer : String) (reward totalVotos : Amount) : Op Unit := do
  let s ← get
  let p ← partilhar reward (s.commission.getD producer Config.defaultCommissionPct) totalVotos
  creditar producer p.produtor
  let s ← get
  let acc := s.rewardAccPerVote.getD producer 0
  recusar (u128Limit ≤ acc + p.inc) "estouro no acumulador de recompensa"
  modify fun s => { s with rewardAccPerVote := s.rewardAccPerVote.insert producer (acc + p.inc) }

/-- Splits the treasury cut off a reward. -/
def cortarTesouraria (reward : Amount) : Op Amount := do
  let s ← get
  let pct ← s.paramAmount "TREASURY_PCT" Config.treasuryPct
  let bruto ← produto reward pct "estouro no corte da tesouraria"
  let corte := bruto / 100
  if 0 < corte then
    recusar (u128Limit ≤ s.treasury + corte) "estouro na tesouraria"
    modify fun s => { s with treasury := s.treasury + corte }
    let resto ← sub reward corte
    return resto
  else return reward

def distributeBlockReward (producer : String) (reward : Amount) : Op Unit := do
  let reward ← cortarTesouraria reward
  let s ← get
  let totalVotos := s.candidateVotes.getD producer 0
  if totalVotos = 0 ∨ reward = 0 then creditar producer reward
  else distribuirAosVotos producer reward totalVotos

/-! ## Scheduled changes -/

def listaDeTextos (v : Option JsonValue) : List String :=
  match v with
  | some (.list itens) => itens.filterMap (·.texto?)
  | _ => []

def aplicarComite (v : JsonValue) (s : State) : State :=
  match texto (v.campo "sourceChain") with
  | none => s
  | some sc =>
    if s.bridgeSourceCommittees.contains sc then s
    else { s with
      bridgeSourceCommittees := s.bridgeSourceCommittees.insert sc
        { sourceChain := sc, members := listaDeTextos (v.campo "members"),
          quorum := (GovTx.comoU64 (v.campo "quorum")).getD 0, epoch := 0 } }

def gastarTesouraria (v : JsonValue) : Op Unit :=
  match texto (v.campo "amount"), texto (v.campo "recipient") with
  | some amount, some dest => do
    let amt ← exigir (parseU128 amount) "valor de tesouraria inválido"
    let s ← get
    if amt ≤ s.treasury then do
      set { s with treasury := s.treasury - amt }
      creditar dest amt
  | _, _ => pure ()

def aplicarAtestador (v : JsonValue) (height : ℕ) (s : State) : State :=
  match texto (v.campo "attesterId") with
  | none => s
  | some id => { s with
      aiAttesters := s.aiAttesters.insert id
        { id := id, kind := (texto (v.campo "kind")).getD "TEE",
          members := listaDeTextos (v.campo "members"),
          quorum := (GovTx.comoU64 (v.campo "quorum")).getD 0,
          measurement := (texto (v.campo "measurement")).getD "", registeredAt := height } }

/-- A parameter change would leave no validator. -/
def esvazia (param : String) (s : State) : Bool :=
  (param == "MIN_VALIDATOR_STAKE" || param == "MAX_VALIDATORS") &&
    match GovTx.validadores s none with
    | .ok vs => vs.isEmpty
    | .error _ => true

/-- Overrides a parameter, unless the network would be left without validators. -/
def aplicarParam (param valor : String) (s : State) : State :=
  let novo := { s with params := s.params.insert param valor }
  if esvazia param novo then
    match s.params.get? param with
    | none => { novo with params := novo.params.erase param }
    | some anterior => { novo with params := novo.params.insert param anterior }
  else novo

def aplicaPropostaMadura (param : String) (value : ValorGov) (height : ℕ) : Op Unit :=
  match value with
  | .objeto v =>
    if param = "BRIDGE_COMMITTEE" then modify (aplicarComite (.map v))
    else if param = "TREASURY_SPEND" then gastarTesouraria (.map v)
    else if param = "AI_ATTESTER" then modify (aplicarAtestador (.map v) height)
    else pure ()
  | .inteiro d =>
    if param ∈ ["BRIDGE_COMMITTEE", "TREASURY_SPEND", "AI_ATTESTER"] then pure ()
    else modify (aplicarParam param d)

def removeProposta (id : String) (s : State) : State :=
  { s with proposals := s.proposals.erase id }

def maturaProposta (height : ℕ) (id : String) : Op Unit := do
  let s ← get
  match s.proposals.get? id with
  | none => pure ()
  | some p =>
    if p.state = "QUEUED" ∧ ∃ e ∈ p.executeAt, e ≤ height then do
      aplicaPropostaMadura p.param p.value height
      modify (removeProposta id)
    else if p.state = "VOTING" ∧ p.deadline < height then modify (removeProposta id)

def maturaCadaProposta (height : ℕ) : List String → Op Unit
  | [] => pure ()
  | id :: ids => do
    maturaProposta height id
    maturaCadaProposta height ids

def maturaPropostas (height : ℕ) : Op Unit := do
  let s ← get
  maturaCadaProposta height s.proposals.keys

def expiraOpsMultisig (height : ℕ) (s : State) : State :=
  GovTx.retiraOps (fun op => op.deadline < height) s

def ativaComissoes (height : ℕ) (s : State) : State :=
  let vencidas := s.pendingCommission.entries.filter fun e => decide (e.2.2 ≤ height)
  { s with
    commission := vencidas.foldl (fun m e => m.insert e.1 e.2.1) s.commission
    pendingCommission := s.pendingCommission.filter fun _ c => !decide (c.2 ≤ height) }

/-- A due change, applied when the approvals still authorise it under the
permission of the moment. -/
def aplicarMudanca (conta : String) (pend : PendingPerm) (s : State) : State :=
  match s.permissions.get? conta with
  | none => s
  | some perm =>
    if perm.eV2 && GovTx.autorizaMudanca perm pend.change pend.approvals.keys then
      match GovTx.simularMudanca perm pend.change with
      | .ok nova => GovTx.retiraOps (fun p => p.account == conta)
          { s with permissions := s.permissions.insert conta nova }
      | .error _ => s
    else s

def maturaPermissao (height : ℕ) (conta : String) (s : State) : State :=
  match s.pendingPerm.get? conta with
  | none => s
  | some pend =>
    if ∃ e ∈ pend.executeAt, e ≤ height then
      aplicarMudanca conta pend { s with pendingPerm := s.pendingPerm.erase conta }
    else s

def maturaPermissoes (height : ℕ) (s : State) : State :=
  s.pendingPerm.keys.foldl (fun s conta => maturaPermissao height conta s) s

def creditarTodos : List (String × Amount × ℕ) → Op Unit
  | [] => pure ()
  | u :: us => do
    creditar u.1 u.2.1
    creditarTodos us

/-- Returns the mature withdrawals to their owners. -/
def maturaUnbonding (height : ℕ) : Op Unit := do
  let s ← get
  set { s with unbonding := s.unbonding.filter fun u => !decide (u.2.2 ≤ height) }
  creditarTodos (s.unbonding.filter fun u => decide (u.2.2 ≤ height))

def blockTick (height : ℕ) : Op Unit := do
  maturaPropostas height
  modify (expiraOpsMultisig height)
  modify (ativaComissoes height)
  modify (maturaPermissoes height)
  maturaUnbonding height

/-! ## A block -/

/-- Records the parent hash and reads the block clock. -/
def abreBloco (block : Block) : Op ℕ := do
  if 0 < block.height then modify (·.recordBlockHash (block.height - 1) block.previousHash)
  if block.timestamp < 0 then recusar True "timestamp inválido"
  return block.timestamp.toNat

/-- The reward, its emission and the tick. -/
def fechaBloco (block : Block) : Op Unit := do
  let s ← get
  let recompensa ← s.blockReward block.height
  distributeBlockReward block.validator recompensa
  let s ← get
  recusar (u128Limit ≤ s.totalMinted + recompensa) "estouro no total emitido"
  modify fun s => { s with totalMinted := s.totalMinted + recompensa }
  blockTick block.height

section

variable (amb : Ambiente)

def aplicarTxs (height blockTs : ℕ) : List Tx → Op Unit
  | [] => pure ()
  | tx :: txs => do
    let _ ← applyTransaction amb tx height blockTs
    aplicarTxs height blockTs txs

/-- Runs an already validated block again. -/
def applyBlockTo (block : Block) : Op Unit := do
  let blockTs ← abreBloco block
  aplicarTxs amb block.height blockTs block.transactions
  fechaBloco block

end

/-! ## The genesis -/

section

variable (cr : Cripto)

def amountGenese (v : JsonValue) : R Amount :=
  match v with
  | .str s => exigir (parseU128 s) "valor de gênese inválido"
  | .int n => if 0 ≤ n then .ok n.toNat else erro "valor de gênese negativo"
  | _ => erro "valor de gênese inválido"

/-- The pairs of a map in key order, none for any other value. -/
def paresDe (v : Option JsonValue) : List (String × JsonValue) :=
  match v with
  | some (.map m) => (mapaDe m).entries
  | _ => []

def itensDe (v : Option JsonValue) : List JsonValue :=
  match v with
  | some (.list itens) => itens
  | _ => []

def saldosGenese : List (String × JsonValue) → Op Unit
  | [] => pure ()
  | (endereco, valor) :: resto => do
    let v ← amountGenese valor
    creditar endereco v
    saldosGenese resto

def stakesGenese : List (String × JsonValue) → Op Unit
  | [] => pure ()
  | (endereco, valor) :: resto => do
    let v ← amountGenese valor
    let s ← get
    recusar (u128Limit ≤ (s.account endereco).staked + v) "estouro no stake do gênese"
    modify (·.comConta endereco fun c => { c with staked := c.staked + v })
    stakesGenese resto

def relayersGenese (itens : List JsonValue) (s : State) : State :=
  { s with
    bridgeRelayers := (itens.filterMap (·.texto?)).foldl (fun m r => m.insert r ()) s.bridgeRelayers }

/-- A number read as `Number(v) || padrao`. -/
def inteiroGenese (v : Option JsonValue) (padrao : ℕ) : ℕ :=
  ((v.bind jsNumberSeguroDe).filter fun n : ℤ => 0 < n && n < u64Limit).elim padrao Int.toNat

def vestingGenese (item : JsonValue) : R (Option (String × Vesting)) :=
  match item with
  | .map _ =>
    match texto (item.campo "id"), texto (item.campo "beneficiary") with
    | some id, some benef => do
      let bruto ← exigir (item.campo "total") "vesting do gênese sem total"
      let total ← amountGenese bruto
      return some (id,
        { beneficiary := benef, total := total, claimed := 0, start := 0,
          cliff := inteiroGenese (item.campo "cliff") 0,
          duration := max (inteiroGenese (item.campo "duration") 1) 1 })
    | _, _ => erro "vesting do gênese malformado"
  | _ => .ok none

def vestingsGenese : List JsonValue → Op Unit
  | [] => pure ()
  | item :: itens => do
    let v ← vestingGenese item
    match v with
    | some (id, v) => modify fun s => { s with vesting := s.vesting.insert id v }
    | none => pure ()
    vestingsGenese itens

def comitesGenese (s : State) : List (String × JsonValue) → State
  | [] => s
  | (cadeia, .map c) :: resto =>
    let c := JsonValue.map c
    let chave := cr.toUppercase cadeia
    comitesGenese { s with
      bridgeSourceCommittees := s.bridgeSourceCommittees.insert chave
        { sourceChain := chave
          members := (itensDe (c.campo "members")).map fun m => cr.toLowercase (jsStringDe m)
          quorum := inteiroGenese (c.campo "quorum") 0
          epoch := inteiroGenese (c.campo "epoch") 0 } } resto
  | _ :: resto => comitesGenese s resto

def applyGenesis (alocacoes : JsonValue) : Op Unit :=
  match alocacoes with
  | .map _ => do
    saldosGenese (paresDe (alocacoes.campo "balances"))
    stakesGenese (paresDe (alocacoes.campo "stakes"))
    modify (relayersGenese (itensDe (alocacoes.campo "bridgeRelayers")))
    vestingsGenese (itensDe (alocacoes.campo "vesting"))
    modify fun s => comitesGenese cr s (paresDe (alocacoes.campo "bridgeSourceCommittees"))
  | _ => recusar True "alocações da gênese ausentes"

end

end Eav7
