import Eav7.BlockTick
import Eav7.Leaves

/-!
# The chain in memory

A window of blocks over an optional disk, the state at its tip, the state below
the window and the indices. Accepting a block checks it, simulates it on a copy
of the state, writes the disk and only then the memory.
-/

namespace Eav7

open Base

/-- Why a call did not return: an error for the caller, or the abort of the
process on a corrupt anchor. -/
inductive Interrupcao where
  | erro (msg : String)
  | aborta (motivo : String)

/-- The block file, with the outcome of each write still to come: `true` when
the operating system refuses it. -/
structure Disco where
  linhas : List Block := []
  falhas : List Bool := []

namespace Disco

/-- One fallible write: the new contents of the file, or a refusal. -/
def escrever (d : Disco) (linhas : List Block) : Bool × Disco :=
  match d.falhas with
  | true :: resto => (false, { d with falhas := resto })
  | false :: resto => (true, { linhas := linhas, falhas := resto })
  | [] => (true, { d with linhas := linhas })

def append (d : Disco) (block : Block) : Bool × Disco := d.escrever (d.linhas ++ [block])

/-- A height beyond the file leaves nothing to do. -/
def truncateFrom (d : Disco) (height : ℕ) : Bool × Disco :=
  if height < d.linhas.length then d.escrever (d.linhas.take height) else (true, d)

def reset (d : Disco) (block : Block) : Bool × Disco := d.escrever [block]

def hashAt (d : Disco) (height : ℕ) : Option String := d.linhas[height]?.map (·.hash)

end Disco

structure Recibo where
  success : Bool
  gasUsed : ℕ
  contract : Option String
  blockHeight : ℕ

structure EventoIndexado where
  txId : String
  blockHeight : ℕ
  blockTime : ℤ
  log : Eavm.Log

structure TransferenciaInterna where
  txId : String
  blockHeight : ℕ
  blockTime : ℤ
  xfer : EavmTx.EavmXfer

structure Blockchain where
  receipts : OrdMap String Recibo := ∅
  logIndex : List EventoIndexado := []
  internalIndex : List TransferenciaInterna := []
  tail : List Block := []
  tailStart : ℕ := 0
  baseState : Option State := none
  state : State := {}
  hashes : OrdMap ℕ String := ∅
  hashIndex : OrdMap String ℕ := ∅
  txIndex : OrdMap String ℕ := ∅
  addressTxIndex : OrdMap String (List ℕ) := ∅
  blocksWithTxs : List ℕ := []
  expectedGenesisHash : Option String := none
  store : Option Disco := none
  loading : Bool := false
  producerKeys : OrdMap String (String × String) := ∅

abbrev Cadeia (α : Type) := EStateM Interrupcao Blockchain α

abbrev Recibos := List (String × EavmTx.EavmOutcome)

/-- Runs a ledger operation on a copy of a state. -/
def executar {α : Type} (m : Op α) (s : State) : Falha (α × State) :=
  match m s with
  | .ok a s' => .ok (a, s')
  | .error e _ => .error e.msg

def ler {α : Type} (x : R α) : Falha α := x.mapError (·.msg)

/-- A check of the chain: it reads, and its failure is an error of the call. -/
def conferir {α : Type} (x : Falha α) : Cadeia α := Base.lift (x.mapError .erro)

def abortar {α : Type} (motivo : String) : Cadeia α := throw (.aborta motivo)

/-- Keeps the last entries of a ring. -/
def aparar {α : Type} (anel : List α) : List α := anel.drop (anel.length - Config.maxLogIndex)

namespace Blockchain

variable (c : Blockchain)

def head : Option Block := c.tail.getLast?

def height : ℤ := c.head.elim (-1) fun b => b.height

def hasGenesis : Bool := !c.tail.isEmpty

def hashAt (height : ℕ) : Option String :=
  match c.hashes.get? height with
  | some h => some h
  | none => c.store.bind (·.hashAt height)

def slotFor (timestamp : ℤ) : ℤ := timestamp.fdiv Config.blockTimeMs

def expectedProducer (timestamp : ℤ) : Falha (Option String) := do
  let vals ← ler c.state.validators
  return vals[((slotFor timestamp).fmod vals.length).toNat]?.map (·.address)

def getBlock (height : ℕ) : Option Block :=
  if c.height < 0 ∨ c.height.toNat < height ∨ height < c.tailStart then none
  else c.tail[height - c.tailStart]?

/-! ## Indices -/

/-- The addresses a transaction is indexed under. -/
def enderecosDe (tx : Tx) : List String := tx.de :: tx.para.toList

def anotaEndereco (height : ℕ) (m : OrdMap String (List ℕ)) (endereco : String) :
    OrdMap String (List ℕ) :=
  let alturas := m.getD endereco []
  m.insert endereco (if alturas.getLast? = some height then alturas else alturas ++ [height])

def indexAddressTxs (block : Block) : Blockchain :=
  { c with
    blocksWithTxs :=
      if block.transactions = [] then c.blocksWithTxs else c.blocksWithTxs ++ [block.height]
    addressTxIndex :=
      (block.transactions.flatMap enderecosDe).foldl (anotaEndereco block.height)
        c.addressTxIndex }

def reciboDe (block : Block) (r : EavmTx.EavmOutcome) : Recibo :=
  { success := r.success, gasUsed := r.gasUsed
    contract := if r.isDeploy then some r.contractAddr else none
    blockHeight := block.height }

def registrarRecibos (block : Block) (recibos : Recibos) : Blockchain :=
  { c with
    receipts := recibos.foldl (fun m r => m.insert r.1 (reciboDe block r.2)) c.receipts
    logIndex := aparar <| c.logIndex ++ recibos.flatMap fun r =>
      r.2.logs.map fun log => ⟨r.1, block.height, block.timestamp, log⟩
    internalIndex := aparar <| c.internalIndex ++ recibos.flatMap fun r =>
      r.2.xfers.map fun x => ⟨r.1, block.height, block.timestamp, x⟩ }

def indexTxs (height : ℕ) (txs : List Tx) (m : OrdMap String ℕ) : OrdMap String ℕ :=
  (txs.filterMap (·.id)).foldl (fun m id => m.insert id height) m

def lembraChaves (block : Block) (m : OrdMap String (String × String)) :
    OrdMap String (String × String) :=
  match block.publicKey, block.pqPublicKey with
  | some pk, some pq => m.insert block.producer (pk, pq)
  | _, _ => m

/-- What memory becomes once a block was simulated and is on disk. -/
def aceitar (block : Block) (sim : State) (recibos : Recibos) : Blockchain :=
  let c := { c with
    state := sim
    hashes := c.hashes.insert block.height block.hash
    hashIndex := c.hashIndex.insert block.hash block.height
    txIndex := indexTxs block.height block.transactions c.txIndex }
  let c := (c.indexAddressTxs block).registrarRecibos block recibos
  { c with
    producerKeys := lembraChaves block c.producerKeys
    tail := c.tail ++ [block] }

/-! ## Checks -/

def conferirCabeca (block : Block) : Falha Unit :=
  match c.head with
  | none => falhar "cadeia sem bloco gênese"
  | some h => do
    falharSe (block.height ≠ h.height + 1)
      s!"altura inválida (esperada {h.height + 1}, recebida {block.height})"
    falharSe (block.previousHash ≠ h.hash) "previousHash não aponta para a cabeça da cadeia"
    falharSe (block.timestamp ≤ h.timestamp) "timestamp do bloco não avança"
    falharSe (slotFor block.timestamp ≤ slotFor h.timestamp)
      "slot já ocupado: no máximo um bloco por slot"
    falharSe (Config.maxTxsPerBlock < block.transactions.length)
      "bloco excede o limite de transações"

/-- A block signed by another key needs it registered as the account's witness. -/
def conferirWitness (block : Block) : Falha Unit :=
  match block.producerAccount with
  | none => .ok ()
  | some conta =>
    falharSe ((c.state.permissions.get? conta).bind (·.witness) ≠ some block.producer)
      "assinante não é a chave witness registrada para a conta produtora"

def conferirProdutor (block : Block) (now : ℤ) : Falha Unit := do
  falharSe (slotFor (now + Config.slotFutureToleranceMs) < slotFor block.timestamp)
    "bloco pertence a um slot futuro"
  falharSe (now + Config.maxClockDriftMs < block.timestamp) "timestamp do bloco está no futuro"
  let vals ← ler c.state.validators
  falharSe (vals = []) "nenhum validador ativo na rede"
  c.conferirWitness block
  let esperado ← c.expectedProducer block.timestamp
  let nome := esperado.getD "undefined"
  falharSe (esperado ≠ some block.validator)
    s!"produtor fora do slot (esperado {nome}, recebido {block.validator})"

section

variable (amb : Ambiente)

def conferirBloco (block : Block) (now : ℤ) : Falha Unit := do
  falharSe (c.hasGenesis = false) "cadeia sem bloco gênese"
  amb.cripto.verifyBlockIntegrityEx block (c.producerKeys.get? block.producer)
  c.conferirCabeca block
  if c.loading then return ()
  c.conferirProdutor block now

/-! ## Simulation -/

/-- Validates one transaction of a block against those seen before it. -/
def conferirTx (tx : Tx) (vistas : List String) : R Unit := do
  let id := tx.id.getD "?"
  (amb.verifyTransaction tx).mapError fun e => ⟨s!"transação {id} inválida: {e}"⟩
  recusar (id ∈ vistas ∨ c.txIndex.contains id) s!"transação duplicada: {id}"

def reciboDaTx (tx : Tx) (aplicada : AppliedTx) : Recibos :=
  aplicada.eavm.toList.map fun r => (tx.id.getD "?", r)

def simulateTxs (height blockTs : ℕ) (vistas : List String) : List Tx → Op Recibos
  | [] => pure []
  | tx :: txs => do
    c.conferirTx amb tx vistas
    let aplicada ← applyTransaction amb tx height blockTs
    let resto ← simulateTxs height blockTs (tx.id.getD "?" :: vistas) txs
    return reciboDaTx tx aplicada ++ resto

/-- Applies a block with every check of a block not seen before. -/
def simulate (block : Block) : Op Recibos := do
  let blockTs ← abreBloco block
  let recibos ← c.simulateTxs amb block.height blockTs [] block.transactions
  fechaBloco block
  return recibos

def conferirStateRoot (block : Block) (sim : State) : Falha Unit := do
  let calculada ← (amb.cripto.stateRootOf sim).mapError fun e => s!"estado não codificável: {e}"
  let recebida := block.stateRoot.getD ""
  falharSe (calculada ≠ recebida)
    s!"stateRoot não confere (esperado {calculada}, recebido {recebida})"

def simularBloco (block : Block) : Falha (Recibos × State) := do
  let (recibos, sim) ← executar (c.simulate amb block) c.state
  conferirStateRoot amb block sim
  return (recibos, sim)

end

/-! ## Disk -/

/-- Runs a write of the disk, when there is one and the chain is not loading
from it. -/
def noDisco (escrita : Disco → Bool × Disco) (msg : String) : Cadeia Unit := do
  let c ← get
  match c.store with
  | none => pure ()
  | some d =>
    if c.loading then pure ()
    else do
      let (gravou, d) := escrita d
      set { c with store := some d }
      if gravou then pure () else conferir (falhar msg)

/-! ## The window -/

def limiteJanela : ℕ := Config.reorgWindow + 100

/-- The blocks that the window holds beyond its limit. -/
def excesso : ℕ := c.tail.length - limiteJanela

def alocacoesDe (block : Block) : Falha JsonValue :=
  match block.genesis with
  | some a => .ok a
  | none => falhar "alocações da gênese ausentes"

/-- The state right after a genesis block. -/
def estadoGenese (cr : Cripto) (block : Block) : Falha State := do
  let alocacoes ← alocacoesDe block
  let (_, s) ← executar (applyGenesis cr alocacoes) {}
  return s

def estadoDepois (amb : Ambiente) (s : State) (block : Block) : Falha State := do
  let (_, s) ← executar (applyBlockTo amb block) s
  return s

section

variable (amb : Ambiente)

/-- The anchor once the oldest block of the window left it: the genesis
allocations for the genesis, the previous anchor moved one block up for any
other. -/
def novaAncora (saindo : Block) : Falha State :=
  match c.baseState with
  | some base => estadoDepois amb base saindo
  | none =>
    if c.tailStart = 0 then estadoGenese amb.cripto saindo
    else falhar "âncora ausente com a janela já deslocada"

/-- Moves the oldest block of the window into the anchor. A block that does not
apply again aborts the process. -/
def evictOldest : Cadeia Unit := do
  let c ← get
  match c.tail with
  | [] => pure ()
  | saindo :: resto =>
    match c.novaAncora amb saindo with
    | .error e => abortar s!"âncora de estado corrompida em tail_start={c.tailStart}: {e}"
    | .ok base =>
      set { c with
        tail := resto, baseState := some base, hashes := c.hashes.erase saindo.height
        tailStart := c.tailStart + 1 }

/-- Evicts as many blocks as the window holds in excess. -/
def evictar : ℕ → Cadeia Unit
  | 0 => pure ()
  | n + 1 => do
    evictOldest amb
    evictar n

def slideTail : Cadeia Unit := do
  let c ← get
  if c.store.isSome then evictar amb c.excesso else pure ()

/-! ## Accepting blocks -/

/-- The end of `add_block`, common to a received block and to one produced here. -/
def gravarBloco (block : Block) (sim : State) (recibos : Recibos) : Cadeia Unit := do
  noDisco (·.append block) s!"bloco {block.height} recusado: falha ao persistir"
  modify (·.aceitar block sim recibos)
  slideTail amb

def addBlock (block : Block) (now : ℤ) : Cadeia Unit := do
  let c ← get
  conferir (c.conferirBloco amb block now)
  let (recibos, sim) ← conferir (c.simularBloco amb block)
  gravarBloco amb block sim recibos

def addBlocks (now : ℤ) : List Block → Cadeia Unit
  | [] => pure ()
  | block :: blocos => do
    addBlock amb block now
    addBlocks now blocos

def conferirGenese (block : Block) : Falha State := do
  (amb.cripto.verifyBlockIntegrity block).mapError fun e => s!"gênese inválida: {e}"
  falharSe (block.height ≠ 0) "bloco gênese deve ter altura 0"
  let fixado := c.expectedGenesisHash.getD block.hash
  falharSe (block.hash ≠ fixado) s!"gênese não confere com o hash fixado ({fixado})"
  estadoGenese amb.cripto block

/-- Memory after a genesis; the receipts and logs of an earlier chain stay. -/
def comGenese (block : Block) (estado : State) : Blockchain :=
  { c with
    tail := [block], tailStart := 0, baseState := none, state := estado
    hashes := OrdMap.empty.insert 0 block.hash
    hashIndex := OrdMap.empty.insert block.hash 0
    txIndex := ∅, addressTxIndex := ∅, blocksWithTxs := [], producerKeys := ∅ }

def adoptGenesis (block : Block) : Cadeia Unit := do
  let c ← get
  let estado ← conferir (c.conferirGenese amb block)
  modify (·.comGenese block estado)
  noDisco (·.reset block) "gravar gênese"

end
end Blockchain
end Eav7
