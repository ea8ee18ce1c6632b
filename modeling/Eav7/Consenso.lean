import Eav7.Blockchain

/-!
# Producing, finality and reorganisation

The block a validator builds at its slot, the height that a quorum of producers
makes final, and the replacement of the end of the chain by a longer one.
-/

namespace Eav7

open Base

/-! ## Building a block -/

def base64Alfabeto : List Char :=
  "ABCDEFGHIJKLMNOPQRSTUVWXYZabcdefghijklmnopqrstuvwxyz0123456789+/".toList

def base64Digito (n : ℕ) : Char := base64Alfabeto.getD (n % 64) 'A'

def base64Chars : Bytes → List Char
  | [] => []
  | [a] =>
    let n := a.toNat * 65536
    [base64Digito (n / 262144), base64Digito (n / 4096), '=', '=']
  | [a, b] =>
    let n := a.toNat * 65536 + b.toNat * 256
    [base64Digito (n / 262144), base64Digito (n / 4096), base64Digito (n / 64), '=']
  | a :: b :: d :: resto =>
    let n := a.toNat * 65536 + b.toNat * 256 + d.toNat
    base64Digito (n / 262144) :: base64Digito (n / 4096) :: base64Digito (n / 64) ::
      base64Digito n :: base64Chars resto

def base64Encode (bs : Bytes) : String := String.ofList (base64Chars bs)

structure BlockSigner where
  publicKeyPem : String
  pqPublicKeyPem : String
  sign : Bytes → Falha (String × String)

/-- The compact form of a public key on the wire. -/
def encodePublicKeyWire (pem : String) : Falha String :=
  match chavePublicaParaDer pem with
  | some der => .ok (base64Encode der)
  | none => falhar "chave pública do produtor inválida: chave ECDSA inválida"

structure BuildParams where
  height : ℕ
  previousHash : String
  timestamp : ℤ
  transactions : List Tx
  stateRoot : Option String
  producerAccount : Option String
  omitPublicKeys : Bool

def enderecoDoProdutor (cr : Cripto) (signer : BlockSigner) : Falha String :=
  match cr.addressFromPublicKeys signer.publicKeyPem signer.pqPublicKeyPem with
  | some a => .ok a
  | none => falhar "chave pública do produtor inválida"

def chavesNoFio (signer : BlockSigner) (omitir : Bool) :
    Falha (Option String × Option String) := do
  if omitir then return (none, none)
  let pk ← encodePublicKeyWire signer.publicKeyPem
  let pq ← encodePublicKeyWire signer.pqPublicKeyPem
  return (some pk, some pq)

def buildBlock (cr : Cripto) (signer : BlockSigner) (p : BuildParams) : Falha Block := do
  let producer ← enderecoDoProdutor cr signer
  let (pk, pq) ← chavesNoFio signer p.omitPublicKeys
  let bloco : Block := {
    height := p.height, timestamp := p.timestamp, previousHash := p.previousHash
    txRoot := cr.blockTxRoot p.transactions, txCount := p.transactions.length
    producer := producer, publicKey := pk, pqPublicKey := pq, stateRoot := p.stateRoot
    producerAccount := p.producerAccount, signature := "", pqSignature := "", hash := ""
    transactions := p.transactions }
  let (assinatura, assinaturaPq) ← signer.sign (bytesDe bloco.payload)
  return { bloco with
    hash := cr.blockHash bloco.payload, signature := assinatura, pqSignature := assinaturaPq }

/-- The answer of a call that may replace the chain. -/
inductive Reorg where
  | manteve
  | adotou (orfas : List Tx)

namespace Blockchain

section

variable (c : Blockchain) (amb : Ambiente)

/-- The block as simulated, before its root and its signatures exist. -/
def esboco (signer : BlockSigner) (produtor : String) (cabeca : Block) (transactions : List Tx)
    (timestamp : ℤ) (producerAccount : Option String) : Block :=
  { height := cabeca.height + 1, timestamp := timestamp, previousHash := cabeca.hash
    txRoot := amb.cripto.blockTxRoot transactions, txCount := transactions.length
    producer := produtor, publicKey := some signer.publicKeyPem
    pqPublicKey := some signer.pqPublicKeyPem, producerAccount := producerAccount
    signature := "", pqSignature := "", hash := "", transactions := transactions }

/-- The block for a slot, with the state and the receipts it leads to. -/
def montarBloco (signer : BlockSigner) (transactions : List Tx) (timestamp : ℤ)
    (producerAccount : Option String) : Falha (Block × Recibos × State) := do
  falharSe (c.hasGenesis = false) "cadeia sem bloco gênese"
  let produtor ← enderecoDoProdutor amb.cripto signer
  let efetivo := producerAccount.getD produtor
  let esperado ← c.expectedProducer timestamp
  let nome := esperado.getD "ninguém"
  falharSe (esperado ≠ some efetivo) s!"slot pertence a {nome}, não a {efetivo}"
  match c.head with
  | none => falhar "cadeia sem bloco gênese"
  | some cabeca => do
    let rascunho := esboco amb signer produtor cabeca transactions timestamp producerAccount
    let (recibos, sim) ← executar (c.simulate amb rascunho) c.state
    let raiz ← (amb.cripto.stateRootOf sim).mapError fun e => s!"estado não codificável: {e}"
    let bloco ← buildBlock amb.cripto signer
      { height := cabeca.height + 1, previousHash := cabeca.hash, timestamp := timestamp
        transactions := transactions, stateRoot := some raiz
        producerAccount := producerAccount
        omitPublicKeys := c.producerKeys.contains produtor }
    return (bloco, recibos, sim)

end

section

variable (amb : Ambiente)

/-- Builds a block and accepts it with the simulation already made. -/
def produceBlock (signer : BlockSigner) (transactions : List Tx) (timestamp : ℤ)
    (producerAccount : Option String) (now : ℤ) : Cadeia Block := do
  let c ← get
  let (bloco, recibos, sim) ← conferir (c.montarBloco amb signer transactions timestamp
    producerAccount)
  conferir (c.conferirBloco amb bloco now)
  gravarBloco amb bloco sim recibos
  return bloco

end

/-! ## Finality -/

section

variable (c : Blockchain)

def acrescenta (produtor : String) (produtores : List String) : List String :=
  if produtor ∈ produtores then produtores else produtor :: produtores

/-- Walks down from a height until a quorum of producers was seen. -/
def procuraFinal (quorum : ℕ) (produtores : List String) : ℕ → ℤ
  | 0 => -1
  | h + 1 =>
    if h + 1 < max c.tailStart 1 then -1
    else match c.getBlock (h + 1) with
      | none => -1
      | some b =>
        let produtores := acrescenta b.producer produtores
        if quorum ≤ produtores.length then h else procuraFinal quorum produtores h

/-- The height that two thirds of the active producers built upon. -/
def finalizedHeight : Falha ℤ := do
  let n := (← ler c.state.validators).length
  if n < Config.finalityMinValidators then return -1
  else return c.procuraFinal (2 * n / 3 + 1) [] c.height.toNat

end

/-! ## Reorganisation -/

/-- Applies again the blocks of the window, in order. -/
def reaplicar (amb : Ambiente) : State → List Block → Falha State
  | s, [] => .ok s
  | s, block :: blocos => do
    let s ← estadoDepois amb s block
    reaplicar amb s blocos

section

variable (c : Blockchain) (amb : Ambiente)

def ancora : Falha State :=
  match c.baseState with
  | some s => .ok s
  | none => falhar "âncora de estado ausente para o reorg"

/-- The state right after the block at the fork. -/
def forkState (common : ℕ) : Falha State := do
  if common + 1 = c.tailStart then c.ancora
  else if c.tailStart = 0 then
    match c.tail with
    | [] => falhar "cadeia sem bloco gênese"
    | genese :: resto => do
      let s ← estadoGenese amb.cripto genese
      reaplicar amb s (resto.take common)
  else
    let s ← c.ancora
    reaplicar amb s (c.tail.take (common + 1 - c.tailStart))

/-- The chain the new blocks are tried on: one block, its state and the ids
already used below it. -/
def candidato (common : ℕ) : Falha Blockchain := do
  let s ← c.forkState amb common
  match c.getBlock common with
  | none => falhar "bloco do fork fora da janela"
  | some b => return {
      expectedGenesisHash := c.expectedGenesisHash, tail := [b], tailStart := common, state := s
      txIndex := c.txIndex.filter fun _ h => decide (h ≤ common) }

def podeReorganizar (common : ℤ) : Falha Unit := do
  let finalizada ← c.finalizedHeight
  let extremos := s!"(comum {common} < final {finalizada})"
  falharSe (common < finalizada)
    s!"reorg rejeitado: tentaria reverter bloco finalizado por BFT {extremos}"
  falharSe (common < (c.tailStart : ℤ) - 1) "reorg além da janela de reorganização"

end

/-- Removes the heights above the fork from the end of an address list. -/
def podaAlturas (common : ℕ) (alturas : List ℕ) : List ℕ :=
  (alturas.reverse.dropWhile fun h => decide (common < h)).reverse

def podaEndereco (common : ℕ) (m : OrdMap String (List ℕ)) (endereco : String) :
    OrdMap String (List ℕ) :=
  match m.get? endereco with
  | none => m
  | some alturas =>
    if podaAlturas common alturas = [] then m.erase endereco
    else m.insert endereco (podaAlturas common alturas)

def podaIndices (common : ℕ) (descartados : List Block) (m : OrdMap String (List ℕ)) :
    OrdMap String (List ℕ) :=
  (descartados.flatMap fun b => b.transactions.flatMap enderecosDe).foldl (podaEndereco common) m

def estendeIndices (novos : OrdMap String (List ℕ)) (m : OrdMap String (List ℕ)) :
    OrdMap String (List ℕ) :=
  novos.entries.foldl (fun m e => m.insert e.1 (m.getD e.1 [] ++ e.2)) m

/-- The transactions of discarded blocks that the new ones do not include. -/
def orfas (descartados : List Block) (txIndex : OrdMap String ℕ) : List Tx :=
  (descartados.flatMap (·.transactions)).filter fun tx => !txIndex.contains (tx.id.getD "")

/-- Memory once the candidate replaced what is above the fork. The old blocks
left the window before the disk was written. -/
def adotar (c : Blockchain) (common : ℕ) (descartados novos : List Block)
    (cand : Blockchain) : Blockchain :=
  { c with
    state := cand.state
    txIndex := cand.txIndex
    addressTxIndex :=
      estendeIndices cand.addressTxIndex (podaIndices common descartados c.addressTxIndex)
    blocksWithTxs := podaAlturas common c.blocksWithTxs ++ cand.blocksWithTxs
    receipts := cand.receipts.entries.foldl (fun m e => m.insert e.1 e.2)
      (c.receipts.filter fun _ r => decide (r.blockHeight ≤ common))
    logIndex := aparar
      ((c.logIndex.filter fun e => decide (e.blockHeight ≤ common)) ++ cand.logIndex)
    internalIndex := aparar
      ((c.internalIndex.filter fun x => decide (x.blockHeight ≤ common)) ++ cand.internalIndex)
    hashes := novos.foldl (fun m b => m.insert b.height b.hash)
      (c.hashes.filter fun h _ => decide (h ≤ common))
    hashIndex := novos.foldl (fun m b => m.insert b.hash b.height)
      (descartados.foldl (fun m b => m.erase b.hash) c.hashIndex)
    tail := c.tail ++ novos }

section

variable (amb : Ambiente)

/-- Appends the new blocks to the disk, one write each. -/
def gravarNovos : List Block → Cadeia Unit
  | [] => pure ()
  | b :: bs => do
    noDisco (·.append b) s!"persistir bloco {b.height}"
    gravarNovos bs

def reescreverDisco (common : ℕ) (novos : List Block) : Cadeia Unit := do
  noDisco (·.truncateFrom (common + 1)) "truncar o rabo antigo no disco"
  gravarNovos novos

def substituir (common : ℕ) (novos : List Block) (cand : Blockchain) : Cadeia Reorg := do
  let c ← get
  let corte := common + 1 - c.tailStart
  let descartados := c.tail.drop corte
  set { c with tail := c.tail.take corte }
  reescreverDisco common novos
  modify (·.adotar common descartados novos cand)
  slideTail amb
  return .adotou (orfas descartados cand.txIndex)

/-- Runs the new blocks on a candidate chain; the caller's chain is not touched. -/
def experimentar (c : Blockchain) (common : ℕ) (novos : List Block) (now : ℤ) :
    Except Interrupcao Blockchain :=
  match c.candidato amb common with
  | .error e => .error (.erro e)
  | .ok cand =>
    match addBlocks amb now novos cand with
    | .ok _ cand => .ok cand
    | .error e _ => .error e

def reorg (common : ℤ) (novos : List Block) (now : ℤ) : Cadeia Reorg := do
  let c ← get
  conferir (falharSe (c.hasGenesis = false) "cadeia sem bloco gênese")
  conferir (falharSe (common < 0 ∨ c.height < common) "ponto de fork inválido")
  if common + novos.length ≤ c.height then return .manteve
  else
    conferir (c.podeReorganizar common)
    let cand ← Base.lift (experimentar amb c common.toNat novos now)
    if cand.height ≤ c.height then return .manteve
    else substituir amb common.toNat novos cand

/-- The highest position where the received chain has the hash of this one. -/
def procuraComum (c : Blockchain) (blocos : List Block) : ℕ → ℤ
  | 0 => -1
  | h + 1 =>
    if blocos[h]?.map (·.hash) = c.hashAt h then h else procuraComum c blocos h

def replaceChain (blocos : List Block) (now : ℤ) : Cadeia Reorg := do
  let c ← get
  match blocos with
  | [] => return .manteve
  | genese :: resto =>
    if c.hasGenesis = false then do
      adoptGenesis amb genese
      addBlocks amb now resto
      return .adotou []
    else if (resto.length : ℤ) ≤ c.height then return .manteve
    else do
      conferir (falharSe (c.hashAt 0 ≠ some genese.hash)
        "gênese divergente: a cadeia recebida pertence a outra rede")
      let comum := c.procuraComum blocos ((min c.height resto.length).toNat + 1)
      reorg amb comum (blocos.drop (comum + 1).toNat) now

end
end Blockchain
end Eav7
