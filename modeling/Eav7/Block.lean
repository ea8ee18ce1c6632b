import Eav7.Cripto

/-!
# Blocks

The hashed core of a block, its integrity check, and the reading of blocks and
transactions from JSON. The hash covers the core, so neither the signatures nor
the transaction bodies enter it except through the Merkle root.
-/

namespace Eav7

structure Block where
  protocol : String := "eav20"
  version : ℤ := 1
  scheme : String := signatureScheme
  height : ℕ
  timestamp : ℤ
  previousHash : String
  txRoot : String
  txCount : ℕ
  producer : String
  publicKey : Option String := none
  pqPublicKey : Option String := none
  stateRoot : Option String := none
  producerAccount : Option String := none
  genesis : Option JsonValue := none
  signature : String
  pqSignature : String
  hash : String
  transactions : List Tx

def genesisPreviousHash : String :=
  "0000000000000000000000000000000000000000000000000000000000000000"

def genesisSignature : String := "GENESIS"
def genesisProducer : String := "GENESIS"

abbrev Falha (α : Type) := Except String α

def falhar {α : Type} (msg : String) : Falha α := .error msg

def falharSe (c : Prop) [Decidable c] (msg : String) : Falha Unit :=
  if c then falhar msg else .ok ()

theorem falharSe_eq_ok {c : Prop} [Decidable c] {msg : String} {u : Unit} :
    falharSe c msg = .ok u ↔ ¬ c := by
  unfold falharSe falhar
  split_ifs with h <;> simp [h]

namespace Block

variable (block : Block)

/-- The account credited and counted for the block. -/
def validator : String := block.producerAccount.getD block.producer

/-- The fields under the block hash. `stateRoot` is emitted as null when a block
other than the genesis lacks it. -/
def core : JsonValue :=
  .map <|
    ([("protocol", .str block.protocol), ("version", .int block.version),
      ("scheme", .str block.scheme), ("height", .int (min block.height i64Max)),
      ("timestamp", .int block.timestamp), ("previousHash", .str block.previousHash),
      ("txRoot", .str block.txRoot), ("txCount", .int block.txCount),
      ("producer", .str block.producer), ("publicKey", block.publicKey.elim .null .str),
      ("pqPublicKey", block.pqPublicKey.elim .null .str)] : List (String × JsonValue)) ++
    (match block.stateRoot with
      | some r => [("stateRoot", .str r)]
      | none => if block.genesis.isSome then [] else [("stateRoot", .null)]) ++
    campoOpcional "producerAccount" block.producerAccount ++
    (match block.genesis with
      | some g => [("genesis", g)]
      | none => [])

def payload : String := canonicalJson block.core

def txIds : List String := block.transactions.map fun tx => tx.id.getD "undefined"

end Block

/-- The 64 lower-case hexadecimal digits of a hash. -/
def isValidHash (value : String) : Bool :=
  value.toList.length == 64 &&
    value.toList.all fun c => ('0' ≤ c && c ≤ '9') || ('a' ≤ c && c ≤ 'f')

namespace Cripto

variable (cr : Cripto)

def blockHash (payload : String) : String := cr.eavHashOne payload

def blockTxRoot (transactions : List Tx) : String :=
  cr.merkleRoot (transactions.map fun tx => tx.id.getD "undefined")

/-- The header checks that the genesis shares with every other block. -/
def verifyBlockHeader (block : Block) : Falha Unit := do
  falharSe (block.protocol ≠ Config.protocol) s!"protocolo inválido (esperado {Config.protocol})"
  falharSe (block.scheme ≠ signatureScheme)
    s!"esquema de assinatura inválido (esperado {signatureScheme})"
  falharSe (maxSafeInteger < block.height) "altura inválida"
  falharSe (block.timestamp ≤ 0 ∨ maxSafeInteger < block.timestamp) "timestamp inválido"
  falharSe (block.txCount ≠ block.transactions.length) "txCount não confere"
  falharSe (block.txRoot ≠ cr.blockTxRoot block.transactions) "txRoot não confere"
  falharSe (block.hash ≠ cr.blockHash block.payload) "hash do bloco não confere"

def verifyGenesis (block : Block) : Falha Unit := do
  falharSe (block.signature ≠ genesisSignature ∨ block.producer ≠ genesisProducer)
    "bloco gênese malformado"
  match block.genesis with
  | some (.map _) => .ok ()
  | _ => falhar "alocações da gênese ausentes"

/-- The keys a block is verified with: its own, or the known ones when it
carries neither. -/
def chavesDoBloco (block : Block) (knownKeys : Option (String × String)) :
    Falha (String × String) :=
  match block.publicKey, block.pqPublicKey, knownKeys with
  | some a, some b, _ => .ok (a, b)
  | none, none, some chaves => .ok chaves
  | _, _, _ => falhar "chave pública do produtor inválida"

def verifyProducerAccount (block : Block) : Falha Unit :=
  match block.producerAccount with
  | none => .ok ()
  | some conta => do
    falharSe (cr.isValidAddress conta = false) "producerAccount inválido"
    falharSe (conta = block.producer) "producerAccount igual ao produtor (redundante)"

def verifyBlockIntegrityEx (block : Block) (knownKeys : Option (String × String)) :
    Falha Unit := do
  cr.verifyBlockHeader block
  if block.height = 0 then verifyGenesis block
  else
    falharSe ((block.stateRoot.map isValidHash) ≠ some true) "stateRoot ausente ou malformado"
    cr.verifyProducerAccount block
    let (pk, pqpk) ← chavesDoBloco block knownKeys
    match cr.addressFromPublicKeys pk pqpk with
    | none => falhar "chave pública do produtor inválida"
    | some derivado =>
      falharSe (derivado ≠ block.producer) "produtor não corresponde às chaves públicas"
      falharSe (cr.hybridVerify pk pqpk (bytesDe block.payload) block.signature
        block.pqSignature = false) "assinatura híbrida do produtor inválida"

def verifyBlockIntegrity (block : Block) : Falha Unit := cr.verifyBlockIntegrityEx block none

end Cripto

/-! ## Reading from JSON -/

def textoOuNulo (v : Option JsonValue) : Falha (Option String) :=
  match v with
  | none => .ok none
  | some .null => .ok none
  | some (.str s) => .ok (some s)
  | some _ => falhar "campo de texto inválido"

def textoComPadrao (v : Option JsonValue) (padrao : String) : Falha String :=
  match v with
  | none => .ok padrao
  | some (.str s) => .ok s
  | some _ => falhar "campo de texto inválido na transação"

def inteiroComPadrao (v : Option JsonValue) (padrao : ℤ) : Falha ℤ :=
  match v with
  | none => .ok padrao
  | some (.int n) => .ok n
  | some _ => falhar "campo numérico inválido na transação"

def txFromJson (v : JsonValue) : Falha Tx :=
  match v with
  | .map _ => do
    let protocol ← textoComPadrao (v.campo "protocol") ""
    let scheme ← textoComPadrao (v.campo "scheme") ""
    let txType ← textoComPadrao (v.campo "type") ""
    let de ← textoComPadrao (v.campo "from") ""
    let para ← textoOuNulo (v.campo "to")
    let amount ← textoComPadrao (v.campo "amount") "0"
    let fee ← textoComPadrao (v.campo "fee") "0"
    let nonce ← inteiroComPadrao (v.campo "nonce") 0
    let timestamp ← inteiroComPadrao (v.campo "timestamp") 0
    let publicKey ← textoOuNulo (v.campo "publicKey")
    let pqPublicKey ← textoOuNulo (v.campo "pqPublicKey")
    let signature ← textoOuNulo (v.campo "signature")
    let pqSignature ← textoOuNulo (v.campo "pqSignature")
    let id ← textoOuNulo (v.campo "id")
    return {
      protocol := protocol, scheme := scheme, txType := txType, de := de, para := para,
      amount := amount, fee := fee, nonce := nonce, timestamp := timestamp,
      data := v.campo "data", publicKey := publicKey, pqPublicKey := pqPublicKey,
      signature := signature, pqSignature := pqSignature, id := id }
  | _ => falhar "transação inválida na evidência"

/-- A text field of a block, empty when absent or of another type. -/
def textoOuVazio (v : Option JsonValue) : String := (v.bind (·.texto?)).getD ""

def naturalDe (v : Option JsonValue) (msg : String) : Falha ℕ :=
  match v with
  | some (.int n) => if 0 ≤ n then .ok n.toNat else falhar msg
  | _ => falhar msg

def blockFromJson (v : JsonValue) : Falha Block :=
  match v with
  | .map _ => do
    let height ← naturalDe (v.campo "height") "altura inválida"
    let transactions ← match v.campo "transactions" with
      | some (.list itens) => itens.mapM txFromJson
      | _ => falhar "lista de transações inválida"
    let txCount ← naturalDe (v.campo "txCount") "txCount não confere"
    let publicKey ← textoOuNulo (v.campo "publicKey")
    let pqPublicKey ← textoOuNulo (v.campo "pqPublicKey")
    let stateRoot ← textoOuNulo (v.campo "stateRoot")
    let producerAccount ← textoOuNulo (v.campo "producerAccount")
    return {
      protocol := textoOuVazio (v.campo "protocol")
      version := ((v.campo "version").bind (·.inteiro?)).getD 0
      scheme := textoOuVazio (v.campo "scheme")
      height := height
      timestamp := ((v.campo "timestamp").bind (·.inteiro?)).getD 0
      previousHash := textoOuVazio (v.campo "previousHash")
      txRoot := textoOuVazio (v.campo "txRoot")
      txCount := txCount
      producer := textoOuVazio (v.campo "producer")
      publicKey := publicKey, pqPublicKey := pqPublicKey, stateRoot := stateRoot
      producerAccount := producerAccount
      genesis := v.campo "genesis"
      signature := textoOuVazio (v.campo "signature")
      pqSignature := textoOuVazio (v.campo "pqSignature")
      hash := textoOuVazio (v.campo "hash")
      transactions := transactions }
  | _ => falhar "bloco ausente"

/-! ## Writing to JSON -/

/-- A whole transaction: the recipient is always there, the optional fields only
when they have a value. -/
def txToJson (tx : Tx) : JsonValue :=
  .map <|
    ([("protocol", .str tx.protocol), ("scheme", .str tx.scheme), ("type", .str tx.txType),
      ("from", .str tx.de), ("to", tx.para.elim .null .str), ("amount", .str tx.amount),
      ("fee", .str tx.fee), ("nonce", .int tx.nonce),
      ("timestamp", .int tx.timestamp)] : List (String × JsonValue)) ++
    (match tx.data with
      | some d => [("data", d)]
      | none => []) ++
    campoOpcional "publicKey" tx.publicKey ++ campoOpcional "pqPublicKey" tx.pqPublicKey ++
    campoOpcional "signature" tx.signature ++ campoOpcional "pqSignature" tx.pqSignature ++
    campoOpcional "id" tx.id

/-- A whole block: the hashed core and the four fields outside it. -/
def blockToJson (block : Block) : JsonValue :=
  match block.core with
  | .map pares =>
    .map (pares ++
      [("signature", .str block.signature), ("pqSignature", .str block.pqSignature),
        ("hash", .str block.hash), ("transactions", .list (block.transactions.map txToJson))])
  | v => v

/-! ## Blocks written and read back -/

section

variable {tx : Tx} {b : Block}

theorem lookup_campoOpcional (chave k : String) (x : Option String) :
    (campoOpcional chave x).lookup k = if k = chave then x.map .str else none := by
  unfold campoOpcional
  cases x with
  | none => simp
  | some s =>
    by_cases h : k = chave
    · simp [h]
    · simp [List.lookup_cons, beq_eq_false_iff_ne.mpr h, h]

theorem textoOuNulo_ausente : textoOuNulo none = .ok none := rfl

@[simp] theorem textoOuNulo_map (x : Option String) : textoOuNulo (x.map .str) = .ok x := by
  cases x <;> rfl

theorem textoOuNulo_texto (s : String) : textoOuNulo (some (.str s)) = .ok (some s) := rfl

theorem textoOuNulo_nulo : textoOuNulo (some .null) = .ok none := rfl

@[simp] theorem textoOuNulo_elim (x : Option String) :
    textoOuNulo (some (x.elim .null .str)) = .ok x := by
  cases x <;> rfl

/-- A written transaction reads back. -/
theorem txFromJson_txToJson (tx : Tx) : txFromJson (txToJson tx) = .ok tx := by
  obtain ⟨protocol, scheme, txType, de, para, amount, fee, nonce, timestamp, data, pk, pq, sig,
    pqSig, id⟩ := tx
  unfold txFromJson txToJson
  cases data <;>
    simp [JsonValue.campo, List.lookup_append, lookup_campoOpcional, List.lookup_cons, textoComPadrao,
      inteiroComPadrao, bind, Except.bind, pure, Except.pure]

theorem mapM_txFromJson (txs : List Tx) :
    (txs.mapM (txFromJson ∘ txToJson) : Falha (List Tx)) = .ok txs := by
  induction txs with
  | nil => rfl
  | cons tx txs ih =>
    rw [List.mapM_cons, ih, Function.comp_apply, txFromJson_txToJson]
    rfl

theorem naturalDe_natCast (n : ℕ) (msg : String) : naturalDe (some (.int n)) msg = .ok n := by
  simp [naturalDe]

/-- A written block reads back. -/
theorem blockFromJson_blockToJson (h : (b.height : ℤ) ≤ i64Max) :
    blockFromJson (blockToJson b) = .ok b := by
  obtain ⟨protocol, version, scheme, height, timestamp, previousHash, txRoot, txCount, producer,
    pk, pq, stateRoot, conta, genesis, sig, pqSig, hash, txs⟩ := b
  have halt : min (height : ℤ) i64Max = height := min_eq_left h
  unfold blockFromJson blockToJson Block.core
  cases stateRoot <;> cases genesis <;>
    simp [JsonValue.campo, List.lookup_append, lookup_campoOpcional, List.lookup_cons, halt,
      naturalDe_natCast, mapM_txFromJson, textoOuVazio, JsonValue.texto?, JsonValue.inteiro?,
      bind, Except.bind, pure, Except.pure, textoOuNulo_texto, textoOuNulo_nulo,
      textoOuNulo_ausente]

end

end Eav7
