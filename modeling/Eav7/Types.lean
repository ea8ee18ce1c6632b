import Mathlib.Data.String.Basic
import Eav7.Base.OrdMap
import Eav7.Json

/-!
# Records of the ledger state

One record for each section of the state, with the fields of the source. Money
and heights are natural numbers; the checked 128-bit operations are in `State`.
-/

namespace Eav7

open Base

abbrev Amount := ℕ

/-- The map that a list of pairs denotes; a key found first hides later ones, as
in `JsonValue.campo`. -/
def mapaDe (pares : List (String × JsonValue)) : OrdMap String JsonValue :=
  OrdMap.ofList pares.reverse

/-- A protocol account. The energy and bandwidth counters of the legacy fee
track are carried but never read. -/
structure Account where
  balance : Amount := 0
  nonce : ℕ := 0
  staked : Amount := 0
  energyUsed : ℕ := 0
  energyBlock : ℕ := 0
  bandwidthUsed : ℕ := 0
  bandwidthBlock : ℕ := 0
  gbUsed : ℕ := 0
  gbBlock : ℕ := 0
  delegatedOut : Amount := 0
  delegatedIn : Amount := 0
  eavmManaged : Bool := false
  deriving DecidableEq

instance : Inhabited Account := ⟨{}⟩

structure Vesting where
  beneficiary : String
  total : Amount
  claimed : Amount
  start : ℕ
  cliff : ℕ
  duration : ℕ

/-! ## Tokens, collections and names -/

structure Token where
  standard : String
  id : String
  name : String
  symbol : String
  decimals : ℕ
  totalSupply : Amount
  creator : String
  owner : String
  mintable : Bool
  paused : Bool
  createdAt : ℕ
  balances : OrdMap String Amount
  allowances : OrdMap String (OrdMap String Amount)
  blacklist : OrdMap String Bool
  frozen : OrdMap String (Amount × ℕ)

structure NftToken where
  owner : String
  uri : String

structure Collection where
  standard : String
  id : String
  name : String
  symbol : String
  owner : String
  createdAt : ℕ
  nextId : ℕ
  tokens : OrdMap String NftToken
  approvals : OrdMap String String

structure NameRecord where
  owner : String
  target : String
  registeredAt : ℕ

/-! ## Contracts of the EVM world -/

structure Contract where
  code : String
  storage : OrdMap String String
  balance : Amount
  nonce : ℕ

/-! ## Permissions, pending operations and proposals -/

/-- A weighted threshold over keys. -/
structure Nivel where
  threshold : ℕ
  keys : OrdMap String ℕ

structure Active where
  nivel : Nivel
  name : Option String
  operations : Option (List String)

inductive Permission where
  | v1 (nivel : Nivel)
  | v2 (owner : Nivel) (actives : List Active) (witness recovery : Option String)
      (delayBlocks : ℕ)

/-- A structural change of a permission. -/
inductive Mudanca where
  | owner (nivel : Nivel)
  | active (id : ℕ) (valor : Option Active)
  | witness (chave : Option String)
  | recovery (chave : Option String)
  | delay (blocos : ℕ)

/-- The key that signs blocks for the account. -/
def Permission.witness : Permission → Option String
  | .v1 _ => none
  | .v2 _ _ witness _ _ => witness

structure PendingOp where
  account : String
  op : List (String × JsonValue)
  approvals : OrdMap String ℕ
  weight : ℕ
  permissionId : ℕ
  createdAt : ℤ
  deadline : ℕ

structure PendingPerm where
  change : Mudanca
  approvals : OrdMap String Bool
  vetoes : OrdMap String Bool
  executeAt : Option ℕ
  proposedAt : ℕ

inductive ValorGov where
  | inteiro (texto : String)
  | objeto (campos : List (String × JsonValue))

structure Proposal where
  id : String
  param : String
  value : ValorGov
  proposer : String
  votes : OrdMap String Bool
  deadline : ℕ
  executeAt : Option ℕ
  createdAt : ℤ
  state : String

/-! ## The AI layer -/

structure Oracle where
  address : String
  stake : Amount
  registeredAt : ℕ
  tasksCompleted : ℕ
  completed : ℕ
  failed : ℕ
  slashed : Amount
  reputation : Option ℕ
  bridgeTransfers : ℕ
  endpoint : Option String

inductive Entrega where
  | pendente
  | entregue (oracle : String) (resultUri : Option String)

structure Designada where
  assignedOracle : String
  priv : Bool
  entrega : Entrega

inductive Fase where
  | commit
  | done
  deriving DecidableEq

structure Quorum where
  quorum : ℕ
  phase : Fase
  commitDeadline : ℕ
  revealDeadline : ℕ
  commits : OrdMap String String
  reveals : OrdMap String String
  revealOutputs : OrdMap String String
  winners : Option (List String)

structure Aberta where
  budget : Amount
  bidDeadline : ℕ
  bids : OrdMap String (Amount × ℕ)
  assignedOracle : Option String
  entrega : Entrega

inductive TaskKind where
  | designada (d : Designada)
  | quorum (q : Quorum)
  | aberta (a : Aberta)

inductive Challenge where
  | nenhum
  | janela (deadline : ℕ)
  | disputa (deadline : ℕ) (challenger : String) (bond : Amount) (verdictDeadline : ℕ)
      (votes : OrdMap String Bool)

structure Task where
  id : String
  requester : String
  reward : Amount
  state : String
  deadline : ℕ
  resultHash : Option String
  output : Option String
  prompt : Option String
  params : Option JsonValue
  model : Option String
  createdAt : ℕ
  completedAt : Option ℤ
  verified : Option String
  kind : TaskKind
  challenge : Challenge

structure Attester where
  id : String
  kind : String
  members : List String
  quorum : ℕ
  measurement : String
  registeredAt : ℕ

/-! ## The bridge -/

inductive Liquidacao where
  | travada
  | paga (settledBy : String) (externalTxHash : Option String) (settledAt : ℤ)

structure Saida where
  id : String
  de : String
  targetChain : String
  targetAddress : String
  token : Option String
  amount : Amount
  createdAt : ℤ
  liquidacao : Liquidacao

inductive Estagio where
  | atestada (quorum : ℕ)
  | liberada

structure Entrada where
  id : String
  relayer : String
  para : String
  sourceChain : String
  sourceTxHash : String
  token : Option String
  amount : Amount
  attestations : ℕ
  createdAt : ℤ
  estagio : Estagio

inductive Transfer where
  | saida (s : Saida)
  | entrada (e : Entrada)

structure Attestation where
  para : String
  amount : String
  token : Option String
  relayers : List String
  createdAt : ℤ

structure Release where
  height : ℕ
  asset : String
  amount : Amount

structure Bridge where
  transfers : OrdMap String Transfer := ∅
  lockedNative : Amount := 0
  lockedTokens : OrdMap String Amount := ∅
  processedInbound : OrdMap String String := ∅
  attestations : OrdMap String Attestation := ∅
  releaseLog : List Release := []

structure Committee where
  sourceChain : String
  members : List String
  quorum : ℕ
  epoch : ℕ

/-! ## Transactions -/

/-- A transaction as received; `de` and `para` are its `from` and `to` fields. The
nonce is signed because it is untrusted. -/
structure Tx where
  protocol : String := "eav20"
  scheme : String := "eav7-hybrid-1"
  txType : String
  de : String
  para : Option String := none
  amount : String := "0"
  fee : String := "0"
  nonce : ℤ
  timestamp : ℤ
  data : Option JsonValue := none
  publicKey : Option String := none
  pqPublicKey : Option String := none
  signature : Option String := none
  pqSignature : Option String := none
  id : Option String := none

end Eav7
