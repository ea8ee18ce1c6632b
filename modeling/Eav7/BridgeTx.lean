import Eav7.Permissao
import Eav7.Ambiente

/-!
# The bridge to other chains

Locking for an outgoing transfer, the release of an incoming one under a
committee proof and the circuit breaker, settlement, and the rotation of a
committee. Committee proofs also serve the attested results of the AI layer.
-/

namespace Eav7

open Base

/-! ## Committee proofs -/

def separador : String := String.ofList [Char.ofNat 0x1f]

/-- The 32 big-endian bytes of a number below 2^256. -/
def bytesBE (n : ℕ) : Bytes := (List.range 32).map fun i => UInt8.ofNat (n / 256 ^ (31 - i) % 256)

/-- An integer, `0x` hexadecimal or decimal text as a 256-bit number. -/
def u256Be (v : JsonValue) : Option ℕ :=
  match v with
  | .int n => if 0 ≤ n then some n.toNat else none
  | .str s =>
    let cs := rustTrimChars s.toList
    let hex (h : List Char) := if h.length ≤ 64 then natural? 16 h else none
    match cs with
    | '0' :: 'x' :: h => hex h
    | '0' :: 'X' :: h => hex h
    | _ => (digitos? 10 cs 0).filter (· < 2 ^ 256)
  | _ => none

namespace Cripto

variable (cr : Cripto)

/-- The 0x address that signed a digest, recovered from the signature. -/
def recuperarEndereco (digest : Bytes) (sig : JsonValue) : Option String := do
  let r ← (sig.campo "r").bind u256Be
  let s ← (sig.campo "s").bind u256Be
  let rec_ ← (sig.campo "recId").bind u256Be
  if 3 < rec_ then none
  else
    let ponto ← cr.recupera digest (bytesBE r) (bytesBE s) rec_
    return "0x" ++ hexEncode ((cr.keccak256 ponto).drop 12)

/-- How many distinct members signed, among the first signatures. -/
def verifyCommitteeProof (digest : Bytes) (sigs : Option JsonValue) (members : List String) : ℕ :=
  let membros := (members.map cr.toLowercase).dedup
  let lista := match sigs with
    | some (.list itens) => itens
    | _ => []
  let vistos := (lista.take membros.length).filterMap (cr.recuperarEndereco digest)
  (vistos.filter membros.contains).dedup.length

def digestDe (partes : List String) : Bytes := cr.keccak256 (bytesDe (separador.intercalate partes))

def bridgeEventDigest (sourceChain sourceTxHash para : String) (amount : Amount)
    (token : Option String) : Bytes :=
  cr.digestDe ["EAV7-BRIDGE-IN", cr.toUppercase sourceChain, sourceTxHash, para, toString amount,
    token.getD "NATIVE"]

def committeeUpdateDigest (sourceChain : String) (epoch : ℕ) (members : List String)
    (quorum : ℕ) : Bytes :=
  let ordenados := (members.map cr.toLowercase).insertionSort fun a b => utf16 a ≤ utf16 b
  cr.digestDe (["EAV7-BRIDGE-COMMITTEE", cr.toUppercase sourceChain, toString epoch,
    toString quorum] ++ ordenados)

def aiAttestDigest (taskId resultHash attesterId measurement : String) : Bytes :=
  cr.digestDe ["EAV7-AI-ATTEST", taskId, cr.toLowercase resultHash, attesterId, measurement]

end Cripto

namespace BridgeTx

def bpsDenom : ℕ := 10000
def maxCommitteeMembers : ℕ := 200

def txId (tx : Tx) : R String := exigir tx.id "transação sem id"

def valor (tx : Tx) : R Amount := exigir (parseU128 tx.amount) "amount inválido"

def escalarComoTexto (v : JsonValue) : Option String :=
  match v with
  | .str s => some s
  | .int n => some (toString n)
  | .bool b => some (toString b)
  | _ => none

def token (d : JsonValue) : R (Option String) :=
  match d.campo "token" with
  | none => .ok none
  | some .null => .ok none
  | some v => (exigir (escalarComoTexto v) "token EAV20 inexistente").map some

def nomeDeCadeiaValido (s : String) : Bool :=
  2 ≤ s.toList.length && s.toList.length ≤ 32 &&
    s.toList.all fun c => asciiAlfanumerico c || c == '_' || c == '-'

def cadeia (v : Option JsonValue) (msg : String) : R String :=
  exigir ((texto v).filter nomeDeCadeiaValido) msg

/-- A text of 4 to 128 UTF-16 units. -/
def referencia (v : Option JsonValue) (msg : String) : R String :=
  exigir ((texto v).filter fun s => 4 ≤ jsLen s && jsLen s ≤ 128) msg

def valorPositivo (tx : Tx) : R Amount := do
  let amount ← valor tx
  recusar (amount = 0) "valor da ponte deve ser positivo"
  return amount

section

variable (cr : Cripto)

/-- What an outgoing transfer of an asset costs the sender. -/
def conferirSaida (s : State) (tx : Tx) (ctx : Ctx) (token : Option String) (amount : Amount) :
    R Unit :=
  match token with
  | some t => do
    let tk ← exigir (s.tokens.get? t) "token EAV20 inexistente"
    recusar (tk.saldo tx.de < amount) "saldo do token insuficiente"
    recusar (s.balanceOf tx.de < ctx.fee) "saldo insuficiente para a taxa"
  | none => do
    let total ← soma amount ctx.fee
    recusar (s.balanceOf tx.de < total) "saldo insuficiente"

def travarToken (t de : String) (amount : Amount) : Op Unit := do
  let s ← get
  let tk ← exigir (s.tokens.get? t) "existência conferida acima"
  let novo ← sub (tk.saldo de) amount
  set { s with tokens := s.tokens.insert t { tk with balances := tk.balances.insert de novo } }
  let s ← get
  let travado ← soma (s.bridge.lockedTokens.getD t 0) amount
  modify fun s => { s with
    bridge := { s.bridge with lockedTokens := s.bridge.lockedTokens.insert t travado } }

def travarNativo (amount : Amount) : Op Unit := do
  let s ← get
  let travado ← soma s.bridge.lockedNative amount
  modify fun s => { s with bridge := { s.bridge with lockedNative := travado } }

def registrarTransfer (id : String) (t : Transfer) (s : State) : State :=
  { s with bridge := { s.bridge with transfers := s.bridge.transfers.insert id t } }

def bridgeOut (tx : Tx) (ctx : Ctx) : Op Unit := do
  let s ← get
  let d ← GovTx.dados tx
  let id ← txId tx
  let targetChain ← cadeia (d.campo "targetChain") "targetChain inválida"
  let targetAddress ← referencia (d.campo "targetAddress") "targetAddress inválido"
  let amount ← valorPositivo tx
  let token ← token d
  conferirSaida s tx ctx token amount
  match token with
  | some t => do
    debitar tx.de ctx.fee
    travarToken t tx.de amount
  | none => do
    debitar tx.de (amount + ctx.fee)
    travarNativo amount
  modify <| registrarTransfer id <| .saida
    { id := id, de := tx.de, targetChain := cr.toUppercase targetChain,
      targetAddress := targetAddress, token := token, amount := amount,
      createdAt := tx.timestamp, liquidacao := .travada }

def corteDaJanela (height : ℕ) : ℤ := (height : ℤ) - Config.bridgeBreakerWindowBlocks

/-- What was released of an asset inside the window. -/
def somaJanela (corte : ℤ) (ativo : String) : List Release → Amount → R Amount
  | [], total => .ok total
  | r :: rs, total =>
    if corte < r.height ∧ r.asset = ativo then do somaJanela corte ativo rs (← soma total r.amount)
    else somaJanela corte ativo rs total

def paramBps (s : State) : R ℕ :=
  match s.params.get? "BRIDGE_BREAKER_BPS" with
  | some v => exigir (parseU128 v) "BRIDGE_BREAKER_BPS inválido"
  | none => .ok Config.bridgeBreakerBps

/-- The locked amount of an asset, which a release draws from. -/
def travadoDe (s : State) (token : Option String) : R Amount :=
  match token with
  | some t =>
    if s.tokens.contains t then .ok (s.bridge.lockedTokens.getD t 0)
    else erro "token EAV20 inexistente"
  | none => .ok s.bridge.lockedNative

/-- A release must be locked and fit the velocity limit. -/
def conferirLiberacao (s : State) (token : Option String) (ativo : String) (amount : Amount)
    (height : ℕ) : R Unit := do
  let travado ← travadoDe s token
  recusar (travado < amount)
    (if token.isSome then "ponte não possui tokens travados suficientes"
      else "ponte não possui EAV7 travado suficiente")
  let janela ← somaJanela (corteDaJanela height) ativo s.bridge.releaseLog 0
  let poolInicial ← soma travado janela
  let bps ← paramBps s
  let bruto ← produto poolInicial bps "estouro aritmético no cap do circuit breaker"
  let cap := bruto / bpsDenom
  let total ← soma janela amount
  recusar (cap < total)
    s!"circuit breaker da ponte: limite de velocidade atingido (janela {total} > cap {cap})"

/-- An incoming transfer as read from its transaction. -/
structure Deposito where
  id : String
  para : String
  sourceChain : String
  sourceTxHash : String
  token : Option String
  amount : Amount

namespace Deposito

variable (dep : Deposito)

def ativo : String := dep.token.getD "NATIVE"

def replayKey : String := s!"{cr.toUppercase dep.sourceChain}:{dep.sourceTxHash}"

def attKey : String := s!"{dep.replayKey cr}:{dep.para}:{dep.amount}:{dep.ativo}"

end Deposito

def lerDeposito (s : State) (tx : Tx) : R Deposito := do
  recusar (s.bridgeRelayers.contains tx.de = false)
    "remetente não é um relayer de ponte autorizado"
  let d ← GovTx.dados tx
  let id ← txId tx
  let para ← exigir tx.para "endereço de destino inválido"
  let sourceChain ← cadeia (d.campo "sourceChain") "sourceChain inválida"
  let sourceTxHash ← referencia (d.campo "sourceTxHash") "sourceTxHash inválida"
  let amount ← valorPositivo tx
  let token ← token d
  return { id := id, para := para, sourceChain := sourceChain, sourceTxHash := sourceTxHash,
           token := token, amount := amount }

/-- The proof that the source committee signed the deposit. -/
def conferirProva (s : State) (tx : Tx) (dep : Deposito) : R Unit := do
  let comite ← exigir ((s.bridgeSourceCommittees.get? (cr.toUppercase dep.sourceChain)).filter
    fun c => 0 < c.quorum) s!"sem comitê de origem registrado para {dep.sourceChain}"
  let digest := cr.bridgeEventDigest dep.sourceChain dep.sourceTxHash dep.para dep.amount dep.token
  let sigs := (tx.campo "proof").bind (·.campo "sigs")
  let validas := cr.verifyCommitteeProof digest sigs comite.members
  recusar (validas < comite.quorum) s!"prova do comitê insuficiente ({validas}/{comite.quorum})"

/-- Everything an incoming transfer is checked for. The proof is mandatory, so a
transfer that passes releases at once. -/
def conferirDeposito (s : State) (tx : Tx) (ctx : Ctx) : R Deposito := do
  let dep ← lerDeposito s tx
  recusar (s.bridge.processedInbound.contains (dep.replayKey cr))
    "depósito de origem já processado (replay)"
  recusar (∃ a ∈ s.bridge.attestations.get? (dep.attKey cr), tx.de ∈ a.relayers)
    "relayer já atestou este depósito"
  conferirProva cr s tx dep
  conferirLiberacao s dep.token dep.ativo dep.amount ctx.height
  return dep

/-- The relayers that attested a deposit, the sender among them. -/
def atestadores (s : State) (tx : Tx) (dep : Deposito) : List String :=
  ((s.bridge.attestations.get? (dep.attKey cr)).elim [] (·.relayers)) ++ [tx.de]

def atestar (tx : Tx) (dep : Deposito) (s : State) : State :=
  let att := (s.bridge.attestations.get? (dep.attKey cr)).getD
    { para := dep.para, amount := toString dep.amount, token := dep.token, relayers := [],
      createdAt := tx.timestamp }
  { s with bridge := { s.bridge with
      attestations := s.bridge.attestations.insert (dep.attKey cr)
        { att with relayers := att.relayers ++ [tx.de] } } }

def liberarToken (t para : String) (amount : Amount) : Op Unit := do
  let s ← get
  let travado ← sub (s.bridge.lockedTokens.getD t 0) amount
  modify fun s => { s with
    bridge := { s.bridge with lockedTokens := s.bridge.lockedTokens.insert t travado } }
  let tk ← exigir (s.tokens.get? t) "existência conferida acima"
  let novo ← soma (tk.saldo para) amount
  modify fun s => { s with
    tokens := s.tokens.insert t { tk with balances := tk.balances.insert para novo } }

def liberarNativo (para : String) (amount : Amount) : Op Unit := do
  let s ← get
  let travado ← sub s.bridge.lockedNative amount
  modify fun s => { s with bridge := { s.bridge with lockedNative := travado } }
  creditar para amount

def liberar (token : Option String) (para : String) (amount : Amount) : Op Unit :=
  match token with
  | some t => liberarToken t para amount
  | none => liberarNativo para amount

/-- Records a release: the velocity log, the replay guard and the transfer. -/
def registrarLiberacao (tx : Tx) (ctx : Ctx) (dep : Deposito) (atestacoes : ℕ) (s : State) :
    State :=
  { s with
    bridge := { s.bridge with
      releaseLog := (s.bridge.releaseLog ++ [Release.mk ctx.height dep.ativo dep.amount]).filter
        fun r => corteDaJanela ctx.height < r.height
      processedInbound := s.bridge.processedInbound.insert (dep.replayKey cr) dep.id
      attestations := s.bridge.attestations.erase (dep.attKey cr)
      transfers := s.bridge.transfers.insert dep.id <| .entrada
        { id := dep.id, relayer := tx.de, para := dep.para,
          sourceChain := cr.toUppercase dep.sourceChain, sourceTxHash := dep.sourceTxHash,
          token := dep.token, amount := dep.amount, attestations := atestacoes,
          createdAt := tx.timestamp, estagio := .liberada } } }

/-- The fee in the context is not debited here. -/
def bridgeIn (tx : Tx) (ctx : Ctx) : Op Unit := do
  let s ← get
  let dep ← conferirDeposito cr s tx ctx
  modify (atestar cr tx dep)
  liberar dep.token dep.para dep.amount
  modify (registrarLiberacao cr tx ctx dep (atestadores cr s tx dep).length)

/-- The outgoing transfer of an id, still locked. -/
def saidaTravada (s : State) (id : String) : R Saida :=
  match s.bridge.transfers.get? id with
  | some (.saida o) =>
    match o.liquidacao with
    | .travada => .ok o
    | .paga .. => erro "transferência já liquidada"
  | _ => erro "transferência OUT inexistente"

def bridgeSettle (tx : Tx) (_ctx : Ctx) : Op Unit := do
  let s ← get
  recusar (s.bridgeRelayers.contains tx.de = false)
    "remetente não é um relayer de ponte autorizado"
  let d ← GovTx.dados tx
  let transferId ← exigir (texto (d.campo "transferId")) "transferência OUT inexistente"
  let saida ← saidaTravada s transferId
  modify <| registrarTransfer transferId <| .saida
    { saida with
      liquidacao := .paga tx.de (texto (d.campo "externalTxHash")) tx.timestamp }

/-! ## Committee rotation -/

def inteiro (v : JsonValue) : Option ℕ :=
  (jsNumberSeguroDe v).bind fun n => if 0 ≤ n ∧ n < u64Limit then some n.toNat else none

def membrosNovos (nc : JsonValue) : R (List String) :=
  match nc.campo "members" with
  | some (.list itens) => .ok (itens.map fun m => cr.toLowercase (jsStringDe m))
  | none => .ok []
  | some _ => erro "nº de membros inválido"

/-- The successor that the current committee must have signed. -/
def conferirComite (s : State) (d : JsonValue) : R Committee := do
  let chainKey := cr.toUppercase (((d.campo "sourceChain").bind escalarComoTexto).getD "")
  let atual ← exigir ((s.bridgeSourceCommittees.get? chainKey).filter fun c => 0 < c.quorum)
    "comitê de origem inexistente"
  let nc ← match d.campo "newCommittee" with
    | some (.map m) => (.ok (.map m) : R JsonValue)
    | _ => erro "novo comitê inválido"
  let membros ← membrosNovos cr nc
  let quorum ← exigir ((nc.campo "quorum").bind inteiro) "quorum inválido"
  recusar (membros.length = 0 ∨ maxCommitteeMembers < membros.length) "nº de membros inválido"
  recusar (¬ membros.Nodup) "membros duplicados"
  recusar (quorum = 0 ∨ membros.length < quorum) "quorum inválido"
  recusar (u64Limit ≤ atual.epoch + 1) "estouro aritmético no epoch do comitê"
  let digest := cr.committeeUpdateDigest chainKey (atual.epoch + 1) membros quorum
  let validas := cr.verifyCommitteeProof digest (d.campo "sigs") atual.members
  recusar (validas < atual.quorum)
    s!"handoff sem quórum do comitê atual ({validas}/{atual.quorum})"
  return { sourceChain := chainKey, members := membros, quorum := quorum, epoch := atual.epoch + 1 }

def committeeUpdate (tx : Tx) (ctx : Ctx) : Op Unit := do
  let s ← get
  recusar (s.bridgeRelayers.contains tx.de = false)
    "remetente não é um relayer de ponte autorizado"
  let d ← GovTx.dados tx
  let novo ← conferirComite cr s d
  recusar (s.balanceOf tx.de < ctx.fee) "saldo insuficiente para a taxa"
  debitar tx.de ctx.fee
  modify fun s => { s with
    bridgeSourceCommittees := s.bridgeSourceCommittees.insert novo.sourceChain novo }

end

end BridgeTx
end Eav7
