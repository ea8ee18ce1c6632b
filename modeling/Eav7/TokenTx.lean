import Eav7.Value

/-!
# EAV20 token transactions

Creation, transfers with allowances, and the owner's administration of a token:
mint, burn, pause, blacklist and freezing.
-/

namespace Eav7

open Base

namespace Token

variable (t : Token)

def saldo (addr : String) : Amount := t.balances.getD addr 0

/-- The balance less what is frozen and not yet unlocked. -/
def disponivel (addr : String) (height : ℕ) : Amount :=
  match t.frozen.get? addr with
  | some (congelado, unlockAt) =>
    if height < unlockAt then t.saldo addr - congelado else t.saldo addr
  | none => t.saldo addr

def allowance (owner spender : String) : Amount := (t.allowances.getD owner ∅).getD spender 0

def bloqueado (addr : String) : Bool := t.blacklist.getD addr false

/-- No movement while paused, and none that touches a blacklisted address. -/
def guarda (enderecos : List String) : R Unit := do
  recusar t.paused "token pausado"
  match enderecos.find? t.bloqueado with
  | some addr => erro s!"endereço bloqueado neste token: {addr}"
  | none => .ok ()

end Token

namespace TokenTx

def maxAmountDigits : ℕ := 30

/-- A canonical decimal: at most 30 digits and no leading zero. -/
def parseAmount (s : String) : R Amount := do
  recusar (!soDigitos s || maxAmountDigits < s.toList.length) s!"valor inválido: {s}"
  recusar (s ≠ "0" ∧ s.toList.head? = some '0') s!"valor inválido: {s}"
  exigir (parseU128 s) s!"valor inválido: {s}"

def valor (tx : Tx) : R Amount := parseAmount tx.amount

def campoTexto (tx : Tx) (chave : String) : Option String := texto (tx.campo chave)

section

variable (cr : Cripto)

def destino (tx : Tx) : R String := exigir (tx.para.filter cr.isValidAddress) "destino inválido"

structure ParamsToken where
  name : String
  symbol : String
  decimals : ℕ
  totalSupply : Amount

def maiusculaOuDigito (c : Char) : Bool := ('A' ≤ c && c ≤ 'Z') || eDigito c

def decimaisDe (v : Option JsonValue) : Option ℕ :=
  (v.bind (·.inteiro?)).bind fun d => if 0 ≤ d ∧ d ≤ 18 then some d.toNat else none

def suprimentoDe (v : Option String) : Option Amount :=
  v.bind fun s => match parseAmount s with
    | .ok n => if 0 < n then some n else none
    | .error _ => none

def dados (tx : Tx) : Bool :=
  match tx.data with
  | some (.map _) => true
  | _ => false

def validarParamsToken (tx : Tx) : R ParamsToken := do
  recusar (dados tx = false) "parâmetros do token ausentes"
  let name := (campoTexto tx "name").getD ""
  recusar (jsLen (jsTrim name) < 1 ∨ 64 < jsLen name)
    "nome do token deve ter entre 1 e 64 caracteres"
  let symbol := (campoTexto tx "symbol").getD ""
  recusar (¬ (2 ≤ symbol.toList.length ∧ symbol.toList.length ≤ 10 ∧
    symbol.toList.all maiusculaOuDigito))
    "símbolo do token deve ter 2 a 10 caracteres [A-Z0-9]"
  let decimals ← exigir (decimaisDe (tx.campo "decimals"))
    "decimais do token devem ser um inteiro entre 0 e 18"
  let totalSupply ← exigir (suprimentoDe (campoTexto tx "totalSupply"))
    "suprimento total deve ser uma string decimal positiva"
  return { name := jsTrim name, symbol := symbol, decimals := decimals,
           totalSupply := totalSupply }

def buscar (s : State) (tx : Tx) : R Token := do
  let id ← exigir (campoTexto tx "token") "token EAV20 inexistente"
  exigir (s.tokens.get? id) "token EAV20 inexistente"

def conferirTaxa (s : State) (tx : Tx) (ctx : Ctx) (msg : String) : R Unit :=
  recusar (s.balanceOf tx.de < ctx.fee) msg

/-- Rewrites a stored token. -/
def comToken (id : String) (f : Token → Token) : Op Unit := do
  let s ← get
  let token ← exigir (s.tokens.get? id) "token EAV20 inexistente"
  set { s with tokens := s.tokens.insert id (f token) }

def timestampDe (tx : Tx) : R ℕ :=
  if 0 ≤ tx.timestamp then .ok tx.timestamp.toNat else erro "timestamp inválido"

def criar (tx : Tx) (ctx : Ctx) : Op Unit := do
  let s ← get
  let params ← validarParamsToken tx
  recusar (s.tokens.values.any fun t => t.symbol == params.symbol)
    s!"símbolo de token já existe: {params.symbol}"
  let txId ← exigir tx.id "transação sem id"
  let tokenId := cr.eavHashOne s!"EAV20-TOKEN:{txId}"
  recusar (s.tokens.contains tokenId) "token EAV20 já existe"
  let createdAt ← timestampDe tx
  conferirTaxa s tx ctx "saldo insuficiente para a taxa de criação"
  debitar tx.de ctx.fee
  modify fun s => { s with
    tokens := s.tokens.insert tokenId
      { standard := "eav20", id := tokenId, name := params.name, symbol := params.symbol,
        decimals := params.decimals, totalSupply := params.totalSupply, creator := tx.de,
        owner := tx.de,
        mintable := match tx.campo "mintable" with | some (.bool true) => true | _ => false,
        paused := false, createdAt := createdAt,
        balances := (∅ : OrdMap String Amount).insert tx.de params.totalSupply,
        allowances := ∅, blacklist := ∅, frozen := ∅ } }

/-- Moves a balance inside a token. The origin is written before the
destination's overflow check. -/
def mover (id de para : String) (amount : Amount) : Op Unit := do
  let s ← get
  let token ← exigir (s.tokens.get? id) "token EAV20 inexistente"
  recusar (token.saldo de < amount) "saldo do token insuficiente ou congelado"
  let token := { token with balances := token.balances.insert de (token.saldo de - amount) }
  set { s with tokens := s.tokens.insert id token }
  recusar (u128Limit ≤ token.saldo para + amount) "estouro aritmético no saldo do token"
  set { s with
    tokens := s.tokens.insert id
      { token with balances := token.balances.insert para (token.saldo para + amount) } }

def transferir (tx : Tx) (ctx : Ctx) : Op Unit := do
  let s ← get
  let para ← destino cr tx
  let amount ← valor tx
  let token ← buscar s tx
  token.guarda [tx.de, para]
  recusar (amount = 0) "valor do token deve ser positivo"
  recusar (token.disponivel tx.de ctx.height < amount) "saldo do token insuficiente ou congelado"
  conferirTaxa s tx ctx "saldo insuficiente para a taxa"
  debitar tx.de ctx.fee
  mover token.id tx.de para amount

/-- The movement inside a sponsored or multisignature transfer, with no fee. -/
def efeitoMetaTransfer (tokenId de para : String) (amount : Amount) (height : ℕ) : Op Unit := do
  let s ← get
  let token ← exigir (s.tokens.get? tokenId) "token inexistente"
  token.guarda [de, para]
  recusar (amount = 0) "valor do token deve ser positivo"
  recusar (token.disponivel de height < amount) "saldo do token insuficiente ou congelado"
  mover tokenId de para amount

def aprovar (tx : Tx) (ctx : Ctx) : Op Unit := do
  let s ← get
  let spender ← destino cr tx
  let amount ← valor tx
  let token ← buscar s tx
  conferirTaxa s tx ctx "saldo insuficiente para a taxa"
  debitar tx.de ctx.fee
  comToken token.id fun t =>
    { t with
      allowances := t.allowances.insert tx.de
        ((t.allowances.getD tx.de ∅).insert spender amount) }

def transferirDe (tx : Tx) (ctx : Ctx) : Op Unit := do
  let s ← get
  let para ← destino cr tx
  let amount ← valor tx
  let owner := (campoTexto tx "owner").getD ""
  recusar (cr.isValidAddress owner = false) "endereço do dono inválido"
  let token ← buscar s tx
  token.guarda [owner, para, tx.de]
  recusar (amount = 0) "valor do token deve ser positivo"
  recusar (token.allowance owner tx.de < amount) "allowance insuficiente"
  recusar (token.disponivel owner ctx.height < amount) "saldo do token insuficiente ou congelado"
  conferirTaxa s tx ctx "saldo insuficiente para a taxa"
  debitar tx.de ctx.fee
  let nova := token.allowance owner tx.de - amount
  comToken token.id fun t =>
    { t with
      allowances := t.allowances.insert owner ((t.allowances.getD owner ∅).insert tx.de nova) }
  mover token.id owner para amount

def emitir (tx : Tx) (ctx : Ctx) : Op Unit := do
  let s ← get
  let amount ← valor tx
  let token ← buscar s tx
  recusar (token.owner ≠ tx.de) "só o owner do token pode mint"
  recusar (token.mintable = false) "token não é mintable (supply fixo)"
  let para ← destino cr tx
  recusar (amount = 0) "valor do mint deve ser positivo"
  let alvo ← exigir (s.tokens.get? token.id) "token EAV20 inexistente"
  recusar (u128Limit ≤ alvo.totalSupply + amount) "estouro aritmético no suprimento do token"
  recusar (u128Limit ≤ alvo.saldo para + amount) "estouro aritmético no saldo do token"
  conferirTaxa s tx ctx "saldo insuficiente para a taxa"
  debitar tx.de ctx.fee
  comToken token.id fun t =>
    { t with
      totalSupply := alvo.totalSupply + amount
      balances := t.balances.insert para (alvo.saldo para + amount) }

def queimar (tx : Tx) (ctx : Ctx) : Op Unit := do
  let s ← get
  let amount ← valor tx
  let token ← buscar s tx
  recusar (amount = 0) "valor do burn deve ser positivo"
  recusar (token.saldo tx.de < amount) "saldo do token insuficiente para queimar"
  recusar (token.totalSupply < amount) "suprimento do token insuficiente para queimar"
  conferirTaxa s tx ctx "saldo insuficiente para a taxa"
  debitar tx.de ctx.fee
  comToken token.id fun t =>
    { t with
      balances := t.balances.insert tx.de (token.saldo tx.de - amount)
      totalSupply := token.totalSupply - amount }

def pausar (tx : Tx) (ctx : Ctx) : Op Unit := do
  let s ← get
  let token ← buscar s tx
  recusar (token.owner ≠ tx.de) "só o owner do token pode pausar"
  conferirTaxa s tx ctx "saldo insuficiente para a taxa"
  debitar tx.de ctx.fee
  comToken token.id fun t => { t with paused := tx.txType == "TOKEN_PAUSE" }

def bloquear (tx : Tx) (ctx : Ctx) : Op Unit := do
  let s ← get
  let token ← buscar s tx
  recusar (token.owner ≠ tx.de) "só o owner do token pode bloquear"
  let alvo := (campoTexto tx "address").getD ""
  recusar (cr.isValidAddress alvo = false) "endereço inválido"
  let desbloquear := match tx.campo "blocked" with
    | some (.bool false) => true
    | _ => false
  conferirTaxa s tx ctx "saldo insuficiente para a taxa"
  debitar tx.de ctx.fee
  comToken token.id fun t =>
    { t with
      blacklist :=
        if desbloquear then t.blacklist.erase alvo else t.blacklist.insert alvo true }

def duracaoEmBlocos (tx : Tx) : R ℕ :=
  exigir (((tx.campo "durationBlocks").bind jsNumberSeguroDe).bind fun n =>
    if 0 < n then some n.toNat else none) "duração inválida"

def congelar (tx : Tx) (ctx : Ctx) : Op Unit := do
  let s ← get
  let amount ← valor tx
  let token ← buscar s tx
  let dur ← duracaoEmBlocos tx
  recusar (amount = 0) "valor a congelar deve ser positivo"
  recusar (∃ f ∈ token.frozen.get? tx.de, ctx.height < f.2)
    "já há um congelamento ativo nesta conta"
  recusar (token.saldo tx.de < amount) "saldo do token insuficiente para congelar"
  let unlockAt ← alturaApos ctx.height dur "duração inválida"
  conferirTaxa s tx ctx "saldo insuficiente para a taxa"
  debitar tx.de ctx.fee
  comToken token.id fun t => { t with frozen := t.frozen.insert tx.de (amount, unlockAt) }

def descongelar (tx : Tx) (ctx : Ctx) : Op Unit := do
  let s ← get
  let token ← buscar s tx
  let congelado ← exigir (token.frozen.get? tx.de) "nada congelado"
  recusar (ctx.height < congelado.2) "congelamento ainda não venceu"
  conferirTaxa s tx ctx "saldo insuficiente para a taxa"
  debitar tx.de ctx.fee
  comToken token.id fun t => { t with frozen := t.frozen.erase tx.de }

end

end TokenTx
end Eav7
