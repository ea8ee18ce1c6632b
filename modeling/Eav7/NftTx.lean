import Eav7.TokenTx

/-!
# EAV721 collections and the name service
-/

namespace Eav7

open Base

namespace NftTx

def standard : String := "eav721"
def maxCollectionNameUtf16 : ℕ := 64

/-- `String(v)` of an optional field. -/
def jsString (v : Option JsonValue) : String :=
  match v with
  | none => "undefined"
  | some v => jsStringDe v

def jsStringOuVazio (v : Option JsonValue) : String :=
  match v with
  | none => ""
  | some .null => ""
  | some v => jsStringDe v

def simboloValido (s : String) : Bool :=
  2 ≤ s.toList.length && s.toList.length ≤ 10 && s.toList.all TokenTx.maiusculaOuDigito

def minusculaOuDigito (c : Char) : Bool := ('a' ≤ c && c ≤ 'z') || eDigito c

/-- 3 to 32 characters, with hyphens only inside. -/
def nomeValido (s : String) : Bool :=
  let cs := s.toList
  3 ≤ cs.length && cs.length ≤ 32 && minusculaOuDigito (cs.headD '-') &&
    minusculaOuDigito (cs.getLastD '-') && cs.all fun c => minusculaOuDigito c || c == '-'

/-- Lower case on the characters a name can hold: the ASCII letters, and the
Kelvin sign, the only other character whose lower case is ASCII. -/
def minuscula (c : Char) : Char :=
  if 'A' ≤ c ∧ c ≤ 'Z' then Char.ofNat (c.toNat + 32)
  else if c.toNat = 0x212a then 'k'
  else c

def nomeDe (tx : Tx) : String :=
  String.ofList ((jsStringOuVazio (tx.campo "name")).toList.map minuscula)

def ts (tx : Tx) : R ℕ :=
  if 0 ≤ tx.timestamp then .ok tx.timestamp.toNat
  else erro s!"timestamp inválido na transação ({tx.timestamp})"

def exigeSaldo (s : State) (tx : Tx) (valor : Amount) (mensagem : String) : R Unit :=
  recusar (s.balanceOf tx.de < valor) mensagem

section

variable (cr : Cripto)

def destino (tx : Tx) (mensagem : String) : R String :=
  exigir (tx.para.filter cr.isValidAddress) mensagem

/-- Rewrites a stored collection. -/
def comColecao (cid : String) (f : Collection → Collection) : Op Unit := do
  let s ← get
  let col ← exigir (s.nfts.get? cid) "coleção inexistente"
  set { s with nfts := s.nfts.insert cid (f col) }

/-- The collection without any standing approval of one token. -/
def entrega (tokenId para : String) (col : Collection) : Collection :=
  { col with
    tokens := match col.tokens.get? tokenId with
      | some nft => col.tokens.insert tokenId { nft with owner := para }
      | none => col.tokens
    approvals := col.approvals.erase tokenId }

def nftCreate (tx : Tx) (ctx : Ctx) : Op Unit := do
  let s ← get
  let name ← exigir (texto (tx.campo "name")) "nome da coleção inválido"
  let aparado := jsTrim name
  recusar (aparado = "" ∨ maxCollectionNameUtf16 < jsLen name) "nome da coleção inválido"
  let symbol ← exigir ((texto (tx.campo "symbol")).filter simboloValido) "símbolo inválido"
  let txid ← exigir tx.id "transação sem id: coleção não tem como derivar identificador"
  let createdAt ← ts tx
  exigeSaldo s tx ctx.fee "saldo insuficiente para a taxa de criação"
  let cid := cr.eavHashOne s!"EAV721-COLLECTION:{txid}"
  debitar tx.de ctx.fee
  modify fun s => { s with
    nfts := s.nfts.insert cid
      { standard := standard, id := cid, name := aparado, symbol := symbol, owner := tx.de,
        createdAt := createdAt, nextId := 1, tokens := ∅, approvals := ∅ } }

def uriDe (v : Option JsonValue) : R String :=
  match v with
  | none => .ok ""
  | some .null => .ok ""
  | some (.str s) =>
    if s.utf8ByteSize ≤ Config.maxNftUriBytes then .ok s else erro "uri inválida"
  | some _ => erro "uri inválida"

def nftMint (tx : Tx) (ctx : Ctx) : Op Unit := do
  let s ← get
  let cid := jsString (tx.campo "collection")
  let col ← exigir (s.nfts.get? cid) "coleção inexistente"
  recusar (col.owner ≠ tx.de) "só o owner da coleção pode mint"
  let para ← destino cr tx "destino inválido"
  let uri ← uriDe (tx.campo "uri")
  exigeSaldo s tx ctx.fee "saldo insuficiente para a taxa"
  let tokenId := toString col.nextId
  let proximo ← alturaApos col.nextId 1 "estouro do contador de tokens da coleção"
  debitar tx.de ctx.fee
  comColecao cid fun col =>
    { col with nextId := proximo, tokens := col.tokens.insert tokenId ⟨para, uri⟩ }

def nftTransfer (tx : Tx) (ctx : Ctx) : Op Unit := do
  let s ← get
  let cid := jsString (tx.campo "collection")
  let tokenId := jsString (tx.campo "tokenId")
  let col ← exigir (s.nfts.get? cid) "coleção inexistente"
  let nft ← exigir (col.tokens.get? tokenId) "NFT inexistente"
  recusar (nft.owner ≠ tx.de ∧ col.approvals.get? tokenId ≠ some tx.de)
    "não é dono nem aprovado"
  let para ← destino cr tx "destino inválido"
  exigeSaldo s tx ctx.fee "saldo insuficiente para a taxa"
  debitar tx.de ctx.fee
  comColecao cid (entrega tokenId para)

/-- The transfer executed by a multisignature operation, with no fee. -/
def efeitoMultisigTransfer (colecao tokenId dona para : String) : Op Unit := do
  let s ← get
  let col ← exigir (s.nfts.get? colecao) "coleção inexistente"
  recusar ((col.tokens.get? tokenId).map (·.owner) ≠ some dona)
    "a conta multisig não é dona deste NFT"
  recusar (cr.isValidAddress para = false) "destino inválido"
  comColecao colecao (entrega tokenId para)

def nftApprove (tx : Tx) (ctx : Ctx) : Op Unit := do
  let s ← get
  let cid := jsString (tx.campo "collection")
  let tokenId := jsString (tx.campo "tokenId")
  let col ← exigir (s.nfts.get? cid) "coleção inexistente"
  let nft ← exigir (col.tokens.get? tokenId) "NFT inexistente"
  recusar (nft.owner ≠ tx.de) "só o dono aprova"
  let aprovado ← destino cr tx "aprovado inválido"
  exigeSaldo s tx ctx.fee "saldo insuficiente para a taxa"
  debitar tx.de ctx.fee
  comColecao cid fun col => { col with approvals := col.approvals.insert tokenId aprovado }

def nftBurn (tx : Tx) (ctx : Ctx) : Op Unit := do
  let s ← get
  let cid := jsString (tx.campo "collection")
  let tokenId := jsString (tx.campo "tokenId")
  let col ← exigir (s.nfts.get? cid) "coleção inexistente"
  let nft ← exigir (col.tokens.get? tokenId) "NFT inexistente"
  recusar (nft.owner ≠ tx.de) "só o dono queima"
  exigeSaldo s tx ctx.fee "saldo insuficiente para a taxa"
  debitar tx.de ctx.fee
  comColecao cid fun col =>
    { col with tokens := col.tokens.erase tokenId, approvals := col.approvals.erase tokenId }

/-! ## Names -/

def alvoRegistro (tx : Tx) : R String :=
  match tx.campo "target" with
  | none => .ok tx.de
  | some .null => .ok tx.de
  | some (.str s) => if cr.isValidAddress s then .ok s else erro "endereço-alvo inválido"
  | some _ => erro "endereço-alvo inválido"

def nameRegister (tx : Tx) (ctx : Ctx) : Op Unit := do
  let s ← get
  let name := nomeDe tx
  recusar (nomeValido name = false) "nome inválido (3-32, [a-z0-9-], sem hífen nas pontas)"
  recusar (s.names.contains name) "nome já registrado"
  let target ← alvoRegistro cr tx
  let registeredAt ← ts tx
  recusar (u128Limit ≤ ctx.fee + Config.nameRegisterCost)
    "estouro aritmético no custo de registro"
  exigeSaldo s tx (ctx.fee + Config.nameRegisterCost) "saldo insuficiente para registrar"
  debitar tx.de ctx.fee
  queimar tx.de Config.nameRegisterCost
  modify fun s => { s with
    names := s.names.insert name
      { owner := tx.de, target := target, registeredAt := registeredAt } }

/-- The record of a name, required to belong to the sender. -/
def nomeProprio (s : State) (tx : Tx) (mensagem : String) : R NameRecord := do
  let rec_ ← exigir (s.names.get? (nomeDe tx)) "nome inexistente"
  recusar (rec_.owner ≠ tx.de) mensagem
  return rec_

def nameUpdate (tx : Tx) (ctx : Ctx) : Op Unit := do
  let s ← get
  let registro ← nomeProprio s tx "só o dono do nome atualiza"
  let target ← enderecoEm cr (tx.campo "target") "endereço-alvo inválido"
  exigeSaldo s tx ctx.fee "saldo insuficiente para a taxa"
  debitar tx.de ctx.fee
  modify fun s => { s with
    names := s.names.insert (nomeDe tx) { registro with target := target } }

def nameTransfer (tx : Tx) (ctx : Ctx) : Op Unit := do
  let s ← get
  let registro ← nomeProprio s tx "só o dono do nome transfere"
  let novoDono ← destino cr tx "novo dono inválido"
  exigeSaldo s tx ctx.fee "saldo insuficiente para a taxa"
  debitar tx.de ctx.fee
  modify fun s => { s with
    names := s.names.insert (nomeDe tx) { registro with owner := novoDono } }

def nameRelease (tx : Tx) (ctx : Ctx) : Op Unit := do
  let s ← get
  let _ ← nomeProprio s tx "só o dono do nome libera"
  exigeSaldo s tx ctx.fee "saldo insuficiente para a taxa"
  debitar tx.de ctx.fee
  modify fun s => { s with names := s.names.erase (nomeDe tx) }

end

end NftTx
end Eav7
