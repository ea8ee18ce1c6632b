import Eav7.Types
import Eav7.Config
import Eav7.Coercao

/-!
# Hashes, addresses and hybrid signatures

The primitives come from third-party crates and are the fields of `Cripto`.
The encodings around them (hexadecimal, base64, PEM, the address checksum, the
signed payload of a transaction) are the code's own.
-/

namespace Eav7

abbrev Bytes := List UInt8

/-- The cryptographic crates the program links against, and the Unicode case
tables of its standard library. -/
structure Cripto where
  sha3 : Bytes → Bytes
  keccak256 : Bytes → Bytes
  chaveEcdsa : Bytes → Bool
  chavePq : Bytes → Bool
  verificaEcdsa : (chave payload assinatura : Bytes) → Bool
  verificaPq : (chave payload assinatura : Bytes) → Bool
  /-- Public key recovery from a prehash, `r`, `s` and the recovery bit: the two
  coordinates of the point. -/
  recupera : (digest r s : Bytes) → ℕ → Option Bytes
  toLowercase : String → String
  toUppercase : String → String

def bytesDe (s : String) : Bytes := s.toByteArray.data.toList

theorem bytesDe_ofList (cs : List Char) :
    bytesDe (String.ofList cs) = cs.flatMap String.utf8EncodeChar := by
  unfold bytesDe
  rw [String.toByteArray_ofList]
  exact List.toList_data_toByteArray

theorem bytesDe_eq (s : String) : bytesDe s = s.toList.flatMap String.utf8EncodeChar := by
  rw [← bytesDe_ofList, String.ofList_toList]

def hexByte (maiuscula : Bool) (b : UInt8) : List Char :=
  let digito (n : ℕ) : Char :=
    if n < 10 then Char.ofNat (48 + n) else Char.ofNat ((if maiuscula then 55 else 87) + n)
  [digito (b.toNat / 16), digito (b.toNat % 16)]

def hexEncode (bs : Bytes) : String := String.ofList (bs.flatMap (hexByte false))

def hexEncodeUpper (bs : Bytes) : String := String.ofList (bs.flatMap (hexByte true))

namespace Cripto

variable (cr : Cripto)

def eavHash (data : Bytes) : String := hexEncode (cr.sha3 data)

def eavHashOne (s : String) : String := cr.eavHash (bytesDe s)

def addressChecksum (body : String) : String :=
  hexEncodeUpper ((cr.sha3 (bytesDe s!"EAV7-ADDR:{body}")).take 2)

def deriveAddressFrom (data : Bytes) : String :=
  let body := hexEncodeUpper ((cr.sha3 data).take 14)
  Config.addressPrefix ++ body ++ cr.addressChecksum body

def hexMaiusculo (c : Char) : Bool := ('0' ≤ c && c ≤ '9') || ('A' ≤ c && c ≤ 'F')

/-- 34 characters: the prefix, 28 digits of body and the 4 digits of its checksum. -/
def isValidAddress (address : String) : Bool :=
  match address.toList with
  | 'E' :: '7' :: resto =>
    resto.length == 32 && resto.all hexMaiusculo &&
      String.ofList (resto.drop 28) == cr.addressChecksum (String.ofList (resto.take 28))
  | _ => false

/-- One level of the Merkle tree; an odd last node is paired with itself. -/
def merkleNivel : List String → List String
  | [] => []
  | [a] => [cr.eavHash (bytesDe a ++ bytesDe a)]
  | a :: b :: resto => cr.eavHash (bytesDe a ++ bytesDe b) :: merkleNivel resto

def merkleSobe : ℕ → List String → String
  | 0, nivel => nivel.headD ""
  | fuel + 1, nivel =>
    match nivel with
    | [] => ""
    | [raiz] => raiz
    | _ => merkleSobe fuel (cr.merkleNivel nivel)

def merkleRoot (ids : List String) : String :=
  if ids = [] then cr.eavHashOne "EAV7-EMPTY-ROOT" else cr.merkleSobe ids.length ids

/-! ## Hybrid keys -/

end Cripto

/-- The white space of `str::trim`. -/
def rustEspaco (c : Char) : Bool :=
  (0x9 ≤ c.toNat && c.toNat ≤ 0xd) || c.toNat ∈ [0x20, 0x85, 0xa0, 0x1680, 0x2028, 0x2029, 0x202f,
    0x205f, 0x3000] || (0x2000 ≤ c.toNat && c.toNat ≤ 0x200a)

def rustTrimChars (cs : List Char) : List Char := aparaFim rustEspaco (cs.dropWhile rustEspaco)

/-- The text before the first occurrence of a pattern, and the text after it. -/
def parteEm (padrao : List Char) : List Char → Option (List Char × List Char)
  | [] => if padrao = [] then some ([], []) else none
  | c :: cs =>
    if padrao.isPrefixOf (c :: cs) then some ([], (c :: cs).drop padrao.length)
    else (parteEm padrao cs).map fun p => (c :: p.1, p.2)

def base64Valor (c : Char) : Option ℕ :=
  if 'A' ≤ c ∧ c ≤ 'Z' then some (c.toNat - 65)
  else if 'a' ≤ c ∧ c ≤ 'z' then some (c.toNat - 71)
  else if '0' ≤ c ∧ c ≤ '9' then some (c.toNat + 4)
  else if c = '+' ∨ c = '-' then some 62
  else if c = '/' ∨ c = '_' then some 63
  else none

/-- The decoding loop, with its 32-bit accumulator and count of pending bits. -/
def base64Laco : List Char → (acumulador bits : ℕ) → Bytes
  | [], _, _ => []
  | c :: cs, acumulador, bits =>
    if c = '=' then []
    else match base64Valor c with
      | none => base64Laco cs acumulador bits
      | some v =>
        let acumulador := (acumulador * 64) % 2 ^ 32 + v
        let bits := bits + 6
        if 8 ≤ bits then
          UInt8.ofNat (acumulador / 2 ^ (bits - 8)) :: base64Laco cs acumulador (bits - 8)
        else base64Laco cs acumulador bits

def base64Decode (cs : List Char) : Bytes := base64Laco cs 0 0

def asciiAlfanumerico (c : Char) : Bool :=
  ('0' ≤ c && c ≤ '9') || ('a' ≤ c && c ≤ 'z') || ('A' ≤ c && c ≤ 'Z')

def asciiEspaco (c : Char) : Bool := c.toNat ∈ [0x20, 0x9, 0xa, 0xc, 0xd]

def pemParaDer (pem : List Char) : Option Bytes :=
  (parteEm "-----BEGIN PUBLIC KEY-----".toList pem).bind fun inicio =>
    (parteEm "-----END PUBLIC KEY-----".toList inicio.2).map fun corpo =>
      base64Decode (corpo.1.filter fun c => !asciiEspaco c)

def chavePublicaParaDer (s : String) : Option Bytes :=
  let t := rustTrimChars s.toList
  if (parteEm "BEGIN PUBLIC KEY".toList t).isSome then pemParaDer t
  else if t.all (fun c => asciiAlfanumerico c || c == '+' || c == '/' || c == '=') &&
      32 ≤ t.length then
    some (base64Decode t)
  else none

namespace Cripto

variable (cr : Cripto)

/-- The two decoded keys of `HybridPublicKey::from_pem`. -/
def chavesDePem (ecdsaPem pqPem : String) : Option (Bytes × Bytes) :=
  (chavePublicaParaDer ecdsaPem).bind fun ecdsa =>
    (chavePublicaParaDer pqPem).bind fun pq =>
      if cr.chaveEcdsa ecdsa && cr.chavePq pq then some (ecdsa, pq) else none

def addressFromPublicKeys (ecdsaPem pqPem : String) : Option String :=
  (cr.chavesDePem ecdsaPem pqPem).map fun chaves => cr.deriveAddressFrom (chaves.1 ++ chaves.2)

def hybridVerify (ecdsaPem pqPem : String) (payload : Bytes)
    (signatureB64 pqSignatureB64 : String) : Bool :=
  match cr.chavesDePem ecdsaPem pqPem with
  | none => false
  | some chaves =>
    cr.verificaEcdsa chaves.1 payload (base64Decode signatureB64.toList) &&
      cr.verificaPq chaves.2 payload (base64Decode pqSignatureB64.toList)

end Cripto

/-! ## The signed payload -/

def campoOpcional (chave : String) (v : Option String) : List (String × JsonValue) :=
  match v with
  | some s => [(chave, .str s)]
  | none => []

namespace Tx

variable (tx : Tx)

/-- The fields every serialization of a transaction carries. -/
def camposBase : List (String × JsonValue) :=
  ([("protocol", .str tx.protocol), ("scheme", .str tx.scheme), ("type", .str tx.txType),
    ("from", .str tx.de), ("to", tx.para.elim .null .str), ("amount", .str tx.amount),
    ("fee", .str tx.fee), ("nonce", .int tx.nonce),
    ("timestamp", .int tx.timestamp)] : List (String × JsonValue)) ++
  (match tx.data with
    | some d => [("data", d)]
    | none => []) ++
  campoOpcional "publicKey" tx.publicKey ++ campoOpcional "pqPublicKey" tx.pqPublicKey

def signingPayload : String := canonicalJson (.map tx.camposBase)

/-- The length in bytes that the GB quota charges: signatures left out. -/
def usefulTxBytes : ℕ := canonicalJsonLen (.map (tx.camposBase ++ campoOpcional "id" tx.id))

end Tx

def Cripto.txId (cr : Cripto) (tx : Tx) : String := cr.eavHashOne tx.signingPayload

def eavmScheme : String := "eav7-eavm-1"

def signatureScheme : String := "eav7-hybrid-1"

/-- The identity under which a transaction is deduplicated. -/
def Cripto.txDedupId (cr : Cripto) (tx : Tx) : String :=
  match tx.data.bind (·.campo "raw") with
  | some (.str raw) =>
    if tx.scheme = eavmScheme then cr.eavHashOne s!"EAV7-EAVM-TX:{raw}" else cr.txId tx
  | _ => cr.txId tx

end Eav7
