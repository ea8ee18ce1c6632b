import Eav7.Eavm.Palavra
import Eav7.Block

/-!
# RLP

The encoding of Ethereum transactions: byte strings and lists, each with one
canonical form that the decoder insists on.
-/

namespace Eav7.Eavm

inductive Rlp where
  | bytes (b : Bytes)
  | lista (itens : List Rlp)

namespace Rlp

def MAX_RLP_DEPTH : ℕ := 64

/-! ## Encoding -/

/-- The bytes of a number in big-endian order, none for zero. -/
def minBytes (n : ℕ) : Bytes := if n = 0 then [] else bytesDeNatural (n.log2 / 8 + 1) n

def lengthPrefix (length base : ℕ) : Bytes :=
  if length < 56 then [UInt8.ofNat (base + length)]
  else
    let lenBuf := minBytes length
    UInt8.ofNat (base + 55 + lenBuf.length) :: lenBuf

mutual
def encode : Rlp → Bytes
  | .bytes b => if b.length = 1 ∧ (b.headD 0).toNat < 0x80 then b else lengthPrefix b.length 0x80 ++ b
  | .lista itens =>
    let corpo := encodeItens itens
    lengthPrefix corpo.length 0xc0 ++ corpo

def encodeItens : List Rlp → Bytes
  | [] => []
  | item :: itens => encode item ++ encodeItens itens
end

/-! ## Decoding -/

/-- A length in big-endian order, without leading zeros. -/
def bufToInt (buf : Bytes) : Falha ℕ := do
  falharSe (buf.head? = some 0) "RLP: zeros à esquerda"
  falharSe (2 ^ 64 ≤ naturalDeBytes buf) "RLP: comprimento excede o endereçável"
  return naturalDeBytes buf

/-- The length of a list whose first byte is given, in the byte or after it. -/
def listLength (first : UInt8) (resto : Bytes) : Falha ℕ :=
  if first.toNat < 0xf8 then .ok (first.toNat - 0xc0)
  else do
    let n ← bufToInt (resto.take (first.toNat - 0xf7))
    falharSe (n < 56) "RLP: comprimento de lista não canônico"
    return n

/-- The items of a list, each shorter than what is left. -/
def decodeItens (item : Bytes → Falha (Rlp × Bytes)) : ℕ → Bytes → Falha (List Rlp)
  | _, [] => .ok []
  | 0, _ => .ok []
  | n + 1, corpo => do
    let (decodificado, resto) ← item corpo
    let itens ← decodeItens item n resto
    return decodificado :: itens

/-- The first item of a buffer and what follows it, with the levels that it may nest. -/
def decodeItem : ℕ → Bytes → Falha (Rlp × Bytes)
  | 0, _ => falhar s!"RLP: aninhamento acima de {MAX_RLP_DEPTH} níveis"
  | _ + 1, [] => falhar "RLP: buffer vazio"
  | niveis + 1, first :: resto =>
    if first.toNat < 0x80 then .ok (.bytes [first], resto)
    else if first.toNat < 0xb8 then do
      let length := first.toNat - 0x80
      falharSe (resto.length < length) "RLP: truncado"
      falharSe (length = 1 ∧ (resto.headD 0).toNat < 0x80) "RLP: codificação não canônica"
      return (.bytes (resto.take length), resto.drop length)
    else if first.toNat < 0xc0 then do
      let lenOfLen := first.toNat - 0xb7
      let length ← bufToInt (resto.take lenOfLen)
      falharSe (length < 56) "RLP: comprimento não canônico"
      falharSe (resto.length < lenOfLen + length) "RLP: truncado"
      return (.bytes ((resto.drop lenOfLen).take length), resto.drop (lenOfLen + length))
    else do
      let lenOfLen := first.toNat - 0xf7
      let length ← listLength first resto
      falharSe (resto.length < lenOfLen + length) "RLP: lista truncada"
      let itens ← decodeItens (decodeItem niveis) length ((resto.drop lenOfLen).take length)
      return (.lista itens, resto.drop (lenOfLen + length))

/-- One item and nothing after it. -/
def decode (buffer : Bytes) : Falha Rlp := do
  let (valor, resto) ← decodeItem MAX_RLP_DEPTH buffer
  falharSe (resto ≠ []) "RLP: bytes excedentes após o item"
  return valor

/-! ## Text of an item -/

def continua (b : UInt8) : Bool := 0x80 ≤ b.toNat && b.toNat ≤ 0xbf

/-- The second byte that a leading byte of three or four allows. -/
def segundo (a b : UInt8) : Bool :=
  if a.toNat = 0xe0 then 0xa0 ≤ b.toNat && b.toNat ≤ 0xbf
  else if a.toNat = 0xed then 0x80 ≤ b.toNat && b.toNat ≤ 0x9f
  else if a.toNat = 0xf0 then 0x90 ≤ b.toNat && b.toNat ≤ 0xbf
  else if a.toNat = 0xf4 then 0x80 ≤ b.toNat && b.toNat ≤ 0x8f
  else continua b

def baixos (b : UInt8) : ℕ := b.toNat % 0x40

/-- The character at the head of a text and the bytes it takes after the first one. What
is not UTF-8 is replaced by its maximal subparts. -/
def letraUtf8 (a : UInt8) (r : Bytes) : Char × ℕ :=
  if a.toNat < 0x80 then (Char.ofNat a.toNat, 0)
  else if 0xc2 ≤ a.toNat ∧ a.toNat ≤ 0xdf then
    match r with
    | b :: _ => if continua b then (Char.ofNat (a.toNat % 0x20 * 0x40 + baixos b), 1)
      else ('\ufffd', 0)
    | [] => ('\ufffd', 0)
  else if 0xe0 ≤ a.toNat ∧ a.toNat ≤ 0xef then
    match r with
    | b :: c :: _ =>
      if segundo a b = false then ('\ufffd', 0)
      else if continua c then
        (Char.ofNat ((a.toNat % 0x10 * 0x40 + baixos b) * 0x40 + baixos c), 2)
      else ('\ufffd', 1)
    | [b] => ('\ufffd', if segundo a b then 1 else 0)
    | [] => ('\ufffd', 0)
  else if 0xf0 ≤ a.toNat ∧ a.toNat ≤ 0xf4 then
    match r with
    | b :: c :: d :: _ =>
      if segundo a b = false then ('\ufffd', 0)
      else if continua c = false then ('\ufffd', 1)
      else if continua d then
        (Char.ofNat (((a.toNat % 0x8 * 0x40 + baixos b) * 0x40 + baixos c) * 0x40 + baixos d), 3)
      else ('\ufffd', 2)
    | [b, c] => ('\ufffd', if segundo a b then if continua c then 2 else 1 else 0)
    | [b] => ('\ufffd', if segundo a b then 1 else 0)
    | [] => ('\ufffd', 0)
  else ('\ufffd', 0)

def letrasUtf8 : ℕ → Bytes → List Char
  | 0, _ => []
  | _ + 1, [] => []
  | n + 1, a :: r =>
    let (c, k) := letraUtf8 a r
    c :: letrasUtf8 n (r.drop k)

/-- `String::from_utf8_lossy`. -/
def fromUtf8Lossy (b : Bytes) : List Char := letrasUtf8 b.length b

mutual
/-- `String(item)` of JavaScript: a list is its items joined by commas. -/
def jsToString : Rlp → List Char
  | .bytes b => fromUtf8Lossy b
  | .lista itens => [','].intercalate (jsTextos itens)

def jsTextos : List Rlp → List (List Char)
  | [] => []
  | item :: itens => jsToString item :: jsTextos itens
end

/-- `.length` of JavaScript. -/
def itemLen : Rlp → ℕ
  | .bytes b => b.length
  | .lista itens => itens.length

def eLista : Rlp → Bool
  | .bytes _ => false
  | .lista _ => true

/-- The text of the bytes in hexadecimal, with its prefix. -/
def hex0x : Rlp → String
  | .bytes b => "0x" ++ hexEncode b
  | .lista itens => "0x" ++ String.ofList (jsToString (.lista itens))

/-- `BigUint::parse_bytes` in base 16: a plus sign and inner underscores are allowed. -/
def parseHex (cs : List Char) : Option ℕ :=
  let ds := match cs with
    | '+' :: resto => if resto.head? = some '+' then cs else resto
    | _ => cs
  if ds.head? = some '_' then none else natural? 16 (ds.filter (· ≠ '_'))

/-- The number that an item holds; a list is read through its text. -/
def toBigint (item : Rlp) : Falha ℕ :=
  if item.itemLen = 0 then .ok 0
  else match item with
    | .bytes b => .ok (naturalDeBytes b)
    | .lista itens =>
      let s := jsToString (.lista itens)
      match parseHex s with
      | some n => .ok n
      | none => falhar s!"Cannot convert 0x{String.ofList s} to a BigInt"

/-- A number without leading zeros. -/
def strictInt (item : Rlp) (field : String) : Falha ℕ :=
  match item with
  | .bytes b => do
    falharSe (b.head? = some 0) s!"RLP: inteiro não canônico em {field} (zero à esquerda)"
    toBigint (.bytes b)
  | .lista itens => toBigint (.lista itens)

/-- The first scalar field that is a list is refused. -/
def exigeBytes : List (String × Rlp) → Falha Unit
  | [] => .ok ()
  | (nome, item) :: campos => do
    falharSe (item.eLista = true) s!"RLP: campo `{nome}` deve ser byte string, não lista"
    exigeBytes campos

end Rlp
end Eav7.Eavm
