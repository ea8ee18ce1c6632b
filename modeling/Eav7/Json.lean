import Mathlib.Algebra.GroupWithZero.Nat
import Mathlib.Data.Nat.Notation
import Mathlib.Data.Int.Notation
import Mathlib.Data.List.Lex

/-!
# JSON values and their canonical text

The free `data` field of a transaction, and the serialization that is hashed and
signed: keys in UTF-16 order, no white space, the escapes of `JSON.stringify`.
-/

namespace Eav7

/-- A JSON value without fractions. A map is the list of its pairs in key order. -/
inductive JsonValue where
  | null
  | bool (b : Bool)
  | int (i : ℤ)
  | str (s : String)
  | list (itens : List JsonValue)
  | map (pares : List (String × JsonValue))

namespace JsonValue

/-- Field access on a map, `none` on any other value. -/
def campo (v : JsonValue) (chave : String) : Option JsonValue :=
  match v with
  | map pares => pares.lookup chave
  | _ => none

def texto? : JsonValue → Option String
  | str s => some s
  | _ => none

def inteiro? : JsonValue → Option ℤ
  | int i => some i
  | _ => none

mutual
/-- Structural equality. -/
def igual : JsonValue → JsonValue → Bool
  | null, null => true
  | bool a, bool b => a == b
  | int a, int b => a == b
  | str a, str b => a == b
  | list as, list bs => iguais as bs
  | map as, map bs => paresIguais as bs
  | _, _ => false

def iguais : List JsonValue → List JsonValue → Bool
  | [], [] => true
  | a :: as, b :: bs => igual a b && iguais as bs
  | _, _ => false

def paresIguais : List (String × JsonValue) → List (String × JsonValue) → Bool
  | [], [] => true
  | a :: as, b :: bs => a.1 == b.1 && igual a.2 b.2 && paresIguais as bs
  | _, _ => false
end

/-- Equality of two optional fields. -/
def camposIguais : Option JsonValue → Option JsonValue → Bool
  | none, none => true
  | some a, some b => igual a b
  | _, _ => false

end JsonValue

def hexDigito (n : ℕ) : Char :=
  if n < 10 then Char.ofNat (48 + n) else Char.ofNat (87 + n)

/-- One character under the escapes of `JSON.stringify`. -/
def escreveChar (c : Char) : List Char :=
  if c = '"' then ['\\', '"']
  else if c = '\\' then ['\\', '\\']
  else if c.toNat = 0x08 then ['\\', 'b']
  else if c.toNat = 0x0c then ['\\', 'f']
  else if c = '\n' then ['\\', 'n']
  else if c = '\r' then ['\\', 'r']
  else if c = '\t' then ['\\', 't']
  else if c.toNat < 0x20 then
    ['\\', 'u', '0', '0', hexDigito (c.toNat / 16), hexDigito (c.toNat % 16)]
  else [c]

def escreveString (s : String) : List Char := '"' :: s.toList.flatMap escreveChar ++ ['"']

/-- The UTF-16 code units of a string, as `encode_utf16`. -/
def utf16 (s : String) : List ℕ :=
  s.toList.flatMap fun c =>
    if c.toNat < 0x10000 then [c.toNat]
    else [0xd800 + (c.toNat - 0x10000) / 0x400, 0xdc00 + (c.toNat - 0x10000) % 0x400]

/-- `s.length` of JavaScript. -/
def jsLen (s : String) : ℕ := (utf16 s).length

/-- The order of the keys in a text. -/
def chaveAte (a b : String) : Bool := decide (utf16 a ≤ utf16 b)

def insereOrdenado (e : String × List Char) : List (String × List Char) → List (String × List Char)
  | [] => [e]
  | d :: ds => if chaveAte d.1 e.1 then d :: insereOrdenado e ds else e :: d :: ds

def ordenaChaves (pares : List (String × List Char)) : List (String × List Char) :=
  pares.foldr insereOrdenado []

def escreveLista (itens : List (List Char)) : List Char :=
  '[' :: ([','].intercalate itens) ++ [']']

def escreveMapa (pares : List (String × List Char)) : List Char :=
  let campos := (ordenaChaves pares).map fun e => escreveString e.1 ++ ':' :: e.2
  '\x7b' :: ([','].intercalate campos) ++ ['\x7d']

mutual
def escreveValor : JsonValue → List Char
  | .null => "null".toList
  | .bool true => "true".toList
  | .bool false => "false".toList
  | .int n => (toString n).toList
  | .str s => escreveString s
  | .list itens => escreveLista (escreveItens itens)
  | .map pares => escreveMapa (escrevePares pares)

def escreveItens : List JsonValue → List (List Char)
  | [] => []
  | v :: vs => escreveValor v :: escreveItens vs

def escrevePares : List (String × JsonValue) → List (String × List Char)
  | [] => []
  | e :: es => (e.1, escreveValor e.2) :: escrevePares es
end

def canonicalJson (v : JsonValue) : String := String.ofList (escreveValor v)

/-- The length in bytes of the canonical text. -/
def canonicalJsonLen (v : JsonValue) : ℕ := ((escreveValor v).map Char.utf8Size).sum

end Eav7
