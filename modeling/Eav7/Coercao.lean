import Eav7.Base.Binary64
import Eav7.Json

/-!
# Coercions of the reference client

What JavaScript does to third-party input: `String.prototype.trim`, `Number`
restricted to safe integers, `BigInt` and `String`, with the parsers of the
Rust standard library under them.
-/

namespace Eav7

def u64Limit : ℕ := 2 ^ 64
def u128Limit : ℕ := 2 ^ 128

/-- White space and line terminators of JavaScript. -/
def jsEspaco (c : Char) : Bool :=
  c.toNat ∈ [0x9, 0xa, 0xb, 0xc, 0xd, 0xfeff, 0x2028, 0x2029, 0x20, 0xa0, 0x1680, 0x202f, 0x205f,
    0x3000] || (0x2000 ≤ c.toNat && c.toNat ≤ 0x200a)

def aparaFim (p : Char → Bool) (cs : List Char) : List Char := (cs.reverse.dropWhile p).reverse

def jsTrimChars (cs : List Char) : List Char := aparaFim jsEspaco (cs.dropWhile jsEspaco)

def jsTrim (s : String) : String := String.ofList (jsTrimChars s.toList)

def digito? (radix : ℕ) (c : Char) : Option ℕ :=
  let d : Option ℕ :=
    if '0' ≤ c ∧ c ≤ '9' then some (c.toNat - 48)
    else if 'a' ≤ c ∧ c ≤ 'z' then some (c.toNat - 87)
    else if 'A' ≤ c ∧ c ≤ 'Z' then some (c.toNat - 55)
    else none
  d.filter (· < radix)

def digitos? (radix : ℕ) : List Char → ℕ → Option ℕ
  | [], acc => some acc
  | c :: cs, acc => (digito? radix c).bind fun d => digitos? radix cs (acc * radix + d)

/-- The digits of a number, at least one. -/
def natural? (radix : ℕ) : List Char → Option ℕ
  | [] => none
  | cs => digitos? radix cs 0

/-- `from_str_radix` of a signed integer with `min ≤ n ≤ max`. -/
def inteiroRadix (radix : ℕ) (min max : ℤ) (cs : List Char) : Option ℤ :=
  let n : Option ℤ := match cs with
    | '-' :: rest => (natural? radix rest).map fun n => -(n : ℤ)
    | '+' :: rest => (natural? radix rest).map fun n => (n : ℤ)
    | _ => (natural? radix cs).map fun n => (n : ℤ)
  n.filter fun n => min ≤ n && n ≤ max

def i64Min : ℤ := -2 ^ 63
def i64Max : ℤ := 2 ^ 63 - 1
def i128Min : ℤ := -2 ^ 127
def i128Max : ℤ := 2 ^ 127 - 1

/-- `str::parse::<u128>`: an optional plus sign and decimal digits. -/
def parseU128 (s : String) : Option ℕ :=
  let n := match s.toList with
    | '+' :: rest => natural? 10 rest
    | cs => natural? 10 cs
  n.filter (· < u128Limit)

theorem parseU128_lt {s : String} {n : ℕ} (h : parseU128 s = some n) : n < u128Limit :=
  of_decide_eq_true (Option.filter_eq_some_iff.mp h).2

def parseU64 (s : String) : Option ℕ :=
  let n := match s.toList with
    | '+' :: rest => natural? 10 rest
    | cs => natural? 10 cs
  n.filter (· < u64Limit)

/-- The body after an explicit base prefix, with its radix. -/
def corpoComBase : List Char → Option (ℕ × List Char)
  | '0' :: 'x' :: cs => some (16, cs)
  | '0' :: 'X' :: cs => some (16, cs)
  | '0' :: 'b' :: cs => some (2, cs)
  | '0' :: 'B' :: cs => some (2, cs)
  | '0' :: 'o' :: cs => some (8, cs)
  | '0' :: 'O' :: cs => some (8, cs)
  | _ => none

def eDigito (c : Char) : Bool := '0' ≤ c && c ≤ '9'

/-- A decimal literal of `f64::from_str`: sign, mantissa digits, their scale. -/
structure Decimal where
  negativo : Bool
  mantissa : ℕ
  expoente : ℤ

def sinal : List Char → Bool × List Char
  | '-' :: cs => (true, cs)
  | '+' :: cs => (false, cs)
  | cs => (false, cs)

def expoente? : List Char → Option ℤ
  | [] => some 0
  | c :: cs =>
    if c = 'e' ∨ c = 'E' then
      let (neg, ds) := sinal cs
      (natural? 10 ds).map fun n => if neg then -(n : ℤ) else n
    else none

/-- The finite literals of `f64::from_str`; the names of infinity and NaN fail. -/
def decimal? (cs : List Char) : Option Decimal :=
  let (neg, corpo) := sinal cs
  let inteira := corpo.takeWhile eDigito
  let resto := corpo.dropWhile eDigito
  let (fracao, fim) := match resto with
    | '.' :: ds => (ds.takeWhile eDigito, ds.dropWhile eDigito)
    | ds => ([], ds)
  if inteira = [] ∧ fracao = [] then none
  else
    (expoente? fim).bind fun e =>
      (natural? 10 (inteira ++ fracao)).map fun m => ⟨neg, m, e - fracao.length⟩

def Decimal.valor (d : Decimal) : ℚ :=
  let m : ℚ := if d.expoente < 0 then mkRat d.mantissa (10 ^ d.expoente.natAbs)
    else (d.mantissa * 10 ^ d.expoente.natAbs : ℕ)
  if d.negativo then -m else m

def maxSafeInteger : ℤ := 9007199254740991

/-- `Number(text)` when it is a safe integer. -/
def jsNumberSeguro (texto : String) : Option ℤ :=
  let t := jsTrimChars texto.toList
  if t = [] then some 0
  else match corpoComBase t with
    | some (radix, corpo) => inteiroRadix radix i64Min i64Max corpo
    | none =>
      (decimal? t).bind fun d =>
        (Base.Binary64.ofRat d.valor).bind fun n =>
          if n.den = 1 ∧ n.num.natAbs ≤ maxSafeInteger then some n.num else none

/-- `BigInt(text)` when it fits 128 bits. -/
def jsBigint (texto : String) : Option ℤ :=
  let t := jsTrimChars texto.toList
  if t = [] then some 0
  else match corpoComBase t with
    | some (radix, corpo) => inteiroRadix radix i128Min i128Max corpo
    | none =>
      let corpo := (sinal t).2
      if corpo = [] ∨ !corpo.all eDigito then none
      else inteiroRadix 10 i128Min i128Max t

mutual
/-- `String(v)`. -/
def jsStringDe : JsonValue → String
  | .null => "null"
  | .bool b => if b then "true" else "false"
  | .int i => toString i
  | .str s => s
  | .list itens => ",".intercalate (jsItens itens)
  | .map _ => "[object Object]"

/-- The parts of `Array.prototype.join`, where null joins as the empty text. -/
def jsItens : List JsonValue → List String
  | [] => []
  | .null :: vs => "" :: jsItens vs
  | v :: vs => jsStringDe v :: jsItens vs
end

def jsNumberSeguroDe : JsonValue → Option ℤ
  | .int i => some i
  | .null => some 0
  | .bool b => some (if b then 1 else 0)
  | outro => jsNumberSeguro (jsStringDe outro)

def jsBigintDe : JsonValue → Option ℤ
  | .int i => some i
  | .bool b => some (if b then 1 else 0)
  | .null => none
  | .map _ => none
  | outro => jsBigint (jsStringDe outro)

end Eav7
