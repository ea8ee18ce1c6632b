import Eav7.Eavm.Palavra

/-!
# Precompiled contracts

Each one has a price, read from the shape of its input, and a run. The hashes,
the public-key recovery and the BN254 group operations are third-party crates;
the encodings and the checks around them are the code's own. The arithmetic of
the prices is checked: an overflow is a panic.
-/

namespace Eav7
namespace Eavm

inductive EavmError where
  | semGas
  | pilhaCheia
  | pilhaVazia
  | memoriaExcessiva
  | jumpInvalido (destino : ℕ)
  | retornoForaDosLimites
  | opcodeInvalido (op : UInt8)
  | opcodeDesconhecido (op : UInt8)
  | opcodeForaDoFork (op : UInt8)
  | escritaEmChamadaEstatica (op : UInt8)
  | selfdestructNaoSuportado
  | hostIndisponivel (operacao : String)
  | host (mensagem : String)
  deriving DecidableEq

/-- How a computation of the machine can stop short: the failure of a frame, a
panic of the process (an overflow, a slice out of bounds), or the end of the
fuel of the model. -/
inductive Parada where
  | falha (e : EavmError)
  | panico
  | semFim
  deriving DecidableEq

/-! ## Checked arithmetic and slices -/

def dentro (limite n : ℕ) : Except Parada ℕ := if n ≤ limite then .ok n else .error .panico

def u64Add (a b : ℕ) : Except Parada ℕ := dentro u64Max (a + b)

def u64Mul (a b : ℕ) : Except Parada ℕ := dentro u64Max (a * b)

def u64Sub (a b : ℕ) : Except Parada ℕ := if b ≤ a then .ok (a - b) else .error .panico

def u32Add (a b : ℕ) : Except Parada ℕ := dentro u32Max (a + b)

def usizeAdd (a b : ℕ) : Except Parada ℕ := dentro usizeMax (a + b)

def usizeMul (a b : ℕ) : Except Parada ℕ := dentro usizeMax (a * b)

/-- The slice `b[ini..fim]`. -/
def fatiaDe (b : Bytes) (ini fim : ℕ) : Except Parada Bytes :=
  if ini ≤ fim ∧ fim ≤ b.length then .ok ((b.take fim).drop ini) else .error .panico

/-- `b[ini..ini + fonte.len()].copy_from_slice(fonte)`. -/
def copiaEm (b : Bytes) (ini : ℕ) (fonte : Bytes) : Except Parada Bytes :=
  if ini + fonte.length ≤ b.length then
    .ok (b.take ini ++ fonte ++ b.drop (ini + fonte.length))
  else .error .panico

def erroHost {α : Type} (mensagem : String) : Except Parada α := .error (.falha (.host mensagem))

/-! ## Encodings -/

/-- Right-aligned in 32 bytes. -/
def pad32 (b : Bytes) : Bytes :=
  List.replicate (32 - min b.length 32) 0 ++ b.drop (b.length - min b.length 32)

/-- Filled with zeros on the right, or cut, to `n` bytes. -/
def rightPad (b : Bytes) (n : ℕ) : Bytes := b.take n ++ List.replicate (n - b.length) 0

def wordAt (b : Bytes) (off : ℕ) : Bytes := rightPad ((b.drop off).take 32) 32

/-- The tolerant slice: what lies past the end is absent. -/
def fatia (b : Bytes) (ini fim : ℕ) : Bytes := (b.take fim).drop ini

def naturalEm (b : Bytes) (ini fim : ℕ) : ℕ := naturalDeBytes ((b.take fim).drop ini)

/-! ## 0x01 ecrecover -/

def secp256k1N : ℕ := 0xfffffffffffffffffffffffffffffffebaaedce6af48a03bbfd25e8cd0364141

def recoverEthAddress (cr : Cripto) (hash : Bytes) (r s recId : ℕ) : Option Address := do
  let ponto ← cr.recupera hash (bytesDeNatural 32 r) (bytesDeNatural 32 s) recId
  if ponto.length = 64 then some ((cr.keccak256 ponto).drop 12) else none

/-- A high `s` is accepted and lowered, which flips the recovery bit. -/
def ecrecover (cr : Cripto) (input : Bytes) : Bytes :=
  let d := rightPad input 128
  let v := (d.getD 63 0).toNat
  let r := naturalEm d 64 96
  let s := naturalEm d 96 128
  if ((d.take 63).drop 32).any (· ≠ 0) ∨ (v ≠ 27 ∧ v ≠ 28) then []
  else if r = 0 ∨ s = 0 ∨ secp256k1N ≤ r ∨ secp256k1N ≤ s then []
  else
    let alto : Bool := secp256k1N / 2 < s
    let recId := if alto then 1 - (v - 27) else v - 27
    let sNorm := if alto then secp256k1N - s else s
    match recoverEthAddress cr (d.take 32) r sNorm recId with
    | some endereco => pad32 endereco
    | none => []

/-! ## 0x05 modexp -/

def modexpMaxLen : ℕ := 1024

def modexpLengths (input : Bytes) : Except Parada (ℕ × ℕ × ℕ) :=
  let d := rightPad input 96
  let bl := naturalEm d 0 32
  let el := naturalEm d 32 64
  let ml := naturalEm d 64 96
  if modexpMaxLen < bl ∨ modexpMaxLen < el ∨ modexpMaxLen < ml then
    erroHost "MODEXP: operando excede o limite"
  else .ok (bl, el, ml)

def bitsDe (n : ℕ) : ℕ := if n = 0 then 0 else n.log2 + 1

def modexpGas (bl el ml expHead : ℕ) : Except Parada ℕ := do
  let maxLen := max bl ml
  let words := divCeil maxLen 8
  let quadrado ← u64Mul words words
  let dobro ← u64Mul 2 quadrado
  let complexity := if 32 < maxLen then dobro else 16
  let bitLen := bitsDe expHead
  let iters := if el ≤ 32 then bitLen - 1
    else saturatingAdd (saturatingMul 16 (el - 32)) (bitLen - 1)
  return max (saturatingMul complexity (max iters 1)) 500

def modexpGasFromInput (input : Bytes) : Except Parada ℕ := do
  let (bl, el, ml) ← modexpLengths input
  let body := input.drop 96
  let headLen := min el 32
  modexpGas bl el ml (naturalDeBytes (rightPad (fatia body bl (bl + headLen)) headLen))

def modpowLaco : ℕ → (r base exp modulo : ℕ) → ℕ
  | 0, r, _, _, _ => r
  | n + 1, r, base, exp, modulo =>
    if exp = 0 then r
    else modpowLaco n (if exp % 2 = 1 then r * base % modulo else r) (base * base % modulo)
      (exp / 2) modulo

def modpow (base exp modulo : ℕ) : ℕ := modpowLaco (bitsDe exp) (1 % modulo) base exp modulo

/-- A zero exponent gives 1 without any reduction, also modulo 1. -/
def modexpRun (input : Bytes) : Except Parada Bytes := do
  let (bl, el, ml) ← modexpLengths input
  if bl = 0 ∧ ml = 0 then return []
  else
    let body := input.drop 96
    let base := naturalDeBytes (rightPad (fatia body 0 bl) bl)
    let exp := naturalDeBytes (rightPad (fatia body bl (bl + el)) el)
    let modulo := naturalDeBytes (rightPad (fatia body (bl + el) (bl + el + ml)) ml)
    let out := if modulo = 0 then 0 else if exp = 0 then 1 else modpow base exp modulo
    return bytesDeNatural ml out

/-! ## 0x06 to 0x08, the curve BN254 -/

def fqModulus : ℕ :=
  21888242871839275222246405745257275088696311157297823662689037894645226208583

def frModulus : ℕ :=
  21888242871839275222246405745257275088548364400416034343698204186575808495617

/-- A point in affine coordinates; `none` is the point at infinity. -/
abbrev G1 := Option (ℕ × ℕ)

/-- The coordinates of the second group, each with its real and imaginary part. -/
abbrev G2 := Option ((ℕ × ℕ) × (ℕ × ℕ))

/-- The crates behind the precompiled contracts. -/
structure Precompilados where
  sha256 : Bytes → Bytes
  sha256_length : ∀ b, (sha256 b).length = 32
  ripemd160 : Bytes → Bytes
  g1OnCurve : ℕ × ℕ → Bool
  g1Add : G1 → G1 → G1
  g1Mul : G1 → ℕ → G1
  g2OnCurve : (ℕ × ℕ) × (ℕ × ℕ) → Bool
  g2InSubgroup : (ℕ × ℕ) × (ℕ × ℕ) → Bool
  /-- Whether the product of the pairings is the neutral element. -/
  multiPairing : List (ℕ × ℕ) → List ((ℕ × ℕ) × (ℕ × ℕ)) → Bool

def readFq (b : Bytes) (off : ℕ) : Except Parada ℕ :=
  let v := naturalDeBytes (wordAt b off)
  if fqModulus ≤ v then erroHost "BN254: coordenada >= p" else .ok v

def writeG1 (p : G1) : Bytes :=
  match p with
  | none => List.replicate 64 0
  | some (x, y) => bytesDeNatural 32 x ++ bytesDeNatural 32 y

section

variable (pc : Precompilados)

def readG1 (b : Bytes) (off : ℕ) : Except Parada G1 := do
  let x ← readFq b off
  let y ← readFq b (off + 32)
  if x = 0 ∧ y = 0 then return none
  else if pc.g1OnCurve (x, y) = false then erroHost "BN254: ponto G1 fora da curva"
  else return some (x, y)

/-- The imaginary part of each coordinate comes first. -/
def readG2 (b : Bytes) (off : ℕ) : Except Parada G2 := do
  let xIm ← readFq b off
  let xRe ← readFq b (off + 32)
  let yIm ← readFq b (off + 64)
  let yRe ← readFq b (off + 96)
  let p := ((xRe, xIm), (yRe, yIm))
  if p = ((0, 0), (0, 0)) then return none
  else if pc.g2OnCurve p = false then erroHost "BN254: ponto G2 fora da curva"
  else if pc.g2InSubgroup p = false then
    erroHost "BN254: ponto G2 fora do subgrupo de ordem r"
  else return some p

def bn254EcAdd (input : Bytes) : Except Parada Bytes := do
  let d := rightPad input 128
  let a ← readG1 pc d 0
  let b ← readG1 pc d 64
  return writeG1 (pc.g1Add a b)

def bn254EcMul (input : Bytes) : Except Parada Bytes := do
  let d := rightPad input 96
  let p ← readG1 pc d 0
  return writeG1 (pc.g1Mul p (naturalEm d 64 96 % frModulus))

/-- The pairs of an input; one with a point at infinity is read and left out. -/
def lePares (input : Bytes) : ℕ → ℕ → Except Parada (List ((ℕ × ℕ) × ((ℕ × ℕ) × (ℕ × ℕ))))
  | 0, _ => .ok []
  | k + 1, off => do
    let p ← readG1 pc input off
    let q ← readG2 pc input (off + 64)
    let resto ← lePares input k (off + 192)
    match p, q with
    | some p, some q => return (p, q) :: resto
    | _, _ => return resto

def bn254EcPairing (input : Bytes) : Except Parada Bytes :=
  if input.length % 192 ≠ 0 then erroHost "BN254: entrada do pairing não é múltiplo de 192"
  else do
    let pares ← lePares pc input (input.length / 192) 0
    let ok := pares.isEmpty || pc.multiPairing (pares.map Prod.fst) (pares.map Prod.snd)
    return List.replicate 31 0 ++ [if ok then 1 else 0]

end

/-! ## 0x09 blake2f -/

def blake2fInputLen : ℕ := 213

def blake2bIv : List UInt64 :=
  [0x6a09e667f3bcc908, 0xbb67ae8584caa73b, 0x3c6ef372fe94f82b, 0xa54ff53a5f1d36f1,
    0x510e527fade682d1, 0x9b05688c2b3e6c1f, 0x1f83d9abfb41bd6b, 0x5be0cd19137e2179]

def sigma : List (List ℕ) :=
  [[0, 1, 2, 3, 4, 5, 6, 7, 8, 9, 10, 11, 12, 13, 14, 15],
    [14, 10, 4, 8, 9, 15, 13, 6, 1, 12, 0, 2, 11, 7, 5, 3],
    [11, 8, 12, 0, 5, 2, 15, 13, 10, 14, 3, 6, 7, 1, 9, 4],
    [7, 9, 3, 1, 13, 12, 11, 14, 2, 6, 5, 10, 4, 0, 15, 8],
    [9, 0, 5, 7, 2, 4, 10, 15, 14, 1, 11, 12, 6, 8, 3, 13],
    [2, 12, 6, 10, 0, 11, 8, 3, 4, 13, 7, 5, 15, 14, 1, 9],
    [12, 5, 1, 15, 14, 13, 4, 10, 0, 7, 6, 3, 9, 2, 8, 11],
    [13, 11, 7, 14, 12, 1, 3, 9, 5, 0, 15, 4, 8, 6, 2, 10],
    [6, 15, 14, 9, 11, 3, 0, 8, 12, 2, 13, 7, 1, 4, 10, 5],
    [10, 2, 8, 4, 7, 6, 1, 5, 15, 11, 9, 14, 3, 12, 13, 0]]

def rotateRight (x n : UInt64) : UInt64 := (x >>> n) ||| (x <<< (64 - n))

def em (v : List UInt64) (i : ℕ) : UInt64 := v.getD i 0

def mix (v : List UInt64) (a b c d : ℕ) (x y : UInt64) : List UInt64 :=
  let v := v.set a (em v a + em v b + x)
  let v := v.set d (rotateRight (em v d ^^^ em v a) 32)
  let v := v.set c (em v c + em v d)
  let v := v.set b (rotateRight (em v b ^^^ em v c) 24)
  let v := v.set a (em v a + em v b + y)
  let v := v.set d (rotateRight (em v d ^^^ em v a) 16)
  let v := v.set c (em v c + em v d)
  v.set b (rotateRight (em v b ^^^ em v c) 63)

/-- The columns, then the diagonals. -/
def posicoes : List (ℕ × ℕ × ℕ × ℕ) :=
  [(0, 4, 8, 12), (1, 5, 9, 13), (2, 6, 10, 14), (3, 7, 11, 15),
    (0, 5, 10, 15), (1, 6, 11, 12), (2, 7, 8, 13), (3, 4, 9, 14)]

def blakeRodada (m : List UInt64) (v : List UInt64) (r : ℕ) : List UInt64 :=
  let s := sigma.getD (r % 10) []
  posicoes.zipIdx.foldl (fun v p =>
    mix v p.1.1 p.1.2.1 p.1.2.2.1 p.1.2.2.2 (em m (s.getD (2 * p.2) 0))
      (em m (s.getD (2 * p.2 + 1) 0))) v

def blakeRodadas (m : List UInt64) : ℕ → ℕ → List UInt64 → List UInt64
  | 0, _, v => v
  | n + 1, r, v => blakeRodadas m n (r + 1) (blakeRodada m v r)

def blake2bCompress (h m : List UInt64) (t0 t1 : UInt64) (f : Bool) (rounds : ℕ) :
    List UInt64 :=
  let v := h ++ blake2bIv
  let v := v.set 12 (em v 12 ^^^ t0)
  let v := v.set 13 (em v 13 ^^^ t1)
  let v := if f then v.set 14 (~~~ em v 14) else v
  let v := blakeRodadas m rounds 0 v
  (List.range 8).map fun i => em h i ^^^ em v i ^^^ em v (i + 8)

def leU64 (b : Bytes) (off : ℕ) : UInt64 :=
  UInt64.ofNat (naturalDeBytes (((b.drop off).take 8).reverse))

def paraLeBytes (x : UInt64) : Bytes := (bytesDeNatural 8 x.toNat).reverse

/-- The two checks of the shape, made again by the price and by the run. -/
def blake2fForma (input : Bytes) : Except Parada Unit :=
  if input.length ≠ blake2fInputLen then
    erroHost "BLAKE2F: entrada deve ter exatamente 213 bytes"
  else if 1 < (input.getD 212 0).toNat then erroHost "BLAKE2F: flag de bloco final inválida"
  else .ok ()

def blake2f (input : Bytes) : Except Parada Bytes := do
  blake2fForma input
  let rounds := naturalEm input 0 4
  let h := (List.range 8).map fun i => leU64 input (4 + i * 8)
  let m := (List.range 16).map fun i => leU64 input (68 + i * 8)
  let fora := blake2bCompress h m (leU64 input 196) (leU64 input 204) (input.getD 212 0 = 1) rounds
  return fora.flatMap paraLeBytes

/-! ## The two steps of a precompiled contract -/

def wordsDe (n : ℕ) : ℕ := divCeil n 32

/-- A price linear in the words of the input. -/
def gasPorPalavra (fixo porPalavra n : ℕ) : Except Parada ℕ := do
  let custo ← u64Mul porPalavra (wordsDe n)
  u64Add fixo custo

def precompileGas (id : ℕ) (input : Bytes) : Except Parada ℕ :=
  match id with
  | 1 => .ok 500000
  | 2 => gasPorPalavra 60 12 input.length
  | 3 => gasPorPalavra 600 120 input.length
  | 4 => gasPorPalavra 15 3 input.length
  | 5 => modexpGasFromInput input
  | 6 => .ok (150 * Config.bn254GasMultiplier)
  | 7 => .ok (6000 * Config.bn254GasMultiplier)
  | 8 =>
    if input.length % 192 ≠ 0 then erroHost "BN254: entrada do pairing não é múltiplo de 192"
    else .ok (saturatingMul (saturatingAdd (saturatingMul 34000 (input.length / 192)) 45000)
      Config.bn254GasMultiplier)
  | 9 => do
    blake2fForma input
    return naturalEm input 0 4
  | _ => erroHost "precompile inexistente"

def precompileRun (cr : Cripto) (pc : Precompilados) (id : ℕ) (input : Bytes) :
    Except Parada Bytes :=
  match id with
  | 1 => .ok (ecrecover cr input)
  | 2 => .ok (pc.sha256 input)
  | 3 => .ok (pad32 (pc.ripemd160 input))
  | 4 => .ok input
  | 5 => modexpRun input
  | 6 => bn254EcAdd pc input
  | 7 => bn254EcMul pc input
  | 8 => bn254EcPairing pc input
  | 9 => blake2f input
  | _ => erroHost "precompile inexistente"

/-- Below the fork 0x06 to 0x09 are plain addresses. -/
def precompileId (address : Address) (osaka : Bool) : Option ℕ :=
  let n := (address.getD 19 0).toNat
  if (address.take 19).any (· ≠ 0) then none
  else if 1 ≤ n ∧ n ≤ 5 then some n
  else if 6 ≤ n ∧ n ≤ 9 ∧ osaka then some n
  else none

end Eavm
end Eav7
