import Eav7.Base.Fallible
import Eav7.Eavm.Precompiles

/-!
# The bytecode interpreter

One frame is the constants `Quadro` of its call and the machine `Interp`, which
holds the world behind the host. An opcode decodes to an instruction; the loop
runs one instruction a turn, and every turn that goes on pays at least one unit
of gas, so the gas of the frame is fuel enough.
-/

namespace Eav7
namespace Eavm

open Base

/-! ## The table of gas -/

def gasBase : ℕ := 2
def gasVerylow : ℕ := 3
def gasLow : ℕ := 5
def gasMid : ℕ := 8
def gasHigh : ℕ := 10
def gasKeccak : ℕ := 30
def gasKeccakWord : ℕ := 6
def gasSload : ℕ := 100
def gasSstoreSet : ℕ := 2000
def gasSstoreReset : ℕ := 800
def gasMemWord : ℕ := 3
def gasCopyWord : ℕ := 3
def gasLog : ℕ := 375
def gasLogTopic : ℕ := 375
def gasLogData : ℕ := 8
def gasJumpdest : ℕ := 1
def gasSloadTransient : ℕ := 100
def gasSstoreTransient : ℕ := 100
def gasCall : ℕ := 100
def gasCallValue : ℕ := 9000
def gasCreate : ℕ := 3200
def gasExtcode : ℕ := 100
def gasCodeDepositByte : ℕ := 20
def estipendio : ℕ := 2300
def maxCallDepth : ℕ := 128
def limiteMemoria : ℕ := 100000000
def limitePilha : ℕ := 1024

/-! ## What crosses the host -/

structure Log where
  address : Address
  topics : List Word
  data : Bytes
  deriving DecidableEq

inductive CallKind where
  | call
  | callCode
  | delegateCall
  | staticCall
  deriving DecidableEq

structure BlockContext where
  number : ℕ
  timestamp : ℕ
  gasLimit : ℕ
  chainId : ℕ

structure CallRequest where
  kind : CallKind
  caller : Address
  para : Address
  value : Word
  input : Bytes
  gas : ℕ
  isStatic : Bool
  delegate : Bool
  codeAddr : Address
  execAddress : Address
  execCaller : Address
  execValue : Word
  depth : ℕ
  block : BlockContext
  origin : Address
  gasPrice : Word

structure CreateRequest where
  caller : Address
  value : Word
  initCode : Bytes
  gas : ℕ
  salt : Option Word
  depth : ℕ
  block : BlockContext
  origin : Address
  gasPrice : Word

structure CallOutcome where
  success : Bool := false
  returnData : Bytes := []
  gasUsed : ℕ := 0
  logs : List Log := []

structure CreateOutcome where
  success : Bool := false
  address : Address := zeroAddr
  returnData : Bytes := []
  gasUsed : ℕ := 0
  logs : List Log := []

/-- What the interpreter asks of the world. -/
structure Host (σ : Type) where
  sload : σ → Address → Word → Word
  sstore : Address → Word → Word → EStateM Parada σ Unit
  tload : σ → Address → Word → Word
  tstore : Address → Word → Word → EStateM Parada σ Unit
  balance : σ → Address → Word
  code : σ → Address → Bytes
  blockHash : σ → Word → ℕ → Word
  call : CallRequest → EStateM Parada σ CallOutcome
  create : CreateRequest → EStateM Parada σ CreateOutcome

structure ExecParams where
  code : Bytes
  calldata : Bytes
  gas : ℕ
  caller : Address
  address : Address
  origin : Option Address
  value : Word
  block : BlockContext
  gasPrice : Word
  depth : ℕ
  isStatic : Bool := false
  osakaHeight : ℕ := Config.eavmOsakaHeight

/-- The output of a frame: `success = false` is a revert. -/
structure ExecResult where
  success : Bool
  returnData : Bytes
  gasUsed : ℕ
  gasLeft : ℕ
  logs : List Log

/-! ## The frame and its machine -/

/-- The positions of the `JUMPDEST` bytes outside the immediates of `PUSH`. The
second argument counts the immediate bytes still to skip. -/
def analisaJumpdests : ℕ → ℕ → Bytes → List ℕ
  | _, _, [] => []
  | i, k + 1, _ :: code => analisaJumpdests (i + 1) k code
  | i, 0, op :: code =>
    if op = 0x5b then i :: analisaJumpdests (i + 1) 0 code
    else if 0x60 ≤ op.toNat ∧ op.toNat ≤ 0x7f then
      analisaJumpdests (i + 1) (op.toNat - 0x5f) code
    else analisaJumpdests (i + 1) 0 code

/-- What no instruction of a frame changes. -/
structure Quadro where
  code : Bytes
  calldata : Bytes
  jumpdests : List ℕ
  gasInicial : ℕ
  selfAddr : Address
  caller : Address
  origin : Address
  value : Word
  gasPrice : Word
  block : BlockContext
  depth : ℕ
  isStatic : Bool
  osaka : Bool

def quadroDe (p : ExecParams) : Quadro :=
  { code := p.code
    calldata := p.calldata
    jumpdests := analisaJumpdests 0 0 p.code
    gasInicial := p.gas
    selfAddr := p.address
    caller := p.caller
    origin := p.origin.getD p.caller
    value := p.value
    gasPrice := p.gasPrice
    block := p.block
    depth := p.depth
    isStatic := p.isStatic
    osaka := p.osakaHeight ≤ p.block.number }

/-- `mem` is the physical buffer, which doubles; `memWords` its logical size. The
top of the stack is the head of the list. -/
structure Interp (σ : Type) where
  host : σ
  stack : List Word
  mem : Bytes
  memWords : ℕ
  pc : ℕ
  gasLeft : ℕ
  lastReturn : Bytes
  logs : List Log

def interpInicial {σ : Type} (p : ExecParams) (s : σ) : Interp σ :=
  { host := s, stack := [], mem := [], memWords := 0, pc := 0, gasLeft := p.gas,
    lastReturn := [], logs := [] }

abbrev Passo (σ : Type) := EStateM Parada (Interp σ)

section Primitivas

variable {σ : Type}

def falha {α : Type} (e : EavmError) : Passo σ α := throw (.falha e)

def exige (c : Prop) [Decidable c] (e : EavmError) : Passo σ Unit :=
  if c then pure () else falha e

def spend (g : ℕ) : Passo σ Unit := do
  let i ← get
  exige (g ≤ i.gasLeft) .semGas
  set { i with gasLeft := i.gasLeft - g }

def push (v : Word) : Passo σ Unit := do
  let i ← get
  exige (i.stack.length < limitePilha) .pilhaCheia
  set { i with stack := v :: i.stack }

def pop : Passo σ Word := do
  let i ← get
  match i.stack with
  | [] => falha .pilhaVazia
  | v :: stack => do
    set { i with stack := stack }
    return v

def peek (n : ℕ) : Passo σ Word := do
  let i ← get
  match i.stack[n]? with
  | none => falha .pilhaVazia
  | some v => return v

def popN : ℕ → Passo σ (List Word)
  | 0 => return []
  | n + 1 => do
    let v ← pop
    let vs ← popN n
    return v :: vs

def gasCopia (size : ℕ) : ℕ := saturatingMul gasCopyWord (divCeil size 32)

/-! ## Memory -/

/-- The price of a memory of `w` words. -/
def custoMem (w : ℕ) : Except Parada ℕ := do
  let linear ← u64Mul gasMemWord w
  let quadrado ← u64Mul w w
  u64Add linear (quadrado / 512)

/-- The growth of the logical size is what pays. -/
def cobraExpansao (words : ℕ) : Passo σ Unit := do
  let i ← get
  if i.memWords < words then do
    let novo ← custoMem words
    let atual ← custoMem i.memWords
    let delta ← u64Sub novo atual
    spend delta
    modify fun i => { i with memWords := words }
  else return ()

/-- The buffer at least doubles when it grows. -/
def cresceMem (words fim : ℕ) : Passo σ Unit := do
  let i ← get
  if i.mem.length < fim then do
    let pedido ← usizeMul words 32
    let dobro ← usizeMul i.mem.length 2
    set { i with mem := rightPad i.mem (max pedido dobro) }
  else return ()

def memExpand (offset size : Word) : Passo σ Unit :=
  if size = 0 then return ()
  else do
    let fim := min (u128Sat offset + u128Sat size) u128Max
    exige (fim ≤ limiteMemoria) .memoriaExcessiva
    let words := divCeil fim 32
    cobraExpansao words
    cresceMem words fim

/-- Writes over bytes that the memory already has. -/
def escreve (ini : ℕ) (fonte : Bytes) : Passo σ Unit := do
  let i ← get
  let mem ← copiaEm i.mem ini fonte
  set { i with mem := mem }

def memWrite (offset : Word) (bytes : Bytes) : Passo σ Unit := do
  memExpand offset (BitVec.ofNat 256 bytes.length)
  if bytes = [] then return () else escreve (usizeSat offset) bytes

def memRead (offset size : Word) : Passo σ Bytes := do
  memExpand offset size
  if size = 0 then return []
  else do
    let i ← get
    let fim ← usizeAdd (usizeSat offset) (usizeSat size)
    fatiaDe i.mem (usizeSat offset) fim

/-- Expands first, then copies what the source has; the rest stays as it is. -/
def copiaParaMem (dest : Word) (src : Bytes) (srcOff size : ℕ) : Passo σ Unit := do
  memExpand dest (BitVec.ofNat 256 size)
  if size = 0 then return ()
  else
    let fim := min (min (srcOff + size) usizeMax) src.length
    if srcOff < fim then do
      let fonte ← fatiaDe src srcOff fim
      escreve (usizeSat dest) fonte
    else return ()

/-- `copy_within` of `n` bytes: the source is read whole before the write. -/
def copiaDentro (dest orig n : ℕ) : Passo σ Unit := do
  let i ← get
  let fim ← usizeAdd orig n
  let fonte ← fatiaDe i.mem orig fim
  escreve dest fonte

end Primitivas

/-! ## Instructions -/

inductive Binaria where
  | add | mul | sub | div | sdiv | mod | smod | signextend
  | lt | gt | slt | sgt | eq | and | or | xor | byte | shl | shr | sar
  deriving DecidableEq

namespace Binaria

def gas : Binaria → ℕ
  | mul | div | sdiv | mod | smod | signextend => gasLow
  | _ => gasVerylow

def valor : Binaria → Word → Word → Word
  | add, a, b => a + b
  | mul, a, b => a * b
  | sub, a, b => a - b
  | div, a, b => Eavm.div a b
  | sdiv, a, b => Eavm.sdiv a b
  | mod, a, b => Eavm.mod a b
  | smod, a, b => Eavm.smod a b
  | signextend, a, b => Eavm.signextend a b
  | lt, a, b => ofBool (a.toNat < b.toNat)
  | gt, a, b => ofBool (b.toNat < a.toNat)
  | slt, a, b => ofBool (Eavm.slt a b)
  | sgt, a, b => ofBool (Eavm.slt b a)
  | eq, a, b => ofBool (a = b)
  | and, a, b => a &&& b
  | or, a, b => a ||| b
  | xor, a, b => a ^^^ b
  | byte, a, b => Eavm.byte a b
  | shl, a, b => Eavm.shl a b
  | shr, a, b => Eavm.shr a b
  | sar, a, b => Eavm.sar a b

end Binaria

/-- The instructions that push one value the frame has at hand. -/
inductive Leitura where
  | address | origin | caller | callvalue | calldatasize | codesize | gasprice
  | returndatasize | coinbase | timestamp | number | prevrandao | gaslimit | chainid
  | basefee | pc | msize | gas | push0
  deriving DecidableEq

def Leitura.valor {σ : Type} (q : Quadro) (i : Interp σ) : Leitura → Word
  | address => wordDeEndereco q.selfAddr
  | origin => wordDeEndereco q.origin
  | caller => wordDeEndereco q.caller
  | callvalue => q.value
  | calldatasize => BitVec.ofNat 256 q.calldata.length
  | codesize => BitVec.ofNat 256 q.code.length
  | gasprice => q.gasPrice
  | returndatasize => BitVec.ofNat 256 i.lastReturn.length
  | coinbase | prevrandao | basefee | push0 => 0
  | timestamp => BitVec.ofNat 256 q.block.timestamp
  | number => BitVec.ofNat 256 q.block.number
  | gaslimit => BitVec.ofNat 256 q.block.gasLimit
  | chainid => BitVec.ofNat 256 q.block.chainId
  | pc => BitVec.ofNat 256 i.pc
  -- the physical size of the buffer, not the logical one
  | msize => BitVec.ofNat 256 i.mem.length
  | gas => BitVec.ofNat 256 i.gasLeft

inductive Instrucao where
  | stop
  | binaria (b : Binaria)
  | addmod | mulmod
  | exp
  | iszero | not
  | clz
  | keccak
  | leitura (l : Leitura)
  | balance | selfbalance
  | calldataload | calldatacopy | codecopy
  | extcodesize | extcodecopy | extcodehash
  | returndatacopy
  | blockhash
  | blobhash | blobbasefee
  | pop | mload | mstore | mstore8
  | sload | sstore
  | jump | jumpi | jumpdest
  | tload | tstore
  | mcopy
  | push (n : Fin 33)
  | dup (n : Fin 16)
  | swap (n : Fin 17)
  | log (n : Fin 5)
  | create (comSalt : Bool)
  | call (kind : CallKind)
  | sai (success : Bool)
  | invalid
  | selfdestruct
  | desconhecido

def opcodes : List (ℕ × Instrucao) :=
  [(0x00, .stop), (0x01, .binaria .add), (0x02, .binaria .mul), (0x03, .binaria .sub),
    (0x04, .binaria .div), (0x05, .binaria .sdiv), (0x06, .binaria .mod),
    (0x07, .binaria .smod), (0x08, .addmod), (0x09, .mulmod), (0x0a, .exp),
    (0x0b, .binaria .signextend), (0x10, .binaria .lt), (0x11, .binaria .gt),
    (0x12, .binaria .slt), (0x13, .binaria .sgt), (0x14, .binaria .eq), (0x15, .iszero),
    (0x16, .binaria .and), (0x17, .binaria .or), (0x18, .binaria .xor), (0x19, .not),
    (0x1a, .binaria .byte), (0x1b, .binaria .shl), (0x1c, .binaria .shr),
    (0x1d, .binaria .sar), (0x1e, .clz), (0x20, .keccak), (0x30, .leitura .address),
    (0x31, .balance), (0x32, .leitura .origin), (0x33, .leitura .caller),
    (0x34, .leitura .callvalue), (0x35, .calldataload), (0x36, .leitura .calldatasize),
    (0x37, .calldatacopy), (0x38, .leitura .codesize), (0x39, .codecopy),
    (0x3a, .leitura .gasprice), (0x3b, .extcodesize), (0x3c, .extcodecopy),
    (0x3d, .leitura .returndatasize), (0x3e, .returndatacopy), (0x3f, .extcodehash),
    (0x40, .blockhash), (0x41, .leitura .coinbase), (0x42, .leitura .timestamp),
    (0x43, .leitura .number), (0x44, .leitura .prevrandao), (0x45, .leitura .gaslimit),
    (0x46, .leitura .chainid), (0x47, .selfbalance), (0x48, .leitura .basefee),
    (0x49, .blobhash), (0x4a, .blobbasefee), (0x50, .pop), (0x51, .mload), (0x52, .mstore),
    (0x53, .mstore8), (0x54, .sload), (0x55, .sstore), (0x56, .jump), (0x57, .jumpi),
    (0x58, .leitura .pc), (0x59, .leitura .msize), (0x5a, .leitura .gas), (0x5b, .jumpdest),
    (0x5c, .tload), (0x5d, .tstore), (0x5e, .mcopy), (0x5f, .leitura .push0),
    (0xf0, .create false), (0xf1, .call .call), (0xf2, .call .callCode), (0xf3, .sai true),
    (0xf4, .call .delegateCall), (0xf5, .create true), (0xfa, .call .staticCall),
    (0xfd, .sai false), (0xfe, .invalid), (0xff, .selfdestruct)]

/-- The ranges `PUSHn`, `DUPn`, `SWAPn` and `LOGn`. -/
def decodificaFaixa (n : ℕ) : Instrucao :=
  if 0x60 ≤ n ∧ n ≤ 0x7f then .push (Fin.ofNat 33 (n - 0x5f))
  else if 0x80 ≤ n ∧ n ≤ 0x8f then .dup (Fin.ofNat 16 (n - 0x80))
  else if 0x90 ≤ n ∧ n ≤ 0x9f then .swap (Fin.ofNat 17 (n - 0x8f))
  else if 0xa0 ≤ n ∧ n ≤ 0xa4 then .log (Fin.ofNat 5 (n - 0xa0))
  else .desconhecido

def decodifica (op : UInt8) : Instrucao :=
  (opcodes.lookup op.toNat).getD (decodificaFaixa op.toNat)

/-- What one instruction asks of the loop. -/
inductive Fluxo where
  | segue
  | salta (np : ℕ)
  | fim (r : ExecResult)

/-- An instruction that does not end the frame. -/
def Continua (f : Fluxo) : Prop := ∀ r, f ≠ .fim r

theorem Continua.segue : Continua .segue := by
  rintro r ⟨⟩

theorem Continua.salta (np : ℕ) : Continua (.salta np) := by
  rintro r ⟨⟩

section Executa

variable {σ : Type} (cr : Cripto) (h : Host σ) (q : Quadro)

/-- Runs an operation of the host on the world inside the machine. -/
def noHost {α : Type} (m : EStateM Parada σ α) : Passo σ α := fun i =>
  match m i.host with
  | .ok a s => .ok a { i with host := s }
  | .error e s => .error e { i with host := s }

def done (success : Bool) (returnData : Bytes) : Passo σ Fluxo := do
  let i ← get
  let gasUsed ← u64Sub q.gasInicial i.gasLeft
  return .fim { success := success, returnData := returnData, gasUsed := gasUsed,
                gasLeft := i.gasLeft, logs := i.logs }

def exigeOsaka (op : UInt8) : Passo σ Unit := exige (q.osaka = true) (.opcodeForaDoFork op)

def exigeEscrita (op : UInt8) : Passo σ Unit :=
  exige (q.isStatic = false) (.escritaEmChamadaEstatica op)

/-- Pops `n` operands after paying `g`, and pushes one value. -/
def opera (g n : ℕ) (f : List Word → Word) : Passo σ Fluxo := do
  spend g
  let args ← popN n
  push (f args)
  return .segue

def leva2 (f : Word → Word → Word) : List Word → Word
  | [a, b] => f a b
  | _ => 0

def leva3 (f : Word → Word → Word → Word) : List Word → Word
  | [a, b, c] => f a b c
  | _ => 0

def leva1 (f : Word → Word) : List Word → Word
  | [a] => f a
  | _ => 0

/-- Pays `g`, reads the machine and pushes what it says. -/
def empurra (g : ℕ) (f : Interp σ → Word) : Passo σ Fluxo := do
  spend g
  let i ← get
  push (f i)
  return .segue

def expOp : Passo σ Fluxo := do
  let a ← pop
  let e ← pop
  let variavel ← u64Mul 50 (divCeil (bitLen e) 8)
  let custo ← u64Add gasHigh variavel
  spend custo
  push (expMod2_256 a e)
  return .segue

def keccakOp : Passo σ Fluxo := do
  spend gasKeccak
  let o ← pop
  let l ← pop
  spend (saturatingMul gasKeccakWord (divCeil (u64Sat l) 32))
  let dados ← memRead o l
  push (wordDeBytes (cr.keccak256 dados))
  return .segue

def calldataloadOp : Passo σ Fluxo := do
  spend gasVerylow
  let w ← pop
  let i := usizeSat w
  if i < q.calldata.length then do
    let pedido ← usizeAdd i 32
    let dados ← fatiaDe q.calldata i (min pedido q.calldata.length)
    push (wordDeBytes (rightPad dados 32))
    return .segue
  else do
    push 0
    return .segue

/-- `CALLDATACOPY` and `CODECOPY`. -/
def copiaOp (fonte : Bytes) : Passo σ Fluxo := do
  spend gasVerylow
  let d ← pop
  let o ← pop
  let s ← pop
  spend (gasCopia (u64Sat s))
  copiaParaMem d fonte (usizeSat o) (u64Sat s)
  return .segue

def extcodecopyOp : Passo σ Fluxo := do
  spend gasExtcode
  let w ← pop
  let d ← pop
  let o ← pop
  let s ← pop
  spend (gasCopia (u64Sat s))
  let i ← get
  copiaParaMem d (h.code i.host (enderecoDeWord w)) (usizeSat o) (u64Sat s)
  return .segue

def extcodehashOp : Passo σ Fluxo := do
  spend gasExtcode
  let w ← pop
  let i ← get
  let ec := h.code i.host (enderecoDeWord w)
  spend (saturatingMul gasKeccakWord (divCeil ec.length 32))
  push (if ec = [] then 0 else wordDeBytes (cr.keccak256 ec))
  return .segue

/-- The only copy that refuses to read past its source. -/
def returndatacopyOp : Passo σ Fluxo := do
  spend gasVerylow
  let d ← pop
  let o ← pop
  let s ← pop
  let i ← get
  exige (min (u128Sat o + u128Sat s) u128Max ≤ i.lastReturn.length) .retornoForaDosLimites
  spend (gasCopia (usizeSat s))
  let i ← get
  let fim ← usizeAdd (usizeSat o) (usizeSat s)
  let dados ← fatiaDe i.lastReturn (usizeSat o) fim
  memWrite d dados
  return .segue

def mloadOp : Passo σ Fluxo := do
  spend gasVerylow
  let o ← pop
  let b ← memRead o 32
  push (wordDeBytes b)
  return .segue

/-- `MSTORE` and `MSTORE8`. -/
def mstoreOp (bytes : Word → Bytes) : Passo σ Fluxo := do
  spend gasVerylow
  let o ← pop
  let v ← pop
  memWrite o (bytes v)
  return .segue

/-- The ban in a static frame comes before any gas. -/
def sstoreOp (op : UInt8) : Passo σ Fluxo := do
  exigeEscrita q op
  let k ← pop
  let v ← pop
  let i ← get
  spend (if h.sload i.host q.selfAddr k = 0 ∧ v ≠ 0 then gasSstoreSet else gasSstoreReset)
  noHost (h.sstore q.selfAddr k v)
  return .segue

def tstoreOp (op : UInt8) : Passo σ Fluxo := do
  spend gasSstoreTransient
  exigeOsaka q op
  exigeEscrita q op
  let k ← pop
  let v ← pop
  noHost (h.tstore q.selfAddr k v)
  return .segue

def saltaPara (t : Word) : Passo σ Fluxo := do
  exige (usizeSat t ∈ q.jumpdests) (.jumpInvalido (usizeSat t))
  return .salta (usizeSat t)

def jumpOp : Passo σ Fluxo := do
  spend gasMid
  let t ← pop
  saltaPara q t

def jumpiOp : Passo σ Fluxo := do
  spend gasHigh
  let t ← pop
  let c ← pop
  if c = 0 then return .segue else saltaPara q t

/-- Both ranges are expanded before the move. -/
def mcopyOp (op : UInt8) : Passo σ Fluxo := do
  spend gasVerylow
  exigeOsaka q op
  let d ← pop
  let o ← pop
  let s ← pop
  spend (gasCopia (u64Sat s))
  memExpand o s
  memExpand d s
  if s = 0 then return .segue
  else do
    copiaDentro (usizeSat d) (usizeSat o) (usizeSat s)
    return .segue

/-- The bytes of an immediate that the code still has. -/
def imediato (code : Bytes) (ini fim : ℕ) : Except Parada Bytes :=
  if ini < fim then fatiaDe code ini fim else .ok []

/-- An immediate cut by the end of the code is filled with zeros. -/
def pushOp (n : ℕ) : Passo σ Fluxo := do
  spend gasVerylow
  let i ← get
  let ini ← usizeAdd i.pc 1
  let np ← usizeAdd ini n
  let dados ← imediato q.code ini (min np q.code.length)
  push (wordDeBytes (rightPad dados n))
  return .salta np

def dupOp (n : ℕ) : Passo σ Fluxo := do
  spend gasVerylow
  let v ← peek n
  push v
  return .segue

/-- Exchanges the top of the stack with the item `n` below it. -/
def swapOp (n : ℕ) : Passo σ Fluxo := do
  spend gasVerylow
  let topo ← peek 0
  let v ← peek n
  modify fun i => { i with stack := (i.stack.set n topo).set 0 v }
  return .segue

/-- The log an instruction emits, once it is paid. -/
def preparaLog (op : UInt8) (n : ℕ) : Passo σ Log := do
  exigeEscrita q op
  let o ← pop
  let s ← pop
  let topics ← popN n
  spend (saturatingAdd (gasLog + gasLogTopic * n) (saturatingMul gasLogData (u64Sat s)))
  let data ← memRead o s
  return ⟨q.selfAddr, topics, data⟩

def logOp (op : UInt8) (n : ℕ) : Passo σ Fluxo := do
  let log ← preparaLog q op n
  modify fun i => { i with logs := i.logs ++ [log] }
  return .segue

/-- The parent keeps one 64th of its gas. -/
def retem (gasLeft : ℕ) : ℕ := gasLeft - gasLeft / 64

/-! ### Creations -/

def popSalt (comSalt : Bool) : Passo σ (Option Word) := if comSalt then some <$> pop else pure none

def preparaCreate (op : UInt8) (comSalt : Bool) : Passo σ CreateRequest := do
  exigeEscrita q op
  spend gasCreate
  let val ← pop
  let o ← pop
  let s ← pop
  let salt ← popSalt comSalt
  let init ← memRead o s
  let i ← get
  let depth ← u32Add q.depth 1
  return { caller := q.selfAddr, value := val, initCode := init, gas := retem i.gasLeft,
           salt := salt, depth := depth, block := q.block, origin := q.origin,
           gasPrice := q.gasPrice }

/-- On success the return buffer is empty: what the constructor returned is code. -/
def concluiCreate (r : CreateOutcome) : Passo σ Fluxo := do
  spend r.gasUsed
  modify fun i => { i with
    lastReturn := if r.success then [] else r.returnData
    logs := i.logs ++ r.logs }
  push (if r.success then wordDeEndereco r.address else 0)
  return .segue

def createOp (op : UInt8) (comSalt : Bool) : Passo σ Fluxo := do
  let req ← preparaCreate q op comSalt
  let r ← noHost (h.create req)
  concluiCreate r

/-! ### Calls -/

def CallKind.temValor (kind : CallKind) : Bool := kind == .call || kind == .callCode

def popValor (kind : CallKind) : Passo σ Word := if kind.temValor then pop else pure 0

/-- The gas of a sub-call: what was asked, below the 63/64 of the parent, plus the
stipend of a transfer, never more than the parent has. -/
def encaminha (pedido gasLeft : ℕ) (comValor : Bool) : ℕ :=
  let forward := min pedido (retem gasLeft)
  min (if comValor then saturatingAdd forward estipendio else forward) gasLeft

/-- Resolves whose code runs, and under whose account. -/
def pedidoDe (kind : CallKind) (para : Address) (callValue : Word) (input : Bytes)
    (gas depth : ℕ) : CallRequest :=
  { kind := kind, caller := q.selfAddr, para := para, value := callValue, input := input,
    gas := gas
    isStatic := q.isStatic || kind == .staticCall
    delegate := kind == .delegateCall
    codeAddr := para
    execAddress := if kind = .delegateCall ∨ kind = .callCode then q.selfAddr else para
    execCaller := if kind = .delegateCall then q.caller else q.selfAddr
    execValue := if kind = .delegateCall then q.value else callValue
    depth := depth, block := q.block, origin := q.origin, gasPrice := q.gasPrice }

/-- Everything before the host: the operands, the price of the transfer and the
two memory regions. Returns the request and the region of the answer. -/
def preparaCall (op : UInt8) (kind : CallKind) : Passo σ (CallRequest × Word × Word) := do
  spend gasCall
  let reqGas ← pop
  let para ← pop
  let callValue ← popValor kind
  exige (callValue = 0 ∨ q.isStatic = false) (.escritaEmChamadaEstatica op)
  let ao ← pop
  let asz ← pop
  let ro ← pop
  let rsz ← pop
  spend (if callValue = 0 then 0 else gasCallValue)
  let input ← memRead ao asz
  memExpand ro rsz
  let i ← get
  let depth ← u32Add q.depth 1
  let forward := encaminha (u64Sat reqGas) i.gasLeft (callValue ≠ 0)
  return (pedidoDe q kind (enderecoDeWord para) callValue input forward depth, ro, rsz)

/-- Writes the answer in the region the caller gave for it. -/
def devolve (ro rsz : Word) (returnData : Bytes) : Passo σ Unit :=
  let n := min (usizeSat rsz) returnData.length
  if n = 0 then pure () else memWrite ro (returnData.take n)

def concluiCall (r : CallOutcome) (ro rsz : Word) : Passo σ Fluxo := do
  spend r.gasUsed
  modify fun i => { i with lastReturn := r.returnData }
  devolve ro rsz r.returnData
  modify fun i => { i with logs := i.logs ++ r.logs }
  push (ofBool r.success)
  return .segue

def callOp (op : UInt8) (kind : CallKind) : Passo σ Fluxo := do
  let (req, ro, rsz) ← preparaCall q op kind
  let r ← noHost (h.call req)
  concluiCall r ro rsz

def saiOp (success : Bool) : Passo σ Fluxo := do
  let o ← pop
  let s ← pop
  let ret ← memRead o s
  done q success ret

def comOsaka (g : ℕ) (op : UInt8) (m : Passo σ Fluxo) : Passo σ Fluxo := do
  spend g
  exigeOsaka q op
  m

/-- One instruction, in the order in which the source pays, reads and fails. -/
def executa (op : UInt8) : Instrucao → Passo σ Fluxo
  | .stop => done q true []
  | .binaria b => opera b.gas 2 (leva2 b.valor)
  | .addmod => opera gasMid 3 (leva3 addMod)
  | .mulmod => opera gasMid 3 (leva3 mulMod)
  | .exp => expOp
  | .iszero => opera gasVerylow 1 (leva1 fun a => ofBool (a = 0))
  | .not => opera gasVerylow 1 (leva1 fun a => ~~~a)
  | .clz => comOsaka q gasLow op (opera 0 1 (leva1 fun v => BitVec.ofNat 256 (leadingZeros v)))
  | .keccak => keccakOp cr
  | .leitura l => empurra gasBase (l.valor q)
  | .balance => do
    let i ← get
    opera gasExtcode 1 (leva1 fun w => h.balance i.host (enderecoDeWord w))
  | .selfbalance => empurra gasLow fun i => h.balance i.host q.selfAddr
  | .calldataload => calldataloadOp q
  | .calldatacopy => copiaOp q.calldata
  | .codecopy => copiaOp q.code
  | .extcodesize => do
    let i ← get
    opera gasExtcode 1 (leva1 fun w =>
      BitVec.ofNat 256 (h.code i.host (enderecoDeWord w)).length)
  | .extcodecopy => extcodecopyOp h
  | .extcodehash => extcodehashOp cr h
  | .returndatacopy => returndatacopyOp
  | .blockhash => do
    let i ← get
    opera gasExtcode 1 (leva1 fun n =>
      if q.osaka then h.blockHash i.host n q.block.number else 0)
  | .blobhash => comOsaka q gasVerylow op (opera 0 1 (leva1 fun _ => 0))
  | .blobbasefee => comOsaka q gasBase op (opera 0 0 fun _ => 1)
  | .pop => do
    spend gasBase
    let _ ← pop
    return .segue
  | .mload => mloadOp
  | .mstore => mstoreOp paraBeBytes
  | .mstore8 => mstoreOp fun v => (paraBeBytes v).drop 31
  | .sload => do
    let i ← get
    opera gasSload 1 (leva1 fun k => h.sload i.host q.selfAddr k)
  | .sstore => sstoreOp h q op
  | .jump => jumpOp q
  | .jumpi => jumpiOp q
  | .jumpdest => do
    spend gasJumpdest
    return .segue
  | .tload => do
    let i ← get
    comOsaka q gasSloadTransient op (opera 0 1 (leva1 fun k => h.tload i.host q.selfAddr k))
  | .tstore => tstoreOp h q op
  | .mcopy => mcopyOp q op
  | .push n => pushOp q n
  | .dup n => dupOp n
  | .swap n => swapOp n
  | .log n => logOp q op n
  | .create comSalt => createOp h q op comSalt
  | .call kind => callOp h q op kind
  | .sai success => saiOp q success
  | .invalid => falha (.opcodeInvalido op)
  | .selfdestruct => falha .selfdestructNaoSuportado
  | .desconhecido => falha (.opcodeDesconhecido op)

/-! ## The loop -/

/-- One turn: the program counter of the next one, or the end of the frame. -/
def passo (op : UInt8) : Passo σ (Option ExecResult) := do
  let i ← get
  let seguinte ← usizeAdd i.pc 1
  let f ← executa cr h q op (decodifica op)
  match f with
  | .segue => do
    modify fun i => { i with pc := seguinte }
    return none
  | .salta np => do
    modify fun i => { i with pc := np }
    return none
  | .fim r => return some r

/-- Falling off the end of the code is a normal stop. -/
def paraNoFim : Passo σ ExecResult := do
  let i ← get
  let gasUsed ← u64Sub q.gasInicial i.gasLeft
  return { success := true, returnData := [], gasUsed := gasUsed, gasLeft := i.gasLeft,
           logs := i.logs }

def laco : ℕ → Passo σ ExecResult
  | 0 => throw .semFim
  | n + 1 => do
    let i ← get
    match q.code[i.pc]? with
    | none => paraNoFim q
    | some op => do
      let r ← passo cr h q op
      match r with
      | some r => return r
      | none => laco n

end Executa

/-- Runs one frame. A `falha` is a hard failure; a revert is an `ExecResult`. -/
def runEavm {σ : Type} (cr : Cripto) (h : Host σ) (p : ExecParams) : EStateM Parada σ ExecResult :=
  fun s =>
    match laco cr h (quadroDe p) (p.gas + 1) (interpInicial p s) with
    | .ok r i => .ok r i.host
    | .error e i => .error e i.host

end Eavm
end Eav7
