import Eav7.State
import Eav7.Eavm.Host

/-!
# The EVM world over the state

What a contract execution can do to the state: storage, code, nonces and the
movement of native balances, with a journal that undoes everything back to a
mark. `EavmWorld.world` hands these operations to the host of the interpreter.
-/

namespace Eav7

open Base

def asciiMinuscula (c : Char) : Char :=
  if 'A' ≤ c ∧ c ≤ 'Z' then Char.ofNat (c.toNat + 32) else c

def asciiMaiuscula (c : Char) : Char :=
  if 'a' ≤ c ∧ c ≤ 'z' then Char.ofNat (c.toNat - 32) else c

def minusculas (s : String) : String := String.ofList (s.toList.map asciiMinuscula)

def maiusculas (s : String) : String := String.ofList (s.toList.map asciiMaiuscula)

/-- Pairs of hexadecimal digits as bytes, up to the first malformed pair. -/
def paresHex : List Char → Bytes
  | hi :: lo :: cs =>
    match digito? 16 hi, digito? 16 lo with
    | some h, some l => UInt8.ofNat (h * 16 + l) :: paresHex cs
    | _, _ => []
  | _ => []

def semPrefixo0x (s : String) : List Char :=
  match s.toList with
  | '0' :: 'x' :: cs => cs
  | cs => cs

/-- The lenient decoding of call data: it stops at the first bad pair. -/
def bufferFromHex (s : String) : Bytes := paresHex (semPrefixo0x s)

/-- The strict decoding of stored code: malformed text is no code. -/
def codigoDeHex (s : String) : Bytes :=
  let cs := semPrefixo0x s
  if cs.length % 2 = 0 ∧ cs.all (fun c => (digito? 16 c).isSome) then paresHex cs else []

def hexMinusculo (c : Char) : Bool := ('0' ≤ c && c ≤ '9') || ('a' ≤ c && c ≤ 'f')

def parseAddrStrict (s : String) : Option Address :=
  match s.toList with
  | '0' :: 'x' :: cs => if cs.length = 40 ∧ cs.all hexMinusculo then some (paresHex cs) else none
  | _ => none

/-- `0x` and 40 hexadecimal digits in any case. -/
def isEavmAddress (value : String) : Bool :=
  match value.toList with
  | '0' :: 'x' :: resto => resto.length == 40 && resto.all fun c => (digito? 16 c).isSome
  | _ => false

def e7DestPrefix : List Char := "0xe7000000".toList

namespace Cripto

variable (cr : Cripto)

/-- The native address embedded in a 0x address, when its checksum holds. -/
def decodeE7Dest (eavmAddress : String) : Option String :=
  let h := (minusculas eavmAddress).toList
  if e7DestPrefix.isPrefixOf h then
    let e7 := maiusculas (String.ofList ('E' :: '7' :: h.drop 10))
    if cr.isValidAddress e7 then some e7 else none
  else none

def encodeE7Dest (e7 : String) : R String :=
  if cr.isValidAddress e7 then
    .ok (String.ofList e7DestPrefix ++ minusculas (String.ofList (e7.toList.drop 2)))
  else erro "endereço E7 inválido"

/-- The native account that holds the balance of a 0x address. -/
def e7OfAddr (a : Address) : String :=
  let h := addrHex a
  (cr.decodeE7Dest h).getD (cr.deriveAddressFrom (bytesDe s!"EAV7-EAVM:{h}"))

def eavmToE7 (eavmAddress : String) : Option String :=
  if isEavmAddress eavmAddress then
    some (cr.deriveAddressFrom (bytesDe s!"EAV7-EAVM:{minusculas eavmAddress}"))
  else none

end Cripto

def wordHex (w : Word) : List Char :=
  (List.range 64).map fun i => hexDigito (w.toNat / 16 ^ (63 - i) % 16)

def slotKey (k : Word) : String := String.ofList ('0' :: 'x' :: wordHex k)

def wordHexMin (v : Word) : String :=
  let digitos := (wordHex v).dropWhile (· = '0')
  String.ofList ('0' :: 'x' :: if digitos = [] then ['0'] else digitos)

def wordFromHex (s : String) : Word :=
  match natural? 16 (semPrefixo0x s) with
  | some n => if n < 2 ^ 256 then BitVec.ofNat 256 n else 0
  | none => 0

def naturalHex (n : ℕ) : List Char := (Nat.toDigits 16 n)

def ringSlot (number : ℕ) : String :=
  String.ofList ('0' :: 'x' :: naturalHex (number % Config.blockhashHistory))

def blockhashHistoryAddr : String := "0x0000f90827f1c53a10cb7a02335b175320002935"

def contratoVazio : Contract := { code := "", storage := ∅, balance := 0, nonce := 0 }

/-- An undo record. Contract balances have none: value always moves between
native accounts. -/
inductive J where
  | new (a : String)
  | code (a antes : String)
  | stor (a k : String) (antes : Option String)
  | non (a : String) (antes : ℕ)
  | nbal (e7 : String) (antes : Amount) (existia : Bool)
  | xfer

structure Xfer where
  de : String
  para : String
  amount : Amount
  kind : TransferKind

/-- A world that does not follow internal transfers serves the read-only calls. -/
structure EavmWorld where
  state : State
  journal : List J := []
  rastreia : Bool := true
  xfers : List Xfer := []

namespace EavmWorld

variable (w : EavmWorld)

def contrato (a : String) : Contract := w.state.contracts.getD a contratoVazio

def comContrato (a : String) (c : Contract) : EavmWorld :=
  { w with state := { w.state with contracts := w.state.contracts.insert a c } }

def anota (j : J) : EavmWorld := { w with journal := j :: w.journal }

def materializaCtr (chave : String) : EavmWorld :=
  if w.state.contracts.contains chave then w
  else (w.comContrato chave contratoVazio).anota (.new chave)

/-- Moves one native balance up or down, `none` without any change when it does
not fit. -/
def addBalance (cr : Cripto) (a : Address) (valor : Amount) (debito : Bool) :
    Option EavmWorld :=
  let e7 := cr.e7OfAddr a
  let antes := w.state.balanceOf e7
  let novo := if debito then (if valor ≤ antes then some (antes - valor) else none)
    else (if antes + valor < u128Limit then some (antes + valor) else none)
  novo.map fun novo =>
    { w.anota (.nbal e7 antes (w.state.accounts.contains e7)) with
      state := w.state.comSaldo e7 novo }

/-- Undoes one record. -/
def desfaz (j : J) : EavmWorld :=
  match j with
  | .new a => { w with state := { w.state with contracts := w.state.contracts.erase a } }
  | .code a antes =>
    if w.state.contracts.contains a then w.comContrato a { w.contrato a with code := antes } else w
  | .stor a k antes =>
    if w.state.contracts.contains a then
      let c := w.contrato a
      w.comContrato a { c with
        storage := match antes with
          | none => c.storage.erase k
          | some v => c.storage.insert k v }
    else w
  | .non a antes =>
    if w.state.contracts.contains a then w.comContrato a { w.contrato a with nonce := antes } else w
  | .nbal e7 antes existia =>
    if existia then
      if w.state.accounts.contains e7 then { w with state := w.state.comSaldo e7 antes } else w
    else { w with state := { w.state with accounts := w.state.accounts.erase e7 } }
  | .xfer => { w with xfers := w.xfers.dropLast }

def desfazTodos : List J → EavmWorld → EavmWorld
  | [], w => w
  | j :: js, w => desfazTodos js (w.desfaz j)

/-- Undoes the journal back to a mark. -/
def desfazAte (marca : ℕ) : EavmWorld :=
  let sobra := w.journal.length - marca
  { desfazTodos (w.journal.take sobra) w with journal := w.journal.drop sobra }

def getStorage (address : Address) (key : Word) : Word :=
  ((w.contrato (addrHex address)).storage.get? (slotKey key)).elim 0 wordFromHex

def setStorage (address : Address) (key value : Word) : EavmWorld :=
  let a := addrHex address
  let w := w.materializaCtr a
  let slot := slotKey key
  let c := w.contrato a
  let w := w.anota (.stor a slot (c.storage.get? slot))
  w.comContrato a { c with
    storage := if value = 0 then c.storage.erase slot
      else c.storage.insert slot (wordHexMin value) }

def getCode (address : Address) : Bytes := codigoDeHex (w.contrato (addrHex address)).code

def putCode (address : Address) (code : Bytes) : EavmWorld :=
  let a := addrHex address
  let w := w.materializaCtr a
  let c := w.contrato a
  (w.anota (.code a c.code)).comContrato a { c with code := "0x" ++ hexEncode code }

def getBalance (cr : Cripto) (address : Address) : Word :=
  BitVec.ofNat 256 (w.state.balanceOf (cr.e7OfAddr address))

/-- Moves native value between two 0x addresses; a refused move changes nothing. -/
def moveValue (cr : Cripto) (de para : Address) (value : Word) (kind : TransferKind) :
    Bool × EavmWorld :=
  if w.state.balanceOf (cr.e7OfAddr de) < value.toNat then (false, w)
  else if u128Limit ≤ value.toNat then (false, w)
  else
    match w.addBalance cr de value.toNat true with
    | none => (false, w.desfazAte w.journal.length)
    | some w1 =>
      match w1.addBalance cr para value.toNat false with
      | none => (false, w1.desfazAte w.journal.length)
      | some w2 =>
        if kind = .entry ∨ w.rastreia = false then (true, w2)
        else (true, { w2.anota .xfer with
          xfers := w2.xfers ++ [⟨addrHex de, addrHex para, value.toNat, kind⟩] })

def bumpNonce (address : Address) : ℕ × EavmWorld :=
  let a := addrHex address
  let w := w.materializaCtr a
  let c := w.contrato a
  (c.nonce, (w.anota (.non a c.nonce)).comContrato a
    { c with nonce := min (c.nonce + 1) (u64Limit - 1) })

def blockHash (number : ℕ) : Word :=
  ((w.contrato blockhashHistoryAddr).storage.get? (ringSlot number)).elim 0 wordFromHex

/-- A mark is the length of the journal. -/
def world (cr : Cripto) : Eavm.World EavmWorld where
  getStorage := getStorage
  setStorage := setStorage
  getCode := getCode
  putCode := putCode
  getBalance w := w.getBalance cr
  moveValue w := w.moveValue cr
  bumpNonce := bumpNonce
  blockHash := blockHash
  snapshot w := (w.journal.length, w)
  revert := desfazAte

end EavmWorld

/-- How a top-level execution ended, and the world it leaves. A hard failure of
the frame gives no result. -/
def executarNoMundo (cr : Cripto) (pc : Eavm.Precompilados) (p : Eavm.ExecParams)
    (w : EavmWorld) : Option Eavm.ExecResult × EavmWorld :=
  match Eavm.executaNoMundo (EavmWorld.world cr) cr pc p { world := w } with
  | .ok r h => (some r, h.world)
  | .error _ h => (none, h.world)

structure EavmCallParams where
  de : Option String := none
  para : String
  data : String := ""
  value : Amount := 0
  height : ℕ
  blockTs : ℕ
  gas : Option ℕ := none

structure EavmCallResult where
  success : Bool
  returnData : String
  gasUsed : ℕ
  deriving DecidableEq

/-- The caller of a query; a missing or malformed one is the zero address. -/
def EavmCallParams.caller (p : EavmCallParams) : Address :=
  (p.de.bind fun f => parseAddrStrict (minusculas f)).getD zeroAddr

def EavmCallParams.budget (p : EavmCallParams) : ℕ :=
  min (p.gas.getD Config.maxEavmGas) Config.maxEavmGas

def EavmCallParams.exec (p : EavmCallParams) (code : Bytes) (target : Address) :
    Eavm.ExecParams where
  code := code
  calldata := bufferFromHex p.data
  gas := p.budget
  caller := p.caller
  address := target
  origin := some p.caller
  value := BitVec.ofNat 256 p.value
  block := { number := p.height, timestamp := p.blockTs, gasLimit := 0,
             chainId := Config.eavmChainId }
  gasPrice := 0
  depth := 0

def resultadoDaConsulta (budget : ℕ) : Option Eavm.ExecResult → EavmCallResult
  | some r => { success := r.success, returnData := "0x" ++ hexEncode r.returnData,
                gasUsed := r.gasUsed }
  | none => { success := false, returnData := "0x", gasUsed := budget }

/-- A query runs the machine on the state it is given, and undoes the whole
journal whatever the result. -/
def State.callEavm (cr : Cripto) (pc : Eavm.Precompilados) (p : EavmCallParams) (s : State) :
    R EavmCallResult × State :=
  match parseAddrStrict (minusculas p.para) with
  | none => (erro "destino inválido", s)
  | some target =>
    let w : EavmWorld := { state := s, rastreia := false }
    let f := executarNoMundo cr pc (p.exec (w.getCode target) target) w
    (.ok (resultadoDaConsulta p.budget f.1), (f.2.desfazAte 0).state)

/-- Records a block hash in the ring of the system contract. -/
def State.recordBlockHash (s : State) (number : ℕ) (hash : String) : State :=
  let c := s.contracts.getD blockhashHistoryAddr contratoVazio
  let corpo := String.ofList ((semPrefixo0x hash).map asciiMinuscula)
  let c := { c with storage := c.storage.insert (ringSlot number) ("0x" ++ corpo) }
  { s with contracts := s.contracts.insert blockhashHistoryAddr c }

end Eav7
