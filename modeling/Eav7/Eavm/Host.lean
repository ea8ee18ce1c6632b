import Eav7.Eavm.Vm

/-!
# The host of the interpreter

The host gives the interpreter a world: storage, code, balances, nonces, calls
and creations. Whatever writes is behind a snapshot, and a frame that fails is
undone by a revert to it. The frames nest through `eavmHost`, whose argument
bounds the depth still to go; the code refuses calls at depth 128.
-/

namespace Eav7

open Base

inductive TransferKind where
  | entry
  | call
  | create
  deriving DecidableEq

namespace Eavm

/-- Low-level access to the state, with journaling. -/
structure World (σ : Type) where
  getStorage : σ → Address → Word → Word
  setStorage : σ → Address → Word → Word → σ
  getCode : σ → Address → Bytes
  putCode : σ → Address → Bytes → σ
  getBalance : σ → Address → Word
  moveValue : σ → (de para : Address) → Word → TransferKind → Bool × σ
  bumpNonce : σ → Address → ℕ × σ
  blockHash : σ → ℕ → Word
  snapshot : σ → ℕ × σ
  revert : σ → ℕ → σ

/-- The world with what lives only during one execution. Writing zero in the
transient storage removes the entry, so a total map says it all. -/
structure EavmHost (σ : Type) where
  world : σ
  osakaHeight : ℕ := Config.eavmOsakaHeight
  transient : Address → Word → Word := fun _ _ => 0

def createAddress (cr : Cripto) (sender : Address) (nonce : ℕ) : Address :=
  (cr.keccak256 (bytesDe s!"{addrHex sender}:{nonce}")).drop 12

def create2Address (cr : Cripto) (sender : Address) (salt : Word) (initCode : Bytes) : Address :=
  (cr.keccak256 (sender ++ paraBeBytes salt ++ cr.keccak256 initCode)).drop 12

section

variable {σ : Type} (w : World σ)

abbrev NoMundo (σ : Type) := EStateM Parada (EavmHost σ)

/-- Turns the failure of a frame into a value. A panic goes through. -/
def tenta {τ α : Type} (m : EStateM Parada τ α) : EStateM Parada τ (Except EavmError α) := fun s =>
  match m s with
  | .ok a s' => .ok (.ok a) s'
  | .error (.falha e) s' => .ok (.error e) s'
  | .error e s' => .error e s'

/-- What holds of the failure of a frame holds where `tenta` answers it. -/
theorem tenta_runs {τ α : Type} {m : EStateM Parada τ α} {s : τ} {P : α → τ → Prop}
    {E : Parada → τ → Prop} (hm : Runs m s P E) :
    Runs (tenta m) s (fun r s' => match r with
      | .ok a => P a s'
      | .error e => E (.falha e) s') E := by
  refine Runs.intro ?_ ?_
  · intro r s' hr
    unfold tenta at hr
    split at hr
    case h_1 b t hms =>
      obtain ⟨rfl, rfl⟩ := hr
      exact hm.ok hms
    case h_2 e t hms =>
      obtain ⟨rfl, rfl⟩ := hr
      exact hm.error hms
    case h_3 => cases hr
  · intro e s' hr
    unfold tenta at hr
    split at hr
    case h_1 => cases hr
    case h_2 => cases hr
    case h_3 e' t hne hms =>
      obtain ⟨rfl, rfl⟩ := hr
      exact hm.error hms

def revertWorld (snap : ℕ) : NoMundo σ Unit :=
  modify fun s => { s with world := w.revert s.world snap }

def snapshotWorld : NoMundo σ ℕ := fun s =>
  .ok (w.snapshot s.world).1 { s with world := (w.snapshot s.world).2 }

def bumpNonceWorld (a : Address) : NoMundo σ ℕ := fun s =>
  .ok (w.bumpNonce s.world a).1 { s with world := (w.bumpNonce s.world a).2 }

/-- Moves the value of a frame, when it has one. -/
def moveValueWorld (de para : Address) (value : Word) (kind : TransferKind) : NoMundo σ Bool :=
  fun s =>
    if value = 0 then .ok true s
    else
      .ok (w.moveValue s.world de para value kind).1
        { s with world := (w.moveValue s.world de para value kind).2 }

/-- `BLOCKHASH` sees the last 256 blocks. -/
def blockHashOf (s : EavmHost σ) (n : Word) (atual : ℕ) : Word :=
  if u64Max < n.toNat then 0
  else if atual ≤ n.toNat ∨ Config.blockhashWindow < atual - n.toNat then 0
  else w.blockHash s.world n.toNat

def falhouTudo (p : CallRequest) : CallOutcome := { gasUsed := p.gas }

/-- The price of a precompiled contract, and its run when the gas pays for it. -/
def rodaPrecompile (cr : Cripto) (pc : Precompilados) (id : ℕ) (p : CallRequest) :
    Except Parada (Bytes × ℕ) := do
  let gas ← precompileGas id p.input
  if p.gas < gas then .error (.falha .semGas)
  else do
    let out ← precompileRun cr pc id p.input
    return (out, gas)

/-- A failed precompiled contract costs all the gas it was forwarded. -/
def chamaPrecompile (cr : Cripto) (pc : Precompilados) (p : CallRequest) (id : ℕ) :
    NoMundo σ CallOutcome := do
  let snap ← snapshotWorld w
  let moveu ← moveValueWorld w p.caller p.execAddress (if p.delegate then 0 else p.value) .call
  if moveu = false then do
    revertWorld w snap
    return {}
  else do
    let r ← tenta (lift (rodaPrecompile cr pc id p))
    match r with
    | .ok (out, gas) => return { success := true, returnData := out, gasUsed := gas }
    | .error _ => do
      revertWorld w snap
      return falhouTudo p

def paramsDeCall (p : CallRequest) (code : Bytes) (osakaHeight : ℕ) : ExecParams :=
  { code := code, calldata := p.input, gas := p.gas, caller := p.execCaller,
    address := p.execAddress, origin := some p.origin, value := p.execValue, block := p.block,
    gasPrice := p.gasPrice, depth := p.depth, isStatic := p.isStatic, osakaHeight := osakaHeight }

/-- The frame of a call, on the world that already has its value. -/
def rodaCall (cr : Cripto) (h : Host (EavmHost σ)) (p : CallRequest) (code : Bytes) (snap : ℕ) :
    NoMundo σ CallOutcome := do
  let s ← get
  let r ← tenta (runEavm cr h (paramsDeCall p code s.osakaHeight))
  match r with
  | .ok res =>
    if res.success then
      return { success := true, returnData := res.returnData, gasUsed := res.gasUsed,
               logs := res.logs }
    else do
      revertWorld w snap
      return { success := false, returnData := res.returnData, gasUsed := res.gasUsed }
  | .error _ => do
    revertWorld w snap
    return falhouTudo p

/-- An account with no code is an empty success, and keeps the value. -/
def executaCall (cr : Cripto) (pc : Precompilados) (h : Host (EavmHost σ)) (p : CallRequest) :
    NoMundo σ CallOutcome := do
  if maxCallDepth ≤ p.depth then return {}
  else do
    let s ← get
    match precompileId p.para (s.osakaHeight ≤ p.block.number) with
    | some id => chamaPrecompile w cr pc p id
    | none => do
      let snap ← snapshotWorld w
      let moveu ← moveValueWorld w p.caller p.execAddress (if p.delegate then 0 else p.value) .call
      if moveu = false then do
        revertWorld w snap
        return {}
      else do
        let s ← get
        let code := w.getCode s.world p.codeAddr
        if code = [] then return { success := true } else rodaCall w cr h p code snap

def paramsDeCreate (p : CreateRequest) (address : Address) (osakaHeight : ℕ) : ExecParams :=
  { code := p.initCode, calldata := [], gas := p.gas, caller := p.caller, address := address,
    origin := some p.origin, value := p.value, block := p.block, gasPrice := p.gasPrice,
    depth := p.depth, isStatic := false, osakaHeight := osakaHeight }

def depositoDe (codigo : Bytes) : ℕ := saturatingMul codigo.length gasCodeDepositByte

/-- A constructor that returns too much code, or more than its gas can deposit,
fails and costs everything; otherwise the code is installed. -/
def instala (p : CreateRequest) (address : Address) (snap : ℕ) (res : ExecResult) :
    NoMundo σ CreateOutcome :=
  if Config.maxContractBytes < res.returnData.length ∨
      p.gas < saturatingAdd res.gasUsed (depositoDe res.returnData) then do
    revertWorld w snap
    return { address := address, gasUsed := p.gas }
  else do
    modify fun s => { s with world := w.putCode s.world address res.returnData }
    return { success := true, address := address,
             gasUsed := saturatingAdd res.gasUsed (depositoDe res.returnData), logs := res.logs }

def rodaCreate (cr : Cripto) (h : Host (EavmHost σ)) (p : CreateRequest) (address : Address)
    (snap : ℕ) : NoMundo σ CreateOutcome := do
  let s ← get
  let r ← tenta (runEavm cr h (paramsDeCreate p address s.osakaHeight))
  match r with
  | .error _ => do
    revertWorld w snap
    return { address := address, gasUsed := p.gas }
  | .ok res =>
    if res.success then instala w p address snap res
    else do
      revertWorld w snap
      return { address := address, returnData := res.returnData, gasUsed := res.gasUsed }

/-- The address of a creation: `CREATE2` gives a salt, `CREATE` only the nonce. -/
def enderecoDe (cr : Cripto) (p : CreateRequest) (nonce : ℕ) : Address :=
  match p.salt with
  | some salt => create2Address cr p.caller salt p.initCode
  | none => createAddress cr p.caller nonce

/-- The nonce goes up before everything else and stays up whatever follows. -/
def executaCreate (cr : Cripto) (h : Host (EavmHost σ)) (p : CreateRequest) :
    NoMundo σ CreateOutcome := do
  if maxCallDepth ≤ p.depth then return {}
  else do
    let nonce ← bumpNonceWorld w p.caller
    let address := enderecoDe cr p nonce
    let s ← get
    if w.getCode s.world address ≠ [] then return { address := address }
    else do
      let snap ← snapshotWorld w
      let moveu ← moveValueWorld w p.caller address p.value .create
      if moveu = false then do
        revertWorld w snap
        return { address := address }
      else rodaCreate w cr h p address snap

/-- The host without the two recursive operations. -/
def hostBase (call : CallRequest → NoMundo σ CallOutcome)
    (create : CreateRequest → NoMundo σ CreateOutcome) : Host (EavmHost σ) where
  sload s a k := w.getStorage s.world a k
  sstore a k v := modify fun s => { s with world := w.setStorage s.world a k v }
  tload s a k := s.transient a k
  tstore a k v := modify fun s => { s with
    transient := fun b l => if b = a ∧ l = k then v else s.transient b l }
  balance s a := w.getBalance s.world a
  code s a := w.getCode s.world a
  blockHash := blockHashOf w
  call := call
  create := create

/-- The host whose frames may still nest `n` levels. -/
def eavmHost (cr : Cripto) (pc : Precompilados) : ℕ → Host (EavmHost σ)
  | 0 => hostBase w (fun _ => throw .semFim) (fun _ => throw .semFim)
  | n + 1 => hostBase w (executaCall w cr pc (eavmHost cr pc n))
      (executaCreate w cr (eavmHost cr pc n))

/-- A top-level execution on a world. -/
def executaNoMundo (cr : Cripto) (pc : Precompilados) (p : ExecParams) :
    NoMundo σ ExecResult :=
  runEavm cr (eavmHost w cr pc maxCallDepth) p

end

end Eavm
end Eav7
