import Eav7.Aplicacao
import Eav7.Eavm.Conservacao
import Eav7.Eavm.Rastro
import Eav7.Eavm.Sessao
import Eav7.Ideal

/-!
# What the machine guarantees to the chain

A nested frame that fails leaves the world alone, a static one writes nothing, a
query or a failed transaction gives the state back, and no run of the machine
makes or destroys value.
-/

namespace Eav7

open Base

namespace Eavm

section

variable {σ V : Type}

/-- The view is the same, and so is every read of the world. -/
structure Intacto (w : World σ) (d : Diario σ V) (s t : σ) : Prop where
  ver : d.ver t = d.ver s
  igual : w.Igual s t

variable {w : World σ} {d : Diario σ V} {cr : Cripto} {pc : Precompilados}

theorem Intacto.de_ver (hj : Journaled w d) {s t : σ} (h : d.ver t = d.ver s) :
    Intacto w d s t := ⟨h, hj.observa h.symm⟩

/-- Nothing is asked of the views. -/
theorem conserva_nada (w : World σ) (d : Diario σ V) : Conserva w d fun _ _ => True where
  refl _ := trivial
  trans _ _ := trivial
  setStorage _ _ _ _ := trivial
  putCode _ _ _ := trivial
  moveValue _ _ _ _ _ := trivial
  bumpNonce _ _ := trivial

/-! ## Nested frames that fail -/

/-- What a call leaves: its answer is on the stack, and a failed one left the world
as the opcode found it. -/
def ChamadaIsolada (w : World σ) (d : Diario σ V) (h : Host (EavmHost σ)) (q : Quadro) (op : UInt8)
    (kind : CallKind) (i j : Interp (EavmHost σ)) : Prop :=
  ∃ req ro rsz k r, preparaCall q op kind i = .ok (req, ro, rsz) k ∧
    h.call req i.host = .ok r j.host ∧ j.stack.head? = some (ofBool r.success) ∧
    (r.success = false → Intacto w d i.host.world j.host.world)

/-- What a creation leaves: a failed one kept only the nonce of its creator. -/
def CriacaoIsolada (w : World σ) (d : Diario σ V) (h : Host (EavmHost σ)) (q : Quadro) (op : UInt8)
    (comSalt : Bool) (i j : Interp (EavmHost σ)) : Prop :=
  ∃ req k r, preparaCreate q op comSalt i = .ok req k ∧ h.create req i.host = .ok r j.host ∧
    (r.success = false → Intacto w d (semCriacao w req i.host.world) j.host.world)

theorem callOp_isolada (hj : Journaled w d) (n : ℕ) (q : Quadro) (op : UInt8) (kind : CallKind)
    (i : Interp (EavmHost σ)) :
    Runs (callOp (eavmHost w cr pc n) q op kind) i
      (fun _ j => ChamadaIsolada w d (eavmHost w cr pc n) q op kind i j) fun _ _ => True := by
  refine Runs.intro (fun f j hrun => ?_) fun _ _ _ => trivial
  obtain ⟨-, req, ro, rsz, k, r, s, hprep, -, hcall, rfl, htopo, -⟩ := callOp_run hrun
  refine ⟨req, ro, rsz, k, r, hprep, hcall, htopo, fun hf => ?_⟩
  have hresp := ((eavmHost_isola hj (conserva_nada w d) n).1 req i.host).ok
    hcall
  exact Intacto.de_ver hj (hresp.falhou hf)

theorem createOp_isolada (hj : Journaled w d) (n : ℕ) (q : Quadro) (op : UInt8) (comSalt : Bool)
    (i : Interp (EavmHost σ)) :
    Runs (createOp (eavmHost w cr pc n) q op comSalt) i
      (fun _ j => CriacaoIsolada w d (eavmHost w cr pc n) q op comSalt i j) fun _ _ => True := by
  refine Runs.intro (fun f j hrun => ?_) fun _ _ _ => trivial
  obtain ⟨-, req, k, r, s, hprep, -, hcreate, rfl, -⟩ := createOp_run hrun
  refine ⟨req, k, r, hprep, hcreate, fun hf => ?_⟩
  have hcriada := ((eavmHost_isola hj (conserva_nada w d) n).2.1 req
    i.host).ok hcreate
  exact Intacto.de_ver hj (hcriada.falhou hf)

/-- Frames at any level: a nested one that fails leaves the world alone, up to the
nonce of a creator, and the logs of a run are those of frames whose ancestors all
succeeded. -/
theorem subquadro_isolado (hj : Journaled w d) :
    (∀ n q op i,
      (∀ kind, Runs (executa cr (eavmHost w cr pc n) q op (.call kind)) i
        (fun _ j => ChamadaIsolada w d (eavmHost w cr pc n) q op kind i j) fun _ _ => True) ∧
      ∀ comSalt, Runs (executa cr (eavmHost w cr pc n) q op (.create comSalt)) i
        (fun _ j => CriacaoIsolada w d (eavmHost w cr pc n) q op comSalt i j) fun _ _ => True) ∧
    ∀ p s, Runs (executaNoMundo w cr pc p) s
      (fun r _ => r.logs = (rastro w cr pc maxCallDepth p s).efetivos) fun _ _ => True := by
  refine ⟨fun n q op i => ⟨fun kind => ?_, fun comSalt => ?_⟩, fun p s => ?_⟩
  · exact callOp_isolada hj n q op kind i
  · exact createOp_isolada hj n q op comSalt i
  · exact Runs.intro (fun r t hrun => rastro_fiel maxCallDepth hrun) fun _ _ _ => trivial

end

/-! ## Runs on the state -/

def alvoDeTeste : Address := List.replicate 20 7

/-- A contract whose code fails, and an account that can pay. -/
def estadoDeTeste (code : String) : State where
  accounts := (∅ : OrdMap String Account).insert (criptoIdeal.deriveAddressFrom [])
    { balance := 10 ^ 8 }
  contracts := (∅ : OrdMap String Contract).insert (addrHex alvoDeTeste)
    { contratoVazio with code := code }

def paramsDeTeste (isStatic : Bool) : ExecParams where
  code := [0xf1]
  calldata := []
  gas := 100000
  caller := zeroAddr
  address := zeroAddr
  origin := none
  value := 0
  block := ⟨1, 2, 0, 72020⟩
  gasPrice := 0
  depth := 0
  isStatic := isStatic

/-- About to call the contract with 5000 of gas and no value. -/
def antesDaChamada : Interp (EavmHost EavmWorld) :=
  { interpInicial (paramsDeTeste false) { world := { state := estadoDeTeste "0xfe" } } with
    stack := [5000, BitVec.ofNat 256 (naturalDeBytes alvoDeTeste), 0, 0, 0, 0, 0] }

/-- The call fails, and leaves the state alone. -/
theorem subquadro_isolado_no_estado :
    ∃ f j, executa criptoIdeal (eavmHost (EavmWorld.world criptoIdeal) criptoIdeal
        precompiladosIdeais maxCallDepth) (quadroDe (paramsDeTeste false)) 0xf1 (.call .call)
        antesDaChamada = .ok f j ∧
      j.stack.head? = some 0 ∧ j.host.world.state = estadoDeTeste "0xfe" := by
  have htopo : (match executa criptoIdeal (eavmHost (EavmWorld.world criptoIdeal) criptoIdeal
      precompiladosIdeais maxCallDepth) (quadroDe (paramsDeTeste false)) 0xf1 (.call .call)
      antesDaChamada with
    | .ok _ j => j.stack.head? == some 0
    | .error _ _ => false) = true := by decide +kernel
  have hruns := ((@subquadro_isolado _ _ _ _ criptoIdeal precompiladosIdeais
    (EavmWorld.world_journaled criptoIdeal)).1 maxCallDepth (quadroDe (paramsDeTeste false)) 0xf1
    antesDaChamada).1 .call
  split at htopo
  case h_1 f j hrun =>
    have htopo := beq_iff_eq.mp htopo
    obtain ⟨req, ro, rsz, k, r, -, -, hr, hintacto⟩ := hruns.ok hrun
    have hfalhou : r.success = false := by
      cases hs : r.success with
      | false => rfl
      | true =>
        rw [hs, htopo] at hr
        exact absurd hr (by decide)
    exact ⟨f, j, hrun, htopo, EavmWorld.state_de_visao (hintacto hfalhou).ver⟩
  case h_2 => cases htopo

section

variable {σ V : Type} {w : World σ} {d : Diario σ V} {cr : Cripto} {pc : Precompilados}

/-! ## Static frames -/

/-- What a static frame leaves: the world and the transient storage as they were. -/
structure Parado (w : World σ) (d : Diario σ V) (s t : EavmHost σ) : Prop where
  mundo : Intacto w d s.world t.world
  transient : t.transient = s.transient

/-- A static frame, and every frame it starts directly or through others, is static
and writes nothing and emits nothing, whether it succeeds or fails. -/
theorem quadro_estatico_nada_escreve (hj : Journaled w d) (n : ℕ) {p : ExecParams}
    (s : EavmHost σ) (hp : p.isStatic = true) :
    (p, s) ∈ (rastro w cr pc n p s).quadros ∧
      ∀ x ∈ (rastro w cr pc n p s).quadros, x.1.isStatic = true ∧
        ∀ m, Runs (runEavm cr (eavmHost w cr pc m) x.1) x.2
          (fun r t => Parado w d x.2 t ∧ r.logs = []) fun _ t => Parado w d x.2 t := by
  refine ⟨?_, fun x hx => ⟨rastro_estatico n p s hp x hx, fun m => ?_⟩⟩
  · cases n <;> exact List.mem_cons_self
  · have hx1 := rastro_estatico n p s hp x hx
    have hparado : ∀ t, Mantem d (fun _ _ => True) x.1.isStatic x.2 t → Parado w d x.2 t :=
      fun t ht => ⟨Intacto.de_ver hj (ht.parado hx1).1, (ht.parado hx1).2⟩
    have hquadro : QuadroMantem d (fun _ _ => True) cr (eavmHost w cr pc m) x.1 :=
      (eavmHost_isola hj (conserva_nada w d) m).2.2 x.1
    have hruns := hquadro x.2
    exact hruns.mono (fun r t hr => ⟨hparado t hr.1, hr.2 hx1⟩) fun _ t ht => hparado t ht

end

/-- A static frame on the state that calls a contract. -/
theorem quadro_estatico_nada_escreve_no_estado :
    (paramsDeTeste true, { world := { state := estadoDeTeste "0x" } }) ∈
        (rastro (EavmWorld.world criptoIdeal) criptoIdeal precompiladosIdeais maxCallDepth
          (paramsDeTeste true) { world := { state := estadoDeTeste "0x" } }).quadros ∧
      ∀ x ∈ (rastro (EavmWorld.world criptoIdeal) criptoIdeal precompiladosIdeais maxCallDepth
          (paramsDeTeste true) { world := { state := estadoDeTeste "0x" } }).quadros,
        x.1.isStatic = true ∧
          ∀ m, Runs (runEavm criptoIdeal (eavmHost (EavmWorld.world criptoIdeal) criptoIdeal
              precompiladosIdeais m) x.1) x.2
            (fun r t => Parado (EavmWorld.world criptoIdeal) EavmWorld.diario x.2 t ∧ r.logs = [])
            fun _ t => Parado (EavmWorld.world criptoIdeal) EavmWorld.diario x.2 t :=
  quadro_estatico_nada_escreve (EavmWorld.world_journaled criptoIdeal) maxCallDepth _ rfl

end Eavm

section

open Eavm EavmWorld

/-! ## Undoing on the state -/

variable {cr : Cripto} {pc : Precompilados}

/-- Undoing everything gives back the world that had no journal. -/
theorem desfazAte_zero {w t : EavmWorld} (hw : w.journal = []) (h : diario.Preserva w t) :
    t.desfazAte 0 = w := by
  have hprof : diario.prof w = 0 := congrArg List.length hw
  have hver : diario.ver (t.desfazAte 0) = diario.ver w := by
    rw [(desfeito_desfazAte (Nat.zero_le _)).ver, h.volta 0 (Nat.zero_le _)]
    change desfazer _ (w.journal.take (w.journal.length - 0)) w.visao = w.visao
    rw [hw]
    rfl
  have hjournal : (t.desfazAte 0).journal = [] := by
    unfold desfazAte
    simp
  calc t.desfazAte 0 = { (t.desfazAte 0).visao with journal := (t.desfazAte 0).journal } := rfl
    _ = { w.visao with journal := w.journal } := by
      rw [hjournal, hw]
      exact congrArg (fun v : EavmWorld => { v with journal := [] }) hver
    _ = w := rfl

/-- A query gives back the state it was given. -/
theorem callEavm_state (p : EavmCallParams) (s : State) : (State.callEavm cr pc p s).2 = s := by
  unfold State.callEavm
  cases parseAddrStrict (minusculas p.para) with
  | none => rfl
  | some target =>
    dsimp only
    rw [desfazAte_zero rfl (executarNoMundo_mantem _ _).1]

variable {amb : Ambiente}

theorem concluirExecucao_mantem {p : EavmTx.Preparo} {w : EavmWorld}
    {f : Option ExecResult × EavmWorld} (hp : diario.Preserva w f.2)
    (hc : State.Conservado w.state f.2.state) :
    diario.Preserva w (EavmTx.concluirExecucao p f).2 ∧
      State.Conservado w.state (EavmTx.concluirExecucao p f).2.state := by
  obtain ⟨r, t⟩ := f
  cases r with
  | none => exact ⟨hp, hc⟩
  | some r =>
    unfold EavmTx.concluirExecucao
    dsimp only
    split_ifs
    · unfold EavmTx.concluirDeploy
      split_ifs
      · exact ⟨hp.trans (putCode_preserva _ _ _), hc.trans (putCode_conservado t _ _)⟩
      · exact ⟨hp, hc⟩
    · exact ⟨hp, hc⟩

/-- The world after the entry value of a transaction. -/
theorem entradaDe_mantem (s : State) (p : EavmTx.Preparo) :
    diario.Preserva { state := s } (EavmTx.entradaDe cr s p).2 ∧
      State.Conservado s (EavmTx.entradaDe cr s p).2.state := by
  unfold EavmTx.entradaDe
  split_ifs
  · exact ⟨moveValue_preserva _ _ _ _ _, moveValue_conservado { state := s } _ _ _ _⟩
  · exact ⟨Diario.Preserva.refl _, State.Conservado.refl s⟩

/-- The execution of a transaction keeps the totals and can be undone; a failed one
leaves the world it started from. -/
theorem executar_mantem {s : State} {p : EavmTx.Preparo} {tx : Tx} {height blockTs : ℕ}
    {r : ExecResult} {w : EavmWorld}
    (h : EavmTx.executar amb s p tx height blockTs = .ok (r, w)) :
    State.Conservado s w.state ∧ diario.Preserva { state := s } w ∧
      (r.success = false → w = { state := s }) := by
  obtain ⟨hp, hc⟩ := entradaDe_mantem s p
  unfold EavmTx.executar at h
  dsimp only at h
  split at h
  case isFalse => cases h
  case isTrue =>
    have hrun := @executarNoMundo_mantem amb.cripto amb.precompilados
      (EavmTx.paramsDe p tx height blockTs) (EavmTx.entradaDe amb.cripto s p).2
    obtain ⟨hp', hc'⟩ := concluirExecucao_mantem (p := p) (hp.trans hrun.1) (hc.trans hrun.2)
    obtain ⟨rfl, rfl⟩ := Prod.mk.inj (Except.ok.inj h)
    split_ifs with hsucesso
    · exact ⟨hc', hp', fun hf => absurd (hsucesso.symm.trans hf) (by decide)⟩
    · rw [desfazAte_zero rfl hp']
      exact ⟨State.Conservado.refl s, Diario.Preserva.refl _, fun _ => rfl⟩

/-- Value moves, and none is made or destroyed: over any execution of a transaction
the total of the native balances, the balance of every contract and every other field
of every account stay, and no balance leaves its range. -/
theorem executar_conserva {s : State} {p : EavmTx.Preparo} {tx : Tx} {height blockTs : ℕ}
    {r : ExecResult} {w : EavmWorld}
    (h : EavmTx.executar amb s p tx height blockTs = .ok (r, w)) : State.Conservado s w.state :=
  (executar_mantem h).1

/-- A call with value to the contract. -/
def chamadaDeTeste : Tx where
  txType := "EAVM_CALL"
  de := criptoIdeal.deriveAddressFrom []
  amount := "5"
  nonce := 1
  timestamp := 1
  data := some (.map [("to", .str (addrHex alvoDeTeste))])

/-- A payment to a contract that sends it back to its caller, which is called with
all but a part of the gas. -/
def pagamentoDeTeste : EavmTx.Preparo where
  deploy := false
  value := 5
  gas := 100000
  sender := zeroAddr
  contrato := alvoDeTeste
  code := [0x60, 0, 0x60, 0, 0x60, 0, 0x60, 0, 0x60, 5, 0x33, 0x5a, 0xf1]

def estadoPagador : State where
  accounts := (∅ : OrdMap String Account).insert (criptoIdeal.e7OfAddr zeroAddr) { balance := 7 }

theorem executar_conserva_no_pagamento :
    ∃ r w, EavmTx.executar ambienteIdeal estadoPagador pagamentoDeTeste chamadaDeTeste
        1 2 = .ok (r, w) ∧
      w.xfers.length = 1 ∧ State.Conservado estadoPagador w.state := by
  have hxfers : (match EavmTx.executar ambienteIdeal estadoPagador pagamentoDeTeste
      chamadaDeTeste 1 2 with
    | .ok (_, w) => w.xfers.length == 1
    | .error _ => false) = true := by
    rw [ambienteIdeal_eq]
    decide +kernel
  split at hxfers
  case h_1 r w hrun => exact ⟨r, w, hrun, beq_iff_eq.mp hxfers, executar_conserva hrun⟩
  case h_2 => cases hxfers

/-! ## The transaction -/

/-- The state after the fee of `tx`: its quota of GB and its balance. -/
def State.aposTaxa (s : State) (tx : Tx) (height : ℕ) (fee : Amount) : State :=
  s.comConta tx.de fun c =>
    commitGb height (peekGb (s.account tx.de) height (consumoGb tx))
      { c with balance := s.balanceOf tx.de - fee }

/-- The state after the epilogue: the fee, the nonce and the burn. -/
def State.aposEpilogo (s : State) (tx : Tx) (height : ℕ) (fee : Amount) : State :=
  let t := (s.aposTaxa tx height fee).comConta tx.de fun c =>
    { c with nonce := (s.account tx.de).nonce + 1 }
  { t with totalBurned := s.totalBurned + fee }

/-- The machine runs for `tx` on `s`, and fails. -/
def FalhaNaVm (amb : Ambiente) (s : State) (tx : Tx) (height blockTs feeLimit : ℕ) : Prop :=
  ∃ p r w, EavmTx.preparar amb.cripto s tx height feeLimit = .ok p ∧
    EavmTx.executar amb s p tx height blockTs = .ok (r, w) ∧ r.success = false

/-- A refusal after the run, on the world already undone. -/
theorem recusado_runs {α : Type} {s t : State} {msg : String} {f : Unit → Op α}
    {Q : α → State → Prop} :
    Runs (do set s; liftM (recusar True msg) >>= f) t Q fun _ u => u = s :=
  Runs.set_bind (Runs.bind (Runs.lift_intro (fun _ h => by cases h) fun _ _ => rfl))

/-- A failed execution costs the fee, or is refused and costs nothing. -/
theorem cobrarVm_runs (s : State) (tx : Tx) (height feeLimit : ℕ) (t : State) :
    Runs (EavmTx.cobrarVm { state := s } tx height feeLimit) t
      (fun fee u => u = s.aposTaxa tx height fee) fun _ u => u = s := by
  unfold EavmTx.cobrarVm
  refine Runs.set_bind ?_
  dsimp only
  refine Runs.bind (Runs.lift_intro (fun fee _ => ?_) fun _ _ => rfl)
  refine Runs.ite (fun _ => recusado_runs) fun _ => Runs.ite (fun _ => recusado_runs) fun _ => ?_
  exact Runs.modify_bind (Runs.pure_intro rfl)

/-- A failed execution is charged the fee only, or refused at no cost, and has an
empty receipt. -/
theorem aplicarVm_runs (s : State) (tx : Tx) (height blockTs feeLimit : ℕ) :
    Runs (EavmTx.aplicarVm amb tx height blockTs feeLimit) s
      (fun a u =>
        (a.2.success = false → FalhaNaVm amb s tx height blockTs feeLimit ∧
          a.2.logs = [] ∧ a.2.xfers = []) ∧
        (FalhaNaVm amb s tx height blockTs feeLimit → u = s.aposTaxa tx height a.1))
      fun _ u => FalhaNaVm amb s tx height blockTs feeLimit → u = s := by
  unfold EavmTx.aplicarVm
  refine Runs.get_bind (Runs.bind (Runs.lift_intro (fun p hp => ?_) fun _ _ _ => rfl))
  refine Runs.bind (Runs.lift_intro (fun f hf => ?_) fun _ _ _ => rfl)
  obtain ⟨r, w⟩ := f
  cases hr : r.success with
  | true =>
    have hfalha : ¬ FalhaNaVm amb s tx height blockTs feeLimit := by
      rintro ⟨p', r', w', hp', hf', hr'⟩
      obtain rfl := Except.ok.inj (hp.symm.trans hp')
      obtain ⟨rfl, -⟩ := Prod.mk.inj (Except.ok.inj (hf.symm.trans hf'))
      exact absurd (hr.symm.trans hr') (by decide)
    refine Runs.bind (Runs.intro (fun fee u _ => Runs.pure_intro ⟨fun ho => ?_, ?_⟩) fun _ u _ => ?_)
    · exact absurd (hr.symm.trans ho) (by decide)
    · exact fun h => absurd h hfalha
    · exact fun h => absurd h hfalha
  | false =>
    obtain rfl := (executar_mantem hf).2.2 hr
    have hlogs : (if r.success then r.logs else []) = [] := if_neg (by rw [hr]; decide)
    refine Runs.bind ((cobrarVm_runs s tx height feeLimit s).mono (fun fee u hu => ?_) ?_)
    · exact Runs.pure_intro ⟨fun _ => ⟨⟨p, r, _, hp, hf, hr⟩, hlogs, rfl⟩, fun _ => hu⟩
    · exact fun _ u hu _ => hu

theorem conferirEntrada_nonce {s : State} {tx : Tx} {recebido : ℕ}
    (h : conferirEntrada s tx = .ok recebido) : recebido = (s.account tx.de).nonce + 1 := by
  unfold conferirEntrada at h
  obtain ⟨n, hn, h⟩ := except_bind_eq_ok.mp h
  obtain ⟨_, -, h⟩ := except_bind_eq_ok.mp h
  obtain ⟨_, -, h⟩ := except_bind_eq_ok.mp h
  unfold conferirNonce at hn
  obtain ⟨_, -, hn⟩ := except_bind_eq_ok.mp hn
  exact (Except.ok.inj h).symm.trans (Except.ok.inj hn).symm

theorem queimarTaxa_runs (s : State) (fee : Amount) :
    Runs (queimarTaxa fee) s
      (fun _ u => u = { s with totalBurned := s.totalBurned + fee }) fun _ _ => True := by
  unfold queimarTaxa
  refine Runs.get_bind (Runs.bind (Runs.lift_intro (fun queimado hq => ?_) fun _ _ => trivial))
  refine Runs.modify_intro ?_
  rw [(soma_eq_ok.mp hq).1]

/-- A failed execution leaves what the epilogue of the transaction makes. -/
theorem applyTransaction_falha (s : State) (tx : Tx) (height blockTs : ℕ) :
    Runs (applyTransaction amb tx height blockTs) s
      (fun a u => ∀ o, a.eavm = some o → o.success = false →
        u = s.aposEpilogo tx height a.fee) fun _ _ => True := by
  unfold applyTransaction
  refine Runs.get_bind (Runs.bind (Runs.lift_intro (fun recebido hr => ?_) fun _ _ => trivial))
  have hnonce : recebido = (s.account tx.de).nonce + 1 := conferirEntrada_nonce hr
  refine Runs.ite (fun _ => ?_) fun _ => ?_
  · unfold aplicarEavm EavmTx.aplicar
    refine Runs.bind (Runs.bind (Runs.lift_intro (fun feeLimit _ => ?_) fun _ _ => trivial))
    refine Runs.ite (fun _ => ?_) fun _ => ?_
    · refine Runs.bind (Runs.intro (fun fee u _ => Runs.pure_intro ?_) fun _ _ _ => trivial)
      refine Runs.modify_bind (Runs.bind (Runs.intro (fun _ v _ => ?_) fun _ _ _ => trivial))
      exact Runs.pure_intro fun o ho => by cases ho
    · refine Runs.bind ((aplicarVm_runs s tx height blockTs feeLimit).mono ?_ fun _ _ _ => trivial)
      rintro ⟨fee, recibo⟩ u hu
      refine Runs.pure_intro (Runs.modify_bind (Runs.bind ((queimarTaxa_runs _ fee).mono ?_
        fun _ _ _ => trivial)))
      rintro _ v rfl
      refine Runs.pure_intro ?_
      rintro o ⟨⟩ ho
      obtain rfl := hu.2 (hu.1 ho).1
      rw [hnonce]
      rfl
  · unfold aplicarNativa
    refine Runs.bind (Runs.lift_intro (fun x _ => ?_) fun _ _ => trivial)
    refine Runs.bind (Runs.intro (fun _ u _ => ?_) fun _ _ _ => trivial)
    refine Runs.modify_bind (Runs.bind (Runs.intro (fun _ v _ => ?_) fun _ _ _ => trivial))
    exact Runs.pure_intro fun o ho => by cases ho

/-- The journal of the world on the state: every properly nested session restores
the accounts, the contracts and the recorded transfers of the snapshot it reverts to;
a query gives the state back; and a failed execution leaves the fee and the nonce, or
nothing at all when the transaction is refused after it. -/
theorem diario_restaura (amb : Ambiente) :
    (∀ (s : EavmHost EavmWorld) es x i m t,
      Sessao.corre (EavmWorld.world amb.cripto) es { host := s } = some x →
      x.abertos[i]? = some (m, t) →
      ∃ y, x.passo (EavmWorld.world amb.cripto) (.revert i) = some y ∧
        y.host.world.state = t.world.state ∧ y.host.world.xfers = t.world.xfers) ∧
    (∀ p s, (State.callEavm amb.cripto amb.precompilados p s).2 = s) ∧
    (∀ s tx height blockTs feeLimit, FalhaNaVm amb s tx height blockTs feeLimit →
      Runs (EavmTx.aplicarVm amb tx height blockTs feeLimit) s
        (fun a u => u = s.aposTaxa tx height a.1) fun _ u => u = s) ∧
    ∀ s tx height blockTs, Runs (applyTransaction amb tx height blockTs) s
      (fun a u => ∀ o, a.eavm = some o → o.success = false →
        u = s.aposEpilogo tx height a.fee) fun _ _ => True := by
  refine ⟨?_, callEavm_state, ?_, applyTransaction_falha⟩
  · intro s es x i m t hrun hi
    obtain ⟨y, hy, hver⟩ := Sessao.revert_restaura (world_journaled amb.cripto) hrun hi
    exact ⟨y, hy, state_de_visao hver,
      (congrArg EavmWorld.xfers (hver : y.host.world.visao = t.world.visao) :)⟩
  · intro s tx height blockTs feeLimit hf
    exact (aplicarVm_runs s tx height blockTs feeLimit).mono (fun a u hu => hu.2 hf)
      fun _ u hu => hu hf

theorem chamada_falha :
    FalhaNaVm ambienteIdeal (estadoDeTeste "0xfe") chamadaDeTeste 1 2 (10 ^ 7) := by
  have hfalha : (match EavmTx.preparar criptoIdeal (estadoDeTeste "0xfe") chamadaDeTeste 1
      (10 ^ 7) with
    | .ok p =>
      match EavmTx.executar ambienteIdeal (estadoDeTeste "0xfe") p chamadaDeTeste 1 2 with
      | .ok (r, _) => !r.success
      | .error _ => false
    | .error _ => false) = true := by
    rw [ambienteIdeal_eq, criptoIdeal_eq]
    decide +kernel
  split at hfalha
  case h_1 p hp =>
    split at hfalha
    case h_1 r w hrun => exact ⟨p, r, w, hp, hrun, by simpa using hfalha⟩
    case h_2 => cases hfalha
  case h_2 => cases hfalha

/-- Two nested snapshots with a write after each, and a revert to the outer one. -/
def sessaoDeTeste : List Evento :=
  [.snapshot, .opera (.bumpNonce zeroAddr), .snapshot, .opera (.setStorage zeroAddr 1 2)]

theorem diario_restaura_no_teste :
    (∃ x y, Sessao.corre (EavmWorld.world criptoIdeal) sessaoDeTeste
        { host := { world := { state := estadoDeTeste "" } } } = some x ∧
      x.passo (EavmWorld.world criptoIdeal) (.revert 1) = some y ∧
      y.host.world.state = estadoDeTeste "") ∧
    Runs (EavmTx.aplicarVm ambienteIdeal chamadaDeTeste 1 2 (10 ^ 7)) (estadoDeTeste "0xfe")
      (fun a u => u = (estadoDeTeste "0xfe").aposTaxa chamadaDeTeste 1 a.1)
      fun _ u => u = estadoDeTeste "0xfe" := by
  obtain ⟨hsessao, -, hfalha, -⟩ := diario_restaura ambienteIdeal
  refine ⟨?_, hfalha _ _ _ _ _ chamada_falha⟩
  obtain ⟨y, hy, hstate, -⟩ := hsessao { world := { state := estadoDeTeste "" } } sessaoDeTeste _ 1
    _ _ rfl rfl
  exact ⟨_, y, rfl, hy, hstate⟩

end

end Eav7
