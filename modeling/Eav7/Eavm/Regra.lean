import Eav7.Eavm.Vm

/-!
# The frame rule of the interpreter

The interpreter touches the world only through its host, and emits logs only in
its own frame or by merging those of a nested one. Whatever the operations of the
host keep is kept by every run: `Regra` lists what is asked of them, given what
the frame allows, and `runEavm_regra` gives it for the run.
-/

namespace Eav7
namespace Eavm

open Base

section

variable {σ α β : Type}

/-! ## Computations that stay inside the frame -/

/-- No effect on the world and no log, in success or failure. -/
def Quieto (m : Passo σ α) (P : α → Prop) : Prop :=
  ∀ i, Runs m i (fun a j => j.host = i.host ∧ j.logs = i.logs ∧ P a) fun _ j => j.host = i.host

abbrev Livre : α → Prop := fun _ => True

namespace Quieto

variable {P : α → Prop} {R : β → Prop}

theorem bind {m : Passo σ α} {f : α → Passo σ β} (hm : Quieto m P)
    (hf : ∀ a, P a → Quieto (f a) R) : Quieto (m >>= f) R := by
  intro i
  refine Runs.bind ((hm i).mono ?_ fun _ _ he => he)
  rintro a j ⟨hhost, hlogs, ha⟩
  refine (hf a ha j).mono ?_ fun _ k hk => hk.trans hhost
  rintro b k ⟨hhost', hlogs', hb⟩
  exact ⟨hhost'.trans hhost, hlogs'.trans hlogs, hb⟩

/-- Sequencing that forgets what the first part returned. -/
theorem entao {m : Passo σ α} {f : α → Passo σ β} (hm : Quieto m Livre)
    (hf : ∀ a, Quieto (f a) R) : Quieto (m >>= f) R :=
  hm.bind fun a _ => hf a

theorem pure_intro {a : α} (h : P a) : Quieto (pure a : Passo σ α) P := fun _ =>
  Runs.pure_intro ⟨rfl, rfl, h⟩

theorem falha_intro (e : EavmError) : Quieto (falha e : Passo σ α) P := fun _ =>
  Runs.throw_intro rfl

theorem get_bind {f : Interp σ → Passo σ α} (hf : ∀ i, Quieto (f i) P) :
    Quieto (get >>= f) P := fun i => Runs.get_bind (hf i i)

theorem lift_intro (x : Except Parada α) : Quieto (lift x : Passo σ α) Livre := fun _ =>
  Runs.lift_intro (fun _ _ => ⟨rfl, rfl, trivial⟩) fun _ _ => rfl

theorem modify_intro {g : Interp σ → Interp σ} (hhost : ∀ i, (g i).host = i.host)
    (hlogs : ∀ i, (g i).logs = i.logs) : Quieto (modify g) Livre := fun i =>
  Runs.modify_intro ⟨hhost i, hlogs i, trivial⟩

theorem ite {c : Prop} [Decidable c] {m m' : Passo σ α} (h : c → Quieto m P)
    (h' : ¬ c → Quieto m' P) : Quieto (if c then m else m') P := by
  by_cases hc : c
  · rw [if_pos hc]
    exact h hc
  · rw [if_neg hc]
    exact h' hc

theorem mono {P' : α → Prop} {m : Passo σ α} (h : Quieto m P) (hP : ∀ a, P a → P' a) :
    Quieto m P' := fun i =>
  (h i).mono (fun _ _ ⟨hh, hl, ha⟩ => ⟨hh, hl, hP _ ha⟩) fun _ _ he => he

end Quieto

theorem exige_quieto (c : Prop) [Decidable c] (e : EavmError) :
    Quieto (exige c e : Passo σ Unit) fun _ => c :=
  Quieto.ite (fun hc => Quieto.pure_intro hc) fun _ => Quieto.falha_intro e

/-- Reading the machine and writing back one with the same world and logs. -/
theorem regrava_quieto {c : Interp σ → Prop} [DecidablePred c] {e : EavmError}
    {g : Interp σ → Interp σ} (hhost : ∀ i, (g i).host = i.host)
    (hlogs : ∀ i, (g i).logs = i.logs) :
    Quieto (get >>= fun i => exige (c i) e >>= fun _ => (set (g i) : Passo σ PUnit)) Livre := by
  intro i
  refine Runs.get_bind (Runs.bind ((exige_quieto (c i) e i).mono ?_ fun _ _ he => he))
  rintro _ j -
  exact Runs.set_intro ⟨by simp_all, by simp_all, trivial⟩

theorem spend_quieto (g : ℕ) : Quieto (spend g : Passo σ Unit) Livre :=
  regrava_quieto (fun _ => rfl) fun _ => rfl

theorem push_quieto (v : Word) : Quieto (push v : Passo σ Unit) Livre :=
  regrava_quieto (fun _ => rfl) fun _ => rfl

theorem pop_quieto : Quieto (pop : Passo σ Word) Livre := by
  intro i
  unfold pop
  refine Runs.get_bind ?_
  cases hs : i.stack with
  | nil => exact Runs.throw_intro rfl
  | cons v stack => exact Runs.set_bind (Runs.pure_intro ⟨rfl, rfl, trivial⟩)

theorem peek_quieto (n : ℕ) : Quieto (peek n : Passo σ Word) Livre := by
  unfold peek
  refine Quieto.get_bind fun i => ?_
  cases i.stack[n]? with
  | none => exact Quieto.falha_intro _
  | some v => exact Quieto.pure_intro trivial

theorem popN_quieto (n : ℕ) : Quieto (popN n : Passo σ (List Word)) Livre := by
  induction n with
  | zero => exact Quieto.pure_intro trivial
  | succ n ih =>
    unfold popN
    exact pop_quieto.entao fun v => ih.entao fun vs => Quieto.pure_intro trivial

theorem cobraExpansao_quieto (words : ℕ) : Quieto (cobraExpansao words : Passo σ Unit) Livre := by
  unfold cobraExpansao
  refine Quieto.get_bind fun i => Quieto.ite (fun _ => ?_) fun _ => Quieto.pure_intro trivial
  refine (Quieto.lift_intro _).entao fun novo => (Quieto.lift_intro _).entao fun atual => ?_
  refine (Quieto.lift_intro _).entao fun delta => (spend_quieto delta).entao fun _ => ?_
  exact Quieto.modify_intro (fun _ => rfl) fun _ => rfl

theorem runs_lift_bind {τ : Type} {x : Except Parada α} {f : α → EStateM Parada τ β} {s : τ}
    {Q : β → τ → Prop} {E : Parada → τ → Prop} (hok : ∀ a, Runs (f a) s Q E)
    (herr : ∀ e, E e s) : Runs (lift x >>= f) s Q E :=
  Runs.bind (Runs.lift_intro (fun a _ => hok a) fun e _ => herr e)

theorem cresceMem_quieto (words fim : ℕ) : Quieto (cresceMem words fim : Passo σ Unit) Livre := by
  intro i
  unfold cresceMem
  refine Runs.get_bind (Runs.ite (fun _ => ?_) fun _ => Runs.pure_intro ⟨rfl, rfl, trivial⟩)
  refine runs_lift_bind (fun pedido => runs_lift_bind (fun dobro => ?_) fun _ => rfl) fun _ => rfl
  exact Runs.set_intro ⟨rfl, rfl, trivial⟩

theorem memExpand_quieto (offset size : Word) :
    Quieto (memExpand offset size : Passo σ Unit) Livre := by
  unfold memExpand
  refine Quieto.ite (fun _ => Quieto.pure_intro trivial) fun _ => ?_
  refine (exige_quieto _ _).bind fun _ _ => (cobraExpansao_quieto _).entao fun _ => ?_
  exact cresceMem_quieto _ _

theorem escreve_quieto (ini : ℕ) (fonte : Bytes) :
    Quieto (escreve ini fonte : Passo σ Unit) Livre := by
  intro i
  unfold escreve
  refine Runs.get_bind (runs_lift_bind (fun mem => ?_) fun _ => rfl)
  exact Runs.set_intro ⟨rfl, rfl, trivial⟩

theorem memWrite_quieto (offset : Word) (bytes : Bytes) :
    Quieto (memWrite offset bytes : Passo σ Unit) Livre := by
  unfold memWrite
  refine (memExpand_quieto _ _).entao fun _ => ?_
  exact Quieto.ite (fun _ => Quieto.pure_intro trivial) fun _ => escreve_quieto _ _

theorem memRead_quieto (offset size : Word) :
    Quieto (memRead offset size : Passo σ Bytes) Livre := by
  unfold memRead
  refine (memExpand_quieto _ _).entao fun _ => ?_
  refine Quieto.ite (fun _ => Quieto.pure_intro trivial) fun _ => Quieto.get_bind fun i => ?_
  exact (Quieto.lift_intro _).entao fun fim => Quieto.lift_intro _

theorem copiaParaMem_quieto (dest : Word) (src : Bytes) (srcOff size : ℕ) :
    Quieto (copiaParaMem dest src srcOff size : Passo σ Unit) Livre := by
  unfold copiaParaMem
  refine (memExpand_quieto _ _).entao fun _ => ?_
  refine Quieto.ite (fun _ => Quieto.pure_intro trivial) fun _ => ?_
  refine Quieto.ite (fun _ => ?_) fun _ => Quieto.pure_intro trivial
  exact (Quieto.lift_intro _).entao fun fonte => escreve_quieto _ _

theorem copiaDentro_quieto (dest orig n : ℕ) :
    Quieto (copiaDentro dest orig n : Passo σ Unit) Livre := by
  unfold copiaDentro
  refine Quieto.get_bind fun i => (Quieto.lift_intro _).entao fun fim => ?_
  exact (Quieto.lift_intro _).entao fun fonte => escreve_quieto _ _

/-! ## Instructions that stay inside the frame -/

variable {cr : Cripto} {h : Host σ} {q : Quadro}

theorem segue_quieto : Quieto (pure Fluxo.segue : Passo σ Fluxo) Continua :=
  Quieto.pure_intro Continua.segue

theorem push_segue_quieto (v : Word) :
    Quieto (push v >>= fun _ => (pure Fluxo.segue : Passo σ Fluxo)) Continua :=
  (push_quieto v).entao fun _ => segue_quieto

theorem opera_quieto (g n : ℕ) (f : List Word → Word) :
    Quieto (opera g n f : Passo σ Fluxo) Continua := by
  unfold opera
  exact (spend_quieto g).entao fun _ => (popN_quieto n).entao fun _ => push_segue_quieto _

theorem empurra_quieto (g : ℕ) (f : Interp σ → Word) : Quieto (empurra g f) Continua := by
  unfold empurra
  exact (spend_quieto g).entao fun _ => Quieto.get_bind fun _ => push_segue_quieto _

theorem comOsaka_quieto {g : ℕ} {op : UInt8} {m : Passo σ Fluxo} (hm : Quieto m Continua) :
    Quieto (comOsaka q g op m) Continua := by
  unfold comOsaka exigeOsaka
  exact (spend_quieto g).entao fun _ => (exige_quieto _ _).bind fun _ _ => hm

theorem expOp_quieto : Quieto (expOp : Passo σ Fluxo) Continua := by
  unfold expOp
  refine pop_quieto.entao fun a => pop_quieto.entao fun e => ?_
  refine (Quieto.lift_intro _).entao fun v => (Quieto.lift_intro _).entao fun c => ?_
  exact (spend_quieto c).entao fun _ => push_segue_quieto _

theorem keccakOp_quieto : Quieto (keccakOp cr : Passo σ Fluxo) Continua := by
  unfold keccakOp
  refine (spend_quieto _).entao fun _ => pop_quieto.entao fun o => pop_quieto.entao fun l => ?_
  exact (spend_quieto _).entao fun _ => (memRead_quieto o l).entao fun _ => push_segue_quieto _

theorem calldataloadOp_quieto : Quieto (calldataloadOp q : Passo σ Fluxo) Continua := by
  unfold calldataloadOp
  refine (spend_quieto _).entao fun _ => pop_quieto.entao fun w => ?_
  refine Quieto.ite (fun _ => ?_) fun _ => push_segue_quieto _
  exact (Quieto.lift_intro _).entao fun _ => (Quieto.lift_intro _).entao fun _ =>
    push_segue_quieto _

theorem copiaOp_quieto (fonte : Bytes) : Quieto (copiaOp fonte : Passo σ Fluxo) Continua := by
  unfold copiaOp
  refine (spend_quieto _).entao fun _ => pop_quieto.entao fun d => pop_quieto.entao fun o => ?_
  refine pop_quieto.entao fun s => (spend_quieto _).entao fun _ => ?_
  exact (copiaParaMem_quieto _ _ _ _).entao fun _ => segue_quieto

theorem extcodecopyOp_quieto : Quieto (extcodecopyOp h) Continua := by
  unfold extcodecopyOp
  refine (spend_quieto _).entao fun _ => pop_quieto.entao fun w => pop_quieto.entao fun d => ?_
  refine pop_quieto.entao fun o => pop_quieto.entao fun s => (spend_quieto _).entao fun _ => ?_
  exact Quieto.get_bind fun _ => (copiaParaMem_quieto _ _ _ _).entao fun _ => segue_quieto

theorem extcodehashOp_quieto : Quieto (extcodehashOp cr h) Continua := by
  unfold extcodehashOp
  refine (spend_quieto _).entao fun _ => pop_quieto.entao fun w => Quieto.get_bind fun i => ?_
  exact (spend_quieto _).entao fun _ => push_segue_quieto _

theorem returndatacopyOp_quieto : Quieto (returndatacopyOp : Passo σ Fluxo) Continua := by
  unfold returndatacopyOp
  refine (spend_quieto _).entao fun _ => pop_quieto.entao fun d => pop_quieto.entao fun o => ?_
  refine pop_quieto.entao fun s => Quieto.get_bind fun i => (exige_quieto _ _).bind fun _ _ => ?_
  refine (spend_quieto _).entao fun _ => Quieto.get_bind fun j => ?_
  refine (Quieto.lift_intro _).entao fun fim => (Quieto.lift_intro _).entao fun dados => ?_
  exact (memWrite_quieto d dados).entao fun _ => segue_quieto

theorem mloadOp_quieto : Quieto (mloadOp : Passo σ Fluxo) Continua := by
  unfold mloadOp
  refine (spend_quieto _).entao fun _ => pop_quieto.entao fun o => ?_
  exact (memRead_quieto o 32).entao fun _ => push_segue_quieto _

theorem mstoreOp_quieto (bytes : Word → Bytes) :
    Quieto (mstoreOp bytes : Passo σ Fluxo) Continua := by
  unfold mstoreOp
  refine (spend_quieto _).entao fun _ => pop_quieto.entao fun o => pop_quieto.entao fun v => ?_
  exact (memWrite_quieto o _).entao fun _ => segue_quieto

theorem saltaPara_quieto (t : Word) : Quieto (saltaPara q t : Passo σ Fluxo) Continua := by
  unfold saltaPara
  exact (exige_quieto _ _).bind fun _ _ => Quieto.pure_intro (Continua.salta _)

theorem jumpOp_quieto : Quieto (jumpOp q : Passo σ Fluxo) Continua := by
  unfold jumpOp
  exact (spend_quieto _).entao fun _ => pop_quieto.entao fun t => saltaPara_quieto t

theorem jumpiOp_quieto : Quieto (jumpiOp q : Passo σ Fluxo) Continua := by
  unfold jumpiOp
  refine (spend_quieto _).entao fun _ => pop_quieto.entao fun t => pop_quieto.entao fun c => ?_
  exact Quieto.ite (fun _ => segue_quieto) fun _ => saltaPara_quieto t

theorem mcopyOp_quieto (op : UInt8) : Quieto (mcopyOp q op : Passo σ Fluxo) Continua := by
  unfold mcopyOp exigeOsaka
  refine (spend_quieto _).entao fun _ => (exige_quieto _ _).bind fun _ _ => ?_
  refine pop_quieto.entao fun d => pop_quieto.entao fun o => pop_quieto.entao fun s => ?_
  refine (spend_quieto _).entao fun _ => (memExpand_quieto o s).entao fun _ => ?_
  refine (memExpand_quieto d s).entao fun _ => Quieto.ite (fun _ => segue_quieto) fun _ => ?_
  exact (copiaDentro_quieto _ _ _).entao fun _ => segue_quieto

theorem pushOp_quieto (n : ℕ) : Quieto (pushOp q n : Passo σ Fluxo) Continua := by
  unfold pushOp
  refine (spend_quieto _).entao fun _ => Quieto.get_bind fun i => ?_
  refine (Quieto.lift_intro _).entao fun ini => (Quieto.lift_intro _).entao fun np => ?_
  refine (Quieto.lift_intro _).entao fun dados => (push_quieto _).entao fun _ => ?_
  exact Quieto.pure_intro (Continua.salta np)

theorem dupOp_quieto (n : ℕ) : Quieto (dupOp n : Passo σ Fluxo) Continua := by
  unfold dupOp
  exact (spend_quieto _).entao fun _ => (peek_quieto n).entao fun _ => push_segue_quieto _

theorem swapOp_quieto (n : ℕ) : Quieto (swapOp n : Passo σ Fluxo) Continua := by
  unfold swapOp
  refine (spend_quieto _).entao fun _ => (peek_quieto 0).entao fun _ => ?_
  refine (peek_quieto n).entao fun _ => Quieto.entao ?_ fun _ => segue_quieto
  exact Quieto.modify_intro (fun _ => rfl) fun _ => rfl

theorem preparaLog_quieto (op : UInt8) (n : ℕ) :
    Quieto (preparaLog q op n : Passo σ Log) fun _ => q.isStatic = false := by
  unfold preparaLog exigeEscrita
  refine (exige_quieto _ _).bind fun _ hs => pop_quieto.entao fun o => pop_quieto.entao fun s => ?_
  refine (popN_quieto n).entao fun topics => (spend_quieto _).entao fun _ => ?_
  exact (memRead_quieto o s).entao fun data => Quieto.pure_intro hs

/-- The requests a frame makes keep its ban on writes. -/
def Herda (q : Quadro) (req : CallRequest) : Prop :=
  q.isStatic = true → req.isStatic = true ∧ req.value = 0

theorem popSalt_quieto (comSalt : Bool) : Quieto (popSalt comSalt : Passo σ _) Livre := by
  unfold popSalt
  refine Quieto.ite (fun _ => ?_) fun _ => Quieto.pure_intro trivial
  exact pop_quieto.entao fun v => Quieto.pure_intro trivial

theorem preparaCreate_quieto (op : UInt8) (comSalt : Bool) :
    Quieto (preparaCreate q op comSalt : Passo σ _) fun _ => q.isStatic = false := by
  unfold preparaCreate exigeEscrita
  refine (exige_quieto _ _).bind fun _ hs => (spend_quieto _).entao fun _ => ?_
  refine pop_quieto.entao fun val => pop_quieto.entao fun o => pop_quieto.entao fun s => ?_
  refine (popSalt_quieto comSalt).entao fun salt => (memRead_quieto o s).entao fun init => ?_
  exact Quieto.get_bind fun i => (Quieto.lift_intro _).entao fun d => Quieto.pure_intro hs

theorem popValor_quieto (kind : CallKind) : Quieto (popValor kind : Passo σ Word) Livre := by
  unfold popValor
  exact Quieto.ite (fun _ => pop_quieto) fun _ => Quieto.pure_intro trivial

theorem preparaCall_quieto (op : UInt8) (kind : CallKind) :
    Quieto (preparaCall q op kind : Passo σ _) fun p => Herda q p.1 := by
  unfold preparaCall
  refine (spend_quieto _).entao fun _ => pop_quieto.entao fun reqGas => ?_
  refine pop_quieto.entao fun para => (popValor_quieto kind).entao fun callValue => ?_
  refine (exige_quieto _ _).bind fun _ hvalor => pop_quieto.entao fun ao => ?_
  refine pop_quieto.entao fun asz => pop_quieto.entao fun ro => pop_quieto.entao fun rsz => ?_
  refine (spend_quieto _).entao fun _ => (memRead_quieto ao asz).entao fun input => ?_
  refine (memExpand_quieto ro rsz).entao fun _ => Quieto.get_bind fun i => ?_
  refine (Quieto.lift_intro _).entao fun d => Quieto.pure_intro fun hs => ⟨?_, ?_⟩
  · simp only [pedidoDe, hs, Bool.true_or]
  · rcases hvalor with h0 | hs'
    · exact h0
    · exact absurd hs (by rw [hs']; decide)

/-- The instructions that neither end the frame nor reach beyond it. -/
def Instrucao.interna : Instrucao → Bool
  | stop | sai _ | sstore | tstore | log _ | create _ | call _ => false
  | _ => true

theorem Instrucao.casos (instr : Instrucao) : instr.interna = true ∨ instr = .stop ∨
    (∃ success, instr = .sai success) ∨ instr = .sstore ∨ instr = .tstore ∨
    (∃ n, instr = .log n) ∨ (∃ comSalt, instr = .create comSalt) ∨ ∃ kind, instr = .call kind := by
  cases instr <;> simp [interna]

theorem executa_quieto (op : UInt8) (instr : Instrucao) (hi : instr.interna = true) :
    Quieto (executa cr h q op instr) Continua := by
  cases instr with
  | stop => cases hi
  | sai success => cases hi
  | sstore => cases hi
  | tstore => cases hi
  | log n => cases hi
  | create comSalt => cases hi
  | call kind => cases hi
  | binaria b => exact opera_quieto _ _ _
  | addmod => exact opera_quieto _ _ _
  | mulmod => exact opera_quieto _ _ _
  | exp => exact expOp_quieto
  | iszero => exact opera_quieto _ _ _
  | not => exact opera_quieto _ _ _
  | clz => exact comOsaka_quieto (opera_quieto _ _ _)
  | keccak => exact keccakOp_quieto
  | leitura l => exact empurra_quieto _ _
  | balance => exact Quieto.get_bind fun _ => opera_quieto _ _ _
  | selfbalance => exact empurra_quieto _ _
  | calldataload => exact calldataloadOp_quieto
  | calldatacopy => exact copiaOp_quieto _
  | codecopy => exact copiaOp_quieto _
  | extcodesize => exact Quieto.get_bind fun _ => opera_quieto _ _ _
  | extcodecopy => exact extcodecopyOp_quieto
  | extcodehash => exact extcodehashOp_quieto
  | returndatacopy => exact returndatacopyOp_quieto
  | blockhash => exact Quieto.get_bind fun _ => opera_quieto _ _ _
  | blobhash => exact comOsaka_quieto (opera_quieto _ _ _)
  | blobbasefee => exact comOsaka_quieto (opera_quieto _ _ _)
  | pop => exact (spend_quieto _).entao fun _ => pop_quieto.entao fun _ => segue_quieto
  | mload => exact mloadOp_quieto
  | mstore => exact mstoreOp_quieto _
  | mstore8 => exact mstoreOp_quieto _
  | sload => exact Quieto.get_bind fun _ => opera_quieto _ _ _
  | jump => exact jumpOp_quieto
  | jumpi => exact jumpiOp_quieto
  | jumpdest => exact (spend_quieto _).entao fun _ => segue_quieto
  | tload => exact Quieto.get_bind fun _ => comOsaka_quieto (opera_quieto _ _ _)
  | mcopy => exact mcopyOp_quieto op
  | push n => exact pushOp_quieto n
  | dup n => exact dupOp_quieto n
  | swap n => exact swapOp_quieto n
  | invalid => exact Quieto.falha_intro _
  | selfdestruct => exact Quieto.falha_intro _
  | desconhecido => exact Quieto.falha_intro _

/-! ## The rule -/

/-- What the operations of the host must keep for a run of the frame `q` to keep
`R` between worlds and `L` of its logs. A static frame may not write, log or
create, and passes its ban on. -/
structure Regra (h : Host σ) (q : Quadro) (R : σ → σ → Prop) (L : List Log → Prop) : Prop where
  refl : ∀ s, R s s
  trans : ∀ {s t u}, R s t → R t u → R s u
  nil : L []
  append : ∀ {a b}, L a → L b → L (a ++ b)
  log : q.isStatic = false → ∀ l, L [l]
  sstore : q.isStatic = false → ∀ a k v s,
    Runs (h.sstore a k v) s (fun _ s' => R s s') fun _ s' => R s s'
  tstore : q.isStatic = false → ∀ a k v s,
    Runs (h.tstore a k v) s (fun _ s' => R s s') fun _ s' => R s s'
  call : ∀ req, Herda q req → ∀ s,
    Runs (h.call req) s (fun r s' => R s s' ∧ L r.logs) fun _ s' => R s s'
  create : q.isStatic = false → ∀ req s,
    Runs (h.create req) s (fun r s' => R s s' ∧ L r.logs) fun _ s' => R s s'

variable {R : σ → σ → Prop} {L : List Log → Prop} {P : α → Prop} {P' : β → Prop}

/-- `m` keeps the rule, and its result satisfies `P`. -/
def Respeita (R : σ → σ → Prop) (L : List Log → Prop) (m : Passo σ α) (P : α → Prop) : Prop :=
  ∀ i, L i.logs → Runs m i (fun a j => R i.host j.host ∧ L j.logs ∧ P a) fun _ j => R i.host j.host

theorem Quieto.respeita {m : Passo σ α} (hr : Regra h q R L) (hm : Quieto m P) :
    Respeita R L m P := by
  intro i hl
  refine (hm i).mono ?_ ?_
  · rintro a j ⟨hhost, hlogs, ha⟩
    exact ⟨hhost ▸ hr.refl _, hlogs ▸ hl, ha⟩
  · intro e j hhost
    exact hhost ▸ hr.refl _

theorem Respeita.bind {m : Passo σ α} {f : α → Passo σ β} (hr : Regra h q R L)
    (hm : Respeita R L m P) (hf : ∀ a, P a → Respeita R L (f a) P') :
    Respeita R L (m >>= f) P' := by
  intro i hl
  refine Runs.bind ((hm i hl).mono ?_ fun _ _ he => he)
  rintro a j ⟨hij, hlj, ha⟩
  refine (hf a ha j hlj).mono ?_ fun _ k hk => hr.trans hij hk
  rintro b k ⟨hjk, hlk, hb⟩
  exact ⟨hr.trans hij hjk, hlk, hb⟩

theorem noHost_runs {m : EStateM Parada σ α} {i : Interp σ} {Q : α → σ → Prop}
    {E : Parada → σ → Prop} (hm : Runs m i.host Q E) :
    Runs (noHost m) i (fun a j => Q a j.host ∧ j = { i with host := j.host })
      fun e j => E e j.host := by
  refine Runs.intro ?_ ?_
  · intro a j hrun
    unfold noHost at hrun
    cases hms : m i.host with
    | ok b s =>
      rw [hms] at hrun
      obtain ⟨rfl, rfl⟩ := hrun
      exact ⟨hm.ok hms, rfl⟩
    | error e s =>
      rw [hms] at hrun
      cases hrun
  · intro e j hrun
    unfold noHost at hrun
    cases hms : m i.host with
    | ok b s =>
      rw [hms] at hrun
      cases hrun
    | error e' s =>
      rw [hms] at hrun
      obtain ⟨rfl, rfl⟩ := hrun
      exact hm.error hms

theorem noHost_respeita {m : EStateM Parada σ α}
    (hm : ∀ s, Runs m s (fun a s' => R s s' ∧ P a) fun _ s' => R s s') :
    Respeita R L (noHost m) P := by
  intro i hl
  refine (noHost_runs (hm i.host)).mono ?_ fun _ _ he => he
  rintro a j ⟨⟨hr, ha⟩, hj⟩
  exact ⟨hr, by rw [hj]; exact hl, ha⟩

/-- The end of a frame hands over logs that satisfy `L`. -/
def Entrega (L : List Log → Prop) (f : Fluxo) : Prop := ∀ r, f = .fim r → L r.logs

theorem Continua.entrega {f : Fluxo} (hf : Continua f) : Entrega L f := fun r hr =>
  absurd hr (hf r)

theorem Quieto.entrega {m : Passo σ Fluxo} (hr : Regra h q R L) (hm : Quieto m Continua) :
    Respeita R L m (Entrega L) :=
  (hm.mono fun _ hc => hc.entrega).respeita hr

theorem done_respeita (hr : Regra h q R L) (success : Bool) (ret : Bytes) :
    Respeita R L (done q success ret : Passo σ Fluxo) (Entrega L) := by
  intro i hl
  unfold done
  refine Runs.get_bind (runs_lift_bind (fun gasUsed => ?_) fun _ => hr.refl _)
  refine Runs.pure_intro ⟨hr.refl _, hl, ?_⟩
  rintro r ⟨⟩
  exact hl

theorem saiOp_respeita (hr : Regra h q R L) (success : Bool) :
    Respeita R L (saiOp q success : Passo σ Fluxo) (Entrega L) := by
  unfold saiOp
  refine (pop_quieto.respeita hr).bind hr fun o _ => (pop_quieto.respeita hr).bind hr fun s _ => ?_
  exact ((memRead_quieto o s).respeita hr).bind hr fun ret _ => done_respeita hr success ret

theorem logOp_respeita (hr : Regra h q R L) (op : UInt8) (n : ℕ) :
    Respeita R L (logOp q op n : Passo σ Fluxo) (Entrega L) := by
  unfold logOp
  refine ((preparaLog_quieto op n).respeita hr).bind hr fun log hs => ?_
  refine Respeita.bind hr (P := Livre) ?_ fun _ _ => segue_quieto.entrega hr
  exact fun i hl => Runs.modify_intro ⟨hr.refl _, hr.append hl (hr.log hs _), trivial⟩

theorem sstoreOp_respeita (hr : Regra h q R L) (op : UInt8) :
    Respeita R L (sstoreOp h q op) (Entrega L) := by
  unfold sstoreOp exigeEscrita
  refine ((exige_quieto _ _).respeita hr).bind hr fun _ hs => ?_
  refine (pop_quieto.respeita hr).bind hr fun k _ => (pop_quieto.respeita hr).bind hr fun v _ => ?_
  intro i hl
  refine Runs.get_bind (Respeita.bind hr ((spend_quieto _).respeita hr) (fun _ _ => ?_) i hl)
  refine Respeita.bind hr (P := Livre) ?_ fun _ _ => segue_quieto.entrega hr
  exact noHost_respeita fun s =>
    (hr.sstore hs _ _ _ s).mono (fun _ _ h => ⟨h, trivial⟩) fun _ _ he => he

theorem tstoreOp_respeita (hr : Regra h q R L) (op : UInt8) :
    Respeita R L (tstoreOp h q op) (Entrega L) := by
  unfold tstoreOp exigeEscrita exigeOsaka
  refine ((spend_quieto _).respeita hr).bind hr fun _ _ => ?_
  refine ((exige_quieto _ _).respeita hr).bind hr fun _ _ => ?_
  refine ((exige_quieto _ _).respeita hr).bind hr fun _ hs => ?_
  refine (pop_quieto.respeita hr).bind hr fun k _ => (pop_quieto.respeita hr).bind hr fun v _ => ?_
  refine Respeita.bind hr (P := Livre) ?_ fun _ _ => segue_quieto.entrega hr
  exact noHost_respeita fun s =>
    (hr.tstore hs _ _ _ s).mono (fun _ _ h => ⟨h, trivial⟩) fun _ _ he => he

/-- Merging the logs of a nested frame. -/
theorem mescla_respeita (hr : Regra h q R L) {g : Interp σ → Interp σ} {logs : List Log}
    (hhost : ∀ i, (g i).host = i.host) (hlogs : ∀ i, (g i).logs = i.logs ++ logs) (hl : L logs) :
    Respeita R L (modify g) Livre := fun i hi =>
  Runs.modify_intro ⟨(hhost i).symm ▸ hr.refl _, (hlogs i).symm ▸ hr.append hi hl, trivial⟩

theorem createOp_respeita (hr : Regra h q R L) (op : UInt8) (comSalt : Bool) :
    Respeita R L (createOp h q op comSalt) (Entrega L) := by
  unfold createOp
  refine ((preparaCreate_quieto op comSalt).respeita hr).bind hr fun req hs => ?_
  refine Respeita.bind hr (noHost_respeita (P := fun r => L r.logs) fun s => hr.create hs req s) ?_
  intro r hlr
  unfold concluiCreate
  refine ((spend_quieto _).respeita hr).bind hr fun _ _ => ?_
  refine Respeita.bind hr (mescla_respeita hr (fun _ => rfl) (fun _ => rfl) hlr) fun _ _ => ?_
  exact (push_segue_quieto _).entrega hr

theorem devolve_quieto (ro rsz : Word) (ret : Bytes) :
    Quieto (devolve ro rsz ret : Passo σ Unit) Livre := by
  unfold devolve
  exact Quieto.ite (fun _ => Quieto.pure_intro trivial) fun _ => memWrite_quieto _ _

theorem callOp_respeita (hr : Regra h q R L) (op : UInt8) (kind : CallKind) :
    Respeita R L (callOp h q op kind) (Entrega L) := by
  unfold callOp
  refine ((preparaCall_quieto op kind).respeita hr).bind hr ?_
  rintro ⟨req, ro, rsz⟩ hherda
  refine Respeita.bind hr (noHost_respeita (P := fun r => L r.logs) fun s => hr.call req hherda s) ?_
  intro r hlr
  unfold concluiCall
  refine ((spend_quieto _).respeita hr).bind hr fun _ _ => Respeita.bind hr (P := Livre) ?_ ?_
  · refine Quieto.respeita hr (Quieto.modify_intro ?_ ?_)
    · exact fun _ => rfl
    · exact fun _ => rfl
  · refine fun _ _ => ((devolve_quieto ro rsz _).respeita hr).bind hr fun _ _ => ?_
    refine Respeita.bind hr (mescla_respeita hr (fun _ => rfl) (fun _ => rfl) hlr) fun _ _ => ?_
    exact (push_segue_quieto _).entrega hr

theorem executa_respeita (hr : Regra h q R L) (op : UInt8) (instr : Instrucao) :
    Respeita R L (executa cr h q op instr) (Entrega L) := by
  rcases instr.casos with hi | rfl | ⟨success, rfl⟩ | rfl | rfl | ⟨n, rfl⟩ | ⟨comSalt, rfl⟩ |
    ⟨kind, rfl⟩
  · exact (executa_quieto op instr hi).entrega hr
  · exact done_respeita hr true []
  · exact saiOp_respeita hr success
  · exact sstoreOp_respeita hr op
  · exact tstoreOp_respeita hr op
  · exact logOp_respeita hr op n
  · exact createOp_respeita hr op comSalt
  · exact callOp_respeita hr op kind

theorem passo_respeita (hr : Regra h q R L) (op : UInt8) :
    Respeita R L (passo cr h q op) fun r => ∀ res, r = some res → L res.logs := by
  intro i hl
  unfold passo
  refine Runs.get_bind (runs_lift_bind (fun seguinte => ?_) fun _ => hr.refl _)
  refine Runs.bind ((executa_respeita hr op _ i hl).mono ?_ fun _ _ he => he)
  rintro f j ⟨hij, hlj, hf⟩
  cases f with
  | segue => exact Runs.modify_bind (Runs.pure_intro ⟨hij, hlj, by rintro r ⟨⟩⟩)
  | salta np => exact Runs.modify_bind (Runs.pure_intro ⟨hij, hlj, by rintro r ⟨⟩⟩)
  | fim r =>
    refine Runs.pure_intro ⟨hij, hlj, ?_⟩
    rintro res ⟨⟩
    exact hf r rfl

theorem laco_respeita (hr : Regra h q R L) (n : ℕ) :
    Respeita R L (laco cr h q n) fun r => L r.logs := by
  induction n with
  | zero => exact fun i _ => Runs.throw_intro (hr.refl _)
  | succ n ih =>
    intro i hl
    unfold laco
    refine Runs.get_bind ?_
    cases q.code[i.pc]? with
    | none =>
      unfold paraNoFim
      refine Runs.get_bind (runs_lift_bind (fun gasUsed => ?_) fun _ => hr.refl _)
      exact Runs.pure_intro ⟨hr.refl _, hl, hl⟩
    | some op =>
      refine Runs.bind ((passo_respeita hr op i hl).mono ?_ fun _ _ he => he)
      rintro r j ⟨hij, hlj, hres⟩
      cases r with
      | some res => exact Runs.pure_intro ⟨hij, hlj, hres res rfl⟩
      | none =>
        refine (ih j hlj).mono ?_ fun _ _ he => hr.trans hij he
        rintro res k ⟨hjk, hlk, hres⟩
        exact ⟨hr.trans hij hjk, hlk, hres⟩

end

/-- Whatever the operations of the host keep, a run of the frame keeps. -/
theorem runEavm_regra {σ : Type} {cr : Cripto} {h : Host σ} {p : ExecParams} {R : σ → σ → Prop}
    {L : List Log → Prop} (hr : Regra h (quadroDe p) R L) (s : σ) :
    Runs (runEavm cr h p) s (fun r s' => R s s' ∧ L r.logs) fun _ s' => R s s' := by
  have hrun : Runs (laco cr h (quadroDe p) (p.gas + 1)) (interpInicial p s) _ _ :=
    laco_respeita hr (p.gas + 1) (interpInicial p s) hr.nil
  refine Runs.intro ?_ ?_
  · intro r s' hres
    unfold runEavm at hres
    split at hres
    case h_1 r' i hl =>
      obtain ⟨rfl, rfl⟩ := hres
      obtain ⟨hR, -, hL⟩ := hrun.ok hl
      exact ⟨hR, hL⟩
    case h_2 => cases hres
  · intro e s' hres
    unfold runEavm at hres
    split at hres
    case h_1 => cases hres
    case h_2 e' i hl =>
      obtain ⟨rfl, rfl⟩ := hres
      exact hrun.error hl

end Eavm
end Eav7
