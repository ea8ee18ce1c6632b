import Eav7.PegadaDoBloco

/-!
# The guard of the accounts

The permissions, the operations that wait for approvals and the scheduled changes,
as one component: everything that happens to it, over any run of transactions and
ticks. The rest of the state never writes to it.
-/

namespace Eav7

open Base

open GovTx (cobrarTaxa conferirProposta conferirAprovacao OpResolvida)

structure Guarda where
  permissions : OrdMap String Permission
  pendingOps : OrdMap String PendingOp
  pendingPerm : OrdMap String PendingPerm

def State.guarda (s : State) : Guarda := ⟨s.permissions, s.pendingOps, s.pendingPerm⟩

/-- The fields of the state that make the guard. -/
@[reducible] def Campo.daGuarda : Campo → Bool
  | permissions => true
  | pendingOps => true
  | pendingPerm => true
  | _ => false

/-- A property of the guard alone. -/
def DaGuarda (P : Guarda → Prop) (s : State) : Prop := P s.guarda

/-- The field is not one of the guard's. -/
class Alheio (daGuarda : Bool) : Prop where
  fora : daGuarda = false

instance : Alheio false := ⟨rfl⟩

theorem guarda_apaga {c : Campo} (h : c.daGuarda = false) (s : State) :
    (c.apaga s).guarda = s.guarda := by
  cases c <;> first | rfl | cases h

instance (P : Guarda → Prop) (c : Campo) [h : Alheio c.daGuarda] : Ignora (DaGuarda P) c where
  congr {s t} heq hs := by
    have hguarda := congrArg State.guarda heq
    rw [guarda_apaga h.fora, guarda_apaga h.fora] at hguarda
    exact (congrArg P hguarda).mpr hs

/-- The fee touches no guard. -/
theorem cobrarTaxa_runs {P : Guarda → Prop} {α : Type} {tx : Tx} {ctx : Ctx} {f : Unit → Op α}
    {s : State} (hs : DaGuarda P s)
    (hf : ∀ u, cobrarTaxa tx ctx s = .ok ⟨⟩ u → u.guarda = s.guarda →
      Runs (f ⟨⟩) u (fun _ t => DaGuarda P t) fun _ t => DaGuarda P t) :
    Runs (cobrarTaxa tx ctx >>= f) s (fun _ t => DaGuarda P t) fun _ t => DaGuarda P t := by
  have hguarda : Mantem (DaGuarda fun g => g = s.guarda) (cobrarTaxa tx ctx) :=
    cobrarTaxa_mantem tx ctx
  refine Runs.bind (Runs.intro (fun _ u hu => ?_) fun _ u hu => ?_)
  · exact hf u hu ((hguarda s rfl).ok hu)
  · exact (congrArg P ((hguarda s rfl).error hu)).mpr hs

/-! ## Actions and runs -/

/-- What the node does to the state. A block opens, applies its transactions, emits
its reward and ticks. -/
inductive Acao where
  | transacao (tx : Tx) (height blockTs : ℕ)
  | tick (height : ℕ)
  | abre (block : Block)
  | emite (block : Block)

/-- The reward of a block and its emission. -/
def emiteRecompensa (block : Block) : Op Unit := do
  let s ← get
  let recompensa ← s.blockReward block.height
  distributeBlockReward block.validator recompensa
  let s ← get
  recusar (u128Limit ≤ s.totalMinted + recompensa) "estouro no total emitido"
  modify fun s => { s with totalMinted := s.totalMinted + recompensa }

theorem fechaBloco_eq (block : Block) :
    fechaBloco block = (do emiteRecompensa block; blockTick block.height) := by
  unfold fechaBloco emiteRecompensa
  simp only [bind_assoc]

section

variable (amb : Ambiente)

/-- The state after an action, also when the action fails half way. -/
def Acao.opera (s : State) : Acao → State
  | .transacao tx height blockTs => fim (applyTransaction amb tx height blockTs) s
  | .tick height => fim (blockTick height) s
  | .abre block => fim (abreBloco block) s
  | .emite block => fim (emiteRecompensa block) s

/-- The state after a run, the newest action first. -/
def roda (s : State) : List Acao → State
  | [] => s
  | a :: passado => Acao.opera amb (roda s passado) a

/-! ## Endorsements -/

/-- The operation that a sender stands for, and what it resolves to when the weight
suffices. -/
structure Endosso where
  opId : String
  account : String
  op : List (String × JsonValue)
  permissionId : ℕ
  resolvida : Option OpResolvida

/-- The type that the body of an operation names. -/
def tipoDaOp (op : List (String × JsonValue)) : String :=
  (texto ((JsonValue.map op).campo "type")).getD ""

namespace GovTx

def Proposta.endosso (p : Proposta) : Endosso :=
  ⟨p.id, p.account, p.op, p.permissionId, p.resolvida⟩

def Aprovacao.endosso (a : Aprovacao) : Endosso :=
  ⟨a.opId, a.pending.account, a.pending.op, a.pending.permissionId, a.resolvida⟩

/-- The operation that a proposal leaves pending. -/
def Proposta.pendente (p : Proposta) (tx : Tx) : PendingOp :=
  { account := p.account, op := p.op, approvals := (∅ : OrdMap String ℕ).insert tx.de p.peso,
    weight := p.peso, permissionId := p.permissionId, createdAt := tx.timestamp,
    deadline := p.deadline }

/-- The pending operation with one more approval. -/
def Aprovacao.pendente (a : Aprovacao) (tx : Tx) : PendingOp :=
  { a.pending with approvals := a.pending.approvals.insert tx.de a.peso, weight := a.novoPeso }

end GovTx

/-- The transaction passes the checks of every transaction and pays its fee. -/
structure Paga (s : State) (tx : Tx) (ctx : Ctx) : Prop where
  entrada : ∃ recebido, conferirEntrada s tx = .ok recebido
  taxa : ∃ gb, apurarTaxa s tx ctx.height = .ok (gb, ctx.fee)
  debito : ∃ u, cobrarTaxa tx ctx s = .ok ⟨⟩ u

theorem paga_iff {s : State} {tx : Tx} {ctx : Ctx} :
    Paga s tx ctx ↔ (conferirEntrada s tx).isOk = true ∧
      ((apurarTaxa s tx ctx.height).toOption.map Prod.snd) = some ctx.fee ∧
      conclui (cobrarTaxa tx ctx) s = true := by
  constructor
  · rintro ⟨⟨recebido, hr⟩, ⟨gb, ht⟩, u, hu⟩
    refine ⟨by rw [hr]; rfl, by rw [ht]; rfl, ?_⟩
    unfold conclui
    rw [hu]
  · rintro ⟨hr, ht, hu⟩
    refine ⟨?_, ?_, ?_⟩
    · cases h : conferirEntrada s tx with
      | ok recebido => exact ⟨recebido, rfl⟩
      | error e => rw [h] at hr; cases hr
    · cases h : apurarTaxa s tx ctx.height with
      | ok r => rw [h] at ht; exact ⟨r.1, congrArg _ (Prod.ext rfl (Option.some.inj ht))⟩
      | error e => rw [h] at ht; cases ht
    · obtain ⟨_, h⟩ := conclui_iff.mp hu
      exact ⟨_, h⟩

instance (s : State) (tx : Tx) (ctx : Ctx) : Decidable (Paga s tx ctx) :=
  decidable_of_iff _ paga_iff.symm

/-- The transaction goes through as a proposal or an approval of an operation. -/
inductive Endossa (s : State) (tx : Tx) (ctx : Ctx) : Endosso → Prop where
  | proposta {p : GovTx.Proposta} (htipo : Tipo.deTexto tx.txType = some .multisigPropose)
      (hpaga : Paga s tx ctx) (hp : conferirProposta amb.cripto s tx ctx = .ok p) :
      Endossa s tx ctx p.endosso
  | aprovacao {a : GovTx.Aprovacao} (htipo : Tipo.deTexto tx.txType = some .multisigApprove)
      (hpaga : Paga s tx ctx) (ha : conferirAprovacao amb.cripto s tx ctx = .ok a) :
      Endossa s tx ctx a.endosso

/-! ## What an action does to the guard -/

namespace Guarda

variable (g : Guarda)

def comPermissao (conta : String) (perm : Option Permission) : Guarda :=
  { g with
    permissions := match perm with
      | none => g.permissions.erase conta
      | some p => g.permissions.insert conta p
    pendingOps := g.pendingOps.filter fun _ op => !(op.account == conta) }

def comOp (id : String) (op : PendingOp) : Guarda :=
  { g with pendingOps := g.pendingOps.insert id op }

def semOp (id : String) : Guarda := { g with pendingOps := g.pendingOps.erase id }

def comMudanca (conta : String) (pend : PendingPerm) : Guarda :=
  { g with pendingPerm := g.pendingPerm.insert conta pend }

def semMudanca (conta : String) : Guarda := { g with pendingPerm := g.pendingPerm.erase conta }

/-- Drops the operations past their deadline. -/
def expira (height : ℕ) : Guarda :=
  { g with pendingOps := g.pendingOps.filter fun _ op => !decide (op.deadline < height) }

/-- Applies a change that the permission of the moment still authorises. -/
def aplica (conta : String) (pend : PendingPerm) : Guarda :=
  match g.permissions.get? conta with
  | none => g
  | some perm =>
    if perm.eV2 && GovTx.autorizaMudanca perm pend.change pend.approvals.keys then
      match GovTx.simularMudanca perm pend.change with
      | .ok nova => g.comPermissao conta (some nova)
      | .error _ => g
    else g

/-- Takes the change of an account when it is due. -/
def maturaConta (height : ℕ) (conta : String) : Guarda :=
  match g.pendingPerm.get? conta with
  | none => g
  | some pend =>
    if ∃ e ∈ pend.executeAt, e ≤ height then (g.semMudanca conta).aplica conta pend else g

def matura (height : ℕ) : Guarda :=
  g.pendingPerm.keys.foldl (fun g conta => g.maturaConta height conta) g

end Guarda

/-- A change as its proposal leaves it. -/
def novaMudanca (tx : Tx) (height : ℕ) (mudanca : Mudanca) (executeAt : Option ℕ) : PendingPerm :=
  { change := mudanca, approvals := GovTx.cedula tx.de, vetoes := ∅, executeAt := executeAt,
    proposedAt := height }

/-- Everything that an action can do to the guard. -/
inductive Muda (s : State) : Acao → Guarda → Prop where
  | nada {a : Acao} : Muda s a s.guarda
  | configura {tx : Tx} {height blockTs : ℕ} (perm : Permission)
      (hsem : s.permissions.get? tx.de = none) :
      Muda s (.transacao tx height blockTs)
        { s.guarda with permissions := s.permissions.insert tx.de perm }
  | propoe {tx : Tx} {height blockTs : ℕ} {conta : String} {perm : Permission}
      {mudanca : Mudanca} {delay : ℕ} {executeAt : Option ℕ}
      (htipo : Tipo.deTexto tx.txType = some .permissionPropose)
      (hperm : s.permissions.get? conta = some perm)
      (hdelay : GovTx.delayDaPermissao perm = .ok delay)
      (hinicio : GovTx.inicioDoTimelock (GovTx.autorizaMudanca perm mudanca [tx.de]) height delay =
        .ok executeAt) :
      Muda s (.transacao tx height blockTs)
        (s.guarda.comMudanca conta (novaMudanca tx height mudanca executeAt))
  | aprova {tx : Tx} {height blockTs : ℕ} {conta : String} {perm : Permission}
      {pend : PendingPerm} {delay : ℕ} {novo : Option ℕ}
      (htipo : Tipo.deTexto tx.txType = some .permissionApprove)
      (hpend : s.pendingPerm.get? conta = some pend)
      (hperm : s.permissions.get? conta = some perm)
      (hdelay : GovTx.delayDaPermissao perm = .ok delay)
      (hinicio : GovTx.inicioDoTimelock (pend.executeAt.isNone &&
        GovTx.autorizaMudanca perm pend.change (pend.approvals.insert tx.de true).keys)
          height delay = .ok novo) :
      Muda s (.transacao tx height blockTs)
        (s.guarda.comMudanca conta
          { pend with
            approvals := pend.approvals.insert tx.de true
            executeAt := novo.or pend.executeAt })
  | veta {tx : Tx} {height blockTs : ℕ} {conta : String} {pend : PendingPerm}
      {vetoes : OrdMap String Bool} (hpend : s.pendingPerm.get? conta = some pend) :
      Muda s (.transacao tx height blockTs) (s.guarda.comMudanca conta { pend with vetoes := vetoes })
  | cancela {tx : Tx} {height blockTs : ℕ} {conta : String} :
      Muda s (.transacao tx height blockTs) (s.guarda.semMudanca conta)
  | pendura {tx : Tx} {ctx : Ctx} {p : GovTx.Proposta}
      (he : Endossa amb s tx ctx p.endosso)
      (hp : conferirProposta amb.cripto s tx ctx = .ok p) (hresolvida : p.resolvida = none) :
      Muda s (.transacao tx ctx.height ctx.blockTs) (s.guarda.comOp p.id (p.pendente tx))
  | soma {tx : Tx} {ctx : Ctx} {a : GovTx.Aprovacao}
      (he : Endossa amb s tx ctx a.endosso)
      (ha : conferirAprovacao amb.cripto s tx ctx = .ok a) (hresolvida : a.resolvida = none) :
      Muda s (.transacao tx ctx.height ctx.blockTs) (s.guarda.comOp a.opId (a.pendente tx))
  | retira {tx : Tx} {height blockTs : ℕ} (id : String) :
      Muda s (.transacao tx height blockTs) (s.guarda.semOp id)
  | executaProposta {tx : Tx} {ctx : Ctx} {p : GovTx.Proposta} {perm : Option Permission}
      (hp : conferirProposta amb.cripto s tx ctx = .ok p)
      (hop : p.resolvida = some (.permissionChange perm)) :
      Muda s (.transacao tx ctx.height ctx.blockTs) (s.guarda.comPermissao p.account perm)
  | executaAprovacao {tx : Tx} {ctx : Ctx} {a : GovTx.Aprovacao} {perm : Option Permission}
      (ha : conferirAprovacao amb.cripto s tx ctx = .ok a)
      (hop : a.resolvida = some (.permissionChange perm)) :
      Muda s (.transacao tx ctx.height ctx.blockTs)
        ((s.guarda.semOp a.opId).comPermissao a.pending.account perm)
  | tique {height : ℕ} :
      Muda s (.tick height) ((s.guarda.expira height).matura height)

end

/-! ## The actions do no more -/

section

variable {amb : Ambiente} {s : State} {tx : Tx} {ctx : Ctx}

/-- The runs whose every end, in success or failure, is a move of the guard. -/
abbrev RunsMuda (amb : Ambiente) (s : State) (a : Acao) {α : Type} (m : Op α) (u : State) : Prop :=
  Runs m u (fun _ t => DaGuarda (Muda amb s a) t) fun _ t => DaGuarda (Muda amb s a) t

theorem muda_nada {a : Acao} : DaGuarda (Muda amb s a) s := Muda.nada

theorem permissionUpdate_muda :
    RunsMuda amb s (.transacao tx ctx.height ctx.blockTs)
      (GovTx.permissionUpdate amb.cripto tx ctx) s := by
  refine Runs.get_bind (Runs.conferir muda_nada fun _ hsem => Runs.conferir muda_nada fun d _ => ?_)
  refine Runs.conferir muda_nada fun perm _ => cobrarTaxa_runs muda_nada fun u _ hu => ?_
  have hnone : s.permissions.get? tx.de = none :=
    OrdMap.contains_eq_false.mp (Bool.eq_false_iff.mpr (recusar_eq_ok.mp hsem))
  refine Runs.modify_intro ?_
  have hg := congrArg (fun g : Guarda =>
    { g with permissions := g.permissions.insert tx.de perm }) hu
  exact (congrArg _ hg).mpr (Muda.configura perm hnone)

theorem permissionPropose_muda (htipo : Tipo.deTexto tx.txType = some .permissionPropose) :
    RunsMuda amb s (.transacao tx ctx.height ctx.blockTs)
      (GovTx.permissionPropose amb.cripto tx ctx) s := by
  refine Runs.get_bind (Runs.conferir muda_nada fun d _ => Runs.conferir muda_nada fun conta _ => ?_)
  refine Runs.conferir muda_nada fun perm hperm => Runs.conferir muda_nada fun _ _ => ?_
  refine Runs.conferir muda_nada fun _ _ => Runs.conferir muda_nada fun mudanca _ => ?_
  refine Runs.conferir muda_nada fun _ _ => Runs.conferir muda_nada fun delay hdelay => ?_
  refine Runs.conferir muda_nada fun executeAt hinicio => cobrarTaxa_runs muda_nada fun u _ hu => ?_
  refine Runs.modify_intro ?_
  have hg := congrArg (fun g : Guarda =>
    g.comMudanca conta (novaMudanca tx ctx.height mudanca executeAt)) hu
  exact (congrArg _ hg).mpr (Muda.propoe htipo (exigir_eq_ok.mp hperm) hdelay hinicio)

theorem permissionApprove_muda (htipo : Tipo.deTexto tx.txType = some .permissionApprove) :
    RunsMuda amb s (.transacao tx ctx.height ctx.blockTs)
      (GovTx.permissionApprove amb.cripto tx ctx) s := by
  refine Runs.get_bind (Runs.conferir muda_nada fun d _ => Runs.conferir muda_nada fun conta _ => ?_)
  refine Runs.conferir muda_nada fun pend hpend => Runs.conferir muda_nada fun perm hperm => ?_
  refine Runs.conferir muda_nada fun _ _ => Runs.conferir muda_nada fun _ _ => ?_
  refine Runs.conferir muda_nada fun delay hdelay => Runs.conferir muda_nada fun novo hinicio => ?_
  refine cobrarTaxa_runs muda_nada fun u _ hu => Runs.modify_intro ?_
  have hg := congrArg (fun g : Guarda => g.comMudanca conta
    { pend with
      approvals := pend.approvals.insert tx.de true
      executeAt := novo.or pend.executeAt }) hu
  exact (congrArg _ hg).mpr
    (Muda.aprova htipo (exigir_eq_ok.mp hpend) (exigir_eq_ok.mp hperm) hdelay hinicio)

theorem permissionVeto_muda :
    RunsMuda amb s (.transacao tx ctx.height ctx.blockTs)
      (GovTx.permissionVeto amb.cripto tx ctx) s := by
  refine Runs.get_bind (Runs.conferir muda_nada fun d _ => Runs.conferir muda_nada fun conta _ => ?_)
  refine Runs.conferir muda_nada fun pend hpend => Runs.conferir muda_nada fun owner _ => ?_
  refine Runs.conferir muda_nada fun _ _ => cobrarTaxa_runs muda_nada fun u _ hu => ?_
  refine Runs.modify_intro ?_
  split
  · have hg := congrArg (fun g : Guarda => g.semMudanca conta) hu
    exact (congrArg _ hg).mpr Muda.cancela
  · have hg := congrArg (fun g : Guarda => g.comMudanca conta
      { pend with vetoes := pend.vetoes.insert tx.de true }) hu
    exact (congrArg _ hg).mpr (Muda.veta (exigir_eq_ok.mp hpend))

/-- An operation moves the guard when it is the change of a permission. -/
theorem aplicarOp_muda {a : Acao} {account : String} {op : OpResolvida} {height : ℕ}
    {opId : String} {u : State} (hu : Muda amb s a u.guarda)
    (hperm : ∀ perm, op = .permissionChange perm →
      Muda amb s a (u.guarda.comPermissao account perm)) :
    RunsMuda amb s a (GovTx.aplicarOp amb.cripto account op height opId) u := by
  by_cases hop : ∃ perm, op = .permissionChange perm
  · obtain ⟨perm, rfl⟩ := hop
    exact Runs.modify_intro (hperm perm rfl)
  · refine aplicarOp_mantem amb.cripto account op height opId (fun perm h => ?_) u hu
    exact absurd ⟨perm, h⟩ hop

theorem multisigPropose_muda (htipo : Tipo.deTexto tx.txType = some .multisigPropose)
    (hentrada : ∃ recebido, conferirEntrada s tx = .ok recebido)
    (htaxa : ∃ gb, apurarTaxa s tx ctx.height = .ok (gb, ctx.fee)) :
    RunsMuda amb s (.transacao tx ctx.height ctx.blockTs)
      (GovTx.multisigPropose amb.cripto tx ctx) s := by
  refine Runs.get_bind (Runs.conferir muda_nada fun p hp => cobrarTaxa_runs muda_nada ?_)
  intro u hpago hu
  have he : Endossa amb s tx ctx p.endosso := .proposta htipo ⟨hentrada, htaxa, u, hpago⟩ hp
  split
  case h_1 op hop =>
    refine aplicarOp_muda ((congrArg _ hu).mpr Muda.nada) ?_
    rintro perm rfl
    rw [hu]
    exact Muda.executaProposta hp hop
  case h_2 hnone =>
    refine Runs.modify_intro ?_
    have hg := congrArg (fun g : Guarda => g.comOp p.id (p.pendente tx)) hu
    exact (congrArg _ hg).mpr (Muda.pendura he hp hnone)

theorem multisigApprove_muda (htipo : Tipo.deTexto tx.txType = some .multisigApprove)
    (hentrada : ∃ recebido, conferirEntrada s tx = .ok recebido)
    (htaxa : ∃ gb, apurarTaxa s tx ctx.height = .ok (gb, ctx.fee)) :
    RunsMuda amb s (.transacao tx ctx.height ctx.blockTs)
      (GovTx.multisigApprove amb.cripto tx ctx) s := by
  refine Runs.get_bind (Runs.conferir muda_nada fun a ha => cobrarTaxa_runs muda_nada ?_)
  intro u hpago hu
  have he : Endossa amb s tx ctx a.endosso := .aprovacao htipo ⟨hentrada, htaxa, u, hpago⟩ ha
  split
  case h_1 op hop =>
    have hg := congrArg (fun g : Guarda => g.semOp a.opId) hu
    refine Runs.modify_bind (aplicarOp_muda ((congrArg _ hg).mpr (Muda.retira a.opId)) ?_)
    rintro perm rfl
    exact (congrArg (fun g : Guarda => Muda amb s _ (g.comPermissao a.pending.account perm)) hg).mpr
      (Muda.executaAprovacao ha hop)
  case h_2 hnone =>
    refine Runs.modify_intro ?_
    have hg := congrArg (fun g : Guarda => g.comOp a.opId (a.pendente tx)) hu
    exact (congrArg _ hg).mpr (Muda.soma he ha hnone)

theorem manipulador_muda {tipo : Tipo} (htipo : Tipo.deTexto tx.txType = some tipo)
    (hentrada : ∃ recebido, conferirEntrada s tx = .ok recebido)
    (htaxa : ∃ gb, apurarTaxa s tx ctx.height = .ok (gb, ctx.fee)) :
    RunsMuda amb s (.transacao tx ctx.height ctx.blockTs) (manipulador amb tx ctx tipo) s := by
  by_cases hperm : tipo ∈ Tipo.dePermissao
  · simp only [Tipo.dePermissao, List.mem_cons, List.not_mem_nil, or_false] at hperm
    rcases hperm with rfl | rfl | rfl | rfl | rfl | rfl
    · exact permissionUpdate_muda
    · exact permissionPropose_muda htipo
    · exact permissionApprove_muda htipo
    · exact permissionVeto_muda
    · exact multisigPropose_muda htipo hentrada htaxa
    · exact multisigApprove_muda htipo hentrada htaxa
  · exact manipulador_mantem tx ctx hperm s muda_nada

theorem applyTransaction_muda (height blockTs : ℕ) :
    RunsMuda amb s (.transacao tx height blockTs) (applyTransaction amb tx height blockTs) s := by
  refine applyTransaction_guia muda_nada fun tipo gb fee _ htipo hentrada htaxa => ?_
  exact @manipulador_muda _ _ _ ⟨height, blockTs, fee⟩ _ htipo hentrada ⟨gb, htaxa⟩

theorem aplicarMudanca_guarda (conta : String) (pend : PendingPerm) (s : State) :
    (aplicarMudanca conta pend s).guarda = s.guarda.aplica conta pend := by
  unfold aplicarMudanca Guarda.aplica
  change _ = match s.permissions.get? conta with
    | none => s.guarda
    | some perm => _
  cases s.permissions.get? conta with
  | none => rfl
  | some perm =>
    dsimp only
    split_ifs
    · cases GovTx.simularMudanca perm pend.change <;> rfl
    · rfl

theorem maturaPermissao_guarda (height : ℕ) (conta : String) (s : State) :
    (maturaPermissao height conta s).guarda = s.guarda.maturaConta height conta := by
  unfold maturaPermissao Guarda.maturaConta
  change _ = match s.pendingPerm.get? conta with
    | none => s.guarda
    | some pend => _
  cases s.pendingPerm.get? conta with
  | none => rfl
  | some pend =>
    dsimp only
    split_ifs
    · exact aplicarMudanca_guarda conta pend _
    · rfl

/-- The tick reads nothing but the guard to mature the changes. -/
theorem maturaPermissoes_guarda (height : ℕ) (s : State) :
    (maturaPermissoes height s).guarda = s.guarda.matura height := by
  have hcontas : ∀ (contas : List String) (s : State),
      (contas.foldl (fun s conta => maturaPermissao height conta s) s).guarda =
        contas.foldl (fun g conta => g.maturaConta height conta) s.guarda := by
    intro contas
    induction contas with
    | nil => exact fun _ => rfl
    | cons conta contas ih =>
      intro s
      rw [List.foldl_cons, List.foldl_cons, ih, maturaPermissao_guarda]
  exact hcontas _ s

theorem blockTick_muda (height : ℕ) : RunsMuda amb s (.tick height) (blockTick height) s := by
  have hpropostas : Mantem (DaGuarda fun g => g = s.guarda) (maturaPropostas height) :=
    maturaPropostas_mantem height
  refine Runs.bind ((hpropostas s rfl).mono (fun _ u hu => ?_) fun _ u hu => ?_)
  · have hexpira : (expiraOpsMultisig height u).guarda = s.guarda.expira height :=
      congrArg (Guarda.expira · height) hu
    have hativa : DaGuarda (fun g => g = s.guarda.expira height)
        (ativaComissoes height (expiraOpsMultisig height u)) :=
      ativaComissoes_mantem height _ hexpira
    refine Runs.modify_bind (Runs.modify_bind (Runs.modify_bind ?_))
    refine maturaUnbonding_mantem height _ ?_
    change Muda amb s (.tick height) (maturaPermissoes height _).guarda
    rw [maturaPermissoes_guarda, hativa]
    exact Muda.tique
  · exact (congrArg _ hu).mpr Muda.nada

/-- Whatever an action does to the guard is one of the moves. -/
theorem opera_muda (a : Acao) : Muda amb s a (a.opera amb s).guarda := by
  cases a with
  | transacao tx height blockTs => exact (applyTransaction_muda height blockTs).fim
  | tick height => exact (blockTick_muda height).fim
  | abre block => exact (abreBloco_mantem block s muda_nada).fim
  | emite block =>
    refine Runs.fim (I := DaGuarda (Muda amb s (.emite block))) ?_
    refine Mantem.get_bind (fun s hs => .lift_bind fun recompensa => ?_) s muda_nada
    refine .bind (distributeBlockReward_mantem _ _) fun _ => .get_bind fun s hs => ?_
    exact .lift_bind fun _ => .modify_intro fun s hs => escreve .totalMinted hs rfl

/-! ## A block is a run -/

theorem roda_append (s : State) (xs ys : List Acao) :
    roda amb s (xs ++ ys) = roda amb (roda amb s ys) xs := by
  induction xs with
  | nil => rfl
  | cons a xs ih => exact congrArg (Acao.opera amb · a) ih

/-- The actions of a block, the newest first. -/
def acoesDoBloco (block : Block) : List Acao :=
  .tick block.height :: .emite block ::
    ((block.transactions.map (.transacao · block.height block.timestamp.toNat)).reverse ++
      [.abre block])

theorem aplicarTxs_roda {height blockTs : ℕ} (txs : List Tx) {s t : State}
    (h : aplicarTxs amb height blockTs txs s = .ok ⟨⟩ t) :
    t = roda amb s (txs.map (.transacao · height blockTs)).reverse := by
  induction txs generalizing s with
  | nil => exact (pure_eq_ok.mp h).2
  | cons tx txs ih =>
    obtain ⟨_, u, htx, h⟩ := bind_eq_ok.mp h
    rw [List.map_cons, List.reverse_cons, roda_append, ih h]
    exact congrArg (roda amb · _) (fim_eq htx).symm

theorem abreBloco_eq_ok {block : Block} {blockTs : ℕ} {s t : State}
    (h : abreBloco block s = .ok blockTs t) : blockTs = block.timestamp.toNat := by
  have hruns : Runs (abreBloco block) s (fun n _ => n = block.timestamp.toNat) fun _ _ => True := by
    have hfim : ∀ u, Runs (do
        if block.timestamp < 0 then recusar True "timestamp inválido"
        return block.timestamp.toNat : Op ℕ) u (fun n _ => n = block.timestamp.toNat)
          fun _ _ => True := by
      refine fun u => Runs.ite (fun _ => ?_) fun _ => Runs.pure_intro rfl
      exact Runs.bind (Runs.lift_intro (fun _ _ => Runs.pure_intro rfl) fun _ _ => trivial)
    exact Runs.ite (fun _ => Runs.modify_bind (hfim _)) fun _ => hfim s
  exact hruns.ok h

/-- The node applies a block as a run of these actions. -/
theorem applyBlockTo_roda {block : Block} {t : State} (h : applyBlockTo amb block s = .ok ⟨⟩ t) :
    t = roda amb s (acoesDoBloco block) := by
  obtain ⟨blockTs, u, habre, h⟩ := bind_eq_ok.mp h
  obtain rfl := abreBloco_eq_ok habre
  obtain ⟨_, v, htxs, h⟩ := bind_eq_ok.mp h
  rw [fechaBloco_eq] at h
  obtain ⟨_, w, hemite, htick⟩ := bind_eq_ok.mp h
  unfold acoesDoBloco
  change t = Acao.opera amb (Acao.opera amb (roda amb s _) (.emite block)) (.tick block.height)
  rw [roda_append]
  change t = fim (blockTick block.height) (fim (emiteRecompensa block)
    (roda amb (fim (abreBloco block) s) _))
  rw [fim_eq habre, ← aplicarTxs_roda _ htxs, fim_eq hemite, fim_eq htick]

end

end Eav7
