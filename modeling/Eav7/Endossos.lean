import Eav7.Guarda
import Eav7.RedeIdeal

/-!
# Who stands behind a pending operation

Every pending operation counts the weights of distinct keys of one level of the
permission in force, each of which proposed or approved that very operation.
-/

namespace Eav7

open Base

open GovTx (cobrarTaxa conferirProposta conferirAprovacao OpResolvida)

/-! ## What a proposal and an approval are checked for -/

/-- The request of an endorsement, without its outcome. -/
def Endosso.pedido (e : Endosso) : Endosso := { e with resolvida := none }

def PendingOp.endosso (p : PendingOp) (id : String) : Endosso :=
  ⟨id, p.account, p.op, p.permissionId, none⟩

/-- The operations that a type allows under a permission and a level. -/
structure TipoAceito (perm : Permission) (permissionId : ℕ) (tipo : String) : Prop where
  dono : GovTx.exigeOwner tipo = true → permissionId = GovTx.ownerPermissionId
  semTimelock : tipo = "PERMISSION_CHANGE" → perm.eV2 = false

variable {amb : Ambiente} {s : State} {tx : Tx} {ctx : Ctx}

theorem permissaoPedida_eq_ok {perm : Permission} {tipo : String} {d : JsonValue} {id : ℕ}
    (h : GovTx.permissaoPedida perm tipo d = .ok id) (hdono : GovTx.exigeOwner tipo = true) :
    id = GovTx.ownerPermissionId := by
  unfold GovTx.permissaoPedida at h
  rw [if_pos hdono] at h
  split_ifs at h
  · exact (Except.ok.inj h).symm
  · cases h

theorem validarSe_eq_ok {quorum : Bool} {account : String} {op : JsonValue} {height : ℕ}
    {r : Option OpResolvida} (h : GovTx.validarSe amb.cripto quorum s account op height = .ok r) :
    (r = none ∧ quorum = false) ∨
      ∃ o, r = some o ∧ quorum = true ∧ GovTx.validarOp amb.cripto s account op height = .ok o := by
  unfold GovTx.validarSe at h
  split_ifs at h with hq
  · cases hv : GovTx.validarOp amb.cripto s account op height with
    | ok o => exact .inr ⟨o, by rw [hv] at h; exact (Except.ok.inj h).symm, hq, rfl⟩
    | error e => rw [hv] at h; cases h
  · exact .inl ⟨(Except.ok.inj h).symm, by simpa using hq⟩

/-- What a checked proposal says about the permission of its account. -/
theorem conferirProposta_eq_ok {p : GovTx.Proposta}
    (h : conferirProposta amb.cripto s tx ctx = .ok p) :
    ∃ perm nivel escopo, s.permissions.get? p.account = some perm ∧
      perm.nivelDeGasto p.permissionId = some (nivel, escopo) ∧
      nivel.keys.get? tx.de = some p.peso ∧
      TipoAceito perm p.permissionId (tipoDaOp p.op) ∧
      GovTx.foraDoEscopo escopo (tipoDaOp p.op) = false ∧
      ∀ op, p.resolvida = some op → nivel.threshold ≤ p.peso ∧
        GovTx.validarOp amb.cripto s p.account (.map p.op) ctx.height = .ok op := by
  obtain ⟨d, -, h⟩ := except_bind_eq_ok.mp h
  obtain ⟨_, -, h⟩ := except_bind_eq_ok.mp h
  obtain ⟨perm, hperm, h⟩ := except_bind_eq_ok.mp h
  obtain ⟨op, -, h⟩ := except_bind_eq_ok.mp h
  obtain ⟨tipo, htipo, h⟩ := except_bind_eq_ok.mp h
  obtain ⟨permissionId, hid, h⟩ := except_bind_eq_ok.mp h
  obtain ⟨⟨nivel, escopo⟩, hnivel, h⟩ := except_bind_eq_ok.mp h
  obtain ⟨peso, hpeso, h⟩ := except_bind_eq_ok.mp h
  obtain ⟨_, hv2, h⟩ := except_bind_eq_ok.mp h
  obtain ⟨_, hescopo, h⟩ := except_bind_eq_ok.mp h
  obtain ⟨resolvida, hres, h⟩ := except_bind_eq_ok.mp h
  obtain ⟨deadline, -, h⟩ := except_bind_eq_ok.mp h
  obtain ⟨id, -, h⟩ := except_bind_eq_ok.mp h
  obtain rfl := Except.ok.inj h
  have htipoDe : tipoDaOp op = tipo := by
    unfold tipoDaOp
    rw [exigir_eq_ok.mp htipo]
    rfl
  refine ⟨perm, nivel, escopo, exigir_eq_ok.mp hperm, exigir_eq_ok.mp hnivel,
    exigir_eq_ok.mp hpeso, ⟨fun hdono => ?_, fun hmuda => ?_⟩, ?_, fun o ho => ?_⟩
  · exact permissaoPedida_eq_ok hid (htipoDe ▸ hdono)
  · exact Bool.eq_false_iff.mpr fun hv => recusar_eq_ok.mp hv2 ⟨htipoDe ▸ hmuda, hv⟩
  · exact Bool.eq_false_iff.mpr (htipoDe ▸ recusar_eq_ok.mp hescopo)
  · rcases validarSe_eq_ok hres with ⟨hnone, -⟩ | ⟨o', ho', hq, hval⟩
    · exact absurd (hnone.symm.trans ho) (by simp)
    · obtain rfl := Option.some.inj (ho'.symm.trans ho)
      exact ⟨of_decide_eq_true hq, hval⟩

/-- What a checked approval says about the permission of the account. -/
theorem conferirAprovacao_eq_ok {a : GovTx.Aprovacao}
    (h : conferirAprovacao amb.cripto s tx ctx = .ok a) :
    s.pendingOps.get? a.opId = some a.pending ∧
    ∃ perm nivel escopo, s.permissions.get? a.pending.account = some perm ∧
      perm.nivelDeGasto a.pending.permissionId = some (nivel, escopo) ∧
      nivel.keys.get? tx.de = some a.peso ∧
      a.pending.approvals.contains tx.de = false ∧
      a.novoPeso = a.pending.weight + a.peso ∧
      ∀ op, a.resolvida = some op → nivel.threshold ≤ a.novoPeso ∧
        GovTx.foraDoEscopo escopo (tipoDaOp a.pending.op) = false ∧
        GovTx.validarOp amb.cripto s a.pending.account (.map a.pending.op) ctx.height = .ok op := by
  obtain ⟨d, -, h⟩ := except_bind_eq_ok.mp h
  obtain ⟨pending, hpend, h⟩ := except_bind_eq_ok.mp h
  obtain ⟨perm, hperm, h⟩ := except_bind_eq_ok.mp h
  obtain ⟨⟨nivel, escopo⟩, hnivel, h⟩ := except_bind_eq_ok.mp h
  obtain ⟨peso, hpeso, h⟩ := except_bind_eq_ok.mp h
  obtain ⟨_, hja, h⟩ := except_bind_eq_ok.mp h
  obtain ⟨_, -, h⟩ := except_bind_eq_ok.mp h
  obtain ⟨_, hescopo, h⟩ := except_bind_eq_ok.mp h
  obtain ⟨resolvida, hres, h⟩ := except_bind_eq_ok.mp h
  obtain rfl := Except.ok.inj h
  refine ⟨exigir_eq_ok.mp hpend, perm, nivel, escopo, exigir_eq_ok.mp hperm,
    exigir_eq_ok.mp hnivel, exigir_eq_ok.mp hpeso, Bool.eq_false_iff.mpr (recusar_eq_ok.mp hja),
    rfl, fun o ho => ?_⟩
  rcases validarSe_eq_ok hres with ⟨hnone, -⟩ | ⟨o', ho', hq, hval⟩
  · exact absurd (hnone.symm.trans ho) (by simp)
  · obtain rfl := Option.some.inj (ho'.symm.trans ho)
    have hlimiar := of_decide_eq_true hq
    refine ⟨hlimiar, Bool.eq_false_iff.mpr fun hfora => ?_, hval⟩
    exact recusar_eq_ok.mp hescopo ⟨hlimiar, hfora⟩

/-! ## The operation that changes a permission -/

/-- The validation that cannot resolve to a change of permission. -/
def SemTroca (r : R OpResolvida) : Prop := ∀ perm, r ≠ .ok (.permissionChange perm)

theorem SemTroca.bind {α : Type} {x : R α} {f : α → R OpResolvida} (hf : ∀ a, SemTroca (f a)) :
    SemTroca (x >>= f) := by
  intro perm h
  obtain ⟨a, -, ha⟩ := except_bind_eq_ok.mp h
  exact hf a perm ha

theorem SemTroca.ok {op : OpResolvida} (h : ∀ perm, op ≠ .permissionChange perm) :
    SemTroca (.ok op) := fun perm he => h perm (Except.ok.inj he)

theorem semTroca_transfer {conta : Account} {op : JsonValue} :
    SemTroca (GovTx.validarTransfer amb.cripto s conta op) :=
  .bind fun _ => .bind fun _ => .bind fun _ => .bind fun _ => .ok fun _ h => by cases h

theorem semTroca_stake {conta : Account} {op : JsonValue} :
    SemTroca (GovTx.validarStake conta op) :=
  .bind fun _ => .bind fun _ => .bind fun _ => .ok fun _ h => by cases h

theorem semTroca_unstake {account : String} {conta : Account} {op : JsonValue} {height : ℕ} :
    SemTroca (GovTx.validarUnstake s account conta op height) :=
  .bind fun _ => .bind fun _ => .bind fun _ => .bind fun _ => .bind fun _ => .bind fun _ =>
    .ok fun _ h => by cases h

theorem semTroca_setCommission {op : JsonValue} {height : ℕ} :
    SemTroca (GovTx.validarSetCommission op height) :=
  .bind fun _ => .bind fun _ => .bind fun _ => .ok fun _ h => by cases h

theorem semTroca_tokenTransfer {op : JsonValue} :
    SemTroca (GovTx.validarTokenTransfer amb.cripto s op) :=
  .bind fun _ => .bind fun _ => .bind fun _ => .ok fun _ h => by cases h

theorem semTroca_claim {account : String} {op : JsonValue} :
    SemTroca (GovTx.validarClaim amb.cripto s account op) :=
  .bind fun _ => .bind fun _ => .ok fun _ h => by cases h

theorem semTroca_govPropose {account : String} {op : JsonValue} {height : ℕ} :
    SemTroca (GovTx.validarGovPropose amb.cripto s account op height) :=
  .bind fun _ => .bind fun _ => .bind fun _ => .bind fun _ => .ok fun _ h => by cases h

theorem semTroca_govVote {account : String} {op : JsonValue} {height : ℕ} :
    SemTroca (GovTx.validarGovVote s account op height) :=
  .bind fun _ => .bind fun _ => .bind fun _ => .bind fun _ => .ok fun _ h => by cases h

/-- Only the operation of that type resolves to a change of permission. -/
theorem validarOp_troca {account : String} {op : List (String × JsonValue)} {height : ℕ}
    {perm : Option Permission}
    (h : GovTx.validarOp amb.cripto s account (.map op) height = .ok (.permissionChange perm)) :
    tipoDaOp op = "PERMISSION_CHANGE" ∧
      GovTx.validarPermissionChange amb.cripto (.map op) = .ok (.permissionChange perm) := by
  obtain ⟨tipo, htipo, h⟩ := except_bind_eq_ok.mp h
  have htipoDe : tipoDaOp op = tipo := by
    unfold tipoDaOp
    rw [exigir_eq_ok.mp htipo]
    rfl
  rw [htipoDe]
  dsimp only at h
  split at h
  case h_1 => exact absurd h (semTroca_transfer _)
  case h_2 => exact absurd h (semTroca_stake _)
  case h_3 => exact absurd h (semTroca_unstake _)
  case h_4 => exact absurd h (semTroca_setCommission _)
  case h_5 => exact ⟨rfl, h⟩
  case h_6 => exact absurd h (semTroca_tokenTransfer _)
  case h_7 => cases h
  case h_8 => cases h
  case h_9 => exact absurd h (semTroca_claim _)
  case h_10 => exact absurd h (semTroca_govPropose _)
  case h_11 => exact absurd h (semTroca_govVote _)
  case h_12 => cases h

/-! ## The invariant of the pending operations -/

section

variable (amb) (s₀ : State) (passado : List Acao)

/-- A sender went through with the request of `e` in the run. -/
def Endossou (x : String) (e : Endosso) : Prop :=
  ∃ tx ctx antes e', .transacao tx ctx.height ctx.blockTs :: antes <:+ passado ∧ tx.de = x ∧
    Endossa amb (roda amb s₀ antes) tx ctx e' ∧ e'.pedido = e.pedido

/-- The approvals are distinct keys of one level with their weights, each of them of a
sender that endorsed the operation. -/
structure Apoiada (perm : Permission) (id : String) (p : PendingOp) : Prop where
  nivel : ∃ nivel escopo, perm.nivelDeGasto p.permissionId = some (nivel, escopo) ∧
    ∀ x w, p.approvals.get? x = some w → nivel.keys.get? x = some w ∧
      Endossou amb s₀ passado x (p.endosso id)
  peso : p.weight = p.approvals.total fun _ w => w
  tipo : TipoAceito perm p.permissionId (tipoDaOp p.op)

/-- Every pending operation is backed under the permission in force. -/
def OpsFieis (g : Guarda) : Prop :=
  ∀ id p, g.pendingOps.get? id = some p →
    ∃ perm, g.permissions.get? p.account = some perm ∧ Apoiada amb s₀ passado perm id p

end

variable {s₀ : State} {passado : List Acao} {g : Guarda}

theorem Endossou.mono {x : String} {e : Endosso} (a : Acao) (h : Endossou amb s₀ passado x e) :
    Endossou amb s₀ (a :: passado) x e := by
  obtain ⟨tx, ctx, antes, e', hsuf, hx, he, hpedido⟩ := h
  exact ⟨tx, ctx, antes, e', hsuf.trans (List.suffix_cons a passado), hx, he, hpedido⟩

theorem Apoiada.mono {perm : Permission} {id : String} {p : PendingOp} (a : Acao)
    (h : Apoiada amb s₀ passado perm id p) : Apoiada amb s₀ (a :: passado) perm id p := by
  obtain ⟨nivel, escopo, hnivel, hvotos⟩ := h.nivel
  refine ⟨⟨nivel, escopo, hnivel, fun x w hx => ?_⟩, h.peso, h.tipo⟩
  exact ⟨(hvotos x w hx).1, (hvotos x w hx).2.mono a⟩

theorem OpsFieis.mono (a : Acao) (h : OpsFieis amb s₀ passado g) :
    OpsFieis amb s₀ (a :: passado) g := fun id p hp => by
  obtain ⟨perm, hperm, hapoiada⟩ := h id p hp
  exact ⟨perm, hperm, hapoiada.mono a⟩

/-- Dropping operations keeps the rest backed. -/
theorem OpsFieis.menos {g' : Guarda} (h : OpsFieis amb s₀ passado g)
    (hperm : g'.permissions = g.permissions)
    (hops : ∀ id p, g'.pendingOps.get? id = some p → g.pendingOps.get? id = some p) :
    OpsFieis amb s₀ passado g' := fun id p hp => by
  obtain ⟨perm, hget, hapoiada⟩ := h id p (hops id p hp)
  exact ⟨perm, hperm ▸ hget, hapoiada⟩

theorem get?_filter_some {κ ν : Type} [LinearOrder κ] {m : OrdMap κ ν} {q : κ → ν → Bool} {k : κ}
    {v : ν} (h : (m.filter q).get? k = some v) : m.get? k = some v ∧ q k v = true := by
  rw [OrdMap.get?_filter] at h
  exact Option.filter_eq_some_iff.mp h

/-- A new permission takes the operations of its account with it. -/
theorem OpsFieis.comPermissao (h : OpsFieis amb s₀ passado g) (conta : String)
    (perm : Option Permission) : OpsFieis amb s₀ passado (g.comPermissao conta perm) := by
  intro id p hp
  obtain ⟨hp, hconta⟩ := get?_filter_some hp
  obtain ⟨perm', hget, hapoiada⟩ := h id p hp
  have hne : p.account ≠ conta := by simpa using hconta
  refine ⟨perm', ?_, hapoiada⟩
  cases perm with
  | none => exact (OrdMap.get?_erase_of_ne _ hne).trans hget
  | some nova => exact (OrdMap.get?_insert_of_ne _ hne nova).trans hget

/-- A first permission comes to an account without operations. -/
theorem OpsFieis.configura (h : OpsFieis amb s₀ passado g) {conta : String} (perm : Permission)
    (hsem : g.permissions.get? conta = none) :
    OpsFieis amb s₀ passado { g with permissions := g.permissions.insert conta perm } := by
  intro id p hp
  obtain ⟨perm', hget, hapoiada⟩ := h id p hp
  have hne : p.account ≠ conta := by
    rintro rfl
    exact absurd (hget.symm.trans hsem) (by simp)
  exact ⟨perm', (OrdMap.get?_insert_of_ne _ hne perm).trans hget, hapoiada⟩

theorem OpsFieis.comOp (h : OpsFieis amb s₀ passado g) {id : String} {p : PendingOp}
    {perm : Permission} (hperm : g.permissions.get? p.account = some perm)
    (hp : Apoiada amb s₀ passado perm id p) : OpsFieis amb s₀ passado (g.comOp id p) := by
  intro id' p' hp'
  change (g.pendingOps.insert id p).get? id' = some p' at hp'
  rw [OrdMap.get?_insert] at hp'
  split_ifs at hp' with heq
  · obtain rfl := Option.some.inj hp'
    subst heq
    exact ⟨perm, hperm, hp⟩
  · exact h id' p' hp'

theorem OpsFieis.semOp (h : OpsFieis amb s₀ passado g) (id : String) :
    OpsFieis amb s₀ passado (g.semOp id) := by
  refine h.menos rfl fun id' p hp => ?_
  change (g.pendingOps.erase id).get? id' = some p at hp
  rw [OrdMap.get?_erase] at hp
  split_ifs at hp
  exact hp

/-! ## What the tick keeps -/

namespace Guarda

theorem aplica_induz {P : Guarda → Prop} (conta : String) (pend : PendingPerm)
    (hperm : ∀ g conta nova, P g → P (g.comPermissao conta (some nova))) (hg : P g) :
    P (g.aplica conta pend) := by
  unfold aplica
  split
  · exact hg
  · split_ifs
    · split
      · exact hperm _ _ _ hg
      · exact hg
    · exact hg

/-- A property that survives the end of a pendency and the change it makes. -/
theorem matura_induz {P : Guarda → Prop} (height : ℕ)
    (hsem : ∀ g conta, P g → P (g.semMudanca conta))
    (hperm : ∀ g conta nova, P g → P (g.comPermissao conta (some nova))) (hg : P g) :
    P (g.matura height) := by
  unfold matura
  generalize g.pendingPerm.keys = contas
  induction contas generalizing g with
  | nil => exact hg
  | cons conta contas ih =>
    rw [List.foldl_cons]
    refine ih ?_
    unfold maturaConta
    split
    · exact hg
    · split_ifs
      · exact aplica_induz _ _ hperm (hsem _ _ hg)
      · exact hg

end Guarda

theorem OpsFieis.tique (h : OpsFieis amb s₀ passado g) (height : ℕ) :
    OpsFieis amb s₀ passado ((g.expira height).matura height) := by
  refine Guarda.matura_induz height (fun g conta hg => ?_) (fun g conta nova hg => ?_) ?_
  · exact hg.menos rfl fun _ _ h => h
  · exact hg.comPermissao conta (some nova)
  · exact h.menos rfl fun _ _ hp => (get?_filter_some hp).1

/-! ## The invariant over a run -/

/-- A new operation has its proposer behind it. -/
theorem pendente_apoiada {p : GovTx.Proposta}
    (he : Endossa amb (roda amb s₀ passado) tx ctx p.endosso)
    (hp : conferirProposta amb.cripto (roda amb s₀ passado) tx ctx = .ok p) :
    ∃ perm, (roda amb s₀ passado).permissions.get? p.account = some perm ∧
      Apoiada amb s₀ (.transacao tx ctx.height ctx.blockTs :: passado) perm p.id (p.pendente tx) := by
  obtain ⟨perm, nivel, escopo, hperm, hnivel, hpeso, htipo, -⟩ := conferirProposta_eq_ok hp
  refine ⟨perm, hperm, ⟨nivel, escopo, hnivel, fun x w hx => ?_⟩, ?_, htipo⟩
  · change ((∅ : OrdMap String ℕ).insert tx.de p.peso).get? x = some w at hx
    rw [OrdMap.get?_insert] at hx
    split_ifs at hx with heq
    · obtain rfl := Option.some.inj hx
      obtain rfl := heq
      exact ⟨hpeso, tx, ctx, passado, p.endosso, List.suffix_refl _, rfl, he, rfl⟩
    · cases hx
  · have htotal := OrdMap.total_insert (fun _ (w : ℕ) => w) (∅ : OrdMap String ℕ) tx.de p.peso
    change p.peso = ((∅ : OrdMap String ℕ).insert tx.de p.peso).total _
    simpa [OrdMap.weight] using htotal.symm

/-- One more approval adds its weight. -/
theorem aprovada_apoiada {a : GovTx.Aprovacao}
    (hops : OpsFieis amb s₀ passado (roda amb s₀ passado).guarda)
    (he : Endossa amb (roda amb s₀ passado) tx ctx a.endosso)
    (ha : conferirAprovacao amb.cripto (roda amb s₀ passado) tx ctx = .ok a) :
    ∃ perm, (roda amb s₀ passado).permissions.get? a.pending.account = some perm ∧
      Apoiada amb s₀ (.transacao tx ctx.height ctx.blockTs :: passado) perm a.opId
        (a.pendente tx) := by
  obtain ⟨hpend, perm, nivel, escopo, hperm, hnivel, hpeso, hnovo, hsoma, -⟩ :=
    conferirAprovacao_eq_ok ha
  obtain ⟨perm', hperm', hapoiada⟩ := hops a.opId a.pending hpend
  obtain rfl := Option.some.inj (hperm.symm.trans hperm')
  obtain ⟨nivel', escopo', hnivel', hvotos⟩ := hapoiada.nivel
  obtain ⟨rfl, rfl⟩ := Prod.mk.inj (Option.some.inj (hnivel.symm.trans hnivel'))
  refine ⟨perm, hperm, ⟨nivel, escopo, hnivel, fun x w hx => ?_⟩, ?_, hapoiada.tipo⟩
  · change (a.pending.approvals.insert tx.de a.peso).get? x = some w at hx
    rw [OrdMap.get?_insert] at hx
    split_ifs at hx with heq
    · obtain rfl := Option.some.inj hx
      obtain rfl := heq
      exact ⟨hpeso, tx, ctx, passado, a.endosso, List.suffix_refl _, rfl, he, rfl⟩
    · exact ⟨(hvotos x w hx).1, (hvotos x w hx).2.mono _⟩
  · have htotal := OrdMap.total_insert (fun _ (w : ℕ) => w) a.pending.approvals tx.de a.peso
    rw [OrdMap.weight_of_get?_none _ (OrdMap.contains_eq_false.mp hnovo)] at htotal
    change a.novoPeso = (a.pending.approvals.insert tx.de a.peso).total _
    rw [hsoma, hapoiada.peso]
    exact htotal.symm

/-- What one action does keeps the pending operations backed. -/
theorem OpsFieis.muda {a : Acao} {g : Guarda}
    (hops : OpsFieis amb s₀ passado (roda amb s₀ passado).guarda)
    (hmuda : Muda amb (roda amb s₀ passado) a g) : OpsFieis amb s₀ (a :: passado) g := by
  cases hmuda with
  | nada => exact hops.mono _
  | configura perm hsem => exact (hops.mono _).configura perm hsem
  | propoe htipo hperm hdelay hinicio => exact (hops.mono _).menos rfl fun _ _ h => h
  | aprova htipo hpend hperm hdelay hinicio => exact (hops.mono _).menos rfl fun _ _ h => h
  | veta hpend => exact (hops.mono _).menos rfl fun _ _ h => h
  | cancela => exact (hops.mono _).menos rfl fun _ _ h => h
  | pendura he hp hresolvida =>
    obtain ⟨perm, hperm, hapoiada⟩ := pendente_apoiada he hp
    exact (hops.mono _).comOp hperm hapoiada
  | soma he ha hresolvida =>
    obtain ⟨perm, hperm, hapoiada⟩ := aprovada_apoiada hops he ha
    exact (hops.mono _).comOp hperm hapoiada
  | retira id => exact (hops.mono _).semOp id
  | executaProposta hp hop => exact (hops.mono _).comPermissao _ _
  | executaAprovacao ha hop => exact ((hops.mono _).semOp _).comPermissao _ _
  | tique => exact (hops.mono _).tique _

/-- From a state without pending operations every run keeps them backed. -/
theorem opsFieis_roda (hvazio : s₀.pendingOps = ∅) (passado : List Acao) :
    OpsFieis amb s₀ passado (roda amb s₀ passado).guarda := by
  induction passado with
  | nil =>
    intro id p hp
    change s₀.pendingOps.get? id = some p at hp
    rw [hvazio] at hp
    cases hp
  | cons a passado ih => exact ih.muda (opera_muda a)

/-- The genesis leaves the guard empty. -/
theorem applyGenesis_guarda {cr : Cripto} {alocacoes : JsonValue}
    (h : applyGenesis cr alocacoes {} = .ok ⟨⟩ s₀) : s₀.guarda = ({} : State).guarda :=
  Mantem.ok (I := DaGuarda fun g => g = ({} : State).guarda) (applyGenesis_mantem cr alocacoes) rfl h

/-! ## Where an operation runs -/

theorem fora_da_vm {tipo : Tipo} (h : Tipo.deTexto tx.txType = some tipo) :
    tx.txType ∉ EavmTx.tipos := by
  intro hmem
  simp only [EavmTx.tipos, List.mem_cons, List.not_mem_nil, or_false] at hmem
  rcases hmem with heq | heq | heq <;> rw [heq] at h <;> cases h

/-- A transaction that passes its entry checks runs its handler and then the epilogue. -/
theorem applyTransaction_manipula {tipo : Tipo} (htipo : Tipo.deTexto tx.txType = some tipo)
    (hpaga : Paga s tx ctx) : ∃ f : Unit → Op AppliedTx,
      applyTransaction amb tx ctx.height ctx.blockTs s = (manipulador amb tx ctx tipo >>= f) s := by
  obtain ⟨recebido, hentrada⟩ := hpaga.entrada
  obtain ⟨gb, htaxa⟩ := hpaga.taxa
  refine ⟨fun _ => do
    modify (·.comConta tx.de fun c => commitGb ctx.height gb { c with nonce := recebido })
    queimarTaxa ctx.fee
    return { fee := ctx.fee, eavm := none }, ?_⟩
  unfold applyTransaction
  rw [get_bind_run, lift_bind_run hentrada, if_neg (fora_da_vm htipo)]
  unfold aplicarNativa
  rw [lift_bind_run htaxa]
  unfold despachar
  rw [htipo]

/-- An endorsement that resolves is exactly where the operation is applied, on the account
and permission that were checked. -/
theorem Endossa.aplica {e : Endosso} {op : OpResolvida} (he : Endossa amb s tx ctx e)
    (hop : e.resolvida = some op) : ∃ (f : Unit → Op AppliedTx) (u : State),
      u.permissions = s.permissions ∧
      applyTransaction amb tx ctx.height ctx.blockTs s =
        (GovTx.aplicarOp amb.cripto e.account op ctx.height e.opId >>= f) u := by
  have hguarda : Mantem (DaGuarda fun g => g = s.guarda) (cobrarTaxa tx ctx) :=
    cobrarTaxa_mantem tx ctx
  cases he with
  | @proposta p htipo hpaga hp =>
    obtain ⟨f, hf⟩ := @applyTransaction_manipula amb _ _ _ _ htipo hpaga
    obtain ⟨u, hu⟩ := hpaga.debito
    refine ⟨f, u, congrArg Guarda.permissions ((hguarda s rfl).ok hu), hf.trans ?_⟩
    have hop : p.resolvida = some op := hop
    change (GovTx.multisigPropose amb.cripto tx ctx >>= f) s = _
    unfold GovTx.multisigPropose
    simp only [bind_assoc]
    rw [get_bind_run, lift_bind_run hp, bind_run_ok hu, hop]
    rfl
  | @aprovacao a htipo hpaga ha =>
    obtain ⟨f, hf⟩ := @applyTransaction_manipula amb _ _ _ _ htipo hpaga
    obtain ⟨u, hu⟩ := hpaga.debito
    refine ⟨f, { u with pendingOps := u.pendingOps.erase a.opId },
      congrArg Guarda.permissions ((hguarda s rfl).ok hu), hf.trans ?_⟩
    have hop : a.resolvida = some op := hop
    change (GovTx.multisigApprove amb.cripto tx ctx >>= f) s = _
    unfold GovTx.multisigApprove
    simp only [bind_assoc]
    rw [get_bind_run, lift_bind_run ha, bind_run_ok hu, hop]
    rfl

/-! ## Who authorises an execution -/

/-- The level of an operation: the owner for the operations of power, the v1 permission,
or the active of the id. -/
def NivelDaOp (perm : Permission) (e : Endosso) (nivel : Nivel) (escopo : Option (List String)) :
    Prop :=
  if GovTx.exigeOwner (tipoDaOp e.op) then perm.owner? = some nivel ∧ escopo = none
  else match perm with
    | .v1 n => nivel = n ∧ escopo = none
    | .v2 _ actives _ _ _ =>
      ∃ a, actives[e.permissionId]? = some a ∧ nivel = a.nivel ∧ escopo = a.operations

/-- The owner level, asked for by its reserved id. -/
def NivelDoDono (perm : Permission) (e : Endosso) (nivel : Nivel) (escopo : Option (List String)) :
    Prop :=
  e.permissionId = GovTx.ownerPermissionId ∧ perm.owner? = some nivel ∧ escopo = none

/-- Distinct endorsers of an operation whose current weights reach the threshold. -/
structure Respaldo (amb : Ambiente) (s₀ : State) (passado : List Acao) (e : Endosso) (nivel : Nivel)
    (assinantes : List String) : Prop where
  distintos : assinantes.Nodup
  chaves : ∀ x ∈ assinantes, nivel.keys.contains x = true
  endossos : ∀ x ∈ assinantes, Endossou amb s₀ passado x e
  limiar : nivel.threshold ≤ (assinantes.map fun x => nivel.keys.getD x 0).sum

/-- The execution of an operation is authorised by a level of the permission in force. -/
def Autorizada (amb : Ambiente) (s₀ : State) (passado : List Acao) (permissions : OrdMap String Permission)
    (e : Endosso) (aceito : Permission → Endosso → Nivel → Option (List String) → Prop) : Prop :=
  ∃ perm nivel escopo assinantes, permissions.get? e.account = some perm ∧
    aceito perm e nivel escopo ∧ Respaldo amb s₀ passado e nivel assinantes ∧
    ∀ ops, escopo = some ops → tipoDaOp e.op ∈ ops

theorem nivelDeGasto_aceito {perm : Permission} {e : Endosso} {nivel : Nivel}
    {escopo : Option (List String)} (h : perm.nivelDeGasto e.permissionId = some (nivel, escopo))
    (htipo : TipoAceito perm e.permissionId (tipoDaOp e.op)) :
    NivelDaOp perm e nivel escopo ∨ NivelDoDono perm e nivel escopo := by
  unfold Permission.nivelDeGasto at h
  by_cases hdono : e.permissionId = GovTx.ownerPermissionId
  · rw [if_pos hdono] at h
    obtain ⟨n, hn, hpar⟩ := Option.map_eq_some_iff.mp h
    obtain ⟨rfl, rfl⟩ := Prod.mk.inj hpar
    exact .inr ⟨hdono, hn, rfl⟩
  · left
    rw [if_neg hdono] at h
    unfold NivelDaOp
    rw [if_neg fun htipo' => hdono (htipo.dono htipo')]
    cases perm with
    | v1 n =>
      dsimp only at h ⊢
      split_ifs at h
      obtain ⟨rfl, rfl⟩ := Prod.mk.inj (Option.some.inj h)
      exact ⟨rfl, rfl⟩
    | v2 dono actives witness recovery delay =>
      obtain ⟨a, ha, hpar⟩ := Option.map_eq_some_iff.mp h
      obtain ⟨rfl, rfl⟩ := Prod.mk.inj hpar
      exact ⟨a, ha, rfl, rfl⟩

theorem noEscopo {escopo : Option (List String)} {tipo : String}
    (h : GovTx.foraDoEscopo escopo tipo = false) : ∀ ops, escopo = some ops → tipo ∈ ops := by
  rintro ops rfl
  simpa [GovTx.foraDoEscopo] using h

/-- A proposer whose weight alone reaches the threshold. -/
theorem proposta_autorizada {p : GovTx.Proposta} {op : OpResolvida}
    (he : Endossa amb (roda amb s₀ passado) tx ctx p.endosso)
    (hp : conferirProposta amb.cripto (roda amb s₀ passado) tx ctx = .ok p)
    (hop : p.resolvida = some op) :
    Autorizada amb s₀ (.transacao tx ctx.height ctx.blockTs :: passado)
      (roda amb s₀ passado).permissions p.endosso fun perm e nivel escopo =>
        NivelDaOp perm e nivel escopo ∨ NivelDoDono perm e nivel escopo := by
  obtain ⟨perm, nivel, escopo, hperm, hnivel, hpeso, htipo, hescopo, hval⟩ := conferirProposta_eq_ok hp
  refine ⟨perm, nivel, escopo, [tx.de], hperm, nivelDeGasto_aceito hnivel htipo,
    ⟨List.nodup_singleton _, ?_, ?_, ?_⟩, noEscopo hescopo⟩
  · intro x hx
    obtain rfl := List.mem_singleton.mp hx
    exact OrdMap.contains_iff.mpr ⟨_, hpeso⟩
  · intro x hx
    obtain rfl := List.mem_singleton.mp hx
    exact ⟨tx, ctx, passado, p.endosso, List.suffix_refl _, rfl, he, rfl⟩
  · have hgetD : nivel.keys.getD tx.de 0 = p.peso := congrArg (·.getD 0) hpeso
    rw [List.map_singleton, List.sum_singleton, hgetD]
    exact (hval op hop).1

/-- The earlier approvers and the last one. -/
theorem aprovacao_autorizada {a : GovTx.Aprovacao} {op : OpResolvida}
    (hops : OpsFieis amb s₀ passado (roda amb s₀ passado).guarda)
    (he : Endossa amb (roda amb s₀ passado) tx ctx a.endosso)
    (ha : conferirAprovacao amb.cripto (roda amb s₀ passado) tx ctx = .ok a)
    (hop : a.resolvida = some op) :
    Autorizada amb s₀ (.transacao tx ctx.height ctx.blockTs :: passado)
      (roda amb s₀ passado).permissions a.endosso fun perm e nivel escopo =>
        NivelDaOp perm e nivel escopo ∨ NivelDoDono perm e nivel escopo := by
  obtain ⟨hpend, perm, nivel, escopo, hperm, hnivel, hpeso, hnovo, hsoma, hval⟩ :=
    conferirAprovacao_eq_ok ha
  obtain ⟨perm', hperm', hapoiada⟩ := hops a.opId a.pending hpend
  obtain rfl := Option.some.inj (hperm.symm.trans hperm')
  obtain ⟨nivel', escopo', hnivel', hvotos⟩ := hapoiada.nivel
  obtain ⟨rfl, rfl⟩ := Prod.mk.inj (Option.some.inj (hnivel.symm.trans hnivel'))
  obtain ⟨hlimiar, hescopo, -⟩ := hval op hop
  refine ⟨perm, nivel, escopo, tx.de :: a.pending.approvals.keys, hperm,
    nivelDeGasto_aceito (e := a.endosso) hnivel hapoiada.tipo, ⟨?_, ?_, ?_, ?_⟩, noEscopo hescopo⟩
  · refine List.nodup_cons.mpr ⟨fun hmem => ?_, OrdMap.nodup_keys _⟩
    obtain ⟨w, hw⟩ := OrdMap.mem_keys.mp hmem
    exact absurd (hw.symm.trans (OrdMap.contains_eq_false.mp hnovo)) (by simp)
  · intro x hx
    rcases List.mem_cons.mp hx with rfl | hx
    · exact OrdMap.contains_iff.mpr ⟨_, hpeso⟩
    · obtain ⟨w, hw⟩ := OrdMap.mem_keys.mp hx
      exact OrdMap.contains_iff.mpr ⟨w, (hvotos x w hw).1⟩
  · intro x hx
    rcases List.mem_cons.mp hx with rfl | hx
    · exact ⟨tx, ctx, passado, a.endosso, List.suffix_refl _, rfl, he, rfl⟩
    · obtain ⟨w, hw⟩ := OrdMap.mem_keys.mp hx
      exact (hvotos x w hw).2.mono _
  · have hgetD : nivel.keys.getD tx.de 0 = a.peso := congrArg (·.getD 0) hpeso
    have haprovadas : (a.pending.approvals.keys.map fun x => nivel.keys.getD x 0).sum =
        a.pending.weight := by
      rw [hapoiada.peso]
      exact OrdMap.sum_keys_eq_total fun x w hw => congrArg (·.getD 0) (hvotos x w hw).1
    calc nivel.threshold ≤ a.novoPeso := hlimiar
      _ = a.peso + a.pending.weight := hsoma.trans (Nat.add_comm _ _)
      _ = _ := by rw [List.map_cons, List.sum_cons, hgetD, haprovadas]

/-- An operation runs only with distinct senders behind it who hold keys of one level of
the permission in force, with enough weight now, and within its scope. -/
theorem execucao_autorizada {alocacoes : JsonValue}
    (hgenese : applyGenesis amb.cripto alocacoes {} = .ok ⟨⟩ s₀) (passado : List Acao)
    {e : Endosso} {op : OpResolvida} (he : Endossa amb (roda amb s₀ passado) tx ctx e)
    (hop : e.resolvida = some op) :
    Autorizada amb s₀ (.transacao tx ctx.height ctx.blockTs :: passado)
      (roda amb s₀ passado).permissions e fun perm e nivel escopo =>
        NivelDaOp perm e nivel escopo ∨ NivelDoDono perm e nivel escopo := by
  have hvazio : s₀.pendingOps = ∅ := congrArg Guarda.pendingOps (applyGenesis_guarda hgenese)
  cases he with
  | proposta htipo hpaga hp => exact proposta_autorizada (.proposta htipo hpaga hp) hp hop
  | aprovacao htipo hpaga ha =>
    exact aprovacao_autorizada (opsFieis_roda hvazio passado) (.aprovacao htipo hpaga ha) ha hop

/-! ## An account with an owner -/

def nivelDeUm (chave : String) : JsonValue :=
  .map [("threshold", .int 1), ("keys", .map [(chave, .int 1)])]

/-- The first transaction of a sender, without a fee. -/
def primeiraTx (de tipo : String) (data : List (String × JsonValue)) : Tx where
  txType := tipo
  de := de
  amount := "0"
  fee := "0"
  nonce := 1
  timestamp := 1
  data := some (.map data)
  id := some tipo

def alocacoesCofre : JsonValue := .map [("balances", .map [(enderecoA, .str "100")])]

def estadoCofre : State := fim (applyGenesis criptoIdeal alocacoesCofre) {}

/-- The first account takes the second for owner and the third for active. -/
def configuraCofre : Acao :=
  .transacao (primeiraTx enderecoA "PERMISSION_UPDATE"
    [("permission", .map [("owner", nivelDeUm enderecoB), ("active", nivelDeUm enderecoC)])]) 1 1

/-- The owner pays out of the account, asking for the level of the reserved id. -/
def gastaDoDono : Tx := primeiraTx enderecoB "MULTISIG_PROPOSE"
  [("account", .str enderecoA), ("permissionId", .str "18446744073709551615"),
    ("op", .map [("type", .str "TRANSFER"), ("to", .str enderecoC), ("amount", .str "1")])]

def ctxDoGasto : Ctx := ⟨1, 1, 0⟩

/-- How many active levels a permission has. -/
def ativasDe : Permission → ℕ
  | .v1 _ => 0
  | .v2 _ actives _ _ _ => actives.length

/-- The account has one active level, and the owner's payment is checked and paid for. -/
instance cofre_configurado : Fact (conclui (applyGenesis criptoIdeal alocacoesCofre) {} = true ∧
    ((roda ambienteIdeal estadoCofre [configuraCofre]).permissions.get? enderecoA).map ativasDe =
      some 1 ∧
    ((conferirProposta criptoIdeal (roda ambienteIdeal estadoCofre [configuraCofre])
      gastaDoDono ctxDoGasto).toOption.map fun p => (p.resolvida.isSome, p.account,
        tipoDaOp p.op, p.permissionId)) =
      some (true, enderecoA, "TRANSFER", GovTx.ownerPermissionId) ∧
    Paga (roda ambienteIdeal estadoCofre [configuraCofre]) gastaDoDono ctxDoGasto) where
  out := by
    unfold estadoCofre
    rw [ambienteIdeal_eq, criptoIdeal_eq]
    simp only [roda, Acao.opera]
    unfold applyTransaction aplicarNativa apurarTaxa EavmTx.apurarGb
    rw [consumoGb_eq]
    decide +kernel

theorem genese_cofre : applyGenesis criptoIdeal alocacoesCofre {} = .ok ⟨⟩ estadoCofre := by
  obtain ⟨_, h⟩ := conclui_iff.mp cofre_configurado.out.1
  exact h

/-- The owner's payment runs at once, under the reserved id. -/
theorem gastaDoDono_executa : ∃ p op,
    Endossa ambienteIdeal (roda ambienteIdeal estadoCofre [configuraCofre]) gastaDoDono ctxDoGasto
      (GovTx.Proposta.endosso p) ∧
    p.resolvida = some op ∧ p.account = enderecoA ∧ tipoDaOp p.op = "TRANSFER" ∧
    p.permissionId = GovTx.ownerPermissionId := by
  obtain ⟨-, -, hconfere, hpaga⟩ := cofre_configurado.out
  cases hp : conferirProposta criptoIdeal (roda ambienteIdeal estadoCofre [configuraCofre])
    gastaDoDono ctxDoGasto with
  | error e => rw [hp] at hconfere; cases hconfere
  | ok p =>
    rw [hp] at hconfere
    simp only [Except.toOption, Option.map_some, Option.some.injEq, Prod.mk.injEq] at hconfere
    obtain ⟨hsome, hconta, htipo, hid⟩ := hconfere
    obtain ⟨op, hop⟩ := Option.isSome_iff_exists.mp hsome
    exact ⟨p, op, .proposta (by decide) hpaga hp, hop, hconta, htipo, hid⟩

theorem execucao_autorizada_no_cofre : ∃ e, e.account = enderecoA ∧ tipoDaOp e.op = "TRANSFER" ∧
    Autorizada ambienteIdeal estadoCofre [.transacao gastaDoDono 1 1, configuraCofre]
      (roda ambienteIdeal estadoCofre [configuraCofre]).permissions e fun perm e nivel escopo =>
        NivelDaOp perm e nivel escopo ∨ NivelDoDono perm e nivel escopo := by
  obtain ⟨p, op, he, hop, hconta, htipo, -⟩ := gastaDoDono_executa
  exact ⟨p.endosso, hconta, htipo, execucao_autorizada genese_cofre [configuraCofre] he hop⟩

/-- A transfer runs on an account with the signature of its owner alone, who holds no
key of an active level. -/
theorem nao_so_pela_active : ¬ ∀ (amb : Ambiente) (alocacoes : JsonValue) (s₀ : State),
    applyGenesis amb.cripto alocacoes {} = .ok ⟨⟩ s₀ → ∀ (passado : List Acao) (tx : Tx) (ctx : Ctx)
      (e : Endosso) (op : OpResolvida), Endossa amb (roda amb s₀ passado) tx ctx e →
      e.resolvida = some op →
      Autorizada amb s₀ (.transacao tx ctx.height ctx.blockTs :: passado)
        (roda amb s₀ passado).permissions e NivelDaOp := by
  intro h
  obtain ⟨p, op, he, hop, hconta, htipo, hid⟩ := gastaDoDono_executa
  obtain ⟨perm, nivel, escopo, -, hperm, hnivel, -⟩ :=
    h _ _ _ genese_cofre [configuraCofre] _ _ _ op he hop
  have hativas := cofre_configurado.out.2.1
  change (roda ambienteIdeal estadoCofre [configuraCofre]).permissions.get? p.account = _ at hperm
  rw [← hconta, hperm, Option.map_some, Option.some.injEq] at hativas
  unfold NivelDaOp at hnivel
  change if GovTx.exigeOwner (tipoDaOp p.op) then _ else _ at hnivel
  rw [htipo, if_neg (by decide)] at hnivel
  cases perm with
  | v1 n => cases hativas
  | v2 dono actives witness recovery delay =>
    obtain ⟨a, ha, -⟩ := hnivel
    have hlen : actives.length = 1 := hativas
    have hmenor := (List.getElem?_eq_some_iff.mp ha).1
    rw [hlen] at hmenor
    change p.permissionId < 1 at hmenor
    rw [hid] at hmenor
    exact absurd hmenor (by decide)

end Eav7
