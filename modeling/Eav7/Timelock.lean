import Eav7.Endossos

/-!
# The timelock of the version-2 permissions

A version-2 permission changes only in the tick, by the change pending on its account,
once the delay has passed since its approvers first satisfied the rule.
-/

namespace Eav7

open Base

open GovTx (conferirProposta conferirAprovacao OpResolvida)

/-! ## The tick, account by account -/

namespace Guarda

/-- The permission of an account and the change pending on it. -/
def de (g : Guarda) (conta : String) : Option Permission × Option PendingPerm :=
  (g.permissions.get? conta, g.pendingPerm.get? conta)

end Guarda

def mudaPermissao (perm : Permission) (pend : PendingPerm) : Permission :=
  if perm.eV2 && GovTx.autorizaMudanca perm pend.change pend.approvals.keys then
    match GovTx.simularMudanca perm pend.change with
    | .ok nova => nova
    | .error _ => perm
  else perm

/-- What the tick of a height makes of one account. -/
def amadurece (height : ℕ) : Option Permission × Option PendingPerm →
    Option Permission × Option PendingPerm
  | (perm, none) => (perm, none)
  | (perm, some pend) =>
    if ∃ e ∈ pend.executeAt, e ≤ height then (perm.map (mudaPermissao · pend), none)
    else (perm, some pend)

theorem amadurece_devida {height : ℕ} {perm : Option Permission} {pend : PendingPerm}
    (h : ∃ e ∈ pend.executeAt, e ≤ height) :
    amadurece height (perm, some pend) = (perm.map (mudaPermissao · pend), none) := if_pos h

theorem amadurece_cedo {height : ℕ} {perm : Option Permission} {pend : PendingPerm}
    (h : ¬ ∃ e ∈ pend.executeAt, e ≤ height) :
    amadurece height (perm, some pend) = (perm, some pend) := if_neg h

namespace Guarda

variable {g : Guarda} {conta c : String}

theorem de_comPermissao (nova : Permission) :
    (g.comPermissao c (some nova)).de conta =
      (if conta = c then some nova else g.permissions.get? conta, g.pendingPerm.get? conta) :=
  Prod.ext (OrdMap.get?_insert _ _ _ _) rfl

theorem de_aplica (pend : PendingPerm) :
    (g.aplica c pend).de conta =
      (if conta = c then (g.permissions.get? c).map (mudaPermissao · pend)
        else g.permissions.get? conta, g.pendingPerm.get? conta) := by
  have hmesma : g.de conta =
      (if conta = c then g.permissions.get? c else g.permissions.get? conta,
        g.pendingPerm.get? conta) := by
    refine Prod.ext ?_ rfl
    split_ifs with heq
    · rw [heq]; rfl
    · rfl
  unfold aplica mudaPermissao
  cases hperm : g.permissions.get? c with
  | none => rw [hmesma, hperm]; rfl
  | some perm =>
    rw [hperm] at hmesma
    dsimp only [Option.map_some]
    by_cases haut : (perm.eV2 && GovTx.autorizaMudanca perm pend.change pend.approvals.keys) = true
    · rw [if_pos haut, if_pos haut]
      cases GovTx.simularMudanca perm pend.change with
      | ok nova => exact de_comPermissao nova
      | error e => exact hmesma
    · rw [if_neg haut, if_neg haut]
      exact hmesma

theorem de_maturaConta (height : ℕ) :
    (g.maturaConta height c).de conta =
      if conta = c then amadurece height (g.de conta) else g.de conta := by
  unfold maturaConta
  cases hpend : g.pendingPerm.get? c with
  | none =>
    dsimp only
    split_ifs with heq
    · subst heq
      unfold de
      rw [hpend]
      rfl
    · rfl
  | some pend =>
    dsimp only
    split_ifs with hdue heq heq
    · subst heq
      rw [de_aplica, if_pos rfl]
      unfold de
      rw [hpend, amadurece_devida hdue]
      exact Prod.ext rfl (OrdMap.get?_erase_self _ _)
    · rw [de_aplica, if_neg heq]
      exact Prod.ext rfl (OrdMap.get?_erase_of_ne _ heq)
    · subst heq
      unfold de
      rw [hpend, amadurece_cedo hdue]
    · rfl

/-- Each account is matured on its own. -/
theorem de_matura (height : ℕ) : (g.matura height).de conta = amadurece height (g.de conta) := by
  have hcontas : ∀ (contas : List String) (g : Guarda), contas.Nodup →
      (contas.foldl (fun g c => g.maturaConta height c) g).de conta =
        if conta ∈ contas then amadurece height (g.de conta) else g.de conta := by
    intro contas
    induction contas with
    | nil => exact fun _ _ => rfl
    | cons c contas ih =>
      intro g hnodup
      obtain ⟨hc, hcontas⟩ := List.nodup_cons.mp hnodup
      rw [List.foldl_cons, ih _ hcontas, de_maturaConta]
      by_cases heq : conta = c
      · subst heq
        rw [if_neg hc, if_pos rfl, if_pos List.mem_cons_self]
      · rw [if_neg heq]
        simp only [List.mem_cons, heq, false_or]
  unfold matura
  rw [hcontas _ g (OrdMap.nodup_keys _)]
  split_ifs with hmem
  · rfl
  · have hnone : g.pendingPerm.get? conta = none := by
      by_contra hne
      obtain ⟨pend, hpend⟩ := Option.ne_none_iff_exists'.mp hne
      exact hmem (OrdMap.mem_keys.mpr ⟨pend, hpend⟩)
    unfold de
    rw [hnone]
    rfl

end Guarda

/-! ## The life of a pending change -/

section

variable (amb : Ambiente) (s₀ : State) (conta : String) (perm : Permission) (mudanca : Mudanca)

/-- At this moment of the run the change waits for approvals that do not suffice. -/
def Espera (momento : List Acao) : Prop :=
  (roda amb s₀ momento).permissions.get? conta = some perm ∧
    ∃ q, (roda amb s₀ momento).pendingPerm.get? conta = some q ∧ q.change = mudanca ∧
      q.executeAt = none ∧ GovTx.autorizaMudanca perm mudanca q.approvals.keys = false

/-- At this moment of the run the change waits for a height. -/
def Agendada (e : ℕ) (momento : List Acao) : Prop :=
  (roda amb s₀ momento).permissions.get? conta = some perm ∧
    ∃ q, (roda amb s₀ momento).pendingPerm.get? conta = some q ∧ q.change = mudanca ∧
      q.executeAt = some e

/-- The change was proposed in the run, and at no moment since did its approvers
satisfy the rule. -/
def NuncaAutorizada (passado : List Acao) : Prop :=
  ∃ tx height blockTs antes, Tipo.deTexto tx.txType = some .permissionPropose ∧
    .transacao tx height blockTs :: antes <:+ passado ∧
    ∀ momento, .transacao tx height blockTs :: antes <:+ momento → momento <:+ passado →
      Espera amb s₀ conta perm mudanca momento

/-- At `h₀` the approvers of the change satisfied the rule for the first time, and the
change has been scheduled for the delay of the permission ever since. -/
def AutorizadaEm (h₀ : ℕ) (passado : List Acao) : Prop :=
  ∃ tx blockTs antes delay q, .transacao tx h₀ blockTs :: antes <:+ passado ∧
    GovTx.delayDaPermissao perm = .ok delay ∧
    (roda amb s₀ (.transacao tx h₀ blockTs :: antes)).pendingPerm.get? conta = some q ∧
    GovTx.autorizaMudanca perm mudanca q.approvals.keys = true ∧
    (Tipo.deTexto tx.txType = some .permissionPropose ∧ q.approvals = GovTx.cedula tx.de ∨
      NuncaAutorizada amb s₀ conta perm mudanca antes) ∧
    ∀ momento, .transacao tx h₀ blockTs :: antes <:+ momento → momento <:+ passado →
      Agendada amb s₀ conta perm mudanca (h₀ + delay) momento

end

/-- A pending change has its history in the run. -/
def MudancaFiel (amb : Ambiente) (s₀ : State) (passado : List Acao) (conta : String)
    (p : PendingPerm) : Prop :=
  ∃ perm, (roda amb s₀ passado).permissions.get? conta = some perm ∧ perm.eV2 = true ∧
    match p.executeAt with
    | none => NuncaAutorizada amb s₀ conta perm p.change passado
    | some e => ∃ h₀ delay, GovTx.delayDaPermissao perm = .ok delay ∧ e = h₀ + delay ∧
        AutorizadaEm amb s₀ conta perm p.change h₀ passado

variable {amb : Ambiente} {s₀ : State} {passado : List Acao} {conta : String} {perm : Permission}
  {mudanca : Mudanca} {a : Acao}

/-- A suffix of the longer run is the run itself or a suffix of the shorter. -/
theorem NuncaAutorizada.segue (h : NuncaAutorizada amb s₀ conta perm mudanca passado)
    (hagora : Espera amb s₀ conta perm mudanca (a :: passado)) :
    NuncaAutorizada amb s₀ conta perm mudanca (a :: passado) := by
  obtain ⟨tx, height, blockTs, antes, htipo, hsuf, hmomentos⟩ := h
  refine ⟨tx, height, blockTs, antes, htipo, hsuf.trans (List.suffix_cons a passado), ?_⟩
  intro momento hdepois hate
  rcases List.suffix_cons_iff.mp hate with rfl | hate
  · exact hagora
  · exact hmomentos momento hdepois hate

theorem AutorizadaEm.segue {h₀ delay : ℕ} (h : AutorizadaEm amb s₀ conta perm mudanca h₀ passado)
    (hdelay : GovTx.delayDaPermissao perm = .ok delay)
    (hagora : Agendada amb s₀ conta perm mudanca (h₀ + delay) (a :: passado)) :
    AutorizadaEm amb s₀ conta perm mudanca h₀ (a :: passado) := by
  obtain ⟨tx, blockTs, antes, delay', q, hsuf, hdelay', hq, haut, hprimeira, hmomentos⟩ := h
  obtain rfl := Except.ok.inj (hdelay.symm.trans hdelay')
  refine ⟨tx, blockTs, antes, delay, q, hsuf.trans (List.suffix_cons a passado), hdelay, hq, haut,
    hprimeira, fun momento hdepois hate => ?_⟩
  rcases List.suffix_cons_iff.mp hate with rfl | hate
  · exact hagora
  · exact hmomentos momento hdepois hate

/-- A moment between a run and itself is that run. -/
theorem momento_unico {inicio momento : List Acao} (h : inicio <:+ momento)
    (h' : momento <:+ inicio) : momento = inicio :=
  h'.eq_of_length (le_antisymm h'.length_le h.length_le)

theorem inicioDoTimelock_eq_ok {autorizada : Bool} {height delay : ℕ} {r : Option ℕ}
    (h : GovTx.inicioDoTimelock autorizada height delay = .ok r) :
    r = if autorizada then some (height + delay) else none := by
  unfold GovTx.inicioDoTimelock at h
  split_ifs at h ⊢
  · obtain ⟨e, he, hr⟩ := except_bind_eq_ok.mp h
    unfold alturaApos at he
    split_ifs at he
    · obtain rfl := Except.ok.inj he
      exact (Except.ok.inj hr).symm
    · cases he
  · exact (Except.ok.inj h).symm

theorem eV2_de_delay {delay : ℕ} (h : GovTx.delayDaPermissao perm = .ok delay) :
    perm.eV2 = true := by
  cases perm with
  | v1 n => cases h
  | v2 owner actives witness recovery delayBlocks => rfl

/-! ## What an action makes of a pending change -/

/-- Where a change that pends after an action comes from. -/
inductive Origem (s : State) (conta : String) (p : PendingPerm) : Acao → Prop where
  | segue {a : Acao} (q : PendingPerm) (hq : s.pendingPerm.get? conta = some q)
      (hchange : q.change = p.change) (happrovals : q.approvals = p.approvals)
      (hexecute : q.executeAt = p.executeAt) : Origem s conta p a
  | propoe {tx : Tx} {height blockTs delay : ℕ} {perm : Permission}
      (htipo : Tipo.deTexto tx.txType = some .permissionPropose)
      (hperm : s.permissions.get? conta = some perm)
      (hdelay : GovTx.delayDaPermissao perm = .ok delay)
      (happrovals : p.approvals = GovTx.cedula tx.de)
      (hexecute : p.executeAt = if GovTx.autorizaMudanca perm p.change p.approvals.keys then
        some (height + delay) else none) : Origem s conta p (.transacao tx height blockTs)
  | aprova {tx : Tx} {height blockTs delay : ℕ} {perm : Permission} (q : PendingPerm)
      (hq : s.pendingPerm.get? conta = some q) (hperm : s.permissions.get? conta = some perm)
      (hdelay : GovTx.delayDaPermissao perm = .ok delay) (hchange : q.change = p.change)
      (hexecute : p.executeAt =
        (if q.executeAt.isNone && GovTx.autorizaMudanca perm p.change p.approvals.keys then
          some (height + delay) else none).or q.executeAt) :
      Origem s conta p (.transacao tx height blockTs)

theorem Muda.origem {s : State} {g : Guarda} {p : PendingPerm} (hmuda : Muda amb s a g)
    (hp : g.pendingPerm.get? conta = some p) : Origem s conta p a := by
  cases hmuda with
  | nada => exact .segue p hp rfl rfl rfl
  | configura perm hsem => exact .segue p hp rfl rfl rfl
  | @propoe tx height blockTs c perm mudanca delay executeAt htipo hperm hdelay hinicio =>
    change (s.pendingPerm.insert c _).get? conta = some p at hp
    rw [OrdMap.get?_insert] at hp
    split_ifs at hp with heq
    · obtain rfl := Option.some.inj hp
      subst heq
      exact .propoe htipo hperm hdelay rfl (inicioDoTimelock_eq_ok hinicio)
    · exact .segue p hp rfl rfl rfl
  | @aprova tx height blockTs c perm pend delay novo htipo hpend hperm hdelay hinicio =>
    change (s.pendingPerm.insert c _).get? conta = some p at hp
    rw [OrdMap.get?_insert] at hp
    split_ifs at hp with heq
    · obtain rfl := Option.some.inj hp
      subst heq
      refine .aprova pend hpend hperm hdelay rfl ?_
      exact congrArg (fun n : Option ℕ => n.or pend.executeAt) (inicioDoTimelock_eq_ok hinicio)
    · exact .segue p hp rfl rfl rfl
  | @veta tx height blockTs c pend vetoes hpend =>
    change (s.pendingPerm.insert c _).get? conta = some p at hp
    rw [OrdMap.get?_insert] at hp
    split_ifs at hp with heq
    · obtain rfl := Option.some.inj hp
      subst heq
      exact .segue pend hpend rfl rfl rfl
    · exact .segue p hp rfl rfl rfl
  | @cancela tx height blockTs c =>
    change (s.pendingPerm.erase c).get? conta = some p at hp
    rw [OrdMap.get?_erase] at hp
    split_ifs at hp
    exact .segue p hp rfl rfl rfl
  | pendura he hp' hresolvida => exact .segue p hp rfl rfl rfl
  | soma he ha hresolvida => exact .segue p hp rfl rfl rfl
  | retira id => exact .segue p hp rfl rfl rfl
  | executaProposta hp' hop => exact .segue p hp rfl rfl rfl
  | executaAprovacao ha hop => exact .segue p hp rfl rfl rfl
  | @tique height =>
    have hde := congrArg Prod.snd
      (Guarda.de_matura height : ((s.guarda.expira height).matura height).de conta = _)
    change ((s.guarda.expira height).matura height).pendingPerm.get? conta =
      (amadurece height (s.permissions.get? conta, s.pendingPerm.get? conta)).2 at hde
    rw [hp] at hde
    cases hq : s.pendingPerm.get? conta with
    | none => rw [hq] at hde; cases hde
    | some q =>
      rw [hq] at hde
      by_cases hdue : ∃ e ∈ q.executeAt, e ≤ height
      · rw [amadurece_devida hdue] at hde
        cases hde
      · rw [amadurece_cedo hdue] at hde
        obtain rfl := Option.some.inj hde
        exact .segue p hq rfl rfl rfl

/-- A version-2 permission stays as it is, but for the tick. -/
theorem Muda.permissao {g : Guarda} (hops : OpsFieis amb s₀ passado (roda amb s₀ passado).guarda)
    (hmuda : Muda amb (roda amb s₀ passado) a g)
    (hperm : (roda amb s₀ passado).permissions.get? conta = some perm) (hv2 : perm.eV2 = true) :
    g.permissions.get? conta = some perm ∨
      ∃ height, a = .tick height ∧
        g.de conta = amadurece height ((roda amb s₀ passado).guarda.de conta) := by
  have htroca : ∀ {g : Guarda} {c : String} {nova : Option Permission}, c ≠ conta →
      g.permissions.get? conta = some perm →
      (g.comPermissao c nova).permissions.get? conta = some perm := by
    intro g c nova hne hg
    cases nova with
    | none => exact (OrdMap.get?_erase_of_ne _ hne.symm).trans hg
    | some nova => exact (OrdMap.get?_insert_of_ne _ hne.symm nova).trans hg
  cases hmuda with
  | nada => exact .inl hperm
  | @configura tx height blockTs nova hsem =>
    have hne : conta ≠ tx.de := by
      rintro rfl
      exact absurd (hperm.symm.trans hsem) (by simp)
    exact .inl ((OrdMap.get?_insert_of_ne _ hne nova).trans hperm)
  | propoe htipo hperm' hdelay hinicio => exact .inl hperm
  | aprova htipo hpend hperm' hdelay hinicio => exact .inl hperm
  | veta hpend => exact .inl hperm
  | cancela => exact .inl hperm
  | pendura he hp hresolvida => exact .inl hperm
  | soma he ha hresolvida => exact .inl hperm
  | retira id => exact .inl hperm
  | @executaProposta tx ctx p nova hp hop =>
    obtain ⟨perm', nivel, escopo, hperm', -, -, htipo, -, hval⟩ := conferirProposta_eq_ok hp
    refine .inl (htroca ?_ hperm)
    rintro rfl
    obtain rfl := Option.some.inj (hperm.symm.trans hperm')
    have hv1 := htipo.semTimelock (validarOp_troca (hval _ hop).2).1
    exact absurd (hv2.symm.trans hv1) (by decide)
  | @executaAprovacao tx ctx ap nova ha hop =>
    obtain ⟨hpend, perm', nivel, escopo, hperm', -, -, -, -, hval⟩ := conferirAprovacao_eq_ok ha
    obtain ⟨perm'', hperm'', hapoiada⟩ := hops _ _ hpend
    refine .inl (htroca ?_ hperm)
    rintro rfl
    obtain rfl := Option.some.inj (hperm.symm.trans hperm'')
    have hv1 := hapoiada.tipo.semTimelock (validarOp_troca (hval _ hop).2.2).1
    exact absurd (hv2.symm.trans hv1) (by decide)
  | @tique height => exact .inr ⟨height, rfl, Guarda.de_matura height⟩

/-- While a change pends, the version-2 permission under it stays. -/
theorem Muda.permissao_pendente {g : Guarda} {p : PendingPerm}
    (hops : OpsFieis amb s₀ passado (roda amb s₀ passado).guarda)
    (hmuda : Muda amb (roda amb s₀ passado) a g)
    (hperm : (roda amb s₀ passado).permissions.get? conta = some perm) (hv2 : perm.eV2 = true)
    (hp : g.pendingPerm.get? conta = some p) : g.permissions.get? conta = some perm := by
  rcases hmuda.permissao hops hperm hv2 with h | ⟨height, -, hde⟩
  · exact h
  · cases hq : (roda amb s₀ passado).pendingPerm.get? conta with
    | none =>
      have hpar : (roda amb s₀ passado).guarda.de conta = (some perm, none) := Prod.ext hperm hq
      rw [hpar] at hde
      exact absurd (hp.symm.trans (congrArg Prod.snd hde)) (by simp [amadurece])
    | some q =>
      have hpar : (roda amb s₀ passado).guarda.de conta = (some perm, some q) := Prod.ext hperm hq
      rw [hpar] at hde
      by_cases hdue : ∃ e ∈ q.executeAt, e ≤ height
      · rw [amadurece_devida hdue] at hde
        exact absurd (hp.symm.trans (congrArg Prod.snd hde)) (by simp)
      · rw [amadurece_cedo hdue] at hde
        exact congrArg Prod.fst hde

theorem NuncaAutorizada.agora (h : NuncaAutorizada amb s₀ conta perm mudanca passado) :
    Espera amb s₀ conta perm mudanca passado := by
  obtain ⟨tx, height, blockTs, antes, -, hsuf, hmomentos⟩ := h
  exact hmomentos passado hsuf (List.suffix_refl _)

/-! ## The history of every pending change -/

section

variable {p : PendingPerm} (hp : (roda amb s₀ (a :: passado)).pendingPerm.get? conta = some p)
  (hperm : (roda amb s₀ (a :: passado)).permissions.get? conta = some perm)

include hp hperm

/-- The change was there before, with the same approvers. -/
theorem mudancaFiel_segue {q : PendingPerm} (hv2 : perm.eV2 = true)
    (hq : (roda amb s₀ passado).pendingPerm.get? conta = some q) (hchange : q.change = p.change)
    (happrovals : q.approvals = p.approvals) (hexecute : q.executeAt = p.executeAt)
    (hfiel : match q.executeAt with
      | none => NuncaAutorizada amb s₀ conta perm q.change passado
      | some e => ∃ h₀ delay, GovTx.delayDaPermissao perm = .ok delay ∧ e = h₀ + delay ∧
          AutorizadaEm amb s₀ conta perm q.change h₀ passado) :
    MudancaFiel amb s₀ (a :: passado) conta p := by
  refine ⟨perm, hperm, hv2, ?_⟩
  rw [hexecute, hchange] at hfiel
  cases he : p.executeAt with
  | none =>
    rw [he] at hfiel
    obtain ⟨-, q', hq', -, -, haut⟩ := hfiel.agora
    obtain rfl := Option.some.inj (hq.symm.trans hq')
    exact hfiel.segue ⟨hperm, p, hp, rfl, he, happrovals ▸ haut⟩
  | some e =>
    rw [he] at hfiel
    obtain ⟨h₀, delay, hdelay, rfl, hem⟩ := hfiel
    exact ⟨h₀, delay, hdelay, rfl, hem.segue hdelay ⟨hperm, p, hp, rfl, he⟩⟩

end

/-- The proposal starts the history. -/
theorem mudancaFiel_propoe {p : PendingPerm} {tx : Tx} {height blockTs delay : ℕ}
    (hp : (roda amb s₀ (.transacao tx height blockTs :: passado)).pendingPerm.get? conta = some p)
    (hperm : (roda amb s₀ (.transacao tx height blockTs :: passado)).permissions.get? conta =
      some perm)
    (htipo : Tipo.deTexto tx.txType = some .permissionPropose)
    (hdelay : GovTx.delayDaPermissao perm = .ok delay)
    (happrovals : p.approvals = GovTx.cedula tx.de)
    (hexecute : p.executeAt = if GovTx.autorizaMudanca perm p.change p.approvals.keys then
      some (height + delay) else none) :
    MudancaFiel amb s₀ (.transacao tx height blockTs :: passado) conta p := by
  refine ⟨perm, hperm, eV2_de_delay hdelay, ?_⟩
  by_cases haut : GovTx.autorizaMudanca perm p.change p.approvals.keys = true
  · rw [if_pos haut] at hexecute
    rw [hexecute]
    refine ⟨height, delay, hdelay, rfl, tx, blockTs, passado, delay, p, List.suffix_refl _, hdelay,
      hp, haut, .inl ⟨htipo, happrovals⟩, fun momento h h' => ?_⟩
    rw [momento_unico h h']
    exact ⟨hperm, p, hp, rfl, hexecute⟩
  · rw [if_neg haut] at hexecute
    rw [hexecute]
    refine ⟨tx, height, blockTs, passado, htipo, List.suffix_refl _, fun momento h h' => ?_⟩
    rw [momento_unico h h']
    exact ⟨hperm, p, hp, rfl, hexecute, Bool.eq_false_iff.mpr haut⟩

/-- An approval completes it or goes on waiting. -/
theorem mudancaFiel_aprova {p q : PendingPerm} {tx : Tx} {height blockTs delay : ℕ}
    (hp : (roda amb s₀ (.transacao tx height blockTs :: passado)).pendingPerm.get? conta = some p)
    (hperm : (roda amb s₀ (.transacao tx height blockTs :: passado)).permissions.get? conta =
      some perm)
    (hdelay : GovTx.delayDaPermissao perm = .ok delay) (hchange : q.change = p.change)
    (hexecute : p.executeAt =
      (if q.executeAt.isNone && GovTx.autorizaMudanca perm p.change p.approvals.keys then
        some (height + delay) else none).or q.executeAt)
    (hfiel : match q.executeAt with
      | none => NuncaAutorizada amb s₀ conta perm q.change passado
      | some e => ∃ h₀ delay, GovTx.delayDaPermissao perm = .ok delay ∧ e = h₀ + delay ∧
          AutorizadaEm amb s₀ conta perm q.change h₀ passado) :
    MudancaFiel amb s₀ (.transacao tx height blockTs :: passado) conta p := by
  refine ⟨perm, hperm, eV2_de_delay hdelay, ?_⟩
  rw [hchange] at hfiel
  cases hq : q.executeAt with
  | none =>
    rw [hq] at hexecute hfiel
    by_cases haut : GovTx.autorizaMudanca perm p.change p.approvals.keys = true
    · have he : p.executeAt = some (height + delay) := by rw [hexecute, haut]; rfl
      rw [he]
      refine ⟨height, delay, hdelay, rfl, tx, blockTs, passado, delay, p, List.suffix_refl _,
        hdelay, hp, haut, .inr hfiel, fun momento h h' => ?_⟩
      rw [momento_unico h h']
      exact ⟨hperm, p, hp, rfl, he⟩
    · have hfalse := Bool.eq_false_iff.mpr haut
      have he : p.executeAt = none := by rw [hexecute, hfalse]; rfl
      rw [he]
      exact hfiel.segue ⟨hperm, p, hp, rfl, he, hfalse⟩
  | some e =>
    rw [hq] at hexecute hfiel
    have he : p.executeAt = some e := hexecute
    rw [he]
    obtain ⟨h₀, delay', hdelay', rfl, hem⟩ := hfiel
    exact ⟨h₀, delay', hdelay', rfl, hem.segue hdelay' ⟨hperm, p, hp, rfl, he⟩⟩

/-- Over any run from an empty guard, every pending change has its history. -/
theorem mudancasFieis_roda (hvazio : s₀.guarda = ({} : State).guarda) (passado : List Acao) :
    ∀ conta p, (roda amb s₀ passado).pendingPerm.get? conta = some p →
      MudancaFiel amb s₀ passado conta p := by
  induction passado with
  | nil =>
    intro conta p hp
    change s₀.guarda.pendingPerm.get? conta = some p at hp
    rw [hvazio] at hp
    cases hp
  | cons a passado ih =>
    intro conta p hp
    have hops : OpsFieis amb s₀ passado (roda amb s₀ passado).guarda :=
      opsFieis_roda (congrArg Guarda.pendingOps hvazio) passado
    have hmuda : Muda amb (roda amb s₀ passado) a _ := opera_muda a
    have hfica : ∀ {perm}, (roda amb s₀ passado).permissions.get? conta = some perm →
        perm.eV2 = true → (roda amb s₀ (a :: passado)).permissions.get? conta = some perm :=
      fun hperm hv2 => hmuda.permissao_pendente hops hperm hv2 hp
    cases hmuda.origem hp with
    | segue q hq hchange happrovals hexecute =>
      obtain ⟨perm, hperm, hv2, hfiel⟩ := ih conta q hq
      exact mudancaFiel_segue hp (hfica hperm hv2) hv2 hq hchange happrovals hexecute hfiel
    | propoe htipo hperm hdelay happrovals hexecute =>
      exact mudancaFiel_propoe hp (hfica hperm (eV2_de_delay hdelay)) htipo hdelay happrovals hexecute
    | aprova q hq hperm hdelay hchange hexecute =>
      obtain ⟨perm', hperm', -, hfiel⟩ := ih conta q hq
      obtain rfl := Option.some.inj (hperm.symm.trans hperm')
      exact mudancaFiel_aprova hp (hfica hperm (eV2_de_delay hdelay)) hdelay hchange hexecute hfiel

/-! ## The timelock -/

theorem mudaPermissao_ne {pend : PendingPerm} (h : mudaPermissao perm pend ≠ perm) :
    GovTx.autorizaMudanca perm pend.change pend.approvals.keys = true ∧
      GovTx.simularMudanca perm pend.change = .ok (mudaPermissao perm pend) := by
  unfold mudaPermissao at h ⊢
  split_ifs at h ⊢ with haut
  · refine ⟨(Bool.and_eq_true_iff.mp haut).2, ?_⟩
    cases hs : GovTx.simularMudanca perm pend.change with
    | ok nova => rfl
    | error e => rw [hs] at h; exact absurd rfl h
  · exact absurd rfl h

/-- In any run, a version-2 permission changes only in a tick, by the change pending on
its account, at least the delay after its approvers first satisfied the rule, and when
they satisfy it under the permission that the change replaces. -/
theorem timelock {alocacoes : JsonValue}
    (hgenese : applyGenesis amb.cripto alocacoes {} = .ok ⟨⟩ s₀) (passado : List Acao) (a : Acao)
    (hperm : (roda amb s₀ passado).permissions.get? conta = some perm) (hv2 : perm.eV2 = true)
    (hmudou : (roda amb s₀ (a :: passado)).permissions.get? conta ≠ some perm) :
    ∃ height pend h₀ delay nova, a = .tick height ∧
      (roda amb s₀ passado).pendingPerm.get? conta = some pend ∧
      AutorizadaEm amb s₀ conta perm pend.change h₀ passado ∧
      GovTx.delayDaPermissao perm = .ok delay ∧ h₀ + delay ≤ height ∧
      GovTx.autorizaMudanca perm pend.change pend.approvals.keys = true ∧
      GovTx.simularMudanca perm pend.change = .ok nova ∧
      (roda amb s₀ (a :: passado)).permissions.get? conta = some nova := by
  have hvazio : s₀.guarda = ({} : State).guarda := applyGenesis_guarda hgenese
  have hops : OpsFieis amb s₀ passado (roda amb s₀ passado).guarda :=
    opsFieis_roda (congrArg Guarda.pendingOps hvazio) passado
  have hmuda : Muda amb (roda amb s₀ passado) a _ := opera_muda a
  rcases hmuda.permissao hops hperm hv2 with h | ⟨height, rfl, hde⟩
  · exact absurd h hmudou
  · have hdepois := congrArg Prod.fst hde
    change (roda amb s₀ (.tick height :: passado)).permissions.get? conta = _ at hdepois
    cases hpend : (roda amb s₀ passado).pendingPerm.get? conta with
    | none =>
      have hpar : (roda amb s₀ passado).guarda.de conta = (some perm, none) := Prod.ext hperm hpend
      rw [hpar] at hdepois
      exact absurd hdepois hmudou
    | some pend =>
      have hpar : (roda amb s₀ passado).guarda.de conta = (some perm, some pend) :=
        Prod.ext hperm hpend
      rw [hpar] at hdepois
      by_cases hdue : ∃ e ∈ pend.executeAt, e ≤ height
      · rw [amadurece_devida hdue] at hdepois
        have hne : mudaPermissao perm pend ≠ perm := fun heq => hmudou (hdepois.trans (congrArg some heq))
        obtain ⟨haut, hnova⟩ := mudaPermissao_ne hne
        obtain ⟨perm', hperm', -, hfiel⟩ := mudancasFieis_roda hvazio passado conta pend hpend
        obtain rfl := Option.some.inj (hperm.symm.trans hperm')
        obtain ⟨e, he, hle⟩ := hdue
        rw [Option.mem_def.mp he] at hfiel
        obtain ⟨h₀, delay, hdelay, rfl, hem⟩ := hfiel
        exact ⟨height, pend, h₀, delay, _, rfl, rfl, hem, hdelay, hle, haut, hnova, hdepois⟩
      · rw [amadurece_cedo hdue] at hdepois
        exact absurd hdepois hmudou

/-! ## A change of delay -/

/-- The owner of the account asks for a longer delay. -/
def propoeDelay : Acao :=
  .transacao (primeiraTx enderecoB "PERMISSION_PROPOSE"
    [("account", .str enderecoA),
      ("change", .map [("level", .str "delay"), ("value", .int 50000)])]) 2 2

def delayNoCofre (passado : List Acao) : Option ℕ :=
  ((roda ambienteIdeal estadoCofre passado).permissions.get? enderecoA).bind fun perm =>
    (GovTx.delayDaPermissao perm).toOption

theorem delayNoCofre_muda :
    delayNoCofre [propoeDelay, configuraCofre] = some Config.permDelayDefaultBlocks ∧
      delayNoCofre [.tick (Config.permDelayDefaultBlocks + 2), propoeDelay, configuraCofre] =
        some 50000 := by
  unfold delayNoCofre
  rw [ambienteIdeal_eq]
  simp only [roda, Acao.opera]
  unfold applyTransaction aplicarNativa apurarTaxa EavmTx.apurarGb
  rw [consumoGb_eq]
  decide +kernel

theorem timelock_no_cofre : ∃ (perm : Permission) (pend : PendingPerm) (h₀ : ℕ) (nova : Permission),
    AutorizadaEm ambienteIdeal estadoCofre enderecoA perm pend.change h₀
      [propoeDelay, configuraCofre] ∧
    GovTx.simularMudanca perm pend.change = .ok nova ∧
    (roda ambienteIdeal estadoCofre
      [.tick (Config.permDelayDefaultBlocks + 2), propoeDelay, configuraCofre]).permissions.get?
        enderecoA = some nova := by
  obtain ⟨hantes, hdepois⟩ := delayNoCofre_muda
  obtain ⟨perm, hperm, hdelay⟩ := Option.bind_eq_some_iff.mp hantes
  have hv2 : perm.eV2 = true := by
    cases perm with
    | v1 n => cases hdelay
    | v2 owner actives witness recovery delayBlocks => rfl
  have hmudou : (roda ambienteIdeal estadoCofre
      [.tick (Config.permDelayDefaultBlocks + 2), propoeDelay, configuraCofre]).permissions.get?
        enderecoA ≠ some perm := by
    intro h
    unfold delayNoCofre at hdepois
    rw [h, Option.bind_some, hdelay] at hdepois
    exact absurd hdepois (by decide)
  obtain ⟨height, pend, h₀, delay, nova, -, -, hem, -, -, -, hsimula, hnova⟩ :=
    timelock genese_cofre [propoeDelay, configuraCofre] _ hperm hv2 hmudou
  exact ⟨perm, pend, h₀, nova, hem, hsimula, hnova⟩

end Eav7
