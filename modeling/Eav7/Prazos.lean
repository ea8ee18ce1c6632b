import Mathlib.Algebra.BigOperators.Group.Finset.Piecewise
import Eav7.Apuracao
import Eav7.Base.Extrato

/-!
# What waits for its height

A withdrawal leaves the stake at once and is paid by the first tick at its height, unless a
penalty cuts it before; a commission is announced and takes effect at a tick after the delay.
-/

namespace Eav7

open Base

/-! ## The queue by owner and height -/

/-- What the queue holds for an owner at one due height. -/
def naFila (x : String) (m : ℕ) (s : State) : ℕ :=
  ((s.unbonding.filter fun u => decide (u.1 = x ∧ u.2.2 = m)).map (·.2.1)).sum

/-- What a transaction withdraws from the stake of an account, due at a height. -/
def sacado (x : String) (m : ℕ) (a : Acao) (s t : State) : ℕ :=
  match a with
  | .transacao tx height _ =>
    if tx.txType ≠ "SLASH_DOUBLE_SIGN" ∧ height + Config.unbondingBlocks = m
    then (s.account x).staked - (t.account x).staked else 0
  | _ => 0

/-- What a tick pays of what is due at a height. -/
def pago (x : String) (m : ℕ) (a : Acao) (s _ : State) : ℕ :=
  match a with
  | .tick k => if m ≤ k then naFila x m s else 0
  | _ => 0

/-- What a penalty cuts of what is due at a height. -/
def cortado (x : String) (m : ℕ) (a : Acao) (s t : State) : ℕ :=
  match a with
  | .transacao tx _ _ => if tx.txType = "SLASH_DOUBLE_SIGN" then naFila x m s - naFila x m t else 0
  | _ => 0

section

variable {amb : Ambiente} {s t : State} {a : Acao} {x conta : String} {m k : ℕ}

theorem naFila_congr (h : t.unbonding = s.unbonding) : naFila x m t = naFila x m s := by
  unfold naFila
  rw [h]

theorem naFila_enfileira {valor : Amount} {fim : ℕ}
    (h : t.unbonding = s.unbonding ++ [(conta, valor, fim)]) :
    naFila x m t = naFila x m s + if conta = x ∧ fim = m then valor else 0 := by
  unfold naFila
  rw [h, List.filter_append, List.map_append, List.sum_append]
  congr 1
  split_ifs with hx
  · rw [List.filter_cons, if_pos (decide_eq_true hx)]
    exact Nat.add_zero _
  · rw [List.filter_cons, if_neg (mt of_decide_eq_true hx)]
    rfl

/-- The tick leaves what is due later. -/
theorem naFila_matura (h : t.unbonding = s.unbonding.filter fun u => !decide (u.2.2 ≤ k)) :
    naFila x m t = if m ≤ k then 0 else naFila x m s := by
  unfold naFila
  rw [h, List.filter_filter]
  split_ifs with hm
  · rw [List.filter_eq_nil_iff.mpr]
    · rfl
    · intro u _ hu
      obtain ⟨hdono, hvence⟩ := Bool.and_eq_true_iff.mp hu
      have hprazo : u.2.2 ≤ k := (of_decide_eq_true hdono).2.trans_le hm
      rw [decide_eq_true hprazo] at hvence
      cases hvence
  · congr 2
    apply List.filter_congr
    intro u _
    by_cases hu : u.1 = x ∧ u.2.2 = m
    · have hprazo : ¬ u.2.2 ≤ k := hu.2 ▸ hm
      rw [decide_eq_true hu, decide_eq_false hprazo]
      rfl
    · rw [decide_eq_false hu]
      rfl

/-- What a tick pays to an owner is what the queue holds for it up to the height. -/
theorem maduros_eq (x : String) (k : ℕ) (s : State) : maduros k x s.unbonding =
    Finset.sum (Finset.range (k + 1)) fun m => naFila x m s := by
  unfold maduros emUnbonding naFila
  induction s.unbonding with
  | nil => exact (Finset.sum_const_zero).symm
  | cons u us ih =>
    have hcabeca : ∀ m, (((u :: us).filter fun u => decide (u.1 = x ∧ u.2.2 = m)).map (·.2.1)).sum =
        (if u.2.2 = m then if u.1 = x then u.2.1 else 0 else 0) +
          ((us.filter fun u => decide (u.1 = x ∧ u.2.2 = m)).map (·.2.1)).sum := by
      intro m
      rw [List.filter_cons]
      by_cases hm : u.2.2 = m
      · by_cases hx : u.1 = x
        · rw [if_pos (decide_eq_true ⟨hx, hm⟩), if_pos hm, if_pos hx]
          rfl
        · rw [if_neg (mt of_decide_eq_true fun h => hx h.1), if_pos hm, if_neg hx, Nat.zero_add]
      · rw [if_neg (mt of_decide_eq_true fun h => hm h.2), if_neg hm, Nat.zero_add]
    rw [Finset.sum_congr rfl fun m _ => hcabeca m, Finset.sum_add_distrib, Finset.sum_ite_eq, ← ih,
      List.filter_cons]
    by_cases hk : u.2.2 ≤ k
    · rw [if_pos (decide_eq_true hk), if_pos (Finset.mem_range_succ_iff.mpr hk), List.filter_cons]
      by_cases hx : u.1 = x
      · rw [if_pos (decide_eq_true hx), if_pos hx]
        rfl
      · rw [if_neg (mt of_decide_eq_true hx), if_neg hx, Nat.zero_add]
    · rw [if_neg (mt of_decide_eq_true hk), if_neg (mt Finset.mem_range_succ_iff.mp hk),
        Nat.zero_add]

/-- A penalty only takes from the queue. -/
theorem Penalizado.naFila_le {infrator : String} (h : Penalizado infrator s t) :
    naFila x m t ≤ naFila x m s := by
  unfold naFila
  by_cases hx : x = infrator
  · have hparte : ∀ us : List (String × Amount × ℕ),
        us.filter (fun u => decide (u.1 = x ∧ u.2.2 = m)) =
          (us.filter fun u => decide (u.1 = infrator)).filter fun u => decide (u.2.2 = m) := by
      intro us
      rw [List.filter_filter, hx]
      apply List.filter_congr
      intro u _
      rw [Bool.decide_and, Bool.and_comm]
    rw [hparte t.unbonding, hparte s.unbonding]
    refine SaiDaFrente.sum_filter_le ?_ ?_ h.fila
    · exact fun _ _ => rfl
    · exact fun _ _ => rfl
  · have hparte : ∀ us : List (String × Amount × ℕ),
        us.filter (fun u => decide (u.1 = x ∧ u.2.2 = m)) =
          (us.filter fun u => decide (u.1 ≠ infrator)).filter
            fun u => decide (u.1 = x ∧ u.2.2 = m) := by
      intro us
      rw [List.filter_filter]
      apply List.filter_congr
      intro u _
      by_cases hu : u.1 = x
      · have halheio : u.1 ≠ infrator := hu ▸ hx
        rw [decide_eq_true halheio, Bool.and_true]
      · rw [decide_eq_false fun h => hu h.1, Bool.false_and]
    rw [hparte t.unbonding, hparte s.unbonding, h.filaAlheia]

theorem Penalizado.emFila_le {infrator : String} (h : Penalizado infrator s t) :
    emFila t x ≤ emFila s x := by
  unfold emFila
  by_cases hx : x = infrator
  · have hparte : ∀ us : List (String × Amount × ℕ), us.filter (fun u => u.1 == x) =
        us.filter fun u => decide (u.1 = infrator) := by
      intro us
      rw [hx]
      rfl
    rw [hparte t.unbonding, hparte s.unbonding]
    exact h.fila.length_le
  · have hparte : ∀ us : List (String × Amount × ℕ), us.filter (fun u => u.1 == x) =
        (us.filter fun u => decide (u.1 ≠ infrator)).filter fun u => u.1 == x := by
      intro us
      rw [List.filter_filter]
      apply List.filter_congr
      intro u _
      by_cases hu : u.1 = x
      · have halheio : u.1 ≠ infrator := hu ▸ hx
        rw [decide_eq_true halheio, Bool.and_true]
      · rw [beq_false_of_ne hu, Bool.false_and]
    rw [hparte t.unbonding, hparte s.unbonding, h.filaAlheia]

/-- A step that leaves the queue and lowers no stake books nothing. -/
theorem saques_parados (hfila : t.unbonding = s.unbonding)
    (hstake : s.quadro.stake x ≤ t.quadro.stake x) (htick : ∀ k, a ≠ .tick k) :
    naFila x m t + (pago x m a s t + cortado x m a s t) = naFila x m s + sacado x m a s t := by
  have hsaque : (s.account x).staked - (t.account x).staked = 0 := Nat.sub_eq_zero_of_le hstake
  have hmesma : naFila x m t = naFila x m s := naFila_congr hfila
  cases a with
  | transacao tx height blockTs =>
    unfold pago cortado sacado
    dsimp only
    rw [hmesma, hsaque, Nat.sub_self, ite_self, ite_self]
  | tick k => exact absurd rfl (htick k)
  | abre block => exact hmesma
  | emite block => exact hmesma

theorem MudaQuadro.saques {tx : Tx} {height blockTs : ℕ} {taxa : String → ℕ}
    {aval : String → Amount → Prop} (h : MudaQuadro height taxa aval s t)
    (htipo : tx.txType ≠ "SLASH_DOUBLE_SIGN") :
    naFila x m t + (pago x m (.transacao tx height blockTs) s t +
      cortado x m (.transacao tx height blockTs) s t) =
      naFila x m s + sacado x m (.transacao tx height blockTs) s t := by
  cases h with
  | parada ht =>
    have hfila : t.unbonding = s.unbonding := congrArg Quadro.fila ht
    exact saques_parados hfila (le_of_eq (by rw [ht])) fun _ => nofun
  | deposita conta valor ht =>
    have hfila : t.unbonding = s.unbonding := congrArg Quadro.fila ht
    have hstake : t.quadro.stake = Function.update s.quadro.stake conta _ :=
      congrArg Quadro.stake ht
    refine saques_parados hfila ?_ fun _ => nofun
    rw [update_of_eq hstake]
    split_ifs with hx
    · rw [hx]
      exact Nat.le_add_right _ _
    · exact le_refl _
  | cede conta cedido hcoberto ht =>
    have hfila : t.unbonding = s.unbonding := congrArg Quadro.fila ht
    have hstake : t.quadro.stake = s.quadro.stake := by rw [ht]
    exact saques_parados hfila (congrFun hstake x).ge fun _ => nofun
  | saca conta valor hpos hcabe hvaga hcoberto ht =>
    have hfila : t.unbonding = s.unbonding ++ [(conta, valor, height + Config.unbondingBlocks)] :=
      congrArg Quadro.fila ht
    have hstake : t.quadro.stake = Function.update s.quadro.stake conta _ :=
      congrArg Quadro.stake ht
    have hx : (t.account x).staked = if x = conta then (s.account conta).staked - valor
      else (s.account x).staked := update_of_eq hstake
    have hcabe : valor ≤ (s.account conta).staked := hcabe
    have hsaque : sacado x m (.transacao tx height blockTs) s t =
        if conta = x ∧ height + Config.unbondingBlocks = m then valor else 0 := by
      unfold sacado
      dsimp only
      rw [hx]
      by_cases hm : height + Config.unbondingBlocks = m
      · rw [if_pos ⟨htipo, hm⟩]
        by_cases hconta : conta = x
        · rw [if_pos hconta.symm, if_pos ⟨hconta, hm⟩, ← hconta]
          exact Nat.sub_sub_self hcabe
        · rw [if_neg (Ne.symm hconta), if_neg fun h => hconta h.1]
          exact Nat.sub_self _
      · rw [if_neg fun h => hm h.2, if_neg fun h => hm h.2]
    have hcorte : cortado x m (.transacao tx height blockTs) s t = 0 := if_neg htipo
    rw [naFila_enfileira hfila, hsaque, hcorte]
    rfl
  | vota haloc hvota hestacas hsaldos =>
    exact saques_parados (fila_of_estacas hestacas) (congrFun (stake_of_estacas hestacas) x).ge
      fun _ => nofun
  | resgata hresgata hestacas hsaldos =>
    exact saques_parados (fila_of_estacas hestacas) (congrFun (stake_of_estacas hestacas) x).ge
      fun _ => nofun
  | agenda conta pct hpct ht =>
    have hfila : t.unbonding = s.unbonding := congrArg Quadro.fila ht
    have hstake : t.quadro.stake = s.quadro.stake := by rw [ht]
    exact saques_parados hfila (congrFun hstake x).ge fun _ => nofun

/-- What a step adds to the queue and takes from it is what it books. -/
theorem PassoDoQuadro.saques (hp : PassoDoQuadro amb s a t) :
    naFila x m t + (pago x m a s t + cortado x m a s t) = naFila x m s + sacado x m a s t := by
  cases hp with
  | alheio hfora ht =>
    have hfila : t.unbonding = s.unbonding := congrArg Quadro.fila ht
    refine saques_parados hfila (le_of_eq (by rw [ht])) fun k hk => ?_
    rw [hk] at hfora
    exact hfora trivial
  | opera htipo htaxa hmuda => exact hmuda.saques htipo
  | pune htipo hacusado hpunido hurna =>
    have hle : naFila x m t ≤ naFila x m s := hpunido.naFila_le
    unfold pago cortado sacado
    dsimp only
    rw [if_pos htipo, if_neg fun h => h.1 htipo, Nat.zero_add, Nat.add_zero]
    exact Nat.add_sub_of_le hle
  | @matura k _ w hprop hsaldos ht =>
    have hfila : t.unbonding = s.unbonding.filter fun u => !decide (u.2.2 ≤ k) :=
      congrArg Quadro.fila ht
    rw [naFila_matura hfila]
    unfold pago cortado sacado
    dsimp only
    split_ifs
    · rw [Nat.zero_add]
    · rfl
  | premia hreward hsoma hpartilha =>
    exact saques_parados hpartilha.fila (congrFun hpartilha.stake x).ge fun _ => nofun

/-- The number of withdrawals of one owner that wait stays within its limit. -/
theorem PassoDoQuadro.vagas (hp : PassoDoQuadro amb s a t)
    (h : emFila s x ≤ Config.maxUnbondingEntries) : emFila t x ≤ Config.maxUnbondingEntries := by
  have hmesma : t.unbonding = s.unbonding → emFila t x ≤ Config.maxUnbondingEntries := by
    intro hfila
    unfold emFila at h ⊢
    rw [hfila]
    exact h
  cases hp with
  | alheio hfora ht => exact hmesma (congrArg Quadro.fila ht)
  | opera htipo htaxa hmuda =>
    cases hmuda with
    | parada ht => exact hmesma (congrArg Quadro.fila ht)
    | deposita conta valor ht => exact hmesma (congrArg Quadro.fila ht)
    | cede conta cedido hcoberto ht => exact hmesma (congrArg Quadro.fila ht)
    | saca conta valor hpos hcabe hvaga hcoberto ht =>
      have hfila : t.unbonding = s.unbonding ++ [(conta, valor, _)] := congrArg Quadro.fila ht
      unfold emFila at h hvaga ⊢
      rw [hfila, List.filter_append, List.length_append, List.filter_cons]
      split_ifs with hx
      · have hx : conta = x := beq_iff_eq.mp hx
        rw [← hx]
        exact hvaga
      · exact h
    | vota haloc hvota hestacas hsaldos => exact hmesma (fila_of_estacas hestacas)
    | resgata hresgata hestacas hsaldos => exact hmesma (fila_of_estacas hestacas)
    | agenda conta pct hpct ht => exact hmesma (congrArg Quadro.fila ht)
  | pune htipo hacusado hpunido hurna => exact hpunido.emFila_le.trans h
  | matura w hprop hsaldos ht =>
    have hfila : t.unbonding = s.unbonding.filter _ := congrArg Quadro.fila ht
    refine le_trans ?_ h
    unfold emFila
    rw [hfila]
    exact (List.filter_sublist.filter _).length_le
  | premia hreward hsoma hpartilha => exact hmesma hpartilha.fila

/-- A step announces a commission for a height past the delay, or keeps what was announced. -/
theorem PassoDoQuadro.anuncia {v : String} {c : ℕ × ℕ} (hp : PassoDoQuadro amb s a t)
    (h : t.pendingCommission.get? v = some c) : s.pendingCommission.get? v = some c ∨
      ∃ tx height blockTs, a = .transacao tx height blockTs ∧
        c.2 = height + Config.commissionDelayBlocks := by
  have hmesma : t.pendingCommission = s.pendingCommission → s.pendingCommission.get? v = some c := by
    intro hpendente
    rw [← hpendente]
    exact h
  cases hp with
  | alheio hfora ht => exact .inl (hmesma (congrArg Quadro.pendingCommission ht))
  | @opera tx height blockTs _ gb fee htipo htaxa hmuda =>
    cases hmuda with
    | parada ht => exact .inl (hmesma (congrArg Quadro.pendingCommission ht))
    | deposita conta valor ht => exact .inl (hmesma (congrArg Quadro.pendingCommission ht))
    | cede conta cedido hcoberto ht => exact .inl (hmesma (congrArg Quadro.pendingCommission ht))
    | saca conta valor hpos hcabe hvaga hcoberto ht =>
      exact .inl (hmesma (congrArg Quadro.pendingCommission ht))
    | vota haloc hvota hestacas hsaldos =>
      exact .inl (hmesma (comissoes_of_estacas hestacas).2)
    | resgata hresgata hestacas hsaldos =>
      exact .inl (hmesma (comissoes_of_estacas hestacas).2)
    | agenda conta pct hpct ht =>
      have hpendente : t.pendingCommission = s.pendingCommission.insert conta _ :=
        congrArg Quadro.pendingCommission ht
      rw [hpendente, OrdMap.get?_insert] at h
      split_ifs at h
      · cases h
        exact .inr ⟨tx, height, blockTs, rfl, rfl⟩
      · exact .inl h
  | pune htipo hacusado hpunido hurna => exact .inl (hmesma (comissoes_of_urna hurna).2)
  | matura w hprop hsaldos ht =>
    have hpendente : t.pendingCommission = (ativaComissoes _ s).pendingCommission :=
      congrArg Quadro.pendingCommission ht
    rw [hpendente] at h
    exact .inl (ativaComissoes_pendente h).1
  | premia hreward hsoma hpartilha => exact .inl (hmesma hpartilha.comissoes.2)

/-- Only a tick puts a commission in force, one that was announced for then. -/
theorem PassoDoQuadro.vigora {v : String} (hp : PassoDoQuadro amb s a t)
    (h : t.commission.get? v ≠ s.commission.get? v) : ∃ k pct m, a = .tick k ∧
      s.pendingCommission.get? v = some (pct, m) ∧ m ≤ k ∧ t.commission.get? v = some pct := by
  have hmesma : t.commission = s.commission → False := by
    intro hcomissao
    rw [hcomissao] at h
    exact h rfl
  cases hp with
  | alheio hfora ht => exact (hmesma (congrArg Quadro.commission ht)).elim
  | opera htipo htaxa hmuda =>
    cases hmuda with
    | parada ht => exact (hmesma (congrArg Quadro.commission ht)).elim
    | deposita conta valor ht => exact (hmesma (congrArg Quadro.commission ht)).elim
    | cede conta cedido hcoberto ht => exact (hmesma (congrArg Quadro.commission ht)).elim
    | saca conta valor hpos hcabe hvaga hcoberto ht =>
      exact (hmesma (congrArg Quadro.commission ht)).elim
    | vota haloc hvota hestacas hsaldos => exact (hmesma (comissoes_of_estacas hestacas).1).elim
    | resgata hresgata hestacas hsaldos => exact (hmesma (comissoes_of_estacas hestacas).1).elim
    | agenda conta pct hpct ht => exact (hmesma (congrArg Quadro.commission ht)).elim
  | pune htipo hacusado hpunido hurna => exact (hmesma (comissoes_of_urna hurna).1).elim
  | @matura k _ w hprop hsaldos ht =>
    have hcomissao : t.commission = (ativaComissoes k s).commission := congrArg Quadro.commission ht
    rw [hcomissao] at h ⊢
    rcases ativaComissoes_vigente k s v with hv | ⟨pct, m, hpendente, hm, hv⟩
    · exact absurd hv h
    · exact ⟨k, pct, m, rfl, hpendente, hm, hv⟩
  | premia hreward hsoma hpartilha => exact (hmesma hpartilha.comissoes.1).elim

end

/-! ## Along a run -/

section

variable {amb : Ambiente} {s₀ s t : State} {passado : List (State × Acao)} {a : Acao}

theorem Genese.unbonding (h : Genese amb s₀) : s₀.unbonding = [] := by
  have hcego : ∀ {c : Campo}, c ≠ .unbonding → Cego State.unbonding c := by
    intro c hc
    constructor
    intro s
    cases c <;> first | rfl | exact absurd rfl hc
  have : Cego State.unbonding .accounts := hcego (by decide)
  have : Cego State.unbonding .bridgeRelayers := hcego (by decide)
  have : Cego State.unbonding .vesting := hcego (by decide)
  have : Cego State.unbonding .bridgeSourceCommittees := hcego (by decide)
  exact h.le

/-- Along a run, what an account withdrew for a due height waits in the queue, was paid by a
tick or was cut by a penalty, and no unit is two of these. A tick pays to the balance, over
what the proposals that mature with it pay, all that is due by its height and nothing else,
and leaves none of it. Few withdrawals of an owner wait at a time. -/
theorem saques_pagos_uma_vez (h₀ : Genese amb s₀) (h : Execucao amb s₀ passado s) (x : String) :
    (∀ m, naFila x m s + (lancado (pago x m) passado s + lancado (cortado x m) passado s) =
      lancado (sacado x m) passado s) ∧
    emFila s x ≤ Config.maxUnbondingEntries ∧
    ∀ k t, (Acao.tick k).Aceita amb s t → ∃ w, maturaPropostas k s = .ok ⟨⟩ w ∧
      t.balanceOf x = w.balanceOf x +
        Finset.sum (Finset.range (k + 1)) (fun m => pago x m (.tick k) s t) ∧
      ∀ m, naFila x m t = if m ≤ k then 0 else naFila x m s := by
  refine ⟨fun m => ?_, ?_, fun k t ha => ?_⟩
  · have hconta := h.conserva (m := naFila x m) fun h ha =>
      (passoDoQuadro_of_execucao h₀ h ha).saques (x := x) (m := m)
    have hvazia : naFila x m s₀ = 0 := by
      unfold naFila
      rw [h₀.unbonding]
      rfl
    rwa [lancado_add, hvazia, Nat.zero_add] at hconta
  · induction h with
    | inicio =>
      unfold emFila
      rw [h₀.unbonding]
      exact Nat.zero_le _
    | segue h ha ih => exact (passoDoQuadro_of_execucao h₀ h ha).vagas ih
  · have hp := passoDoQuadro_of_execucao h₀ h ha
    cases hp with
    | alheio hfora ht => exact absurd trivial hfora
    | matura w hprop hsaldos ht =>
      refine ⟨w, hprop, ?_, fun m => naFila_matura (congrArg Quadro.fila ht)⟩
      rw [hsaldos, maduros_eq]
      congr 1
      apply Finset.sum_congr rfl
      intro m hm
      exact (if_pos (Finset.mem_range_succ_iff.mp hm)).symm

/-- Along a run, a commission takes effect only at a tick, and it is a percentage that a
transaction announced for the account earlier, at least the delay before. -/
theorem comissao_anunciada (h₀ : Genese amb s₀) (h : Execucao amb s₀ passado s) (v : String) :
    (∀ pct, s.commission.get? v = some pct → pct ≤ 100) ∧
    ∀ (a : Acao) (t : State), a.Aceita amb s t → t.commission.get? v ≠ s.commission.get? v →
      ∃ k pct, a = .tick k ∧ t.commission.get? v = some pct ∧ pct ≤ 100 ∧
        ∃ u w tx height blockTs, (u, .transacao tx height blockTs) ∈ passado ∧
          (Acao.transacao tx height blockTs).Aceita amb u w ∧
          w.pendingCommission.get? v ≠ u.pendingCommission.get? v ∧
          w.pendingCommission.get? v = some (pct, height + Config.commissionDelayBlocks) ∧
          height + Config.commissionDelayBlocks ≤ k := by
  have hcomissoes := (apurado_of_execucao h₀ h).comissoes
  refine ⟨hcomissoes.vigente v, fun a t ha hmuda => ?_⟩
  obtain ⟨k, pct, m, rfl, hpendente, hm, hv⟩ := (passoDoQuadro_of_execucao h₀ h ha).vigora hmuda
  refine ⟨k, pct, rfl, hv, hcomissoes.pendente v _ hpendente, ?_⟩
  have hanuncio : ∀ c, s.pendingCommission.get? v = some c → ∃ u w tx height blockTs,
      (u, .transacao tx height blockTs) ∈ passado ∧
      (Acao.transacao tx height blockTs).Aceita amb u w ∧
      w.pendingCommission.get? v ≠ u.pendingCommission.get? v ∧
      w.pendingCommission.get? v = some c ∧ c.2 = height + Config.commissionDelayBlocks := by
    clear ha hmuda hpendente hv hcomissoes
    induction h with
    | inicio =>
      intro c hc
      have hvazio := congrArg Quadro.pendingCommission h₀.urna
      have hvazio : s₀.pendingCommission = ∅ := hvazio
      rw [hvazio] at hc
      cases hc
    | @segue antes u w a h ha ih =>
      intro c hc
      by_cases hantes : u.pendingCommission.get? v = some c
      · obtain ⟨u', w', tx, height, ts, hmem, resto⟩ := ih c hantes
        exact ⟨u', w', tx, height, ts, List.mem_cons_of_mem _ hmem, resto⟩
      · rcases (passoDoQuadro_of_execucao h₀ h ha).anuncia hc with hmesma | ⟨tx, height, ts, rfl, hp⟩
        · exact absurd hmesma hantes
        · refine ⟨u, w, tx, height, ts, List.mem_cons_self, ha, ?_, hc, hp⟩
          rw [hc]
          exact Ne.symm hantes
  obtain ⟨u, w, tx, height, ts, hmem, haceita, hnova, hw, hprazo⟩ := hanuncio _ hpendente
  have hprazo : m = height + Config.commissionDelayBlocks := hprazo
  rw [hprazo] at hw hm
  exact ⟨u, w, tx, height, ts, hmem, haceita, hnova, hw, hm⟩

end

/-- The withdrawal of account A was paid by the tick at its height. -/
theorem saque_do_voto : estadoVencido.unbonding = [] ∧
    lancado (pago enderecoA 604801) passadoVencido estadoVencido +
        lancado (cortado enderecoA 604801) passadoVencido estadoVencido =
      lancado (sacado enderecoA 604801) passadoVencido estadoVencido ∧
    ∃ w, maturaPropostas 604801 estadoResgatado = .ok ⟨⟩ w := by
  obtain ⟨-, -, -, htick, -, -, -, hfila, -⟩ := roteiro_do_voto.out
  obtain ⟨⟨⟩, htick⟩ := conclui_iff.mp htick
  obtain ⟨hconta, -, -⟩ := saques_pagos_uma_vez genese_ia execucao_vencida enderecoA
  obtain ⟨-, -, hpaga⟩ := saques_pagos_uma_vez genese_ia execucao_resgatada enderecoA
  obtain ⟨w, hprop, -⟩ := hpaga 604801 _ (.tick htick)
  have hvazia : naFila enderecoA 604801 estadoVencido = 0 := by
    unfold naFila
    rw [hfila]
    rfl
  have hconta := hconta 604801
  rw [hvazia, Nat.zero_add] at hconta
  exact ⟨hfila, hconta, w, hprop⟩

/-- The commission of account B took effect at the tick. -/
theorem comissao_do_voto : ∃ pct ≤ 100, estadoVencido.commission.get? enderecoB = some pct := by
  obtain ⟨-, -, -, htick, -, -, -, -, hantes, hdepois⟩ := roteiro_do_voto.out
  obtain ⟨⟨⟩, htick⟩ := conclui_iff.mp htick
  have hanuncio := (comissao_anunciada genese_ia execucao_resgatada enderecoB).2
  obtain ⟨k, pct, -, hv, hpct, -⟩ := hanuncio _ _ (.tick htick) fun heq => by
    have hvencido : estadoVencido.commission.get? enderecoB =
      estadoResgatado.commission.get? enderecoB := heq
    rw [hantes, hdepois] at hvencido
    cases hvencido
  exact ⟨pct, hpct, hv⟩

end Eav7
