import Eav7.Base.Extrato
import Eav7.Quadro

/-!
# The books of the votes and of the stakes along a run

The counted votes are the sum of the allocations, the marks of the voters never pass the
accumulators, and what an account delegates and votes with is backed by its stake, but for
the withdrawals that a permission endorses and for the penalties.
-/

namespace Eav7

open Base

/-! ## The parts of the picture -/

section

variable {s t : State}

theorem stake_of_estacas (h : t.estacas = s.estacas) : t.quadro.stake = s.quadro.stake := by
  have hstake : t.estacas.stake = s.estacas.stake := congrArg Quadro.stake h
  exact hstake

theorem cedido_of_estacas (h : t.estacas = s.estacas) : t.quadro.cedido = s.quadro.cedido := by
  have hcedido : t.estacas.cedido = s.estacas.cedido := congrArg Quadro.cedido h
  exact hcedido

theorem fila_of_estacas (h : t.estacas = s.estacas) : t.unbonding = s.unbonding := by
  have hfila : t.estacas.fila = s.estacas.fila := congrArg Quadro.fila h
  exact hfila

theorem comissoes_of_estacas (h : t.estacas = s.estacas) :
    t.commission = s.commission ∧ t.pendingCommission = s.pendingCommission := by
  have hvigente : t.estacas.commission = s.estacas.commission := congrArg Quadro.commission h
  have hpendente : t.estacas.pendingCommission = s.estacas.pendingCommission :=
    congrArg Quadro.pendingCommission h
  exact ⟨hvigente, hpendente⟩

theorem comissoes_of_urna (h : t.urna = s.urna) :
    t.commission = s.commission ∧ t.pendingCommission = s.pendingCommission := by
  have hvigente : t.urna.commission = s.urna.commission := congrArg Quadro.commission h
  have hpendente : t.urna.pendingCommission = s.urna.pendingCommission :=
    congrArg Quadro.pendingCommission h
  exact ⟨hvigente, hpendente⟩

theorem votes_of_urna (h : t.urna = s.urna) : t.votes = s.votes := by
  have hvotes : t.urna.votes = s.urna.votes := congrArg Quadro.votes h
  exact hvotes

namespace Partilhado

variable {p : String} {corte comissao parcela inc : Amount}

theorem stake (h : Partilhado p corte comissao parcela inc s t) :
    t.quadro.stake = s.quadro.stake := by
  have hstake := congrArg Quadro.stake h.resto
  exact hstake

theorem cedido (h : Partilhado p corte comissao parcela inc s t) :
    t.quadro.cedido = s.quadro.cedido := by
  have hcedido := congrArg Quadro.cedido h.resto
  exact hcedido

theorem fila (h : Partilhado p corte comissao parcela inc s t) : t.unbonding = s.unbonding := by
  have hfila := congrArg Quadro.fila h.resto
  exact hfila

theorem votes (h : Partilhado p corte comissao parcela inc s t) : t.votes = s.votes := by
  have hvotes := congrArg Quadro.votes h.resto
  exact hvotes

theorem comissoes (h : Partilhado p corte comissao parcela inc s t) :
    t.commission = s.commission ∧ t.pendingCommission = s.pendingCommission := by
  have hvigente := congrArg Quadro.commission h.resto
  have hpendente := congrArg Quadro.pendingCommission h.resto
  exact ⟨hvigente, hpendente⟩

end Partilhado

end

/-! ## The books of the votes -/

def Quadro.debito (q : Quadro) (eleitor validador : String) : Amount :=
  (q.voterRewardDebt.getD eleitor ∅).getD validador 0

/-- The votes add up, no mark passes its accumulator and the commissions are percentages. -/
structure Apurado (q : Quadro) : Prop where
  votos : ∀ c, q.candidateVotes.getD c 0 = Arestas.entrada q.votes c
  semZero : ∀ c v, q.candidateVotes.get? c = some v → 0 < v
  arrumada : Arestas.Arrumada q.votes
  debito : ∀ v c, q.debito v c ≤ q.rewardAccPerVote.getD c 0
  comissoes : ComissoesValidas q

theorem ComissoesValidas.congr {q r : Quadro} (h : ComissoesValidas q)
    (hvigente : r.commission = q.commission) (hpendente : r.pendingCommission = q.pendingCommission) :
    ComissoesValidas r := by
  constructor
  · rw [hvigente]
    exact h.vigente
  · rw [hpendente]
    exact h.pendente

section

variable {amb : Ambiente} {s t : State} {conta : String}

theorem Apurado.congr {q r : Quadro} (h : Apurado q) (hvotes : r.votes = q.votes)
    (hcands : r.candidateVotes = q.candidateVotes) (hdebito : r.voterRewardDebt = q.voterRewardDebt)
    (hacc : ∀ c, q.rewardAccPerVote.getD c 0 ≤ r.rewardAccPerVote.getD c 0)
    (hcomissoes : ComissoesValidas r) : Apurado r := by
  constructor
  · rw [hvotes, hcands]
    exact h.votos
  · rw [hcands]
    exact h.semZero
  · rw [hvotes]
    exact h.arrumada
  · intro v c
    unfold Quadro.debito
    rw [hdebito]
    exact (h.debito v c).trans (hacc c)
  · exact hcomissoes

theorem Apurado.vota {m : OrdMap String Amount} (h : Apurado s.quadro) (haloc : Alocacao s conta m)
    (hvota : Votado conta m s t) (hestacas : t.estacas = s.estacas) : Apurado t.quadro := by
  have hmuda := Arestas.mudaDe_insert s.votes conta m
  have hlinha := Arestas.linha_insert s.votes conta m
  have hcomissao : t.commission = s.commission := congrArg Quadro.commission hestacas
  have hpendente : t.pendingCommission = s.pendingCommission :=
    congrArg Quadro.pendingCommission hestacas
  constructor
  · intro c
    change t.candidateVotes.getD c 0 = Arestas.entrada t.votes c
    have hentrada := hmuda.entrada c
    have hantes : Arestas.peso s.votes conta c = (s.votosDe conta).getD c 0 := rfl
    have hdepois : Arestas.peso (s.votes.insert conta m) conta c = m.getD c 0 :=
      congrArg (·.getD c 0) hlinha
    rw [hantes, hdepois] at hentrada
    have hconta := hvota.candidatos c
    have hsoma : s.candidateVotes.getD c 0 = Arestas.entrada s.votes c := h.votos c
    rw [hvota.votos]
    have hfecha : ∀ {a b x y e : ℕ}, a + x = b + y → e + x = b + y → a = e := by omega
    rw [hsoma] at hconta
    exact hfecha hconta hentrada
  · exact hvota.semZero h.semZero
  · change Arestas.Arrumada t.votes
    rw [hvota.votos]
    refine h.arrumada.muda hmuda ?_ ?_
    · intro c v hv
      rw [hlinha] at hv
      exact haloc.valores c v hv
    · intro m' hm'
      rw [OrdMap.get?_insert_self] at hm'
      cases hm'
      exact haloc.cheia
  · intro v c
    have hdebito : t.quadro.debito v c = _ := hvota.debito v c
    have hacc : t.quadro.rewardAccPerVote = s.rewardAccPerVote := hvota.acumulado
    rw [hdebito, hacc]
    split_ifs
    · exact le_refl _
    · exact h.debito v c
  · exact h.comissoes.congr hcomissao hpendente

theorem Apurado.resgata {validador : String} (h : Apurado s.quadro)
    (hresgata : Resgatado conta validador s t) (hestacas : t.estacas = s.estacas) :
    Apurado t.quadro := by
  have hcomissao : t.commission = s.commission := congrArg Quadro.commission hestacas
  have hpendente : t.pendingCommission = s.pendingCommission :=
    congrArg Quadro.pendingCommission hestacas
  have hvotes : t.quadro.votes = s.quadro.votes := hresgata.votos
  have hcands : t.quadro.candidateVotes = s.quadro.candidateVotes := hresgata.candidatos
  constructor
  · rw [hvotes, hcands]
    exact h.votos
  · rw [hcands]
    exact h.semZero
  · rw [hvotes]
    exact h.arrumada
  · intro v c
    have hdebito : t.quadro.debito v c = _ := hresgata.debito v c
    have hacc : t.quadro.rewardAccPerVote = s.rewardAccPerVote := hresgata.acumulado
    rw [hdebito, hacc]
    split_ifs
    · exact le_refl _
    · exact h.debito v c
  · exact h.comissoes.congr hcomissao hpendente

theorem get?_foldl_comissoes (es : List (String × ℕ × ℕ)) (m : OrdMap String ℕ) (v : String) :
    (es.foldl (fun m e => m.insert e.1 e.2.1) m).get? v = m.get? v ∨
      ∃ e ∈ es, e.1 = v ∧ (es.foldl (fun m e => m.insert e.1 e.2.1) m).get? v = some e.2.1 := by
  induction es generalizing m with
  | nil => exact .inl rfl
  | cons e es ih =>
    rcases ih (m.insert e.1 e.2.1) with hv | ⟨f, hf, hfv, hv⟩
    · rw [OrdMap.get?_insert] at hv
      split_ifs at hv with hev
      · exact .inr ⟨e, List.mem_cons_self, hev.symm, hv⟩
      · exact .inl hv
    · exact .inr ⟨f, List.mem_cons_of_mem _ hf, hfv, hv⟩

/-- A commission that took effect was announced for then. -/
theorem ativaComissoes_vigente (height : ℕ) (s : State) (v : String) :
    (ativaComissoes height s).commission.get? v = s.commission.get? v ∨
      ∃ pct m, s.pendingCommission.get? v = some (pct, m) ∧ m ≤ height ∧
        (ativaComissoes height s).commission.get? v = some pct := by
  rcases get?_foldl_comissoes _ s.commission v with hv | ⟨e, he, rfl, hv⟩
  · exact .inl hv
  · obtain ⟨he, hvence⟩ := List.mem_filter.mp he
    exact .inr ⟨e.2.1, e.2.2, OrdMap.mem_entries_iff.mp he, of_decide_eq_true hvence, hv⟩

theorem ativaComissoes_pendente {height : ℕ} {s : State} {v : String} {c : ℕ × ℕ}
    (h : (ativaComissoes height s).pendingCommission.get? v = some c) :
    s.pendingCommission.get? v = some c ∧ height < c.2 := by
  have h : (s.pendingCommission.filter fun _ c => !decide (c.2 ≤ height)).get? v = some c := h
  rw [OrdMap.get?_filter] at h
  obtain ⟨hv, hvence⟩ := Option.filter_eq_some_iff.mp h
  refine ⟨hv, Nat.lt_of_not_le fun hle => ?_⟩
  rw [decide_eq_true hle] at hvence
  cases hvence

theorem ComissoesValidas.ativa {height : ℕ} (h : ComissoesValidas s.quadro) :
    ComissoesValidas (ativaComissoes height s).quadro := by
  constructor
  · intro v pct hv
    rcases ativaComissoes_vigente height s v with hmesma | ⟨novo, m, hpendente, -, hnova⟩
    · exact h.vigente v pct (hmesma.symm.trans hv)
    · obtain rfl := Option.some.inj (hnova.symm.trans hv)
      exact h.pendente v _ hpendente
  · intro v c hv
    exact h.pendente v c (ativaComissoes_pendente hv).1

/-- A step keeps the books of the votes. -/
theorem PassoDoQuadro.apurado {a : Acao} (hp : PassoDoQuadro amb s a t) (h : Apurado s.quadro) :
    Apurado t.quadro := by
  cases hp with
  | alheio hfora ht => exact ht ▸ h
  | opera htipo htaxa hmuda =>
    cases hmuda with
    | parada ht => exact ht ▸ h
    | deposita conta valor ht =>
      rw [ht]
      exact h.congr rfl rfl rfl (fun _ => le_refl _) ⟨h.comissoes.vigente, h.comissoes.pendente⟩
    | cede conta cedido hcoberto ht =>
      rw [ht]
      exact h.congr rfl rfl rfl (fun _ => le_refl _) ⟨h.comissoes.vigente, h.comissoes.pendente⟩
    | saca conta valor hpos hcabe hvaga hcoberto ht =>
      rw [ht]
      exact h.congr rfl rfl rfl (fun _ => le_refl _) ⟨h.comissoes.vigente, h.comissoes.pendente⟩
    | vota haloc hvota hestacas hsaldos => exact h.vota haloc hvota hestacas
    | resgata hresgata hestacas hsaldos => exact h.resgata hresgata hestacas
    | agenda conta pct hpct ht =>
      rw [ht]
      refine h.congr rfl rfl rfl (fun _ => le_refl _) ⟨h.comissoes.vigente, fun v c hv => ?_⟩
      rw [OrdMap.get?_insert] at hv
      split_ifs at hv
      · cases hv
        exact hpct
      · exact h.comissoes.pendente v c hv
  | pune htipo hacusado hpunido hurna =>
    have hvotes : t.votes = s.votes := congrArg Quadro.votes hurna
    have hcands : t.candidateVotes = s.candidateVotes := congrArg Quadro.candidateVotes hurna
    have hdebito : t.voterRewardDebt = s.voterRewardDebt := congrArg Quadro.voterRewardDebt hurna
    have hacc : t.rewardAccPerVote = s.rewardAccPerVote := congrArg Quadro.rewardAccPerVote hurna
    have hcomissao : t.commission = s.commission := congrArg Quadro.commission hurna
    have hpendente : t.pendingCommission = s.pendingCommission :=
      congrArg Quadro.pendingCommission hurna
    refine h.congr hvotes hcands hdebito (fun c => ?_) (h.comissoes.congr hcomissao hpendente)
    exact le_of_eq (congrArg (·.getD c 0) hacc.symm)
  | matura w hprop hsaldos ht =>
    rw [ht]
    exact h.congr rfl rfl rfl (fun _ => le_refl _)
      ⟨h.comissoes.ativa.vigente, h.comissoes.ativa.pendente⟩
  | premia hreward hsoma hpartilha =>
    have hvotes : t.votes = s.votes := congrArg Quadro.votes hpartilha.resto
    have hcands : t.candidateVotes = s.candidateVotes :=
      congrArg Quadro.candidateVotes hpartilha.resto
    have hdebito : t.voterRewardDebt = s.voterRewardDebt :=
      congrArg Quadro.voterRewardDebt hpartilha.resto
    have hcomissao : t.commission = s.commission := congrArg Quadro.commission hpartilha.resto
    have hpendente : t.pendingCommission = s.pendingCommission :=
      congrArg Quadro.pendingCommission hpartilha.resto
    refine h.congr hvotes hcands hdebito (fun c => ?_) (h.comissoes.congr hcomissao hpendente)
    exact (hpartilha.acumulado c).symm ▸ Nat.le_add_right _ _

end

/-! ## What a vote takes away is there -/

section

variable {s : State} {conta : String}

/-- The error of a subtraction that would go below zero. -/
def falta : StateError := ⟨"estouro aritmético na subtração"⟩

theorem soma_semFalta {a b : Amount} {e : StateError} (h : soma a b = .error e) : e ≠ falta := by
  unfold soma at h
  split_ifs at h
  cases h
  decide

theorem creditar_semFalta (endereco : String) (valor : Amount) :
    Runs (creditar endereco valor) s (fun _ _ => True) fun e _ => e ≠ falta := by
  refine Runs.get_bind (Runs.set_bind (Runs.bind (Runs.lift_intro (fun _ _ => ?_) fun e he => ?_)))
  · exact Runs.set_intro trivial
  · exact soma_semFalta he

theorem liquidarRecompensa_semFalta {eleitor validador : String}
    (h : s.debito eleitor validador ≤ s.rewardAccPerVote.getD validador 0) :
    Runs (liquidarRecompensa eleitor validador) s (fun _ _ => True) fun e _ => e ≠ falta := by
  refine Runs.get_bind (Runs.ite (fun _ => ?_) fun _ => Runs.modify_intro trivial)
  refine Runs.lift_bind_ok (sub_eq_ok.mpr ⟨rfl, h⟩) ?_
  refine Runs.bind (Runs.lift_intro (fun total _ => ?_) fun e he => ?_)
  · refine Runs.ite (fun _ => ?_) fun _ => Runs.modify_intro trivial
    refine Runs.bind ((creditar_semFalta eleitor _).mono (fun _ _ _ => ?_) fun _ _ he => he)
    exact Runs.modify_intro trivial
  · unfold produto at he
    split_ifs at he
    cases he
    decide

theorem colocaVotos_semFalta (es : List (String × Amount)) :
    Runs (colocaVotos conta es) s (fun _ _ => True) fun e _ => e ≠ falta := by
  induction es generalizing s with
  | nil => exact Runs.pure_intro trivial
  | cons e es ih =>
    refine Runs.get_bind (Runs.bind (Runs.lift_intro (fun _ _ => ?_) fun e he => ?_))
    · exact Runs.modify_bind (Runs.modify_bind ih)
    · exact soma_semFalta he

theorem retiraVotos_semFalta {es : List (String × Amount)} (hes : (es.map Prod.fst).Nodup)
    (hdebito : ∀ c, s.debito conta c ≤ s.rewardAccPerVote.getD c 0)
    (hcandidatos : ∀ c, quanto c es ≤ s.candidateVotes.getD c 0) :
    Runs (retiraVotos conta es) s (fun _ _ => True) fun e _ => e ≠ falta := by
  induction es generalizing s with
  | nil => exact Runs.pure_intro trivial
  | cons e es ih =>
    obtain ⟨candidato, valor⟩ := e
    obtain ⟨-, hes⟩ := List.nodup_cons.mp hes
    refine Runs.bind (Runs.intro (fun _ w hw => ?_) fun e w hw => ?_)
    · obtain ⟨hliquida, hmesmos⟩ := liquidarRecompensa_ok hw
      have hcabe := hcandidatos candidato
      rw [quanto_cons, if_pos rfl] at hcabe
      refine Runs.get_bind (Runs.lift_bind_ok (sub_eq_ok.mpr ⟨rfl, ?_⟩) (Runs.modify_bind ?_))
      · rw [hmesmos]
        exact (Nat.le_add_right _ _).trans hcabe
      · have hconta : ∀ v : State, v.voterRewardDebt = w.voterRewardDebt →
            v.rewardAccPerVote = w.rewardAccPerVote → (∀ c, quanto c es ≤ v.candidateVotes.getD c 0) →
            Runs (retiraVotos conta es) v (fun _ _ => True) fun e _ => e ≠ falta := by
          intro v hdivida hacc hcands
          refine ih hes (fun c => ?_) hcands
          have hmarca := hliquida.debito conta c
          unfold State.debito at hmarca ⊢
          rw [hdivida, hacc, hliquida.acumulado, hmarca]
          split_ifs
          · exact le_refl _
          · exact hdebito c
        refine hconta _ (by split_ifs <;> rfl) (by split_ifs <;> rfl) fun c => ?_
        have hresta : ∀ {v q n : ℕ}, v + q ≤ n → q ≤ n - v := by omega
        have hc := hcandidatos c
        rw [quanto_cons] at hc
        rw [hmesmos]
        split_ifs with hpos
        · change _ ≤ (s.candidateVotes.insert candidato _).getD c 0
          rw [OrdMap.getD_insert]
          split_ifs with hcc
          · rw [← hcc]
            rw [if_pos hcc.symm] at hc
            exact hresta hc
          · exact (Nat.le_add_left _ _).trans hc
        · change _ ≤ (s.candidateVotes.erase candidato).getD c 0
          rw [OrdMap.getD_erase]
          split_ifs with hcc
          · rw [← hcc] at hpos
            rw [if_pos hcc.symm] at hc
            exact (hresta hc).trans (Nat.le_of_not_lt hpos)
          · exact (Nat.le_add_left _ _).trans hc
    · exact (liquidarRecompensa_semFalta (hdebito candidato)).error hw

end

/-! ## Along a run -/

section

variable {amb : Ambiente} {s₀ s t : State} {passado : List (State × Acao)} {a : Acao}

theorem Genese.urna (h : Genese amb s₀) : s₀.urna = ({} : State).urna := by
  have : Cego State.urna .accounts := cego_urna (by decide)
  have : Cego State.urna .bridgeRelayers := cego_urna (by decide)
  have : Cego State.urna .vesting := cego_urna (by decide)
  have : Cego State.urna .bridgeSourceCommittees := cego_urna (by decide)
  exact h.le

theorem Genese.delegations (h : Genese amb s₀) : s₀.delegations = ∅ := by
  have hcego : ∀ {c : Campo}, c ≠ .delegations → Cego State.delegations c := by
    intro c hc
    constructor
    intro s
    cases c <;> first | rfl | exact absurd rfl hc
  have : Cego State.delegations .accounts := hcego (by decide)
  have : Cego State.delegations .bridgeRelayers := hcego (by decide)
  have : Cego State.delegations .vesting := hcego (by decide)
  have : Cego State.delegations .bridgeSourceCommittees := hcego (by decide)
  exact h.le

theorem Genese.apurado (h : Genese amb s₀) : Apurado s₀.quadro := by
  have hvotes : s₀.votes = ∅ := congrArg Quadro.votes h.urna
  have hcands : s₀.candidateVotes = ∅ := congrArg Quadro.candidateVotes h.urna
  have hdebito : s₀.voterRewardDebt = ∅ := congrArg Quadro.voterRewardDebt h.urna
  have hcomissao : s₀.commission = ∅ := congrArg Quadro.commission h.urna
  have hpendente : s₀.pendingCommission = ∅ := congrArg Quadro.pendingCommission h.urna
  have hvazio : Apurado ({} : State).quadro := by
    constructor
    · exact fun _ => rfl
    · exact fun _ _ hv => (by cases hv)
    · exact ⟨fun _ _ _ hv => (by cases hv), fun _ _ hm => (by cases hm)⟩
    · exact fun _ _ => le_refl _
    · exact ⟨fun _ _ hv => (by cases hv), fun _ _ hv => (by cases hv)⟩
  refine hvazio.congr hvotes hcands hdebito (fun c => Nat.zero_le _) ?_
  exact hvazio.comissoes.congr hcomissao hpendente

theorem apurado_of_execucao (h₀ : Genese amb s₀) (h : Execucao amb s₀ passado s) :
    Apurado s.quadro := by
  have hambos : Lastro s ∧ Apurado s.quadro := by
    refine h.invariante (I := fun s => Lastro s ∧ Apurado s.quadro) ⟨h₀.lastro, h₀.apurado⟩ ?_
    intro a s t hs ha
    exact ⟨ha.lastro hs.1, (ha.passoDoQuadro hs.1 hs.2.comissoes).apurado hs.2⟩
  exact hambos.2

/-- What an action does after a run. -/
theorem passoDoQuadro_of_execucao (h₀ : Genese amb s₀) (h : Execucao amb s₀ passado s)
    (ha : a.Aceita amb s t) : PassoDoQuadro amb s a t :=
  ha.passoDoQuadro (lastro_of_execucao h₀ h) (apurado_of_execucao h₀ h).comissoes

/-- A vote that passed its checks takes away no more than there is. -/
theorem Apurado.aplicarVoto_semFalta {cr : Cripto} {conta : String} {votos : Option JsonValue}
    {r : List (String × Amount)} (h : Apurado s.quadro) (hr : validarVoto cr s conta votos = .ok r) :
    Runs (aplicarVoto cr conta votos) s (fun _ _ => True) fun e _ => e ≠ falta := by
  have hretira : Runs (retiraVotos conta (s.votosDe conta).entries) s (fun _ _ => True)
      fun e _ => e ≠ falta := by
    refine retiraVotos_semFalta (s.votosDe conta).nodup_keys (h.debito conta) fun c => ?_
    have hsoma : s.candidateVotes.getD c 0 = Arestas.entrada s.votes c := h.votos c
    rw [quanto_entries, hsoma]
    exact Arestas.peso_le_entrada s.votes conta c
  refine Runs.get_bind (Runs.lift_bind_ok hr (Runs.bind (hretira.mono ?_ fun _ _ he => he)))
  intro _ v _
  refine Runs.bind ((colocaVotos_semFalta r).mono (fun _ _ _ => ?_) fun _ _ he => he)
  exact Runs.modify_intro trivial

/-- In every reachable state the votes counted for a candidate are the sum of what the
accounts allocated to it; only candidates with votes are counted; no account votes for itself;
no voter is marked beyond what its candidate paid; and so neither a vote nor a claim ever
takes away more than there is. -/
theorem votos_apurados (h₀ : Genese amb s₀) (h : Execucao amb s₀ passado s) :
    (∀ c, s.candidateVotes.getD c 0 = s.votes.total fun _ m => m.getD c 0) ∧
      (∀ c n, s.candidateVotes.get? c = some n → 0 < n) ∧
      (∀ v c n, (s.votosDe v).get? c = some n → 0 < n ∧ c ≠ v) ∧
      (∀ v c, s.debito v c ≤ s.rewardAccPerVote.getD c 0) ∧
      (∀ cr conta votos r e t, validarVoto cr s conta votos = .ok r →
        aplicarVoto cr conta votos s = .error e t → e ≠ falta) ∧
      ∀ v c e t, liquidarRecompensa v c s = .error e t → e ≠ falta := by
  have hs := apurado_of_execucao h₀ h
  refine ⟨hs.votos, hs.semZero, hs.arrumada.aresta, hs.debito, ?_, ?_⟩
  · exact fun cr conta votos r e t hr he => (hs.aplicarVoto_semFalta hr).error he
  · exact fun v c e t he => (liquidarRecompensa_semFalta (hs.debito v c)).error he

/-! ## What stands behind delegations and votes -/

/-- The action executes a withdrawal of the account that a permission endorses. -/
def Avaliza (amb : Ambiente) (s : State) (a : Acao) (x : String) : Prop :=
  ∃ tx height blockTs valor, a = .transacao tx height blockTs ∧
    GovTx.Avalizado amb s tx height blockTs x valor

/-- The action accuses the account. -/
def Acusa (a : Acao) (x : String) : Prop :=
  ∃ tx height blockTs altura, a = .transacao tx height blockTs ∧
    tx.txType = "SLASH_DOUBLE_SIGN" ∧ acusadoDe tx = some (x, altura)

/-- What an action does to the stake of one account: it falls only by a withdrawal or a
penalty, and what it delegates and votes with rises only within it. -/
structure MudaEstaca (amb : Ambiente) (s : State) (a : Acao) (t : State) (x : String) : Prop where
  baixa : s.quadro.stake x ≤ t.quadro.stake x ∨ Avaliza amb s a x ∨ Acusa a x ∨
    s.quadro.cedido x ≤ t.quadro.stake x ∧ Arestas.saida s.votes x ≤ t.quadro.stake x
  cedido : t.quadro.cedido x ≤ s.quadro.cedido x ∨ t.quadro.cedido x ≤ t.quadro.stake x
  votos : Arestas.saida t.votes x ≤ Arestas.saida s.votes x ∨
    Arestas.saida t.votes x ≤ t.quadro.stake x

/-- Nothing of the account moves but its stake, and that rises. -/
theorem MudaEstaca.sobe {x : String} (hstake : s.quadro.stake x ≤ t.quadro.stake x)
    (hcedido : t.quadro.cedido x = s.quadro.cedido x) (hvotos : t.votes = s.votes) :
    MudaEstaca amb s a t x := by
  refine ⟨.inl hstake, .inl hcedido.le, .inl ?_⟩
  rw [hvotos]

theorem update_of_eq {f g : String → Amount} {conta x : String} {v : Amount}
    (h : g = Function.update f conta v) : g x = if x = conta then v else f x := by
  rw [h, Function.update_apply]

theorem MudaQuadro.estaca {tx : Tx} {height blockTs : ℕ} {taxa : String → ℕ}
    (h : MudaQuadro height taxa (GovTx.Avalizado amb s tx height blockTs) s t) (x : String) :
    MudaEstaca amb s (.transacao tx height blockTs) t x := by
  cases h with
  | parada ht =>
    have hvotos : t.votes = s.votes := congrArg Quadro.votes ht
    exact .sobe (le_of_eq (by rw [ht])) (by rw [ht]) hvotos
  | deposita conta valor ht =>
    have hvotos : t.votes = s.votes := congrArg Quadro.votes ht
    have hstake : t.quadro.stake = Function.update s.quadro.stake conta _ :=
      congrArg Quadro.stake ht
    have hcedido : t.quadro.cedido = s.quadro.cedido := by rw [ht]
    refine .sobe ?_ (congrFun hcedido x) hvotos
    rw [update_of_eq hstake]
    split_ifs with hx
    · rw [hx]
      exact Nat.le_add_right _ _
    · exact le_refl _
  | cede conta cedido hcoberto ht =>
    have hvotos : t.votes = s.votes := congrArg Quadro.votes ht
    have hstake : t.quadro.stake = s.quadro.stake := by rw [ht]
    have hcedido : t.quadro.cedido = Function.update s.quadro.cedido conta cedido :=
      congrArg Quadro.cedido ht
    refine ⟨.inl (congrFun hstake x).ge, ?_, .inl (by rw [hvotos])⟩
    rw [update_of_eq hcedido, hstake]
    split_ifs with hx
    · rw [hx]
      exact hcoberto.symm
    · exact .inl (le_refl _)
  | saca conta valor hpos hcabe hvaga hcoberto ht =>
    have hvotos : t.votes = s.votes := congrArg Quadro.votes ht
    have hstake : t.quadro.stake = Function.update s.quadro.stake conta _ :=
      congrArg Quadro.stake ht
    have hcedido : t.quadro.cedido = s.quadro.cedido := by rw [ht]
    refine ⟨?_, .inl (congrFun hcedido x).le, .inl (by rw [hvotos])⟩
    rw [update_of_eq hstake]
    split_ifs with hx
    · rw [hx]
      rcases hcoberto with hendosso | hpisos
      · exact .inr (.inl ⟨tx, height, blockTs, valor, rfl, hendosso⟩)
      · exact .inr (.inr (.inr hpisos))
    · exact .inl (le_refl _)
  | @vota conta m haloc hvota hestacas hsaldos =>
    have hstake := stake_of_estacas hestacas
    have hcedido := cedido_of_estacas hestacas
    refine ⟨.inl (congrFun hstake x).ge, .inl (congrFun hcedido x).le, ?_⟩
    rw [hvota.votos]
    by_cases hx : x = conta
    · right
      unfold Arestas.saida
      rw [hx, Arestas.linha_insert, hstake]
      exact haloc.lastro
    · left
      rw [(Arestas.mudaDe_insert _ _ _).saida hx]
  | resgata hresgata hestacas hsaldos =>
    exact .sobe (congrFun (stake_of_estacas hestacas) x).ge
      (congrFun (cedido_of_estacas hestacas) x) hresgata.votos
  | agenda conta pct hpct ht =>
    have hvotos : t.votes = s.votes := congrArg Quadro.votes ht
    have hstake : t.quadro.stake = s.quadro.stake := by rw [ht]
    have hcedido : t.quadro.cedido = s.quadro.cedido := by rw [ht]
    exact .sobe (congrFun hstake x).ge (congrFun hcedido x) hvotos

theorem PassoDoQuadro.estaca (hp : PassoDoQuadro amb s a t) (x : String) :
    MudaEstaca amb s a t x := by
  cases hp with
  | alheio hfora ht =>
    have hvotos : t.votes = s.votes := congrArg Quadro.votes ht
    exact .sobe (le_of_eq (by rw [ht])) (by rw [ht]) hvotos
  | opera htipo htaxa hmuda => exact hmuda.estaca x
  | @pune tx height blockTs _ infrator altura taxa htipo hacusado hpunido hurna =>
    have hvotos := votes_of_urna hurna
    by_cases hx : x = infrator
    · refine ⟨.inr (.inr (.inl ⟨tx, height, blockTs, altura, rfl, htipo, hx ▸ hacusado⟩)), ?_,
        .inl (by rw [hvotos])⟩
      rw [hx]
      exact .inr (hpunido.saida.trans_le (min_le_right _ _))
    · obtain ⟨hstake, hcedido⟩ := hpunido.alheios x hx
      exact .sobe hstake.ge hcedido hvotos
  | matura w hprop hsaldos ht =>
    have hvotos : t.votes = s.votes := congrArg Quadro.votes ht
    have hstake : t.quadro.stake = s.quadro.stake := by rw [ht]
    have hcedido : t.quadro.cedido = s.quadro.cedido := by rw [ht]
    exact .sobe (congrFun hstake x).ge (congrFun hcedido x) hvotos
  | premia hreward hsoma hpartilha =>
    exact .sobe (congrFun hpartilha.stake x).ge (congrFun hpartilha.cedido x) hpartilha.votes

/-- A penalty cuts back what its account delegates. -/
theorem PassoDoQuadro.acusada {x : String} (hp : PassoDoQuadro amb s a t) (h : Acusa a x) :
    t.quadro.cedido x ≤ t.quadro.stake x := by
  obtain ⟨tx, height, blockTs, altura, rfl, htipo, hacusado⟩ := h
  cases hp with
  | alheio hfora ht => exact absurd htipo hfora
  | opera hoperado htaxa hmuda => exact absurd htipo hoperado
  | pune htipo' hacusado' hpunido hurna =>
    rw [hacusado] at hacusado'
    cases hacusado'
    exact hpunido.saida.trans_le (min_le_right _ _)

/-- In every reachable state what each account says it delegates and receives is the sum of
the delegations. What an account delegates is covered by its stake unless a permission
endorsed a withdrawal of it, and so are its votes unless it was accused besides. -/
theorem estaca_lastreia (h₀ : Genese amb s₀) (h : Execucao amb s₀ passado s) (x : String) :
    (s.account x).delegatedOut = (s.delegations.getD x ∅).total (fun _ v => v) ∧
      (s.account x).delegatedIn = s.delegations.total (fun _ m => m.getD x 0) ∧
      ((∀ y ∈ passado, ¬ Avaliza amb y.1 y.2 x) →
        (s.account x).delegatedOut ≤ (s.account x).staked ∧
        ((∀ y ∈ passado, ¬ Acusa y.2 x) →
          (s.votosDe x).total (fun _ v => v) ≤ (s.account x).staked)) := by
  have hs := lastro_of_execucao h₀ h
  refine ⟨hs.saida x, hs.entrada x, fun haval => ⟨?_, fun hacusa => ?_⟩⟩
  · induction h with
    | inicio =>
      rw [hs.saida x, h₀.delegations]
      exact Nat.zero_le _
    | @segue passado s t a h ha ih =>
      obtain ⟨haval, hantes⟩ := List.forall_mem_cons.mp haval
      have hcoberto := ih (lastro_of_execucao h₀ h) hantes
      have hp := passoDoQuadro_of_execucao h₀ h ha
      have hmuda := hp.estaca x
      rcases hmuda.cedido with hcedido | hcedido
      · rcases hmuda.baixa with hsobe | hendosso | hacusada | ⟨hpiso, -⟩
        · exact hcedido.trans (hcoberto.trans hsobe)
        · exact absurd hendosso haval
        · exact hp.acusada hacusada
        · exact hcedido.trans hpiso
      · exact hcedido
  · induction h with
    | inicio =>
      have hvazio : s₀.votes = ∅ := votes_of_urna h₀.urna
      unfold State.votosDe
      rw [hvazio]
      exact Nat.zero_le _
    | @segue passado s t a h ha ih =>
      obtain ⟨haval, hantes⟩ := List.forall_mem_cons.mp haval
      obtain ⟨hacusa, hantes'⟩ := List.forall_mem_cons.mp hacusa
      have hcoberto := ih (lastro_of_execucao h₀ h) hantes hantes'
      have hmuda := (passoDoQuadro_of_execucao h₀ h ha).estaca x
      rcases hmuda.votos with hvotos | hvotos
      · rcases hmuda.baixa with hsobe | hendosso | hacusada | ⟨-, hpiso⟩
        · exact hvotos.trans (hcoberto.trans hsobe)
        · exact absurd hendosso haval
        · exact absurd hacusada hacusa
        · exact hvotos.trans hpiso
      · exact hvotos

end

/-! ## An account that votes and withdraws -/

def camposVoto : Tx :=
  { txType := "VOTE", de := "", nonce := 1, timestamp := 1, fee := "0"
    data := some (.map [("votes", .map [(enderecoB, .str "1000000000")])]) }

def camposSaque : Tx :=
  { txType := "UNSTAKE", de := "", nonce := 2, timestamp := 1, amount := "500000000", fee := "0"
    data := some (.map []) }

def camposComissao : Tx :=
  { txType := "SET_COMMISSION", de := "", nonce := 1, timestamp := 1, fee := "0"
    data := some (.map [("percent", .int 10)]) }

def camposResgateDoVoto : Tx :=
  { txType := "CLAIM_VOTER_REWARD", de := "", nonce := 3, timestamp := 1, fee := "0"
    data := some (.map [("validator", .str enderecoB)]) }

/-- Account A votes for B and withdraws from its stake, and B announces a commission. -/
def roteiroDoVoto : List Ato :=
  [linha 0 enderecoA camposVoto .vote 1 1 1024, linha 0 enderecoA camposSaque .unstake 1 2 2048,
    linha 1 enderecoB camposComissao .setCommission 1 1 1024]

def roteiroDoResgate : List Ato := [linha 0 enderecoA camposResgateDoVoto .claimVoterReward 1 3 3072]

def blocoDeB : Block :=
  { height := 1, timestamp := 1, previousHash := "", txRoot := "", txCount := 0
    producer := enderecoB, publicKey := none, pqPublicKey := none, stateRoot := none
    signature := "", pqSignature := "", hash := "", transactions := [] }

def estadoVotado : State := encena ambienteIdeal estadoIa roteiroDoVoto
def estadoPremiado : State := fim (emiteRecompensa blocoDeB) estadoVotado
def estadoResgatado : State := encena ambienteIdeal estadoPremiado roteiroDoResgate
def estadoVencido : State := fim (blockTick 604801) estadoResgatado

def passadoResgatado : List (State × Acao) :=
  passadoDe ambienteIdeal estadoPremiado ((estadoVotado, .emite blocoDeB) ::
    passadoDe ambienteIdeal estadoIa [] roteiroDoVoto) roteiroDoResgate

def passadoVencido : List (State × Acao) := (estadoResgatado, .tick 604801) :: passadoResgatado

instance roteiro_do_voto : Fact (ensaia ambienteIdeal estadoIa roteiroDoVoto = true ∧
    conclui (emiteRecompensa blocoDeB) estadoVotado = true ∧
    ensaia ambienteIdeal estadoPremiado roteiroDoResgate = true ∧
    conclui (blockTick 604801) estadoResgatado = true ∧
    estadoVencido.candidateVotes.getD enderecoB 0 = 1000000000 ∧
    (estadoVencido.account enderecoA).staked = 2500000000 ∧
    estadoVencido.balanceOf enderecoA = 1012800000 ∧ estadoVencido.unbonding = [] ∧
    estadoResgatado.commission.get? enderecoB = none ∧
    estadoVencido.commission.get? enderecoB = some 10) where
  out := by
    unfold estadoVencido estadoResgatado estadoPremiado estadoVotado
    rw [ambienteIdeal_eq]
    decide +kernel

theorem execucao_resgatada :
    Execucao ambienteIdeal estadoIa passadoResgatado estadoResgatado := by
  obtain ⟨hvoto, hemite, hresgate, -⟩ := roteiro_do_voto.out
  have hcontas : ∀ ato ∈ roteiroDoVoto ++ roteiroDoResgate,
      (ato.chave, ato.endereco) ∈ contasIa := by
    simp [roteiroDoVoto, roteiroDoResgate, linha, contasIa]
  have hvotado := execucao_ia (fun ato hato => hcontas ato (List.mem_append_left _ hato)) hvoto
  obtain ⟨⟨⟩, hemite⟩ := conclui_iff.mp hemite
  have hpremiado := hvotado.segue (Acao.Aceita.emite hemite)
  refine execucao_de_ensaia digere_ideal (fun ato hato => ?_) hpremiado hresgate
  exact capaz_ia (hcontas ato (List.mem_append_right _ hato))

theorem execucao_vencida : Execucao ambienteIdeal estadoIa passadoVencido estadoVencido := by
  obtain ⟨-, -, -, htick, -⟩ := roteiro_do_voto.out
  obtain ⟨⟨⟩, htick⟩ := conclui_iff.mp htick
  exact execucao_resgatada.segue (.tick htick)

theorem votos_apurados_no_voto : estadoVencido.candidateVotes.getD enderecoB 0 = 1000000000 ∧
    (estadoVencido.votes.total fun _ m => m.getD enderecoB 0) = 1000000000 := by
  obtain ⟨hsoma, -⟩ := votos_apurados genese_ia execucao_vencida
  obtain ⟨-, -, -, -, hvotos, -⟩ := roteiro_do_voto.out
  exact ⟨hvotos, (hsoma enderecoB).symm.trans hvotos⟩

def tiposDoVoto : List String := ["VOTE", "UNSTAKE", "SET_COMMISSION", "CLAIM_VOTER_REWARD"]

theorem tipos_do_voto {y : State × Acao} (hy : y ∈ passadoVencido) {tx : Tx} {height blockTs : ℕ}
    (hacao : y.2 = .transacao tx height blockTs) : tx.txType ∈ tiposDoVoto := by
  have htipos : (passadoVencido.all fun y =>
      y.2.tx?.all fun tx => decide (tx.txType ∈ tiposDoVoto)) = true := by
    decide +kernel
  have hy := List.all_eq_true.mp htipos y hy
  rw [hacao] at hy
  exact of_decide_eq_true hy

theorem estaca_lastreia_no_voto :
    (estadoVencido.account enderecoA).delegatedOut ≤ 2500000000 ∧
      (estadoVencido.votosDe enderecoA).total (fun _ v => v) ≤ 2500000000 := by
  obtain ⟨-, -, hcoberta⟩ := estaca_lastreia genese_ia execucao_vencida enderecoA
  obtain ⟨-, -, -, -, -, hstake, -⟩ := roteiro_do_voto.out
  rw [hstake] at hcoberta
  have hnenhum : ∀ n ∈ tiposDoVoto, n ≠ "SLASH_DOUBLE_SIGN" ∧
      Tipo.deTexto n ≠ some .multisigPropose ∧ Tipo.deTexto n ≠ some .multisigApprove := by decide
  obtain ⟨hcedido, hvotos⟩ := hcoberta fun y hy hendosso => by
    obtain ⟨tx, height, blockTs, valor, hacao, fee, e, hendossa, -⟩ := hendosso
    obtain ⟨-, hpropoe, haprova⟩ := hnenhum _ (tipos_do_voto hy hacao)
    cases hendossa with
    | proposta htipo => exact hpropoe htipo
    | aprovacao htipo => exact haprova htipo
  refine ⟨hcedido, hvotos fun y hy hacusa => ?_⟩
  obtain ⟨tx, height, blockTs, altura, hacao, htipo, -⟩ := hacusa
  exact (hnenhum _ (tipos_do_voto hy hacao)).1 htipo

end Eav7
