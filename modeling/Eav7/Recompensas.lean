import Eav7.Apuracao
import Eav7.Base.Extrato

/-!
# Solvency of the rewards of voters

A block pays its producer at once and its voters through an accumulator, from which each of
them is credited when it votes again or claims. Three divisions round on the way. Along a
run, what the voters of a producer, the producer and the treasury got for its blocks exceeds
the rewards of these blocks by less than one unit for each block, and what one voter got is
within what the accumulator grew while its votes stood.
-/

namespace Eav7

open Base

/-- The votes of an allocation for one candidate. -/
def votosEm (p : String) (m : OrdMap String Amount) : ℕ := m.getD p 0

/-- What the voters of a candidate are owed, in the scale of the accumulator. -/
def State.aPagar (s : State) (p : String) : ℕ :=
  Acumulador.pendente (votosEm p) s.votes (s.debito · p) (s.rewardAccPerVote.getD p 0)

/-- What one voter of a candidate is owed, in the scale of the accumulator. -/
def State.devidoA (s : State) (v p : String) : ℕ :=
  (s.votosDe v).getD p 0 * (s.rewardAccPerVote.getD p 0 - s.debito v p)

/-- What a step credits to a voter of a candidate: the rise of its mark on the votes that
the step found. -/
def creditadoA (v p : String) (_ : Acao) (s t : State) : ℕ :=
  (s.votosDe v).getD p 0 * (t.debito v p - s.debito v p) / Config.rewardScale

/-- What a step credits to all voters of a candidate. -/
def creditadoPor (p : String) (a : Acao) (s t : State) : ℕ :=
  s.votes.total fun v _ => creditadoA v p a s t

/-- The action emits the reward of a block of the producer. -/
def Acao.premia (p : String) : Acao → Bool
  | .emite block => block.validator == p
  | _ => false

/-- What a block of the producer pays at once, to it and to the treasury. -/
def ganho (p : String) (a : Acao) (s t : State) : ℕ :=
  if a.premia p then (t.balanceOf p - s.balanceOf p) + (t.treasury - s.treasury) else 0

/-- The rewards of the blocks of a producer. -/
def recompensa (p : String) (a : Acao) (s _ : State) : ℕ :=
  match a with
  | .emite block =>
    if block.validator = p then (s.blockReward block.height).toOption.getD 0 else 0
  | _ => 0

/-- What the accumulator of a candidate grew by, on the votes of one voter. -/
def rendido (v p : String) (_ : Acao) (s t : State) : ℕ :=
  (s.votosDe v).getD p 0 * (t.rewardAccPerVote.getD p 0 - s.rewardAccPerVote.getD p 0)

/-! ## Steps that settle -/

section

variable {amb : Ambiente} {s t : State} {a : Acao} {conta p v : String}

/-- The marks and votes of one account may have moved: each mark stands where it stood, with
the votes it had, or at the accumulator. -/
structure Acertado (conta : String) (s t : State) : Prop where
  votos : Arestas.MudaDe conta s.votes t.votes
  acumulado : t.rewardAccPerVote = s.rewardAccPerVote
  alheios : ∀ v ≠ conta, ∀ c, t.debito v c = s.debito v c
  proprios : ∀ c, t.debito conta c = s.rewardAccPerVote.getD c 0 ∨
    t.debito conta c = s.debito conta c ∧ (t.votosDe conta).getD c 0 = (s.votosDe conta).getD c 0

theorem Acertado.parado (hvotos : t.votes = s.votes) (hacc : t.rewardAccPerVote = s.rewardAccPerVote)
    (hdebito : t.voterRewardDebt = s.voterRewardDebt) : Acertado conta s t := by
  have hmarcas : ∀ v c, t.debito v c = s.debito v c := by
    intro v c
    unfold State.debito
    rw [hdebito]
  refine ⟨fun v _ => by rw [hvotos], hacc, fun v _ => hmarcas v, fun c => .inr ⟨hmarcas conta c, ?_⟩⟩
  unfold State.votosDe
  rw [hvotos]

theorem Votado.acertado {m : OrdMap String Amount} (h : Votado conta m s t) :
    Acertado conta s t := by
  refine ⟨?_, h.acumulado, fun v hv c => ?_, fun c => ?_⟩
  · rw [h.votos]
    exact Arestas.mudaDe_insert _ _ _
  · rw [h.debito, if_neg fun hmem => hv hmem.1]
  · by_cases hc : c ∈ (s.votosDe conta).keys ∨ c ∈ m.keys
    · left
      rw [h.debito, if_pos ⟨rfl, hc⟩]
    · right
      refine ⟨?_, ?_⟩
      · rw [h.debito, if_neg fun hmem => hc hmem.2]
      · have hnovos : t.votosDe conta = m := by
          unfold State.votosDe
          rw [h.votos]
          exact Arestas.linha_insert _ _ _
        obtain ⟨hantes, hdepois⟩ := not_or.mp hc
        rw [hnovos, OrdMap.getD_of_not_mem_keys hantes, OrdMap.getD_of_not_mem_keys hdepois]

theorem Resgatado.acertado {validador : String} (h : Resgatado conta validador s t) :
    Acertado conta s t := by
  refine ⟨fun v _ => by rw [h.votos], h.acumulado, fun v hv c => ?_, fun c => ?_⟩
  · rw [h.debito, if_neg fun hmem => hv hmem.1]
  · by_cases hc : c = validador
    · left
      rw [h.debito, if_pos ⟨rfl, hc⟩]
    · right
      unfold State.votosDe
      rw [h.debito, if_neg fun hmem => hc hmem.2, h.votos]
      exact ⟨rfl, rfl⟩

theorem devidoA_eq (s : State) (v p : String) : Acumulador.devido (votosEm p) s.votes
    (s.debito · p) (s.rewardAccPerVote.getD p 0) v = s.devidoA v p :=
  Acumulador.devido_eq_getD (d := ∅) rfl v

/-- What is credited is owed no more. -/
theorem credita_do_devido (hacc : t.rewardAccPerVote = s.rewardAccPerVote)
    (hmarca : t.debito v p = s.debito v p ∧ (t.votosDe v).getD p 0 = (s.votosDe v).getD p 0 ∨
      t.debito v p = s.rewardAccPerVote.getD p 0) :
    t.devidoA v p + Config.rewardScale * creditadoA v p a s t ≤ s.devidoA v p := by
  unfold State.devidoA creditadoA
  rw [hacc]
  rcases hmarca with ⟨hmarca, hvotos⟩ | hmarca
  · rw [hmarca, hvotos, Nat.sub_self, Nat.mul_zero, Nat.zero_div, Nat.mul_zero, Nat.add_zero]
  · rw [hmarca, Nat.sub_self, Nat.mul_zero, Nat.zero_add]
    exact Nat.mul_div_le _ _

theorem creditadoA_de_alheio (hmarca : t.debito v p = s.debito v p) :
    creditadoA v p a s t = 0 := by
  unfold creditadoA
  rw [hmarca, Nat.sub_self, Nat.mul_zero, Nat.zero_div]

namespace Acertado

theorem credita (h : Acertado conta s t) :
    t.devidoA v p + Config.rewardScale * creditadoA v p a s t ≤ s.devidoA v p := by
  refine credita_do_devido h.acumulado ?_
  by_cases hv : v = conta
  · rw [hv]
    exact (h.proprios p).symm
  · left
    refine ⟨h.alheios v hv p, ?_⟩
    have hlinha := h.votos.linha hv
    exact congrArg (·.getD p 0) hlinha

/-- Only the account that was settled is credited. -/
theorem creditado_le (h : Acertado conta s t) : creditadoPor p a s t ≤ creditadoA conta p a s t := by
  unfold creditadoPor
  rw [OrdMap.total_eq_weight fun v hv _ _ => creditadoA_de_alheio (h.alheios v hv p)]
  unfold OrdMap.weight
  cases s.votes.get? conta with
  | none => exact Nat.zero_le _
  | some m => exact le_refl _

theorem credita_todos (h : Acertado conta s t) :
    t.aPagar p + Config.rewardScale * creditadoPor p a s t ≤ s.aPagar p := by
  have hmuda : Acumulador.pendente (votosEm p) t.votes (t.debito · p)
        (s.rewardAccPerVote.getD p 0) + _ = _ + _ :=
    Acumulador.pendente_muda h.votos fun v hv => h.alheios v hv p
  have hcredita := h.credita (a := a) (p := p) (v := conta)
  have hcreditado := Nat.mul_le_mul_left Config.rewardScale (h.creditado_le (a := a) (p := p))
  rw [devidoA_eq] at hmuda
  have hdepois : Acumulador.devido (votosEm p) t.votes (t.debito · p)
      (s.rewardAccPerVote.getD p 0) conta = t.devidoA conta p := by
    rw [← h.acumulado]
    exact devidoA_eq t conta p
  rw [hdepois] at hmuda
  have hpago : t.aPagar p = Acumulador.pendente (votosEm p) t.votes (t.debito · p)
      (s.rewardAccPerVote.getD p 0) := by
    unfold State.aPagar
    rw [h.acumulado]
  have hsoma : ∀ {x y c c' d e : ℕ}, x + d = y + e → e + c ≤ d → c' ≤ c → x + c' ≤ y := by omega
  rw [hpago]
  exact hsoma hmuda hcredita hcreditado

end Acertado

/-! ## Steps that pay -/

namespace Partilhado

variable {corte comissao parcela inc : Amount}

theorem marcas (h : Partilhado p corte comissao parcela inc s t) (v c : String) :
    t.debito v c = s.debito v c := by
  have hdebito := congrArg Quadro.voterRewardDebt h.resto
  have hdebito : t.voterRewardDebt = s.voterRewardDebt := hdebito
  unfold State.debito
  rw [hdebito]

theorem creditado_zero (h : Partilhado p corte comissao parcela inc s t) (c : String) :
    creditadoPor c a s t = 0 := by
  unfold creditadoPor
  exact OrdMap.total_eq_zero fun v _ _ => creditadoA_de_alheio (h.marcas v c)

/-- The accumulator grows by no more than the share of the voters. -/
theorem inc_le (h : Partilhado p corte comissao parcela inc s t) :
    inc * s.candidateVotes.getD p 0 ≤ parcela * Config.rewardScale := by
  rw [h.inc_eq]
  exact Nat.div_mul_le_self _ _

/-- What a block of the producer pays at once and owes to its voters, against its reward. -/
theorem paga (h : Partilhado p corte comissao parcela inc s t) (hs : Apurado s.quadro) :
    t.aPagar p + Config.rewardScale * (t.balanceOf p - s.balanceOf p + (t.treasury - s.treasury)) ≤
      s.aPagar p + Config.rewardScale * (corte + comissao + parcela) + (Config.rewardScale - 1) := by
  have hsobe : t.aPagar p = s.aPagar p + inc * s.candidateVotes.getD p 0 := by
    have hpaga : Acumulador.pendente (votosEm p) s.votes (s.debito · p)
        (s.rewardAccPerVote.getD p 0 + inc) = _ + inc * s.votes.total fun _ m => votosEm p m :=
      Acumulador.pendente_paga (hs.debito · p)
    have hsoma : s.candidateVotes.getD p 0 = s.votes.total fun _ m => m.getD p 0 := hs.votos p
    have hacc : t.rewardAccPerVote.getD p 0 = s.rewardAccPerVote.getD p 0 + inc := by
      rw [h.acumulado, if_pos rfl]
    have hmarcas : (t.debito · p) = (s.debito · p) := funext fun v => h.marcas v p
    unfold State.aPagar
    rw [h.votes, hmarcas, hacc, hsoma]
    exact hpaga
  have hsaldo : t.balanceOf p - s.balanceOf p =
      comissao + (parcela - inc * s.candidateVotes.getD p 0 / Config.rewardScale) := by
    rw [h.saldos, if_pos rfl, Nat.add_sub_cancel_left]
  have hcorte : t.treasury - s.treasury = corte := by
    rw [h.tesouraria, Nat.add_sub_cancel_left]
  have hresto := Nat.div_add_mod (inc * s.candidateVotes.getD p 0) Config.rewardScale
  have hmenor := Nat.mod_lt (inc * s.candidateVotes.getD p 0) (by decide : 0 < Config.rewardScale)
  have hcabe : inc * s.candidateVotes.getD p 0 / Config.rewardScale ≤ parcela :=
    Nat.div_le_of_le_mul ((h.inc_le).trans_eq (Nat.mul_comm _ _))
  rw [hsobe, hsaldo, hcorte]
  generalize inc * s.candidateVotes.getD p 0 = pago at hresto hmenor hcabe ⊢
  have hparcela := Nat.add_sub_of_le hcabe
  generalize parcela - pago / Config.rewardScale = sobra at hparcela ⊢
  rw [← hparcela]
  generalize pago / Config.rewardScale = quociente at hresto ⊢
  generalize Config.rewardScale = escala at *
  have hconta : escala * (corte + comissao + (quociente + sobra)) =
      escala * (comissao + sobra + corte) + escala * quociente := by
    ring
  rw [hconta]
  have hfecha : ∀ {x y q r e g : ℕ}, q + r = g → r < e → x + g + y ≤ x + (y + q) + (e - 1) := by
    omega
  exact hfecha hresto hmenor

/-- The voters of the others are owed what they were. -/
theorem alheia (h : Partilhado p corte comissao parcela inc s t) {c : String} (hc : c ≠ p) :
    t.aPagar c = s.aPagar c ∧ ∀ v, t.devidoA v c = s.devidoA v c := by
  have hacc : t.rewardAccPerVote.getD c 0 = s.rewardAccPerVote.getD c 0 := by
    rw [h.acumulado, if_neg hc, Nat.add_zero]
  have hmarcas : (t.debito · c) = (s.debito · c) := funext fun v => h.marcas v c
  refine ⟨?_, fun v => ?_⟩
  · unfold State.aPagar
    rw [h.votes, hmarcas, hacc]
  · unfold State.devidoA State.votosDe
    rw [h.votes, h.marcas, hacc]

/-- What a voter is owed rises by what the accumulator grew on its votes. -/
theorem rende (h : Partilhado p corte comissao parcela inc s t) (hs : Apurado s.quadro)
    (v c : String) : t.devidoA v c = s.devidoA v c + rendido v c a s t := by
  have hacc := h.acumulado c
  have hmarca := hs.debito v c
  have hmarca : s.debito v c ≤ s.rewardAccPerVote.getD c 0 := hmarca
  have hvotos : t.votosDe v = s.votosDe v := by
    unfold State.votosDe
    rw [h.votes]
  unfold State.devidoA rendido
  rw [hvotos, h.marcas, hacc, ← Nat.mul_add, Nat.add_sub_cancel_left, Nat.sub_add_comm hmarca]

end Partilhado

/-! ## Every step -/

theorem PassoDoQuadro.acertado (hp : PassoDoQuadro amb s a t) (ha : ∀ block, a ≠ .emite block) :
    ∃ conta, Acertado conta s t := by
  have hparado : t.urna = s.urna → Acertado "" s t := by
    intro h
    have hacc : t.rewardAccPerVote = s.rewardAccPerVote := by
      have hacc := congrArg Quadro.rewardAccPerVote h
      exact hacc
    have hdebito : t.voterRewardDebt = s.voterRewardDebt := by
      have hdebito := congrArg Quadro.voterRewardDebt h
      exact hdebito
    exact .parado (votes_of_urna h) hacc hdebito
  have hurna : ∀ q : Quadro, t.quadro = q → { q with
      stake := fun _ => 0, cedido := fun _ => 0, fila := [] } = s.urna → t.urna = s.urna := by
    intro q hq h
    unfold State.urna
    rw [hq]
    exact h
  cases hp with
  | alheio hfora ht => exact ⟨_, hparado (hurna _ ht rfl)⟩
  | opera htipo htaxa hmuda =>
    cases hmuda with
    | parada ht => exact ⟨_, hparado (hurna _ ht rfl)⟩
    | deposita conta valor ht => exact ⟨_, hparado (hurna _ ht rfl)⟩
    | cede conta cedido hcoberto ht => exact ⟨_, hparado (hurna _ ht rfl)⟩
    | saca conta valor hpos hcabe hvaga hcoberto ht => exact ⟨_, hparado (hurna _ ht rfl)⟩
    | vota haloc hvota hestacas hsaldos => exact ⟨_, hvota.acertado⟩
    | resgata hresgata hestacas hsaldos => exact ⟨_, hresgata.acertado⟩
    | agenda conta pct hpct ht =>
      have hvotos : t.votes = s.votes := congrArg Quadro.votes ht
      have hacc : t.rewardAccPerVote = s.rewardAccPerVote := congrArg Quadro.rewardAccPerVote ht
      have hdebito : t.voterRewardDebt = s.voterRewardDebt := congrArg Quadro.voterRewardDebt ht
      exact ⟨"", .parado hvotos hacc hdebito⟩
  | pune htipo hacusado hpunido hurna => exact ⟨_, hparado hurna⟩
  | matura w hprop hsaldos ht =>
    have hvotos : t.votes = s.votes := congrArg Quadro.votes ht
    have hacc : t.rewardAccPerVote = s.rewardAccPerVote := congrArg Quadro.rewardAccPerVote ht
    have hdebito : t.voterRewardDebt = s.voterRewardDebt := congrArg Quadro.voterRewardDebt ht
    exact ⟨"", .parado hvotos hacc hdebito⟩
  | premia hreward hsoma hpartilha => exact absurd rfl (ha _)

theorem PassoDoQuadro.partilhado {block : Block} (hp : PassoDoQuadro amb s (.emite block) t) :
    ∃ corte comissao parcela inc, s.blockReward block.height = .ok (corte + comissao + parcela) ∧
      Partilhado block.validator corte comissao parcela inc s t := by
  cases hp with
  | alheio hfora ht => exact absurd trivial hfora
  | premia hreward hsoma hpartilha =>
    rw [← hsoma] at hreward
    exact ⟨_, _, _, _, hreward, hpartilha⟩

/-- What a step credits, pays at once and leaves owed for a candidate, against the reward
that it emits for it. -/
theorem PassoDoQuadro.solvente (hp : PassoDoQuadro amb s a t) (hs : Apurado s.quadro) :
    t.aPagar p + Config.rewardScale * (creditadoPor p a s t + ganho p a s t) ≤
      s.aPagar p + (Config.rewardScale * recompensa p a s t +
        if a.premia p then Config.rewardScale - 1 else 0) := by
  have hnao : (∀ block, a ≠ .emite block) → a.premia p = false ∧ recompensa p a s t = 0 := by
    intro ha
    cases a with
    | emite block => exact absurd rfl (ha block)
    | _ => exact ⟨rfl, rfl⟩
  by_cases ha : ∃ block, a = .emite block
  · obtain ⟨block, rfl⟩ := ha
    obtain ⟨corte, comissao, parcela, inc, hreward, hpartilha⟩ := hp.partilhado
    rw [hpartilha.creditado_zero, Nat.zero_add]
    unfold ganho recompensa Acao.premia
    dsimp only
    by_cases hv : block.validator = p
    · rw [if_pos (beq_iff_eq.mpr hv), if_pos (beq_iff_eq.mpr hv), if_pos hv, hreward,
        ← Nat.add_assoc, ← hv]
      exact hpartilha.paga hs
    · rw [if_neg (mt beq_iff_eq.mp hv), if_neg (mt beq_iff_eq.mp hv), if_neg hv]
      exact ((hpartilha.alheia (Ne.symm hv)).1).le
  · have ha : ∀ block, a ≠ .emite block := fun block heq => ha ⟨block, heq⟩
    obtain ⟨hpremia, hrecompensa⟩ := hnao ha
    obtain ⟨conta, hacertado⟩ := hp.acertado ha
    unfold ganho
    rw [hpremia, hrecompensa]
    exact hacertado.credita_todos

/-- What a step credits and leaves owed to one voter, against the growth of the
accumulator on its votes. -/
theorem PassoDoQuadro.devido (hp : PassoDoQuadro amb s a t) (hs : Apurado s.quadro) :
    t.devidoA v p + Config.rewardScale * creditadoA v p a s t ≤
      s.devidoA v p + rendido v p a s t := by
  by_cases ha : ∃ block, a = .emite block
  · obtain ⟨block, rfl⟩ := ha
    obtain ⟨corte, comissao, parcela, inc, hreward, hpartilha⟩ := hp.partilhado
    rw [creditadoA_de_alheio (hpartilha.marcas v p), Nat.mul_zero, Nat.add_zero]
    exact (hpartilha.rende hs v p).le
  · obtain ⟨conta, hacertado⟩ := hp.acertado fun block heq => ha ⟨block, heq⟩
    exact hacertado.credita.trans (Nat.le_add_right _ _)

/-- Only an operation moves marks, and the balances then take what was credited. -/
theorem PassoDoQuadro.saldos (hp : PassoDoQuadro amb s a t)
    (hmuda : ∃ v c, t.debito v c ≠ s.debito v c) : ∃ tx height blockTs gb fee,
      a = .transacao tx height blockTs ∧ apurarTaxa s tx height = .ok (gb, fee) ∧
      ∀ x, t.balanceOf x + taxaDe tx.de fee x =
        s.balanceOf x + (s.votosDe x).total fun c _ => creditadoA x c a s t := by
  obtain ⟨v, c, hmuda⟩ := hmuda
  have hparado : t.voterRewardDebt = s.voterRewardDebt → False := by
    intro h
    apply hmuda
    unfold State.debito
    rw [h]
  have halheio : ∀ {conta x : String}, x ≠ conta → Acertado conta s t →
      ((s.votosDe x).total fun c _ => creditadoA x c a s t) = 0 := fun hx hacertado =>
    OrdMap.total_eq_zero fun c _ _ => creditadoA_de_alheio (hacertado.alheios _ hx c)
  cases hp with
  | alheio hfora ht => exact (hparado (congrArg Quadro.voterRewardDebt ht)).elim
  | @opera tx height blockTs _ gb fee htipo htaxa hoper =>
    refine ⟨tx, height, blockTs, gb, fee, rfl, htaxa, fun x => ?_⟩
    cases hoper with
    | parada ht => exact (hparado (congrArg Quadro.voterRewardDebt ht)).elim
    | deposita conta valor ht => exact (hparado (congrArg Quadro.voterRewardDebt ht)).elim
    | cede conta cedido hcoberto ht => exact (hparado (congrArg Quadro.voterRewardDebt ht)).elim
    | saca conta valor hpos hcabe hvaga hcoberto ht =>
      exact (hparado (congrArg Quadro.voterRewardDebt ht)).elim
    | @vota conta m haloc hvota hestacas hsaldos =>
      rw [hsaldos x]
      split_ifs with hx
      · rw [hx]
        refine congrArg (s.balanceOf conta + ·) (OrdMap.sum_keys_eq_total fun c n hc => ?_)
        have hmarca : t.debito conta c = s.rewardAccPerVote.getD c 0 := by
          rw [hvota.debito, if_pos ⟨rfl, .inl (OrdMap.mem_keys.mpr ⟨n, hc⟩)⟩]
        unfold creditadoA State.aReceber
        rw [hmarca]
      · rw [halheio hx hvota.acertado]
    | @resgata conta validador hresgata hestacas hsaldos =>
      rw [hsaldos x]
      split_ifs with hx
      · rw [hx]
        refine congrArg (s.balanceOf conta + ·) ?_
        have hso : ∀ c ≠ validador, ∀ n, (s.votosDe conta).get? c = some n →
            creditadoA conta c (.transacao tx height blockTs) s t = 0 := by
          intro c hc n _
          refine creditadoA_de_alheio ?_
          rw [hresgata.debito, if_neg fun hmem => hc hmem.2]
        rw [OrdMap.total_eq_weight hso]
        unfold OrdMap.weight creditadoA State.aReceber
        dsimp only
        rw [hresgata.debito, if_pos ⟨rfl, rfl⟩]
        cases hn : (s.votosDe conta).get? validador with
        | none =>
          unfold OrdMap.getD
          rw [hn, Option.getD_none, Nat.zero_mul, Nat.zero_div]
          rfl
        | some n => rfl
      · rw [halheio hx hresgata.acertado]
    | agenda conta pct hpct ht => exact (hparado (congrArg Quadro.voterRewardDebt ht)).elim
  | pune htipo hacusado hpunido hurna =>
    have hdebito := congrArg Quadro.voterRewardDebt hurna
    exact (hparado hdebito).elim
  | matura w hprop hsaldos ht => exact (hparado (congrArg Quadro.voterRewardDebt ht)).elim
  | premia hreward hsoma hpartilha => exact absurd (hpartilha.marcas v c) hmuda

end

/-! ## Along a run -/

section

variable {amb : Ambiente} {s₀ s t : State} {passado : List (State × Acao)} {a : Acao}

theorem Genese.nada_devido (h : Genese amb s₀) (v p : String) :
    s₀.aPagar p = 0 ∧ s₀.devidoA v p = 0 := by
  have hvotos := votes_of_urna h.urna
  unfold State.aPagar State.devidoA State.votosDe
  rw [hvotos]
  exact ⟨rfl, Nat.zero_mul _⟩

/-- Along a run, what the voters of a producer were credited and are owed, with what its
blocks paid to it and to the treasury at once, exceeds the rewards of these blocks by less
than one unit for each block. What one voter was credited and is owed is within what the
accumulator grew on the votes it had at the time. And every credit goes to a balance. -/
theorem recompensas_solventes (h₀ : Genese amb s₀) (h : Execucao amb s₀ passado s) (p : String) :
    Config.rewardScale * (lancado (creditadoPor p) passado s + lancado (ganho p) passado s) +
        s.aPagar p ≤
      Config.rewardScale * lancado (recompensa p) passado s +
        (Config.rewardScale - 1) * passado.countP (fun x => x.2.premia p) ∧
    (∀ v, Config.rewardScale * lancado (creditadoA v p) passado s + s.devidoA v p ≤
      lancado (rendido v p) passado s) ∧
    ∀ a t, a.Aceita amb s t → (∃ v c, t.debito v c ≠ s.debito v c) →
      ∃ tx height blockTs gb fee, a = .transacao tx height blockTs ∧
        apurarTaxa s tx height = .ok (gb, fee) ∧ ∀ x, t.balanceOf x + taxaDe tx.de fee x =
          s.balanceOf x + (s.votosDe x).total fun c _ => creditadoA x c a s t := by
  refine ⟨?_, fun v => ?_, fun a t ha => (passoDoQuadro_of_execucao h₀ h ha).saldos⟩
  · have hlimite := h.limita (m := (·.aPagar p)) (fun h ha =>
      (passoDoQuadro_of_execucao h₀ h ha).solvente (p := p) (apurado_of_execucao h₀ h))
    rw [lancado_mul, lancado_add, lancado_add, lancado_mul, lancado_de,
      (h₀.nada_devido "" p).1, Nat.zero_add] at hlimite
    rw [Nat.add_comm]
    exact hlimite
  · have hlimite := h.limita (m := (·.devidoA v p)) (fun h ha =>
      (passoDoQuadro_of_execucao h₀ h ha).devido (v := v) (p := p) (apurado_of_execucao h₀ h))
    rw [lancado_mul, (h₀.nada_devido v p).2, Nat.zero_add] at hlimite
    rw [Nat.add_comm]
    exact hlimite

end

/-- Account A was credited on its votes for B, and was paid it with its withdrawal. -/
theorem recompensas_do_voto :
    Config.rewardScale * lancado (creditadoA enderecoA enderecoB) passadoVencido estadoVencido +
        estadoVencido.devidoA enderecoA enderecoB ≤
      lancado (rendido enderecoA enderecoB) passadoVencido estadoVencido ∧
    estadoVencido.balanceOf enderecoA = 1012800000 := by
  obtain ⟨-, hdeA, -⟩ := recompensas_solventes genese_ia execucao_vencida enderecoB
  obtain ⟨-, -, -, -, -, -, hsaldo, -⟩ := roteiro_do_voto.out
  exact ⟨hdeA enderecoA, hsaldo⟩

end Eav7
