import Eav7.Base.Acumulador
import Eav7.Ciclo

/-!
# Votes and the rewards of voters

A vote replaces the whole allocation of an account: the candidates of the old one are
settled and lose its votes, those of the new one gain them. Along a run the votes counted
for a candidate are the sum of what the accounts allocated to it, and what the voters of a
candidate were credited never exceeds their shares of its rewards.
-/

namespace Eav7

open Base

/-! ## What an allocation says -/

section

variable {cr : Cripto} {s t w : State} {conta : String}

/-- The amount that a list of allocations gives to one candidate. -/
def quanto (c : String) (es : List (String × Amount)) : ℕ :=
  (es.map fun e => if e.1 = c then e.2 else 0).sum

theorem quanto_entries (m : OrdMap String Amount) (c : String) :
    quanto c m.entries = m.getD c 0 := by
  have htotal := m.total_eq_weight (f := fun k v => if k = c then v else 0) (k := c)
    fun j hj v _ => if_neg hj
  rw [OrdMap.weight_eq_getD _ m c (d := 0) (ite_self 0)] at htotal
  exact htotal.trans (if_pos rfl)

/-- An allocation that passed the checks of a vote. -/
structure Alocacao (s : State) (conta : String) (m : OrdMap String Amount) : Prop where
  cheia : m.entries ≠ []
  valores : ∀ c v, m.get? c = some v → 0 < v ∧ c ≠ conta
  lastro : m.total (fun _ v => v) ≤ (s.account conta).staked

theorem analisaVotos_ok {minStake total soma : Amount} {es : List (String × JsonValue)}
    {r : List (String × Amount)} (h : analisaVotos cr s conta minStake es total = .ok (soma, r)) :
    r.map Prod.fst = es.map Prod.fst ∧ soma = total + (r.map Prod.snd).sum ∧
      ∀ e ∈ r, 0 < e.2 ∧ e.1 ≠ conta := by
  induction es generalizing total soma r with
  | nil =>
    cases h
    exact ⟨rfl, rfl, fun e he => by cases he⟩
  | cons e es ih =>
    obtain ⟨candidato, bruto⟩ := e
    unfold analisaVotos at h
    obtain ⟨_, -, h⟩ := except_bind_eq_ok.mp h
    obtain ⟨_, hproprio, h⟩ := except_bind_eq_ok.mp h
    obtain ⟨_, -, h⟩ := except_bind_eq_ok.mp h
    obtain ⟨valor, -, h⟩ := except_bind_eq_ok.mp h
    obtain ⟨_, hpos, h⟩ := except_bind_eq_ok.mp h
    obtain ⟨parcial, hsoma, h⟩ := except_bind_eq_ok.mp h
    obtain ⟨⟨fim, resto⟩, hresto, h⟩ := except_bind_eq_ok.mp h
    cases h
    obtain ⟨hchaves, rfl, htodos⟩ := ih hresto
    obtain ⟨rfl, -⟩ := soma_eq_ok.mp hsoma
    refine ⟨congrArg (candidato :: ·) hchaves, ?_, ?_⟩
    · rw [List.map_cons, List.sum_cons, Nat.add_assoc]
    · intro e he
      rcases List.mem_cons.mp he with rfl | he
      · exact ⟨Nat.pos_of_ne_zero (recusar_eq_ok.mp hpos), recusar_eq_ok.mp hproprio⟩
      · exact htodos e he

theorem validarVoto_ok {votos : Option JsonValue} {r : List (String × Amount)}
    (h : validarVoto cr s conta votos = .ok r) :
    ∃ m : OrdMap String Amount, m.entries = r ∧ Alocacao s conta m := by
  have hlista : ∃ alocacao : List (String × JsonValue), alocacao.Pairwise (·.1 < ·.1) ∧ (do
      recusar (alocacao.length = 0 ∨ Config.maxVoteTargets < alocacao.length)
        "nº de candidatos inválido"
      let minStake ← s.paramAmount "MIN_VALIDATOR_STAKE" Config.minValidatorStake
      let lidos ← analisaVotos cr s conta minStake alocacao 0
      recusar ((s.account conta).staked < lidos.1) "votos excedem o poder de voto (stake)"
      return lidos.2) = .ok r := by
    unfold validarVoto at h
    dsimp only at h
    split at h
    · exact ⟨_, (mapaDe _).sorted, h⟩
    · cases h
  obtain ⟨alocacao, hordem, h⟩ := hlista
  obtain ⟨_, hnumero, h⟩ := except_bind_eq_ok.mp h
  obtain ⟨minStake, -, h⟩ := except_bind_eq_ok.mp h
  obtain ⟨⟨total, analisados⟩, hlidos, h⟩ := except_bind_eq_ok.mp h
  obtain ⟨_, hlastro, h⟩ := except_bind_eq_ok.mp h
  obtain rfl : analisados = r := Except.ok.inj h
  obtain ⟨hchaves, rfl, htodos⟩ := analisaVotos_ok hlidos
  have hordem : (alocacao.map Prod.fst).Pairwise (· < ·) := List.pairwise_map.mpr hordem
  rw [← hchaves] at hordem
  refine ⟨⟨analisados, List.pairwise_map.mp hordem⟩, rfl, ?_, ?_, ?_⟩
  · rintro rfl
    have hlen := congrArg List.length hchaves
    rw [List.length_map, List.length_map] at hlen
    exact recusar_eq_ok.mp hnumero (.inl hlen.symm)
  · intro c v hv
    exact htodos _ (OrdMap.mem_entries_iff.mpr hv)
  · have hle := not_lt.mp (recusar_eq_ok.mp hlastro)
    rwa [Nat.zero_add] at hle

end

/-! ## Settling, withdrawing and adding votes -/

/-- What a voter is credited when it is settled on a candidate. -/
def State.aReceber (s : State) (eleitor validador : String) : Amount :=
  (s.votosDe eleitor).getD validador 0 *
    (s.rewardAccPerVote.getD validador 0 - s.debito eleitor validador) / Config.rewardScale

section

variable {cr : Cripto} {s t w : State} {conta : String} {u : Unit}

theorem debito_setDebito (s : State) (a c : String) (valor : Amount) (b d : String) :
    (s.setDebito a c valor).debito b d = if b = a ∧ d = c then valor else s.debito b d := by
  unfold State.setDebito State.debito
  rw [OrdMap.getD_insert]
  by_cases hb : b = a
  · rw [if_pos hb, OrdMap.getD_insert, hb]
    by_cases hd : d = c
    · rw [if_pos hd, if_pos ⟨rfl, hd⟩]
    · rw [if_neg hd, if_neg fun h => hd h.2]
  · rw [if_neg hb, if_neg fun h => hb h.1]

/-- A voter was settled on some candidates, and nothing else of the votes moved but the
counts. -/
structure Liquidado (conta : String) (quais : List String) (s t : State) : Prop where
  votos : t.votes = s.votes
  acumulado : t.rewardAccPerVote = s.rewardAccPerVote
  debito : ∀ v c, t.debito v c =
    if v = conta ∧ c ∈ quais then s.rewardAccPerVote.getD c 0 else s.debito v c
  saldos : ∀ x, t.balanceOf x =
    s.balanceOf x + if x = conta then (quais.map (s.aReceber conta)).sum else 0

theorem Liquidado.trans {quais outros : List String} (h : Liquidado conta quais s t)
    (h' : Liquidado conta outros t w) (hdisjuntos : ∀ c ∈ outros, c ∉ quais) :
    Liquidado conta (quais ++ outros) s w := by
  refine ⟨h'.votos.trans h.votos, h'.acumulado.trans h.acumulado, ?_, ?_⟩
  · intro v c
    rw [h'.debito, h.debito, h.acumulado]
    by_cases hv : v = conta
    · by_cases hc : c ∈ outros
      · rw [if_pos ⟨hv, hc⟩, if_pos ⟨hv, List.mem_append_right _ hc⟩]
      · rw [if_neg fun hmem => hc hmem.2]
        by_cases hc' : c ∈ quais
        · rw [if_pos ⟨hv, hc'⟩, if_pos ⟨hv, List.mem_append_left _ hc'⟩]
        · rw [if_neg fun hmem => hc' hmem.2, if_neg fun hmem =>
            (List.mem_append.mp hmem.2).elim hc' hc]
    · rw [if_neg fun hmem => hv hmem.1, if_neg fun hmem => hv hmem.1, if_neg fun hmem => hv hmem.1]
  · intro x
    have houtros : outros.map (t.aReceber conta) = outros.map (s.aReceber conta) := by
      apply List.map_congr_left
      intro c hc
      unfold State.aReceber State.votosDe
      rw [h.votos, h.acumulado, h.debito, if_neg fun hmem => hdisjuntos c hc hmem.2]
    rw [h'.saldos, h.saldos, houtros, List.map_append, List.sum_append]
    split_ifs
    · exact Nat.add_assoc _ _ _
    · rfl

theorem liquidarRecompensa_ok {validador : String}
    (h : liquidarRecompensa conta validador s = .ok u t) :
    Liquidado conta [validador] s t ∧ t.candidateVotes = s.candidateVotes := by
  have hfim : ∀ (w : State), w.votes = s.votes → w.rewardAccPerVote = s.rewardAccPerVote →
      w.candidateVotes = s.candidateVotes → w.voterRewardDebt = s.voterRewardDebt →
      (∀ x, w.balanceOf x = s.balanceOf x + if x = conta then s.aReceber conta validador else 0) →
      Liquidado conta [validador] s
        (w.setDebito conta validador (s.rewardAccPerVote.getD validador 0)) := by
    intro w hvotos hacc _ hdebito hsaldos
    refine ⟨hvotos, hacc, ?_, ?_⟩
    · intro v c
      rw [debito_setDebito]
      have hmesmo : w.debito v c = s.debito v c := by
        unfold State.debito
        rw [hdebito]
      rw [hmesmo]
      by_cases hvc : v = conta ∧ c = validador
      · rw [if_pos hvc, if_pos ⟨hvc.1, List.mem_singleton.mpr hvc.2⟩, hvc.2]
      · rw [if_neg hvc, if_neg fun hmem => hvc ⟨hmem.1, List.mem_singleton.mp hmem.2⟩]
    · intro x
      rw [List.map_singleton, List.sum_singleton]
      exact hsaldos x
  unfold liquidarRecompensa at h
  rw [get_bind_run] at h
  dsimp only at h
  split_ifs at h with hvotos
  · obtain ⟨delta, hdelta, h⟩ := lift_bind_eq_ok.mp h
    obtain ⟨total, htotal, h⟩ := lift_bind_eq_ok.mp h
    obtain ⟨rfl, -⟩ := sub_eq_ok.mp hdelta
    obtain ⟨rfl, -⟩ := produto_eq_ok.mp htotal
    split_ifs at h with hpaga
    · obtain ⟨_, w, hcredita, h⟩ := bind_eq_ok.mp h
      obtain rfl := creditar_eq_ok hcredita
      obtain rfl := (EStateM.Result.ok.inj h).2
      refine ⟨hfim _ rfl rfl rfl rfl ?_, rfl⟩
      intro x
      rw [balanceOf_comSaldo_apply]
      split_ifs with hx
      · rw [hx]
        rfl
      · rfl
    · obtain rfl := (EStateM.Result.ok.inj h).2
      refine ⟨hfim s rfl rfl rfl rfl ?_, rfl⟩
      intro x
      have hzero : s.aReceber conta validador = 0 := Nat.eq_zero_of_not_pos hpaga
      rw [hzero, ite_self]
      rfl
  · obtain rfl := (EStateM.Result.ok.inj h).2
    refine ⟨hfim s rfl rfl rfl rfl ?_, rfl⟩
    intro x
    have hzero : s.aReceber conta validador = 0 := by
      unfold State.aReceber
      rw [Nat.eq_zero_of_not_pos hvotos, Nat.zero_mul, Nat.zero_div]
    rw [hzero, ite_self]
    rfl

/-- An account was settled on one candidate. -/
structure Resgatado (conta validador : String) (s t : State) : Prop where
  votos : t.votes = s.votes
  acumulado : t.rewardAccPerVote = s.rewardAccPerVote
  candidatos : t.candidateVotes = s.candidateVotes
  debito : ∀ v c, t.debito v c =
    if v = conta ∧ c = validador then s.rewardAccPerVote.getD c 0 else s.debito v c

theorem Liquidado.resgatado {validador : String} (h : Liquidado conta [validador] s t)
    (hcandidatos : t.candidateVotes = s.candidateVotes) : Resgatado conta validador s t := by
  refine ⟨h.votos, h.acumulado, hcandidatos, fun v c => ?_⟩
  rw [h.debito]
  simp only [List.mem_singleton]

/-- No candidate is counted with zero votes. -/
def SemZero (s : State) : Prop := ∀ c v, s.candidateVotes.get? c = some v → 0 < v

theorem semZero_insert (hs : SemZero s) {c : String} {v : Amount} (hv : 0 < v) :
    SemZero { s with candidateVotes := s.candidateVotes.insert c v } := by
  intro d x hx
  rw [OrdMap.get?_insert] at hx
  split_ifs at hx with hd
  · cases hx
    exact hv
  · exact hs d x hx

theorem quanto_cons (c : String) (e : String × Amount) (es : List (String × Amount)) :
    quanto c (e :: es) = (if e.1 = c then e.2 else 0) + quanto c es := rfl

theorem retiraVotos_ok {es : List (String × Amount)} (hes : (es.map Prod.fst).Nodup)
    (h : retiraVotos conta es s = .ok u t) :
    Liquidado conta (es.map Prod.fst) s t ∧
      (∀ c, t.candidateVotes.getD c 0 + quanto c es = s.candidateVotes.getD c 0) ∧
      (SemZero s → SemZero t) := by
  induction es generalizing s with
  | nil =>
    obtain ⟨-, rfl⟩ := pure_eq_ok.mp h
    refine ⟨⟨rfl, rfl, ?_, ?_⟩, fun _ => rfl, id⟩
    · intro v c
      exact (if_neg fun hmem => (by cases hmem.2)).symm
    · intro x
      rw [List.map_nil, List.map_nil, List.sum_nil, ite_self, Nat.add_zero]
  | cons e es ih =>
    obtain ⟨candidato, valor⟩ := e
    obtain ⟨hfora, hes⟩ := List.nodup_cons.mp hes
    unfold retiraVotos at h
    obtain ⟨_, w, hliquida, h⟩ := bind_eq_ok.mp h
    obtain ⟨hliquida, hmesmos⟩ := liquidarRecompensa_ok hliquida
    rw [get_bind_run] at h
    obtain ⟨restante, hsub, h⟩ := lift_bind_eq_ok.mp h
    obtain ⟨rfl, hle⟩ := sub_eq_ok.mp hsub
    rw [hmesmos] at hle
    rw [modify_bind_run] at h
    generalize hv : (if 0 < w.candidateVotes.getD candidato 0 - valor
      then ({ w with candidateVotes :=
        w.candidateVotes.insert candidato (w.candidateVotes.getD candidato 0 - valor) } : State)
      else { w with candidateVotes := w.candidateVotes.erase candidato }) = v at h
    have hresto : Liquidado conta [candidato] s v := by
      rw [← hv]
      split_ifs <;> exact ⟨hliquida.votos, hliquida.acumulado, hliquida.debito, hliquida.saldos⟩
    have hconta : ∀ c, v.candidateVotes.getD c 0 =
        if c = candidato then s.candidateVotes.getD candidato 0 - valor
        else s.candidateVotes.getD c 0 := by
      intro c
      rw [← hv]
      split_ifs with hpos hc hc
      · rw [OrdMap.getD_insert, if_pos hc, hmesmos]
      · rw [OrdMap.getD_insert, if_neg hc, hmesmos]
      · rw [hmesmos] at hpos
        rw [OrdMap.getD_erase, if_pos hc, Nat.eq_zero_of_not_pos hpos]
      · rw [OrdMap.getD_erase, if_neg hc, hmesmos]
    have hzero : SemZero s → SemZero v := by
      intro hs
      have hw : SemZero w := by
        intro d x hx
        rw [hmesmos] at hx
        exact hs d x hx
      rw [← hv]
      split_ifs with hpos
      · exact semZero_insert hw hpos
      · intro d x hx
        rw [OrdMap.get?_erase] at hx
        split_ifs at hx with hd
        exact hw d x hx
    obtain ⟨hliquidado, hcandidatos, hzeros⟩ := ih hes h
    refine ⟨hresto.trans hliquidado fun c hc hmem => ?_, fun c => ?_, fun hs => hzeros (hzero hs)⟩
    · exact hfora (List.mem_singleton.mp hmem ▸ hc)
    · have hc := hcandidatos c
      rw [hconta] at hc
      rw [quanto_cons]
      split_ifs at hc with hcc
      · rw [hcc] at hc ⊢
        rw [if_pos rfl]
        have hsoma : ∀ {a q v b : ℕ}, a + q = b - v → v ≤ b → a + (v + q) = b := by omega
        exact hsoma hc hle
      · rw [if_neg (Ne.symm hcc), Nat.zero_add]
        exact hc

theorem colocaVotos_ok {es : List (String × Amount)} (h : colocaVotos conta es s = .ok u t) :
    t.votes = s.votes ∧ t.rewardAccPerVote = s.rewardAccPerVote ∧ t.accounts = s.accounts ∧
      (∀ v c, t.debito v c = if v = conta ∧ c ∈ es.map Prod.fst
        then s.rewardAccPerVote.getD c 0 else s.debito v c) ∧
      (∀ c, t.candidateVotes.getD c 0 = s.candidateVotes.getD c 0 + quanto c es) ∧
      ((∀ e ∈ es, 0 < e.2) → SemZero s → SemZero t) := by
  induction es generalizing s with
  | nil =>
    obtain ⟨-, rfl⟩ := pure_eq_ok.mp h
    refine ⟨rfl, rfl, rfl, fun v c => ?_, fun _ => rfl, fun _ hs => hs⟩
    exact (if_neg fun hmem => (by cases hmem.2)).symm
  | cons e es ih =>
    obtain ⟨candidato, valor⟩ := e
    unfold colocaVotos at h
    rw [get_bind_run] at h
    obtain ⟨novo, hsoma, h⟩ := lift_bind_eq_ok.mp h
    obtain ⟨rfl, -⟩ := soma_eq_ok.mp hsoma
    rw [modify_bind_run, modify_bind_run] at h
    obtain ⟨hvotos, hacc, hcontas, hdebito, hcandidatos, hzeros⟩ := ih h
    refine ⟨hvotos, hacc, hcontas, fun v c => ?_, fun c => ?_, fun hpos hs => ?_⟩
    · rw [hdebito, debito_setDebito, List.map_cons]
      by_cases hv : v = conta
      · by_cases hc : c = candidato
        · rw [if_pos (⟨hv, hc⟩ : v = conta ∧ c = candidato),
            if_pos (⟨hv, hc ▸ List.mem_cons_self⟩ : v = conta ∧ c ∈ candidato :: es.map Prod.fst),
            hc]
          exact ite_self _
        · rw [if_neg fun hmem : v = conta ∧ c = candidato => hc hmem.2]
          by_cases hmem : c ∈ es.map Prod.fst
          · rw [if_pos ⟨hv, hmem⟩, if_pos ⟨hv, List.mem_cons_of_mem _ hmem⟩]
            rfl
          · rw [if_neg fun hc' => hmem hc'.2, if_neg fun hc' =>
              (List.mem_cons.mp hc'.2).elim hc hmem]
            rfl
      · rw [if_neg fun hc => hv hc.1, if_neg fun hc => hv hc.1, if_neg fun hc => hv hc.1]
        rfl
    · have hc := hcandidatos c
      change _ = OrdMap.getD (s.candidateVotes.insert candidato _) c 0 + _ at hc
      rw [hc, OrdMap.getD_insert, quanto_cons]
      split_ifs with hcc hcc' hcc'
      · rw [hcc, Nat.add_assoc]
      · exact absurd hcc.symm hcc'
      · exact absurd hcc'.symm hcc
      · rw [Nat.zero_add]
    · obtain ⟨hvalor, hpos⟩ := List.forall_mem_cons.mp hpos
      refine hzeros hpos fun d x hx => ?_
      refine semZero_insert hs (c := candidato) (v := s.candidateVotes.getD candidato 0 + valor)
        ?_ d x hx
      exact Nat.lt_of_lt_of_le hvalor (Nat.le_add_left _ _)

/-- An account replaced its allocation. -/
structure Votado (conta : String) (m : OrdMap String Amount) (s t : State) : Prop where
  votos : t.votes = s.votes.insert conta m
  acumulado : t.rewardAccPerVote = s.rewardAccPerVote
  candidatos : ∀ c, t.candidateVotes.getD c 0 + (s.votosDe conta).getD c 0 =
    s.candidateVotes.getD c 0 + m.getD c 0
  semZero : SemZero s → SemZero t
  debito : ∀ v c, t.debito v c = if v = conta ∧ (c ∈ (s.votosDe conta).keys ∨ c ∈ m.keys)
    then s.rewardAccPerVote.getD c 0 else s.debito v c

theorem aplicarVoto_ok {votos : Option JsonValue} (h : aplicarVoto cr conta votos s = .ok u t) :
    ∃ m, Alocacao s conta m ∧ Votado conta m s t ∧ ∀ x, t.balanceOf x = s.balanceOf x +
      if x = conta then ((s.votosDe conta).keys.map (s.aReceber conta)).sum else 0 := by
  unfold aplicarVoto at h
  rw [get_bind_run] at h
  obtain ⟨analisados, hvalida, h⟩ := lift_bind_eq_ok.mp h
  obtain ⟨m, rfl, haloc⟩ := validarVoto_ok hvalida
  obtain ⟨_, w, hretira, h⟩ := bind_eq_ok.mp h
  obtain ⟨_, v, hcoloca, h⟩ := bind_eq_ok.mp h
  have hfim : t = { v with votes := v.votes.insert conta (OrdMap.ofList m.entries) } :=
    (EStateM.Result.ok.inj h).2.symm
  obtain ⟨hliquida, hmenos, hzero⟩ := retiraVotos_ok (s.votosDe conta).nodup_keys hretira
  obtain ⟨hvotos, hacc, hcontas, hdebito, hmais, hzero'⟩ := colocaVotos_ok hcoloca
  rw [OrdMap.ofList_entries] at hfim
  refine ⟨m, haloc, ?_⟩
  rw [hfim]
  refine ⟨⟨?_, hacc.trans hliquida.acumulado, fun c => ?_, fun hs => ?_, fun a c => ?_⟩, ?_⟩
  · rw [hvotos, hliquida.votos]
  · have hc := hmenos c
    rw [quanto_entries] at hc
    change v.candidateVotes.getD c 0 + _ = _
    rw [hmais, quanto_entries, ← hc]
    exact Nat.add_right_comm _ _ _
  · refine hzero' (fun e he => ?_) (hzero hs)
    exact (haloc.valores e.1 e.2 (OrdMap.mem_entries_iff.mp he)).1
  · change v.debito a c = _
    rw [hdebito, hliquida.debito, hliquida.acumulado]
    by_cases ha : a = conta
    · by_cases hc : c ∈ m.keys
      · rw [if_pos (⟨ha, hc⟩ : a = conta ∧ c ∈ m.entries.map Prod.fst), if_pos ⟨ha, .inr hc⟩]
      · rw [if_neg fun hmem : a = conta ∧ c ∈ m.entries.map Prod.fst => hc hmem.2]
        by_cases hc' : c ∈ (s.votosDe conta).keys
        · rw [if_pos (⟨ha, hc'⟩ : a = conta ∧ c ∈ (s.votosDe conta).entries.map Prod.fst),
            if_pos ⟨ha, .inl hc'⟩]
        · rw [if_neg fun hmem : a = conta ∧ c ∈ (s.votosDe conta).entries.map Prod.fst =>
            hc' hmem.2, if_neg fun hmem => hmem.2.elim hc' hc]
    · rw [if_neg fun hmem => ha hmem.1, if_neg fun hmem => ha hmem.1, if_neg fun hmem => ha hmem.1]
  · intro x
    have hsaldo : v.balanceOf x = w.balanceOf x := by
      unfold State.balanceOf State.account
      rw [hcontas]
    change v.balanceOf x = _
    rw [hsaldo]
    exact hliquida.saldos x

end

end Eav7
