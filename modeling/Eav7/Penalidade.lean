import Eav7.Delegacoes
import Eav7.Equivocacao
import Eav7.Roteiro

/-!
# What a punishment takes

The penalty leaves the stake first, then the queue of withdrawals from its front, and the
delegations that the rest of the stake does not cover are withdrawn in address order. Along
a run what each account says it delegates and receives is what the edges say, so the
withdrawal moves the sums of both ends by the same amounts.
-/

namespace Eav7

open Base

/-! ## Withdrawing from the delegations -/

section

variable {s t w : State} {infrator : String} {n : ℕ}

/-- Delegations of one account were withdrawn, and their amounts from those who had them. -/
structure Revogado (infrator : String) (s t : State) : Prop where
  alheias : Arestas.MudaDe infrator s.delegations t.delegations
  menor : ∀ b, t.delegado infrator b ≤ s.delegado infrator b
  contas : ∀ b, t.account b = { s.account b with
    delegatedIn := (s.account b).delegatedIn - (s.delegado infrator b - t.delegado infrator b) }
  resto : t = { s with accounts := t.accounts, delegations := t.delegations }

theorem Revogado.refl (infrator : String) (s : State) : Revogado infrator s s := by
  refine ⟨fun _ _ => rfl, fun _ => le_refl _, ?_, rfl⟩
  intro b
  rw [Nat.sub_self, Nat.sub_zero]

theorem Revogado.trans (h : Revogado infrator s t) (h' : Revogado infrator t w) :
    Revogado infrator s w := by
  refine ⟨h.alheias.trans h'.alheias, fun b => (h'.menor b).trans (h.menor b), ?_, ?_⟩
  · intro b
    rw [h'.contas, h.contas]
    have hsoma : ∀ x p q r : ℕ, q ≤ p → r ≤ q → x - (p - q) - (q - r) = x - (p - r) := by
      intro x p q r hpq hqr
      omega
    exact congrArg (fun x => { s.account b with delegatedIn := x })
      (hsoma _ _ _ _ (h.menor b) (h'.menor b))
  · rw [h'.resto, h.resto]

/-- The delegations of an account in address order. -/
def destinos (s : State) (dono : String) : List (String × Amount) :=
  (Arestas.linha s.delegations dono).entries

/-- An amount leaves one delegation, whose owner then has the given ones. -/
def revoga (infrator destino : String) (tirado : Amount) (m : OrdMap String Amount) (s : State) :
    State :=
  { s.comConta destino fun c => { c with delegatedIn := c.delegatedIn - tirado } with
    delegations := s.delegations.insert infrator m }

theorem account_revoga (s : State) (infrator destino : String) (tirado : Amount)
    (m : OrdMap String Amount) (b : String) : (revoga infrator destino tirado m s).account b =
      if b = destino
        then { s.account destino with delegatedIn := (s.account destino).delegatedIn - tirado }
        else s.account b :=
  State.account_comConta s destino b fun c => { c with delegatedIn := c.delegatedIn - tirado }

theorem linha_revoga (s : State) (infrator destino : String) (tirado : Amount)
    (m : OrdMap String Amount) :
    Arestas.linha (revoga infrator destino tirado m s).delegations infrator = m :=
  Arestas.linha_insert _ _ _

theorem delegado_eq (s : State) (dono para : String) :
    s.delegado dono para = (Arestas.linha s.delegations dono).getD para 0 := rfl

theorem revogado_revoga {m : OrdMap String Amount} {destino : String} {valor tirado : Amount}
    (hvalor : s.delegado infrator destino = valor) (hle : tirado ≤ valor)
    (hresto : m.getD destino 0 = valor - tirado)
    (hfora : ∀ b ≠ destino, m.get? b = (Arestas.linha s.delegations infrator).get? b) :
    Revogado infrator s (revoga infrator destino tirado m s) := by
  have houtro : ∀ b ≠ destino, m.getD b 0 = s.delegado infrator b := by
    intro b hb
    rw [delegado_eq]
    unfold OrdMap.getD
    rw [hfora b hb]
  refine ⟨Arestas.mudaDe_insert _ _ _, ?_, ?_, rfl⟩
  · intro b
    rw [delegado_eq, linha_revoga]
    by_cases hb : b = destino
    · rw [hb, hresto, hvalor]
      exact Nat.sub_le _ _
    · exact (houtro b hb).le
  · intro b
    rw [delegado_eq (revoga infrator destino tirado m s), linha_revoga, account_revoga]
    split_ifs with hb
    · rw [hb, hresto, hvalor, Nat.sub_sub_self hle]
    · rw [houtro b hb, Nat.sub_self, Nat.sub_zero]

theorem cortaDelegacoes_zero (es : List (String × Amount)) (s : State) :
    cortaDelegacoes infrator es 0 s = s := by
  cases es with
  | nil => rfl
  | cons e es =>
    unfold cortaDelegacoes
    rw [if_pos rfl]

/-- One turn of the loop. -/
theorem cortaDelegacoes_cons {m : OrdMap String Amount} {destino : String} {valor : Amount}
    {es : List (String × Amount)} (hm : s.delegations.get? infrator = some m) (hn : n ≠ 0) :
    cortaDelegacoes infrator ((destino, valor) :: es) n s =
      cortaDelegacoes infrator es (n - min valor n) (revoga infrator destino (min valor n)
        (if 0 < valor - min valor n then m.insert destino (valor - min valor n)
          else m.erase destino) s) := by
  have hdele : (s.comConta destino fun c =>
      { c with delegatedIn := c.delegatedIn - min valor n }).delegations.get? infrator =
        some m := hm
  rw [cortaDelegacoes, if_neg hn]
  dsimp only
  rw [hdele]
  rfl

/-- The excess leaves the delegations from the front. -/
theorem corta_revoga {es : List (String × Amount)} (hes : destinos s infrator = es)
    (hn : n ≤ (es.map (·.2)).sum) : Revogado infrator s (cortaDelegacoes infrator es n s) ∧
      SaiDaFrente (·.2) (fun e v => (e.1, v)) n es
        (destinos (cortaDelegacoes infrator es n s) infrator) := by
  induction es generalizing s n with
  | nil =>
    obtain rfl := Nat.le_zero.mp hn
    refine ⟨.refl _ _, ?_⟩
    rw [cortaDelegacoes_zero, hes]
    exact .nada []
  | cons e es ih =>
    obtain ⟨destino, valor⟩ := e
    by_cases hzero : n = 0
    · subst hzero
      rw [cortaDelegacoes_zero, hes]
      exact ⟨.refl _ _, .nada _⟩
    obtain ⟨m, hm⟩ : ∃ m, s.delegations.get? infrator = some m := by
      unfold destinos Arestas.linha OrdMap.getD at hes
      cases hm : s.delegations.get? infrator with
      | some m => exact ⟨m, rfl⟩
      | none =>
        rw [hm] at hes
        cases hes
    have hlinha := Arestas.linha_eq hm
    have hentradas : m.entries = (destino, valor) :: es := hlinha ▸ hes
    have hvalor : s.delegado infrator destino = valor := by
      have hmem : (destino, valor) ∈ m.entries := hentradas ▸ List.mem_cons_self
      rw [delegado_eq, hlinha, OrdMap.getD, OrdMap.mem_entries_iff.mp hmem, Option.getD_some]
    rw [cortaDelegacoes_cons hm hzero]
    rcases Nat.lt_or_ge n valor with hparte | hinteiro
    · -- the last delegation keeps a part
      rw [Nat.min_eq_right hparte.le, Nat.sub_self, cortaDelegacoes_zero,
        if_pos (Nat.sub_pos_of_lt hparte)]
      constructor
      · apply revogado_revoga hvalor hparte.le
        · rw [OrdMap.getD_insert, if_pos rfl]
        · intro b hb
          rw [hlinha]
          exact OrdMap.get?_insert_of_ne m hb _
      · have hfim : (m.insert destino (valor - n)).entries = (destino, valor - n) :: es := by
          unfold OrdMap.insert
          dsimp only
          rw [hentradas, OrdMap.insertEntry, if_neg (lt_irrefl _), if_pos rfl]
        unfold destinos
        rw [linha_revoga, hfim]
        exact .parte (Nat.pos_of_ne_zero hzero) hparte
    · -- the whole of this delegation goes, and the loop goes on
      rw [Nat.min_eq_left hinteiro, Nat.sub_self, if_neg (lt_irrefl 0)]
      have hpasso : Revogado infrator s (revoga infrator destino valor (m.erase destino) s) := by
        apply revogado_revoga hvalor (le_refl valor)
        · rw [OrdMap.getD_erase, if_pos rfl, Nat.sub_self]
        · intro b hb
          rw [hlinha]
          exact OrdMap.get?_erase_of_ne m hb
      have hfim : destinos (revoga infrator destino valor (m.erase destino) s) infrator = es := by
        unfold destinos
        rw [linha_revoga]
        unfold OrdMap.erase
        dsimp only
        rw [hentradas, OrdMap.eraseEntry, if_pos rfl]
      rw [List.map_cons, List.sum_cons] at hn
      obtain ⟨hrevoga, hsai⟩ := ih hfim (Nat.sub_le_iff_le_add'.mpr hn)
      refine ⟨hpasso.trans hrevoga, ?_⟩
      have htudo : valor + (n - valor) = n := Nat.add_sub_cancel' hinteiro
      have hdepois := SaiDaFrente.inteiro (u := (destino, valor))
        (htudo.symm ▸ Nat.pos_of_ne_zero hzero : 0 < valor + (n - valor)) hsai
      change SaiDaFrente _ _ (valor + (n - valor)) _ _ at hdepois
      rwa [htudo] at hdepois

/-- The delegations that the stake does not cover were withdrawn. -/
structure Rebaixado (infrator : String) (s t : State) : Prop where
  contas : ∀ b, t.account b = { s.account b with
    delegatedOut := if b = infrator
      then min (s.account infrator).delegatedOut (s.account infrator).staked
      else (s.account b).delegatedOut
    delegatedIn := (s.account b).delegatedIn - (s.delegado infrator b - t.delegado infrator b) }
  menor : ∀ b, t.delegado infrator b ≤ s.delegado infrator b
  daFrente : SaiDaFrente (·.2) (fun e v => (e.1, v))
    ((s.account infrator).delegatedOut - (s.account infrator).staked) (destinos s infrator)
    (destinos t infrator)
  alheias : Arestas.MudaDe infrator s.delegations t.delegations
  cheia : (∀ m, s.delegations.get? infrator = some m → m.entries ≠ []) →
    ∀ m, t.delegations.get? infrator = some m → m.entries ≠ []
  resto : t = { s with accounts := t.accounts, delegations := t.delegations }

/-- The map of an owner with no delegation left goes. -/
def semVazia (infrator : String) (s : State) : State :=
  match s.delegations.get? infrator with
  | some m =>
    if m.entries = [] then { s with delegations := s.delegations.erase infrator } else s
  | none => s

theorem semVazia_ok (infrator : String) (s : State) :
    (semVazia infrator s).accounts = s.accounts ∧
      Arestas.linha (semVazia infrator s).delegations infrator =
        Arestas.linha s.delegations infrator ∧
      Arestas.MudaDe infrator s.delegations (semVazia infrator s).delegations ∧
      (∀ m, (semVazia infrator s).delegations.get? infrator = some m → m.entries ≠ []) ∧
      semVazia infrator s = { s with delegations := (semVazia infrator s).delegations } := by
  unfold semVazia
  cases hm : s.delegations.get? infrator with
  | none =>
    refine ⟨rfl, rfl, fun _ _ => rfl, ?_, rfl⟩
    intro m hm'
    rw [hm] at hm'
    cases hm'
  | some m =>
    dsimp only
    split_ifs with hvazia
    · refine ⟨rfl, ?_, Arestas.mudaDe_erase _ _, ?_, rfl⟩
      · rw [Arestas.linha_eq hm]
        refine (Arestas.linha_erase _ _).trans (OrdMap.ext ?_)
        rw [hvazia]
        rfl
      · intro m' hm'
        rw [OrdMap.get?_erase_self] at hm'
        cases hm'
    · refine ⟨rfl, rfl, fun _ _ => rfl, ?_, rfl⟩
      intro m' hm'
      rw [hm] at hm'
      cases hm'
      exact hvazia

theorem rebaixa_ok (h : Lastro s) (infrator : String) :
    Rebaixado infrator s (rebaixaDelegado infrator s) := by
  unfold rebaixaDelegado
  dsimp only
  split_ifs with hcobre
  · refine ⟨?_, fun _ => le_refl _, ?_, fun _ _ => rfl, id, rfl⟩
    · intro b
      rw [Nat.sub_self, Nat.sub_zero, Nat.min_eq_left hcobre]
      split_ifs with hb
      · rw [hb]
      · rfl
    · rw [Nat.sub_eq_zero_of_le hcobre]
      exact .nada _
  · have hexcesso : (s.account infrator).delegatedOut - (s.account infrator).staked ≤
        ((destinos s infrator).map (·.2)).sum :=
      (Nat.sub_le _ _).trans (h.saida infrator).le
    obtain ⟨hrevoga, hfrente⟩ := corta_revoga (s := s) rfl hexcesso
    change Rebaixado infrator s ((semVazia infrator (cortaDelegacoes infrator
      (destinos s infrator) ((s.account infrator).delegatedOut - (s.account infrator).staked)
        s)).comConta infrator fun c => { c with delegatedOut := (s.account infrator).staked })
    generalize cortaDelegacoes infrator (destinos s infrator)
      ((s.account infrator).delegatedOut - (s.account infrator).staked) s = t at hrevoga hfrente
    obtain ⟨hcontas, hlinha, hmuda, hcheia, hresto⟩ := semVazia_ok infrator t
    have hdele : ∀ b, ((semVazia infrator t).comConta infrator fun c =>
        { c with delegatedOut := (s.account infrator).staked }).delegado infrator b =
          t.delegado infrator b := by
      intro b
      rw [delegado_eq t, ← hlinha]
      rfl
    refine ⟨?_, fun b => (hdele b).trans_le (hrevoga.menor b), ?_, hrevoga.alheias.trans hmuda,
      fun _ => hcheia, ?_⟩
    · intro b
      have hconta : ∀ a, (semVazia infrator t).account a = t.account a := by
        intro a
        unfold State.account
        rw [hcontas]
      rw [hdele, State.account_comConta, hconta, hconta, hrevoga.contas infrator,
        hrevoga.contas b, Nat.min_eq_right (not_le.mp hcobre).le]
      split_ifs with hb
      · rw [hb]
      · rfl
    · unfold destinos
      change SaiDaFrente _ _ _ _ (Arestas.linha (semVazia infrator t).delegations infrator).entries
      rw [hlinha]
      exact hfrente
    · unfold State.comConta
      rw [hresto, hrevoga.resto]

/-- The books still agree after a withdrawal. -/
theorem Rebaixado.lastro (hr : Rebaixado infrator s t) (h : Lastro s) : Lastro t := by
  constructor
  · intro a
    rw [hr.contas]
    dsimp only
    split_ifs with ha
    · have hsoma := hr.daFrente.sum fun _ _ => rfl
      change Arestas.saida t.delegations infrator + _ =
        Arestas.saida s.delegations infrator at hsoma
      have hmin : ∀ {out staked novo : ℕ}, novo + (out - staked) = out → min out staked = novo := by
        intro out staked novo hnovo
        omega
      rw [← h.saida] at hsoma
      rw [ha]
      exact hmin hsoma
    · rw [hr.alheias.saida ha]
      exact h.saida a
  · intro b
    rw [hr.contas]
    dsimp only
    have hentra := hr.alheias.entrada b
    have hpeso := Arestas.peso_le_entrada s.delegations infrator b
    have hmenor := hr.menor b
    have hsubtrai : ∀ {entra novo antes depois : ℕ}, novo + antes = entra + depois →
        antes ≤ entra → depois ≤ antes → entra - (antes - depois) = novo := by
      intro entra novo antes depois hsoma hcabe hdepois
      omega
    rw [h.entrada]
    exact hsubtrai hentra hpeso hmenor
  · apply h.arrumada.muda hr.alheias
    · intro b v hv
      have hentradas : ∀ e ∈ destinos s infrator, 0 < e.2 ∧ e.1 ≠ infrator := by
        rintro ⟨b', v'⟩ he
        exact h.arrumada.aresta infrator b' v' (OrdMap.mem_entries_iff.mp he)
      exact hr.daFrente.forall_mem hentradas (fun e m hm he => ⟨hm, he.2⟩) (b, v)
        (OrdMap.mem_entries_iff.mpr hv)
    · exact hr.cheia fun m hm => h.arrumada.cheia infrator m hm

end

/-! ## Withdrawing from the queue -/

section

variable {dono : String} {us : List (String × Amount × ℕ)} {n : ℕ}

theorem cortaUnbonding_zero : cortaUnbonding dono us 0 = us := by
  induction us with
  | nil => rfl
  | cons u us ih => rw [cortaUnbonding, if_pos (.inr rfl), ih]

/-- The entries of others stay as they were. -/
theorem cortaUnbonding_alheias : (cortaUnbonding dono us n).filter (fun u => decide (u.1 ≠ dono)) =
    us.filter fun u => decide (u.1 ≠ dono) := by
  induction us generalizing n with
  | nil => rfl
  | cons u us ih =>
    unfold cortaUnbonding
    dsimp only
    split_ifs with hfica hresto
    · rw [List.filter_cons, List.filter_cons, ih]
    · obtain ⟨hdele, -⟩ := not_or.mp hfica
      have hdele : u.1 = dono := not_not.mp hdele
      rw [List.filter_cons, List.filter_cons, ih]
      simp [hdele]
    · obtain ⟨hdele, -⟩ := not_or.mp hfica
      have hdele : u.1 = dono := not_not.mp hdele
      rw [List.filter_cons, ih]
      simp [hdele]

/-- The amount leaves the entries of the owner from the front. -/
theorem cortaUnbonding_proprias (hn : n ≤ emUnbonding dono us) :
    SaiDaFrente (·.2.1) (fun u v => (u.1, v, u.2.2)) n (us.filter fun u => decide (u.1 = dono))
      ((cortaUnbonding dono us n).filter fun u => decide (u.1 = dono)) := by
  induction us generalizing n with
  | nil =>
    obtain rfl := Nat.le_zero.mp hn
    exact .nada []
  | cons u us ih =>
    by_cases hzero : n = 0
    · subst hzero
      rw [cortaUnbonding_zero]
      exact .nada _
    by_cases hdele : u.1 = dono
    · have hsoma : emUnbonding dono (u :: us) = u.2.1 + emUnbonding dono us := by
        simp [emUnbonding, hdele]
      rw [hsoma] at hn
      have hfila : (u :: us).filter (fun u => decide (u.1 = dono)) =
          u :: us.filter fun u => decide (u.1 = dono) := by
        simp [hdele]
      have hcorta : ¬ (u.1 ≠ dono ∨ n = 0) := by
        simp [hdele, hzero]
      rw [cortaUnbonding, if_neg hcorta, hfila]
      dsimp only
      rcases Nat.lt_or_ge n u.2.1 with hparte | hinteiro
      · rw [Nat.min_eq_right hparte.le, Nat.sub_self, cortaUnbonding_zero,
          if_pos (Nat.sub_pos_of_lt hparte), List.filter_cons_of_pos (by simp [hdele])]
        exact .parte (Nat.pos_of_ne_zero hzero) hparte
      · rw [Nat.min_eq_left hinteiro, Nat.sub_self, if_neg (lt_irrefl 0)]
        have htudo : u.2.1 + (n - u.2.1) = n := Nat.add_sub_cancel' hinteiro
        have hdepois := SaiDaFrente.inteiro (f := (·.2.1)) (u := u)
          (htudo.symm ▸ Nat.pos_of_ne_zero hzero : 0 < u.2.1 + (n - u.2.1))
          (ih (Nat.sub_le_iff_le_add'.mpr hn))
        rwa [htudo] at hdepois
    · have hsoma : emUnbonding dono (u :: us) = emUnbonding dono us := by
        simp [emUnbonding, hdele]
      rw [cortaUnbonding, if_pos (.inl hdele), List.filter_cons_of_neg (by simp [hdele]),
        List.filter_cons_of_neg (by simp [hdele])]
      exact ih (hsoma ▸ hn)

end

/-! ## The penalty -/

section

variable {cr : Cripto} {tx : Tx} {ctx : Ctx} {s t : State} {infrator chave : String} {u : Unit}

/-- What is taken before the delegations are looked at. -/
def cobrado (infrator : String) (penalidade : Amount) (s : State) : State :=
  { s.comConta infrator fun c => { c with staked := c.staked - penalidade } with
    unbonding := cortaUnbonding infrator s.unbonding
      (penalidade - (s.account infrator).staked) }

theorem penaliza_eq (infrator : String) (penalidade : Amount) (s : State) :
    penaliza infrator penalidade s =
      rebaixaDelegado infrator (cobrado infrator penalidade s) := by
  have hstake : ∀ staked penalidade : ℕ, staked - min staked penalidade = staked - penalidade ∧
      penalidade - min staked penalidade = penalidade - staked := by
    intro staked penalidade
    omega
  obtain ⟨hfica, hresta⟩ := hstake (s.account infrator).staked penalidade
  have hconta : (s.comConta infrator fun c => { c with
      staked := c.staked - min (s.account infrator).staked penalidade }) =
        s.comConta infrator fun c => { c with staked := c.staked - penalidade } := by
    unfold State.comConta
    dsimp only
    rw [hfica]
  unfold penaliza cobrado
  dsimp only
  rw [hconta, hresta]
  split_ifs with hpos
  · rfl
  · rw [Nat.eq_zero_of_not_pos hpos, cortaUnbonding_zero]
    rfl

theorem account_cobrado (infrator : String) (penalidade : Amount) (s : State) (b : String) :
    (cobrado infrator penalidade s).account b = if b = infrator
      then { s.account infrator with staked := (s.account infrator).staked - penalidade }
      else s.account b :=
  State.account_comConta s infrator b fun c => { c with staked := c.staked - penalidade }

theorem cobrado_lastro (h : Lastro s) (infrator : String) (penalidade : Amount) :
    Lastro (cobrado infrator penalidade s) := by
  have hconta := comConta_mantem .staked (a := infrator)
    (f := fun c => { c with staked := c.staked - penalidade }) (fun _ => rfl) s h
  exact escreve .unbonding hconta rfl

/-- The stakes, the queue and the delegations are the same. -/
structure MesmoPatrimonio (s t : State) : Prop where
  contas : ∀ a, (t.account a).staked = (s.account a).staked ∧
    (t.account a).delegatedOut = (s.account a).delegatedOut ∧
    (t.account a).delegatedIn = (s.account a).delegatedIn
  unbonding : t.unbonding = s.unbonding
  delegations : t.delegations = s.delegations

theorem patrimonio_ignoraConta {c : CampoConta} (hs : c ≠ .staked) (hd : c ≠ .delegated) :
    IgnoraConta (MesmoPatrimonio s) c where
  congr {t w} hw ha h := by
    have hfila : w.unbonding = t.unbonding := by
      have hcampo := congrArg State.unbonding hw
      exact hcampo
    have hdele : w.delegations = t.delegations := by
      have hcampo := congrArg State.delegations hw
      exact hcampo
    refine ⟨fun a => ?_, hfila.trans h.unbonding, hdele.trans h.delegations⟩
    rw [← (h.contas a).1, ← (h.contas a).2.1, ← (h.contas a).2.2]
    have hstake := congrArg Account.staked (ha a)
    have hout := congrArg Account.delegatedOut (ha a)
    have hin := congrArg Account.delegatedIn (ha a)
    cases c with
    | staked => exact absurd rfl hs
    | delegated => exact absurd rfl hd
    | _ => exact ⟨hstake, hout, hin⟩

instance : IgnoraConta (MesmoPatrimonio s) .balance :=
  patrimonio_ignoraConta (by decide) (by decide)
instance : IgnoraConta (MesmoPatrimonio s) .nonce :=
  patrimonio_ignoraConta (by decide) (by decide)
instance : IgnoraConta (MesmoPatrimonio s) .quota :=
  patrimonio_ignoraConta (by decide) (by decide)
instance : Ignora (MesmoPatrimonio s) .totalBurned where
  congr {t w} hw h := by
    have hcontas : w.accounts = t.accounts := by
      have hcampo := congrArg State.accounts hw
      exact hcampo
    have hfila := congrArg State.unbonding hw
    have hdele := congrArg State.delegations hw
    refine ⟨fun a => ?_, hfila.trans h.unbonding, hdele.trans h.delegations⟩
    unfold State.account
    rw [hcontas]
    exact h.contas a
instance : Ignora (MesmoPatrimonio s) .slashed where
  congr {t w} hw h := by
    have hcontas : w.accounts = t.accounts := by
      have hcampo := congrArg State.accounts hw
      exact hcampo
    have hfila := congrArg State.unbonding hw
    have hdele := congrArg State.delegations hw
    refine ⟨fun a => ?_, hfila.trans h.unbonding, hdele.trans h.delegations⟩
    unfold State.account
    rw [hcontas]
    exact h.contas a

/-- What a penalty takes from the stake, the queue and the delegations. -/
structure Penalizado (infrator : String) (s t : State) : Prop where
  risco : emRisco t infrator + penalidadeDe s infrator = emRisco s infrator
  stake : (t.account infrator).staked = (s.account infrator).staked - penalidadeDe s infrator
  fila : SaiDaFrente (·.2.1) (fun u v => (u.1, v, u.2.2))
    (penalidadeDe s infrator - (s.account infrator).staked)
    (s.unbonding.filter fun u => decide (u.1 = infrator))
    (t.unbonding.filter fun u => decide (u.1 = infrator))
  filaAlheia : (t.unbonding.filter fun u => decide (u.1 ≠ infrator)) =
    s.unbonding.filter fun u => decide (u.1 ≠ infrator)
  saida : (t.account infrator).delegatedOut =
    min (s.account infrator).delegatedOut (t.account infrator).staked
  alheios : ∀ a ≠ infrator, (t.account a).staked = (s.account a).staked ∧
    (t.account a).delegatedOut = (s.account a).delegatedOut
  delegacoes : SaiDaFrente (·.2) (fun e v => (e.1, v))
    ((s.account infrator).delegatedOut - (t.account infrator).staked) (destinos s infrator)
    (destinos t infrator)
  delegacoesAlheias : Arestas.MudaDe infrator s.delegations t.delegations
  entradas : ∀ b, (t.account b).delegatedIn + s.delegado infrator b =
    (s.account b).delegatedIn + t.delegado infrator b

theorem penalidade_le_risco (s : State) (infrator : String) :
    penalidadeDe s infrator ≤ emRisco s infrator := by
  change emRisco s infrator * 10 / 100 ≤ _
  omega

/-- The penalty is taken, and the books still agree. -/
theorem penalizado (h : Lastro s) (infrator : String) :
    Penalizado infrator s (penaliza infrator (penalidadeDe s infrator) s) ∧
      Lastro (penaliza infrator (penalidadeDe s infrator) s) := by
  have hcobrado := cobrado_lastro h infrator (penalidadeDe s infrator)
  have hr := rebaixa_ok hcobrado infrator
  have hconta := account_cobrado infrator (penalidadeDe s infrator) s
  rw [penaliza_eq]
  refine ⟨?_, hr.lastro hcobrado⟩
  generalize rebaixaDelegado infrator (cobrado infrator (penalidadeDe s infrator) s) = t at hr
  have hmeu := hr.contas infrator
  rw [if_pos rfl, hconta infrator, if_pos rfl] at hmeu
  have hfila : t.unbonding = cortaUnbonding infrator s.unbonding
      (penalidadeDe s infrator - (s.account infrator).staked) := by
    rw [hr.resto]
    rfl
  have hstake : (t.account infrator).staked =
      (s.account infrator).staked - penalidadeDe s infrator := congrArg Account.staked hmeu
  have hcabe := penalidade_le_risco s infrator
  have hresta : penalidadeDe s infrator - (s.account infrator).staked ≤
      emUnbonding infrator s.unbonding := Nat.sub_le_iff_le_add'.mpr hcabe
  have hfrente := cortaUnbonding_proprias hresta
  have hsoma := hfrente.sum fun _ _ => rfl
  have hdele : ∀ b, (cobrado infrator (penalidadeDe s infrator) s).delegado infrator b =
      s.delegado infrator b := fun _ => rfl
  have halheio : ∀ a ≠ infrator, t.account a = { s.account a with
      delegatedIn := (s.account a).delegatedIn -
        (s.delegado infrator a - t.delegado infrator a) } := by
    intro a ha
    rw [hr.contas, if_neg ha, hconta, if_neg ha, hdele]
  constructor
  · have hrisco : ∀ {risco stake fila stake' fila' pena : ℕ}, risco = stake + fila →
        stake' = stake - pena → fila' + (pena - stake) = fila → pena ≤ risco →
        stake' + fila' + pena = risco := by
      intro risco stake fila stake' fila' pena hr hs hf hp
      omega
    unfold emRisco
    rw [hfila]
    exact hrisco rfl hstake hsoma hcabe
  · exact hstake
  · rw [hfila]
    exact hfrente
  · rw [hfila]
    exact cortaUnbonding_alheias
  · rw [hstake]
    exact congrArg Account.delegatedOut hmeu
  · intro a ha
    rw [halheio a ha]
    exact ⟨rfl, rfl⟩
  · have hdaFrente := hr.daFrente
    rw [hconta infrator, if_pos rfl] at hdaFrente
    rw [hstake]
    exact hdaFrente
  · exact hr.alheias
  · intro b
    have hin : (t.account b).delegatedIn = (s.account b).delegatedIn -
        (s.delegado infrator b - t.delegado infrator b) := by
      by_cases hb : b = infrator
      · rw [hb]
        exact congrArg Account.delegatedIn hmeu
      · rw [halheio b hb]
    have hmenor := hr.menor b
    have hpeso := Arestas.peso_le_entrada s.delegations infrator b
    have hsubtrai : ∀ {entra novo antes depois : ℕ}, novo = entra - (antes - depois) →
        antes ≤ entra → depois ≤ antes → novo + antes = entra + depois := by
      intro entra novo antes depois hnovo hantes hdepois
      omega
    rw [← h.entrada] at hpeso
    exact hsubtrai hin hpeso hmenor

theorem Penalizado.congr {w : State} (h : Penalizado infrator s t) (hw : MesmoPatrimonio t w) :
    Penalizado infrator s w := by
  have hdele : ∀ b, w.delegado infrator b = t.delegado infrator b := by
    intro b
    unfold State.delegado
    rw [hw.delegations]
  constructor
  · rw [← h.risco]
    unfold emRisco
    rw [(hw.contas infrator).1, hw.unbonding]
  · rw [(hw.contas infrator).1]
    exact h.stake
  · rw [hw.unbonding]
    exact h.fila
  · rw [hw.unbonding]
    exact h.filaAlheia
  · rw [(hw.contas infrator).1, (hw.contas infrator).2.1]
    exact h.saida
  · intro a ha
    rw [(hw.contas a).1, (hw.contas a).2.1]
    exact h.alheios a ha
  · unfold destinos
    rw [(hw.contas infrator).1, hw.delegations]
    exact h.delegacoes
  · rw [hw.delegations]
    exact h.delegacoesAlheias
  · intro b
    rw [(hw.contas b).2.2, hdele]
    exact h.entradas b

/-- The account and the height that an accusation names. -/
def acusadoDe (tx : Tx) : Option (String × ℤ) :=
  match tx.campo "blockA" with
  | some v =>
    match v.campo "height" with
    | some (.int altura) =>
      some ((texto (v.campo "producerAccount")).getD ((texto (v.campo "producer")).getD ""), altura)
    | _ => none
  | none => none

/-- The key under which a penalty is recorded. -/
def chaveDe (acusado : String × ℤ) : String := s!"{acusado.1}:{acusado.2}"

theorem acusado_of_acusacao {va vb : JsonValue} (hva : tx.campo "blockA" = some va)
    (h : Acusacao s va vb infrator chave) :
    ∃ altura, acusadoDe tx = some (infrator, altura) ∧ chave = chaveDe (infrator, altura) := by
  obtain ⟨altura, haltura, -, hchave⟩ := h.registro
  refine ⟨altura, ?_, hchave⟩
  unfold acusadoDe
  rw [hva]
  dsimp only
  rw [haltura, h.nome]

/-- The state with the reward paid, the rest burned and the penalty on record. -/
def premiado (denunciante chave : String) (saldo queimado : Amount) (s : State) : State :=
  { State.comSaldo { s with totalBurned := queimado } denunciante saldo with
    slashed := s.slashed.insert chave true }

theorem premiado_mantem {I : State → Prop} [IgnoraConta I .balance] [Ignora I .totalBurned]
    [Ignora I .slashed] (denunciante chave : String) (saldo queimado : Amount) (s : State)
    (hs : I s) : I (premiado denunciante chave saldo queimado s) := by
  have hqueimado : I { s with totalBurned := queimado } := escreve .totalBurned hs rfl
  exact escreve .slashed (comSaldo_mantem denunciante saldo _ hqueimado) rfl

theorem premiado_of_creditar {denunciante chave : String} {premio queimado : Amount} {w : State}
    (h : creditar denunciante premio { s with totalBurned := queimado } = .ok u w) :
    { w with slashed := w.slashed.insert chave true } =
      premiado denunciante chave (s.balanceOf denunciante + premio) queimado s := by
  rw [creditar_eq_ok h]
  rfl

theorem balanceOf_premiado (denunciante chave : String) (saldo queimado : Amount) (s : State)
    (a : String) : (premiado denunciante chave saldo queimado s).balanceOf a =
      if a = denunciante then saldo else s.balanceOf a :=
  balanceOf_comSaldo_apply { s with totalBurned := queimado } denunciante saldo a

theorem slashed_premiado (denunciante chave : String) (saldo queimado : Amount) (s : State) :
    (premiado denunciante chave saldo queimado s).slashed = s.slashed.insert chave true := rfl

/-- What the handler of an accepted accusation leaves. -/
theorem slashDoubleSign_ok (h : slashDoubleSign cr tx ctx s = .ok u t) :
    ∃ infrator altura, acusadoDe tx = some (infrator, altura) ∧
      s.slashed.getD (chaveDe (infrator, altura)) false = false ∧
      t = premiado tx.de (chaveDe (infrator, altura)) (s.balanceOf tx.de + premioDe s infrator)
        (s.totalBurned + (penalidadeDe s infrator - premioDe s infrator))
        (penaliza infrator (penalidadeDe s infrator) s) := by
  have hlimite : 0 < u128Limit := by decide
  unfold slashDoubleSign at h
  rw [get_bind_run] at h
  generalize hva : tx.campo "blockA" = va at h
  generalize tx.campo "blockB" = vb at h
  split at h
  case h_2 => cases h
  next pa pb =>
  obtain ⟨⟨va, vb⟩, hlidas, h⟩ := lift_bind_eq_ok.mp h
  cases hlidas
  obtain ⟨⟨infrator, chave⟩, hinfrator, h⟩ := lift_bind_eq_ok.mp h
  obtain ⟨_, hnova, h⟩ := lift_bind_eq_ok.mp h
  obtain ⟨fila, hfila, h⟩ := lift_bind_eq_ok.mp h
  obtain ⟨risco, hrisco, h⟩ := lift_bind_eq_ok.mp h
  obtain ⟨_, -, h⟩ := lift_bind_eq_ok.mp h
  obtain ⟨_, -, h⟩ := lift_bind_eq_ok.mp h
  obtain ⟨_, -, h⟩ := lift_bind_eq_ok.mp h
  obtain ⟨bruto, hbruto, h⟩ := lift_bind_eq_ok.mp h
  obtain ⟨premio, hpremio, h⟩ := lift_bind_eq_ok.mp h
  obtain ⟨altura, hacusado, hchave⟩ := acusado_of_acusacao hva (infratorDe_eq_ok.mp hinfrator)
  obtain ⟨rfl, -⟩ := (somaUnbonding_eq_ok hlimite).mp hfila
  obtain ⟨hrisco, -⟩ := soma_eq_ok.mp hrisco
  rw [Nat.zero_add] at hrisco
  have hrisco : risco = emRisco s infrator := hrisco
  subst hrisco
  obtain ⟨rfl, -⟩ := produto_eq_ok.mp hbruto
  obtain ⟨rfl, -⟩ := produto_eq_ok.mp hpremio
  obtain ⟨hsaldos, hburned⟩ := penaliza_saldos infrator (penalidadeDe s infrator) s
  rw [modify_bind_run, get_bind_run] at h
  obtain ⟨queimado, hqueimado, h⟩ := lift_bind_eq_ok.mp h
  rw [set_bind_run] at h
  obtain ⟨_, w, hcredita, h⟩ := bind_eq_ok.mp h
  have hqueimado : queimado =
      (penaliza infrator (penalidadeDe s infrator) s).totalBurned +
        (penalidadeDe s infrator - premioDe s infrator) := (soma_eq_ok.mp hqueimado).1
  rw [hburned] at hqueimado
  refine ⟨infrator, altura, hacusado, hchave ▸ Bool.not_eq_true _ ▸ recusar_eq_ok.mp hnova, ?_⟩
  refine (EStateM.Result.ok.inj h).2.symm.trans ?_
  rw [← hchave, ← hsaldos tx.de, ← hqueimado]
  exact premiado_of_creditar hcredita

end

/-! ## Along a run -/

section

variable {amb : Ambiente} {tx : Tx} {height blockTs : ℕ} {s₀ s t : State}
  {passado : List (State × Acao)}

theorem Tipo.das_delegacoes {tipo : Tipo} (h : Campo.delegations ∈ tipo.pegada) :
    tipo = .slashDoubleSign ∨ tipo = .delegateResource ∨ tipo = .undelegateResource := by
  revert h
  cases tipo <;> decide

theorem Tipo.delegations_of_delegated {tipo : Tipo} (h : CampoConta.delegated ∈ tipo.pegadaConta) :
    Campo.delegations ∈ tipo.pegada := by
  revert h
  cases tipo <;> decide

theorem Tipo.dos_punidos {tipo : Tipo} (h : Campo.slashed ∈ tipo.pegada) :
    tipo = .slashDoubleSign := by
  revert h
  cases tipo <;> decide

/-- The fields of an action that only a handler writes are those of its type. -/
theorem Acao.pegada_do_tipo {a : Acao} {tipo : Tipo} (htipo : a.tipo? = some tipo) {c : Campo}
    (hc : c.doManipulador = true) (h : c ∈ a.pegada) : c ∈ tipo.pegada := by
  obtain ⟨tx, htx, hdeTexto⟩ := Option.bind_eq_some_iff.mp htipo
  cases a <;> cases htx
  split_ifs at hdeTexto with hvm
  simp only [Acao.pegada, hvm, if_false, hdeTexto, Option.elim_some, List.mem_cons] at h
  rcases h with rfl | rfl | h
  · cases hc
  · cases hc
  · exact h

theorem Acao.delegations_of_delegated {a : Acao} (h : CampoConta.delegated ∈ a.pegadaConta) :
    Campo.delegations ∈ a.pegada := by
  cases a with
  | transacao tx height blockTs =>
    dsimp only [Acao.pegada, Acao.pegadaConta] at h ⊢
    split_ifs at h ⊢ with hvm
    · simp at h
    · cases hdeTexto : Tipo.deTexto tx.txType with
      | none =>
        rw [hdeTexto] at h
        simp at h
      | some tipo =>
        rw [hdeTexto] at h
        simp only [Option.elim_some, List.mem_cons] at h ⊢
        rcases h with h | h | h
        · cases h
        · cases h
        · exact .inr (.inr (Tipo.delegations_of_delegated h))
  | tick => simp [Acao.pegadaConta] at h
  | abre => cases h
  | emite => simp [Acao.pegadaConta] at h

/-- The books agree after every accepted action. -/
theorem Acao.Aceita.lastro {a : Acao} (ha : a.Aceita amb s t) (hs : Lastro s) : Lastro t := by
  by_cases hpega : Campo.delegations ∈ a.pegada
  · obtain ⟨tx, height, blockTs, tipo, rfl, htipo, ⟨d⟩⟩ := ha.despacho rfl hpega
    refine d.fim_mantem ?_
    rcases Tipo.das_delegacoes (Acao.pegada_do_tipo htipo rfl hpega) with rfl | rfl | rfl
    · have hmaneja : slashDoubleSign amb.cripto tx ⟨height, blockTs, d.fee⟩ s = .ok ⟨⟩ d.meio :=
        d.maneja
      obtain ⟨infrator, altura, -, -, hmeio⟩ := slashDoubleSign_ok hmaneja
      rw [hmeio]
      exact premiado_mantem _ _ _ _ _ (penalizado hs infrator).2
    · have hmaneja : delegateResource amb.cripto tx ⟨height, blockTs, d.fee⟩ s = .ok ⟨⟩ d.meio :=
        d.maneja
      exact delegateResource_lastro hmaneja hs
    · have hmaneja : undelegateResource amb.cripto tx ⟨height, blockTs, d.fee⟩ s =
          .ok ⟨⟩ d.meio := d.maneja
      exact undelegateResource_lastro hmaneja hs
  · refine ha.partes (fun c hc => lastro_ignoraConta ?_) (fun c hc hne => lastro_ignora hne ?_) hs
    · rintro rfl
      exact hpega (Acao.delegations_of_delegated hc)
    · rintro rfl
      exact hpega hc

theorem Genese.lastro (h : Genese amb s₀) : Lastro s₀ := by
  obtain ⟨alocacoes, h⟩ := h
  exact (applyGenesis_mantem amb.cripto alocacoes).ok (I := Lastro)
    ⟨fun _ => rfl, fun _ => rfl, ⟨fun a b v hv => (by cases hv), fun a m hm => (by cases hm)⟩⟩ h

/-- In every reachable state what each account says it delegates and receives is what the
edges say. -/
theorem lastro_of_execucao (h₀ : Genese amb s₀) (h : Execucao amb s₀ passado s) : Lastro s :=
  h.invariante h₀.lastro fun hs ha => ha.lastro hs

/-! ## One penalty for each account and height -/

theorem cego_slashed {c : Campo} (h : c ≠ .slashed) : Cego State.slashed c where
  cego s := by
    cases c with
    | slashed => exact absurd rfl h
    | _ => rfl

instance : Cego State.slashed .accounts := cego_slashed (by decide)
instance : Cego State.slashed .unbonding := cego_slashed (by decide)
instance : Cego State.slashed .delegations := cego_slashed (by decide)
instance : Cego State.slashed .totalBurned := cego_slashed (by decide)

theorem penaliza_slashed (infrator : String) (penalidade : Amount) (s : State) :
    (penaliza infrator penalidade s).slashed = s.slashed :=
  penaliza_mantem (I := Le State.slashed (· = s.slashed)) infrator penalidade s rfl

/-- An accepted accusation went through its handler. -/
theorem Acao.Aceita.manejada (ha : (Acao.transacao tx height blockTs).Aceita amb s t)
    (htipo : tx.txType = "SLASH_DOUBLE_SIGN") :
    ∃ d : Despacho amb tx .slashDoubleSign height blockTs s t,
      t.totalBurned = d.meio.totalBurned + d.fee := by
  cases ha with
  | transacao hv h =>
    have hvm : tx.txType ∉ EavmTx.tipos := by
      rw [htipo]
      decide
    have hdeTexto : Tipo.deTexto tx.txType = some .slashDoubleSign := by
      rw [htipo]
      rfl
    unfold applyTransaction at h
    rw [get_bind_run] at h
    obtain ⟨recebido, u, hentrada, h⟩ := bind_eq_ok.mp h
    obtain ⟨hentrada, rfl⟩ := lift_eq_ok.mp hentrada
    rw [if_neg hvm] at h
    unfold aplicarNativa at h
    obtain ⟨r, u, htaxa, h⟩ := bind_eq_ok.mp h
    obtain ⟨htaxa, rfl⟩ := lift_eq_ok.mp htaxa
    obtain ⟨gb, fee⟩ := r
    obtain ⟨⟨⟩, meio, hmaneja, h⟩ := bind_eq_ok.mp h
    rw [modify_bind_run] at h
    obtain ⟨_, v, hqueima, h⟩ := bind_eq_ok.mp h
    obtain ⟨-, rfl⟩ := pure_eq_ok.mp h
    have hfim := queimarTaxa_eq_ok hqueima
    unfold despachar at hmaneja
    rw [hdeTexto] at hmaneja
    refine ⟨⟨recebido, gb, fee, meio, hentrada, htaxa, hmaneja, _, hfim⟩, ?_⟩
    exact congrArg State.totalBurned hfim

/-- The record of a penalty stays. -/
theorem Acao.Aceita.slashed_fica {a : Acao} {chave : String} (ha : a.Aceita amb s t)
    (h : s.slashed.getD chave false = true) : t.slashed.getD chave false = true := by
  by_cases hpega : Campo.slashed ∈ a.pegada
  · obtain ⟨tx, height, blockTs, tipo, rfl, htipo, ⟨d⟩⟩ := ha.despacho rfl hpega
    obtain rfl := Tipo.dos_punidos (Acao.pegada_do_tipo htipo rfl hpega)
    have hmaneja : slashDoubleSign amb.cripto tx ⟨height, blockTs, d.fee⟩ s = .ok ⟨⟩ d.meio :=
      d.maneja
    obtain ⟨infrator, altura, -, -, hmeio⟩ := slashDoubleSign_ok hmaneja
    have hslashed : d.meio.slashed =
        s.slashed.insert (chaveDe (infrator, altura)) true := by
      rw [hmeio, slashed_premiado, penaliza_slashed]
    rw [d.le (π := State.slashed), hslashed, OrdMap.getD_insert]
    split_ifs
    · rfl
    · exact h
  · have hmesmo : t.slashed = s.slashed := by
      refine ha.le fun c hc => cego_slashed ?_
      rintro rfl
      exact hpega hc
    rw [hmesmo]
    exact h

/-- What an accepted accusation does, with the fee that is burned at its end. -/
structure Punido (infrator denunciante : String) (taxa : Amount) (s t : State) : Prop
    extends Penalizado infrator s t where
  saldos : ∀ a, t.balanceOf a = s.balanceOf a + if a = denunciante then premioDe s infrator else 0
  queimado : t.totalBurned =
    s.totalBurned + (penalidadeDe s infrator - premioDe s infrator) + taxa

theorem punido_de_aceita (hs : Lastro s) (htipo : tx.txType = "SLASH_DOUBLE_SIGN")
    (ha : (Acao.transacao tx height blockTs).Aceita amb s t) :
    ∃ infrator altura gb taxa, acusadoDe tx = some (infrator, altura) ∧
      s.slashed.getD (chaveDe (infrator, altura)) false = false ∧
      t.slashed.getD (chaveDe (infrator, altura)) false = true ∧
      apurarTaxa s tx height = .ok (gb, taxa) ∧ Punido infrator tx.de taxa s t := by
  obtain ⟨d, hqueimado⟩ := ha.manejada htipo
  have hmaneja : slashDoubleSign amb.cripto tx ⟨height, blockTs, d.fee⟩ s = .ok ⟨⟩ d.meio :=
    d.maneja
  obtain ⟨infrator, altura, hacusado, hnova, hmeio⟩ := slashDoubleSign_ok hmaneja
  obtain ⟨hsaldos, -⟩ := penaliza_saldos infrator (penalidadeDe s infrator) s
  have hpatrimonio : MesmoPatrimonio (penaliza infrator (penalidadeDe s infrator) s) t := by
    refine d.fim_mantem ?_
    rw [hmeio]
    exact premiado_mantem _ _ _ _ _ ⟨fun _ => ⟨rfl, rfl, rfl⟩, rfl, rfl⟩
  refine ⟨infrator, altura, d.gb, d.fee, hacusado, hnova, ?_, d.taxa,
    (penalizado hs infrator).1.congr hpatrimonio, ?_, ?_⟩
  · rw [d.le (π := State.slashed), hmeio, slashed_premiado, OrdMap.getD_insert, if_pos rfl]
  · intro a
    rw [d.saldos_fim, hmeio]
    rw [balanceOf_premiado]
    split_ifs with hde
    · rw [hde]
    · exact hsaldos a
  · rw [hqueimado, hmeio]
    rfl

end

/-! ## An accusation that goes through -/

section

open Blockchain

/-- A first block of account B, with the hash that it carries. -/
def provaEm (ts : ℤ) (hash : String) : Block :=
  { height := 1, timestamp := ts, previousHash := hashNulo, txRoot := criptoIdeal.blockTxRoot []
    txCount := 0, producer := enderecoB, publicKey := some (chaveIdeal 1)
    pqPublicKey := some (chaveIdeal 1), stateRoot := some hashNulo, signature := chaveIdeal 1
    pqSignature := chaveIdeal 1, hash := hash, transactions := [] }

theorem prova_integra {ts : ℤ} {hash : String} (hpos : 0 < ts) (hts : ts ≤ maxSafeInteger)
    (hhash : criptoIdeal.blockHash (provaEm ts "").payload = hash) :
    criptoIdeal.verifyBlockIntegrity (provaEm ts hash) = .ok () := by
  have hp : (produtorDe (chaveIdeal 1) enderecoB).Capaz criptoIdeal :=
    trio_capaz _ (List.mem_cons_of_mem _ List.mem_cons_self)
  obtain ⟨b, hb, hint, -, -⟩ := hp.constroi ⟨1, hashNulo, ts, [], some hashNulo, none, false⟩ rfl
    (by decide +kernel) rfl Nat.one_pos (by norm_num [maxSafeInteger]) hpos hts
    fun h => by cases h
  have hprova : buildBlock criptoIdeal (produtorDe (chaveIdeal 1) enderecoB).signer
      ⟨1, hashNulo, ts, [], some hashNulo, none, false⟩ = .ok (provaEm ts hash) := by
    unfold buildBlock
    refine except_bind_eq_ok.mpr ⟨enderecoB, hp.endereco, ?_⟩
    refine except_bind_eq_ok.mpr ⟨_, hp.chavesNoFio false, ?_⟩
    refine except_bind_eq_ok.mpr ⟨(chaveIdeal 1, chaveIdeal 1), rfl, ?_⟩
    rw [← hhash]
    rfl
  rw [hprova] at hb
  cases hb
  exact hint

def hashDaProva : String := "236c78c973c0076c98242aa642982b3cff5491371cb9a74030dd166c394334d1"
def hashDaOutraProva : String := "a2700b6057b74c8a07f8c23f24e26f26b7a6393b00d2720b4e7be63e19105a45"

instance hashes_das_provas : Fact (criptoIdeal.blockHash (provaEm 3000 "").payload = hashDaProva ∧
    criptoIdeal.blockHash (provaEm 12000 "").payload = hashDaOutraProva) where
  out := by
    have hbytes : ∀ ts, criptoIdeal.blockHash (provaEm ts "").payload =
        criptoIdeal.eavHash (octetosDe (provaEm ts "").core) :=
      fun ts => criptoIdeal.eavHashOne_canonicalJson _
    rw [hbytes, hbytes]
    unfold provaEm
    rw [criptoIdeal_eq]
    decide +kernel

/-- The accusation of account A, unsigned. -/
def denuncia : Tx :=
  { acusacao enderecoA (provaEm 3000 hashDaProva) (provaEm 12000 hashDaOutraProva) with nonce := 1 }

def denunciaDeA : Tx := denuncia.assinada criptoIdeal (chaveIdeal 0) enderecoA

/-- The GB quota of account A after the accusation. -/
def cotaDaDenuncia : Peek := ⟨0, 13624⟩

instance denuncia_pronta : Fact ((Ambiente.verifyCampos denuncia).toOption.isSome = true ∧
    (ambienteIdeal.verifyDestino denuncia).toOption.isSome = true ∧ dadosCabem denuncia = true ∧
    (conferirEntrada estadoTrio denunciaDeA).toOption = some 1 ∧
    (taxaPorOctetos estadoTrio { denunciaDeA with id := some hashNulo } 1).toOption.map
      (fun r => (r.1.shortfall, r.1.usedAfter, r.2)) = some (0, 13624, 0)) where
  out := by decide +kernel

theorem genese_trio : Genese ambienteIdeal estadoTrio := by
  have h := estadoGenese_trio
  unfold estadoGenese at h
  obtain ⟨alocacoes, hlidas, h⟩ := except_bind_eq_ok.mp h
  obtain ⟨⟨⟨⟩, s⟩, hexec, h⟩ := except_bind_eq_ok.mp h
  cases h
  exact ⟨alocacoes, executar_eq_ok.mp hexec⟩

theorem acusacao_do_trio : Acusacao estadoTrio (blockToJson (provaEm 3000 hashDaProva))
    (blockToJson (provaEm 12000 hashDaOutraProva)) enderecoB (chaveDe (enderecoB, 1)) := by
  refine ⟨rfl, rfl, by decide +kernel, rfl, rfl, ?_, 1, rfl, by decide, rfl⟩
  rintro conta ⟨⟩

/-- The handler accepts the accusation, and what it burns fits. -/
theorem maneja_denuncia : ∃ meio, manipulador ambienteIdeal denunciaDeA ⟨1, 1, 0⟩ .slashDoubleSign
    estadoTrio = .ok ⟨⟩ meio ∧ meio.totalBurned + 0 < u128Limit := by
  obtain ⟨hexposta, hcabe⟩ := exposta_trio (a := provaEm 3000 hashDaProva) rfl rfl
  have hcabe : Cabe estadoTrio enderecoB enderecoA := hcabe
  have hprova : ∀ {ts : ℤ} {hash : String} (nome : String), 0 < ts → ts ≤ maxSafeInteger →
      criptoIdeal.blockHash (provaEm ts "").payload = hash →
      evidencia criptoIdeal nome (blockToJson (provaEm ts hash)) = .ok () := by
    intro ts hash nome hpos hts hhash
    have halt : ((provaEm ts hash).height : ℤ) ≤ i64Max := (by decide : (1 : ℤ) ≤ i64Max)
    exact evidencia_iff.mpr ⟨_, blockFromJson_blockToJson halt, prova_integra hpos hts hhash⟩
  have hiff := @slashDoubleSign_iff criptoIdeal estadoTrio denunciaDeA ⟨1, 1, 0⟩
  obtain ⟨⟨⟩, t, h⟩ := hiff.mpr ⟨_, _, enderecoB, _, rfl, rfl, acusacao_do_trio,
    hexposta.nova, hexposta.risco, hprova "A" (by decide) (by decide) hashes_das_provas.out.1,
    hprova "B" (by decide) (by decide) hashes_das_provas.out.2, hcabe⟩
  refine ⟨t, h, ?_⟩
  obtain ⟨infrator, altura, hacusado, -, rfl⟩ := slashDoubleSign_ok h
  cases hacusado
  exact hcabe.queimado

theorem denuncia_aceita :
    ∃ t, (Acao.transacao denunciaDeA 1 1).Aceita ambienteIdeal estadoTrio t := by
  obtain ⟨hcampos, hdestino, hdata, hentrada, htaxa⟩ := denuncia_pronta.out
  have hp := trio_capaz (produtorDe (chaveIdeal 0) enderecoA) List.mem_cons_self
  have hv := @verify_assinada ambienteIdeal _ _ _ hp (hp.valido digere_ideal)
    (eq_ok_of_isSome hcampos) (eq_ok_of_isSome hdestino) (verifyData_of_dadosCabem hdata)
  obtain ⟨meio, hmaneja, hcabe⟩ := maneja_denuncia
  have hrecebido : conferirEntrada estadoTrio denunciaDeA = .ok 1 := by
    cases hc : conferirEntrada estadoTrio denunciaDeA with
    | ok n =>
      rw [hc] at hentrada
      exact congrArg _ (Option.some.inj hentrada)
    | error e =>
      rw [hc] at hentrada
      cases hentrada
  have hfee : apurarTaxa estadoTrio { denunciaDeA with id := some hashNulo } 1 =
      .ok (cotaDaDenuncia, 0) := by
    rw [← taxaPorOctetos_eq]
    cases hc : taxaPorOctetos estadoTrio { denunciaDeA with id := some hashNulo } 1 with
    | ok r =>
      rw [hc] at htaxa
      obtain ⟨⟨shortfall, usedAfter⟩, f⟩ := r
      cases Option.some.inj htaxa
      rfl
    | error e =>
      rw [hc] at htaxa
      cases htaxa
  exact ⟨_, aceita_de_manipulador hv rfl hrecebido (apurarTaxa_assinada digere_ideal hfee) hmaneja
    hcabe⟩

end

end Eav7
