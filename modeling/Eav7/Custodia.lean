import Eav7.Tarefas

/-!
# What the AI handlers pay

Each accepted handler of the AI layer makes one move of one task: balances change by the
sender's cost and by what the move settles, and stakes by what an oracle is fined.
-/

namespace Eav7

open Base
open AiTx (taskIdDe concluir comQuorum comAberta comTarefa comOraculo apurarQuorum reembolsar)

variable {amb : Ambiente} {cr : Cripto} {tx : Tx} {ctx : Ctx} {s t u : State}

/-! ## Balances and stakes -/

def State.stakeDe (s : State) (oraculo : String) : Amount :=
  ((s.oracles.get? oraculo).map (·.stake)).getD 0

/-- Balances after what is spent and paid, and stakes after fines. -/
structure Efeito (gastos pagos multas : List (String × Amount)) (s t : State) : Prop where
  saldos : Move gastos pagos s.balanceOf t.balanceOf
  stakes : Move multas [] s.stakeDe t.stakeDe

namespace Efeito

variable {g g' p p' m m' : List (String × Amount)}

/-- Writes outside accounts and oracles. -/
theorem alheio (ha : t.accounts = s.accounts) (ho : t.oracles = s.oracles) :
    Efeito [] [] [] s t := by
  have hsaldos : t.balanceOf = s.balanceOf := by
    funext y
    unfold State.balanceOf State.account
    rw [ha]
  have hstakes : t.stakeDe = s.stakeDe := by
    funext y
    unfold State.stakeDe
    rw [ho]
  exact ⟨hsaldos ▸ .refl _, hstakes ▸ .refl _⟩

theorem trans (h : Efeito g p m s t) (h' : Efeito g' p' m' t u) :
    Efeito (g ++ g') (p ++ p') (m ++ m') s u :=
  ⟨h.saldos.trans h'.saldos, h.stakes.trans h'.stakes⟩

/-- What moves no balance and no stake changes nothing of an effect. -/
theorem segue (h : Efeito g p m s t) (h' : Efeito [] [] [] t u) : Efeito g p m s u := by
  have htudo := h.trans h'
  rwa [List.append_nil, List.append_nil, List.append_nil] at htudo

theorem congr (h : Efeito g p m s t) (hg : ∀ y, cabe y g = cabe y g')
    (hp : ∀ y, cabe y p = cabe y p') (hm : ∀ y, cabe y m = cabe y m') : Efeito g' p' m' s t :=
  ⟨h.saldos.congr hg hp, h.stakes.congr hm fun _ => rfl⟩

theorem comTarefa (id : String) (f : Task → Task) (s : State) :
    Efeito [] [] [] s (AiTx.comTarefa id f s) := by
  unfold AiTx.comTarefa
  split <;> exact alheio rfl rfl

/-- An oracle may change in all but its stake. -/
theorem comOraculo {f : Oracle → Oracle} (hf : ∀ o, (f o).stake = o.stake) (nome : String)
    (s : State) : Efeito [] [] [] s (AiTx.comOraculo nome f s) := by
  unfold AiTx.comOraculo
  split
  · rename_i o ho
    refine ⟨.refl _, ?_⟩
    have hstakes : State.stakeDe { s with oracles := s.oracles.insert nome (f o) } = s.stakeDe := by
      funext y
      unfold State.stakeDe
      dsimp only
      rw [OrdMap.get?_insert]
      split_ifs with hy
      · rw [hy, ho]
        exact hf o
      · rfl
    exact hstakes ▸ .refl _
  · exact alheio rfl rfl

theorem rebaixar (passo : ℕ) (quem : List String) (s : State) :
    Efeito [] [] [] s (AiTx.rebaixar passo quem s) := by
  induction quem generalizing s with
  | nil => exact alheio rfl rfl
  | cons q outros ih => exact (comOraculo (f := (·.falhou passo)) (fun _ => rfl) q s).trans (ih _)

theorem ajustarJurados (mantido : Bool) (votos : List (String × Bool)) (s : State) :
    Efeito [] [] [] s (AiTx.ajustarJurados mantido votos s) := by
  induction votos generalizing s with
  | nil => exact alheio rfl rfl
  | cons v resto ih =>
    refine (comOraculo (fun o => ?_) v.1 s).trans (ih _)
    split_ifs <;> rfl

end Efeito

theorem balanceOf_comSaldo_apply (s : State) (k : String) (v : Amount) (y : String) :
    (s.comSaldo k v).balanceOf y = if y = k then v else s.balanceOf y := by
  unfold State.balanceOf State.comSaldo
  rw [State.account_comConta]
  split_ifs <;> rfl

theorem debitar_eq_ok {de : String} {v : Amount} {x : Unit} (h : debitar de v s = .ok x t) :
    v ≤ s.balanceOf de ∧ t = s.comSaldo de (s.balanceOf de - v) := by
  unfold debitar at h
  rw [get_bind_run, set_bind_run] at h
  obtain ⟨_, w, hrecusa, h₁⟩ := bind_eq_ok.mp h
  obtain ⟨hrecusa', -⟩ := lift_eq_ok.mp hrecusa
  exact ⟨not_lt.mp (recusar_eq_ok.mp hrecusa'), (EStateM.Result.ok.inj h₁).2.symm⟩

theorem creditar_eq_ok {para : String} {v : Amount} {x : Unit} (h : creditar para v s = .ok x t) :
    t = s.comSaldo para (s.balanceOf para + v) := by
  unfold creditar at h
  rw [get_bind_run, set_bind_run] at h
  obtain ⟨saldo, w, hsoma, h₁⟩ := bind_eq_ok.mp h
  obtain ⟨hsoma', -⟩ := lift_eq_ok.mp hsoma
  obtain ⟨rfl, -⟩ := soma_eq_ok.mp hsoma'
  exact (EStateM.Result.ok.inj h₁).2.symm

namespace Efeito

theorem debita {de : String} {v : Amount} {x : Unit} (h : debitar de v s = .ok x t) :
    Efeito [(de, v)] [] [] s t := by
  obtain ⟨hle, rfl⟩ := debitar_eq_ok h
  exact ⟨.gasta hle fun y => balanceOf_comSaldo_apply .., .refl _⟩

theorem credita {para : String} {v : Amount} {x : Unit} (h : creditar para v s = .ok x t) :
    Efeito [] [(para, v)] [] s t := by
  obtain rfl := creditar_eq_ok h
  exact ⟨.paga fun y => balanceOf_comSaldo_apply .., .refl _⟩

/-- An oracle that loses part of its stake. -/
theorem multado {nome : String} {o : Oracle} {multa : Amount} {f : Oracle → Oracle}
    (ho : s.oracles.get? nome = some o) (hmulta : multa ≤ o.stake)
    (hf : (f o).stake = o.stake - multa) :
    Efeito [] [] [(nome, multa)] s (AiTx.comOraculo nome f s) := by
  have hstake : s.stakeDe nome = o.stake := by
    unfold State.stakeDe
    rw [ho]
    rfl
  unfold AiTx.comOraculo
  rw [ho]
  refine ⟨.refl _, .gasta (hstake ▸ hmulta) fun y => ?_⟩
  rw [hstake]
  unfold State.stakeDe
  dsimp only
  rw [OrdMap.get?_insert]
  split_ifs with hy
  · exact hf
  · rfl

/-- What an oracle is fined leaves its stake. -/
theorem penaliza {nome : Option String} {multa : Amount}
    (h : AiTx.penalizarSe nome s = .ok multa t) :
    Efeito [] [] (nome.map (·, multa)).toList s t := by
  cases nome with
  | none =>
    obtain ⟨rfl, rfl⟩ := pure_eq_ok.mp h
    exact alheio rfl rfl
  | some nome =>
    change AiTx.penalizarOraculo nome s = _ at h
    unfold AiTx.penalizarOraculo at h
    rw [get_bind_run] at h
    cases ho : s.oracles.get? nome with
    | none =>
      rw [ho] at h
      obtain ⟨rfl, rfl⟩ := pure_eq_ok.mp h
      exact (alheio rfl rfl).congr (fun _ => rfl) (fun _ => rfl) fun y => by simp
    | some o =>
      rw [ho] at h
      dsimp only at h
      rw [set_bind_run] at h
      have hmulta := multado (f := fun _ => { o.falhou AiTx.repErro with
        stake := o.stake - min o.stake Config.aiOracleSlash }) ho (Nat.min_le_left _ _) rfl
      split_ifs at h with hpositiva
      · obtain ⟨slashed, v, hsoma, h₁⟩ := bind_eq_ok.mp h
        obtain ⟨-, rfl⟩ := lift_eq_ok.mp hsoma
        rw [modify_bind_run] at h₁
        obtain ⟨rfl, rfl⟩ := pure_eq_ok.mp h₁
        exact hmulta.trans (comOraculo (f := fun o => { o with slashed := slashed })
          (fun _ => rfl) _ _)
      · obtain ⟨rfl, rfl⟩ := pure_eq_ok.mp h
        exact hmulta

theorem pagaVencedores {quota resto : Amount} {ws : List String} {x : Unit}
    (h : AiTx.pagarVencedores quota resto ws s = .ok x t) :
    Efeito [] (quinhoes quota resto ws) [] s t := by
  induction ws generalizing resto s with
  | nil =>
    obtain ⟨-, rfl⟩ := pure_eq_ok.mp h
    exact alheio rfl rfl
  | cons w outros ih =>
    rw [AiTx.pagarVencedores] at h
    -- the first winner takes the rest, and none is left for the others
    have hpaga : ∃ v, creditar w (quota + resto) s = .ok () v ∧
        AiTx.pagarVencedores quota 0 outros (AiTx.comOraculo w Oracle.creditarAcerto v) =
          .ok x t := by
      split_ifs at h with hresto
      · obtain ⟨parte, v, hparte, h₁⟩ := bind_eq_ok.mp h
        obtain ⟨hsoma, rfl⟩ := lift_eq_ok.mp hparte
        obtain ⟨rfl, -⟩ := soma_eq_ok.mp hsoma
        obtain ⟨⟨⟩, w', hcredita, h₂⟩ := bind_eq_ok.mp h₁
        exact ⟨w', hcredita, h₂⟩
      · obtain ⟨parte, v, hparte, h₁⟩ := bind_eq_ok.mp h
        obtain ⟨hparte', rfl⟩ := lift_eq_ok.mp hparte
        cases hparte'
        obtain ⟨⟨⟩, w', hcredita, h₂⟩ := bind_eq_ok.mp h₁
        rw [Nat.eq_zero_of_not_pos hresto, Nat.add_zero]
        exact ⟨w', hcredita, h₂⟩
    obtain ⟨v, hcredita, houtros⟩ := hpaga
    have hprimeiro := (credita hcredita).trans
      (comOraculo (f := Oracle.creditarAcerto) (fun _ => rfl) w v)
    have higuais : quinhoes quota 0 outros = outros.map (·, quota) := by
      cases outros <;> rfl
    rw [quinhoes, ← higuais]
    exact hprimeiro.trans (ih houtros)

end Efeito

/-! ## The handlers -/

/-- One move of the task that a transaction names, with the cost of the sender, what the
move settles and what an oracle is fined for someone else. -/
inductive Andamento (cr : Cripto) (tx : Tx) (ctx : Ctx) (tipo : Tipo) (s t : State) : Prop
  | anda {antes depois : Task} {taxa : Amount} {premio multas : List (String × Amount)}
      (achada : s.aiTasks.get? (taskIdDe tx) = some antes)
      (gravada : t.aiTasks = s.aiTasks.insert (taskIdDe tx) depois)
      (passo : Passo cr tx ctx tipo antes depois)
      (efeito : Efeito [(tx.de, taxa + antes.fianca depois)] (antes.liquidacao depois ++ premio)
        multas s t)
      (justo : somaDe premio = somaDe multas) : Andamento cr tx ctx tipo s t

theorem aiTasks_comTarefa {id : String} {f : Task → Task} {tarefa : Task}
    (h : s.aiTasks.get? id = some tarefa) :
    (comTarefa id f s).aiTasks = s.aiTasks.insert id (f tarefa) := by
  unfold comTarefa
  rw [h]

theorem aiTasks_comOraculo (nome : String) (f : Oracle → Oracle) (s : State) :
    (comOraculo nome f s).aiTasks = s.aiTasks := by
  unfold comOraculo
  split <;> rfl

theorem aiTasks_debitar {de : String} {v : Amount} {x : Unit} (h : debitar de v s = .ok x t) :
    t.aiTasks = s.aiTasks := Mantem.le (debitar_mantem _ _) h

theorem aiTasks_creditar {para : String} {v : Amount} {x : Unit}
    (h : creditar para v s = .ok x t) : t.aiTasks = s.aiTasks := Mantem.le (creditar_mantem _ _) h

section Manipuladores

variable {tipo : Tipo} {x : Unit}

/-- A move by its fee, its prizes and its fines. -/
theorem Andamento.avanca {antes depois : Task} (taxa : Amount) (premio multas : List (String × Amount))
    (hachada : s.aiTasks.get? (taskIdDe tx) = some antes)
    (hgravada : t.aiTasks = s.aiTasks.insert (taskIdDe tx) depois)
    (hpasso : Passo cr tx ctx tipo antes depois)
    (hefeito : Efeito [(tx.de, taxa + antes.fianca depois)] (antes.liquidacao depois ++ premio)
      multas s t) (hjusto : somaDe premio = somaDe multas) : Andamento cr tx ctx tipo s t :=
  .anda hachada hgravada hpasso hefeito hjusto

/-- A handler that ends by writing the task. -/
theorem Andamento.grava {antes : Task} (taxa : Amount) {f : Task → Task}
    {gastos pagos multas : List (String × Amount)} (premio : List (String × Amount))
    (hachada : s.aiTasks.get? (taskIdDe tx) = some antes) (htarefas : u.aiTasks = s.aiTasks)
    (hpasso : Passo cr tx ctx tipo antes (f antes)) (hefeito : Efeito gastos pagos multas s u)
    (hgastos : ∀ y, cabe y gastos = cabe y [(tx.de, taxa + antes.fianca (f antes))])
    (hpagos : ∀ y, cabe y pagos = cabe y (antes.liquidacao (f antes) ++ premio))
    (hjusto : somaDe premio = somaDe multas) :
    Andamento cr tx ctx tipo s (comTarefa (taskIdDe tx) f u) := by
  exact .avanca taxa premio multas hachada
    ((aiTasks_comTarefa (htarefas ▸ hachada)).trans (by rw [htarefas])) hpasso
    ((hefeito.segue (.comTarefa _ _ _)).congr hgastos hpagos fun _ => rfl) hjusto

/-- A move that costs the sender and settles nothing. -/
theorem Andamento.custa {antes : Task} (taxa : Amount) {v : Amount} {f : Task → Task}
    (hachada : s.aiTasks.get? (taskIdDe tx) = some antes) (hdebita : debitar tx.de v s = .ok x u)
    (hpasso : Passo cr tx ctx tipo antes (f antes)) (hv : v = taxa + antes.fianca (f antes))
    (hliquida : antes.liquidacao (f antes) = []) :
    Andamento cr tx ctx tipo s (comTarefa (taskIdDe tx) f u) := by
  refine .grava taxa [] hachada (aiTasks_debitar hdebita) hpasso
    (.debita hdebita) (fun y => ?_) (fun y => ?_) rfl
  · rw [hv]
  · rw [hliquida]
    rfl

theorem aiCommit_eq_ok (h : AiTx.aiCommit tx ctx s = .ok x t) :
    Andamento cr tx ctx .aiCommit s t := by
  unfold AiTx.aiCommit at h
  rw [get_bind_run] at h
  obtain ⟨_, v, horaculo, h₁⟩ := bind_eq_ok.mp h
  obtain ⟨-, rfl⟩ := lift_eq_ok.mp horaculo
  obtain ⟨antes, v, htarefa, h₂⟩ := bind_eq_ok.mp h₁
  obtain ⟨htarefa', rfl⟩ := lift_eq_ok.mp htarefa
  obtain ⟨q, v, hq, h₃⟩ := bind_eq_ok.mp h₂
  obtain ⟨hq', rfl⟩ := lift_eq_ok.mp hq
  obtain ⟨_, v, hfase, h₄⟩ := bind_eq_ok.mp h₃
  obtain ⟨hfase', rfl⟩ := lift_eq_ok.mp hfase
  obtain ⟨_, v, hprazo, h₅⟩ := bind_eq_ok.mp h₄
  obtain ⟨-, rfl⟩ := lift_eq_ok.mp hprazo
  obtain ⟨_, v, hnovo, h₆⟩ := bind_eq_ok.mp h₅
  obtain ⟨-, rfl⟩ := lift_eq_ok.mp hnovo
  obtain ⟨commit, v, hcommit, h₇⟩ := bind_eq_ok.mp h₆
  obtain ⟨hcommit', rfl⟩ := lift_eq_ok.mp hcommit
  obtain ⟨_, v, hsaldo, h₈⟩ := bind_eq_ok.mp h₇
  obtain ⟨-, rfl⟩ := lift_eq_ok.mp hsaldo
  obtain ⟨_, w, hdebita, h₉⟩ := bind_eq_ok.mp h₈
  obtain ⟨-, rfl⟩ := EStateM.Result.ok.inj h₉
  have hachada := exigir_eq_ok.mp htarefa'
  have hestado : antes.state = "PENDING" := not_not.mp (not_or.mp (recusar_eq_ok.mp hfase')).1
  have hkind := quorum?_eq_some.mp (exigir_eq_ok.mp hq')
  have hlido := (Option.filter_eq_some_iff.mp (exigir_eq_ok.mp hcommit')).1
  refine .custa ctx.fee hachada hdebita (.compromete hestado hkind hlido) ?_ ?_
  · simp [Task.fianca, hestado]
  · simp [Task.liquidacao, hestado]

theorem precoDe_eq_ok {budget preco : Amount} (h : AiTx.precoDe tx budget = .ok preco) :
    preco ≤ budget := by
  obtain ⟨p, -, h₁⟩ := except_bind_eq_ok.mp h
  obtain ⟨_, hfaixa, h₂⟩ := except_bind_eq_ok.mp h₁
  cases h₂
  exact not_lt.mp (not_or.mp (recusar_eq_ok.mp hfaixa)).2

theorem aiBid_eq_ok (h : AiTx.aiBid tx ctx s = .ok x t) : Andamento cr tx ctx .aiBid s t := by
  unfold AiTx.aiBid at h
  rw [get_bind_run] at h
  obtain ⟨_, v, horaculo, h₁⟩ := bind_eq_ok.mp h
  obtain ⟨-, rfl⟩ := lift_eq_ok.mp horaculo
  obtain ⟨antes, v, htarefa, h₂⟩ := bind_eq_ok.mp h₁
  obtain ⟨htarefa', rfl⟩ := lift_eq_ok.mp htarefa
  obtain ⟨a, v, ha, h₃⟩ := bind_eq_ok.mp h₂
  obtain ⟨ha', rfl⟩ := lift_eq_ok.mp ha
  obtain ⟨_, v, hestado, h₄⟩ := bind_eq_ok.mp h₃
  obtain ⟨hestado', rfl⟩ := lift_eq_ok.mp hestado
  obtain ⟨_, v, hprazo, h₅⟩ := bind_eq_ok.mp h₄
  obtain ⟨-, rfl⟩ := lift_eq_ok.mp hprazo
  obtain ⟨preco, v, hpreco, h₆⟩ := bind_eq_ok.mp h₅
  obtain ⟨hpreco', rfl⟩ := lift_eq_ok.mp hpreco
  obtain ⟨_, v, hsaldo, h₇⟩ := bind_eq_ok.mp h₆
  obtain ⟨-, rfl⟩ := lift_eq_ok.mp hsaldo
  obtain ⟨_, w, hdebita, h₈⟩ := bind_eq_ok.mp h₇
  obtain ⟨-, rfl⟩ := EStateM.Result.ok.inj h₈
  have hbidding : antes.state = "BIDDING" := not_not.mp (recusar_eq_ok.mp hestado')
  refine .custa ctx.fee (exigir_eq_ok.mp htarefa') hdebita
    (.lanca hbidding (aberta?_eq_some.mp (exigir_eq_ok.mp ha')) (precoDe_eq_ok hpreco')) ?_ ?_
  · simp [Task.fianca, hbidding]
  · simp [Task.liquidacao, hbidding]

theorem aiChallenge_eq_ok (h : AiTx.aiChallenge tx ctx s = .ok x t) :
    Andamento cr tx ctx .aiChallenge s t := by
  unfold AiTx.aiChallenge at h
  rw [get_bind_run] at h
  obtain ⟨antes, v, htarefa, h₁⟩ := bind_eq_ok.mp h
  obtain ⟨htarefa', rfl⟩ := lift_eq_ok.mp htarefa
  obtain ⟨_, v, hestado, h₂⟩ := bind_eq_ok.mp h₁
  obtain ⟨hestado', rfl⟩ := lift_eq_ok.mp hestado
  obtain ⟨_, v, hprazo, h₃⟩ := bind_eq_ok.mp h₂
  obtain ⟨-, rfl⟩ := lift_eq_ok.mp hprazo
  obtain ⟨custo, v, hcusto, h₄⟩ := bind_eq_ok.mp h₃
  obtain ⟨hcusto', rfl⟩ := lift_eq_ok.mp hcusto
  obtain ⟨_, v, hsaldo, h₅⟩ := bind_eq_ok.mp h₄
  obtain ⟨-, rfl⟩ := lift_eq_ok.mp hsaldo
  obtain ⟨fimVeredito, v, hfim, h₆⟩ := bind_eq_ok.mp h₅
  obtain ⟨-, rfl⟩ := lift_eq_ok.mp hfim
  obtain ⟨_, w, hdebita, h₇⟩ := bind_eq_ok.mp h₆
  obtain ⟨-, rfl⟩ := EStateM.Result.ok.inj h₇
  have hjanela : antes.state = "CHALLENGE_PERIOD" := not_not.mp (recusar_eq_ok.mp hestado')
  obtain ⟨rfl, -⟩ := soma_eq_ok.mp hcusto'
  refine .custa ctx.fee (exigir_eq_ok.mp htarefa') hdebita (.desafia hjanela) ?_ ?_
  · simp [Task.fianca, hjanela, Task.bond, Nat.add_comm]
  · simp [Task.liquidacao, hjanela, Task.Final]

/-- The requester is given back what the winning bid leaves of the budget. -/
theorem aiAward_eq_ok (hlances : ∀ id tarefa, s.aiTasks.get? id = some tarefa → tarefa.EmLances)
    (h : AiTx.aiAward tx ctx s = .ok x t) : Andamento cr tx ctx .aiAward s t := by
  unfold AiTx.aiAward at h
  rw [get_bind_run] at h
  obtain ⟨antes, v, htarefa, h₁⟩ := bind_eq_ok.mp h
  obtain ⟨htarefa', rfl⟩ := lift_eq_ok.mp htarefa
  obtain ⟨a, v, ha, h₂⟩ := bind_eq_ok.mp h₁
  obtain ⟨ha', rfl⟩ := lift_eq_ok.mp ha
  obtain ⟨_, v, hdono, h₃⟩ := bind_eq_ok.mp h₂
  obtain ⟨hdono', rfl⟩ := lift_eq_ok.mp hdono
  obtain ⟨_, v, hestado, h₄⟩ := bind_eq_ok.mp h₃
  obtain ⟨hestado', rfl⟩ := lift_eq_ok.mp hestado
  obtain ⟨_, v, hprazo, h₅⟩ := bind_eq_ok.mp h₄
  obtain ⟨-, rfl⟩ := lift_eq_ok.mp hprazo
  obtain ⟨⟨preco, ts⟩, v, hlance, h₆⟩ := bind_eq_ok.mp h₅
  obtain ⟨hlance', rfl⟩ := lift_eq_ok.mp hlance
  dsimp only at h₆
  obtain ⟨_, v, hsaldo, h₇⟩ := bind_eq_ok.mp h₆
  obtain ⟨-, rfl⟩ := lift_eq_ok.mp hsaldo
  obtain ⟨_, w, hdebita, h₈⟩ := bind_eq_ok.mp h₇
  have hbidding : antes.state = "BIDDING" := not_not.mp (recusar_eq_ok.mp hestado')
  have hdono : antes.requester = tx.de := not_not.mp (recusar_eq_ok.mp hdono')
  have hachada := exigir_eq_ok.mp htarefa'
  have hkind := aberta?_eq_some.mp (exigir_eq_ok.mp ha')
  obtain ⟨a', hkind', hbudget, -⟩ := (hlances _ _ hachada).aberta hbidding
  obtain rfl := TaskKind.aberta.inj (hkind.symm.trans hkind')
  have htroco : ∃ w', Efeito [] [(antes.requester, antes.reward - preco)] [] w w' ∧
      w'.aiTasks = w.aiTasks ∧ t = comTarefa (taskIdDe tx) (fun t =>
        { comAberta (fun a => { a with
            assignedOracle := some ((AiTx.campoTexto tx "oracle").getD ""), bids := ∅ }) t with
          reward := preco
          state := "PENDING" }) w' := by
    rw [← hbudget, hdono]
    split_ifs at h₈ with htroco
    · obtain ⟨_, w', hcredita, h₉⟩ := bind_eq_ok.mp h₈
      exact ⟨w', .credita hcredita, aiTasks_creditar hcredita, (EStateM.Result.ok.inj h₉).2.symm⟩
    · refine ⟨w, (Efeito.alheio rfl rfl).congr (fun _ => rfl) (fun y => ?_) fun _ => rfl, rfl,
        (EStateM.Result.ok.inj h₈).2.symm⟩
      simp [Nat.eq_zero_of_not_pos htroco]
  obtain ⟨w', hpaga, htarefas', rfl⟩ := htroco
  refine .grava ctx.fee [] hachada
    (htarefas'.trans (aiTasks_debitar hdebita))
    (.adjudica hbidding hkind (exigir_eq_ok.mp hlance')) ((Efeito.debita hdebita).trans hpaga)
    (fun y => ?_) (fun y => ?_) rfl
  · simp [Task.fianca, hbidding]
  · simp [Task.liquidacao, hbidding]

theorem aiResult_eq_ok (h : AiTx.aiResult cr tx ctx s = .ok x t) :
    Andamento cr tx ctx .aiResult s t := by
  unfold AiTx.aiResult at h
  rw [get_bind_run] at h
  obtain ⟨_, v, horaculo, h₁⟩ := bind_eq_ok.mp h
  obtain ⟨-, rfl⟩ := lift_eq_ok.mp horaculo
  obtain ⟨antes, v, htarefa, h₂⟩ := bind_eq_ok.mp h₁
  obtain ⟨htarefa', rfl⟩ := lift_eq_ok.mp htarefa
  obtain ⟨_, v, hestado, h₃⟩ := bind_eq_ok.mp h₂
  obtain ⟨hestado', rfl⟩ := lift_eq_ok.mp hestado
  obtain ⟨_, v, hdesignado, h₄⟩ := bind_eq_ok.mp h₃
  obtain ⟨-, rfl⟩ := lift_eq_ok.mp hdesignado
  obtain ⟨r, v, hr, h₅⟩ := bind_eq_ok.mp h₄
  obtain ⟨-, rfl⟩ := lift_eq_ok.mp hr
  obtain ⟨verificado, v, hverificado, h₆⟩ := bind_eq_ok.mp h₅
  obtain ⟨-, rfl⟩ := lift_eq_ok.mp hverificado
  obtain ⟨fimDesafio, v, hfim, h₇⟩ := bind_eq_ok.mp h₆
  obtain ⟨-, rfl⟩ := lift_eq_ok.mp hfim
  obtain ⟨entregue, v, hentrega, h₈⟩ := bind_eq_ok.mp h₇
  obtain ⟨hentrega', rfl⟩ := lift_eq_ok.mp hentrega
  have hpendente : antes.state = "PENDING" := not_not.mp (recusar_eq_ok.mp hestado')
  have hachada := exigir_eq_ok.mp htarefa'
  obtain ⟨horaculo', -⟩ := entregar_eq_ok hentrega'
  cases verificado with
  | some kind =>
    dsimp only at h₈
    rw [modify_bind_run, modify_bind_run] at h₈
    have hpremio := premiados_of_oracle
      (t := { entregue with verified := some kind, state := "DONE" }) horaculo' antes.reward
    refine .avanca 0 [] [] hachada
      ((aiTasks_creditar h₈).trans ((aiTasks_comOraculo _ _ _).trans (aiTasks_comTarefa hachada)))
      (.atesta hpendente hentrega') ?_ rfl
    have hefeito := ((Efeito.comTarefa _ _ _).trans
      (.comOraculo (f := Oracle.creditarAcerto) (fun _ => rfl) _ _)).trans (.credita h₈)
    refine hefeito.congr (fun y => ?_) (fun y => ?_) fun _ => rfl
    · simp [Task.fianca, hpendente]
    · simp [Task.liquidacao, hpendente, Task.Final, hpremio]
  | none =>
    dsimp only at h₈
    obtain ⟨-, rfl⟩ := EStateM.Result.ok.inj h₈
    refine .grava 0 [] hachada rfl (.entrega hpendente hentrega')
      (.alheio rfl rfl) (fun y => ?_) (fun y => ?_) rfl
    · simp [Task.fianca, hpendente]
    · simp [Task.liquidacao, hpendente, Task.Final]

theorem aiClaim_eq_ok (h : AiTx.aiClaim tx ctx s = .ok x t) : Andamento cr tx ctx .aiClaim s t := by
  unfold AiTx.aiClaim at h
  rw [get_bind_run] at h
  obtain ⟨antes, v, htarefa, h₁⟩ := bind_eq_ok.mp h
  obtain ⟨htarefa', rfl⟩ := lift_eq_ok.mp htarefa
  obtain ⟨_, v, hsaldo, h₂⟩ := bind_eq_ok.mp h₁
  obtain ⟨-, rfl⟩ := lift_eq_ok.mp hsaldo
  have hachada := exigir_eq_ok.mp htarefa'
  split_ifs at h₂ with hjanela hdisputa
  · obtain ⟨_, v, hprazo, h₃⟩ := bind_eq_ok.mp h₂
    obtain ⟨-, rfl⟩ := lift_eq_ok.mp hprazo
    obtain ⟨oraculo, v, horaculo, h₄⟩ := bind_eq_ok.mp h₃
    obtain ⟨horaculo', rfl⟩ := lift_eq_ok.mp horaculo
    obtain ⟨_, w, hdebita, h₅⟩ := bind_eq_ok.mp h₄
    obtain ⟨_, w', hcredita, h₆⟩ := bind_eq_ok.mp h₅
    rw [modify_bind_run] at h₆
    obtain ⟨-, rfl⟩ := EStateM.Result.ok.inj h₆
    have hentregue := exigir_eq_ok.mp horaculo'
    have hpremio := premiados_of_oracle (t := concluir "DONE" antes) hentregue antes.reward
    refine .grava ctx.fee [] hachada
      ((aiTasks_comOraculo _ _ _).trans ((aiTasks_creditar hcredita).trans
        (aiTasks_debitar hdebita))) (.recebe hjanela hentregue)
      (((Efeito.debita hdebita).trans (.credita hcredita)).trans
        (.comOraculo (f := Oracle.creditarAcerto) (fun _ => rfl) _ _))
      (fun y => ?_) (fun y => ?_) rfl
    · simp [Task.fianca, hjanela, concluir]
    · unfold concluir at hpremio ⊢
      simp [Task.liquidacao, hjanela, Task.Final, hpremio]
  · obtain ⟨_, v, hprazo, h₃⟩ := bind_eq_ok.mp h₂
    obtain ⟨-, rfl⟩ := lift_eq_ok.mp hprazo
    obtain ⟨_, v, hjuri, h₄⟩ := bind_eq_ok.mp h₃
    obtain ⟨-, rfl⟩ := lift_eq_ok.mp hjuri
    obtain ⟨oraculo, v, horaculo, h₅⟩ := bind_eq_ok.mp h₄
    obtain ⟨horaculo', rfl⟩ := lift_eq_ok.mp horaculo
    obtain ⟨desafiante, v, hdesafiante, h₆⟩ := bind_eq_ok.mp h₅
    obtain ⟨hdesafiante', rfl⟩ := lift_eq_ok.mp hdesafiante
    obtain ⟨_, w, hdebita, h₇⟩ := bind_eq_ok.mp h₆
    obtain ⟨_, w', hcredita, h₈⟩ := bind_eq_ok.mp h₇
    obtain ⟨_, w'', hdevolve, h₉⟩ := bind_eq_ok.mp h₈
    obtain ⟨-, rfl⟩ := EStateM.Result.ok.inj h₉
    have hentregue := exigir_eq_ok.mp horaculo'
    have hcontestado := exigir_eq_ok.mp hdesafiante'
    have hpremio := premiados_of_oracle (t := (concluir "DONE" antes).comVotes ∅)
      ((Task.comVotes_oracle _ _).trans hentregue) antes.reward
    refine .grava ctx.fee [] hachada
      ((aiTasks_creditar hdevolve).trans ((aiTasks_creditar hcredita).trans
        (aiTasks_debitar hdebita))) (.desiste hdisputa hentregue hcontestado)
      (((Efeito.debita hdebita).trans (.credita hcredita)).trans (.credita hdevolve))
      (fun y => ?_) (fun y => ?_) rfl
    · simp [Task.fianca, hdisputa]
    · unfold concluir at hpremio ⊢
      simp [Task.liquidacao, hdisputa, Task.Final, hpremio, hcontestado]
  · exact absurd trivial (recusar_eq_ok.mp (lift_eq_ok.mp h₂).1)

/-- A jury that upholds the result pays the oracle the reward and the bond. -/
theorem manter_eq_ok {tarefa atual : Task} {id : String}
    (hatual : s.aiTasks.get? id = some atual) (h : AiTx.manter tarefa id s = .ok x t) :
    ∃ oraculo, tarefa.oracle = some oraculo ∧
      Efeito [] [(oraculo, tarefa.reward + tarefa.bond)] [] s t ∧
        t.aiTasks = s.aiTasks.insert id (concluir "UPHELD" atual) := by
  obtain ⟨oraculo, v, horaculo, h₁⟩ := bind_eq_ok.mp h
  obtain ⟨horaculo', rfl⟩ := lift_eq_ok.mp horaculo
  obtain ⟨total, v, htotal, h₂⟩ := bind_eq_ok.mp h₁
  obtain ⟨htotal', rfl⟩ := lift_eq_ok.mp htotal
  obtain ⟨rfl, -⟩ := soma_eq_ok.mp htotal'
  obtain ⟨_, w, hcredita, h₃⟩ := bind_eq_ok.mp h₂
  rw [modify_bind_run] at h₃
  obtain ⟨-, rfl⟩ := EStateM.Result.ok.inj h₃
  have htarefas := (aiTasks_comOraculo oraculo Oracle.creditarAcerto w).trans
    (aiTasks_creditar hcredita)
  refine ⟨oraculo, exigir_eq_ok.mp horaculo', ?_, ?_⟩
  · exact ((Efeito.credita hcredita).trans
      (.comOraculo (f := Oracle.creditarAcerto) (fun _ => rfl) _ _)).trans (.comTarefa _ _ _)
  · rw [aiTasks_comTarefa (htarefas ▸ hatual), htarefas]

theorem penalizarSe_none {multa : Amount} (h : AiTx.penalizarSe none s = .ok multa t) :
    multa = 0 := (pure_eq_ok.mp h).1

theorem somaDe_multa {nome : Option String} {multa : Amount}
    (h : AiTx.penalizarSe nome s = .ok multa t) :
    somaDe (nome.map (·, multa)).toList = multa := by
  cases nome with
  | none => exact (penalizarSe_none h).symm
  | some nome => simp

/-- A jury that overturns the result gives the reward back, and the challenger the bond
and what the oracle is fined. -/
theorem derrubar_eq_ok {tarefa atual : Task} {id : String}
    (hatual : s.aiTasks.get? id = some atual) (h : AiTx.derrubar tarefa id s = .ok x t) :
    ∃ desafiante bounty, tarefa.challenger = some desafiante ∧
      Efeito [] [(tarefa.requester, tarefa.reward), (desafiante, tarefa.bond + bounty)]
        (tarefa.oracle.map (·, bounty)).toList s t ∧
      somaDe (tarefa.oracle.map (·, bounty)).toList = bounty ∧
        t.aiTasks = s.aiTasks.insert id (concluir "OVERTURNED" atual) := by
  obtain ⟨desafiante, v, hdesafiante, h₁⟩ := bind_eq_ok.mp h
  obtain ⟨hdesafiante', rfl⟩ := lift_eq_ok.mp hdesafiante
  obtain ⟨_, w, hdevolve, h₂⟩ := bind_eq_ok.mp h₁
  obtain ⟨bounty, w', hmulta, h₃⟩ := bind_eq_ok.mp h₂
  obtain ⟨total, v', htotal, h₄⟩ := bind_eq_ok.mp h₃
  obtain ⟨htotal', rfl⟩ := lift_eq_ok.mp htotal
  obtain ⟨rfl, -⟩ := soma_eq_ok.mp htotal'
  obtain ⟨_, w'', hcredita, h₅⟩ := bind_eq_ok.mp h₄
  obtain ⟨-, rfl⟩ := EStateM.Result.ok.inj h₅
  have htarefas : w''.aiTasks = v.aiTasks := (aiTasks_creditar hcredita).trans
    ((@Mantem.le _ State.aiTasks _ _ _ _ _ (penalizarSe_mantem _) hmulta).trans
      (aiTasks_creditar hdevolve))
  refine ⟨desafiante, bounty, exigir_eq_ok.mp hdesafiante', ?_, somaDe_multa hmulta, ?_⟩
  · refine ((((Efeito.credita hdevolve).trans (.penaliza hmulta)).trans
      (.credita hcredita)).trans (.comTarefa _ _ _)).congr (fun _ => rfl) (fun _ => rfl)
      fun y => ?_
    simp
  · rw [aiTasks_comTarefa (htarefas ▸ hatual), htarefas]

theorem disputaPara_eq_ok {antes : Task} (h : AiTx.disputaPara s tx ctx = .ok antes) :
    s.aiTasks.get? (taskIdDe tx) = some antes ∧ antes.state = "DISPUTED" := by
  obtain ⟨_, -, h₁⟩ := except_bind_eq_ok.mp h
  obtain ⟨tarefa, htarefa, h₂⟩ := except_bind_eq_ok.mp h₁
  obtain ⟨_, -, h₃⟩ := except_bind_eq_ok.mp h₂
  obtain ⟨_, -, h₄⟩ := except_bind_eq_ok.mp h₃
  obtain ⟨_, -, h₅⟩ := except_bind_eq_ok.mp h₄
  obtain ⟨_, -, h₆⟩ := except_bind_eq_ok.mp h₅
  obtain ⟨_, -, h₇⟩ := except_bind_eq_ok.mp h₆
  cases h₇
  obtain ⟨hachada, hestado⟩ := Option.filter_eq_some_iff.mp (exigir_eq_ok.mp htarefa)
  exact ⟨hachada, beq_iff_eq.mp hestado⟩

/-- What follows the payments of a resolved dispute. -/
theorem arremate_eq_ok {estado id : String} {atual : Task} {mantido : Bool}
    {votos : List (String × Bool)} {original : OrdMap String Task}
    (hatual : s.aiTasks = original.insert id (concluir estado atual))
    (h : (do
      modify (AiTx.ajustarJurados mantido votos)
      modify (comTarefa id fun t => { t with output := none }.comVotes ∅) : Op Unit) s = .ok x t) :
    Efeito [] [] [] s t ∧ t.aiTasks =
      original.insert id ({ concluir estado atual with output := none }.comVotes ∅) := by
  rw [modify_bind_run] at h
  obtain ⟨-, rfl⟩ := EStateM.Result.ok.inj h
  have hjurados : (AiTx.ajustarJurados mantido votos s).aiTasks = s.aiTasks :=
    ajustarJurados_mantem (I := Le State.aiTasks (· = s.aiTasks)) mantido votos s rfl
  refine ⟨(Efeito.ajustarJurados _ _ _).trans (.comTarefa _ _ _), ?_⟩
  rw [@aiTasks_comTarefa _ _ _ (concluir estado atual), hjurados, hatual, OrdMap.insert_insert]
  rw [hjurados, hatual, OrdMap.get?_insert_self]

/-- A dispute resolved by its jury, either way. -/
theorem resolver_eq_ok {tarefa atual : Task} {id : String} {votos : OrdMap String Bool}
    (hatual : s.aiTasks.get? id = some atual) (h : AiTx.resolver tarefa id votos s = .ok x t) :
    (∃ oraculo, tarefa.oracle = some oraculo ∧
      Efeito [] [(oraculo, tarefa.reward + tarefa.bond)] [] s t ∧
      t.aiTasks = s.aiTasks.insert id
        ({ concluir "UPHELD" atual with output := none }.comVotes ∅)) ∨
    ∃ desafiante bounty, tarefa.challenger = some desafiante ∧
      Efeito [] [(tarefa.requester, tarefa.reward), (desafiante, tarefa.bond + bounty)]
        (tarefa.oracle.map (·, bounty)).toList s t ∧
      somaDe (tarefa.oracle.map (·, bounty)).toList = bounty ∧
      t.aiTasks = s.aiTasks.insert id
        ({ concluir "OVERTURNED" atual with output := none }.comVotes ∅) := by
  unfold AiTx.resolver at h
  dsimp only at h
  split_ifs at h with hmantido
  · obtain ⟨_, w, hmanter, h₁⟩ := bind_eq_ok.mp h
    obtain ⟨oraculo, horaculo, hefeito, htarefas⟩ := manter_eq_ok hatual hmanter
    obtain ⟨hfim, htarefas'⟩ := arremate_eq_ok htarefas h₁
    refine .inl ⟨oraculo, horaculo, ?_, htarefas'⟩
    exact (hefeito.trans hfim).congr (fun _ => rfl) (fun _ => rfl) fun _ => rfl
  · obtain ⟨_, w, hderrubar, h₁⟩ := bind_eq_ok.mp h
    obtain ⟨desafiante, bounty, hdesafiante, hefeito, hsoma, htarefas⟩ :=
      derrubar_eq_ok hatual hderrubar
    obtain ⟨hfim, htarefas'⟩ := arremate_eq_ok htarefas h₁
    refine .inr ⟨desafiante, bounty, hdesafiante, ?_, hsoma, htarefas'⟩
    exact (hefeito.trans hfim).congr (fun _ => rfl) (fun _ => rfl) fun y => by simp

theorem aiVerdict_eq_ok (h : AiTx.aiVerdict tx ctx s = .ok x t) :
    Andamento cr tx ctx .aiVerdict s t := by
  unfold AiTx.aiVerdict at h
  rw [get_bind_run] at h
  obtain ⟨antes, v, htarefa, h₁⟩ := bind_eq_ok.mp h
  obtain ⟨htarefa', rfl⟩ := lift_eq_ok.mp htarefa
  obtain ⟨hachada, hdisputa⟩ := disputaPara_eq_ok htarefa'
  obtain ⟨_, w, hdebita, h₂⟩ := bind_eq_ok.mp h₁
  rw [modify_bind_run] at h₂
  have htarefas := aiTasks_debitar hdebita
  generalize antes.votes.insert tx.de (AiTx.eVerdadeiro tx "valid") = votos at h₂
  split_ifs at h₂ with hjuri
  · have hvotada := aiTasks_comTarefa (f := fun t : Task => t.comVotes votos) (htarefas ▸ hachada)
    have hcusto := (Efeito.debita hdebita).trans
      (.comTarefa (taskIdDe tx) (fun t : Task => t.comVotes votos) w)
    rcases resolver_eq_ok (by rw [hvotada, OrdMap.get?_insert_self]) h₂ with
      ⟨oraculo, horaculo, hefeito, hfim⟩ | ⟨desafiante, bounty, hdesafiante, hefeito, hsoma, hfim⟩
    · rw [hvotada, OrdMap.insert_insert, htarefas] at hfim
      refine .avanca ctx.fee [] [] hachada hfim
        (.mantem hdisputa horaculo) ((hcusto.trans hefeito).congr (fun y => ?_) (fun y => ?_)
          fun _ => rfl) rfl
      · simp [Task.fianca, hdisputa]
      · simp [Task.liquidacao, hdisputa, Task.Final, concluir, horaculo]
    · rw [hvotada, OrdMap.insert_insert, htarefas] at hfim
      refine .avanca ctx.fee [(desafiante, bounty)] _ hachada hfim
        (.derruba hdisputa hdesafiante) ((hcusto.trans hefeito).congr (fun y => ?_) (fun y => ?_)
          fun _ => rfl) (hsoma.symm ▸ Nat.add_zero bounty)
      · simp [Task.fianca, hdisputa]
      · simp [Task.liquidacao, hdisputa, Task.Final, concluir, hdesafiante]
        split_ifs <;> omega
  · obtain ⟨-, rfl⟩ := pure_eq_ok.mp h₂
    refine .custa ctx.fee hachada hdebita (.vota hdisputa) ?_ ?_
    · simp [Task.fianca, hdisputa]
    · simp [Task.liquidacao, hdisputa]

theorem conferirReveal_eq_ok {antes : Task} {q : Quorum} {output : String}
    (h : AiTx.conferirReveal cr s tx ctx = .ok (antes, q, output)) :
    s.aiTasks.get? (taskIdDe tx) = some antes ∧ antes.state = "PENDING" ∧
      antes.kind = .quorum q ∧ AiTx.outputDe tx = .ok output ∧
      ∃ commit salt, q.commits.get? tx.de = some commit ∧ AiTx.saltDe tx = .ok salt ∧
        cr.eavHashOne s!"{output}|{salt}" = minusculas commit := by
  obtain ⟨_, -, h₁⟩ := except_bind_eq_ok.mp h
  obtain ⟨tarefa, htarefa, h₂⟩ := except_bind_eq_ok.mp h₁
  obtain ⟨q', hq, h₃⟩ := except_bind_eq_ok.mp h₂
  obtain ⟨_, hestado, h₄⟩ := except_bind_eq_ok.mp h₃
  obtain ⟨commit, hcommit, h₅⟩ := except_bind_eq_ok.mp h₄
  obtain ⟨_, -, h₆⟩ := except_bind_eq_ok.mp h₅
  obtain ⟨_, -, h₇⟩ := except_bind_eq_ok.mp h₆
  obtain ⟨_, -, h₈⟩ := except_bind_eq_ok.mp h₇
  obtain ⟨output', houtput, h₉⟩ := except_bind_eq_ok.mp h₈
  obtain ⟨salt, hsalt, h₁₀⟩ := except_bind_eq_ok.mp h₉
  obtain ⟨_, hhash, h₁₁⟩ := except_bind_eq_ok.mp h₁₀
  obtain ⟨_, -, h₁₂⟩ := except_bind_eq_ok.mp h₁₁
  cases h₁₂
  exact ⟨exigir_eq_ok.mp htarefa, not_not.mp (recusar_eq_ok.mp hestado),
    quorum?_eq_some.mp (exigir_eq_ok.mp hq), houtput, commit, salt, exigir_eq_ok.mp hcommit, hsalt,
    not_not.mp (recusar_eq_ok.mp hhash)⟩

/-- A task decided for one hash shares its reward among those that revealed it. -/
theorem encerrarQuorum_eq_ok {tarefa atual : Task} {q : Quorum} {hash : String}
    (hatual : s.aiTasks.get? (taskIdDe tx) = some atual)
    (h : AiTx.encerrarQuorum tx tarefa q hash s = .ok x t) :
    ∃ vencedores : List String, vencedores ≠ [] ∧
      Efeito [] (quinhoes (tarefa.reward / vencedores.length)
        (tarefa.reward - tarefa.reward / vencedores.length * vencedores.length) vencedores) [] s t ∧
      t.aiTasks = s.aiTasks.insert (taskIdDe tx) (apurarQuorum tx hash vencedores q atual) := by
  unfold AiTx.encerrarQuorum at h
  dsimp only at h
  obtain ⟨_, v, halguem, h₁⟩ := bind_eq_ok.mp h
  obtain ⟨halguem', rfl⟩ := lift_eq_ok.mp halguem
  rw [modify_bind_run] at h₁
  obtain ⟨_, w, hpaga, h₂⟩ := bind_eq_ok.mp h₁
  obtain ⟨-, rfl⟩ := EStateM.Result.ok.inj h₂
  have htarefas : w.aiTasks = _ :=
    @Mantem.le _ State.aiTasks _ _ _ _ _ (pagarVencedores_mantem _ _ _) hpaga
  refine ⟨_, fun hvazio => recusar_eq_ok.mp halguem' (congrArg List.length hvazio), ?_, ?_⟩
  · exact (((Efeito.comTarefa _ _ _).trans (.pagaVencedores hpaga)).trans
      (.rebaixar _ _ _)).congr (fun _ => rfl) (fun y => by simp) fun _ => rfl
  · have hrebaixa : (AiTx.rebaixar AiTx.repErro (AiTx.quemRevelou q (· != hash)) w).aiTasks =
        w.aiTasks := rebaixar_mantem (I := Le State.aiTasks (· = w.aiTasks)) _ _ w rfl
    rw [hrebaixa, htarefas, aiTasks_comTarefa hatual]

theorem aiReveal_eq_ok (h : AiTx.aiReveal cr tx ctx s = .ok x t) :
    Andamento cr tx ctx .aiReveal s t := by
  unfold AiTx.aiReveal at h
  rw [get_bind_run] at h
  obtain ⟨⟨antes, q, output⟩, v, hconf, h₁⟩ := bind_eq_ok.mp h
  obtain ⟨hconf', rfl⟩ := lift_eq_ok.mp hconf
  obtain ⟨hachada, hpendente, hkind, -⟩ := conferirReveal_eq_ok hconf'
  dsimp only at h₁
  obtain ⟨_, w, hdebita, h₂⟩ := bind_eq_ok.mp h₁
  rw [modify_bind_run] at h₂
  have htarefas := aiTasks_debitar hdebita
  generalize AiTx.vencedora _ _ = decidida at h₂
  cases decidida with
  | none =>
    obtain ⟨-, rfl⟩ := pure_eq_ok.mp h₂
    refine .custa ctx.fee hachada hdebita (.revela hpendente hkind) ?_ ?_
    · simp [Task.fianca, hpendente]
    · simp [Task.liquidacao, hpendente]
  | some hash =>
    have hrevelada := aiTasks_comTarefa
      (f := comQuorum fun _ => AiTx.comReveal cr tx output q) (htarefas ▸ hachada)
    obtain ⟨vencedores, hvencedores, hefeito, hfim⟩ :=
      encerrarQuorum_eq_ok (by rw [hrevelada, OrdMap.get?_insert_self]) h₂
    rw [hrevelada, OrdMap.insert_insert, htarefas] at hfim
    refine .avanca ctx.fee [] [] hachada hfim
      (.apura hpendente hkind hvencedores) ((((Efeito.debita hdebita).trans
        (.comTarefa _ _ _)).trans hefeito).congr (fun y => ?_) (fun y => ?_) fun _ => rfl) rfl
    · simp [Task.fianca, hpendente, apurarQuorum]
    · simp [Task.liquidacao, hpendente, Task.Final, apurarQuorum, Task.premiados, Task.quorum?]

/-- The requester is given the reward back, and what the oracle that let the task expire
is fined. -/
theorem aiRefund_eq_ok (h : AiTx.aiRefund tx ctx s = .ok x t) :
    Andamento cr tx ctx .aiRefund s t := by
  unfold AiTx.aiRefund at h
  rw [get_bind_run] at h
  obtain ⟨antes, v, htarefa, h₁⟩ := bind_eq_ok.mp h
  obtain ⟨htarefa', rfl⟩ := lift_eq_ok.mp htarefa
  obtain ⟨_, v, hdono, h₂⟩ := bind_eq_ok.mp h₁
  obtain ⟨hdono', rfl⟩ := lift_eq_ok.mp hdono
  obtain ⟨_, v, hestado, h₃⟩ := bind_eq_ok.mp h₂
  obtain ⟨hestado', rfl⟩ := lift_eq_ok.mp hestado
  obtain ⟨_, v, hprazo, h₄⟩ := bind_eq_ok.mp h₃
  obtain ⟨-, rfl⟩ := lift_eq_ok.mp hprazo
  rw [modify_bind_run] at h₄
  obtain ⟨_, w, hcredita, h₅⟩ := bind_eq_ok.mp h₄
  have hachada := exigir_eq_ok.mp htarefa'
  have hdono : antes.requester = tx.de := not_not.mp (recusar_eq_ok.mp hdono')
  have haberta : antes.state = "PENDING" ∨ antes.state = "BIDDING" := by
    have hestado := recusar_eq_ok.mp hestado'
    by_contra hnada
    exact hestado (not_or.mp hnada)
  have hpaga := (Efeito.comTarefa (taskIdDe tx) (reembolsar tx) v).trans (.credita hcredita)
  have htarefas := (aiTasks_creditar hcredita).trans (aiTasks_comTarefa hachada)
  have hfianca : antes.fianca (reembolsar tx antes) = 0 := by simp [Task.fianca, reembolsar]
  have hliquida : antes.liquidacao (reembolsar tx antes) = [(tx.de, antes.reward)] := by
    rcases haberta with h | h <;> simp [Task.liquidacao, reembolsar, h, Task.Final, hdono]
  cases hq : antes.quorum? with
  | some q =>
    rw [hq] at h₅
    obtain ⟨-, rfl⟩ := EStateM.Result.ok.inj h₅
    have hrebaixa : (AiTx.rebaixar AiTx.repNaoRevelou (AiTx.faltosos q) w).aiTasks = w.aiTasks :=
      rebaixar_mantem (I := Le State.aiTasks (· = w.aiTasks)) _ _ w rfl
    refine .avanca 0 [] [] hachada (hrebaixa.trans htarefas)
      (.reembolsa haberta) ?_ rfl
    refine (hpaga.trans (.rebaixar _ _ _)).congr (fun y => ?_) (fun y => ?_) fun _ => rfl
    · simp [hfianca]
    · simp [hliquida]
  | none =>
    rw [hq] at h₅
    dsimp only at h₅
    obtain ⟨slash, w', hmulta, h₆⟩ := bind_eq_ok.mp h₅
    have hmultado := (Efeito.penaliza hmulta)
    have htarefas' : w'.aiTasks = w.aiTasks :=
      @Mantem.le _ State.aiTasks _ _ _ _ _ (penalizarSe_mantem _) hmulta
    have hpremio : Efeito [] [(tx.de, slash)] [] w' t ∧ t.aiTasks = w'.aiTasks := by
      split_ifs at h₆ with hslash
      · exact ⟨.credita h₆, aiTasks_creditar h₆⟩
      · obtain ⟨-, rfl⟩ := pure_eq_ok.mp h₆
        refine ⟨(Efeito.alheio rfl rfl).congr (fun _ => rfl) (fun y => ?_) fun _ => rfl, rfl⟩
        simp [Nat.eq_zero_of_not_pos hslash]
    refine .avanca 0 [(tx.de, slash)] _ hachada
      (hpremio.2.trans (htarefas'.trans htarefas)) (.reembolsa haberta) ?_
      (somaDe_multa hmulta).symm
    refine ((hpaga.trans hmultado).trans hpremio.1).congr (fun y => ?_) (fun y => ?_) fun y => ?_
    · simp [hfianca]
    · simp [hliquida]
    · simp

theorem lerPedido_eq_ok {p : AiTx.Pedido} (h : AiTx.lerPedido tx ctx = .ok p) :
    tx.id = some p.id ∧ p.escrow = p.recompensa + ctx.fee := by
  obtain ⟨id, hid, h₁⟩ := except_bind_eq_ok.mp h
  obtain ⟨prompt, -, h₂⟩ := except_bind_eq_ok.mp h₁
  obtain ⟨recompensa, -, h₃⟩ := except_bind_eq_ok.mp h₂
  obtain ⟨_, -, h₄⟩ := except_bind_eq_ok.mp h₃
  obtain ⟨escrow, hescrow, h₅⟩ := except_bind_eq_ok.mp h₄
  cases h₅
  exact ⟨exigir_eq_ok.mp hid, (soma_eq_ok.mp hescrow).1⟩

/-- The three kinds of task, as they are created. -/
theorem montarTarefa_eq_ok {p : AiTx.Pedido} {nova : Task}
    (h : AiTx.montarTarefa cr s p tx ctx = .ok nova) :
    nova.reward = p.recompensa ∧ nova.EmLances ∧ nova.state ∈ ["PENDING", "BIDDING"] ∧
      ∀ q, nova.kind = .quorum q → q.commits = ∅ := by
  unfold AiTx.montarTarefa at h
  split at h
  · obtain ⟨q, -, h₁⟩ := except_bind_eq_ok.mp h
    obtain ⟨_, -, h₂⟩ := except_bind_eq_ok.mp h₁
    obtain ⟨fimCommit, -, h₃⟩ := except_bind_eq_ok.mp h₂
    obtain ⟨fimReveal, -, h₄⟩ := except_bind_eq_ok.mp h₃
    cases h₄
    refine ⟨rfl, ⟨fun hlances => ?_⟩, List.mem_cons_self, fun q' hq => ?_⟩
    · simp [AiTx.novaTarefa] at hlances
    · cases hq
      rfl
  · split_ifs at h
    · obtain ⟨_, -, h₁⟩ := except_bind_eq_ok.mp h
      obtain ⟨fimLances, -, h₂⟩ := except_bind_eq_ok.mp h₁
      obtain ⟨expira, -, h₃⟩ := except_bind_eq_ok.mp h₂
      cases h₃
      refine ⟨rfl, ⟨fun _ => ⟨_, rfl, rfl, fun oraculo preco ts hlance => ?_⟩⟩,
        List.mem_cons_of_mem _ List.mem_cons_self, fun q' hq => ?_⟩
      · cases hlance
      · cases hq
    · obtain ⟨designado, -, h₁⟩ := except_bind_eq_ok.mp h
      obtain ⟨_, -, h₂⟩ := except_bind_eq_ok.mp h₁
      obtain ⟨expira, -, h₃⟩ := except_bind_eq_ok.mp h₂
      cases h₃
      refine ⟨rfl, ⟨fun hlances => ?_⟩, List.mem_cons_self, fun q' hq => ?_⟩
      · simp [AiTx.novaTarefa] at hlances
      · cases hq

/-- A new task escrows its reward, and its quorum has no commits yet. -/
theorem aiTask_eq_ok (h : AiTx.aiTask cr tx ctx s = .ok x t) :
    ∃ id nova, tx.id = some id ∧ t.aiTasks = s.aiTasks.insert id nova ∧ nova.EmLances ∧
      nova.state ∈ ["PENDING", "BIDDING"] ∧ (∀ q, nova.kind = .quorum q → q.commits = ∅) ∧
      Efeito [(tx.de, ctx.fee + nova.reward)] [] [] s t := by
  unfold AiTx.aiTask at h
  rw [get_bind_run] at h
  obtain ⟨p, v, hp, h₁⟩ := bind_eq_ok.mp h
  obtain ⟨hp', rfl⟩ := lift_eq_ok.mp hp
  obtain ⟨nova, v, hnova, h₂⟩ := bind_eq_ok.mp h₁
  obtain ⟨hnova', rfl⟩ := lift_eq_ok.mp hnova
  obtain ⟨_, w, hdebita, h₃⟩ := bind_eq_ok.mp h₂
  obtain ⟨-, rfl⟩ := EStateM.Result.ok.inj h₃
  obtain ⟨hid, hescrow⟩ := lerPedido_eq_ok hp'
  obtain ⟨hreward, hlances, hestado, hcommits⟩ := montarTarefa_eq_ok hnova'
  refine ⟨p.id, nova, hid, congrArg (·.insert p.id nova) (aiTasks_debitar hdebita), hlances,
    hestado, hcommits, ?_⟩
  have hefeito := Efeito.debita hdebita
  rw [hescrow, ← hreward, Nat.add_comm] at hefeito
  exact ⟨hefeito.saldos, hefeito.stakes⟩

end Manipuladores
end Eav7
