import Eav7.Custodia
import Eav7.Roteiro

/-!
# The life of an AI task over a run

Every accepted action leaves the tasks alone, creates one or moves one. Over a run a task
in a final state stays as it is, and what was put into its escrow is what it paid and what
it still holds.
-/

namespace Eav7

open Base
open AiTx (taskIdDe)

variable {amb : Ambiente} {s t : State} {a : Acao}

/-! ## What an action does to the tasks -/

/-- Every task that is out to bids escrows its budget. -/
def LancesCobertos (s : State) : Prop :=
  ∀ id tarefa, s.aiTasks.get? id = some tarefa → tarefa.EmLances

inductive MudaTarefas (amb : Ambiente) (s : State) (a : Acao) (t : State) : Prop
  | alheia (h : t.aiTasks = s.aiTasks)
  | cria {tx : Tx} {fee : Amount} {id : String} {nova : Task} (htx : a.tx? = some tx)
      (hid : a.id? = some id) (h : t.aiTasks = s.aiTasks.insert id nova) (hlances : nova.EmLances)
      (hestado : nova.state ∈ ["PENDING", "BIDDING"])
      (hcommits : ∀ q, nova.kind = .quorum q → q.commits = ∅)
      (hefeito : Efeito [(tx.de, fee + nova.reward)] [] [] s t)
  | anda {tx : Tx} {ctx : Ctx} {tipo : Tipo} (htx : a.tx? = some tx) (htipo : a.tipo? = some tipo)
      (h : Andamento amb.cripto tx ctx tipo s t)

theorem commitGb_balance (height : ℕ) (gb : Peek) (c : Account) :
    (commitGb height gb c).balance = c.balance := rfl

/-- The end of a transaction moves no balance. -/
theorem Despacho.saldos_fim {tx : Tx} {tipo : Tipo} {height blockTs : ℕ}
    (d : Despacho amb tx tipo height blockTs s t) : t.balanceOf = d.meio.balanceOf := by
  obtain ⟨burned, hfim⟩ := d.fim
  funext y
  refine (congrArg (·.balanceOf y) hfim).trans ?_
  change ((d.meio.comConta tx.de fun c =>
    commitGb height d.gb { c with nonce := d.recebido }).account y).balance = _
  rw [State.account_comConta]
  split_ifs with hy
  · rw [commitGb_balance, hy]
    rfl
  · rfl

/-- The end of a transaction moves no balance and no stake. -/
theorem Despacho.efeito_fim {tx : Tx} {tipo : Tipo} {height blockTs : ℕ}
    (d : Despacho amb tx tipo height blockTs s t) : Efeito [] [] [] d.meio t := by
  obtain ⟨burned, hfim⟩ := d.fim
  have hsaldos := d.saldos_fim
  have hstakes : t.stakeDe = d.meio.stakeDe := (congrArg State.stakeDe hfim).trans rfl
  exact ⟨hsaldos ▸ .refl _, hstakes ▸ .refl _⟩

/-- A handler of the AI layer makes a move of the task that the transaction names. -/
theorem andamento_of_manipulador {tx : Tx} {ctx : Ctx} {tipo : Tipo} (hlances : LancesCobertos s)
    (htipo : .aiTasks ∈ tipo.pegada) (hcria : tipo ≠ .aiTask)
    (h : manipulador amb tx ctx tipo s = .ok ⟨⟩ t) : Andamento amb.cripto tx ctx tipo s t := by
  cases tipo with
  | aiTask => exact absurd rfl hcria
  | aiResult => exact aiResult_eq_ok h
  | aiClaim => exact aiClaim_eq_ok h
  | aiChallenge => exact aiChallenge_eq_ok h
  | aiVerdict => exact aiVerdict_eq_ok h
  | aiBid => exact aiBid_eq_ok h
  | aiAward => exact aiAward_eq_ok hlances h
  | aiCommit => exact aiCommit_eq_ok h
  | aiReveal => exact aiReveal_eq_ok h
  | aiRefund => exact aiRefund_eq_ok h
  | _ => exact absurd htipo (by decide)

/-- The rest of a transaction does not change what its handler did. -/
theorem Andamento.ate_o_fim {cr : Cripto} {tx : Tx} {ctx : Ctx} {tipo : Tipo} {u : State}
    (h : Andamento cr tx ctx tipo s u) (htarefas : t.aiTasks = u.aiTasks)
    (hefeito : Efeito [] [] [] u t) : Andamento cr tx ctx tipo s t := by
  obtain ⟨achada, gravada, passo, efeito, justo⟩ := h
  exact .anda achada (htarefas.trans gravada) passo (efeito.segue hefeito) justo

theorem Acao.Aceita.mudaTarefas (ha : a.Aceita amb s t) (hlances : LancesCobertos s) :
    MudaTarefas amb s a t := by
  by_cases htarefas : .aiTasks ∈ a.pegada
  · obtain ⟨tx, height, blockTs, tipo, rfl, htipo, ⟨d⟩⟩ := ha.despacho rfl htarefas
    have hfim : t.aiTasks = d.meio.aiTasks := d.le
    by_cases hmexe : .aiTasks ∈ tipo.pegada
    · by_cases hcria : tipo = .aiTask
      · subst hcria
        obtain ⟨id, nova, hid, hcriada, hnova, hestado, hcommits, hefeito⟩ :=
          aiTask_eq_ok d.maneja
        have hafim := hefeito.segue d.efeito_fim
        refine .cria rfl ?_ (hfim.trans hcriada) hnova hestado hcommits hafim
        simp [Acao.id?, Acao.tx?, hid]
      · exact .anda rfl htipo ((andamento_of_manipulador hlances hmexe hcria d.maneja).ate_o_fim hfim
          d.efeito_fim)
    · refine .alheia (hfim.trans ?_)
      exact manipulador_le d.maneja fun c hc => cego_aiTasks fun h => hmexe (h ▸ hc)
  · exact .alheia (ha.le fun c hc => cego_aiTasks fun h => htarefas (h ▸ hc))

/-! ## What holds of the tasks of every state -/

section Percurso

variable {s₀ : State} {passado : List (State × Acao)}

theorem tarefas_da_genese (h₀ : Genese amb s₀) : s₀.aiTasks = ∅ := h₀.le

theorem LancesCobertos.passo (hs : LancesCobertos s) (h : MudaTarefas amb s a t) :
    LancesCobertos t := by
  intro id tarefa htarefa
  cases h with
  | alheia h => exact hs id tarefa (h ▸ htarefa)
  | cria htx hid h hlances =>
    rw [h, OrdMap.get?_insert] at htarefa
    split_ifs at htarefa
    · exact Option.some.inj htarefa ▸ hlances
    · exact hs id tarefa htarefa
  | anda htx htipo h =>
    obtain ⟨achada, gravada, passo, -, -⟩ := h
    rw [gravada, OrdMap.get?_insert] at htarefa
    split_ifs at htarefa
    · exact Option.some.inj htarefa ▸ passo.emLances (hs _ _ achada)
    · exact hs id tarefa htarefa

theorem lances_of_execucao (h₀ : Genese amb s₀) (h : Execucao amb s₀ passado s) :
    LancesCobertos s := by
  refine h.invariante ?_ fun hs ha => hs.passo (ha.mudaTarefas hs)
  intro id tarefa htarefa
  rw [tarefas_da_genese h₀] at htarefa
  cases htarefa

/-- Every step of a run does one of the three things. -/
theorem mudaTarefas_of_execucao (h₀ : Genese amb s₀) (h : Execucao amb s₀ passado s)
    (ha : a.Aceita amb s t) : MudaTarefas amb s a t :=
  ha.mudaTarefas (lances_of_execucao h₀ h)

/-- A task has the id of a transaction of the run. -/
theorem id_of_tarefa (h₀ : Genese amb s₀) (h : Execucao amb s₀ passado s) {id : String}
    {tarefa : Task} (htarefa : s.aiTasks.get? id = some tarefa) :
    id ∈ idsDaExecucao passado := by
  induction h generalizing id tarefa with
  | inicio =>
    rw [tarefas_da_genese h₀] at htarefa
    cases htarefa
  | segue h ha ih =>
    rename_i passado s t a
    have hantes : ∀ {id tarefa}, s.aiTasks.get? id = some tarefa →
        id ∈ idsDaExecucao ((s, a) :: passado) := by
      intro id tarefa h
      unfold idsDaExecucao
      rw [List.filterMap_cons]
      split
      · exact ih h
      · exact List.mem_cons_of_mem _ (ih h)
    cases mudaTarefas_of_execucao h₀ h ha with
    | alheia h => exact hantes (h ▸ htarefa)
    | cria htx hid h =>
      rw [h, OrdMap.get?_insert] at htarefa
      split_ifs at htarefa with heq
      · unfold idsDaExecucao
        rw [List.filterMap_cons_some (f := fun x : State × Acao => x.2.id?) hid, heq]
        exact List.mem_cons_self
      · exact hantes htarefa
    | anda htx htipo h =>
      obtain ⟨achada, gravada, -, -, -⟩ := h
      rw [gravada, OrdMap.get?_insert] at htarefa
      split_ifs at htarefa with heq
      · exact hantes (heq ▸ achada)
      · exact hantes htarefa

/-! ## The ledger of a task -/

/-- What a state holds in escrow for a task. -/
def custodiaDe (s : State) (id : String) : Amount := (s.aiTasks.get? id).elim 0 Task.custodia

/-- What a step puts into the escrow of a task: its reward, or the bond of a challenge. -/
def entrada : Option Task → Option Task → Amount
  | none, some nova => nova.reward
  | some antes, some depois => antes.fianca depois
  | _, none => 0

/-- What a step pays out of the escrow of a task. -/
def pagos : Option Task → Option Task → List (String × Amount)
  | some antes, some depois => antes.liquidacao depois
  | _, _ => []

/-- What a run put into the escrow of a task. -/
def entrouPor (id : String) : List (State × Acao) → State → ℕ
  | [], _ => 0
  | (s, _) :: antes, t =>
    entrada (s.aiTasks.get? id) (t.aiTasks.get? id) + entrouPor id antes s

/-- What a run paid out of the escrow of a task. -/
def pagouPor (id : String) : List (State × Acao) → State → ℕ
  | [], _ => 0
  | (s, _) :: antes, t =>
    somaDe (pagos (s.aiTasks.get? id) (t.aiTasks.get? id)) + pagouPor id antes s

theorem Task.liquidacao_self (tarefa : Task) : tarefa.liquidacao tarefa = [] := by
  unfold Task.liquidacao
  rw [if_neg, if_pos (.inl rfl)]
  rintro ⟨h, h'⟩
  rw [h] at h'
  exact absurd h' (by decide)

theorem Task.fianca_self (tarefa : Task) : tarefa.fianca tarefa = 0 := by
  unfold Task.fianca
  rw [if_neg]
  rintro ⟨h, h'⟩
  rw [h] at h'
  exact absurd h' (by decide)

theorem entrada_self (tarefa : Option Task) : entrada tarefa tarefa = 0 := by
  cases tarefa with
  | none => rfl
  | some tarefa => exact tarefa.fianca_self

theorem pagos_self (tarefa : Option Task) : pagos tarefa tarefa = [] := by
  cases tarefa with
  | none => rfl
  | some tarefa => exact tarefa.liquidacao_self

theorem Task.custodia_of_final {tarefa : Task} (h : tarefa.Final) : tarefa.custodia = 0 := by
  unfold Task.custodia
  rw [if_neg, if_pos h]
  intro hdisputa
  unfold Task.Final at h
  rw [hdisputa] at h
  exact absurd h (by decide)

theorem Task.custodia_of_nova {nova : Task} (h : nova.state ∈ ["PENDING", "BIDDING"]) :
    nova.custodia = nova.reward := by
  rcases List.mem_pair.mp h with h | h <;> simp [Task.custodia, Task.Final, h]

/-- A step accounts for the escrow of every task, as long as it creates no task anew. -/
theorem MudaTarefas.conserva (h : MudaTarefas amb s a t) (hs : LancesCobertos s)
    (hnova : ∀ id ∈ a.id?, s.aiTasks.get? id = none) (id : String) :
    custodiaDe t id + somaDe (pagos (s.aiTasks.get? id) (t.aiTasks.get? id)) =
      custodiaDe s id + entrada (s.aiTasks.get? id) (t.aiTasks.get? id) := by
  have higual : t.aiTasks.get? id = s.aiTasks.get? id →
      custodiaDe t id + somaDe (pagos (s.aiTasks.get? id) (t.aiTasks.get? id)) =
        custodiaDe s id + entrada (s.aiTasks.get? id) (t.aiTasks.get? id) := by
    intro higual
    unfold custodiaDe
    rw [higual, pagos_self, entrada_self]
    rfl
  cases h with
  | alheia h => exact higual (by rw [h])
  | cria htx hid h hlances hestado hcommits hefeito =>
    rename_i tx fee id' nova
    by_cases heq : id = id'
    · have hlivre := hnova id' hid
      subst heq
      have ht : t.aiTasks.get? id = some nova := by rw [h, OrdMap.get?_insert_self]
      unfold custodiaDe
      rw [hlivre, ht]
      exact (Task.custodia_of_nova hestado).trans (Nat.zero_add _).symm
    · exact higual (by rw [h, OrdMap.get?_insert_of_ne _ heq])
  | anda htx htipo h =>
    rename_i tx ctx tipo
    obtain ⟨achada, gravada, passo, -, -⟩ := h
    rename_i antes depois taxa premio multas
    by_cases heq : id = taskIdDe tx
    · subst heq
      have ht : t.aiTasks.get? (taskIdDe tx) = some depois := by
        rw [gravada, OrdMap.get?_insert_self]
      unfold custodiaDe
      rw [achada, ht]
      exact passo.conserva (hs _ _ achada)
    · exact higual (by rw [gravada, OrdMap.get?_insert_of_ne _ heq])

/-- A final task stays as it is. -/
theorem MudaTarefas.final (h : MudaTarefas amb s a t)
    (hnova : ∀ id ∈ a.id?, s.aiTasks.get? id = none) {id : String} {tarefa : Task}
    (htarefa : s.aiTasks.get? id = some tarefa) (hfinal : tarefa.Final) :
    t.aiTasks.get? id = some tarefa := by
  cases h with
  | alheia h => rw [h, htarefa]
  | cria htx hid h hlances hestado hcommits hefeito =>
    rename_i tx fee id' nova
    rw [h, OrdMap.get?_insert_of_ne, htarefa]
    rintro rfl
    rw [hnova id hid] at htarefa
    cases htarefa
  | anda htx htipo h =>
    obtain ⟨achada, gravada, passo, -, -⟩ := h
    rw [gravada, OrdMap.get?_insert_of_ne, htarefa]
    rintro rfl
    rw [achada] at htarefa
    exact passo.not_final (Option.some.inj htarefa ▸ hfinal)

/-- A run that repeats no id gives every transaction a new one. -/
theorem nova_of_nodup (h₀ : Genese amb s₀) (h : Execucao amb s₀ passado s)
    (hids : (idsDaExecucao ((s, a) :: passado)).Nodup) :
    (idsDaExecucao passado).Nodup ∧ ∀ id ∈ a.id?, s.aiTasks.get? id = none := by
  unfold idsDaExecucao at hids
  cases hid : a.id? with
  | none =>
    rw [List.filterMap_cons_none (f := fun x : State × Acao => x.2.id?) hid] at hids
    exact ⟨hids, fun id hid => by cases hid⟩
  | some id =>
    rw [List.filterMap_cons_some (f := fun x : State × Acao => x.2.id?) hid] at hids
    obtain ⟨hnovo, hids⟩ := List.nodup_cons.mp hids
    refine ⟨hids, fun id' hid' => ?_⟩
    obtain rfl := Option.some.inj hid'
    by_contra hpresa
    obtain ⟨tarefa, htarefa⟩ := Option.ne_none_iff_exists'.mp hpresa
    exact hnovo (id_of_tarefa h₀ h htarefa)

/-- What entered the escrow of a task is what was paid out of it and what it holds. -/
theorem entrou_eq (h₀ : Genese amb s₀) (h : Execucao amb s₀ passado s)
    (hids : (idsDaExecucao passado).Nodup) (id : String) :
    entrouPor id passado s = pagouPor id passado s + custodiaDe s id := by
  induction h with
  | inicio =>
    unfold custodiaDe
    rw [tarefas_da_genese h₀]
    rfl
  | segue h ha ih =>
    rename_i passado s t a
    obtain ⟨hids, hnova⟩ := nova_of_nodup h₀ h hids
    have hantes := ih hids
    have hpasso := (mudaTarefas_of_execucao h₀ h ha).conserva (lances_of_execucao h₀ h) hnova id
    unfold entrouPor pagouPor
    rw [hantes]
    have hconta : ∀ e p b c f : ℕ, f + p = c + e → e + (b + c) = p + b + f := by omega
    exact hconta _ _ _ _ _ hpasso

theorem final_ate_o_fim (h₀ : Genese amb s₀) (h : Execucao amb s₀ passado s)
    (hids : (idsDaExecucao passado).Nodup) {x : State × Acao} (hx : x ∈ passado) {id : String}
    {tarefa : Task} (htarefa : x.1.aiTasks.get? id = some tarefa) (hfinal : tarefa.Final) :
    s.aiTasks.get? id = some tarefa := by
  induction h with
  | inicio => cases hx
  | segue h ha ih =>
    rename_i passado s t a
    obtain ⟨hids, hnova⟩ := nova_of_nodup h₀ h hids
    have hs : s.aiTasks.get? id = some tarefa := by
      rcases List.mem_cons.mp hx with rfl | hx
      · exact htarefa
      · exact ih hids hx
    exact (mudaTarefas_of_execucao h₀ h ha).final hnova hs hfinal

end Percurso

/-! ## A task that expires -/

/-- Two accounts that may register as oracles and one that pays for a task. -/
def alocacoesIa : JsonValue := .map
  [("balances", .map [(enderecoA, .str "500000000"), (enderecoB, .str "500000000"),
      (enderecoC, .str "1001")]),
    ("stakes", .map [(enderecoA, .str "3000000000"), (enderecoB, .str "3000000000"),
      (enderecoC, .str "3000000000")])]

def estadoIa : State := fim (applyGenesis criptoIdeal alocacoesIa) {}

theorem genese_ia : Genese ambienteIdeal estadoIa := by
  have hconclui : conclui (applyGenesis criptoIdeal alocacoesIa) {} = true := by decide +kernel
  obtain ⟨⟨⟩, h⟩ := conclui_iff.mp hconclui
  exact ⟨alocacoesIa, h⟩

def contasIa : List (String × String) :=
  [(chaveIdeal 0, enderecoA), (chaveIdeal 1, enderecoB), (chaveIdeal 2, enderecoC)]

theorem capaz_ia {chave endereco : String} (h : (chave, endereco) ∈ contasIa) :
    (produtorDe chave endereco).Capaz criptoIdeal := by
  refine trio_capaz _ ?_
  simp only [contasIa, List.mem_cons, Prod.mk.injEq, List.not_mem_nil, or_false] at h
  rcases h with ⟨rfl, rfl⟩ | ⟨rfl, rfl⟩ | ⟨rfl, rfl⟩ <;> simp [trio]

theorem execucao_ia {roteiro : List Ato}
    (hcontas : ∀ ato ∈ roteiro, (ato.chave, ato.endereco) ∈ contasIa)
    (hensaia : ensaia ambienteIdeal estadoIa roteiro = true) :
    Execucao ambienteIdeal estadoIa (passadoDe ambienteIdeal estadoIa [] roteiro)
      (encena ambienteIdeal estadoIa roteiro) :=
  execucao_de_ensaia digere_ideal (fun ato hato => capaz_ia (hcontas ato hato))
    Percurso.inicio hensaia

/-- A line of the account of a number, within its quota. -/
def linha (n : ℕ) (endereco : String) (tx : Tx) (tipo : Tipo) (blockTs recebido usado : ℕ) : Ato :=
  ⟨chaveIdeal n, endereco, tx, tipo, 1, blockTs, recebido, ⟨0, usado⟩, 0⟩

def camposTarefa : Tx :=
  { txType := "AI_TASK", de := "", nonce := 1, timestamp := 1, amount := "1001", fee := "0"
    data := some (.map [("oracle", .str enderecoA), ("prompt", .str "?")]) }

def idDaTarefa : String := "076667a8836ff609581b2d03a1e596003ba8da1be883c483a1cf4820c4b04d2a"

def camposReembolso : Tx :=
  { txType := "AI_REFUND", de := "", nonce := 2, timestamp := 1, fee := "0"
    data := some (.map [("taskId", .str idDaTarefa)]) }

/-- A task for the oracle A, and its refund once it expires. -/
def roteiroExpira : List Ato :=
  [linha 2 enderecoC camposTarefa .aiTask 1 1 2010,
    linha 2 enderecoC camposReembolso .aiRefund 3600001 2 3034]

instance roteiro_expira : Fact (ensaia ambienteIdeal estadoIa roteiroExpira = true ∧
    (idsDaExecucao (passadoDe ambienteIdeal estadoIa [] roteiroExpira)).Nodup ∧
    ((encena ambienteIdeal estadoIa roteiroExpira).aiTasks.get? idDaTarefa).any
      (fun tarefa => decide tarefa.Final) = true) where
  out := by
    rw [ambienteIdeal_eq]
    decide +kernel

end Eav7
