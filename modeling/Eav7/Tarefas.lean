import Eav7.Base.Lancamentos
import Eav7.Execucao

/-!
# The escrow of the AI tasks

The record of a task moves through its states, and each move settles something: a table
says what a move pays and to whom. Each handler of the AI layer makes one move of one
task, and the balances change by what the table says.
-/

namespace Eav7

open Base
open AiTx (taskIdDe concluir comQuorum comAberta comTarefa comOraculo apurarQuorum reembolsar)

variable {amb : Ambiente} {cr : Cripto} {tx : Tx} {ctx : Ctx} {s t u : State}

instance : Cego State.aiTasks .accounts := ⟨fun _ => rfl⟩
instance : Cego State.aiTasks .totalBurned := ⟨fun _ => rfl⟩
instance : Cego State.aiTasks .oracles := ⟨fun _ => rfl⟩
instance : Cego State.aiTasks .bridgeRelayers := ⟨fun _ => rfl⟩
instance : Cego State.aiTasks .bridgeSourceCommittees := ⟨fun _ => rfl⟩
instance : Cego State.aiTasks .vesting := ⟨fun _ => rfl⟩

theorem cego_aiTasks {c : Campo} (h : c ≠ .aiTasks) : Cego State.aiTasks c := by
  cases c <;> first | exact ⟨fun _ => rfl⟩ | exact absurd rfl h

/-! ## The moves of a task -/

namespace Task

/-- No transaction acts on a task in these states. -/
def Final (t : Task) : Prop := t.state ∈ ["DONE", "UPHELD", "OVERTURNED", "REFUNDED"]

instance (t : Task) : Decidable t.Final := inferInstanceAs (Decidable (_ ∈ _))

/-- What a task holds in escrow. -/
def custodia (t : Task) : Amount :=
  if t.state = "DISPUTED" then t.reward + t.bond else if t.Final then 0 else t.reward

/-- What a move puts into escrow: the bond of a challenge. -/
def fianca (antes depois : Task) : Amount :=
  if antes.state = "CHALLENGE_PERIOD" ∧ depois.state = "DISPUTED" then depois.bond else 0

/-- Who shares the reward of a task that is done. -/
def premiados (depois : Task) (reward : Amount) : List (String × Amount) :=
  match depois.quorum?.bind (·.winners) with
  | some ws => quinhoes (reward / ws.length) (reward - reward / ws.length * ws.length) ws
  | none => (depois.oracle.map (·, reward)).toList

/-- What a move pays out of escrow. -/
def liquidacao (antes depois : Task) : List (String × Amount) :=
  if antes.state = "BIDDING" ∧ depois.state = "PENDING" then
    [(antes.requester, antes.reward - depois.reward)]
  else if antes.state = depois.state ∨ ¬ depois.Final then []
  else if depois.state = "REFUNDED" then [(antes.requester, antes.reward)]
  else if depois.state = "UPHELD" then (antes.oracle.map (·, antes.reward + antes.bond)).toList
  else if depois.state = "OVERTURNED" then
    (antes.requester, antes.reward) :: (antes.challenger.map (·, antes.bond)).toList
  else
    premiados depois antes.reward ++
      if antes.state = "DISPUTED" then (antes.challenger.map (·, antes.bond)).toList else []

/-- A task out to bids escrows its budget, and no bid is above it. -/
structure EmLances (t : Task) : Prop where
  aberta : t.state = "BIDDING" → ∃ a, t.kind = .aberta a ∧ a.budget = t.reward ∧
    ∀ oraculo preco ts, a.bids.get? oraculo = some (preco, ts) → preco ≤ a.budget

end Task

/-- The moves of the record of a task, as the handlers write them. -/
inductive Passo (cr : Cripto) (tx : Tx) (ctx : Ctx) : Tipo → Task → Task → Prop
  | atesta {t e : Task} {r : AiTx.Resultado} {kind : String} (hestado : t.state = "PENDING")
      (he : AiTx.entregar t r tx = .ok e) :
      Passo cr tx ctx .aiResult t { e with verified := some kind, state := "DONE" }
  | entrega {t e : Task} {r : AiTx.Resultado} {prazo : ℕ} (hestado : t.state = "PENDING")
      (he : AiTx.entregar t r tx = .ok e) :
      Passo cr tx ctx .aiResult t { e with state := "CHALLENGE_PERIOD", challenge := .janela prazo }
  | recebe {t : Task} {oraculo : String} (hestado : t.state = "CHALLENGE_PERIOD")
      (horaculo : t.oracle = some oraculo) : Passo cr tx ctx .aiClaim t (concluir "DONE" t)
  | desiste {t : Task} {oraculo desafiante : String} (hestado : t.state = "DISPUTED")
      (horaculo : t.oracle = some oraculo) (hdesafiante : t.challenger = some desafiante) :
      Passo cr tx ctx .aiClaim t ((concluir "DONE" t).comVotes ∅)
  | desafia {t : Task} {prazo : ℕ} (hestado : t.state = "CHALLENGE_PERIOD") :
      Passo cr tx ctx .aiChallenge t { t with
        state := "DISPUTED"
        challenge := .disputa t.challengeDeadline tx.de Config.aiChallengeBond prazo ∅ }
  | vota {t : Task} {votos : OrdMap String Bool} (hestado : t.state = "DISPUTED") :
      Passo cr tx ctx .aiVerdict t (t.comVotes votos)
  | mantem {t : Task} {votos : OrdMap String Bool} {oraculo : String}
      (hestado : t.state = "DISPUTED") (horaculo : t.oracle = some oraculo) :
      Passo cr tx ctx .aiVerdict t
        ({ concluir "UPHELD" (t.comVotes votos) with output := none }.comVotes ∅)
  | derruba {t : Task} {votos : OrdMap String Bool} {desafiante : String}
      (hestado : t.state = "DISPUTED") (hdesafiante : t.challenger = some desafiante) :
      Passo cr tx ctx .aiVerdict t
        ({ concluir "OVERTURNED" (t.comVotes votos) with output := none }.comVotes ∅)
  | lanca {t : Task} {a : Aberta} {preco ts : ℕ} (hestado : t.state = "BIDDING")
      (hkind : t.kind = .aberta a) (hpreco : preco ≤ a.budget) :
      Passo cr tx ctx .aiBid t (comAberta (fun a => { a with bids := a.bids.insert tx.de (preco, ts) }) t)
  | adjudica {t : Task} {a : Aberta} {vencedor : String} {preco ts : ℕ}
      (hestado : t.state = "BIDDING") (hkind : t.kind = .aberta a)
      (hlance : a.bids.get? vencedor = some (preco, ts)) :
      Passo cr tx ctx .aiAward t
        { comAberta (fun a => { a with assignedOracle := some vencedor, bids := ∅ }) t with
          reward := preco
          state := "PENDING" }
  | compromete {t : Task} {q : Quorum} {commit : String} (hestado : t.state = "PENDING")
      (hkind : t.kind = .quorum q) (hcommit : AiTx.campoTexto tx "commit" = some commit) :
      Passo cr tx ctx .aiCommit t (comQuorum (fun q => { q with commits := q.commits.insert tx.de commit }) t)
  | revela {t : Task} {q : Quorum} {output : String} (hestado : t.state = "PENDING")
      (hkind : t.kind = .quorum q) :
      Passo cr tx ctx .aiReveal t (comQuorum (fun _ => AiTx.comReveal cr tx output q) t)
  | apura {t : Task} {q : Quorum} {output hash : String} {vencedores : List String}
      (hestado : t.state = "PENDING") (hkind : t.kind = .quorum q) (hvencedores : vencedores ≠ []) :
      Passo cr tx ctx .aiReveal t (apurarQuorum tx hash vencedores (AiTx.comReveal cr tx output q)
        (comQuorum (fun _ => AiTx.comReveal cr tx output q) t))
  | reembolsa {t : Task} (hestado : t.state = "PENDING" ∨ t.state = "BIDDING") :
      Passo cr tx ctx .aiRefund t (reembolsar tx t)

namespace Task

section Votos

variable (t : Task) (votos : OrdMap String Bool)

@[simp] theorem comVotes_state : (t.comVotes votos).state = t.state := by
  unfold comVotes
  split <;> rfl

@[simp] theorem comVotes_reward : (t.comVotes votos).reward = t.reward := by
  unfold comVotes
  split <;> rfl

@[simp] theorem comVotes_kind : (t.comVotes votos).kind = t.kind := by
  unfold comVotes
  split <;> rfl

@[simp] theorem comVotes_bond : (t.comVotes votos).bond = t.bond := by
  unfold comVotes
  split
  · rename_i h
    simp [bond, h]
  · rfl

@[simp] theorem comVotes_oracle : (t.comVotes votos).oracle = t.oracle := by
  simp [oracle, entrega]

@[simp] theorem comVotes_quorum? : (t.comVotes votos).quorum? = t.quorum? := by
  simp [quorum?]

end Votos

end Task

section Tipos

variable (f : Aberta → Aberta) (g : Quorum → Quorum) (t : Task)

@[simp] theorem comAberta_state : (comAberta f t).state = t.state := by
  unfold comAberta
  split <;> rfl

@[simp] theorem comAberta_reward : (comAberta f t).reward = t.reward := by
  unfold comAberta
  split <;> rfl

@[simp] theorem comQuorum_state : (comQuorum g t).state = t.state := by
  unfold comQuorum
  split <;> rfl

@[simp] theorem comQuorum_reward : (comQuorum g t).reward = t.reward := by
  unfold comQuorum
  split <;> rfl

end Tipos

theorem quorum?_eq_some {t : Task} {q : Quorum} : t.quorum? = some q ↔ t.kind = .quorum q := by
  unfold Task.quorum?
  cases t.kind <;> simp

theorem aberta?_eq_some {t : Task} {a : Aberta} : t.aberta? = some a ↔ t.kind = .aberta a := by
  unfold Task.aberta?
  cases t.kind <;> simp

/-- Only tasks without a quorum are delivered. -/
theorem quorum?_of_oracle {t : Task} {oraculo : String} (h : t.oracle = some oraculo) :
    t.quorum? = none := by
  unfold Task.oracle Task.entrega at h
  unfold Task.quorum?
  cases hk : t.kind with
  | quorum q =>
    rw [hk] at h
    cases h
  | _ => rfl

/-- Who delivered is paid the reward alone. -/
theorem premiados_of_oracle {t : Task} {oraculo : String} (h : t.oracle = some oraculo)
    (reward : Amount) : t.premiados reward = [(oraculo, reward)] := by
  unfold Task.premiados
  rw [quorum?_of_oracle h, h]
  rfl

/-- A delivery has the sender as the oracle and the reward as it was. -/
theorem entregar_eq_ok {t e : Task} {r : AiTx.Resultado} (h : AiTx.entregar t r tx = .ok e) :
    e.oracle = some tx.de ∧ e.reward = t.reward := by
  obtain ⟨t', ht', h₁⟩ := except_bind_eq_ok.mp h
  have ht' := exigir_eq_ok.mp ht'
  cases h₁
  unfold Task.comEntrega at ht'
  cases hk : t.kind with
  | designada d =>
    rw [hk] at ht'
    cases ht'
    exact ⟨rfl, rfl⟩
  | aberta a =>
    rw [hk] at ht'
    cases ht'
    exact ⟨rfl, rfl⟩
  | quorum q =>
    rw [hk] at ht'
    cases ht'

namespace Passo

variable {tipo : Tipo} {antes depois : Task}

/-- The states that a task can move from. -/
theorem estado (h : Passo cr tx ctx tipo antes depois) :
    antes.state ∈ ["PENDING", "BIDDING", "CHALLENGE_PERIOD", "DISPUTED"] := by
  cases h with
  | reembolsa hestado => rcases hestado with h | h <;> simp [h]
  | _ => simp_all

/-- A final task makes no move. -/
theorem not_final (h : Passo cr tx ctx tipo antes depois) : ¬ antes.Final := by
  have hestado := h.estado
  intro hfinal
  unfold Task.Final at hfinal
  generalize antes.state = estado at hestado hfinal
  simp only [List.mem_cons, List.not_mem_nil, or_false] at hestado hfinal
  rcases hestado with rfl | rfl | rfl | rfl <;> simp at hfinal

/-- What a move puts into escrow and pays out of it accounts for what the task holds. -/
theorem conserva (h : Passo cr tx ctx tipo antes depois) (hlances : antes.EmLances) :
    depois.custodia + somaDe (antes.liquidacao depois) = antes.custodia + antes.fianca depois := by
  cases h with
  | atesta hestado he =>
    rename_i e r kind
    obtain ⟨horaculo, hreward⟩ := entregar_eq_ok he
    have hpremio := premiados_of_oracle
      (t := { e with verified := some kind, state := "DONE" }) horaculo antes.reward
    simp [Task.custodia, Task.liquidacao, Task.fianca, Task.Final, hestado, hpremio]
  | entrega hestado he =>
    obtain ⟨horaculo, hreward⟩ := entregar_eq_ok he
    simp [Task.custodia, Task.liquidacao, Task.fianca, Task.Final, hestado, hreward]
  | recebe hestado horaculo =>
    have hpremio := premiados_of_oracle (t := concluir "DONE" antes) horaculo antes.reward
    unfold concluir at hpremio ⊢
    simp [Task.custodia, Task.liquidacao, Task.fianca, Task.Final, hestado, hpremio]
  | desiste hestado horaculo hdesafiante =>
    have hpremio := premiados_of_oracle (t := (concluir "DONE" antes).comVotes ∅)
      ((Task.comVotes_oracle _ _).trans horaculo) antes.reward
    unfold concluir at hpremio ⊢
    simp [Task.custodia, Task.liquidacao, Task.fianca, Task.Final, hestado, hpremio, hdesafiante]
  | desafia hestado =>
    simp [Task.custodia, Task.liquidacao, Task.fianca, Task.Final, hestado, Task.bond]
  | vota hestado =>
    simp [Task.custodia, Task.liquidacao, Task.fianca, Task.Final, hestado]
  | mantem hestado horaculo =>
    simp [Task.custodia, Task.liquidacao, Task.fianca, Task.Final, hestado, horaculo, concluir]
  | derruba hestado hdesafiante =>
    simp [Task.custodia, Task.liquidacao, Task.fianca, Task.Final, hestado, hdesafiante, concluir]
  | lanca hestado hkind hpreco =>
    simp [Task.custodia, Task.liquidacao, Task.fianca, Task.Final, hestado]
  | adjudica hestado hkind hlance =>
    rename_i a vencedor preco ts
    obtain ⟨a', hkind', hbudget, hlances⟩ := hlances.aberta hestado
    obtain rfl := TaskKind.aberta.inj (hkind.symm.trans hkind')
    have hle : preco ≤ antes.reward := hbudget ▸ hlances vencedor preco ts hlance
    simp [Task.custodia, Task.liquidacao, Task.fianca, Task.Final, hestado]
    exact Nat.add_sub_of_le hle
  | compromete hestado hkind hcommit =>
    simp [Task.custodia, Task.liquidacao, Task.fianca, Task.Final, hestado]
  | revela hestado hkind =>
    simp [Task.custodia, Task.liquidacao, Task.fianca, Task.Final, hestado]
  | apura hestado hkind hvencedores =>
    rename_i q output hash vencedores
    have hsoma := somaDe_quinhoes hvencedores antes.reward
    simp [Task.custodia, Task.liquidacao, Task.fianca, Task.Final, hestado, Task.premiados,
      apurarQuorum, Task.quorum?, hsoma]
  | reembolsa hestado =>
    rcases hestado with h | h <;>
      simp [Task.custodia, Task.liquidacao, Task.fianca, Task.Final, h, reembolsar]

/-- Of the moves, only a bid leaves a task out to bids. -/
theorem emLances (h : Passo cr tx ctx tipo antes depois) (hlances : antes.EmLances) :
    depois.EmLances := by
  refine ⟨fun hbidding => ?_⟩
  cases h with
  | lanca hestado hkind hpreco =>
    rename_i a preco ts
    obtain ⟨a', hkind', hbudget, hlances⟩ := hlances.aberta hestado
    obtain rfl := TaskKind.aberta.inj (hkind.symm.trans hkind')
    refine ⟨{ a with bids := a.bids.insert tx.de (preco, ts) }, ?_, ?_, ?_⟩
    · unfold comAberta
      rw [hkind]
    · exact hbudget.trans (comAberta_reward _ _).symm
    · intro oraculo preco' ts' hlance
      rw [OrdMap.get?_insert] at hlance
      split_ifs at hlance
      · cases hlance
        exact hpreco
      · exact hlances oraculo preco' ts' hlance
  | reembolsa hestado => simp [reembolsar] at hbidding
  | _ => simp_all [concluir, apurarQuorum]

end Passo
end Eav7
