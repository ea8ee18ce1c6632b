import Eav7.Ciclo

/-!
# What an AI commit binds

A commit is the hash of an output and a salt joined by a bar, which both may hold, and it
does not name the oracle. So it binds the output as long as the committed text is cut at
one bar only, and no reveal serves two oracles as long as no commit is copied.
-/

namespace Eav7

open Base
open AiTx (taskIdDe campoTexto)

variable {cr : Cripto}

/-! ## One output for each commit -/

/-- The ways of reading a committed text that a reveal accepts. -/
structure Corte (texto output salt : String) : Prop where
  texto : texto = s!"{output}|{salt}"
  output : output ≠ "" ∧ output.utf8ByteSize ≤ Config.maxAiOutputBytes
  salt : salt ≠ "" ∧ jsLen salt ≤ AiTx.maxSaltLen

/-- A reveal of an oracle in a task is accepted, with this commit of the oracle stored. -/
def Abre (cr : Cripto) (tarefa oraculo commit output salt : String) : Prop :=
  ∃ tx ctx s t antes q, tx.de = oraculo ∧ taskIdDe tx = tarefa ∧
    s.aiTasks.get? tarefa = some antes ∧ antes.kind = .quorum q ∧
    q.commits.get? oraculo = some commit ∧ campoTexto tx "output" = some output ∧
    campoTexto tx "salt" = some salt ∧ AiTx.aiReveal cr tx ctx s = .ok ⟨⟩ t

/-- Every text behind a commit is read in one way. -/
def UmCorte (cr : Cripto) (T : Set String) (commit : String) : Prop :=
  ∀ texto ∈ T, cr.eavHashOne texto = minusculas commit → ∀ output salt output' salt',
    Corte texto output salt → Corte texto output' salt' → output = output'

theorem outputDe_eq_ok {tx : Tx} {output : String} :
    AiTx.outputDe tx = .ok output ↔ campoTexto tx "output" = some output ∧ output ≠ "" ∧
      output.utf8ByteSize ≤ Config.maxAiOutputBytes := by
  constructor
  · intro h
    obtain ⟨o, ho, h₁⟩ := except_bind_eq_ok.mp h
    obtain ⟨_, htamanho, h₂⟩ := except_bind_eq_ok.mp h₁
    cases h₂
    obtain ⟨hcampo, hvazio⟩ := Option.filter_eq_some_iff.mp (exigir_eq_ok.mp ho)
    exact ⟨hcampo, by simpa using hvazio, not_lt.mp (recusar_eq_ok.mp htamanho)⟩
  · rintro ⟨hcampo, hvazio, htamanho⟩
    refine except_bind_eq_ok.mpr ⟨output, exigir_eq_ok.mpr (Option.filter_eq_some_iff.mpr
      ⟨hcampo, by simpa using hvazio⟩), except_bind_eq_ok.mpr ⟨(), ?_, rfl⟩⟩
    exact recusar_eq_ok.mpr (not_lt.mpr htamanho)

theorem saltDe_eq_ok {tx : Tx} {salt : String} :
    AiTx.saltDe tx = .ok salt ↔ campoTexto tx "salt" = some salt ∧ salt ≠ "" ∧
      jsLen salt ≤ AiTx.maxSaltLen := by
  unfold AiTx.saltDe
  rw [exigir_eq_ok, Option.filter_eq_some_iff]
  simp

/-- What an accepted reveal says reads a text whose hash is the commit. -/
theorem corte_of_abre {tarefa oraculo commit output salt : String}
    (h : Abre cr tarefa oraculo commit output salt) :
    Corte s!"{output}|{salt}" output salt ∧
      cr.eavHashOne s!"{output}|{salt}" = minusculas commit := by
  obtain ⟨tx, ctx, s, t, antes, q, rfl, rfl, hachada, hkind, hcommit, houtput, hsalt, hreveal⟩ := h
  unfold AiTx.aiReveal at hreveal
  rw [get_bind_run] at hreveal
  obtain ⟨⟨antes', q', output'⟩, v, hconf, -⟩ := bind_eq_ok.mp hreveal
  obtain ⟨hconf', rfl⟩ := lift_eq_ok.mp hconf
  obtain ⟨hachada', -, hkind', houtput', commit', salt', hcommit', hsalt', hhash⟩ :=
    conferirReveal_eq_ok hconf'
  obtain rfl := Option.some.inj (hachada.symm.trans hachada')
  obtain rfl := TaskKind.quorum.inj (hkind.symm.trans hkind')
  obtain rfl := Option.some.inj (hcommit.symm.trans hcommit')
  obtain ⟨hcampo, houtput'⟩ := outputDe_eq_ok.mp houtput'
  obtain ⟨hcampo', hsalt'⟩ := saltDe_eq_ok.mp hsalt'
  obtain rfl := Option.some.inj (houtput.symm.trans hcampo)
  obtain rfl := Option.some.inj (hsalt.symm.trans hcampo')
  exact ⟨⟨rfl, houtput', hsalt'⟩, hhash⟩

/-! A state where a reveal is awaited. -/

/-- A quorum task with one commit, past its commit window. -/
def tarefaComprometida (tarefa oraculo commit : String) : Task :=
  { id := tarefa, requester := "", reward := 0, state := "PENDING", deadline := 1
    resultHash := none, output := none, prompt := none, params := none, model := none
    createdAt := 0, completedAt := none, verified := none, challenge := .nenhum
    kind := .quorum { quorum := 2, phase := .commit, commitDeadline := 0, revealDeadline := 1
                      commits := (∅ : OrdMap String String).insert oraculo commit, reveals := ∅
                      revealOutputs := ∅, winners := none } }

def estadoComprometido (tarefa oraculo commit : String) : State :=
  { oracles := (∅ : OrdMap String Oracle).insert oraculo (GovTx.oracleRegistrado oraculo 0 0)
    aiTasks := (∅ : OrdMap String Task).insert tarefa (tarefaComprometida tarefa oraculo commit) }

def camposReveal (oraculo tarefa output salt : String) : Tx :=
  { txType := "AI_REVEAL", de := oraculo, nonce := 1, timestamp := 1
    data := some (.map [("output", .str output), ("salt", .str salt), ("taskId", .str tarefa)]) }

theorem campos_reveal (oraculo tarefa output salt : String) :
    campoTexto (camposReveal oraculo tarefa output salt) "output" = some output ∧
      campoTexto (camposReveal oraculo tarefa output salt) "salt" = some salt ∧
        taskIdDe (camposReveal oraculo tarefa output salt) = tarefa := by
  refine ⟨?_, ?_, ?_⟩ <;> rfl

theorem conferirReveal_comprometida {tarefa oraculo commit output salt : String}
    (h : Corte s!"{output}|{salt}" output salt)
    (hhash : cr.eavHashOne s!"{output}|{salt}" = minusculas commit) :
    ∃ q, (tarefaComprometida tarefa oraculo commit).kind = .quorum q ∧
      AiTx.conferirReveal cr (estadoComprometido tarefa oraculo commit)
        (camposReveal oraculo tarefa output salt) ⟨0, 0, 0⟩ =
          .ok (tarefaComprometida tarefa oraculo commit, q, output) := by
  obtain ⟨houtput, hsalt, htarefa⟩ := campos_reveal oraculo tarefa output salt
  refine ⟨_, rfl, ?_⟩
  refine except_bind_eq_ok.mpr ⟨(), recusar_eq_ok.mpr ?_, ?_⟩
  · exact ne_false_of_eq_true (OrdMap.contains_iff.mpr ⟨_, OrdMap.get?_insert_self ..⟩)
  refine except_bind_eq_ok.mpr ⟨tarefaComprometida tarefa oraculo commit,
    exigir_eq_ok.mpr (by rw [htarefa]; exact OrdMap.get?_insert_self ..), ?_⟩
  refine except_bind_eq_ok.mpr ⟨_, exigir_eq_ok.mpr rfl, ?_⟩
  refine except_bind_eq_ok.mpr ⟨(), recusar_eq_ok.mpr (by simp [tarefaComprometida]), ?_⟩
  refine except_bind_eq_ok.mpr ⟨commit, exigir_eq_ok.mpr (OrdMap.get?_insert_self ..), ?_⟩
  refine except_bind_eq_ok.mpr ⟨(), recusar_eq_ok.mpr Bool.false_ne_true, ?_⟩
  refine except_bind_eq_ok.mpr ⟨(), recusar_eq_ok.mpr (Nat.lt_irrefl 0), ?_⟩
  refine except_bind_eq_ok.mpr ⟨(), recusar_eq_ok.mpr (Nat.not_succ_le_zero 0), ?_⟩
  refine except_bind_eq_ok.mpr ⟨output, outputDe_eq_ok.mpr ⟨houtput, h.output⟩, ?_⟩
  refine except_bind_eq_ok.mpr ⟨salt, saltDe_eq_ok.mpr ⟨hsalt, h.salt⟩, ?_⟩
  refine except_bind_eq_ok.mpr ⟨(), recusar_eq_ok.mpr (not_not.mpr hhash), ?_⟩
  exact except_bind_eq_ok.mpr ⟨(), recusar_eq_ok.mpr (Nat.not_lt_zero _), rfl⟩

theorem debitar_zero (de : String) (s : State) :
    debitar de 0 s = .ok () (s.comSaldo de (s.balanceOf de - 0)) := by
  unfold debitar
  rw [get_bind_run, set_bind_run, lift_bind_run (a := ()) (recusar_eq_ok.mpr (Nat.not_lt_zero _))]
  rfl

/-- One reveal is no quorum of two. -/
theorem vencedora_de_um (oraculo hash : String) :
    AiTx.vencedora ((∅ : OrdMap String String).insert oraculo hash) 2 = none := by
  have hvalores : ((∅ : OrdMap String String).insert oraculo hash).values = [hash] := rfl
  unfold AiTx.vencedora
  simp [hvalores]

theorem abre_of_corte {tarefa oraculo commit output salt : String}
    (h : Corte s!"{output}|{salt}" output salt)
    (hhash : cr.eavHashOne s!"{output}|{salt}" = minusculas commit) :
    Abre cr tarefa oraculo commit output salt := by
  obtain ⟨houtput, hsalt, htarefa⟩ := campos_reveal oraculo tarefa output salt
  obtain ⟨q, hkind, hconf⟩ := conferirReveal_comprometida
    h hhash
  obtain rfl := TaskKind.quorum.inj hkind
  have hreveal : ∃ t, AiTx.aiReveal cr (camposReveal oraculo tarefa output salt) ⟨0, 0, 0⟩
      (estadoComprometido tarefa oraculo commit) = .ok ⟨⟩ t := by
    unfold AiTx.aiReveal
    rw [get_bind_run, lift_bind_run hconf]
    dsimp only
    rw [bind_run_ok (debitar_zero ..), modify_bind_run]
    have hum := vencedora_de_um oraculo (cr.eavHashOne output)
    unfold AiTx.comReveal
    dsimp only [camposReveal]
    rw [hum]
    exact ⟨_, rfl⟩
  obtain ⟨t, hreveal⟩ := hreveal
  exact ⟨camposReveal oraculo tarefa output salt, ⟨0, 0, 0⟩,
    estadoComprometido tarefa oraculo commit, t, _, _, rfl, htarefa, OrdMap.get?_insert_self .., rfl,
    OrdMap.get?_insert_self .., houtput, hsalt, hreveal⟩

/-- Openings that give one output leave one way of reading the texts behind a commit. -/
theorem umCorte_of_aberturas {T : Set String} {tarefa oraculo commit : String}
    (h : ∀ output salt outra sal, Abre cr tarefa oraculo commit output salt →
      Abre cr tarefa oraculo commit outra sal → s!"{output}|{salt}" ∈ T →
        s!"{outra}|{sal}" ∈ T → output = outra) : UmCorte cr T commit := by
  intro texto htexto hhash output salt output' salt' hcorte hcorte'
  obtain rfl := hcorte.texto
  have hcorte'' := hcorte'
  rw [hcorte'.texto] at hcorte''
  have hhash' := hhash
  rw [hcorte'.texto] at hhash'
  exact h output salt output' salt' (abre_of_corte hcorte hhash) (abre_of_corte hcorte'' hhash')
    htexto (hcorte'.texto ▸ htexto)

/-- All the accepted openings of a commit give one output exactly when every text behind
it is read in one way. -/
theorem commit_vincula {T : Set String} (hT : Set.InjOn cr.eavHashOne T)
    (tarefa oraculo commit : String) :
    (∀ output salt outra sal, Abre cr tarefa oraculo commit output salt →
      Abre cr tarefa oraculo commit outra sal → s!"{output}|{salt}" ∈ T →
        s!"{outra}|{sal}" ∈ T → output = outra) ↔ UmCorte cr T commit := by
  constructor
  · exact umCorte_of_aberturas
  · intro h output salt output' salt' habre habre' htexto htexto'
    obtain ⟨hcorte, hhash⟩ := corte_of_abre habre
    obtain ⟨hcorte', hhash'⟩ := corte_of_abre habre'
    have hmesmo := hT htexto htexto' (hhash.trans hhash'.symm)
    exact h _ htexto hhash output salt output' salt' hcorte (hmesmo ▸ hcorte')

/-! ## No reveal for two oracles -/

section Copias

variable {amb : Ambiente} {s₀ s t : State} {a : Acao} {passado : List (State × Acao)}

/-- What an oracle hands in for a task. -/
structure Compromisso where
  tarefa : String
  oraculo : String
  commit : String
  deriving DecidableEq

/-- What an oracle reveals in a task. -/
structure Revelacao where
  tarefa : String
  oraculo : String
  output : String
  salt : String
  deriving DecidableEq

namespace Acao

variable (a : Acao)

def compromisso? : Option Compromisso := do
  let tx ← a.tx?
  guard (a.tipo? = some .aiCommit)
  return { tarefa := taskIdDe tx, oraculo := tx.de, commit := ← campoTexto tx "commit" }

def revelacao? : Option Revelacao := do
  let tx ← a.tx?
  guard (a.tipo? = some .aiReveal)
  let output ← campoTexto tx "output"
  let salt ← campoTexto tx "salt"
  return { tarefa := taskIdDe tx, oraculo := tx.de, output := output, salt := salt }

variable {a}

theorem compromisso?_eq {tx : Tx} {commit : String} (htx : a.tx? = some tx)
    (htipo : a.tipo? = some .aiCommit) (hcampo : campoTexto tx "commit" = some commit) :
    a.compromisso? = some ⟨taskIdDe tx, tx.de, commit⟩ := by
  unfold compromisso?
  simp [htx, htipo, hcampo]

theorem revelacao?_eq_some {r : Revelacao} (h : a.revelacao? = some r) :
    ∃ tx, a.tx? = some tx ∧ a.tipo? = some .aiReveal ∧ taskIdDe tx = r.tarefa ∧
      tx.de = r.oraculo ∧ campoTexto tx "output" = some r.output ∧
        campoTexto tx "salt" = some r.salt := by
  unfold revelacao? at h
  simp only [Option.bind_eq_bind, Option.bind_eq_some_iff, Option.guard_eq_some', pure] at h
  obtain ⟨tx, htx, -, htipo, output, houtput, salt, hsalt, hr⟩ := h
  cases hr
  exact ⟨tx, htx, htipo, rfl, rfl, houtput, hsalt⟩

end Acao

/-- The two actions do not hand in, up to the case of letters, one commit of two oracles
for one task. -/
def NaoCopia (x y : State × Acao) : Prop :=
  ∀ c ∈ x.2.compromisso?, ∀ c' ∈ y.2.compromisso?, c.tarefa = c'.tarefa →
    c.oraculo ≠ c'.oraculo → minusculas c.commit ≠ minusculas c'.commit

instance (x y : State × Acao) : Decidable (NaoCopia x y) :=
  inferInstanceAs (Decidable (∀ c ∈ x.2.compromisso?, ∀ c' ∈ y.2.compromisso?, _ → _ → _))

instance : Std.Symm NaoCopia where
  symm _ _ h c hc c' hc' htarefa hdiferem := (h c' hc' c hc htarefa.symm hdiferem.symm).symm

/-- No oracle hands in what another one handed in before for the same task. -/
def SemCopias (passado : List (State × Acao)) : Prop := passado.Pairwise NaoCopia

instance (passado : List (State × Acao)) : Decidable (SemCopias passado) :=
  inferInstanceAs (Decidable (passado.Pairwise NaoCopia))

theorem comQuorum_quorum? (f : Quorum → Quorum) (tarefa : Task) :
    (AiTx.comQuorum f tarefa).quorum? = tarefa.quorum?.map f := by
  unfold AiTx.comQuorum Task.quorum?
  cases h : tarefa.kind <;> simp [h]

theorem comAberta_quorum? {ab : Aberta} {tarefa : Task} (f : Aberta → Aberta)
    (h : tarefa.kind = .aberta ab) : (AiTx.comAberta f tarefa).quorum? = none := by
  unfold AiTx.comAberta Task.quorum?
  rw [h]

/-- A commit in the record after a move was there before, or the sender hands it in. -/
theorem Passo.commits {tx : Tx} {ctx : Ctx} {tipo : Tipo} {antes depois : Task} {q' : Quorum}
    {oraculo commit : String} (h : Passo cr tx ctx tipo antes depois)
    (hq' : depois.quorum? = some q') (hcommit' : q'.commits.get? oraculo = some commit) :
    (∃ q, antes.quorum? = some q ∧ q.commits.get? oraculo = some commit) ∨
      tipo = .aiCommit ∧ tx.de = oraculo ∧ campoTexto tx "commit" = some commit := by
  have hmesmo : antes.quorum? = some q' → (∃ q, antes.quorum? = some q ∧
      q.commits.get? oraculo = some commit) ∨
        tipo = .aiCommit ∧ tx.de = oraculo ∧ campoTexto tx "commit" = some commit :=
    fun hq => .inl ⟨q', hq, hcommit'⟩
  cases h with
  | atesta hestado he =>
    obtain ⟨horaculo, -⟩ := entregar_eq_ok he
    cases (quorum?_of_oracle horaculo).symm.trans hq'
  | entrega hestado he =>
    obtain ⟨horaculo, -⟩ := entregar_eq_ok he
    cases (quorum?_of_oracle horaculo).symm.trans hq'
  | recebe hestado horaculo => exact hmesmo hq'
  | desiste hestado horaculo hdesafiante =>
    rw [Task.comVotes_quorum?] at hq'
    exact hmesmo hq'
  | desafia hestado => exact hmesmo hq'
  | vota hestado =>
    rw [Task.comVotes_quorum?] at hq'
    exact hmesmo hq'
  | mantem hestado horaculo =>
    rw [Task.comVotes_quorum?] at hq'
    exact hmesmo ((Task.comVotes_quorum? _ _).symm.trans hq')
  | derruba hestado hdesafiante =>
    rw [Task.comVotes_quorum?] at hq'
    exact hmesmo ((Task.comVotes_quorum? _ _).symm.trans hq')
  | lanca hestado hkind hpreco => cases (comAberta_quorum? _ hkind).symm.trans hq'
  | adjudica hestado hkind hlance => cases (comAberta_quorum? _ hkind).symm.trans hq'
  | compromete hestado hkind hcommit =>
    obtain ⟨q, hq, rfl⟩ := Option.map_eq_some_iff.mp ((comQuorum_quorum? _ _).symm.trans hq')
    rw [OrdMap.get?_insert] at hcommit'
    split_ifs at hcommit' with heq
    · obtain rfl := Option.some.inj hcommit'
      exact .inr ⟨rfl, heq.symm, hcommit⟩
    · exact .inl ⟨q, hq, hcommit'⟩
  | revela hestado hkind =>
    obtain ⟨_, -, rfl⟩ := Option.map_eq_some_iff.mp ((comQuorum_quorum? _ _).symm.trans hq')
    exact .inl ⟨_, quorum?_eq_some.mpr hkind, hcommit'⟩
  | apura hestado hkind hvencedores =>
    obtain rfl := Option.some.inj hq'
    exact .inl ⟨_, quorum?_eq_some.mpr hkind, hcommit'⟩
  | reembolsa hestado =>
    obtain ⟨q, hq, rfl⟩ := Option.map_eq_some_iff.mp ((comQuorum_quorum? _ _).symm.trans hq')
    cases hcommit'

/-- Every commit in the record was handed in during the run. -/
theorem compromisso_of_execucao (h₀ : Genese amb s₀) (h : Execucao amb s₀ passado s)
    {tarefa oraculo commit : String} {antes : Task} {q : Quorum}
    (hachada : s.aiTasks.get? tarefa = some antes) (hq : antes.quorum? = some q)
    (hcommit : q.commits.get? oraculo = some commit) :
    ∃ x ∈ passado, x.2.compromisso? = some ⟨tarefa, oraculo, commit⟩ := by
  induction h generalizing antes q with
  | inicio =>
    rw [tarefas_da_genese h₀] at hachada
    cases hachada
  | segue h ha ih =>
    rename_i passado s t a
    have hvelha : ∀ {antes q}, s.aiTasks.get? tarefa = some antes → antes.quorum? = some q →
        q.commits.get? oraculo = some commit →
          ∃ x ∈ (s, a) :: passado, x.2.compromisso? = some ⟨tarefa, oraculo, commit⟩ := by
      intro antes q hachada hq hcommit
      obtain ⟨x, hx, hcompromete⟩ := ih hachada hq hcommit
      exact ⟨x, List.mem_cons_of_mem _ hx, hcompromete⟩
    cases mudaTarefas_of_execucao h₀ h ha with
    | alheia h => exact hvelha (h ▸ hachada) hq hcommit
    | cria htx hid h hlances hestado hcommits =>
      rw [h, OrdMap.get?_insert] at hachada
      split_ifs at hachada
      · obtain rfl := Option.some.inj hachada
        rw [hcommits q (quorum?_eq_some.mp hq)] at hcommit
        cases hcommit
      · exact hvelha hachada hq hcommit
    | anda htx htipo h =>
      rename_i tx ctx tipo
      obtain ⟨achada, gravada, passo, -, -⟩ := h
      rw [gravada, OrdMap.get?_insert] at hachada
      split_ifs at hachada with heq
      · obtain rfl := Option.some.inj hachada
        rcases passo.commits hq hcommit with ⟨q', hq', hcommit'⟩ | ⟨rfl, hde, hcampo⟩
        · exact hvelha (heq ▸ achada) hq' hcommit'
        · refine ⟨_, List.mem_cons_self, ?_⟩
          rw [heq, ← hde]
          exact Acao.compromisso?_eq htx htipo hcampo
      · exact hvelha hachada hq hcommit

/-- An accepted reveal opens a commit that its oracle handed in before. -/
theorem compromisso_de_revelacao (h₀ : Genese amb s₀) (h : Execucao amb s₀ passado s)
    {x : State × Acao} (hx : x ∈ passado) {r : Revelacao} (hr : x.2.revelacao? = some r) :
    ∃ commit, (∃ y ∈ passado, y.2.compromisso? = some ⟨r.tarefa, r.oraculo, commit⟩) ∧
      amb.cripto.eavHashOne s!"{r.output}|{r.salt}" = minusculas commit := by
  obtain ⟨antes, t, hantes, ha, hsub⟩ := h.disparou hx
  obtain ⟨tx, htx, htipo, htarefa, hde, houtput, hsalt⟩ := Acao.revelacao?_eq_some hr
  obtain ⟨height, blockTs, -, ⟨d⟩⟩ := ha.despacho_of_tipo htx htipo
  have hreveal : AiTx.aiReveal amb.cripto tx ⟨height, blockTs, d.fee⟩ x.1 = .ok ⟨⟩ d.meio := d.maneja
  unfold AiTx.aiReveal at hreveal
  rw [get_bind_run] at hreveal
  obtain ⟨⟨tarefa, q, output⟩, v, hconf, -⟩ := bind_eq_ok.mp hreveal
  obtain ⟨hconf', -⟩ := lift_eq_ok.mp hconf
  obtain ⟨hachada, -, hkind, houtput', commit, salt, hcommit, hsalt', hhash⟩ :=
    conferirReveal_eq_ok hconf'
  obtain rfl := Option.some.inj (houtput.symm.trans (outputDe_eq_ok.mp houtput').1)
  obtain rfl := Option.some.inj (hsalt.symm.trans (saltDe_eq_ok.mp hsalt').1)
  rw [htarefa] at hachada
  rw [hde] at hcommit
  obtain ⟨y, hy, hcompromisso⟩ :=
    compromisso_of_execucao h₀ hantes hachada (quorum?_eq_some.mpr hkind) hcommit
  exact ⟨commit, ⟨y, hsub hy, hcompromisso⟩, hhash⟩

/-- In a run without copied commits, what one oracle reveals in a task no other one does. -/
theorem reveal_sem_copia {s₀ s : State} {passado : List (State × Acao)} (h₀ : Genese amb s₀)
    (h : Execucao amb s₀ passado s) (hcopias : SemCopias passado) :
    ∀ x ∈ passado, ∀ y ∈ passado, ∀ r r', x.2.revelacao? = some r → y.2.revelacao? = some r' →
      r.tarefa = r'.tarefa → r.oraculo ≠ r'.oraculo →
        (r.output, r.salt) ≠ (r'.output, r'.salt) := by
  intro x hx y hy r r' hr hr' htarefa hdiferem hpar
  obtain ⟨houtput, hsalt⟩ := Prod.mk.inj hpar
  obtain ⟨commit, ⟨u, hu, hcompromisso⟩, hhash⟩ := compromisso_de_revelacao h₀ h hx hr
  obtain ⟨commit', ⟨v, hv, hcompromisso'⟩, hhash'⟩ := compromisso_de_revelacao h₀ h hy hr'
  have hpar : u ≠ v := by
    rintro rfl
    exact hdiferem (congrArg Compromisso.oraculo
      (Option.some.inj (hcompromisso.symm.trans hcompromisso')))
  refine hcopias.forall hu hv hpar _ hcompromisso _ hcompromisso' htarefa hdiferem ?_
  rw [← hhash, ← hhash', houtput, hsalt]

end Copias

/-! ## A quorum with a copier -/

def camposRegistro : Tx :=
  { txType := "ORACLE_REGISTER", de := "", nonce := 1, timestamp := 1, amount := "500000000"
    fee := "0", data := some (.map []) }

def camposQuorum : Tx :=
  { txType := "AI_TASK", de := "", nonce := 1, timestamp := 1, amount := "1001", fee := "0"
    data := some (.map [("prompt", .str "?"), ("quorum", .int 2)]) }

def idDoQuorum : String := "75886e82142f2467ff793a442e1f8a0c1beaf770a029a4329ac294fd9eebb320"

/-- The hash of a text with two bars. -/
def commitDeDuasBarras : String := "60f47e5eaa1f6ee8f1e5306f8eb66f95395d8a8986fe7203b64422f3e41a8ac1"

def camposCommit : Tx :=
  { txType := "AI_COMMIT", de := "", nonce := 2, timestamp := 1, fee := "0"
    data := some (.map [("commit", .str commitDeDuasBarras), ("taskId", .str idDoQuorum)]) }

def camposAbertura (output salt : String) : Tx :=
  { txType := "AI_REVEAL", de := "", nonce := 3, timestamp := 1, fee := "0"
    data := some (.map [("output", .str output), ("salt", .str salt), ("taskId", .str idDoQuorum)]) }

/-- A and B register, C asks for a quorum of two, A commits. -/
def roteiroCommit : List Ato :=
  [linha 0 enderecoA camposRegistro .oracleRegister 1 1 1024,
    linha 1 enderecoB camposRegistro .oracleRegister 1 1 1024,
    linha 2 enderecoC camposQuorum .aiTask 1 1 1835,
    linha 0 enderecoA camposCommit .aiCommit 1 2 2048]

def abertura (n : ℕ) (endereco output salt : String) : Ato :=
  linha n endereco (camposAbertura output salt) .aiReveal 1800001 3 3072

/-- B hands in the commit of A and then reveals what A revealed. -/
def roteiroCopia : List Ato :=
  [linha 1 enderecoB camposCommit .aiCommit 1 2 2048, abertura 0 enderecoA "a" "b|c",
    abertura 1 enderecoB "a" "b|c"]

/-- The commit of A opens in two ways, and its copier wins with A. -/
instance roteiros_prontos : Fact
    (ensaia ambienteIdeal estadoIa (roteiroCommit ++ [abertura 0 enderecoA "a" "b|c"]) = true ∧
    ensaia ambienteIdeal estadoIa (roteiroCommit ++ [abertura 0 enderecoA "a|b" "c"]) = true ∧
    ((encena ambienteIdeal estadoIa roteiroCommit).aiTasks.get? idDoQuorum).bind
      (fun tarefa => tarefa.quorum?.bind (·.commits.get? enderecoA)) = some commitDeDuasBarras ∧
    ensaia ambienteIdeal estadoIa (roteiroCommit ++ roteiroCopia) = true ∧
    ((encena ambienteIdeal estadoIa (roteiroCommit ++ roteiroCopia)).aiTasks.get? idDoQuorum).bind
      (fun tarefa => tarefa.quorum?.bind (·.winners)) = some [enderecoB, enderecoA]) where
  out := by
    rw [ambienteIdeal_eq]
    decide +kernel

theorem commit_sem_copias : SemCopias (passadoDe ambienteIdeal estadoIa []
    (roteiroCommit ++ [abertura 0 enderecoA "a" "b|c"])) := by
  decide +kernel

theorem revelacao_da_abertura (n : ℕ) (endereco output salt : String) :
    ((abertura n endereco output salt).acao ambienteIdeal).revelacao? =
      some ⟨idDoQuorum, endereco, output, salt⟩ := rfl

theorem execucao_do_commit : Execucao ambienteIdeal estadoIa
    (passadoDe ambienteIdeal estadoIa [] roteiroCommit)
      (encena ambienteIdeal estadoIa roteiroCommit) := by
  have hensaia := roteiros_prontos.out.1
  rw [ensaia_append, Bool.and_eq_true] at hensaia
  exact execucao_ia (by simp [roteiroCommit, linha, contasIa]) hensaia.1

/-- A line that may follow the commit is accepted after it. -/
theorem abertura_aceita {ato : Ato} (hconta : (ato.chave, ato.endereco) ∈ contasIa)
    (h : ensaia ambienteIdeal estadoIa (roteiroCommit ++ [ato]) = true) :
    ∃ t, (ato.acao ambienteIdeal).Aceita ambienteIdeal
      (encena ambienteIdeal estadoIa roteiroCommit) t := by
  rw [ensaia_append, Bool.and_eq_true] at h
  have hpronto : ato.pronto ambienteIdeal (encena ambienteIdeal estadoIa roteiroCommit) = true := by
    have h := h.2
    rw [ensaia, Bool.and_eq_true] at h
    exact h.1
  exact ⟨_, aceita_de_pronta (capaz_ia hconta) digere_ideal hpronto⟩

/-- A run after which one commit opens to two outputs, by one text. -/
theorem commit_aberto_de_dois_modos : ∃ passado s tarefa q a b t u,
    Genese ambienteIdeal estadoIa ∧ Execucao ambienteIdeal estadoIa passado s ∧
    s.aiTasks.get? idDoQuorum = some tarefa ∧ tarefa.quorum? = some q ∧
    q.commits.get? enderecoA = some commitDeDuasBarras ∧
    Acao.Aceita ambienteIdeal a s t ∧ Acao.Aceita ambienteIdeal b s u ∧
    a.revelacao? = some ⟨idDoQuorum, enderecoA, "a", "b|c"⟩ ∧
    b.revelacao? = some ⟨idDoQuorum, enderecoA, "a|b", "c"⟩ ∧
    "a" ++ "|" ++ "b|c" = "a|b" ++ "|" ++ "c" := by
  obtain ⟨ha, hb, hcommit, -⟩ := roteiros_prontos.out
  obtain ⟨tarefa, htarefa, hcommit⟩ := Option.bind_eq_some_iff.mp hcommit
  obtain ⟨q, hq, hcommit⟩ := Option.bind_eq_some_iff.mp hcommit
  have hconta (output salt : String) : ((abertura 0 enderecoA output salt).chave,
      (abertura 0 enderecoA output salt).endereco) ∈ contasIa := List.mem_cons_self
  obtain ⟨t, ha⟩ := abertura_aceita (hconta _ _) ha
  obtain ⟨u, hb⟩ := abertura_aceita (hconta _ _) hb
  exact ⟨_, _, tarefa, q, _, _, t, u, genese_ia, execucao_do_commit, htarefa, hq, hcommit, ha, hb,
    revelacao_da_abertura .., revelacao_da_abertura .., by decide⟩

/-- The hash of a text with two bars binds no output. -/
theorem duas_barras_nao_vinculam : ¬ ∀ output salt outra sal,
    Abre criptoIdeal idDoQuorum enderecoA commitDeDuasBarras output salt →
      Abre criptoIdeal idDoQuorum enderecoA commitDeDuasBarras outra sal →
        s!"{output}|{salt}" ∈ ({"a|b|c"} : Set String) →
          s!"{outra}|{sal}" ∈ ({"a|b|c"} : Set String) → output = outra := by
  intro h
  have hum := (commit_vincula (Set.injOn_singleton _ _) idDoQuorum enderecoA _).mp h
  have hhash : criptoIdeal.eavHashOne "a|b|c" = minusculas commitDeDuasBarras := by
    rw [criptoIdeal_eq]
    decide +kernel
  have hcurto : Corte "a|b|c" "a" "b|c" := ⟨by decide, by decide, by decide⟩
  have hlongo : Corte "a|b|c" "a|b" "c" := ⟨by decide, by decide, by decide⟩
  exact absurd (hum _ rfl hhash _ _ _ _ hcurto hlongo) (by decide)

/-- In the run without the copier, nobody else reveals what A reveals. -/
theorem reveal_do_commit : ∃ passado s, Execucao ambienteIdeal estadoIa passado s ∧
    (∃ x ∈ passado, x.2.revelacao? = some ⟨idDoQuorum, enderecoA, "a", "b|c"⟩) ∧
    ∀ y ∈ passado, ∀ r, y.2.revelacao? = some r → idDoQuorum = r.tarefa →
      enderecoA ≠ r.oraculo → ("a", "b|c") ≠ (r.output, r.salt) := by
  have hexec := execucao_ia (by simp [roteiroCommit, abertura, linha, contasIa])
    roteiros_prontos.out.1
  obtain ⟨x, hx⟩ := mem_passadoDe (s := estadoIa)
    (List.mem_append_right _ List.mem_cons_self)
  have hr := revelacao_da_abertura 0 enderecoA "a" "b|c"
  exact ⟨_, _, hexec, ⟨_, hx, hr⟩, fun y hy r hr' =>
    reveal_sem_copia genese_ia hexec commit_sem_copias _ hx y hy _ r hr hr'⟩

/-- A run where the reveal of the copier is accepted and paid. -/
theorem reveal_copiado : ∃ passado s tarefa, Genese ambienteIdeal estadoIa ∧
    Execucao ambienteIdeal estadoIa passado s ∧
    (∃ x ∈ passado, x.2.revelacao? = some ⟨idDoQuorum, enderecoA, "a", "b|c"⟩) ∧
    (∃ y ∈ passado, y.2.revelacao? = some ⟨idDoQuorum, enderecoB, "a", "b|c"⟩) ∧
    s.aiTasks.get? idDoQuorum = some tarefa ∧
    tarefa.quorum?.bind (·.winners) = some [enderecoB, enderecoA] := by
  obtain ⟨-, -, -, hensaia, hvencem⟩ := roteiros_prontos.out
  have hexec := execucao_ia (by simp [roteiroCommit, roteiroCopia, abertura, linha, contasIa])
    hensaia
  obtain ⟨tarefa, htarefa, hvencem⟩ := Option.bind_eq_some_iff.mp hvencem
  have hlinha : ∀ ato ∈ roteiroCopia, ∃ u, (u, ato.acao ambienteIdeal) ∈
      passadoDe ambienteIdeal estadoIa [] (roteiroCommit ++ roteiroCopia) :=
    fun ato hato => mem_passadoDe (List.mem_append_right _ hato)
  obtain ⟨x, hx⟩ := hlinha (abertura 0 enderecoA "a" "b|c") (by simp [roteiroCopia])
  obtain ⟨y, hy⟩ := hlinha (abertura 1 enderecoB "a" "b|c") (by simp [roteiroCopia])
  exact ⟨_, _, tarefa, genese_ia, hexec, ⟨_, hx, revelacao_da_abertura ..⟩,
    ⟨_, hy, revelacao_da_abertura ..⟩, htarefa, hvencem⟩

end Eav7
