import Eav7.Corrida

/-!
# Boot from the block file

`load_from_disk` replays the lines of the block file, without writing it, and cuts a
short invalid end.
-/

namespace Eav7.Blockchain

open Base

/-- The message of a call that returned an error; an abort goes on. -/
def tentar (m : Cadeia Unit) : Cadeia (Option String) := fun c =>
  match m c with
  | .ok _ c' => .ok none c'
  | .error (.erro msg) c' => .ok (some msg) c'
  | .error (.aborta motivo) c' => .error (.aborta motivo) c'

section

variable (amb : Ambiente) (now : ℤ)

/-- Applies the lines after the first until one is bad. -/
def aplicarLote : List Block → Cadeia (Option String)
  | [] => pure none
  | bloco :: lote => do
    let ruim ← tentar (addBlock amb bloco now)
    if ruim.isSome then pure ruim else aplicarLote lote

/-- The first line is the genesis. -/
def relerLinhas : List Block → Cadeia (Option String)
  | [] => pure none
  | genese :: lote => do
    let ruim ← tentar (adoptGenesis amb genese)
    if ruim.isSome then pure ruim else aplicarLote amb now lote

/-- What stays of a file whose replay stopped, when the rest is short enough to discard. -/
def cortarRabo (d : Disco) (maxAutoDiscard : ℕ) (manter : ℕ) (altura : ℤ) (e : String) :
    Falha (ℕ × Disco) := do
  let descartados := d.linhas.length - manter
  falharSe (maxAutoDiscard < descartados) s!"boot abortado: replay falhou na altura {altura} ({e})"
  let (gravou, d) := d.truncateFrom manter
  if gravou then pure (descartados, d) else falhar s!"falha ao truncar rabo inválido ({e})"

/-- The chain takes the file it was replayed from, without the end that is bad. -/
def fecharCarga (d : Disco) (maxAutoDiscard : ℕ) : Option String → Cadeia ℕ
  | none => do
    modify ({ · with store := some d })
    return 0
  | some e => do
    let c ← get
    let (descartados, d) ← conferir (cortarRabo d maxAutoDiscard (c.height + 1).toNat c.height e)
    modify ({ · with store := some d })
    return descartados

/-- The number of blocks discarded from the end of the file. -/
def loadFromDisk (d : Disco) (maxAutoDiscard : ℕ) : Cadeia ℕ := do
  modify ({ · with loading := true })
  let ruim ← relerLinhas amb now d.linhas
  modify ({ · with loading := false })
  fecharCarga d maxAutoDiscard ruim

end

section

variable {amb : Ambiente} {now : ℤ} {c c' : Blockchain} {g : Block} {bs : List Block}

theorem tentar_eq_ok {m : Cadeia Unit} {ruim : Option String} (h : tentar m c = .ok ruim c') :
    (ruim = none ∧ m c = .ok () c') ∨ ∃ msg, ruim = some msg ∧ m c = .error (.erro msg) c' := by
  unfold tentar at h
  cases hm : m c with
  | ok u t =>
    rw [hm] at h
    cases h
    exact .inl ⟨rfl, rfl⟩
  | error e t =>
    rw [hm] at h
    cases e with
    | erro msg =>
      cases h
      exact .inr ⟨msg, rfl, rfl⟩
    | aborta motivo => cases h

/-- What each accepted block extends, and neither the disk nor the flag of the load changes. -/
structure Continuada (amb : Ambiente) (now : ℤ) (I : List Block → Blockchain → Prop) : Prop where
  estende : ∀ {bs b c c'}, I bs c → addBlock amb b now c = .ok () c' → I (bs ++ [b]) c'
  comDisco : ∀ {bs c} (store : Option Disco) (loading : Bool), I bs c →
    I bs { c with store := store, loading := loading }

/-- The replayed lines are accepted one by one, up to the first bad one. -/
theorem Continuada.aplicarLote {I : List Block → Blockchain → Prop} (hI : Continuada amb now I)
    (h : I bs c) {lote : List Block} {ruim : Option String}
    (hrun : Blockchain.aplicarLote amb now lote c = .ok ruim c') :
    ∃ n, I (bs ++ lote.take n) c' ∧ (ruim = none → n = lote.length) := by
  induction lote generalizing bs c with
  | nil =>
    obtain ⟨rfl, rfl⟩ := pure_eq_ok.mp hrun
    exact ⟨0, by rwa [List.take_nil, List.append_nil], fun _ => rfl⟩
  | cons b lote ih =>
    obtain ⟨r, c₁, htenta, hresto⟩ := bind_eq_ok.mp hrun
    rcases tentar_eq_ok htenta with ⟨rfl, hadd⟩ | ⟨msg, rfl, herro⟩
    · obtain ⟨n, hn, hfim⟩ := ih (hI.estende h hadd) hresto
      refine ⟨n + 1, ?_, fun hr => congrArg (· + 1) (hfim hr)⟩
      rwa [List.take_succ_cons, List.append_cons]
    · obtain ⟨rfl, rfl⟩ := pure_eq_ok.mp hresto
      refine ⟨0, ?_, fun hr => by cases hr⟩
      rw [List.take_zero, List.append_nil]
      obtain ⟨st, rfl⟩ := addBlock_erro herro ⟨msg, rfl⟩
      exact hI.comDisco st c.loading h

/-- A chain takes another disk or leaves the load. -/
theorem Coerente.comDisco (h : Coerente amb g bs c) (store : Option Disco) (loading : Bool) :
    Coerente amb g bs { c with store := store, loading := loading } :=
  ⟨⟨h.historia.cabeca, h.historia.encadeada, h.historia.estado, h.historia.txs,
    h.historia.comTxs, h.historia.enderecos⟩,
    ⟨h.janela.tail, h.janela.dentro, h.janela.semAncora, h.janela.ancora⟩⟩

theorem adoptGenesis_ok {block : Block} (h : adoptGenesis amb block c = .ok () c') :
    Coerente amb block [] c' := by
  unfold adoptGenesis at h
  rw [get_bind_run] at h
  obtain ⟨estado, c₁, hconf, h₁⟩ := bind_eq_ok.mp h
  obtain ⟨hconf, rfl⟩ := conferir_eq_ok.mp hconf
  obtain ⟨-, halt, hest⟩ := conferirGenese_ok hconf
  rw [modify_bind_run] at h₁
  exact (coerente_comGenese halt hest).soDisco ((noDisco_runs _ _ _).ok h₁)

/-- A loading chain does not write the disk, so a genesis that fails leaves it as it was. -/
theorem adoptGenesis_erro {block : Block} {e : Interrupcao} (hl : c.loading = true)
    (h : adoptGenesis amb block c = .error e c') : c' = c := by
  unfold adoptGenesis at h
  rw [get_bind_run] at h
  rcases bind_eq_error.mp h with h₁ | ⟨estado, c₁, hconf, h₁⟩
  · exact (conferir_eq_error.mp h₁).2
  · obtain ⟨-, rfl⟩ := conferir_eq_ok.mp hconf
    rw [modify_bind_run] at h₁
    have hlivre : noDisco (·.reset block) "gravar gênese" (c₁.comGenese block estado) =
        .ok () (c₁.comGenese block estado) := noDisco_livre (.inr hl)
    rw [hlivre] at h₁
    cases h₁

/-- The chain stands for a prefix of the file, the whole of it when no line is bad. -/
theorem relerLinhas_ok {I : Block → List Block → Blockchain → Prop}
    (hI : ∀ g, Continuada amb now (I g))
    (hgenese : ∀ g c₁, adoptGenesis amb g c = .ok () c₁ → I g [] c₁) {linhas : List Block}
    {ruim : Option String} (hvazia : c.tail = []) (hl : c.loading = true)
    (hrun : relerLinhas amb now linhas c = .ok ruim c') :
    c'.tail = [] ∨ ∃ g lote n, linhas = g :: lote ∧ I g (lote.take n) c' ∧
      (ruim = none → n = lote.length) := by
  cases linhas with
  | nil =>
    obtain ⟨rfl, rfl⟩ := pure_eq_ok.mp hrun
    exact .inl hvazia
  | cons g lote =>
    obtain ⟨r, c₁, htenta, hresto⟩ := bind_eq_ok.mp hrun
    rcases tentar_eq_ok htenta with ⟨rfl, hadota⟩ | ⟨msg, rfl, herro⟩
    · obtain ⟨n, hn, hfim⟩ := (hI g).aplicarLote (hgenese g c₁ hadota) hresto
      exact .inr ⟨g, lote, n, rfl, hn, hfim⟩
    · obtain ⟨rfl, rfl⟩ := pure_eq_ok.mp hresto
      rw [adoptGenesis_erro hl herro]
      exact .inl hvazia

theorem fecharCarga_ok {d : Disco} {maxAutoDiscard n : ℕ} {ruim : Option String}
    (h : fecharCarga d maxAutoDiscard ruim c = .ok n c') : SoDisco c c' := by
  cases ruim with
  | none =>
    rw [fecharCarga, modify_bind_run] at h
    exact ⟨some d, (pure_eq_ok.mp h).2⟩
  | some e =>
    rw [fecharCarga, get_bind_run] at h
    obtain ⟨⟨descartados, d'⟩, c₂, hconf, h₂⟩ := bind_eq_ok.mp h
    obtain ⟨-, rfl⟩ := conferir_eq_ok.mp hconf
    exact ⟨some d', (pure_eq_ok.mp h₂).2⟩

/-- A loaded chain is in use and stands for the lines that were kept. -/
theorem loadFromDisk_mantem {I : Block → List Block → Blockchain → Prop}
    (hI : ∀ g, Continuada amb now (I g)) {fixado : Option String}
    (hgenese : ∀ g c₁, adoptGenesis amb g (nova fixado none true) = .ok () c₁ → I g [] c₁)
    (hcoer : ∀ {g bs c}, I g bs c → Coerente amb g bs c) {d : Disco} {maxAutoDiscard n : ℕ}
    (hrun : loadFromDisk amb now d maxAutoDiscard (nova fixado none false) = .ok n c')
    (hg : c'.hasGenesis = true) :
    c'.loading = false ∧ ∃ g bs, I g bs c' ∧
      d.linhas.take (c'.height + 1).toNat = g :: bs := by
  unfold loadFromDisk at hrun
  rw [modify_bind_run] at hrun
  obtain ⟨ruim, c₁, hreler, h₁⟩ := bind_eq_ok.mp hrun
  rw [modify_bind_run] at h₁
  obtain ⟨st, rfl⟩ := fecharCarga_ok h₁
  refine ⟨rfl, ?_⟩
  rcases relerLinhas_ok hI hgenese rfl rfl hreler with hvazia | ⟨g, lote, k, hlinhas, hc, -⟩
  · have hno : hasGenesis { c₁ with loading := false, store := st } = false := by
      unfold hasGenesis
      rw [hvazia]
      rfl
    rw [hno] at hg
    cases hg
  · have hc' := (hI g).comDisco st false hc
    refine ⟨g, lote.take k, hc', ?_⟩
    rw [hlinhas, (hcoer hc').height, List.length_take]
    have hmin : (((min k lote.length : ℕ) : ℤ) + 1).toNat = min k lote.length + 1 := by omega
    rw [hmin, List.take_succ_cons, ← List.take_eq_take_min]

theorem continuada_coerente (g : Block) : Continuada amb now (Coerente amb g) :=
  ⟨fun h hadd => h.addBlock hadd, fun store loading h => h.comDisco store loading⟩

theorem loadFromDisk_ok {d : Disco} {maxAutoDiscard n : ℕ} {fixado : Option String}
    (hrun : loadFromDisk amb now d maxAutoDiscard (nova fixado none false) = .ok n c')
    (hg : c'.hasGenesis = true) :
    c'.loading = false ∧ ∃ g bs, Coerente amb g bs c' ∧
      d.linhas.take (c'.height + 1).toNat = g :: bs :=
  loadFromDisk_mantem continuada_coerente (fun _ _ => adoptGenesis_ok) id hrun hg

end

end Eav7.Blockchain
