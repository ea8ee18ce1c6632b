import Eav7.Coerencia
import Eav7.Carga
import Eav7.Ideal

/-!
# Runs of a chain

A run is any sequence of calls on a fresh chain, each of which returned, well or
with an error. The chain it leaves is coherent.
-/

namespace Eav7.Blockchain

open Base

/-- A call on the chain. -/
inductive Comando where
  | adoptGenesis (block : Block)
  | addBlock (block : Block) (now : ℤ)
  | produceBlock (signer : BlockSigner) (transactions : List Tx) (timestamp : ℤ)
      (producerAccount : Option String) (now : ℤ)
  | reorg (common : ℤ) (novos : List Block) (now : ℤ)
  | replaceChain (blocos : List Block) (now : ℤ)

namespace Comando

def executa (amb : Ambiente) : Comando → Cadeia Unit
  | adoptGenesis block => Blockchain.adoptGenesis amb block
  | addBlock block now => Blockchain.addBlock amb block now
  | produceBlock signer transactions timestamp producerAccount now => do
    let _ ← Blockchain.produceBlock amb signer transactions timestamp producerAccount now
  | reorg common novos now => do
    let _ ← Blockchain.reorg amb common novos now
  | replaceChain blocos now => do
    let _ ← Blockchain.replaceChain amb blocos now

/-- The chain after a call that returned. -/
def passo (amb : Ambiente) (cmd : Comando) (c : Blockchain) : Option Blockchain :=
  match cmd.executa amb c with
  | .ok _ c' => some c'
  | .error (.erro _) c' => some c'
  | .error (.aborta _) _ => none

/-- The blocks that a call brings. -/
def blocos (amb : Ambiente) (c : Blockchain) : Comando → List Block
  | adoptGenesis block => [block]
  | addBlock block _ => [block]
  | produceBlock signer transactions timestamp producerAccount _ =>
    match c.montarBloco amb signer transactions timestamp producerAccount with
    | .ok (b, _, _) => [b]
    | .error _ => []
  | reorg _ novos _ => novos
  | replaceChain bs _ => bs

end Comando

/-- A chain as it starts: no block, a pinned genesis hash or none, a disk or none. -/
def nova (fixado : Option String) (store : Option Disco) (loading : Bool) : Blockchain :=
  { expectedGenesisHash := fixado, store := store, loading := loading }

/-- The chains that runs without disk failures reach, with all the blocks seen. -/
inductive Corrida (amb : Ambiente) : List Block → Blockchain → Prop
  | inicio (fixado : Option String) (store : Option Disco) (loading : Bool)
      (h : ∀ d ∈ store, d.falhas = []) : Corrida amb [] (nova fixado store loading)
  | passo {vistos : List Block} {c c' : Blockchain} (cmd : Comando) (h : Corrida amb vistos c)
      (hp : cmd.passo amb c = some c') : Corrida amb (cmd.blocos amb c ++ vistos) c'

/-- No two of the blocks are a collision of the hash. -/
def Distintos (cr : Cripto) (vistos : List Block) : Prop :=
  ∀ a ∈ vistos, ∀ b ∈ vistos, cr.blockHash a.payload = cr.blockHash b.payload →
    a.payload = b.payload

/-- What the integrity check of a block gives. -/
structure Verificado (cr : Cripto) (b : Block) : Prop where
  hash : b.hash = cr.blockHash b.payload
  altura : b.height ≤ maxSafeInteger

section

variable {amb : Ambiente}

theorem altura_of_integrity {cr : Cripto} {block : Block} {chaves : Option (String × String)}
    (h : cr.verifyBlockIntegrityEx block chaves = .ok ()) : block.height ≤ maxSafeInteger := by
  unfold Cripto.verifyBlockIntegrityEx at h
  obtain ⟨_, hcab, -⟩ := except_bind_eq_ok.mp h
  unfold Cripto.verifyBlockHeader at hcab
  obtain ⟨_, -, hcab⟩ := except_bind_eq_ok.mp hcab
  obtain ⟨_, -, hcab⟩ := except_bind_eq_ok.mp hcab
  obtain ⟨_, halt, -⟩ := except_bind_eq_ok.mp hcab
  exact not_lt.mp (falharSe_eq_ok.mp halt)

theorem verificado_of_integrity {block : Block} (chaves : Option (String × String))
    (h : amb.cripto.verifyBlockIntegrityEx block chaves = .ok ()) :
    Verificado amb.cripto block :=
  ⟨hash_of_integrity h, altura_of_integrity h⟩

theorem semColisao_of_distintos {vistos bs : List Block} (h : Distintos amb.cripto vistos)
    (hbs : ∀ b ∈ bs, Verificado amb.cripto b) (hsub : bs ⊆ vistos) : SemColisao bs := by
  intro a ha b hb hab
  have hpay : a.payload = b.payload := by
    refine h a (hsub ha) b (hsub hb) ?_
    rw [← (hbs a ha).hash, ← (hbs b hb).hash, hab]
  exact Carga.altura_of_payload (hbs a ha).altura (hbs b hb).altura hpay

theorem Aceita.verificado {c : Blockchain} {now : ℤ} {block : Block} {recibos : Recibos}
    {sim : State} (h : Aceita amb c now block recibos sim) : Verificado amb.cripto block :=
  verificado_of_integrity _ (conferirBloco_cabeca h.conferido).1

end

/-- The chain stands for verified blocks of the run; without collisions among
them its hash index covers them. -/
structure Viva (amb : Ambiente) (vistos : List Block) (g : Block) (bs : List Block)
    (c : Blockchain) : Prop where
  coerente : Coerente amb g bs c
  verificados : ∀ b ∈ g :: bs, Verificado amb.cripto b
  conhecidos : g :: bs ⊆ vistos
  hashes : Distintos amb.cripto vistos → IndexaHashes c.hashIndex (g :: bs)

/-- A chain without disk failures is either empty or stands for its blocks. -/
structure Valida (amb : Ambiente) (vistos : List Block) (c : Blockchain) : Prop where
  disco : Confiavel c
  cadeia : c.tail = [] ∨ ∃ g bs, Viva amb vistos g bs c

section

variable {amb : Ambiente} {vistos : List Block} {c c' : Blockchain}

theorem Distintos.mono {cr : Cripto} {vistos' : List Block} (h : Distintos cr vistos')
    (hsub : vistos ⊆ vistos') : Distintos cr vistos :=
  fun a ha b hb => h a (hsub ha) b (hsub hb)

theorem Confiavel.congr (h : Confiavel c) (hs : c'.store = c.store) : Confiavel c' := by
  intro d hd
  exact h d (hs ▸ hd)

theorem Valida.mono {vistos' : List Block} (h : Valida amb vistos c) (hsub : vistos ⊆ vistos') :
    Valida amb vistos' c := by
  refine ⟨h.disco, ?_⟩
  rcases h.cadeia with hv | ⟨g, bs, hc⟩
  · exact .inl hv
  · exact .inr ⟨g, bs, hc.coerente, hc.verificados, List.Subset.trans hc.conhecidos hsub,
      fun hd => hc.hashes (hd.mono hsub)⟩

theorem slideTail_confiavel (h : Confiavel c) :
    Runs (slideTail amb) c (fun _ c' => Confiavel c') fun e _ => ¬ Interrupcao.Devolvida e :=
  (slideTail_runs amb c).mono (fun _ _ hs => h.congr (congrArg (·.store) hs)) fun _ _ => id

theorem gravarBloco_confiavel (h : Confiavel c) (block : Block) (sim : State)
    (recibos : Recibos) :
    Runs (gravarBloco amb block sim recibos) c (fun _ c' => Confiavel c')
      fun e _ => ¬ Interrupcao.Devolvida e := by
  unfold gravarBloco
  refine Runs.bind ((noDisco_confiavel (fun d hd => append_confiavel hd block) h _).mono ?_
    fun _ _ hf => hf.elim)
  rintro _ c₁ ⟨-, h₁⟩
  refine Runs.modify_bind (slideTail_confiavel ?_)
  exact h₁.congr rfl

/-- The end of an acceptance, on a chain of the run. -/
theorem Valida.gravar (h : Valida amb vistos c) {now : ℤ} {block : Block} {recibos : Recibos}
    {sim : State} (ha : Aceita amb c now block recibos sim) :
    Runs (gravarBloco amb block sim recibos) c (fun _ c' => Valida amb (block :: vistos) c')
      fun e _ => ¬ Interrupcao.Devolvida e := by
  refine Runs.intro ?_ fun e c' hrun => (gravarBloco_confiavel h.disco _ _ _).error hrun
  intro _ c' hrun
  refine ⟨(gravarBloco_confiavel h.disco _ _ _).ok hrun, .inr ?_⟩
  rcases h.cadeia with hv | ⟨g, bs, hc⟩
  · obtain ⟨-, u, hu, -⟩ := conferirBloco_cabeca ha.conferido
    rw [head, hv] at hu
    cases hu
  · have hver' : ∀ b ∈ g :: bs ++ [block], Verificado amb.cripto b := by
      intro b hb
      rcases List.mem_append.mp hb with hb | hb
      · exact hc.verificados b hb
      · exact List.mem_singleton.mp hb ▸ ha.verificado
    have hin' : g :: bs ++ [block] ⊆ block :: vistos := by
      intro b hb
      rcases List.mem_append.mp hb with hb | hb
      · exact List.mem_cons_of_mem block (hc.conhecidos hb)
      · exact List.mem_singleton.mp hb ▸ List.mem_cons_self
    refine ⟨g, bs ++ [block], hc.coerente.gravar ha hrun, hver', hin', fun hd => ?_⟩
    rw [(gravarBloco_indices hrun).1]
    exact (hc.hashes (hd.mono fun b hb => List.mem_cons_of_mem block hb)).aceita
      (semColisao_of_distintos hd hver' hin')

theorem Valida.addBlock (h : Valida amb vistos c) (block : Block) (now : ℤ) :
    Runs (Blockchain.addBlock amb block now) c (fun _ c' => Valida amb (block :: vistos) c')
      fun e c' => Interrupcao.Devolvida e → c' = c := by
  refine Runs.intro ?_ ?_
  · intro _ c' hrun
    obtain ⟨recibos, sim, ha, hg⟩ := addBlock_ok hrun
    exact (h.gravar ha).ok hg
  · intro e c' hrun he
    unfold Blockchain.addBlock at hrun
    rw [get_bind_run] at hrun
    rcases bind_eq_error.mp hrun with h₁ | ⟨_, t, hconf, h₁⟩
    · exact (conferir_eq_error.mp h₁).2
    · obtain ⟨hconf, rfl⟩ := conferir_eq_ok.mp hconf
      rcases bind_eq_error.mp h₁ with h₂ | ⟨⟨recibos, sim⟩, t', hsim, h₂⟩
      · exact (conferir_eq_error.mp h₂).2
      · obtain ⟨hsim, rfl⟩ := conferir_eq_ok.mp hsim
        have ha : Aceita amb t' now block recibos sim := ⟨hconf, (simularBloco_eq_ok hsim).1⟩
        exact absurd he ((h.gravar ha).error h₂)

theorem Valida.addBlocks (h : Valida amb vistos c) (novos : List Block) (now : ℤ) :
    Runs (Blockchain.addBlocks amb now novos) c
      (fun _ c' => Valida amb (novos.reverse ++ vistos) c')
      fun e c' => Interrupcao.Devolvida e → Valida amb (novos.reverse ++ vistos) c' := by
  induction novos generalizing vistos c with
  | nil => exact Runs.pure_intro h
  | cons b novos ih =>
    rw [List.reverse_cons, List.append_assoc, List.singleton_append]
    refine Runs.bind ((h.addBlock b now).mono ?_ ?_)
    · intro _ c₁ h₁
      exact ih h₁
    · intro e c₁ h₁ he
      rw [h₁ he]
      exact h.mono fun x hx => List.mem_append_right _ (List.mem_cons_of_mem b hx)

theorem coerente_comGenese {block : Block} {estado : State} (halt : block.height = 0)
    (hest : estadoGenese amb.cripto block = .ok estado) :
    Coerente amb block [] (c.comGenese block estado) := by
  refine ⟨⟨rfl, ⟨?_, List.isChain_singleton block⟩, ?_, ?_, rfl, fun _ => rfl⟩,
    ⟨rfl, Nat.one_pos, fun _ => rfl, fun _ hs => by cases hs⟩⟩
  · rintro g ⟨⟩
    exact halt
  · rw [List.append_nil, replay_singleton]
    exact hest
  · intro id h
    constructor
    · intro hn
      cases hn
    · rintro ⟨b, hb, -⟩
      cases hb

theorem indexaHashes_comGenese {block : Block} (halt : block.height = 0) :
    IndexaHashes (OrdMap.empty.insert block.hash 0) [block] := by
  have hcol : SemColisao ([] ++ [block]) := by
    intro a ha b hb _
    rw [List.mem_singleton.mp ha, List.mem_singleton.mp hb]
  have hvazio : IndexaHashes OrdMap.empty [] := by
    intro hash h
    constructor
    · intro hn
      cases hn
    · rintro ⟨b, hb, -⟩
      cases hb
  have := hvazio.aceita (b := block) hcol
  rwa [halt] at this

theorem conferirGenese_ok {block : Block} {estado : State}
    (h : c.conferirGenese amb block = .ok estado) :
    amb.cripto.verifyBlockIntegrity block = .ok () ∧ block.height = 0 ∧
      estadoGenese amb.cripto block = .ok estado := by
  unfold conferirGenese at h
  obtain ⟨_, hint, h⟩ := except_bind_eq_ok.mp h
  obtain ⟨_, halt, h⟩ := except_bind_eq_ok.mp h
  obtain ⟨_, -, hest⟩ := except_bind_eq_ok.mp h
  refine ⟨?_, not_not.mp (falharSe_eq_ok.mp halt), hest⟩
  cases hi : amb.cripto.verifyBlockIntegrity block with
  | ok u => rfl
  | error e =>
    rw [hi] at hint
    cases hint

theorem Valida.adoptGenesis (h : Valida amb vistos c) (block : Block) :
    Runs (Blockchain.adoptGenesis amb block) c (fun _ c' => Valida amb (block :: vistos) c')
      fun e c' => Interrupcao.Devolvida e → c' = c := by
  unfold Blockchain.adoptGenesis
  refine Runs.get_bind (Runs.bind (Runs.intro ?_ ?_))
  · intro estado c₁ hconf
    obtain ⟨hconf, rfl⟩ := conferir_eq_ok.mp hconf
    obtain ⟨hint, halt, hest⟩ := conferirGenese_ok hconf
    have hver : Verificado amb.cripto block := verificado_of_integrity none hint
    refine Runs.modify_bind ?_
    have hdisco : Confiavel (c₁.comGenese block estado) := h.disco.congr rfl
    refine (noDisco_confiavel (fun d hd => escrever_confiavel hd [block]) hdisco _).mono ?_
      fun _ _ hf => hf.elim
    rintro _ c₂ ⟨hsd, hdisco₂⟩
    refine ⟨hdisco₂, .inr ⟨block, [], (coerente_comGenese halt hest).soDisco hsd, ?_, ?_,
      fun _ => ?_⟩⟩
    · intro b hb
      exact List.mem_singleton.mp hb ▸ hver
    · intro b hb
      exact List.mem_singleton.mp hb ▸ List.mem_cons_self
    · obtain ⟨st, rfl⟩ := hsd
      exact indexaHashes_comGenese halt
  · intro e c₁ hconf _
    exact (conferir_eq_error.mp hconf).2

/-! ## Producing -/

theorem buildBlock_campos {cr : Cripto} {signer : BlockSigner} {p : BuildParams} {b : Block}
    (h : buildBlock cr signer p = .ok b) :
    (b.height = p.height ∧ b.timestamp = p.timestamp ∧ b.previousHash = p.previousHash ∧
      b.transactions = p.transactions) ∧ b.producerAccount = p.producerAccount ∧
      b.stateRoot = p.stateRoot ∧ enderecoDoProdutor cr signer = .ok b.producer := by
  unfold buildBlock at h
  obtain ⟨producer, hprod, h₁⟩ := except_bind_eq_ok.mp h
  obtain ⟨chaves, -, h₂⟩ := except_bind_eq_ok.mp h₁
  obtain ⟨assinaturas, -, h₃⟩ := except_bind_eq_ok.mp h₂
  cases h₃
  exact ⟨⟨rfl, rfl, rfl, rfl⟩, rfl, rfl, hprod⟩

/-- A simulation reads the height, the clock, the parent, the transactions and
the credited account of a block. -/
theorem simulate_mesmo {a b : Block} (h : a.height = b.height ∧ a.timestamp = b.timestamp ∧
    a.previousHash = b.previousHash ∧ a.transactions = b.transactions)
    (hv : a.validator = b.validator) : c.simulate amb a = c.simulate amb b := by
  obtain ⟨h1, h2, h3, h4⟩ := h
  unfold simulate abreBloco fechaBloco
  rw [h1, h2, h3, h4, hv]

/-- A built block follows the head, was simulated as its draft, and holds the root. -/
theorem montarBloco_ok {signer : BlockSigner} {transactions : List Tx} {timestamp : ℤ}
    {producerAccount : Option String} {bloco : Block} {recibos : Recibos} {sim : State}
    (h : c.montarBloco amb signer transactions timestamp producerAccount =
      .ok (bloco, recibos, sim)) : ∃ cabeca raiz omitPublicKeys,
      c.simulate amb (esboco amb signer bloco.producer cabeca transactions timestamp
        producerAccount) c.state = .ok recibos sim ∧
      amb.cripto.stateRootOf sim = .ok raiz ∧
      buildBlock amb.cripto signer
        { height := cabeca.height + 1, previousHash := cabeca.hash, timestamp := timestamp,
          transactions := transactions, stateRoot := some raiz,
          producerAccount := producerAccount, omitPublicKeys := omitPublicKeys } = .ok bloco := by
  unfold montarBloco at h
  obtain ⟨_, -, h₁⟩ := except_bind_eq_ok.mp h
  obtain ⟨produtor, hprod, h₂⟩ := except_bind_eq_ok.mp h₁
  obtain ⟨_, -, h₃⟩ := except_bind_eq_ok.mp h₂
  obtain ⟨_, -, h₄⟩ := except_bind_eq_ok.mp h₃
  cases hcab : c.head with
  | none =>
    rw [hcab] at h₄
    cases h₄
  | some cabeca =>
    rw [hcab] at h₄
    obtain ⟨⟨rs, s⟩, hsim, h₅⟩ := except_bind_eq_ok.mp h₄
    obtain ⟨raiz, hraiz, h₆⟩ := except_bind_eq_ok.mp h₅
    obtain ⟨b, hb, h₇⟩ := except_bind_eq_ok.mp h₆
    cases h₇
    obtain ⟨-, -, -, hend⟩ := buildBlock_campos hb
    obtain rfl : produtor = bloco.producer := Except.ok.inj (hprod.symm.trans hend)
    have hraiz : amb.cripto.stateRootOf sim = .ok raiz := by
      cases hr : amb.cripto.stateRootOf sim with
      | error e =>
        rw [hr] at hraiz
        cases hraiz
      | ok r =>
        rw [hr] at hraiz
        cases hraiz
        rfl
    exact ⟨cabeca, raiz, _, executar_eq_ok.mp hsim, hraiz, hb⟩

theorem montarBloco_simulado {signer : BlockSigner} {transactions : List Tx} {timestamp : ℤ}
    {producerAccount : Option String} {bloco : Block} {recibos : Recibos} {sim : State}
    (h : c.montarBloco amb signer transactions timestamp producerAccount =
      .ok (bloco, recibos, sim)) : c.simulate amb bloco c.state = .ok recibos sim := by
  obtain ⟨cabeca, raiz, omite, hsim, -, hb⟩ := montarBloco_ok h
  obtain ⟨hcampos, hconta, -, -⟩ := buildBlock_campos hb
  have hv : bloco.validator = (esboco amb signer bloco.producer cabeca transactions timestamp
      producerAccount).validator := by
    unfold Block.validator
    rw [hconta]
    rfl
  rw [simulate_mesmo hcampos hv]
  exact hsim

theorem produceBlock_ok {signer : BlockSigner} {transactions : List Tx} {timestamp now : ℤ}
    {producerAccount : Option String} {b : Block}
    (h : Blockchain.produceBlock amb signer transactions timestamp producerAccount now c =
      .ok b c') : ∃ recibos sim,
      c.montarBloco amb signer transactions timestamp producerAccount = .ok (b, recibos, sim) ∧
      c.conferirBloco amb b now = .ok () ∧ gravarBloco amb b sim recibos c = .ok () c' := by
  unfold Blockchain.produceBlock at h
  rw [get_bind_run] at h
  obtain ⟨⟨bloco, recibos, sim⟩, t, hm, h₁⟩ := bind_eq_ok.mp h
  obtain ⟨hm, rfl⟩ := conferir_eq_ok.mp hm
  obtain ⟨_, t', hconf, h₂⟩ := bind_eq_ok.mp h₁
  obtain ⟨hconf, rfl⟩ := conferir_eq_ok.mp hconf
  obtain ⟨_, t, hgrava, h₃⟩ := bind_eq_ok.mp h₂
  obtain ⟨rfl, rfl⟩ := pure_eq_ok.mp h₃
  exact ⟨recibos, sim, hm, hconf, hgrava⟩

theorem Valida.produceBlock (h : Valida amb vistos c) (signer : BlockSigner)
    (transactions : List Tx) (timestamp : ℤ) (producerAccount : Option String) (now : ℤ) :
    Runs (Blockchain.produceBlock amb signer transactions timestamp producerAccount now) c
      (fun _ c' => Valida amb
        ((Comando.produceBlock signer transactions timestamp producerAccount now).blocos amb c ++
          vistos) c')
      fun e c' => Interrupcao.Devolvida e → c' = c := by
  unfold Blockchain.produceBlock
  refine Runs.get_bind (Runs.bind (Runs.intro ?_ ?_))
  · rintro ⟨bloco, recibos, sim⟩ c₁ hmonta
    obtain ⟨hmonta, rfl⟩ := conferir_eq_ok.mp hmonta
    have hblocos : (Comando.produceBlock signer transactions timestamp producerAccount now).blocos
        amb c₁ = [bloco] := by
      simp only [Comando.blocos, hmonta]
    rw [hblocos]
    refine Runs.bind (Runs.intro ?_ fun e c₂ hconf _ => (conferir_eq_error.mp hconf).2)
    intro _ c₂ hconf
    obtain ⟨hconf, rfl⟩ := conferir_eq_ok.mp hconf
    have ha : Aceita amb c₂ now bloco recibos sim := ⟨hconf, montarBloco_simulado hmonta⟩
    refine Runs.bind ((h.gravar ha).mono ?_ fun e c₃ hno he => absurd he hno)
    exact fun _ c₃ hv => Runs.pure_intro hv
  · intro e c₁ hmonta _
    exact (conferir_eq_error.mp hmonta).2

/-! ## Reorganising -/

theorem verificados_of_addBlocks {novos : List Block} {now : ℤ} (hst : c.store = none)
    (h : Blockchain.addBlocks amb now novos c = .ok () c') :
    ∀ b ∈ novos, Verificado amb.cripto b := by
  induction novos generalizing c with
  | nil => simp
  | cons a novos ih =>
    obtain ⟨_, c₁, hadd, hresto⟩ := bind_eq_ok.mp h
    obtain ⟨recibos, sim, ha, rfl⟩ := addBlock_semDisco hst hadd
    intro b hb
    rcases List.mem_cons.mp hb with rfl | hb
    · exact ha.verificado
    · exact ih (c := c.aceitar a sim recibos) hst hresto b hb

theorem substituir_confiavel (amb : Ambiente) (h : Confiavel c) (k : ℕ) (novos : List Block) (cand : Blockchain) :
    Runs (substituir amb k novos cand) c (fun _ c' => Confiavel c')
      fun e _ => ¬ Interrupcao.Devolvida e := by
  unfold substituir
  refine Runs.get_bind (Runs.set_bind ?_)
  have h' : Confiavel { c with tail := c.tail.take (k + 1 - c.tailStart) } := h.congr rfl
  refine Runs.bind ((reescreverDisco_confiavel k novos h').mono ?_ fun _ _ hf => hf.elim)
  rintro _ c₁ ⟨-, h₁⟩
  have h₂ : Confiavel (c₁.adotar k (c.tail.drop (k + 1 - c.tailStart)) novos cand) := h₁.congr rfl
  refine Runs.modify_bind (Runs.bind ((slideTail_confiavel h₂).mono ?_ fun _ _ => id))
  exact fun _ c₃ h₃ => Runs.pure_intro h₃

/-- The chain after a replacement stands for the kept and the new blocks. -/
theorem Viva.substituir {g : Block} {bs novos : List Block} {common now : ℤ} {cand : Blockchain}
    (hc : Viva amb vistos g bs c) (hsub : Substitui amb c common novos now cand) {r : Reorg}
    (hr : Blockchain.substituir amb common.toNat novos cand c = .ok r c') :
    Viva amb (novos ++ vistos) g (bs.take common.toNat ++ novos) c' := by
  obtain ⟨c₀, hc₀, hadd⟩ := experimentar_eq_ok hsub.aceitos
  have hkle : common.toNat ≤ bs.length := by
    have := hsub.dentro
    rw [hc.coerente.height] at this
    omega
  obtain ⟨hts, hst, -⟩ := hc.coerente.candidato hkle hc₀
  have hnovos := verificados_of_addBlocks hst hadd
  have hver' : ∀ b ∈ g :: (bs.take common.toNat ++ novos), Verificado amb.cripto b := by
    intro b hb
    rcases List.mem_cons.mp hb with rfl | hb
    · exact hc.verificados b List.mem_cons_self
    · rcases List.mem_append.mp hb with hb | hb
      · exact hc.verificados b (List.mem_cons_of_mem g (List.mem_of_mem_take hb))
      · exact hnovos b hb
  have hin' : g :: (bs.take common.toNat ++ novos) ⊆ novos ++ vistos := by
    intro b hb
    rcases List.mem_cons.mp hb with rfl | hb
    · exact List.mem_append_right _ (hc.conhecidos List.mem_cons_self)
    · rcases List.mem_append.mp hb with hb | hb
      · exact List.mem_append_right _
          (hc.conhecidos (List.mem_cons_of_mem g (List.mem_of_mem_take hb)))
      · exact List.mem_append_left _ hb
  refine ⟨hc.coerente.substituir hsub hr, hver', hin', fun hd => ?_⟩
  have hdv : Distintos amb.cripto vistos := hd.mono fun b hb => List.mem_append_right _ hb
  have hcol := semColisao_of_distintos hdv hc.verificados hc.conhecidos
  have hcol' := semColisao_of_distintos hd hver' hin'
  rw [(substituir_indices hc.coerente hts hr).1]
  suffices hcorte : IndexaHashes _ (g :: bs.take common.toNat) from hcorte.aceitaTodos hcol'
  have hsplit : g :: bs = g :: bs.take common.toNat ++ bs.drop common.toNat := by
    rw [List.cons_append, List.take_append_drop]
  refine IndexaHashes.corta (hsplit ▸ hc.hashes hdv) (hsplit ▸ hcol) ?_
  rw [← hsplit]
  exact hc.coerente.historia.encadeada.ascendente

theorem Valida.reorg (h : Valida amb vistos c) (common : ℤ) (novos : List Block) (now : ℤ) :
    Runs (Blockchain.reorg amb common novos now) c
      (fun _ c' => Valida amb (novos ++ vistos) c')
      fun e c' => Interrupcao.Devolvida e → c' = c := by
  have hmono : Valida amb (novos ++ vistos) c := h.mono fun b hb => List.mem_append_right _ hb
  rcases reorg_cases amb c common novos now with ⟨cand, hsub, hrun⟩ | hrun | ⟨e', hrun⟩
  · have hconf := substituir_confiavel amb h.disco common.toNat novos cand
    refine Runs.intro ?_ ?_
    · intro r c' hr
      rw [hrun] at hr
      refine ⟨hconf.ok hr, .inr ?_⟩
      rcases h.cadeia with hv | ⟨g, bs, hc⟩
      · have halt : c.height = -1 := by
          unfold height head
          rw [hv]
          rfl
        have := hsub.positivo
        have := hsub.dentro
        omega
      · exact ⟨g, bs.take common.toNat ++ novos, hc.substituir hsub hr⟩
    · intro e c' hr he
      rw [hrun] at hr
      exact absurd he (hconf.error hr)
  · refine Runs.intro ?_ ?_
    · intro r c' hr
      rw [hrun] at hr
      cases hr
      exact hmono
    · intro e c' hr
      rw [hrun] at hr
      cases hr
  · refine Runs.intro ?_ ?_
    · intro r c' hr
      rw [hrun] at hr
      cases hr
    · intro e c' hr _
      rw [hrun] at hr
      cases hr
      rfl

theorem Valida.replaceChain (h : Valida amb vistos c) (blocos : List Block) (now : ℤ) :
    Runs (Blockchain.replaceChain amb blocos now) c
      (fun _ c' => Valida amb (blocos ++ vistos) c')
      fun e c' => Interrupcao.Devolvida e → Valida amb (blocos ++ vistos) c' := by
  have hmono : Valida amb (blocos ++ vistos) c := h.mono fun b hb => List.mem_append_right _ hb
  unfold Blockchain.replaceChain
  refine Runs.get_bind ?_
  cases blocos with
  | nil => exact Runs.pure_intro hmono
  | cons genese resto =>
    refine Runs.ite (fun hgen => ?_) fun _ => Runs.ite (fun _ => Runs.pure_intro hmono) fun _ => ?_
    · have hperm : resto.reverse ++ genese :: vistos ⊆ genese :: resto ++ vistos := by
        intro b hb
        simp only [List.mem_append, List.mem_reverse, List.mem_cons] at hb ⊢
        tauto
      refine Runs.bind ((h.adoptGenesis genese).mono ?_ ?_)
      · intro _ c₁ h₁
        refine Runs.bind ((h₁.addBlocks resto now).mono ?_ ?_)
        · exact fun _ c₂ h₂ => Runs.pure_intro (h₂.mono hperm)
        · exact fun e c₂ h₂ he => (h₂ he).mono hperm
      · intro e c₁ h₁ he
        rw [h₁ he]
        exact hmono
    · refine Runs.bind (Runs.intro ?_ ?_)
      · intro _ c₁ hconf
        obtain ⟨-, rfl⟩ := conferir_eq_ok.mp hconf
        have hperm : (genese :: resto).drop
            ((c₁.procuraComum (genese :: resto) ((min c₁.height resto.length).toNat + 1)) + 1).toNat
              ++ vistos ⊆ genese :: resto ++ vistos := by
          intro b hb
          rcases List.mem_append.mp hb with hb | hb
          · exact List.mem_append_left _ (List.mem_of_mem_drop hb)
          · exact List.mem_append_right _ hb
        refine (h.reorg _ _ now).mono ?_ ?_
        · exact fun _ c₂ h₂ => h₂.mono hperm
        · intro e c₂ h₂ he
          rw [h₂ he]
          exact hmono
      · intro e c₁ hconf _
        rw [(conferir_eq_error.mp hconf).2]
        exact hmono

/-! ## Whole runs -/

theorem passo_of_runs {cmd : Comando} {I : Blockchain → Prop}
    (h : Runs (cmd.executa amb) c (fun _ c' => I c') fun e c' => Interrupcao.Devolvida e → I c')
    (hp : cmd.passo amb c = some c') : I c' := by
  unfold Comando.passo at hp
  cases hr : cmd.executa amb c with
  | ok u t =>
    rw [hr] at hp
    cases hp
    exact h.ok hr
  | error e t =>
    rw [hr] at hp
    cases e with
    | erro msg =>
      cases hp
      exact h.error hr ⟨msg, rfl⟩
    | aborta motivo => cases hp

theorem Valida.passo (h : Valida amb vistos c) {cmd : Comando}
    (hp : cmd.passo amb c = some c') :
    Valida amb (cmd.blocos amb c ++ vistos) c' := by
  have hmono : Valida amb (cmd.blocos amb c ++ vistos) c :=
    h.mono fun b hb => List.mem_append_right _ hb
  refine passo_of_runs ?_ hp
  cases cmd with
  | adoptGenesis block =>
    refine (h.adoptGenesis block).mono (fun _ _ => id) ?_
    intro e c₁ h₁ he
    rw [h₁ he]
    exact hmono
  | addBlock block now =>
    refine (h.addBlock block now).mono (fun _ _ => id) ?_
    intro e c₁ h₁ he
    rw [h₁ he]
    exact hmono
  | produceBlock signer transactions timestamp producerAccount now =>
    refine Runs.bind ((h.produceBlock signer transactions timestamp producerAccount now).mono
      ?_ ?_)
    · exact fun _ c₁ h₁ => Runs.pure_intro h₁
    · intro e c₁ h₁ he
      rw [h₁ he]
      exact hmono
  | reorg common novos now =>
    refine Runs.bind ((h.reorg common novos now).mono ?_ ?_)
    · exact fun _ c₁ h₁ => Runs.pure_intro h₁
    · intro e c₁ h₁ he
      rw [h₁ he]
      exact hmono
  | replaceChain blocos now =>
    refine Runs.bind ((h.replaceChain blocos now).mono ?_ fun _ _ => id)
    exact fun _ c₁ h₁ => Runs.pure_intro h₁

theorem valida_of_corrida (h : Corrida amb vistos c) : Valida amb vistos c := by
  induction h with
  | inicio fixado store loading hst => exact ⟨hst, .inl rfl⟩
  | passo cmd hcor hp ih => exact ih.passo hp

end

/-! ## Coherence -/

/-- The memory of the chain describes the blocks `blocos`; its transaction indices
describe `indexados`. -/
structure Descreve (amb : Ambiente) (blocos indexados : List Block) (c : Blockchain) : Prop where
  janela : c.tail = blocos.drop c.tailStart
  alturas : ∀ i b, c.tail[i]? = some b → b.height = c.tailStart + i
  elos : ∀ i a b, blocos[i]? = some a → blocos[i + 1]? = some b → b.previousHash = a.hash
  estado : replay amb blocos = .ok c.state
  ancora : ∀ s, c.baseState = some s → replay amb (blocos.take c.tailStart) = .ok s
  txs : ∀ id h, c.txIndex.get? id = some h ↔
    ∃ b ∈ indexados, b.height = h ∧ ∃ tx ∈ b.transactions, tx.id = some id
  hashes : ∀ hash h, c.hashIndex.get? hash = some h ↔ ∃ b ∈ blocos, b.hash = hash ∧ b.height = h
  comTxsAscendente : c.blocksWithTxs.Pairwise (· < ·)
  comTxs : ∀ h, h ∈ c.blocksWithTxs ↔ ∃ b ∈ indexados, b.height = h ∧ b.transactions ≠ []
  enderecosAscendente : ∀ a, (c.addressTxIndex.getD a []).Pairwise (· < ·)
  enderecos : ∀ a h, h ∈ c.addressTxIndex.getD a [] ↔
    ∃ b ∈ indexados, b.height = h ∧ ∃ tx ∈ b.transactions, tx.de = a ∨ tx.para = some a

section

variable {amb : Ambiente} {vistos : List Block} {c : Blockchain}

theorem toca_iff {a : String} {b : Block} :
    toca a b = true ↔ ∃ tx ∈ b.transactions, tx.de = a ∨ tx.para = some a := by
  simp only [toca, enderecosDe, List.any_eq_true, decide_eq_true_eq, List.mem_cons,
    Option.mem_toList]
  constructor
  · rintro ⟨tx, htx, ha⟩
    exact ⟨tx, htx, ha.imp_left Eq.symm⟩
  · rintro ⟨tx, htx, ha⟩
    exact ⟨tx, htx, ha.imp_left Eq.symm⟩

theorem Coerente.descreve {g : Block} {bs : List Block} (h : Coerente amb g bs c)
    (hx : IndexaHashes c.hashIndex (g :: bs)) : Descreve amb (g :: bs) bs c := by
  have henc := h.historia.encadeada
  have hasc : Ascendente bs := (List.pairwise_cons.mp henc.ascendente).2
  refine ⟨h.janela.tail, ?_, ?_, h.historia.estado, fun s hs => (h.janela.ancora s hs).2, ?_,
    hx, ?_, ?_, ?_, ?_⟩
  · intro i b hb
    rw [h.janela.tail, List.getElem?_drop] at hb
    exact henc.altura hb
  · intro i a b ha hb
    obtain ⟨hi, hbi⟩ := List.getElem?_eq_some_iff.mp hb
    obtain ⟨hi', hai⟩ := List.getElem?_eq_some_iff.mp ha
    have helo : Elo (g :: bs)[i] (g :: bs)[i + 1] := henc.elos.getElem i hi
    rw [hai, hbi] at helo
    exact helo.2
  · intro id n
    rw [h.historia.txs id n]
    constructor
    · rintro ⟨b, hb, hid, hn⟩
      exact ⟨b, hb, hn, List.mem_filterMap.mp hid⟩
    · rintro ⟨b, hb, hn, hid⟩
      exact ⟨b, hb, List.mem_filterMap.mpr hid, hn⟩
  · rw [h.historia.comTxs]
    exact alturasCom_pairwise hasc
  · intro n
    rw [h.historia.comTxs, mem_alturasCom]
    constructor
    · rintro ⟨b, hb, ht, hn⟩
      exact ⟨b, hb, hn, by simpa [temTxs] using ht⟩
    · rintro ⟨b, hb, hn, ht⟩
      exact ⟨b, hb, by simpa [temTxs] using ht, hn⟩
  · intro a
    rw [h.historia.enderecos.getD]
    exact alturasCom_pairwise hasc
  · intro a n
    rw [h.historia.enderecos.getD, mem_alturasCom]
    constructor
    · rintro ⟨b, hb, ht, hn⟩
      exact ⟨b, hb, hn, toca_iff.mp ht⟩
    · rintro ⟨b, hb, hn, ht⟩
      exact ⟨b, hb, toca_iff.mpr ht, hn⟩

end

/-! ## Runs from a genesis -/

/-- A genesis with the given allocations and transactions. -/
def geneseCom (cr : Cripto) (alocacoes : List (String × JsonValue)) (txs : List Tx) : Block :=
  let nucleo : Block := {
    height := 0, timestamp := 1, previousHash := genesisPreviousHash
    txRoot := cr.blockTxRoot txs, txCount := txs.length, producer := genesisProducer
    genesis := some (.map alocacoes), signature := genesisSignature
    pqSignature := genesisSignature, hash := "", transactions := txs }
  { nucleo with hash := cr.blockHash nucleo.payload }

section

variable {amb : Ambiente} {vistos : List Block} {c c' : Blockchain}
variable {alocacoes : List (String × JsonValue)} {txs : List Tx} {estado : State}

theorem geneseCom_integra (cr : Cripto) (alocacoes : List (String × JsonValue)) (txs : List Tx) :
    cr.verifyBlockIntegrity (geneseCom cr alocacoes txs) = .ok () := by
  have hcab : cr.verifyBlockHeader (geneseCom cr alocacoes txs) = .ok () := by
    unfold Cripto.verifyBlockHeader
    simp [geneseCom, falharSe, Config.protocol, maxSafeInteger, Block.payload, Block.core]
    rfl
  unfold Cripto.verifyBlockIntegrity Cripto.verifyBlockIntegrityEx
  rw [hcab]
  rfl

theorem adoptGenesis_geneseCom (hc : c.expectedGenesisHash = none) (hs : c.store = none)
    (hest : estadoGenese amb.cripto (geneseCom amb.cripto alocacoes txs) = .ok estado) :
    adoptGenesis amb (geneseCom amb.cripto alocacoes txs) c =
      .ok () (c.comGenese (geneseCom amb.cripto alocacoes txs) estado) := by
  have hconf : c.conferirGenese amb (geneseCom amb.cripto alocacoes txs) = .ok estado := by
    unfold conferirGenese
    rw [geneseCom_integra, hc]
    refine except_bind_eq_ok.mpr ⟨(), rfl, except_bind_eq_ok.mpr ⟨(), rfl, ?_⟩⟩
    exact except_bind_eq_ok.mpr ⟨(), falharSe_eq_ok.mpr (not_not.mpr rfl), hest⟩
  unfold adoptGenesis
  rw [get_bind_run]
  refine bind_eq_ok.mpr ⟨estado, c, conferir_eq_ok.mpr ⟨hconf, rfl⟩, ?_⟩
  rw [modify_bind_run]
  unfold noDisco
  rw [get_bind_run]
  have hst : (c.comGenese (geneseCom amb.cripto alocacoes txs) estado).store = none := hs
  rw [hst]
  rfl

/-- The chain of a genesis alone. -/
def cadeiaDe (amb : Ambiente) (alocacoes : List (String × JsonValue)) (txs : List Tx)
    (estado : State) : Blockchain :=
  (nova none none false).comGenese (geneseCom amb.cripto alocacoes txs) estado

theorem passo_of_ok {cmd : Comando} (h : cmd.executa amb c = .ok () c') :
    cmd.passo amb c = some c' := by
  unfold Comando.passo
  rw [h]

theorem passo_of_error {cmd : Comando} {msg : String}
    (h : cmd.executa amb c = .error (.erro msg) c') : cmd.passo amb c = some c' := by
  unfold Comando.passo
  rw [h]

/-- A run that adopts one genesis. -/
theorem corrida_cadeiaDe
    (hest : estadoGenese amb.cripto (geneseCom amb.cripto alocacoes txs) = .ok estado) :
    Corrida amb [geneseCom amb.cripto alocacoes txs] (cadeiaDe amb alocacoes txs estado) := by
  have hp : (Comando.adoptGenesis (geneseCom amb.cripto alocacoes txs)).passo amb
      (nova none none false) = some (cadeiaDe amb alocacoes txs estado) :=
    passo_of_ok (adoptGenesis_geneseCom rfl rfl hest)
  exact .passo _ (.inicio none none false fun d hd => by cases hd) hp

/-- A run goes on with blocks that the chain accepts. -/
theorem Corrida.addBlocks {now : ℤ} {bs : List Block} (h : Corrida amb vistos c)
    (hadd : Blockchain.addBlocks amb now bs c = .ok () c') :
    Corrida amb (bs.reverse ++ vistos) c' := by
  induction bs generalizing vistos c with
  | nil =>
    obtain ⟨-, rfl⟩ := pure_eq_ok.mp hadd
    exact h
  | cons b bs ih =>
    obtain ⟨_, c₁, hb, hresto⟩ := bind_eq_ok.mp hadd
    have hp : (Comando.addBlock b now).passo amb c = some c₁ := passo_of_ok hb
    have := ih (Corrida.passo _ h hp) hresto
    rwa [List.reverse_cons, List.append_assoc]

theorem distintos_singleton (cr : Cripto) (b : Block) : Distintos cr [b] := by
  intro x hx y hy _
  rw [List.mem_singleton.mp hx, List.mem_singleton.mp hy]

def txDeGenese : Tx := { txType := "TRANSFER", de := "E7", nonce := 1, timestamp := 1, id := some "t" }

end
end Eav7.Blockchain
