import Eav7.Finalidade
import Eav7.Boot

/-!
# A producer and its peers

A block that one instance produces is accepted by every other instance with the same
blocks whose disk takes it and which can tell the keys of its producer: the keys are in
the block, or the instance remembers them from a block that it accepted one by one.
-/

namespace Eav7.Blockchain

open Base

/-! ## Instances with the same blocks -/

/-- An instance in use and the blocks it holds, from the genesis to its head. -/
inductive Instancia (amb : Ambiente) : List Block → Blockchain → Prop
  | genese {fixado : Option String} {store : Option Disco} {g : Block} {c : Blockchain}
      (h : adoptGenesis amb g (nova fixado store false) = .ok () c) : Instancia amb [g] c
  | carregada {fixado : Option String} {d : Disco} {now : ℤ} {maxAutoDiscard n : ℕ}
      {c : Blockchain}
      (h : loadFromDisk amb now d maxAutoDiscard (nova fixado none false) = .ok n c)
      (hg : c.hasGenesis = true) : Instancia amb (d.linhas.take (c.height + 1).toNat) c
  | aceita {blocos : List Block} {b : Block} {now : ℤ} {c c' : Blockchain}
      (hc : Instancia amb blocos c) (h : addBlock amb b now c = .ok () c') :
      Instancia amb (blocos ++ [b]) c'
  | produz {blocos : List Block} {b : Block} {signer : BlockSigner} {transactions : List Tx}
      {timestamp now : ℤ} {producerAccount : Option String} {c c' : Blockchain}
      (hc : Instancia amb blocos c)
      (h : produceBlock amb signer transactions timestamp producerAccount now c = .ok b c') :
      Instancia amb (blocos ++ [b]) c'
  | recusa {blocos : List Block} {b : Block} {now : ℤ} {msg : String} {c c' : Blockchain}
      (hc : Instancia amb blocos c) (h : addBlock amb b now c = .error (.erro msg) c') :
      Instancia amb blocos c'
  | adota {blocos novos : List Block} {common now : ℤ} {orfas : List Tx} {c c' : Blockchain}
      (hc : Instancia amb blocos c)
      (h : reorg amb common novos now c = .ok (.adotou orfas) c') :
      Instancia amb (blocos.take (common.toNat + 1) ++ novos) c'

section

variable {amb : Ambiente} {c c' c₁ : Blockchain} {g b : Block} {bs blocos : List Block} {now : ℤ}

/-- An instance in use stands for the blocks it holds. -/
structure EmUso (amb : Ambiente) (blocos : List Block) (c : Blockchain) : Prop where
  emUso : c.loading = false
  coerente : ∃ g bs, blocos = g :: bs ∧ Coerente amb g bs c

theorem slideTail_loading (h : slideTail amb c = .ok () c') : c'.loading = c.loading :=
  congrArg (·.loading) ((slideTail_runs amb c).ok h)

theorem SoDisco.loading (h : SoDisco c c') : c'.loading = c.loading := by
  obtain ⟨st, rfl⟩ := h
  rfl

theorem gravarBloco_loading {sim : State} {recibos : Recibos}
    (h : gravarBloco amb b sim recibos c = .ok () c') : c'.loading = c.loading := by
  obtain ⟨c₁, hd, hslide⟩ := gravarBloco_ok h
  rw [slideTail_loading hslide, aceitar_loading, hd.loading]

theorem EmUso.aceita (h : EmUso amb blocos c) (hrun : addBlock amb b now c = .ok () c') :
    EmUso amb (blocos ++ [b]) c' := by
  obtain ⟨g, bs, rfl, hc⟩ := h.coerente
  obtain ⟨recibos, sim, ha, hg⟩ := addBlock_ok hrun
  exact ⟨(gravarBloco_loading hg).trans h.emUso, g, bs ++ [b], rfl, hc.gravar ha hg⟩

theorem reorg_adotou {common : ℤ} {novos : List Block} {orfas : List Tx}
    (h : reorg amb common novos now c = .ok (.adotou orfas) c') :
    ∃ cand, Substitui amb c common novos now cand ∧
      substituir amb common.toNat novos cand c = .ok (.adotou orfas) c' := by
  rcases reorg_cases amb c common novos now with ⟨cand, hsub, hrun⟩ | hrun | ⟨e, hrun⟩
  · exact ⟨cand, hsub, hrun ▸ h⟩
  · rw [hrun] at h
    cases h
  · rw [hrun] at h
    cases h

theorem EmUso.adota (h : EmUso amb blocos c) {common : ℤ} {novos : List Block} {orfas : List Tx}
    (hrun : reorg amb common novos now c = .ok (.adotou orfas) c') :
    EmUso amb (blocos.take (common.toNat + 1) ++ novos) c' := by
  obtain ⟨g, bs, rfl, hc⟩ := h.coerente
  obtain ⟨cand, hsub, hsubst⟩ := reorg_adotou hrun
  refine ⟨?_, g, bs.take common.toNat ++ novos, ?_, hc.substituir hsub hsubst⟩
  · obtain ⟨-, c₂, hd, hslide⟩ := substituir_ok hsubst
    rw [slideTail_loading hslide]
    exact hd.loading.trans h.emUso
  · rw [List.take_succ_cons, List.cons_append]

theorem emUso_of_instancia (h : Instancia amb blocos c) : EmUso amb blocos c := by
  induction h with
  | genese h =>
    rename_i fixado store g c
    refine ⟨?_, g, [], rfl, adoptGenesis_ok h⟩
    unfold adoptGenesis at h
    rw [get_bind_run] at h
    obtain ⟨estado, t, hconf, h₁⟩ := bind_eq_ok.mp h
    obtain ⟨-, rfl⟩ := conferir_eq_ok.mp hconf
    rw [modify_bind_run] at h₁
    exact ((noDisco_runs _ _ _).ok h₁).loading
  | carregada h hg =>
    obtain ⟨hl, g, bs, hc, hlinhas⟩ := loadFromDisk_ok h hg
    exact ⟨hl, g, bs, hlinhas, hc⟩
  | aceita hc h ih => exact ih.aceita h
  | produz hc h ih => exact ih.aceita (addBlock_of_produceBlock h)
  | recusa hc h ih =>
    have hd := addBlock_erro h ⟨_, rfl⟩
    obtain ⟨g, bs, hblocos, hcoer⟩ := ih.coerente
    exact ⟨hd.loading.trans ih.emUso, g, bs, hblocos, hcoer.soDisco hd⟩
  | adota hc h ih => exact ih.adota h

/-- Instances with the same blocks differ in their windows, their disks, their receipts and
the keys they remember. -/
theorem EmUso.mesma (h : EmUso amb blocos c) (h' : EmUso amb blocos c') :
    c'.head = c.head ∧ c'.state = c.state ∧ c'.txIndex = c.txIndex ∧
      c'.loading = c.loading := by
  obtain ⟨g, bs, rfl, hc⟩ := h.coerente
  obtain ⟨g', bs', hmesmos, hc'⟩ := h'.coerente
  obtain ⟨rfl, rfl⟩ := List.cons.inj hmesmos
  refine ⟨hc'.historia.cabeca.trans hc.historia.cabeca.symm, ?_, ?_, ?_⟩
  · exact Except.ok.inj (hc'.historia.estado.symm.trans hc.historia.estado)
  · refine OrdMap.ext_get? fun id => Option.ext fun n => ?_
    exact (hc'.historia.txs id n).trans (hc.historia.txs id n).symm
  · rw [h.emUso, h'.emUso]

end

/-! ## The keys of the producer -/

/-- The keys are the producer's and verify the block. -/
def Reconhece (cr : Cripto) (b : Block) (chaves : String × String) : Prop :=
  cr.addressFromPublicKeys chaves.1 chaves.2 = some b.producer ∧
    cr.hybridVerify chaves.1 chaves.2 (bytesDe b.payload) b.signature b.pqSignature = true

/-- The block carries its keys, or the remembered ones verify it. -/
def Identifica (cr : Cripto) (b : Block) (lembradas : Option (String × String)) : Prop :=
  b.publicKey ≠ none ∨ ∃ chaves ∈ lembradas, Reconhece cr b chaves

/-- No refusal of the disk comes next. -/
def GravaProximo (c : Blockchain) : Prop := ∀ d ∈ c.store, d.falhas.head? ≠ some true

/-- An instance takes a block to the state and the root its producer reached. -/
def Acompanha (amb : Ambiente) (b : Block) (now : ℤ) (c₁ c' : Blockchain) : Prop :=
  ∃ c'', addBlock amb b now c' = .ok () c'' ∧ c''.state = c₁.state ∧
    ∃ raiz, amb.cripto.stateRootOf c''.state = .ok raiz ∧ b.stateRoot = some raiz

section

variable {amb : Ambiente} {c c' c₁ : Blockchain} {b : Block} {blocos : List Block} {now : ℤ}

theorem assinado_iff {cr : Cripto} {chaves : String × String} :
    (match cr.addressFromPublicKeys chaves.1 chaves.2 with
      | none => falhar "chave pública do produtor inválida"
      | some derivado => do
        falharSe (derivado ≠ b.producer) "produtor não corresponde às chaves públicas"
        falharSe (cr.hybridVerify chaves.1 chaves.2 (bytesDe b.payload) b.signature
          b.pqSignature = false) "assinatura híbrida do produtor inválida" : Falha Unit) =
      .ok () ↔ Reconhece cr b chaves := by
  unfold Reconhece
  cases hend : cr.addressFromPublicKeys chaves.1 chaves.2 with
  | none =>
    refine iff_of_false (fun h => by cases h) fun h => by cases h.1
  | some derivado =>
    constructor
    · intro h
      obtain ⟨_, hprod, h⟩ := except_bind_eq_ok.mp h
      exact ⟨congrArg some (not_not.mp (falharSe_eq_ok.mp hprod)),
        Bool.not_eq_false _ ▸ falharSe_eq_ok.mp h⟩
    · rintro ⟨hprod, hver⟩
      refine except_bind_eq_ok.mpr ⟨(), falharSe_eq_ok.mpr ?_, falharSe_eq_ok.mpr ?_⟩
      · exact not_not.mpr (Option.some.inj hprod)
      · rw [hver]
        exact Bool.noConfusion

/-- The keys a block was verified with identify its producer. -/
theorem chavesDoBloco_cases {ks : Option (String × String)} {chaves : String × String}
    (h : Cripto.chavesDoBloco b ks = .ok chaves) :
    (∃ pk pq, b.publicKey = some pk ∧ b.pqPublicKey = some pq ∧ chaves = (pk, pq)) ∨
      (b.publicKey = none ∧ b.pqPublicKey = none ∧ ks = some chaves) := by
  unfold Cripto.chavesDoBloco at h
  split at h
  · next _ pk pq hpk hpq =>
    exact .inl ⟨pk, pq, hpk, hpq, (Except.ok.inj h).symm⟩
  · next chaves' hpk hpq =>
    exact .inr ⟨hpk, hpq, congrArg some (Except.ok.inj h)⟩
  · cases h

/-- A block that verifies under some keys verifies under others exactly when they identify
its producer. -/
theorem verifyBlockIntegrityEx_outras {cr : Cripto} {ks ks' : Option (String × String)}
    (hpos : b.height ≠ 0) (h : cr.verifyBlockIntegrityEx b ks = .ok ()) :
    cr.verifyBlockIntegrityEx b ks' = .ok () ↔ Identifica cr b ks' := by
  unfold Cripto.verifyBlockIntegrityEx at h
  obtain ⟨_, hcab, h⟩ := except_bind_eq_ok.mp h
  rw [if_neg hpos] at h
  obtain ⟨_, hraiz, h⟩ := except_bind_eq_ok.mp h
  obtain ⟨_, hconta, h⟩ := except_bind_eq_ok.mp h
  obtain ⟨chaves, hchaves, hassinado⟩ := except_bind_eq_ok.mp h
  have hassinado := assinado_iff.mp hassinado
  have hmonta : ∀ chaves', Cripto.chavesDoBloco b ks' = .ok chaves' → Reconhece cr b chaves' →
      cr.verifyBlockIntegrityEx b ks' = .ok () := by
    intro chaves' hc hr
    unfold Cripto.verifyBlockIntegrityEx
    refine except_bind_eq_ok.mpr ⟨(), hcab, ?_⟩
    rw [if_neg hpos]
    refine except_bind_eq_ok.mpr ⟨(), hraiz, except_bind_eq_ok.mpr ⟨(), hconta, ?_⟩⟩
    exact except_bind_eq_ok.mpr ⟨chaves', hc, assinado_iff.mpr hr⟩
  constructor
  · intro h'
    unfold Cripto.verifyBlockIntegrityEx at h'
    obtain ⟨_, -, h'⟩ := except_bind_eq_ok.mp h'
    rw [if_neg hpos] at h'
    obtain ⟨_, -, h'⟩ := except_bind_eq_ok.mp h'
    obtain ⟨_, -, h'⟩ := except_bind_eq_ok.mp h'
    obtain ⟨chaves', hchaves', hassinado'⟩ := except_bind_eq_ok.mp h'
    rcases chavesDoBloco_cases hchaves' with ⟨pk, pq, hpk, -, -⟩ | ⟨-, -, hks⟩
    · exact .inl (by rw [hpk]; exact Option.some_ne_none pk)
    · exact .inr ⟨chaves', hks, assinado_iff.mp hassinado'⟩
  · intro hid
    rcases chavesDoBloco_cases hchaves with ⟨pk, pq, hpk, hpq, rfl⟩ | ⟨hpk, hpq, -⟩
    · refine hmonta (pk, pq) ?_ hassinado
      unfold Cripto.chavesDoBloco
      rw [hpk, hpq]
    · rcases hid with hno | ⟨chaves', hks, hrec⟩
      · exact absurd hpk hno
      · refine hmonta chaves' ?_ hrec
        unfold Cripto.chavesDoBloco
        rw [hpk, hpq, Option.mem_def.mp hks]

theorem EmUso.conferirProdutor (h : EmUso amb blocos c) (h' : EmUso amb blocos c') :
    c'.conferirProdutor b now = c.conferirProdutor b now := by
  obtain ⟨-, hstate, -, -⟩ := h.mesma h'
  unfold Blockchain.conferirProdutor conferirWitness expectedProducer
  rw [hstate]

/-- The checks of a block differ in the keys remembered only. -/
theorem EmUso.conferirBloco (h : EmUso amb blocos c) (h' : EmUso amb blocos c')
    (hconf : c.conferirBloco amb b now = .ok ()) :
    c'.conferirBloco amb b now = .ok () ↔
      Identifica amb.cripto b (c'.producerKeys.get? b.producer) := by
  obtain ⟨hhead, -, -, hload⟩ := h.mesma h'
  obtain ⟨hint, u, hu, helo⟩ := conferirBloco_cabeca hconf
  have hpos : b.height ≠ 0 := by
    rw [helo.1]
    exact Nat.succ_ne_zero _
  rw [← verifyBlockIntegrityEx_outras hpos hint]
  constructor
  · exact fun hc => (conferirBloco_cabeca hc).1
  · intro hint'
    unfold Blockchain.conferirBloco at hconf ⊢
    obtain ⟨_, -, hconf⟩ := except_bind_eq_ok.mp hconf
    obtain ⟨_, -, hconf⟩ := except_bind_eq_ok.mp hconf
    obtain ⟨_, hcab, hconf⟩ := except_bind_eq_ok.mp hconf
    have hgen : c'.hasGenesis ≠ false := by
      have hsome : c'.tail.getLast? = some u := hhead.trans hu
      unfold hasGenesis
      cases ht : c'.tail with
      | nil =>
        rw [ht] at hsome
        cases hsome
      | cons x l => exact Bool.noConfusion
    have hcab' : c'.conferirCabeca b = .ok () := by
      unfold conferirCabeca at hcab ⊢
      rw [hhead]
      exact hcab
    refine except_bind_eq_ok.mpr ⟨(), falharSe_eq_ok.mpr hgen, ?_⟩
    refine except_bind_eq_ok.mpr ⟨(), hint', except_bind_eq_ok.mpr ⟨(), hcab', ?_⟩⟩
    rw [hload, h.conferirProdutor h']
    exact hconf

theorem EmUso.simularBloco (h : EmUso amb blocos c) (h' : EmUso amb blocos c') :
    c'.simularBloco amb b = c.simularBloco amb b := by
  obtain ⟨-, hstate, htxs, -⟩ := h.mesma h'
  unfold Blockchain.simularBloco
  rw [simulate_congr htxs, hstate]

theorem escrever_iff {d : Disco} {linhas : List Block} :
    (d.escrever linhas).1 = true ↔ d.falhas.head? ≠ some true := by
  unfold Disco.escrever
  cases d.falhas with
  | nil => simp
  | cons f fs => cases f <;> simp

theorem noDisco_append_iff (hl : c.loading = false) (msg : String) :
    (∃ c', noDisco (·.append b) msg c = .ok () c') ↔ GravaProximo c := by
  cases hst : c.store with
  | none =>
    refine iff_of_true ⟨c, noDisco_livre (.inl hst)⟩ ?_
    intro d hd
    rw [hst] at hd
    cases hd
  | some d =>
    have hgrava : GravaProximo c ↔ (d.append b).1 = true := by
      rw [Disco.append, escrever_iff, GravaProximo, hst]
      simp
    rw [hgrava, noDisco_run (·.append b) msg hst hl]
    by_cases hok : (d.append b).1 = true
    · rw [if_pos hok]
      exact iff_of_true ⟨_, rfl⟩ hok
    · rw [if_neg hok]
      refine iff_of_false ?_ hok
      rintro ⟨c', h⟩
      cases h

/-- An accepted block is written exactly when the disk does not refuse it. -/
theorem EmUso.grava (h : EmUso amb blocos c) {recibos : Recibos} {sim : State}
    (ha : Aceita amb c now b recibos sim) :
    (∃ c', gravarBloco amb b sim recibos c = .ok () c' ∧ c'.state = sim) ↔ GravaProximo c := by
  obtain ⟨g, bs, rfl, hc⟩ := h.coerente
  rw [← noDisco_append_iff (b := b) h.emUso s!"bloco {b.height} recusado: falha ao persistir"]
  constructor
  · rintro ⟨c', hg, -⟩
    obtain ⟨_, c₁, hdisco, -⟩ := bind_eq_ok.mp hg
    exact ⟨c₁, hdisco⟩
  · rintro ⟨c₁, hdisco⟩
    have hd := (noDisco_runs _ _ c).ok hdisco
    obtain ⟨hh, hj⟩ := (hc.soDisco hd).aceita (ha.soDisco hd)
    obtain ⟨c₂, hslide, -, -, hsem⟩ := hj.slide hh.estado
    refine ⟨c₂, bind_eq_ok.mpr ⟨(), c₁, hdisco, ?_⟩, ?_⟩
    · rw [modify_bind_run]
      exact hslide
    · exact congrArg (·.state) hsem

theorem gravarBloco_state {sim : State} {recibos : Recibos}
    (h : gravarBloco amb b sim recibos c = .ok () c') : c'.state = sim := by
  obtain ⟨c₁, -, hslide⟩ := gravarBloco_ok h
  exact congrArg (·.state) ((slideTail_runs amb _).ok hslide)

theorem conferirStateRoot_iff {sim : State} :
    conferirStateRoot amb b sim = .ok () ↔
      ∃ raiz, amb.cripto.stateRootOf sim = .ok raiz ∧ raiz = b.stateRoot.getD "" := by
  unfold conferirStateRoot
  cases amb.cripto.stateRootOf sim with
  | error e =>
    refine iff_of_false (fun h => by cases h) ?_
    rintro ⟨raiz, h, -⟩
    cases h
  | ok raiz =>
    constructor
    · intro h
      obtain ⟨r, hr, h⟩ := except_bind_eq_ok.mp h
      cases hr
      exact ⟨raiz, rfl, not_not.mp (falharSe_eq_ok.mp h)⟩
    · rintro ⟨r, hr, hraiz⟩
      cases hr
      exact except_bind_eq_ok.mpr ⟨raiz, rfl, falharSe_eq_ok.mpr (not_not.mpr hraiz)⟩

theorem stateRoot_of_integrity {cr : Cripto} {ks : Option (String × String)}
    (hpos : b.height ≠ 0) (h : cr.verifyBlockIntegrityEx b ks = .ok ()) :
    ∃ raiz, b.stateRoot = some raiz := by
  unfold Cripto.verifyBlockIntegrityEx at h
  obtain ⟨_, -, h⟩ := except_bind_eq_ok.mp h
  rw [if_neg hpos] at h
  obtain ⟨_, hraiz, -⟩ := except_bind_eq_ok.mp h
  have hraiz := not_not.mp (falharSe_eq_ok.mp hraiz)
  obtain ⟨raiz, hr, -⟩ := Option.map_eq_some_iff.mp hraiz
  exact ⟨raiz, hr⟩

/-- What one instance accepts, another with the same blocks accepts exactly when its disk
takes it and it can tell the keys of the producer. -/
theorem EmUso.acompanha_iff (h : EmUso amb blocos c) (h' : EmUso amb blocos c')
    (hrun : addBlock amb b now c = .ok () c₁) :
    Acompanha amb b now c₁ c' ↔
      Identifica amb.cripto b (c'.producerKeys.get? b.producer) ∧ GravaProximo c' := by
  obtain ⟨hconf, recibos, sim, hsim, hg⟩ := addBlock_eq_ok.mp hrun
  have hchaves := h.conferirBloco h' hconf
  have hsim' := (h.simularBloco h').trans hsim
  constructor
  · rintro ⟨c'', hrun', -⟩
    obtain ⟨hconf', recibos', sim', hs', hg'⟩ := addBlock_eq_ok.mp hrun'
    refine ⟨hchaves.mp hconf', (h'.grava ⟨hconf', (simularBloco_eq_ok hs').1⟩).mp ?_⟩
    exact ⟨c'', hg', gravarBloco_state hg'⟩
  · rintro ⟨hid, hdisco⟩
    have hconf' := hchaves.mpr hid
    obtain ⟨hsimula', hraiz⟩ := simularBloco_eq_ok hsim'
    obtain ⟨c'', hg', hstate⟩ := (h'.grava ⟨hconf', hsimula'⟩).mpr hdisco
    refine ⟨c'', addBlock_eq_ok.mpr ⟨hconf', recibos, sim, hsim', hg'⟩, ?_, ?_⟩
    · rw [hstate, gravarBloco_state hg]
    · obtain ⟨raiz, hroot, hcampo⟩ := conferirStateRoot_iff.mp hraiz
      obtain ⟨hint, u, -, helo⟩ := conferirBloco_cabeca hconf
      obtain ⟨r, hr⟩ := stateRoot_of_integrity (by rw [helo.1]; exact Nat.succ_ne_zero _) hint
      rw [hr] at hcampo
      exact ⟨raiz, hstate ▸ hroot, hcampo ▸ hr⟩

/-- A peer with the blocks of the producer takes what it produces exactly when it can tell
its keys and its disk takes the block. -/
theorem par_acompanha_iff (hc : Instancia amb blocos c) (hc' : Instancia amb blocos c')
    {signer : BlockSigner} {transactions : List Tx} {timestamp : ℤ}
    {producerAccount : Option String}
    (h : produceBlock amb signer transactions timestamp producerAccount now c = .ok b c₁) :
    Acompanha amb b now c₁ c' ↔
      Identifica amb.cripto b (c'.producerKeys.get? b.producer) ∧ GravaProximo c' :=
  (emUso_of_instancia hc).acompanha_iff (emUso_of_instancia hc') (addBlock_of_produceBlock h)

end

/-! ## Keys that a reorganisation leaves behind -/

section

variable {amb : Ambiente} {c c₁ : Blockchain} {g b : Block} {now : ℤ}

/-- A chain of one block takes the next one by reorganisation as well, and remembers no more
keys than before. -/
theorem EmUso.adota_um (h : EmUso amb [g] c) (hst : c.store = none)
    (hpode : c.podeReorganizar ((0 : ℕ) : ℤ) = .ok ()) (hadd : addBlock amb b now c = .ok () c₁)
    (hpk : b.publicKey ≠ none) :
    ∃ orfas c₂, reorg amb ((0 : ℕ) : ℤ) [b] now c = .ok (.adotou orfas) c₂ ∧
      c₂.producerKeys = c.producerKeys := by
  obtain ⟨_, _, hblocos, hc⟩ := h.coerente
  cases hblocos
  have hdentro := hc.janela.dentro
  have hts : c.tailStart ≤ 0 := by
    rw [List.length_singleton] at hdentro
    omega
  obtain ⟨s, u, hs, hu, hcand⟩ := hc.candidato_ok hts le_rfl
  generalize hc₀ : Blockchain.mk _ _ _ _ _ _ _ _ _ _ _ _ _ _ _ _ = c₀ at hcand
  obtain ⟨-, hst₀, hh₀⟩ := hc.candidato le_rfl hcand
  obtain rfl : g = u := Option.some.inj hu
  -- The candidate holds the genesis too, so it accepts what the chain accepts.
  have hc₀c : Coerente amb g [] c₀ := by
    subst hc₀
    exact ⟨hh₀, rfl, Nat.one_pos, fun _ => rfl, fun _ ha => by cases ha⟩
  have huso₀ : EmUso amb [g] c₀ := ⟨by subst hc₀; rfl, g, [], rfl, hc₀c⟩
  obtain ⟨cand, hcres, -⟩ := (h.acompanha_iff huso₀ hadd).mpr
    ⟨.inl hpk, fun d hd => by rw [hst₀] at hd; cases hd⟩
  have hsub : Substitui amb c ((0 : ℕ) : ℤ) [b] now cand := by
    have hadds : addBlocks amb now [b] c₀ = .ok () cand := bind_eq_ok.mpr ⟨(), cand, hcres, rfl⟩
    have hcandh := (hc₀c.addBlock hcres).height
    rw [List.nil_append, List.length_singleton] at hcandh
    refine ⟨le_rfl, ?_, ?_, hpode, ?_, ?_⟩
    · rw [hc.height]
      exact le_rfl
    · rw [hc.height, List.length_singleton, List.length_nil]
      decide
    · unfold experimentar
      rw [Int.toNat_natCast, hcand]
      dsimp only
      rw [hadds]
    · rw [hc.height, hcandh, List.length_nil]
      decide
  have hrun : substituir amb 0 [b] cand c = _ := substituir_semDisco hst 0
  have hchaves := (substituir_indices hc hts hrun).2
  refine ⟨_, _, (reorg_of_substitui hsub).trans hrun, hchaves⟩

theorem instancia_trio : Instancia ambienteIdeal [geneseTrio] cadeiaTrio :=
  .genese (adoptGenesis_geneseCom rfl rfl estadoGenese_trio)

/-- The first block of a producer carries its keys. -/
theorem chaves_trio {p : Produtor} {n slot : ℕ} {c' : Blockchain}
    (h : Turno cadeiaTrio p n slot b c') : b.publicKey = some p.pk ∧ b.pqPublicKey = some p.pq :=
  Prod.mk.inj h.chaves

/-- The second producer of the trio takes the first slot, and its keys are remembered. -/
theorem lembrado_trio {p : Produtor} (hp : trio[1 % trio.length]? = some p) :
    ∃ b₁ c₁, produceBlock ambienteIdeal p.signer [] (inicioDoSlot 1) none (10 ^ 9) cadeiaTrio =
        .ok b₁ c₁ ∧ Pronta ambienteIdeal trio 1 c₁ ∧ b₁.publicKey ≠ none ∧
      c₁.producerKeys.contains p.endereco = true ∧
      ∀ u, c₁.head = some u → slotFor u.timestamp = 1 := by
  obtain ⟨b₁, c₁, hprod, hpronta, hturno⟩ := pronta_trio.produz digere_ideal trio_capaz
    trio_distinto hp (by decide) (by decide) (by decide) le_rfl (by rintro u ⟨⟩; decide)
  obtain ⟨hpk, hpq⟩ := chaves_trio hturno
  obtain ⟨sim, rfl⟩ := hturno.cadeia
  refine ⟨b₁, _, hprod, hpronta, ?_, ?_, ?_⟩
  · rw [hpk]
    exact Option.some_ne_none _
  · rw [aceitar_producerKeys, lembraChaves, hpk, hpq, hturno.produtor]
    exact OrdMap.contains_iff.mpr ⟨_, OrdMap.get?_insert_self _ _ _⟩
  · intro u hu
    obtain rfl : b₁ = u := Option.some.inj ((aceitar_head b₁ sim []).symm.trans hu)
    rw [hturno.instante, slotFor_inicioDoSlot]
    rfl

/-- The next block of a remembered producer is compact. -/
theorem compacto_no_slot {p : Produtor} {k : ℕ} (hpronta : Pronta ambienteIdeal trio 1 c)
    (hlembra : c.producerKeys.contains p.endereco = true)
    (hcab : ∀ u, c.head = some u → slotFor u.timestamp = 1)
    (hp : trio[k % trio.length]? = some p) (hdepois : 1 < k) (hmax : k ≤ 10 ^ 6) :
    ∃ b c', produceBlock ambienteIdeal p.signer [] (inicioDoSlot k) none (10 ^ 9) c = .ok b c' ∧
      b.publicKey = none ∧ Turno c p 1 k b c' := by
  have hslot : (1 : ℤ) < k := by exact_mod_cast hdepois
  obtain ⟨b, c', hprod, -, hturno⟩ := hpronta.produz digere_ideal trio_capaz trio_distinto hp
    (by decide) (by omega) hmax le_rfl (fun u hu => by rw [hcab u hu]; exact hslot)
  refine ⟨b, c', hprod, ?_, hturno⟩
  rw [(Prod.mk.inj hturno.chaves).1, hlembra]
  rfl

/-- One peer added the first block of a producer, the other one adopted it: the next block
of the producer is compact, and the second peer remembers no keys. -/
theorem compacto_trio : ∃ (b₁ b₂ : Block) (c₁ c₂ c₃ : Blockchain) (signer : BlockSigner),
    Instancia ambienteIdeal [geneseTrio, b₁] c₁ ∧ Instancia ambienteIdeal [geneseTrio, b₁] c₂ ∧
      produceBlock ambienteIdeal signer [] (inicioDoSlot 4) none (10 ^ 9) c₁ = .ok b₂ c₃ ∧
      b₂.publicKey = none ∧ c₂.producerKeys = ∅ ∧ c₁.store = none := by
  have hp : trio[1 % trio.length]? = some (trio.get ⟨1, by decide⟩) := rfl
  have hp' : trio[4 % trio.length]? = some (trio.get ⟨1, by decide⟩) := rfl
  generalize trio.get ⟨1, by decide⟩ = p at hp hp'
  obtain ⟨b₁, c₁, hprod, hpronta, hpk, hlembra, hcab⟩ := lembrado_trio hp
  obtain ⟨b₂, c₃, hprod₂, hpk₂, -⟩ :=
    compacto_no_slot hpronta hlembra hcab hp' (by decide) (by decide)
  obtain ⟨vs, hvs, hnomes⟩ := validators_trio
  have hvlen : vs.length = 3 := by
    have := congrArg List.length hnomes
    rwa [List.length_map] at this
  have hpode : cadeiaTrio.podeReorganizar ((0 : ℕ) : ℤ) = .ok () := by
    refine podeReorganizar_of_final (finalizedHeight_curto (c := cadeiaTrio) hvs ?_) (by decide)
      (by decide)
    rw [coerente_trio.height, hvlen]
    decide
  obtain ⟨orfas, c₂, hreorg, hchaves⟩ := (emUso_of_instancia instancia_trio).adota_um rfl hpode
    (addBlock_of_produceBlock hprod) hpk
  exact ⟨b₁, b₂, c₁, c₂, c₃, p.signer, instancia_trio.produz hprod, instancia_trio.adota hreorg,
    hprod₂, hpk₂, hchaves, hpronta.semDisco⟩

/-- A peer that adopted the block with the keys refuses the compact one after it. -/
theorem par_recusa_compacto :
    ¬ ∀ (amb : Ambiente) (blocos : List Block) (c c' c₁ : Blockchain) (b : Block)
      (signer : BlockSigner) (transactions : List Tx) (timestamp : ℤ)
      (producerAccount : Option String) (now : ℤ), Instancia amb blocos c →
      Instancia amb blocos c' →
      produceBlock amb signer transactions timestamp producerAccount now c = .ok b c₁ →
      Acompanha amb b now c₁ c' := by
  intro h
  obtain ⟨b₁, b₂, c₁, c₂, c₃, signer, hc₁, hc₂, hprod, hpk, hchaves, -⟩ := compacto_trio
  have hid := ((emUso_of_instancia hc₁).acompanha_iff (emUso_of_instancia hc₂)
    (addBlock_of_produceBlock hprod)).mp (h _ _ _ _ _ _ _ _ _ _ _ hc₁ hc₂ hprod)
  rcases hid.1 with hno | ⟨ks, hks, -⟩
  · exact hno hpk
  · rw [hchaves] at hks
    cases hks

/-- A peer that heard of the producer takes the compact block. -/
theorem par_acompanha_trio : ∃ (b : Block) (c c' : Blockchain),
    b.publicKey = none ∧ Acompanha ambienteIdeal b (10 ^ 9) c' c := by
  obtain ⟨b₁, b₂, c₁, -, c₃, signer, hc₁, -, hprod, hpk, -, hst⟩ := compacto_trio
  have hconf := (addBlock_eq_ok.mp (addBlock_of_produceBlock hprod)).1
  have huso := emUso_of_instancia hc₁
  refine ⟨b₂, c₁, c₃, hpk, (par_acompanha_iff hc₁ hc₁ hprod).mpr ⟨?_, ?_⟩⟩
  · exact (huso.conferirBloco huso hconf).mp hconf
  · intro d hd
    rw [hst] at hd
    cases hd

end

end Eav7.Blockchain
