import Eav7.Finalidade
import Eav7.Evidencia

/-!
# An honest producer

A key signs only the blocks that `produceBlock` returns. As long as no reorganisation
that discards blocks is refused by the disk, the head never goes down, each returned
block is higher than the ones before it, and no evidence against the key is accepted.
-/

namespace Eav7.Blockchain

open Base

/-! ## A chain that goes on -/

/-- No block yet, or a chain that stands for its blocks. -/
def Erguida (amb : Ambiente) (c : Blockchain) : Prop :=
  c.tail = [] ∨ ∃ g bs, Coerente amb g bs c

/-- A later chain of the same node, no lower. -/
structure Avanca (amb : Ambiente) (c c' : Blockchain) : Prop where
  erguida : Erguida amb c'
  sobe : c.height ≤ c'.height

section

variable {amb : Ambiente} {c c' c'' : Blockchain}

theorem height_vazia (h : c.tail = []) : c.height = -1 := by
  unfold height head
  rw [h]
  rfl

theorem Erguida.menor (h : Erguida amb c) : -1 ≤ c.height := by
  rcases h with h | ⟨g, bs, h⟩
  · rw [height_vazia h]
  · rw [h.height]
    omega

theorem Avanca.refl (h : Erguida amb c) : Avanca amb c c := ⟨h, le_rfl⟩

theorem Avanca.trans (h : Avanca amb c c') (h' : Avanca amb c' c'') : Avanca amb c c'' :=
  ⟨h'.erguida, h.sobe.trans h'.sobe⟩

/-- The disk is no part of the chain. -/
theorem Erguida.soDisco (h : Erguida amb c) (hd : SoDisco c c') : Avanca amb c c' := by
  obtain ⟨st, rfl⟩ := hd
  refine ⟨?_, le_rfl⟩
  rcases h with h | ⟨g, bs, h⟩
  · exact .inl h
  · exact .inr ⟨g, bs, h.soDisco ⟨st, rfl⟩⟩

theorem Erguida.coerente (h : Erguida amb c) {u : Block} (hu : c.head = some u) :
    ∃ g bs, Coerente amb g bs c := by
  rcases h with h | h
  · unfold head at hu
    rw [h] at hu
    cases hu
  · exact h

/-- An accepted block is the new head, one above the old one. -/
theorem Erguida.aceita (h : Erguida amb c) {block : Block} {now : ℤ}
    (hrun : Blockchain.addBlock amb block now c = .ok () c') :
    Avanca amb c c' ∧ (block.height : ℤ) = c.height + 1 ∧ c'.height = c.height + 1 := by
  obtain ⟨recibos, sim, ha, -⟩ := addBlock_ok hrun
  obtain ⟨-, u, hu, helo⟩ := conferirBloco_cabeca ha.conferido
  obtain ⟨g, bs, hc⟩ := h.coerente hu
  have hc' := hc.addBlock hrun
  have hdepois : c'.height = c.height + 1 := by
    rw [hc'.height, hc.height, List.length_append, List.length_singleton, Nat.cast_add]
    rfl
  refine ⟨⟨.inr ⟨g, _, hc'⟩, by omega⟩, ?_, hdepois⟩
  unfold height
  rw [hu, helo.1]
  simp

theorem Erguida.addBlock (h : Erguida amb c) (block : Block) (now : ℤ) :
    Runs (Blockchain.addBlock amb block now) c (fun _ c' => Avanca amb c c')
      fun e c' => Interrupcao.Devolvida e → Avanca amb c c' := by
  refine Runs.intro ?_ ?_
  · intro _ c' hrun
    exact (h.aceita hrun).1
  · intro e c' hrun he
    exact h.soDisco (addBlock_erro hrun he)

theorem Erguida.addBlocks (h : Erguida amb c) (novos : List Block) (now : ℤ) :
    Runs (Blockchain.addBlocks amb now novos) c (fun _ c' => Avanca amb c c')
      fun e c' => Interrupcao.Devolvida e → Avanca amb c c' := by
  induction novos generalizing c with
  | nil => exact Runs.pure_intro (.refl h)
  | cons b novos ih =>
    refine Runs.bind ((h.addBlock b now).mono ?_ fun _ _ => id)
    intro _ c₁ h₁
    refine (ih h₁.erguida).mono ?_ ?_
    · exact fun _ c₂ h₂ => h₁.trans h₂
    · exact fun e c₂ h₂ he => h₁.trans (h₂ he)

theorem produceBlock_erro {signer : BlockSigner} {transactions : List Tx} {timestamp : ℤ}
    {producerAccount : Option String} {now : ℤ} {e : Interrupcao}
    (h : Blockchain.produceBlock amb signer transactions timestamp producerAccount now c =
      .error e c') (he : Interrupcao.Devolvida e) : SoDisco c c' := by
  unfold Blockchain.produceBlock at h
  rw [get_bind_run] at h
  rcases bind_eq_error.mp h with h₁ | ⟨⟨bloco, recibos, sim⟩, t, hmonta, h₁⟩
  · obtain ⟨-, rfl⟩ := conferir_eq_error.mp h₁
    exact .refl _
  · obtain ⟨-, rfl⟩ := conferir_eq_ok.mp hmonta
    rcases bind_eq_error.mp h₁ with h₂ | ⟨_, t', hconf, h₂⟩
    · obtain ⟨-, rfl⟩ := conferir_eq_error.mp h₂
      exact .refl _
    · obtain ⟨-, rfl⟩ := conferir_eq_ok.mp hconf
      rcases bind_eq_error.mp h₂ with h₃ | ⟨_, t, -, h₃⟩
      · exact gravarBloco_erro h₃ he
      · cases h₃

theorem Erguida.produceBlock (h : Erguida amb c) (signer : BlockSigner) (transactions : List Tx)
    (timestamp : ℤ) (producerAccount : Option String) (now : ℤ) :
    Runs (Blockchain.produceBlock amb signer transactions timestamp producerAccount now) c
      (fun _ c' => Avanca amb c c') fun e c' => Interrupcao.Devolvida e → Avanca amb c c' := by
  refine Runs.intro ?_ ?_
  · intro b c' hrun
    exact (h.aceita (addBlock_of_produceBlock hrun)).1
  · intro e c' hrun he
    exact h.soDisco (produceBlock_erro hrun he)

/-- A genesis is adopted by an empty chain. -/
theorem Erguida.adoptGenesis (h : Erguida amb c) (hvazia : c.hasGenesis = false) (block : Block) :
    Runs (Blockchain.adoptGenesis amb block) c (fun _ c' => Avanca amb c c')
      fun e c' => Interrupcao.Devolvida e → Avanca amb c c' := by
  have htail : c.tail = [] := by simpa [hasGenesis] using hvazia
  unfold Blockchain.adoptGenesis
  refine Runs.get_bind (Runs.bind (Runs.intro ?_ ?_))
  · intro estado c₁ hconf
    obtain ⟨hconf, rfl⟩ := conferir_eq_ok.mp hconf
    obtain ⟨-, halt, hest⟩ := conferirGenese_ok hconf
    have hcoer := coerente_comGenese (c := c₁) halt hest
    have hergue : Avanca amb c₁ (c₁.comGenese block estado) := by
      refine ⟨.inr ⟨block, [], hcoer⟩, ?_⟩
      rw [height_vazia htail, hcoer.height]
      decide
    refine Runs.modify_bind ((noDisco_runs _ _ _).mono ?_ ?_)
    · exact fun _ c₂ hd => hergue.trans (hergue.erguida.soDisco hd)
    · exact fun e c₂ hd _ => hergue.trans (hergue.erguida.soDisco hd.1)
  · intro e c₁ hconf _
    rw [(conferir_eq_error.mp hconf).2]
    exact .refl h

theorem Erguida.reorg (h : Erguida amb c) (common : ℤ) (novos : List Block) (now : ℤ)
    (hdisco : DiscoComporta amb c (.reorg common novos now)) :
    Runs (Blockchain.reorg amb common novos now) c (fun _ c' => Avanca amb c c')
      fun e c' => Interrupcao.Devolvida e → Avanca amb c c' := by
  rcases reorg_cases amb c common novos now with ⟨cand, hsub, hrun⟩ | hrun | ⟨e', hrun⟩
  · refine Runs.intro ?_ ?_
    · intro r c' hr
      rw [hrun] at hr
      obtain ⟨g, bs, hc⟩ : ∃ g bs, Coerente amb g bs c := by
        rcases h with hvazia | hc
        · have := hsub.positivo
          have := hsub.dentro
          rw [height_vazia hvazia] at this
          omega
        · exact hc
      have hc' := hc.substituir hsub hr
      refine ⟨.inr ⟨g, _, hc'⟩, ?_⟩
      have hlongos := hsub.longos
      have hdentro := hsub.dentro
      have hpos := hsub.positivo
      rw [hc.height] at hlongos hdentro ⊢
      rw [hc'.height, List.length_append, List.length_take]
      omega
    · rintro e c' hr ⟨msg, rfl⟩
      rw [hrun] at hr
      obtain ⟨hrecusa, hsd⟩ := substituir_erro hr
      rcases hdisco cand hsub with hcurto | hno
      · rw [List.take_of_length_le hcurto] at hsd
        exact h.soDisco hsd
      · exact absurd hrecusa hno
  · refine Runs.intro ?_ ?_
    · intro r c' hr
      rw [hrun] at hr
      cases hr
      exact .refl h
    · intro e c' hr
      rw [hrun] at hr
      cases hr
  · refine Runs.intro ?_ ?_
    · intro r c' hr
      rw [hrun] at hr
      cases hr
    · intro e c' hr _
      rw [hrun] at hr
      cases hr
      exact .refl h

end

/-! ## Runs of one node -/

/-- A genesis is adopted by an empty chain only, as every caller does. -/
def Comando.Oportuno (c : Blockchain) : Comando → Prop
  | adoptGenesis _ => c.hasGenesis = false
  | _ => True

/-- The blocks that a call returns. -/
def Comando.devolvidos (amb : Ambiente) (c : Blockchain) : Comando → List Block
  | produceBlock signer transactions timestamp producerAccount now =>
    match Blockchain.produceBlock amb signer transactions timestamp producerAccount now c with
    | .ok b _ => [b]
    | .error _ _ => []
  | _ => []

/-- The disk takes the writes of a reorganisation that discards blocks. -/
def Comando.Gravavel (amb : Ambiente) (c : Blockchain) : Comando → Prop
  | reorg common novos now => DiscoComporta amb c (.reorg common novos now)
  | replaceChain blocos now => DiscoComporta amb c
      (.reorg (c.comumCom blocos) (blocos.drop (c.comumCom blocos + 1).toNat) now)
  | _ => True

/-- The runs of a node from an erect chain, every call meeting a condition, with the blocks
that its producer returned, newest first. -/
inductive Jornada (amb : Ambiente) (P : Blockchain → Comando → Prop) :
    List Block → Blockchain → Prop
  | inicio {c : Blockchain} (h : Erguida amb c) : Jornada amb P [] c
  | passo {produzidos : List Block} {c c' : Blockchain} (cmd : Comando)
      (h : Jornada amb P produzidos c) (hop : cmd.Oportuno c) (hP : P c cmd)
      (hp : cmd.passo amb c = some c') : Jornada amb P (cmd.devolvidos amb c ++ produzidos) c'

section

variable {amb : Ambiente} {c c' : Blockchain} {produzidos : List Block}

theorem Erguida.replaceChain (h : Erguida amb c) (blocos : List Block) (now : ℤ)
    (hdisco : DiscoComporta amb c
      (.reorg (c.comumCom blocos) (blocos.drop (c.comumCom blocos + 1).toNat) now)) :
    Runs (Blockchain.replaceChain amb blocos now) c (fun _ c' => Avanca amb c c')
      fun e c' => Interrupcao.Devolvida e → Avanca amb c c' := by
  unfold Blockchain.replaceChain
  refine Runs.get_bind ?_
  cases blocos with
  | nil => exact Runs.pure_intro (.refl h)
  | cons genese resto =>
    refine Runs.ite (fun hgen => ?_) fun _ =>
      Runs.ite (fun _ => Runs.pure_intro (.refl h)) fun _ => ?_
    · refine Runs.bind ((h.adoptGenesis hgen genese).mono ?_ fun _ _ => id)
      intro _ c₁ h₁
      refine Runs.bind ((h₁.erguida.addBlocks resto now).mono ?_ ?_)
      · exact fun _ c₂ h₂ => Runs.pure_intro (h₁.trans h₂)
      · exact fun e c₂ h₂ he => h₁.trans (h₂ he)
    · refine Runs.bind (Runs.intro ?_ ?_)
      · intro _ c₁ hconf
        obtain ⟨-, rfl⟩ := conferir_eq_ok.mp hconf
        have hcomum : c₁.comumCom (genese :: resto) = c₁.procuraComum (genese :: resto)
            ((min c₁.height resto.length).toNat + 1) := by
          unfold comumCom
          rw [List.length_cons, Nat.cast_add, Nat.cast_one, add_sub_cancel_right]
        rw [hcomum] at hdisco
        exact h.reorg _ _ now hdisco
      · intro e c₁ hconf _
        rw [(conferir_eq_error.mp hconf).2]
        exact .refl h

/-- What one call preserves. -/
theorem Erguida.passo (h : Erguida amb c) {cmd : Comando} (hop : cmd.Oportuno c)
    (hdisco : cmd.Gravavel amb c) (hp : cmd.passo amb c = some c') : Avanca amb c c' := by
  refine passo_of_runs ?_ hp
  cases cmd with
  | adoptGenesis block => exact h.adoptGenesis hop block
  | addBlock block now => exact h.addBlock block now
  | produceBlock signer transactions timestamp producerAccount now =>
    exact Runs.bind ((h.produceBlock signer transactions timestamp producerAccount now).mono
      (fun _ _ h₁ => Runs.pure_intro h₁) fun _ _ => id)
  | reorg common novos now =>
    exact Runs.bind ((h.reorg common novos now hdisco).mono (fun _ _ h₁ => Runs.pure_intro h₁)
      fun _ _ => id)
  | replaceChain blocos now =>
    exact Runs.bind ((h.replaceChain blocos now hdisco).mono (fun _ _ h₁ => Runs.pure_intro h₁)
      fun _ _ => id)

/-- A returned block is the new head. -/
theorem Erguida.devolvido (h : Erguida amb c) {cmd : Comando} (hp : cmd.passo amb c = some c')
    {b : Block} (hb : b ∈ cmd.devolvidos amb c) :
    cmd.devolvidos amb c = [b] ∧ Verificado amb.cripto b ∧ (b.height : ℤ) = c.height + 1 ∧
      c'.height = c.height + 1 := by
  cases cmd with
  | produceBlock signer transactions timestamp producerAccount now =>
    unfold Comando.devolvidos at hb ⊢
    cases hrun : Blockchain.produceBlock amb signer transactions timestamp producerAccount now
      c with
    | ok b' c₁ =>
      simp only [hrun, List.mem_singleton] at hb ⊢
      subst hb
      have hexec : (Comando.produceBlock signer transactions timestamp producerAccount
          now).executa amb c = .ok () c₁ := bind_eq_ok.mpr ⟨b, c₁, hrun, rfl⟩
      obtain rfl : c₁ = c' := Option.some.inj ((passo_of_ok hexec).symm.trans hp)
      have hadd := addBlock_of_produceBlock hrun
      obtain ⟨recibos, sim, ha, -⟩ := addBlock_ok hadd
      exact ⟨rfl, ha.verificado, (h.aceita hadd).2⟩
    | error e c₁ => simp [hrun] at hb
  | adoptGenesis _ => cases hb
  | addBlock _ _ => cases hb
  | reorg _ _ _ => cases hb
  | replaceChain _ _ => cases hb

/-- What a whole run preserves: the returned blocks are verified, go up and do not pass
the head. -/
theorem Jornada.registro (h : Jornada amb (fun c cmd => cmd.Gravavel amb c) produzidos c) :
    Erguida amb c ∧ (∀ b ∈ produzidos, Verificado amb.cripto b ∧ (b.height : ℤ) ≤ c.height) ∧
      produzidos.Pairwise fun a b => b.height < a.height := by
  induction h with
  | inicio h => exact ⟨h, fun b hb => (List.not_mem_nil hb).elim, .nil⟩
  | passo cmd hrun hop hP hp ih =>
    rename_i produzidos c c'
    obtain ⟨hergue, hfeitos, hordem⟩ := ih
    have havanca := hergue.passo hop hP hp
    have hantes : ∀ b ∈ produzidos, Verificado amb.cripto b ∧ (b.height : ℤ) ≤ c'.height :=
      fun b hb => ⟨(hfeitos b hb).1, (hfeitos b hb).2.trans havanca.sobe⟩
    refine ⟨havanca.erguida, fun b hb => ?_, List.pairwise_append.mpr ⟨?_, hordem, ?_⟩⟩
    · rcases List.mem_append.mp hb with hb | hb
      · obtain ⟨-, hver, halt, hcab⟩ := hergue.devolvido hp hb
        exact ⟨hver, (halt.trans hcab.symm).le⟩
      · exact hantes b hb
    · cases hd : cmd.devolvidos amb c with
      | nil => exact .nil
      | cons b resto =>
        have hum := (hergue.devolvido hp (hd ▸ List.mem_cons_self : b ∈ _)).1
        rw [← hd, hum]
        exact List.pairwise_singleton _ _
    · intro a ha b hb
      have halt := (hergue.devolvido hp ha).2.2.1
      have hle := (hfeitos b hb).2
      omega

theorem devolvidos_of_produceBlock {signer : BlockSigner} {transactions : List Tx}
    {timestamp : ℤ} {producerAccount : Option String} {now : ℤ} {b : Block}
    (h : Blockchain.produceBlock amb signer transactions timestamp producerAccount now c =
      .ok b c') :
    (Comando.produceBlock signer transactions timestamp producerAccount now).devolvidos amb c =
      [b] := by
  unfold Comando.devolvidos
  dsimp only
  rw [h]

/-- A run of one produced block. -/
theorem jornada_de_um {g : Block} {bs : List Block} (hc : Coerente amb g bs c)
    {signer : BlockSigner} {transactions : List Tx} {timestamp : ℤ}
    {producerAccount : Option String} {now : ℤ} {b : Block}
    (h : Blockchain.produceBlock amb signer transactions timestamp producerAccount now c =
      .ok b c') :
    Jornada amb (fun c cmd => cmd.Gravavel amb c) [b] c' := by
  have hexec : (Comando.produceBlock signer transactions timestamp producerAccount
      now).executa amb c = .ok () c' := bind_eq_ok.mpr ⟨b, c', h, rfl⟩
  have hjor := Jornada.passo (P := fun c cmd => cmd.Gravavel amb c)
    (.produceBlock signer transactions timestamp producerAccount now)
    (.inicio (.inr ⟨g, bs, hc⟩)) trivial trivial (passo_of_ok hexec)
  rw [devolvidos_of_produceBlock h] at hjor
  exact hjor

end

/-! ## No evidence against the key -/

/-- Of the public blocks that verify under an address, none was signed outside the
returned blocks. -/
def SoDevolvidos (cr : Cripto) (endereco : String) (produzidos : List Block)
    (publicos : Set Block) : Prop :=
  ∀ b ∈ publicos, b.producer = endereco → b.height ≠ 0 → cr.verifyBlockIntegrity b = .ok () →
    ∃ p ∈ produzidos, p.payload = b.payload

/-- What a node and its key may count on after a run. -/
structure Honesto (amb : Ambiente) (P : Blockchain → Comando → Prop) (produzidos : List Block)
    (c : Blockchain) : Prop where
  sobe : ∀ (cmd : Comando) (c' : Blockchain), cmd.Oportuno c → P c cmd →
    cmd.passo amb c = some c' → c.height ≤ c'.height
  alturas : produzidos.Pairwise fun a b => b.height < a.height
  impune : ∀ (signer : BlockSigner) (endereco : String) (publicos : Set Block),
    enderecoDoProdutor amb.cripto signer = .ok endereco →
    SoDevolvidos amb.cripto endereco produzidos publicos →
    ∀ (tx : Tx) (ctx : Ctx) (s t : State),
      (∀ nome ∈ ["blockA", "blockB"], ∀ v b, tx.campo nome = some v → blockFromJson v = .ok b →
        b ∈ publicos ∧ b.producer = endereco) →
      slashDoubleSign amb.cripto tx ctx s ≠ .ok () t

section

variable {amb : Ambiente} {c : Blockchain} {produzidos : List Block}

/-- The address of a key is not the producer of a genesis. -/
theorem enderecoDoProdutor_ne {cr : Cripto} {signer : BlockSigner} {endereco : String}
    (h : enderecoDoProdutor cr signer = .ok endereco) : endereco ≠ genesisProducer := by
  unfold enderecoDoProdutor Cripto.addressFromPublicKeys at h
  cases hchaves : cr.chavesDePem signer.publicKeyPem signer.pqPublicKeyPem with
  | none =>
    rw [hchaves] at h
    cases h
  | some chaves =>
    rw [hchaves, Option.map_some] at h
    obtain rfl := Except.ok.inj h
    intro hmesmo
    have hlista := congrArg String.toList hmesmo
    unfold Cripto.deriveAddressFrom at hlista
    rw [String.toList_append, String.toList_append] at hlista
    have hprimeira := congrArg List.head? hlista
    have hprefixo : Config.addressPrefix.toList.head? = some 'E' := by decide
    rw [List.append_assoc, List.head?_append, hprefixo, Option.some_or] at hprimeira
    exact absurd hprimeira (by decide)

/-- The conflicting blocks of an evidence would be two returned blocks of one height. -/
theorem sem_evidencia {endereco : String} {publicos : Set Block} {signer : BlockSigner} {tx : Tx}
    {a b : Block} (hend : enderecoDoProdutor amb.cripto signer = .ok endereco)
    (hso : SoDevolvidos amb.cripto endereco produzidos publicos)
    (hver : ∀ p ∈ produzidos, Verificado amb.cripto p)
    (hordem : produzidos.Pairwise fun a b => b.height < a.height)
    (hlidos : ∀ nome ∈ ["blockA", "blockB"], ∀ v b, tx.campo nome = some v →
      blockFromJson v = .ok b → b ∈ publicos ∧ b.producer = endereco) :
    ¬ Evidencia amb.cripto tx a b := by
  intro h
  obtain ⟨va, hva, hlida⟩ := h.lida
  obtain ⟨vb, hvb, hlida'⟩ := h.lida'
  obtain ⟨hpa, hda⟩ := hlidos "blockA" (by simp) va a hva hlida
  obtain ⟨hpb, hdb⟩ := hlidos "blockB" (by simp) vb b hvb hlida'
  have hcab : ∀ {x : Block}, amb.cripto.verifyBlockIntegrity x = .ok () →
      Verificado amb.cripto x ∧ (x.producer = endereco → x.height ≠ 0) := by
    intro x hx
    refine ⟨verificado_of_integrity none hx, fun hprod hzero => ?_⟩
    unfold Cripto.verifyBlockIntegrity Cripto.verifyBlockIntegrityEx at hx
    obtain ⟨_, -, hx⟩ := except_bind_eq_ok.mp hx
    rw [if_pos hzero] at hx
    unfold Cripto.verifyGenesis at hx
    obtain ⟨_, hx, -⟩ := except_bind_eq_ok.mp hx
    have hgen := (not_or.mp (falharSe_eq_ok.mp hx)).2
    exact enderecoDoProdutor_ne hend (hprod ▸ not_not.mp hgen)
  obtain ⟨hvera, hposa⟩ := hcab h.integra
  obtain ⟨hverb, hposb⟩ := hcab h.integra'
  obtain ⟨p, hp, hpayp⟩ := hso a hpa hda (hposa hda) h.integra
  obtain ⟨q, hq, hpayq⟩ := hso b hpb hdb (hposb hdb) h.integra'
  have haltp := Carga.altura_of_payload (hver p hp).altura hvera.altura hpayp
  have haltq := Carga.altura_of_payload (hver q hq).altura hverb.altura hpayq
  have hmesma : p.height = q.height := haltp.trans (h.altura.trans haltq.symm)
  have hunico : p = q := by
    by_contra hne
    have hgt := List.pairwise_iff_getElem.mp hordem
    obtain ⟨i, hi, rfl⟩ := List.getElem_of_mem hp
    obtain ⟨j, hj, rfl⟩ := List.getElem_of_mem hq
    rcases lt_trichotomy i j with hij | rfl | hij
    · have := hgt i j hi hj hij
      omega
    · exact hne rfl
    · have := hgt j i hj hi hij
      omega
  refine h.hash ?_
  rw [hvera.hash, hverb.hash, ← hpayp, ← hpayq, hunico]

/-- In a run whose reorganisations the disk takes, the head never goes down, each returned
block is higher than the ones before it, and no evidence against the key is accepted. -/
theorem produtor_honesto (hd : amb.cripto.Digere)
    (h : Jornada amb (fun c cmd => cmd.Gravavel amb c) produzidos c) :
    Honesto amb (fun c cmd => cmd.Gravavel amb c) produzidos c := by
  obtain ⟨hergue, hfeitos, hordem⟩ := h.registro
  refine ⟨?_, hordem, ?_⟩
  · intro cmd c' hop hP hp
    exact (hergue.passo hop hP hp).sobe
  · intro signer endereco publicos hend hso tx ctx s t hlidos hslash
    obtain ⟨a, b, hev⟩ := evidencia_of_slash hd hslash
    exact sem_evidencia hend hso (fun p hp => (hfeitos p hp).1) hordem hlidos hev

/-- A window cut short has a lower head. -/
theorem height_corta {g : Block} {bs : List Block} {c' : Blockchain} (h : Coerente amb g bs c)
    {n : ℕ} (hn : n < c.tail.length) (htail : c'.tail = c.tail.take n) :
    c'.height < c.height := by
  have hlen := h.janela.tail_length
  rw [List.length_cons] at hlen
  rw [h.height]
  cases n with
  | zero =>
    rw [height_vazia (htail.trans (List.take_zero ..))]
    omega
  | succ n =>
    have hcab : c'.head = (g :: bs)[c.tailStart + n]? := by
      unfold head
      rw [htail, List.getLast?_take, if_neg (Nat.succ_ne_zero n), Nat.add_sub_cancel,
        Option.or_of_isSome (by rw [List.getElem?_eq_getElem (by omega)]; rfl), h.janela.tail,
        List.getElem?_drop]
    have hdentro : c.tailStart + n < (g :: bs).length := by
      rw [List.length_cons]
      omega
    rw [List.getElem?_eq_getElem hdentro] at hcab
    unfold height
    rw [hcab, Option.elim_some,
      h.historia.encadeada.altura (List.getElem?_eq_getElem hdentro)]
    omega

/-- A disk that refuses a truncation takes the head down. -/
theorem truncagem_recusada_baixa_a_cabeca :
    ¬ ∀ (amb : Ambiente) (produzidos : List Block) (c : Blockchain), amb.cripto.Digere →
      Jornada amb (fun _ _ => True) produzidos c → Honesto amb (fun _ _ => True) produzidos c := by
  intro h
  obtain ⟨bs, novos, c, cand, hcoer, hsub, hlen, hrecusa⟩ := recusa_trio
  have hhon := h ambienteIdeal [] c digere_ideal (.inicio (.inr ⟨_, _, hcoer⟩))
  obtain ⟨msg, c', hrun, htail⟩ : ∃ msg c',
      substituir ambienteIdeal ((0 : ℕ) : ℤ).toNat novos cand c =
      .error (.erro msg) c' ∧ c'.tail = _ := substituir_error_of_recusa hrecusa
  rw [← reorg_of_substitui hsub] at hrun
  have hpasso : (Comando.reorg ((0 : ℕ) : ℤ) novos (10 ^ 9)).passo ambienteIdeal c = some c' :=
    passo_of_error (bind_eq_error.mpr (.inl hrun))
  have hsobe := hhon.sobe (.reorg ((0 : ℕ) : ℤ) novos (10 ^ 9)) c' trivial trivial hpasso
  exact absurd (height_corta hcoer hlen htail) (not_lt.mpr hsobe)

/-- A producer that signs the block of its slot. -/
theorem produtor_honesto_um :
    ∃ b c, Honesto ambienteIdeal (fun c cmd => cmd.Gravavel ambienteIdeal c) [b] c := by
  have hp : trio[1 % trio.length]? = some (trio.get ⟨1, by decide⟩) := rfl
  obtain ⟨b, c, hprod, -, -⟩ := pronta_trio.produz digere_ideal trio_capaz trio_distinto hp
    (by decide) (by decide) (by decide) le_rfl (by rintro u ⟨⟩; decide)
  exact ⟨b, c, produtor_honesto digere_ideal (jornada_de_um coerente_trio hprod)⟩

end

end Eav7.Blockchain
