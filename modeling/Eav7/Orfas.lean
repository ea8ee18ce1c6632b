import Eav7.Pares
import Eav7.Linha

/-!
# What a reorganisation gives back

An adopted reorganisation returns the transactions of the discarded blocks that the new
chain does not have. The receipts, the logs and the internal transfers that stay are those
of blocks of the new chain.
-/

namespace Eav7.Blockchain

open Base

/-! ## The ids of a chain -/

/-- Every transaction of the blocks has an id, and no id repeats. -/
structure Unicas (bs : List Block) : Prop where
  comId : ∀ b ∈ bs, ∀ tx ∈ b.transactions, ∃ id, tx.id = some id
  distintas : (bs.flatMap idsDe).Nodup

/-- The block of the list at a height has a transaction of this id. -/
def Consta (bs : List Block) (id : String) (altura : ℕ) (b : Block) : Prop :=
  b ∈ bs ∧ b.height = altura ∧ id ∈ idsDe b

/-- Every receipt, log and internal transfer is of a transaction of the blocks. -/
structure Consultas (bs : List Block) (c : Blockchain) : Prop where
  recibos : ∀ id r, c.receipts.get? id = some r → ∃ b, Consta bs id r.blockHeight b
  logs : ∀ e ∈ c.logIndex, ∃ b, Consta bs e.txId e.blockHeight b ∧ b.timestamp = e.blockTime
  internas : ∀ x ∈ c.internalIndex,
    ∃ b, Consta bs x.txId x.blockHeight b ∧ b.timestamp = x.blockTime

section

variable {amb : Ambiente} {c c' : Blockchain} {base bs as : List Block} {b : Block} {now : ℤ}

theorem Consta.mono {id : String} {altura : ℕ} (h : Consta bs id altura b) (hsub : bs ⊆ as) :
    Consta as id altura b :=
  ⟨hsub h.1, h.2⟩

theorem Consultas.congr (h : Consultas bs c) (hr : c'.receipts = c.receipts)
    (hl : c'.logIndex = c.logIndex) (hi : c'.internalIndex = c.internalIndex) :
    Consultas bs c' :=
  ⟨fun id r hg => h.recibos id r (hr ▸ hg), fun e he => h.logs e (hl ▸ he),
    fun x hx => h.internas x (hi ▸ hx)⟩

theorem Consultas.semJanela (h : Consultas bs c) (hs : c'.semJanela = c.semJanela) :
    Consultas bs c' :=
  h.congr (congrArg (·.receipts) hs) (congrArg (·.logIndex) hs) (congrArg (·.internalIndex) hs)

theorem Consultas.soDisco (h : Consultas bs c) (hd : SoDisco c c') : Consultas bs c' := by
  obtain ⟨st, rfl⟩ := hd
  exact h.congr rfl rfl rfl

theorem consultas_vazias (hr : c.receipts = ∅) (hl : c.logIndex = []) (hi : c.internalIndex = []) :
    Consultas bs c := by
  refine ⟨fun id r hg => ?_, fun e he => ?_, fun x hx => ?_⟩
  · rw [hr] at hg
    cases hg
  · rw [hl] at he
    cases he
  · rw [hi] at hx
    cases hx

theorem mem_of_mem_aparar {α : Type} {anel : List α} {a : α} (h : a ∈ aparar anel) : a ∈ anel :=
  List.mem_of_mem_drop h

/-! ## One accepted block -/

/-- The simulation takes each id once, none of those seen before. -/
theorem distintas_of_simulateTxs {height blockTs : ℕ} {txs : List Tx} {vistas : List String}
    {s s' : State} {recibos : Recibos}
    (h : c.simulateTxs amb height blockTs vistas txs s = .ok recibos s') :
    (txs.map fun tx => tx.id.getD "?").Nodup ∧ ∀ tx ∈ txs, tx.id.getD "?" ∉ vistas := by
  induction txs generalizing vistas s s' recibos with
  | nil => exact ⟨List.nodup_nil, fun tx htx => by cases htx⟩
  | cons tx txs ih =>
    rw [simulateTxs] at h
    obtain ⟨_, t, ht, h₁⟩ := bind_eq_ok.mp h
    obtain ⟨hconf, rfl⟩ := lift_eq_ok.mp ht
    obtain ⟨aplicada, t', -, h₂⟩ := bind_eq_ok.mp h₁
    obtain ⟨resto, t'', hresto, -⟩ := bind_eq_ok.mp h₂
    obtain ⟨_, -, hdup⟩ := except_bind_eq_ok.mp hconf
    have hdup := recusar_eq_ok.mp hdup
    rw [not_or] at hdup
    obtain ⟨hnodup, hfora⟩ := ih hresto
    refine ⟨List.nodup_cons.mpr ⟨?_, hnodup⟩, List.forall_mem_cons.mpr ⟨hdup.1, ?_⟩⟩
    · intro hmem
      obtain ⟨tx', htx', hid⟩ := List.mem_map.mp hmem
      exact hfora tx' htx' (hid ▸ List.mem_cons_self)
    · exact fun tx' htx' hv => hfora tx' htx' (List.mem_cons_of_mem _ hv)

/-- Every receipt of a simulation is under the id of one of its transactions. -/
theorem recibos_of_simulateTxs {height blockTs : ℕ} {txs : List Tx} {vistas : List String}
    {s s' : State} {recibos : Recibos}
    (h : c.simulateTxs amb height blockTs vistas txs s = .ok recibos s') :
    ∀ r ∈ recibos, ∃ tx ∈ txs, tx.id.getD "?" = r.1 := by
  induction txs generalizing vistas s s' recibos with
  | nil =>
    obtain ⟨rfl, rfl⟩ := pure_eq_ok.mp h
    intro r hr
    cases hr
  | cons tx txs ih =>
    rw [simulateTxs] at h
    obtain ⟨_, t, ht, h₁⟩ := bind_eq_ok.mp h
    obtain ⟨aplicada, t', -, h₂⟩ := bind_eq_ok.mp h₁
    obtain ⟨resto, t'', hresto, h₃⟩ := bind_eq_ok.mp h₂
    obtain ⟨rfl, rfl⟩ := pure_eq_ok.mp h₃
    intro r hr
    rcases List.mem_append.mp hr with hr | hr
    · obtain ⟨x, -, rfl⟩ := List.mem_map.mp hr
      exact ⟨tx, List.mem_cons_self, rfl⟩
    · obtain ⟨tx', htx', hid⟩ := ih hresto r hr
      exact ⟨tx', List.mem_cons_of_mem _ htx', hid⟩

theorem idsDe_eq_map (h : ∀ tx ∈ b.transactions, ∃ id, tx.id = some id) :
    idsDe b = b.transactions.map fun tx => tx.id.getD "?" := by
  unfold idsDe
  rw [← List.filterMap_eq_map]
  refine List.filterMap_congr fun tx htx => ?_
  obtain ⟨id, hid⟩ := h tx htx
  change tx.id = some (tx.id.getD "?")
  rw [hid, Option.getD_some]

/-- What the simulation of an accepted block says of the ids. -/
theorem Aceita.ids (henv : amb.verifyEavmEnvelope = verifyEavmEnvelope amb.cripto)
    {recibos : Recibos} {sim : State} (h : Aceita amb c now b recibos sim) :
    (∀ tx ∈ b.transactions, ∃ id, tx.id = some id) ∧ (idsDe b).Nodup ∧
      ∀ r ∈ recibos, r.1 ∈ idsDe b := by
  obtain ⟨blockTs, t, -, hsim⟩ := bind_eq_ok.mp h.simulado
  obtain ⟨rs, t', htxs, hsim⟩ := bind_eq_ok.mp hsim
  obtain ⟨_, t'', -, hfim⟩ := bind_eq_ok.mp hsim
  obtain ⟨rfl, -⟩ := pure_eq_ok.mp hfim
  have hcom : ∀ tx ∈ b.transactions, ∃ id, tx.id = some id := fun tx htx =>
    ⟨_, id_of_verifyTransaction henv (verificadas_of_simulateTxs htxs tx htx)⟩
  rw [idsDe_eq_map hcom]
  refine ⟨hcom, (distintas_of_simulateTxs htxs).1, fun r hr => ?_⟩
  obtain ⟨tx, htx, hid⟩ := recibos_of_simulateTxs htxs r hr
  exact List.mem_map.mpr ⟨tx, htx, hid⟩

theorem Unicas.aceita (h : Unicas bs) (hx : IndexaTxs c.txIndex bs)
    (henv : amb.verifyEavmEnvelope = verifyEavmEnvelope amb.cripto)
    {recibos : Recibos} {sim : State} (ha : Aceita amb c now b recibos sim) :
    Unicas (bs ++ [b]) := by
  obtain ⟨hcom, hnodup, -⟩ := ha.ids henv
  refine ⟨?_, ?_⟩
  · intro b' hb'
    rcases List.mem_append.mp hb' with hb' | hb'
    · exact h.comId b' hb'
    · exact List.mem_singleton.mp hb' ▸ hcom
  · rw [List.flatMap_append, List.flatMap_singleton]
    refine h.distintas.append hnodup fun id hid hid' => ?_
    obtain ⟨b', hb', hid⟩ := List.mem_flatMap.mp hid
    have hsome := (hx id b'.height).mpr ⟨b', hb', hid, rfl⟩
    rw [ha.ineditas id hid'] at hsome
    cases hsome

/-- The receipts after those of a block: one of its own, or an earlier one. -/
theorem get?_recibos {recibos : Recibos} {m : OrdMap String Recibo} {id : String} {r : Recibo}
    (h : (recibos.foldl (fun m r => m.insert r.1 (reciboDe b r.2)) m).get? id = some r) :
    (∃ x ∈ recibos, x.1 = id ∧ r.blockHeight = b.height) ∨ m.get? id = some r := by
  induction recibos generalizing m with
  | nil => exact .inr h
  | cons x recibos ih =>
    rcases ih h with ⟨y, hy, hid⟩ | h
    · exact .inl ⟨y, List.mem_cons_of_mem _ hy, hid⟩
    · rw [OrdMap.get?_insert] at h
      split_ifs at h with hx
      · cases h
        exact .inl ⟨x, List.mem_cons_self, hx.symm, rfl⟩
      · exact .inr h

theorem aceitar_receipts (sim : State) (recibos : Recibos) :
    (c.aceitar b sim recibos).receipts =
      recibos.foldl (fun m r => m.insert r.1 (reciboDe b r.2)) c.receipts := by
  simp only [aceitar, indexAddressTxs, registrarRecibos]

theorem aceitar_logIndex (sim : State) (recibos : Recibos) :
    (c.aceitar b sim recibos).logIndex = aparar (c.logIndex ++ recibos.flatMap fun r =>
      r.2.logs.map fun log => ⟨r.1, b.height, b.timestamp, log⟩) := by
  simp only [aceitar, indexAddressTxs, registrarRecibos]

theorem aceitar_internalIndex (sim : State) (recibos : Recibos) :
    (c.aceitar b sim recibos).internalIndex = aparar (c.internalIndex ++ recibos.flatMap fun r =>
      r.2.xfers.map fun x => ⟨r.1, b.height, b.timestamp, x⟩) := by
  simp only [aceitar, indexAddressTxs, registrarRecibos]

theorem Consultas.aceita (h : Consultas bs c)
    (henv : amb.verifyEavmEnvelope = verifyEavmEnvelope amb.cripto)
    {recibos : Recibos} {sim : State} (ha : Aceita amb c now b recibos sim) :
    Consultas (bs ++ [b]) (c.aceitar b sim recibos) := by
  obtain ⟨-, -, hids⟩ := ha.ids henv
  have hantes : bs ⊆ bs ++ [b] := fun x hx => List.mem_append_left _ hx
  have hdele : ∀ r ∈ recibos, Consta (bs ++ [b]) r.1 b.height b := fun r hr =>
    ⟨List.mem_append_right _ (List.mem_singleton_self b), rfl, hids r hr⟩
  refine ⟨fun id r hg => ?_, fun e he => ?_, fun x hx => ?_⟩
  · rw [aceitar_receipts] at hg
    rcases get?_recibos hg with ⟨x, hx, rfl, halt⟩ | hg
    · exact ⟨b, halt ▸ hdele x hx⟩
    · obtain ⟨b', hb'⟩ := h.recibos id r hg
      exact ⟨b', hb'.mono hantes⟩
  · rw [aceitar_logIndex] at he
    rcases List.mem_append.mp (mem_of_mem_aparar he) with he | he
    · obtain ⟨b', hb', ht⟩ := h.logs e he
      exact ⟨b', hb'.mono hantes, ht⟩
    · obtain ⟨r, hr, he⟩ := List.mem_flatMap.mp he
      obtain ⟨log, -, rfl⟩ := List.mem_map.mp he
      exact ⟨b, hdele r hr, rfl⟩
  · rw [aceitar_internalIndex] at hx
    rcases List.mem_append.mp (mem_of_mem_aparar hx) with hx | hx
    · obtain ⟨b', hb', ht⟩ := h.internas x hx
      exact ⟨b', hb'.mono hantes, ht⟩
    · obtain ⟨r, hr, hx⟩ := List.mem_flatMap.mp hx
      obtain ⟨xfer, -, rfl⟩ := List.mem_map.mp hx
      exact ⟨b, hdele r hr, rfl⟩

/-- A chain in memory takes the blocks one by one. -/
theorem anota_addBlocks (henv : amb.verifyEavmEnvelope = verifyEavmEnvelope amb.cripto)
    {novos : List Block} (hh : Historia amb base bs c) (hst : c.store = none)
    (hu : Unicas (base ++ bs).tail) (hq : Consultas bs c)
    (hrun : Blockchain.addBlocks amb now novos c = .ok () c') :
    Unicas (base ++ (bs ++ novos)).tail ∧ Consultas (bs ++ novos) c' := by
  induction novos generalizing bs c with
  | nil =>
    obtain ⟨-, rfl⟩ := pure_eq_ok.mp hrun
    rw [List.append_nil]
    exact ⟨hu, hq⟩
  | cons b novos ih =>
    obtain ⟨_, c₁, hadd, hresto⟩ := bind_eq_ok.mp hrun
    obtain ⟨recibos, sim, ha, rfl⟩ := addBlock_semDisco hst hadd
    rw [List.append_cons]
    refine ih (hh.aceita ha) hst ?_ (hq.aceita henv ha) hresto
    rw [← List.append_assoc, List.tail_append_of_ne_nil hh.nao_vazia]
    exact hu.aceita hh.txs henv ha

/-! ## Runs -/

/-- A coherent chain with its ids and its own indices. -/
structure Anotada (amb : Ambiente) (g : Block) (bs : List Block) (c : Blockchain) : Prop where
  coerente : Coerente amb g bs c
  unicas : Unicas bs
  consultas : Consultas bs c

section

variable {g : Block} {novos descartados : List Block} {cand : Blockchain}

theorem Anotada.soDisco (h : Anotada amb g bs c) (hd : SoDisco c c') : Anotada amb g bs c' :=
  ⟨h.coerente.soDisco hd, h.unicas, h.consultas.soDisco hd⟩

theorem Anotada.addBlock (henv : amb.verifyEavmEnvelope = verifyEavmEnvelope amb.cripto)
    (h : Anotada amb g bs c) (hadd : Blockchain.addBlock amb b now c = .ok () c') :
    Anotada amb g (bs ++ [b]) c' := by
  obtain ⟨recibos, sim, ha, hg⟩ := addBlock_ok hadd
  obtain ⟨c₁, hd, hslide⟩ := gravarBloco_ok hg
  refine ⟨h.coerente.addBlock hadd, h.unicas.aceita h.coerente.historia.txs henv ha, ?_⟩
  exact ((h.consultas.soDisco hd).aceita henv (ha.soDisco hd)).semJanela
    ((slideTail_runs amb _).ok hslide)

theorem anotada_of_adoptGenesis {fixado : Option String} {store : Option Disco} {loading : Bool}
    (h : adoptGenesis amb g (nova fixado store loading) = .ok () c) : Anotada amb g [] c := by
  refine ⟨adoptGenesis_ok h, ⟨fun _ hb => (List.not_mem_nil hb).elim, List.nodup_nil⟩, ?_⟩
  unfold adoptGenesis at h
  rw [get_bind_run] at h
  obtain ⟨estado, t, hconf, h₁⟩ := bind_eq_ok.mp h
  obtain ⟨-, rfl⟩ := conferir_eq_ok.mp hconf
  rw [modify_bind_run] at h₁
  obtain ⟨st, rfl⟩ := (noDisco_runs _ _ _).ok h₁
  exact consultas_vazias rfl rfl rfl

theorem adotar_logIndex (k : ℕ) : (c.adotar k descartados novos cand).logIndex =
    aparar ((c.logIndex.filter fun e => decide (e.blockHeight ≤ k)) ++ cand.logIndex) := by
  simp only [adotar]

theorem adotar_internalIndex (k : ℕ) : (c.adotar k descartados novos cand).internalIndex =
    aparar ((c.internalIndex.filter fun x => decide (x.blockHeight ≤ k)) ++
      cand.internalIndex) := by
  simp only [adotar]

/-- What is written of the kept blocks and of the new ones is of the new chain. -/
theorem Consultas.adota {k : ℕ} (h : Consultas (as ++ descartados) c)
    (hcorte : ∀ b ∈ descartados, k < b.height) (hcand : Consultas novos cand) :
    Consultas (as ++ novos) (c.adotar k descartados novos cand) := by
  have hmantidos : ∀ {id : String} {altura : ℕ} {b : Block}, altura ≤ k →
      Consta (as ++ descartados) id altura b → Consta (as ++ novos) id altura b := by
    rintro id altura b hle ⟨hb, halt, hid⟩
    refine ⟨List.mem_append_left _ ?_, halt, hid⟩
    rcases List.mem_append.mp hb with hb | hb
    · exact hb
    · have := hcorte b hb
      omega
  have hnovos : novos ⊆ as ++ novos := fun x hx => List.mem_append_right _ hx
  refine ⟨fun id r hg => ?_, fun e he => ?_, fun x hx => ?_⟩
  · change (cand.receipts.entries.foldl (fun m e => m.insert e.1 e.2)
      (c.receipts.filter fun _ r => decide (r.blockHeight ≤ k))).get? id = some r at hg
    rcases (OrdMap.get?_foldl_insert cand.receipts.nodup_keys _).mp hg with hg | ⟨-, hg⟩
    · obtain ⟨b, hb⟩ := hcand.recibos id r (OrdMap.mem_entries_iff.mp hg)
      exact ⟨b, hb.mono hnovos⟩
    · rw [OrdMap.get?_filter, Option.filter_eq_some_iff] at hg
      obtain ⟨b, hb⟩ := h.recibos id r hg.1
      exact ⟨b, hmantidos (of_decide_eq_true hg.2) hb⟩
  · rw [adotar_logIndex] at he
    rcases List.mem_append.mp (mem_of_mem_aparar he) with he | he
    · obtain ⟨he, hle⟩ := List.mem_filter.mp he
      obtain ⟨b, hb, ht⟩ := h.logs e he
      exact ⟨b, hmantidos (of_decide_eq_true hle) hb, ht⟩
    · obtain ⟨b, hb, ht⟩ := hcand.logs e he
      exact ⟨b, hb.mono hnovos, ht⟩
  · rw [adotar_internalIndex] at hx
    rcases List.mem_append.mp (mem_of_mem_aparar hx) with hx | hx
    · obtain ⟨hx, hle⟩ := List.mem_filter.mp hx
      obtain ⟨b, hb, ht⟩ := h.internas x hx
      exact ⟨b, hmantidos (of_decide_eq_true hle) hb, ht⟩
    · obtain ⟨b, hb, ht⟩ := hcand.internas x hx
      exact ⟨b, hb.mono hnovos, ht⟩

theorem candidato_consultas {k : ℕ} (h : c.candidato amb k = .ok cand) : Consultas bs cand := by
  unfold Blockchain.candidato at h
  obtain ⟨s, -, h⟩ := except_bind_eq_ok.mp h
  cases hb : c.getBlock k with
  | none =>
    rw [hb] at h
    cases h
  | some b =>
    rw [hb] at h
    cases h
    exact consultas_vazias rfl rfl rfl

/-- What a replacement keeps of the notes of a chain, and what it returns. -/
theorem Anotada.substituir (henv : amb.verifyEavmEnvelope = verifyEavmEnvelope amb.cripto)
    (h : Anotada amb g bs c) {common : ℤ} (hsub : Substitui amb c common novos now cand)
    {r : Reorg} (hrun : Blockchain.substituir amb common.toNat novos cand c = .ok r c') :
    Anotada amb g (bs.take common.toNat ++ novos) c' ∧
      r = .adotou (orfas (bs.drop common.toNat) cand.txIndex) ∧
      IndexaTxs cand.txIndex (bs.take common.toNat ++ novos) := by
  have hcoer := h.coerente.substituir hsub hrun
  have hk : common.toNat ≤ bs.length := by
    have := hsub.dentro
    have := h.coerente.height
    omega
  obtain ⟨c₀, hc₀, hadd⟩ := experimentar_eq_ok hsub.aceitos
  obtain ⟨hts, hst, hh₀⟩ := h.coerente.candidato hk hc₀
  have hpartes : bs.take common.toNat ++ bs.drop common.toNat = bs := List.take_append_drop _ _
  have hmantidas : Unicas (bs.take common.toNat) := by
    refine ⟨fun b hb => h.unicas.comId b (List.mem_of_mem_take hb), ?_⟩
    have := h.unicas.distintas
    rw [← hpartes, List.flatMap_append] at this
    exact this.of_append_left
  have hantes : Unicas (g :: bs.take common.toNat ++ []).tail := by
    rwa [List.append_nil, List.tail_cons]
  obtain ⟨hu, hq⟩ := anota_addBlocks henv hh₀ hst hantes (candidato_consultas hc₀) hadd
  have hh := hh₀.addBlocks hst hadd
  rw [List.nil_append] at hu hq hh
  obtain ⟨hr, c₁, hd, hslide⟩ := substituir_ok hrun
  have hdesc : c.tail.drop (common.toNat + 1 - c.tailStart) = bs.drop common.toNat := by
    rw [h.coerente.janela.tail, List.drop_drop,
      show c.tailStart + (common.toNat + 1 - c.tailStart) = common.toNat + 1 by omega,
      List.drop_succ_cons]
  rw [hdesc] at hr hslide
  refine ⟨⟨hcoer, hu, ?_⟩, hr, hh.txs⟩
  have hvelhas : Consultas (bs.take common.toNat ++ bs.drop common.toNat) c₁ := by
    rw [hpartes]
    obtain ⟨st, rfl⟩ := hd
    exact h.consultas.congr rfl rfl rfl
  exact (hvelhas.adota (h.coerente.blocos_split common.toNat).2 hq).semJanela
    ((slideTail_runs amb _).ok hslide)

theorem continuada_anotada (henv : amb.verifyEavmEnvelope = verifyEavmEnvelope amb.cripto)
    (g : Block) : Continuada amb now (Anotada amb g) :=
  ⟨fun hn hadd => hn.addBlock henv hadd, fun store loading hn =>
    ⟨hn.coerente.comDisco store loading, hn.unicas, hn.consultas.congr rfl rfl rfl⟩⟩

/-- Every instance in use keeps its notes. -/
theorem anotada_of_instancia (henv : amb.verifyEavmEnvelope = verifyEavmEnvelope amb.cripto)
    {blocos : List Block} (h : Instancia amb blocos c) :
    ∃ g bs, blocos = g :: bs ∧ Anotada amb g bs c := by
  induction h with
  | genese h => exact ⟨_, [], rfl, anotada_of_adoptGenesis h⟩
  | carregada h hg =>
    obtain ⟨-, g, bs, hn, hlinhas⟩ := loadFromDisk_mantem (continuada_anotada henv)
      (fun g c₁ hadota => anotada_of_adoptGenesis hadota) (fun hn => hn.coerente) h hg
    exact ⟨g, bs, hlinhas, hn⟩
  | aceita hc h ih =>
    obtain ⟨g, bs, rfl, hn⟩ := ih
    exact ⟨g, _, rfl, hn.addBlock henv h⟩
  | produz hc h ih =>
    obtain ⟨g, bs, rfl, hn⟩ := ih
    exact ⟨g, _, rfl, hn.addBlock henv (addBlock_of_produceBlock h)⟩
  | recusa hc h ih =>
    obtain ⟨g, bs, hblocos, hn⟩ := ih
    exact ⟨g, bs, hblocos, hn.soDisco (addBlock_erro h ⟨_, rfl⟩)⟩
  | adota hc h ih =>
    obtain ⟨g, bs, rfl, hn⟩ := ih
    obtain ⟨cand, hsub, hrun⟩ := reorg_adotou h
    refine ⟨g, _, ?_, (hn.substituir henv hsub hrun).1⟩
    rw [List.take_succ_cons, List.cons_append]

end

/-! ## What a reorganisation returns -/

/-- The transactions of the discarded blocks that the chain does not have, each once, in
chain order. -/
structure OrfasExatas (descartados cadeia : List Block) (orfas : List Tx) : Prop where
  ordem : orfas.Sublist (descartados.flatMap (·.transactions))
  umaVez : (orfas.map (·.id)).Nodup
  faltantes : ∀ tx ∈ descartados.flatMap (·.transactions),
    tx ∈ orfas ↔ ∀ u ∈ cadeia.flatMap (·.transactions), u.id ≠ tx.id

theorem Unicas.ids (h : Unicas bs) :
    (bs.flatMap (·.transactions)).map (·.id) = (bs.flatMap idsDe).map some := by
  rw [List.map_flatMap, List.map_flatMap]
  refine List.flatMap_congr fun b hb => ?_
  rw [idsDe_eq_map (h.comId b hb), List.map_map]
  refine List.map_congr_left fun tx htx => ?_
  obtain ⟨id, hid⟩ := h.comId b hb tx htx
  change tx.id = some (tx.id.getD "?")
  rw [hid, Option.getD_some]

theorem orfasExatas_of_indexa {descartados cadeia : List Block} {m : OrdMap String ℕ}
    (hu : Unicas descartados) (hx : IndexaTxs m cadeia) :
    OrfasExatas descartados cadeia (orfas descartados m) := by
  refine ⟨List.filter_sublist, ?_, fun tx htx => ?_⟩
  · have hnodup : ((descartados.flatMap (·.transactions)).map (·.id)).Nodup := by
      rw [hu.ids]
      exact hu.distintas.map (Option.some_injective _)
    exact hnodup.sublist (List.filter_sublist.map _)
  · obtain ⟨b, hb, htxb⟩ := List.mem_flatMap.mp htx
    obtain ⟨id, hid⟩ := hu.comId b hb tx htxb
    have hfora : m.contains id = false ↔ ∀ u ∈ cadeia.flatMap (·.transactions), u.id ≠ some id := by
      rw [OrdMap.contains_eq_false, Option.eq_none_iff_forall_ne_some]
      constructor
      · intro hn u hmem huid
        obtain ⟨b', hb', hub⟩ := List.mem_flatMap.mp hmem
        exact hn b'.height ((hx id _).mpr ⟨b', hb', List.mem_filterMap.mpr ⟨u, hub, huid⟩, rfl⟩)
      · intro hn n hm
        obtain ⟨b', hb', hidb, -⟩ := (hx id n).mp hm
        obtain ⟨u, hub, huid⟩ := List.mem_filterMap.mp hidb
        exact hn u (List.mem_flatMap.mpr ⟨b', hb', hub⟩) huid
    unfold orfas
    rw [List.mem_filter, hid, Option.getD_some, Bool.not_eq_true', hfora]
    exact and_iff_right htx

/-- An adopted reorganisation returns exactly the transactions of the discarded blocks that
no new block above the genesis has, and keeps no entry of a block that left the chain. -/
theorem reorg_orfas (henv : amb.verifyEavmEnvelope = verifyEavmEnvelope amb.cripto) {g : Block}
    (h : Instancia amb (g :: bs) c) {common : ℤ} {novos : List Block} {orfas : List Tx}
    (hrun : reorg amb common novos now c = .ok (.adotou orfas) c') :
    OrfasExatas (bs.drop common.toNat) (bs.take common.toNat ++ novos) orfas ∧
      Consultas (bs.take common.toNat ++ novos) c' := by
  obtain ⟨_, _, hblocos, hn⟩ := anotada_of_instancia henv h
  cases hblocos
  obtain ⟨cand, hsub, hsubst⟩ := reorg_adotou hrun
  obtain ⟨hnova, hr, hx⟩ := hn.substituir henv hsub hsubst
  cases hr
  refine ⟨orfasExatas_of_indexa ?_ hx, hnova.consultas⟩
  refine ⟨fun b hb => hn.unicas.comId b (List.mem_of_mem_drop hb), ?_⟩
  have := hn.unicas.distintas
  rw [← List.take_append_drop common.toNat bs, List.flatMap_append] at this
  exact this.of_append_right

end

/-! ## A genesis with a transaction -/

/-- The genesis of the trio with the first transaction of account A in it. -/
def geneseComComissao : Block := geneseCom criptoIdeal alocacoesTrio [comissaoDeA]

def hashGeneseComComissao : String :=
  "7bb0f3191552936c3dec353b997f0ea6397a75470835b45e61a35676c878115c"

instance hash_geneseComComissao : Fact (geneseComComissao.hash = hashGeneseComComissao) where
  out := by
    have hintegra := geneseCom_integra criptoIdeal alocacoesTrio [comissaoDeA]
    rw [geneseComComissao, hash_of_integrity hintegra]
    refine (criptoIdeal.eavHashOne_canonicalJson geneseComComissao.core).trans ?_
    unfold geneseComComissao comissaoDeA
    rw [criptoIdeal_eq]
    decide +kernel

def cadeiaComComissao : Blockchain :=
  cadeiaDe ambienteComEnvelope alocacoesTrio [comissaoDeA] estadoTrio

theorem estadoGenese_comComissao : estadoGenese criptoIdeal geneseComComissao = .ok estadoTrio := by
  rw [← estadoGenese_trio]
  unfold geneseComComissao
  simp only [estadoGenese, alocacoesDe, geneseCom]

theorem instancia_comComissao :
    Instancia ambienteComEnvelope [geneseComComissao] cadeiaComComissao :=
  .genese (adoptGenesis_geneseCom rfl rfl estadoGenese_comComissao)

theorem coerente_comComissao :
    Coerente ambienteComEnvelope geneseComComissao [] cadeiaComComissao :=
  coerente_comGenese rfl estadoGenese_comComissao

theorem pronta_comComissao : Pronta ambienteComEnvelope trio 0 cadeiaComComissao := by
  have hhash : isValidHash geneseComComissao.hash = true := digere_ideal.eavHash _
  refine ⟨rfl, rfl, ⟨_, rfl, rfl, hhash⟩, parado_trio, validators_trio, ?_⟩
  intro p _ ks hks
  cases hks

/-- What a simulation reads of the block that repeats the transaction. -/
def blocoRepetido : Block := { blocoDaComissao with previousHash := hashGeneseComComissao }

def estadoAntesDoRepetido : State := fim (abreBloco blocoRepetido) estadoTrio

def estadoDoRepetido : State :=
  fim (fechaBloco blocoRepetido) <| depoisDe (fim (manipulador ambienteComEnvelope comissaoDeA
    ⟨1, 3000, 0⟩ .setCommission) estadoAntesDoRepetido) comissaoDeA 1 1 cotaDaComissao 0

instance repetido_pronta : Fact (pronta ambienteComEnvelope (chaveIdeal 0) enderecoA camposComissao
    .setCommission estadoAntesDoRepetido 1 3000 1 cotaDaComissao 0 = true ∧
    conclui (fechaBloco blocoRepetido) (depoisDe (fim (manipulador ambienteComEnvelope comissaoDeA
      ⟨1, 3000, 0⟩ .setCommission) estadoAntesDoRepetido) comissaoDeA 1 1 cotaDaComissao 0) =
      true ∧
    (criptoIdeal.stateLeaves estadoDoRepetido).isOk = true ∧
    (estadoDoRepetido.validators.toOption.map List.length) = some 3) where
  out := by decide +kernel

theorem simulate_repetido : ∃ recibos, cadeiaComComissao.simulate ambienteComEnvelope
    (esboco ambienteComEnvelope (assinanteDe (chaveIdeal 0)) enderecoA geneseComComissao
      [comissaoDeA] (inicioDoSlot 3) none) estadoTrio = .ok recibos estadoDoRepetido := by
  obtain ⟨hpronta, hfecha, -, -⟩ := repetido_pronta.out
  have haceita := aceita_de_pronta (trio_capaz _ List.mem_cons_self) digere_ideal hpronta
  obtain ⟨⟨⟩, hfecha⟩ := conclui_iff.mp hfecha
  cases haceita with
  | transacao hv haplica =>
    have hum := simulate_um (c := cadeiaComComissao) (b := blocoRepetido) (s := estadoTrio) rfl rfl
      hv rfl haplica hfecha
    have hmesmo : cadeiaComComissao.simulate ambienteComEnvelope (esboco ambienteComEnvelope
        (assinanteDe (chaveIdeal 0)) enderecoA geneseComComissao [comissaoDeA] (inicioDoSlot 3)
        none) = cadeiaComComissao.simulate ambienteComEnvelope blocoRepetido := by
      refine simulate_mesmo ⟨rfl, rfl, hash_geneseComComissao.out, rfl⟩ ?_
      unfold Block.validator esboco blocoRepetido blocoDaComissao
      rfl
    exact ⟨_, (congrFun hmesmo estadoTrio).trans hum⟩

/-- A chain whose first block repeats the transaction of the genesis. -/
theorem cadeia_do_repetido : ∃ b c, produceBlock ambienteComEnvelope (assinanteDe (chaveIdeal 0))
      [comissaoDeA] (inicioDoSlot 3) none (10 ^ 9) cadeiaComComissao = .ok b c ∧
    c.store = none ∧ c.tailStart = 0 ∧ c.state = estadoDoRepetido ∧
    b.transactions = [comissaoDeA] := by
  obtain ⟨recibos, hsim⟩ := simulate_repetido
  obtain ⟨raiz, hraiz⟩ : ∃ raiz, criptoIdeal.stateRootOf estadoDoRepetido = .ok raiz := by
    unfold Cripto.stateRootOf
    cases hfolhas : criptoIdeal.stateLeaves estadoDoRepetido with
    | ok folhas => exact ⟨_, rfl⟩
    | error e =>
      have hok := repetido_pronta.out.2.2.1
      rw [hfolhas] at hok
      cases hok
  obtain ⟨b, hprod, -, hb⟩ := (pronta_comComissao.apta (by decide)).produz
    pronta_comComissao.semDisco digere_ideal 3 (u := geneseComComissao) rfl
    (trio_capaz _ List.mem_cons_self) List.mem_cons_self rfl (by decide) (by decide)
    (le_refl (10 ^ 9 : ℤ)) (by decide) (by decide) hsim hraiz
  exact ⟨b, _, hprod, aceitar_store _ _ _, aceitar_tailStart _ _ _, rfl, hb.txs⟩

theorem transacoes_of_produceBlock {amb : Ambiente} {c c' : Blockchain} {b : Block}
    {signer : BlockSigner} {txs : List Tx} {timestamp now : ℤ} {producerAccount : Option String}
    (h : produceBlock amb signer txs timestamp producerAccount now c = .ok b c') :
    b.transactions = txs := by
  obtain ⟨recibos, sim, hmonta, -⟩ := produceBlock_ok h
  obtain ⟨cabeca, raiz, omitidas, -, -, hb⟩ := montarBloco_ok hmonta
  exact (buildBlock_campos hb).1.2.2.2

theorem turno_do_trio (slot : ℕ) : trio[slot % trio.length]? = some
    (trio.get ⟨slot % trio.length, Nat.mod_lt _ (by decide)⟩) :=
  List.getElem?_eq_getElem _

/-- Two empty blocks go on from a ready chain of the trio. -/
theorem dois_vazios {c : Blockchain} (h : Pronta ambienteComEnvelope trio 0 c)
    (hcab : ∀ u, c.head = some u → slotFor u.timestamp < 4) :
    ∃ x y cand, Cresceu ambienteComEnvelope trio (10 ^ 9) [4, 5] 0 c [x, y] cand ∧
      x.transactions = [] ∧ y.transactions = [] := by
  obtain ⟨x, c₁, hx, hpronta₁, hturno₁⟩ := h.produz digere_ideal trio_capaz trio_distinto
    (turno_do_trio 4) (by decide) (by decide) (by decide) (le_refl (10 ^ 9 : ℤ)) hcab
  have hcab₁ : ∀ u, c₁.head = some u → slotFor u.timestamp < (5 : ℕ) := by
    intro u hu
    obtain ⟨sim, rfl⟩ := hturno₁.cadeia
    obtain rfl : x = u := Option.some.inj ((aceitar_head x sim []).symm.trans hu)
    rw [hturno₁.instante, slotFor_inicioDoSlot]
    decide
  obtain ⟨y, c₂, hy, hpronta₂, hturno₂⟩ := hpronta₁.produz digere_ideal trio_capaz trio_distinto
    (turno_do_trio 5) (by decide) (by decide) (by decide) (le_refl (10 ^ 9 : ℤ)) hcab₁
  refine ⟨x, y, c₂, ⟨hpronta₂, ?_, ?_, ?_, ?_, ?_⟩, transacoes_of_produceBlock hx,
    transacoes_of_produceBlock hy⟩
  · refine bind_eq_ok.mpr ⟨(), c₁, addBlock_of_produceBlock hx, ?_⟩
    exact bind_eq_ok.mpr ⟨(), c₂, addBlock_of_produceBlock hy, rfl⟩
  · obtain ⟨sim, rfl⟩ := hturno₁.cadeia
    obtain ⟨sim', rfl⟩ := hturno₂.cadeia
    rw [aceitar_tail, aceitar_tail, List.append_assoc]
    rfl
  · obtain ⟨sim, rfl⟩ := hturno₁.cadeia
    obtain ⟨sim', rfl⟩ := hturno₂.cadeia
    rw [aceitar_tailStart, aceitar_tailStart]
  · rw [List.map_cons, List.map_cons, hturno₁.instante, hturno₂.instante]
    rfl
  · rw [List.map_cons, List.map_cons, hturno₁.produtor, hturno₂.produtor]
    rfl

/-- A reorganisation from the genesis that discards the repeated transaction. -/
theorem reorg_do_repetido : ∃ b c x y cand orfas c',
    Anotada ambienteComEnvelope geneseComComissao [b] c ∧
    Instancia ambienteComEnvelope [geneseComComissao, b] c ∧ b.transactions = [comissaoDeA] ∧
    Substitui ambienteComEnvelope c 0 [x, y] (10 ^ 9) cand ∧
    reorg ambienteComEnvelope 0 [x, y] (10 ^ 9) c = .ok (.adotou orfas) c' ∧
    x.transactions = [] ∧ y.transactions = [] := by
  obtain ⟨b, c, hprod, hst, hts, hstate, htxs⟩ := cadeia_do_repetido
  have hinst : Instancia ambienteComEnvelope [geneseComComissao, b] c :=
    instancia_comComissao.produz hprod
  obtain ⟨_, _, hblocos, hn⟩ := anotada_of_instancia (by rfl) hinst
  cases hblocos
  have hcoerente : Coerente ambienteComEnvelope geneseComComissao ([] ++ [b]) c := hn.coerente
  obtain ⟨c₀, hcand, hpronta, hcab, -⟩ := Pronta.candidato pronta_comComissao
    coerente_comComissao hcoerente hts.le
  obtain ⟨x, y, cand, hcres, hx, hy⟩ := dois_vazios hpronta (by
    rw [hcab]
    rintro u ⟨⟩
    decide)
  have hpode : c.podeReorganizar ((0 : ℕ) : ℤ) = .ok () := by
    obtain ⟨vs, hvs, hlen⟩ := Option.map_eq_some_iff.mp repetido_pronta.out.2.2.2
    have hvs : c.state.validators = .ok vs := by
      rw [hstate]
      cases hv : estadoDoRepetido.validators with
      | ok ws =>
        rw [hv] at hvs
        exact congrArg _ (Option.some.inj hvs)
      | error e =>
        rw [hv] at hvs
        cases hvs
    refine podeReorganizar_of_final (finalizedHeight_curto hvs ?_) (by decide) ?_
    · rw [hn.coerente.height, hlen, List.length_singleton]
      decide
    · rw [hts]
      decide
  have hsub := substitui_of_cresceu hcoerente hpode hcand hcres (Nat.lt_succ_self 1)
  exact ⟨b, c, x, y, cand, _, _, hn, hinst, htxs, hsub,
    (reorg_of_substitui hsub).trans (substituir_semDisco hst 0), hx, hy⟩

/-- The discarded transaction comes back, and nothing is kept of its block. -/
theorem comissao_devolvida : ∃ b x y orfas c', b.transactions = [comissaoDeA] ∧
    OrfasExatas [b] [x, y] orfas ∧ comissaoDeA ∈ orfas ∧ Consultas [x, y] c' := by
  obtain ⟨b, c, x, y, cand, orfas, c', -, hinst, htxs, -, hrun, hx, hy⟩ := reorg_do_repetido
  obtain ⟨hexatas, hq⟩ := reorg_orfas (by rfl) hinst hrun
  refine ⟨b, x, y, orfas, c', htxs, hexatas, (hexatas.faltantes comissaoDeA ?_).mpr ?_, hq⟩
  · simp [htxs]
  · simp [hx, hy]

/-- A transaction of the genesis is in no index, so it comes back as an orphan of the new
chain that still has it. -/
theorem orfa_da_genese : ¬ ∀ (amb : Ambiente) (g : Block) (bs novos : List Block)
    (c c' : Blockchain) (common now : ℤ) (orfas : List Tx),
    amb.verifyEavmEnvelope = verifyEavmEnvelope amb.cripto → Instancia amb (g :: bs) c →
    reorg amb common novos now c = .ok (.adotou orfas) c' →
    OrfasExatas (bs.drop common.toNat) (g :: (bs.take common.toNat ++ novos)) orfas ∧
      Consultas (g :: (bs.take common.toNat ++ novos)) c' := by
  intro h
  obtain ⟨b, c, x, y, cand, orfas, c', hn, hinst, htxs, hsub, hrun, hx, hy⟩ := reorg_do_repetido
  have hdevolve := (h ambienteComEnvelope _ _ _ _ _ _ _ _ rfl hinst hrun).1.faltantes comissaoDeA
  obtain ⟨-, hr, hindexa⟩ := hn.substituir (by rfl) hsub
    ((reorg_of_substitui hsub).symm.trans hrun)
  cases hr
  have hmem : comissaoDeA ∈ [b].flatMap (·.transactions) := by
    rw [List.flatMap_singleton, htxs]
    exact List.mem_singleton_self _
  have horfa := ((orfasExatas_of_indexa hn.unicas hindexa).faltantes comissaoDeA hmem).mpr (by
    simp [hx, hy])
  exact (hdevolve hmem).mp horfa comissaoDeA (List.mem_flatMap.mpr
    ⟨geneseComComissao, List.mem_cons_self, List.mem_singleton_self _⟩) rfl

end Eav7.Blockchain
