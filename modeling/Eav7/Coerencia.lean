import Eav7.Operacoes

/-!
# Coherence over whole runs

The window, the state anchor, the state and every index of the chain describe
one list of blocks, whatever sequence of calls led there.
-/

namespace Eav7.Blockchain

open Base

/-- The window is the end of the history, and the anchor the state right below it. -/
structure Janela (amb : Ambiente) (blocos : List Block) (c : Blockchain) : Prop where
  tail : c.tail = blocos.drop c.tailStart
  dentro : c.tailStart < blocos.length
  semAncora : c.baseState = none → c.tailStart = 0
  ancora : ∀ s, c.baseState = some s →
    0 < c.tailStart ∧ replay amb (blocos.take c.tailStart) = .ok s

/-- The chain in memory stands for the blocks `genese :: bs`. -/
structure Coerente (amb : Ambiente) (genese : Block) (bs : List Block) (c : Blockchain) :
    Prop where
  historia : Historia amb [genese] bs c
  janela : Janela amb (genese :: bs) c

section

variable {amb : Ambiente} {blocos : List Block} {c c' : Blockchain}

theorem replay_singleton (g : Block) : replay amb [g] = estadoGenese amb.cripto g := by
  rw [replay]
  cases estadoGenese amb.cripto g <;> rfl

theorem replay_take_succ {s base : State} (hr : replay amb blocos = .ok s) {n : ℕ} (hn : 0 < n)
    (hbase : replay amb (blocos.take n) = .ok base) (hlt : n < blocos.length) :
    ∃ t, estadoDepois amb base blocos[n] = .ok t ∧ replay amb (blocos.take (n + 1)) = .ok t := by
  obtain ⟨t, ht, -⟩ := replay_take hr (Nat.succ_pos n)
  refine ⟨t, ?_, ht⟩
  have hne : blocos.take n ≠ [] := by
    intro hc
    have := congrArg List.length hc
    rw [List.length_take, List.length_nil] at this
    omega
  rw [← List.take_append_getElem hlt, replay_append hne, hbase] at ht
  change reaplicar amb base [blocos[n]] = _ at ht
  rwa [reaplicar_singleton] at ht

theorem Janela.head (hj : Janela amb blocos c) : c.head = blocos.getLast? := by
  unfold Blockchain.head
  rw [hj.tail, List.getLast?_drop, if_neg (by have := hj.dentro; omega)]

theorem Janela.tail_length (hj : Janela amb blocos c) :
    c.tail.length = blocos.length - c.tailStart := by
  rw [hj.tail, List.length_drop]

theorem Janela.novaAncora (hj : Janela amb blocos c) (hlt : c.tailStart < blocos.length) {s : State}
    (hr : replay amb blocos = .ok s) : ∃ t, c.novaAncora amb blocos[c.tailStart] = .ok t ∧
      replay amb (blocos.take (c.tailStart + 1)) = .ok t := by
  unfold Blockchain.novaAncora
  cases hb : c.baseState with
  | none =>
    have hz := hj.semAncora hb
    obtain ⟨t, ht, -⟩ := replay_take hr Nat.one_pos
    refine ⟨t, ?_, by rw [hz]; exact ht⟩
    have hg : blocos.take 1 = [blocos[c.tailStart]] := by
      cases blocos with
      | nil => simp at hlt
      | cons g bs => simp [hz]
    rw [hg, replay_singleton] at ht
    simpa only [hz, if_true] using ht
  | some base =>
    obtain ⟨hpos, hbase⟩ := hj.ancora base hb
    exact replay_take_succ hr hpos hbase hlt

theorem Janela.evict (hj : Janela amb blocos c) {s : State} (hr : replay amb blocos = .ok s)
    (hlt : c.tailStart + 1 < blocos.length) :
    ∃ c', evictOldest amb c = .ok () c' ∧ Janela amb blocos c' ∧
      c'.tailStart = c.tailStart + 1 ∧ c'.semJanela = c.semJanela := by
  obtain ⟨t, hbase, hrep⟩ := hj.novaAncora hj.dentro hr
  have htail : c.tail = blocos[c.tailStart] :: blocos.drop (c.tailStart + 1) := by
    rw [hj.tail]
    exact List.drop_eq_getElem_cons hj.dentro
  refine ⟨_, evictOldest_run htail hbase, ⟨rfl, hlt, ?_, ?_⟩, rfl, rfl⟩
  · intro hc
    cases hc
  · rintro s' ⟨⟩
    exact ⟨Nat.succ_pos _, hrep⟩

theorem Janela.evictar (hj : Janela amb blocos c) {s : State} (hr : replay amb blocos = .ok s)
    {n : ℕ} (hn : c.tailStart + n < blocos.length) :
    ∃ c', Blockchain.evictar amb n c = .ok () c' ∧ Janela amb blocos c' ∧
      c'.tailStart = c.tailStart + n ∧ c'.semJanela = c.semJanela := by
  induction n generalizing c with
  | zero => exact ⟨c, rfl, hj, rfl, rfl⟩
  | succ n ih =>
    obtain ⟨c₁, hrun, hj₁, hts, hsem⟩ := hj.evict hr (by omega)
    obtain ⟨c₂, hrun₂, hj₂, hts₂, hsem₂⟩ := ih hj₁ (by omega)
    refine ⟨c₂, bind_eq_ok.mpr ⟨(), c₁, hrun, hrun₂⟩, hj₂, by omega, hsem₂.trans hsem⟩

/-- How far the window moves: only a chain with a disk moves it, and only to its limit. -/
def inicioJanela (c : Blockchain) : ℕ :=
  if c.store.isSome then c.tailStart + c.excesso else c.tailStart

theorem Janela.slide (hj : Janela amb blocos c) {s : State} (hr : replay amb blocos = .ok s) :
    ∃ c', slideTail amb c = .ok () c' ∧ Janela amb blocos c' ∧
      c'.tailStart = c.inicioJanela ∧ c'.semJanela = c.semJanela := by
  unfold slideTail inicioJanela
  rw [get_bind_run]
  have hex : c.tailStart + c.excesso < blocos.length := by
    have hd := hj.dentro
    have hl := hj.tail_length
    have hlim : 0 < limiteJanela := by decide
    unfold excesso
    omega
  by_cases hst : c.store.isSome
  · rw [if_pos hst, if_pos hst]
    exact hj.evictar hr hex
  · rw [if_neg hst, if_neg hst]
    exact ⟨c, rfl, hj, rfl, rfl⟩

end

/-! ## The window does not matter to the history -/

section

variable {amb : Ambiente} {base bs : List Block} {g : Block} {c c' : Blockchain}

theorem Historia.congr (h : Historia amb base bs c) (hsem : c'.semJanela = c.semJanela)
    (hcab : c'.head = c.head) : Historia amb base bs c' := by
  have hst : c'.state = c.state := congrArg (·.state) hsem
  have htx : c'.txIndex = c.txIndex := congrArg (·.txIndex) hsem
  have hbw : c'.blocksWithTxs = c.blocksWithTxs := congrArg (·.blocksWithTxs) hsem
  have had : c'.addressTxIndex = c.addressTxIndex := congrArg (·.addressTxIndex) hsem
  exact ⟨hcab.trans h.cabeca, h.encadeada, hst ▸ h.estado, htx ▸ h.txs, hbw ▸ h.comTxs,
    had ▸ h.enderecos⟩

theorem Coerente.soDisco (h : Coerente amb g bs c) (hd : SoDisco c c') : Coerente amb g bs c' := by
  obtain ⟨st, rfl⟩ := hd
  exact ⟨⟨h.historia.cabeca, h.historia.encadeada, h.historia.estado, h.historia.txs,
    h.historia.comTxs, h.historia.enderecos⟩,
    ⟨h.janela.tail, h.janela.dentro, h.janela.semAncora, h.janela.ancora⟩⟩

theorem Aceita.soDisco {now : ℤ} {block : Block} {recibos : Recibos} {sim : State}
    (ha : Aceita amb c now block recibos sim) (hd : SoDisco c c') :
    Aceita amb c' now block recibos sim := by
  obtain ⟨st, rfl⟩ := hd
  have htx : Blockchain.txIndex { c with store := st } = c.txIndex := rfl
  exact ⟨ha.conferido, (congrFun (simulate_congr htx block) c.state).trans ha.simulado⟩

/-- A chain that is coherent but for a window still to be moved becomes coherent. -/
theorem coerente_of_slide (hh : Historia amb [g] bs c) (hj : Janela amb (g :: bs) c)
    (hs : slideTail amb c = .ok () c') : Coerente amb g bs c' := by
  obtain ⟨c₁, hrun, hj₁, -, hsem⟩ := hj.slide hh.estado
  rw [hrun] at hs
  cases hs
  exact ⟨hh.congr hsem (hj₁.head.trans hj.head.symm), hj₁⟩

theorem Coerente.height (h : Coerente amb g bs c) : c.height = bs.length := by
  have hlast := h.historia.cabeca
  have hidx : ([g] ++ bs)[bs.length]? = c.head := by
    rw [hlast, List.getLast?_eq_getElem?]
    simp
  unfold Blockchain.height
  cases hu : c.head with
  | none =>
    rw [hu] at hidx
    have := List.getElem?_eq_none_iff.mp hidx
    simp at this
  | some u =>
    rw [hu] at hidx
    simp [h.historia.encadeada.altura hidx]

theorem Coerente.getBlock (h : Coerente amb g bs c) {k : ℕ} (hk : c.tailStart ≤ k)
    (hle : k ≤ bs.length) : c.getBlock k = (g :: bs)[k]? := by
  unfold Blockchain.getBlock
  rw [h.height, if_neg (by omega), h.janela.tail, List.getElem?_drop]
  congr 1
  omega

/-- An accepted block leaves a chain that is coherent but for a window still to be moved. -/
theorem Coerente.aceita (h : Coerente amb g bs c) {now : ℤ} {block : Block} {recibos : Recibos}
    {sim : State} (ha : Aceita amb c now block recibos sim) :
    Historia amb [g] (bs ++ [block]) (c.aceitar block sim recibos) ∧
      Janela amb (g :: (bs ++ [block])) (c.aceitar block sim recibos) := by
  refine ⟨h.historia.aceita ha, ?_, ?_, h.janela.semAncora, ?_⟩
  · change c.tail ++ [block] = (g :: bs ++ [block]).drop c.tailStart
    rw [List.drop_append_of_le_length h.janela.dentro.le, h.janela.tail]
  · change c.tailStart < (g :: bs ++ [block]).length
    have := h.janela.dentro
    rw [List.length_append]
    omega
  · intro s hs
    obtain ⟨hpos, hrep⟩ := h.janela.ancora s hs
    refine ⟨hpos, ?_⟩
    change replay amb ((g :: bs ++ [block]).take c.tailStart) = _
    rw [List.take_append_of_le_length h.janela.dentro.le]
    exact hrep

theorem Coerente.gravar (h : Coerente amb g bs c) {now : ℤ} {block : Block} {recibos : Recibos}
    {sim : State} (ha : Aceita amb c now block recibos sim)
    (hg : gravarBloco amb block sim recibos c = .ok () c') : Coerente amb g (bs ++ [block]) c' := by
  obtain ⟨c₁, hd, hslide⟩ := gravarBloco_ok hg
  obtain ⟨hh, hj⟩ := (h.soDisco hd).aceita (ha.soDisco hd)
  exact coerente_of_slide hh hj hslide

theorem Coerente.addBlock (h : Coerente amb g bs c) {now : ℤ} {block : Block}
    (hrun : Blockchain.addBlock amb block now c = .ok () c') :
    Coerente amb g (bs ++ [block]) c' := by
  obtain ⟨recibos, sim, ha, hg⟩ := addBlock_ok hrun
  exact h.gravar ha hg

theorem Coerente.addBlocks {now : ℤ} {novos : List Block} (h : Coerente amb g bs c)
    (hrun : Blockchain.addBlocks amb now novos c = .ok () c') :
    Coerente amb g (bs ++ novos) c' := by
  induction novos generalizing bs c with
  | nil =>
    obtain ⟨-, rfl⟩ := pure_eq_ok.mp hrun
    rwa [List.append_nil]
  | cons b novos ih =>
    obtain ⟨_, c₁, hadd, hresto⟩ := bind_eq_ok.mp hrun
    rw [List.append_cons]
    exact ih (h.addBlock hadd) hresto

/-- What an acceptance writes to the indices of hashes and keys. -/
theorem gravarBloco_indices {block : Block} {recibos : Recibos} {sim : State}
    (hg : gravarBloco amb block sim recibos c = .ok () c') :
    c'.hashIndex = c.hashIndex.insert block.hash block.height ∧
      c'.producerKeys = lembraChaves block c.producerKeys := by
  obtain ⟨c₁, ⟨st, rfl⟩, hslide⟩ := gravarBloco_ok hg
  have hsem := (slideTail_runs amb _).ok hslide
  exact ⟨congrArg (·.hashIndex) hsem, congrArg (·.producerKeys) hsem⟩

end
/-! ## Reorganisation -/

section

variable {amb : Ambiente} {base bs novos : List Block} {g : Block} {c c' cand : Blockchain}

/-- The state at the fork is the replay of the blocks up to it. -/
theorem Coerente.forkState (h : Coerente amb g bs c) {k : ℕ} (hts : c.tailStart ≤ k) {s : State}
    (hs : c.forkState amb k = .ok s) : replay amb ((g :: bs).take (k + 1)) = .ok s := by
  unfold Blockchain.forkState at hs
  rw [if_neg (by omega)] at hs
  by_cases hz : c.tailStart = 0
  · rw [if_pos hz, h.janela.tail, hz] at hs
    exact hs
  · rw [if_neg hz] at hs
    obtain ⟨b, hb, hrep⟩ := except_bind_eq_ok.mp hs
    unfold Blockchain.ancora at hb
    cases hbase : c.baseState with
    | none => exact absurd (h.janela.semAncora hbase) hz
    | some b' =>
      rw [hbase] at hb
      cases hb
      obtain ⟨hpos, hrb⟩ := h.janela.ancora b hbase
      have hne : (g :: bs).take c.tailStart ≠ [] := by
        intro hc
        rcases List.take_eq_nil_iff.mp hc with hc | hc
        · omega
        · cases hc
      have hcorte : (g :: bs).take (k + 1) =
          (g :: bs).take c.tailStart ++ c.tail.take (k + 1 - c.tailStart) := by
        rw [h.janela.tail, ← List.take_add]
        congr 1
        omega
      rw [hcorte, replay_append hne, hrb]
      exact hrep

theorem Coerente.blocos_split (h : Coerente amb g bs c) (k : ℕ) :
    (∀ b ∈ bs.take k, b.height ≤ k) ∧ (∀ b ∈ bs.drop k, k < b.height) := by
  have henc := h.historia.encadeada
  refine ⟨?_, ?_⟩
  · intro b hb
    obtain ⟨i, hi, rfl⟩ := List.mem_iff_getElem.mp hb
    rw [List.length_take] at hi
    have hget : ([g] ++ bs)[i + 1]? = some (bs.take k)[i] := by
      rw [List.getElem_take]
      simp
    have := henc.altura hget
    omega
  · intro b hb
    obtain ⟨i, hi, rfl⟩ := List.mem_iff_getElem.mp hb
    rw [List.length_drop] at hi
    have hget : ([g] ++ bs)[k + i + 1]? = some (bs.drop k)[i] := by
      rw [List.getElem_drop]
      simp
    have := henc.altura hget
    omega

theorem Coerente.forkState_ok (h : Coerente amb g bs c) {k : ℕ} (hts : c.tailStart ≤ k) :
    ∃ s, c.forkState amb k = .ok s := by
  obtain ⟨s, hs, -⟩ := replay_take h.historia.estado (n := k + 1) (Nat.succ_pos k)
  refine ⟨s, ?_⟩
  unfold Blockchain.forkState
  rw [if_neg (by omega)]
  by_cases hz : c.tailStart = 0
  · rw [if_pos hz, h.janela.tail, hz]
    exact hs
  · rw [if_neg hz]
    cases hbase : c.baseState with
    | none => exact absurd (h.janela.semAncora hbase) hz
    | some b =>
      obtain ⟨hpos, hrb⟩ := h.janela.ancora b hbase
      have hne : (g :: bs).take c.tailStart ≠ [] := by
        intro hc
        rcases List.take_eq_nil_iff.mp hc with hc | hc
        · omega
        · cases hc
      have hcorte : (g :: bs).take (k + 1) =
          (g :: bs).take c.tailStart ++ c.tail.take (k + 1 - c.tailStart) := by
        rw [h.janela.tail, ← List.take_add]
        congr 1
        omega
      change replay amb ((g :: bs).take (k + 1)) = .ok s at hs
      rw [hcorte, replay_append hne, hrb] at hs
      have hanc : c.ancora = .ok b := by
        unfold Blockchain.ancora
        rw [hbase]
      exact except_bind_eq_ok.mpr ⟨b, hanc, hs⟩

/-- Inside the window the candidate exists, with the state and the ids of the
blocks up to the fork. -/
theorem Coerente.candidato_ok (h : Coerente amb g bs c) {k : ℕ} (hts : c.tailStart ≤ k)
    (hk : k ≤ bs.length) : ∃ s b, replay amb ((g :: bs).take (k + 1)) = .ok s ∧
      (g :: bs)[k]? = some b ∧ c.candidato amb k = .ok {
        expectedGenesisHash := c.expectedGenesisHash, tail := [b], tailStart := k, state := s
        txIndex := c.txIndex.filter fun _ h => decide (h ≤ k) } := by
  obtain ⟨s, hs⟩ := h.forkState_ok hts
  have hidx : k < (g :: bs).length := by
    rw [List.length_cons]
    omega
  have hget : (g :: bs)[k]? = some (g :: bs)[k] := List.getElem?_eq_getElem hidx
  refine ⟨s, _, h.forkState hts hs, hget, ?_⟩
  unfold Blockchain.candidato
  refine except_bind_eq_ok.mpr ⟨s, hs, ?_⟩
  rw [h.getBlock hts hk, hget]
  rfl

/-- The candidate of a reorganisation stands for the history up to the fork. -/
theorem Coerente.candidato (h : Coerente amb g bs c) {k : ℕ} (hk : k ≤ bs.length)
    (hc : c.candidato amb k = .ok cand) :
    c.tailStart ≤ k ∧ cand.store = none ∧ Historia amb (g :: bs.take k) [] cand := by
  unfold Blockchain.candidato at hc
  obtain ⟨s, hs, hc₁⟩ := except_bind_eq_ok.mp hc
  cases hb : c.getBlock k with
  | none =>
    rw [hb] at hc₁
    cases hc₁
  | some b =>
    rw [hb] at hc₁
    have hts : c.tailStart ≤ k := by
      by_contra hlt
      unfold Blockchain.getBlock at hb
      rw [if_pos (by omega)] at hb
      cases hb
    cases hc₁
    rw [h.getBlock hts hk] at hb
    obtain ⟨has, hbs⟩ := h.blocos_split k
    refine ⟨hts, rfl, ?_, ?_, ?_, ?_, rfl, fun a => rfl⟩
    · rw [List.append_nil, ← List.take_succ_cons, List.getLast?_take, if_neg (Nat.succ_ne_zero k)]
      simp [Blockchain.head, hb]
    · rw [List.append_nil, ← List.take_succ_cons]
      exact h.historia.encadeada.take (k + 1)
    · rw [List.append_nil, ← List.take_succ_cons]
      exact h.forkState hts hs
    · rw [List.append_nil, List.tail_cons]
      refine IndexaTxs.corta ?_ has hbs
      rw [List.take_append_drop]
      exact h.historia.txs

/-- Adding blocks to a chain without a disk extends its history by them. -/
theorem Historia.addBlocks {now : ℤ} (h : Historia amb base bs c) (hst : c.store = none)
    (hrun : Blockchain.addBlocks amb now novos c = .ok () c') :
    Historia amb base (bs ++ novos) c' := by
  induction novos generalizing bs c with
  | nil =>
    obtain ⟨-, rfl⟩ := pure_eq_ok.mp hrun
    rwa [List.append_nil]
  | cons b novos ih =>
    obtain ⟨_, c₁, hadd, hresto⟩ := bind_eq_ok.mp hrun
    obtain ⟨recibos, sim, ha, rfl⟩ := addBlock_semDisco hst hadd
    rw [List.append_cons]
    exact ih (h.aceita ha) hst hresto

theorem experimentar_eq_ok {k : ℕ} {now : ℤ} (h : experimentar amb c k novos now = .ok cand) :
    ∃ c₀, c.candidato amb k = .ok c₀ ∧ Blockchain.addBlocks amb now novos c₀ = .ok () cand := by
  unfold experimentar at h
  cases hc : c.candidato amb k with
  | error e =>
    rw [hc] at h
    cases h
  | ok c₀ =>
    rw [hc] at h
    dsimp only at h
    refine ⟨c₀, rfl, ?_⟩
    cases hrun : Blockchain.addBlocks amb now novos c₀ with
    | ok u c₁ =>
      rw [hrun] at h
      cases h
      rfl
    | error e c₁ =>
      rw [hrun] at h
      cases h

theorem substituir_ok {k : ℕ} {r : Reorg} (h : substituir amb k novos cand c = .ok r c') :
    r = .adotou (orfas (c.tail.drop (k + 1 - c.tailStart)) cand.txIndex) ∧
      ∃ c₁, SoDisco { c with tail := c.tail.take (k + 1 - c.tailStart) } c₁ ∧
        slideTail amb (c₁.adotar k (c.tail.drop (k + 1 - c.tailStart)) novos cand) = .ok () c' := by
  unfold substituir at h
  rw [get_bind_run, set_bind_run] at h
  obtain ⟨_, c₁, hdisco, h₁⟩ := bind_eq_ok.mp h
  rw [modify_bind_run] at h₁
  obtain ⟨_, c₂, hslide, h₂⟩ := bind_eq_ok.mp h₁
  obtain ⟨rfl, rfl⟩ := pure_eq_ok.mp h₂
  exact ⟨rfl, c₁, (reescreverDisco_runs _ _ _).ok hdisco, hslide⟩

/-- An adopted reorganisation keeps the history up to the fork and continues it
with the new blocks. -/
theorem Coerente.substituir (h : Coerente amb g bs c) {common : ℤ} {now : ℤ}
    (hsub : Substitui amb c common novos now cand) {r : Reorg}
    (hrun : Blockchain.substituir amb common.toNat novos cand c = .ok r c') :
    Coerente amb g (bs.take common.toNat ++ novos) c' := by
  generalize hk : common.toNat = k at hrun ⊢
  have hkle : k ≤ bs.length := by
    have := hsub.dentro
    rw [h.height] at this
    omega
  have hnovos : novos ≠ [] := by
    have := hsub.longos
    have := hsub.dentro
    rintro rfl
    simp only [List.length_nil] at *
    omega
  obtain ⟨c₀, hc₀, hadd⟩ := experimentar_eq_ok (hk ▸ hsub.aceitos)
  obtain ⟨hts, hst, hh₀⟩ := h.candidato hkle hc₀
  have hh := hh₀.addBlocks hst hadd
  rw [List.nil_append] at hh
  obtain ⟨-, c₁, ⟨st, rfl⟩, hslide⟩ := substituir_ok hrun
  have hdesc : c.tail.drop (k + 1 - c.tailStart) = bs.drop k := by
    rw [h.janela.tail, List.drop_drop, show c.tailStart + (k + 1 - c.tailStart) = k + 1 by omega,
      List.drop_succ_cons]
  rw [hdesc] at hslide
  have hmantido : c.tail.take (k + 1 - c.tailStart) ++ novos =
      (g :: (bs.take k ++ novos)).drop c.tailStart := by
    rw [h.janela.tail, ← List.cons_append, ← List.take_succ_cons, List.drop_append_of_le_length,
      List.drop_take]
    rw [List.length_take, List.length_cons]
    omega
  obtain ⟨has, hbs⟩ := h.blocos_split k
  have hasc : Ascendente (bs.take k ++ bs.drop k) := by
    rw [List.take_append_drop]
    exact (List.pairwise_cons.mp h.historia.encadeada.ascendente).2
  refine coerente_of_slide ?_ ?_ hslide
  · refine ⟨?_, hh.encadeada, hh.estado, hh.txs, ?_, ?_⟩
    · change (c.tail.take (k + 1 - c.tailStart) ++ novos).getLast? = _
      rw [List.getLast?_append_of_ne_nil _ hnovos, List.singleton_append, ← List.cons_append,
        List.getLast?_append_of_ne_nil _ hnovos]
    · change podaAlturas k c.blocksWithTxs ++ cand.blocksWithTxs = _
      have htodos : c.blocksWithTxs = alturasCom temTxs (bs.take k ++ bs.drop k) := by
        rw [List.take_append_drop]
        exact h.historia.comTxs
      rw [hh.comTxs, htodos, podaAlturas_eq_filter (alturasCom_pairwise hasc),
        Ascendente.filter_altura has hbs, alturasCom_append]
    · refine IndexaEnderecos.estende (IndexaEnderecos.poda ?_ hasc has hbs) hh.enderecos
      rw [List.take_append_drop]
      exact h.historia.enderecos
  · refine ⟨hmantido, ?_, h.janela.semAncora, ?_⟩
    · change c.tailStart < (g :: (bs.take k ++ novos)).length
      rw [List.length_cons, List.length_append, List.length_take]
      omega
    · intro s hs
      obtain ⟨hpos, hrep⟩ := h.janela.ancora s hs
      refine ⟨hpos, ?_⟩
      change replay amb ((g :: (bs.take k ++ novos)).take c.tailStart) = _
      have hprefixo : (g :: (bs.take k ++ novos)).take c.tailStart =
          (g :: bs).take c.tailStart := by
        rw [← List.cons_append, ← List.take_succ_cons, List.take_append_of_le_length,
          List.take_take, min_eq_left (by omega)]
        rw [List.length_take, List.length_cons]
        omega
      rw [hprefixo]
      exact hrep

/-- What a replacement writes to the indices of hashes and keys. -/
theorem substituir_indices (h : Coerente amb g bs c) {k : ℕ} (hts : c.tailStart ≤ k) {r : Reorg}
    (hrun : Blockchain.substituir amb k novos cand c = .ok r c') :
    c'.hashIndex = novos.foldl (fun m b => m.insert b.hash b.height)
        ((bs.drop k).foldl (fun m b => m.erase b.hash) c.hashIndex) ∧
      c'.producerKeys = c.producerKeys := by
  obtain ⟨-, c₁, ⟨st, rfl⟩, hslide⟩ := substituir_ok hrun
  have hsem := (slideTail_runs amb _).ok hslide
  have hdesc : c.tail.drop (k + 1 - c.tailStart) = bs.drop k := by
    rw [h.janela.tail, List.drop_drop, show c.tailStart + (k + 1 - c.tailStart) = k + 1 by omega,
      List.drop_succ_cons]
  rw [hdesc] at hsem
  exact ⟨congrArg (·.hashIndex) hsem, congrArg (·.producerKeys) hsem⟩

end

end Eav7.Blockchain
