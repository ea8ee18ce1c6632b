import Eav7.Crescimento

/-!
# Forks of ready chains

A longer branch of empty blocks can be built on any block of the window of a
ready chain, and a reorganisation onto it passes every check.
-/

namespace Eav7.Blockchain

open Base

section

variable {amb : Ambiente} {ps : List Produtor} {g : Block} {bs resto novos : List Block}
variable {c ck c₀ cand : Blockchain}

/-- The candidate at a fork is as ready as the chain was at that height. -/
theorem Pronta.candidato (hk : Pronta amb ps bs.length ck) (hck : Coerente amb g bs ck)
    (hc : Coerente amb g (bs ++ resto) c) (hts : c.tailStart ≤ bs.length) :
    ∃ c₀, c.candidato amb bs.length = .ok c₀ ∧ Pronta amb ps bs.length c₀ ∧
      c₀.head = ck.head ∧ c₀.producerKeys = ∅ := by
  obtain ⟨s, b, hs, hb, hcand⟩ := hc.candidato_ok hts (by rw [List.length_append]; omega)
  have hcorte : (g :: (bs ++ resto)).take (bs.length + 1) = g :: bs := by
    rw [List.take_succ_cons, List.take_left]
  have hestado : s = ck.state := by
    rw [hcorte] at hs
    exact Except.ok.inj (hs.symm.trans hck.historia.estado)
  have hcab : some b = ck.head := by
    rw [hck.historia.cabeca, ← hb, List.singleton_append, ← List.cons_append,
      List.getElem?_append_left (by simp), List.getLast?_eq_getElem?]
    rfl
  obtain ⟨u, hu, halt, hhash⟩ := hk.cabeca
  obtain ⟨vs, hvs, hnomes⟩ := hk.rede
  refine ⟨_, hcand, ⟨rfl, rfl, ⟨u, ?_, halt, hhash⟩, ?_, ⟨vs, ?_, hnomes⟩, ?_⟩, hcab, rfl⟩
  · exact hcab.trans hu
  · exact hestado ▸ hk.parado
  · exact hestado ▸ hvs
  · intro p _ ks hks
    cases hks

/-- A reorganisation onto the branch grown from the candidate passes every check. -/
theorem substitui_of_cresceu {slots : List ℕ} {now : ℤ} (hc : Coerente amb g (bs ++ resto) c)
    (hpode : c.podeReorganizar bs.length = .ok ()) (hcand : c.candidato amb bs.length = .ok c₀)
    (hcres : Cresceu amb ps now slots bs.length c₀ novos cand)
    (hlen : resto.length < slots.length) : Substitui amb c bs.length novos now cand := by
  have hheight := hc.height
  rw [List.length_append] at hheight
  have hnovos : novos.length = slots.length := by
    have := congrArg List.length hcres.instantes
    rwa [List.length_map, List.length_map] at this
  obtain ⟨u, hu, halt, -⟩ := hcres.pronta.cabeca
  have hcandh : cand.height = bs.length + slots.length := by
    unfold height
    rw [hu]
    simp [halt]
  refine ⟨by omega, by omega, by omega, hpode, ?_, by omega⟩
  unfold experimentar
  rw [Int.toNat_natCast, hcand]
  dsimp only
  rw [hcres.aceitos]

/-- Without a disk the replacement writes the memory at once. -/
theorem substituir_semDisco (hst : c.store = none) (k : ℕ) :
    substituir amb k novos cand c =
      .ok (.adotou (orfas (c.tail.drop (k + 1 - c.tailStart)) cand.txIndex))
        (adotar { c with tail := c.tail.take (k + 1 - c.tailStart) } k
          (c.tail.drop (k + 1 - c.tailStart)) novos cand) := by
  generalize hc : ({ c with tail := c.tail.take (k + 1 - c.tailStart) } : Blockchain) = c₁
  have hst₁ : c₁.store = none := by rw [← hc]; exact hst
  have hgrava : ∀ l : List Block, gravarNovos l c₁ = .ok () c₁ := by
    intro l
    induction l with
    | nil => rfl
    | cons b l ih => exact (bind_run_ok (noDisco_livre (.inl hst₁)) _).trans ih
  have hescreve : reescreverDisco k novos c₁ = .ok () c₁ :=
    (bind_run_ok (noDisco_livre (.inl hst₁)) _).trans (hgrava novos)
  have hlivre : (adotar c₁ k (c.tail.drop (k + 1 - c.tailStart)) novos cand).store = none := hst₁
  unfold substituir
  rw [get_bind_run, set_bind_run, hc, bind_run_ok hescreve, modify_bind_run,
    bind_run_ok (slideTail_semDisco hlivre)]
  rfl

/-- A chain after a reorganisation onto a branch of empty blocks. -/
structure Reorganizada (ps : List Produtor) (amb : Ambiente) (g : Block) (bs novos : List Block)
    (slots : List ℕ) (c : Blockchain) : Prop where
  coerente : Coerente amb g (bs ++ novos) c
  semDisco : c.store = none
  inicio : c.tailStart = 0
  rede : ∃ vs, c.state.validators = .ok vs ∧ vs.length = ps.length
  instantes : novos.map (·.timestamp) = slots.map inicioDoSlot
  produtores : novos.map (·.producer) =
    slots.filterMap fun slot => ps[slot % ps.length]?.map (·.endereco)

/-- A chain without a disk adopts any longer branch above its final height. -/
theorem Pronta.reorganiza (hk : Pronta amb ps bs.length ck) (hck : Coerente amb g bs ck)
    (hc : Coerente amb g (bs ++ resto) c) (hst : c.store = none) (hts : c.tailStart = 0)
    (hpode : c.podeReorganizar bs.length = .ok ()) (hd : amb.cripto.Digere)
    (hcap : ∀ p ∈ ps, p.Capaz amb.cripto) (hdif : (ps.map (·.endereco)).Nodup) (hps : ps ≠ [])
    {now : ℤ} (hnow : 10 ^ 9 ≤ now) {s₀ : ℕ} (slots : List ℕ)
    (hantes : ∀ u, ck.head = some u → slotFor u.timestamp ≤ s₀)
    (hasc : (s₀ :: slots).Pairwise (· < ·)) (hmax : ∀ s ∈ slots, s ≤ 10 ^ 6)
    (hn : bs.length + slots.length ≤ 10 ^ 6) (hlen : resto.length < slots.length) :
    ∃ novos c' orfas, reorg amb bs.length novos now c = .ok (.adotou orfas) c' ∧
      Reorganizada ps amb g bs novos slots c' := by
  obtain ⟨c₀, hcand, hpronta, hcab, -⟩ := hk.candidato hck hc (by omega)
  obtain ⟨novos, cand, hcres⟩ := hpronta.cresce hd hcap hdif hps hnow slots (hcab ▸ hantes)
    hasc hmax hn
  have hsub := substitui_of_cresceu hc hpode hcand hcres hlen
  have hrun : substituir amb (bs.length : ℤ).toNat novos cand c = _ := substituir_semDisco hst _
  have hcoer := hc.substituir hsub hrun
  rw [← reorg_of_substitui hsub] at hrun
  rw [Int.toNat_natCast, List.take_left] at hcoer
  obtain ⟨vs, hvs, hnomes⟩ := hcres.pronta.rede
  have hvlen : vs.length = ps.length := by
    have := congrArg List.length hnomes
    rwa [List.length_map, List.length_map] at this
  exact ⟨novos, _, _, hrun, hcoer, hst, hts, ⟨vs, hvs, hvlen⟩, hcres.instantes, hcres.produtores⟩

/-! ## Short chains are not final -/

theorem procuraFinal_curto {quorum n : ℕ} {produtores : List String}
    (h : produtores.length + n < quorum) : c.procuraFinal quorum produtores n = -1 := by
  induction n generalizing produtores with
  | zero => rfl
  | succ n ih =>
    rw [procuraFinal]
    split_ifs
    · rfl
    · cases c.getBlock (n + 1) with
      | none => rfl
      | some b =>
        have hlen : (acrescenta b.producer produtores).length ≤ produtores.length + 1 := by
          unfold acrescenta
          split_ifs
          · exact Nat.le_succ _
          · exact le_rfl
        dsimp only
        rw [if_neg (by omega)]
        exact ih (by omega)

theorem finalizedHeight_curto {vs : List Validator} (hvs : c.state.validators = .ok vs)
    (h : c.height.toNat < 2 * vs.length / 3 + 1) : c.finalizedHeight = .ok (-1) := by
  have hler : ler c.state.validators = .ok vs := by rw [hvs]; rfl
  unfold finalizedHeight
  refine except_bind_eq_ok.mpr ⟨vs, hler, ?_⟩
  dsimp only
  split_ifs
  · rfl
  · rw [procuraFinal_curto (by simpa using h)]
    rfl

theorem podeReorganizar_of_final {f k : ℤ} (hf : c.finalizedHeight = .ok f) (hk : f ≤ k)
    (hts : (c.tailStart : ℤ) - 1 ≤ k) : c.podeReorganizar k = .ok () := by
  unfold podeReorganizar
  refine except_bind_eq_ok.mpr ⟨f, hf, ?_⟩
  refine except_bind_eq_ok.mpr ⟨(), falharSe_eq_ok.mpr (not_lt.mpr hk), ?_⟩
  exact falharSe_eq_ok.mpr (not_lt.mpr hts)

end
end Eav7.Blockchain
