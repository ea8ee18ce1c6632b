import Eav7.Historia

/-!
# What one call of the chain does

Each call read back from its result: the disk writes touch only the disk, moving
the window touches only the window, and a reorganisation either writes nothing
or goes through the replacement of the end of the chain.
-/

namespace Eav7.Blockchain

open Base

/-! ## The disk -/

/-- Everything but the disk. -/
def semDisco (c : Blockchain) : Blockchain := { c with store := none }

/-- Only the disk differs. -/
def SoDisco (c c' : Blockchain) : Prop := ∃ st, c' = { c with store := st }

theorem SoDisco.refl (c : Blockchain) : SoDisco c c := ⟨c.store, rfl⟩

theorem SoDisco.trans {c c' c'' : Blockchain} (h : SoDisco c c') (h' : SoDisco c' c'') :
    SoDisco c c'' := by
  obtain ⟨st, rfl⟩ := h
  obtain ⟨st', rfl⟩ := h'
  exact ⟨st', rfl⟩

theorem SoDisco.semDisco_eq {c c' : Blockchain} (h : SoDisco c c') : c'.semDisco = c.semDisco := by
  obtain ⟨st, rfl⟩ := h
  rfl

/-- The error is one the caller receives. -/
def Interrupcao.Devolvida (e : Interrupcao) : Prop := ∃ msg, e = .erro msg

theorem noDisco_runs (escrita : Disco → Bool × Disco) (msg : String) (c : Blockchain) :
    Runs (noDisco escrita msg) c (fun _ c' => SoDisco c c')
      fun e c' => SoDisco c c' ∧ Interrupcao.Devolvida e := by
  unfold noDisco
  refine Runs.get_bind ?_
  cases c.store with
  | none => exact Runs.pure_intro (SoDisco.refl c)
  | some d =>
    refine Runs.ite (fun _ => Runs.pure_intro (SoDisco.refl c)) fun _ => Runs.set_bind ?_
    refine Runs.ite (fun _ => Runs.pure_intro ⟨_, rfl⟩) fun _ => ?_
    exact Runs.lift_intro (fun _ h => by cases h) fun e h => ⟨⟨_, rfl⟩, msg, by cases h; rfl⟩

theorem noDisco_run (escrita : Disco → Bool × Disco) (msg : String) {c : Blockchain} {d : Disco}
    (hst : c.store = some d) (hl : c.loading = false) :
    noDisco escrita msg c =
      if (escrita d).1 = true then .ok () { c with store := some (escrita d).2 }
      else .error (.erro msg) { c with store := some (escrita d).2 } := by
  unfold noDisco
  rw [get_bind_run]
  simp only [hst]
  rw [if_neg (by simp [hl]), set_bind_run]
  by_cases h : (escrita d).1 = true
  · rw [if_pos h, if_pos h]
    rfl
  · rw [if_neg h, if_neg h]
    rfl

theorem noDisco_livre {escrita : Disco → Bool × Disco} {msg : String} {c : Blockchain}
    (h : c.store = none ∨ c.loading = true) : noDisco escrita msg c = .ok () c := by
  unfold noDisco
  rw [get_bind_run]
  cases hst : c.store with
  | none => rfl
  | some d =>
    rcases h with h | h
    · rw [hst] at h
      cases h
    · dsimp only
      rw [if_pos h]
      rfl

theorem gravarNovos_runs (novos : List Block) (c : Blockchain) :
    Runs (gravarNovos novos) c (fun _ c' => SoDisco c c')
      fun e c' => SoDisco c c' ∧ Interrupcao.Devolvida e := by
  induction novos generalizing c with
  | nil => exact Runs.pure_intro (SoDisco.refl c)
  | cons b novos ih =>
    refine Runs.bind ((noDisco_runs _ _ c).mono ?_ fun _ _ h => h)
    intro _ c' h
    exact (ih c').mono (fun _ _ => h.trans) fun _ _ h' => ⟨h.trans h'.1, h'.2⟩

theorem reescreverDisco_runs (common : ℕ) (novos : List Block) (c : Blockchain) :
    Runs (reescreverDisco common novos) c (fun _ c' => SoDisco c c')
      fun e c' => SoDisco c c' ∧ Interrupcao.Devolvida e := by
  refine Runs.bind ((noDisco_runs _ _ c).mono ?_ fun _ _ h => h)
  intro _ c' h
  exact (gravarNovos_runs novos c').mono (fun _ _ => h.trans) fun _ _ h' => ⟨h.trans h'.1, h'.2⟩

/-! ## A disk that accepts every write -/

/-- No write still to come is refused. -/
def Confiavel (c : Blockchain) : Prop := ∀ d ∈ c.store, d.falhas = []

theorem escrever_confiavel {d : Disco} (h : d.falhas = []) (linhas : List Block) :
    (d.escrever linhas).1 = true ∧ (d.escrever linhas).2.falhas = [] := by
  simp [Disco.escrever, h]

theorem append_confiavel {d : Disco} (h : d.falhas = []) (b : Block) :
    (d.append b).1 = true ∧ (d.append b).2.falhas = [] := escrever_confiavel h _

theorem truncateFrom_confiavel {d : Disco} (h : d.falhas = []) (n : ℕ) :
    (d.truncateFrom n).1 = true ∧ (d.truncateFrom n).2.falhas = [] := by
  unfold Disco.truncateFrom
  split_ifs
  · exact escrever_confiavel h _
  · exact ⟨rfl, h⟩

theorem noDisco_confiavel {escrita : Disco → Bool × Disco}
    (hesc : ∀ d : Disco, d.falhas = [] → (escrita d).1 = true ∧ (escrita d).2.falhas = [])
    {c : Blockchain} (h : Confiavel c) (msg : String) :
    Runs (noDisco escrita msg) c (fun _ c' => SoDisco c c' ∧ Confiavel c') fun _ _ => False := by
  unfold noDisco
  refine Runs.get_bind ?_
  cases hst : c.store with
  | none => exact Runs.pure_intro ⟨SoDisco.refl c, h⟩
  | some d =>
    obtain ⟨hok, hfalhas⟩ := hesc d (h d hst)
    refine Runs.ite (fun _ => Runs.pure_intro ⟨SoDisco.refl c, h⟩) fun _ => Runs.set_bind ?_
    refine Runs.ite (fun _ => Runs.pure_intro ⟨⟨_, rfl⟩, ?_⟩) fun hno => absurd hok hno
    rintro d' ⟨⟩
    exact hfalhas

theorem gravarNovos_confiavel (novos : List Block) {c : Blockchain} (h : Confiavel c) :
    Runs (gravarNovos novos) c (fun _ c' => SoDisco c c' ∧ Confiavel c') fun _ _ => False := by
  induction novos generalizing c with
  | nil => exact Runs.pure_intro ⟨SoDisco.refl c, h⟩
  | cons b novos ih =>
    refine Runs.bind ((noDisco_confiavel (fun d hd => append_confiavel hd b) h _).mono ?_
      fun _ _ h => h)
    intro _ c' h'
    exact (ih h'.2).mono (fun _ _ h'' => ⟨h'.1.trans h''.1, h''.2⟩) fun _ _ => id

theorem reescreverDisco_confiavel (common : ℕ) (novos : List Block) {c : Blockchain}
    (h : Confiavel c) :
    Runs (reescreverDisco common novos) c (fun _ c' => SoDisco c c' ∧ Confiavel c')
      fun _ _ => False := by
  refine Runs.bind ((noDisco_confiavel (fun d hd => truncateFrom_confiavel hd _) h _).mono ?_
    fun _ _ h => h)
  intro _ c' h'
  exact (gravarNovos_confiavel novos h'.2).mono (fun _ _ h'' => ⟨h'.1.trans h''.1, h''.2⟩)
    fun _ _ => id

/-! ## The window -/

/-- Everything but the window. -/
def semJanela (c : Blockchain) : Blockchain :=
  { c with tail := [], tailStart := 0, baseState := none, hashes := ∅ }

section

variable {amb : Ambiente} {c : Blockchain}

theorem evictOldest_run {saindo : Block} {resto : List Block} {base : State}
    (ht : c.tail = saindo :: resto) (hb : c.novaAncora amb saindo = .ok base) :
    evictOldest amb c = .ok () { c with
      tail := resto, baseState := some base, hashes := c.hashes.erase saindo.height
      tailStart := c.tailStart + 1 } := by
  unfold evictOldest
  rw [get_bind_run]
  simp only [ht, hb]
  rfl

/-- An eviction that goes wrong ends the process; no caller sees it. -/
theorem evictOldest_runs (amb : Ambiente) (c : Blockchain) :
    Runs (evictOldest amb) c (fun _ c' => c'.semJanela = c.semJanela)
      fun e _ => ¬ Interrupcao.Devolvida e := by
  unfold evictOldest
  refine Runs.get_bind ?_
  cases c.tail with
  | nil => exact Runs.pure_intro rfl
  | cons saindo resto =>
    dsimp only
    cases c.novaAncora amb saindo with
    | ok base => exact Runs.modify_intro (g := fun _ => _) rfl
    | error e =>
      refine Runs.throw_intro ?_
      rintro ⟨msg, ⟨⟩⟩

theorem evictar_runs (amb : Ambiente) (n : ℕ) (c : Blockchain) :
    Runs (evictar amb n) c (fun _ c' => c'.semJanela = c.semJanela)
      fun e _ => ¬ Interrupcao.Devolvida e := by
  induction n generalizing c with
  | zero => exact Runs.pure_intro rfl
  | succ n ih =>
    refine Runs.bind ((evictOldest_runs amb c).mono ?_ fun _ _ h => h)
    intro _ c' h
    exact (ih c').mono (fun _ _ h' => h'.trans h) fun _ _ => id

theorem slideTail_runs (amb : Ambiente) (c : Blockchain) :
    Runs (slideTail amb) c (fun _ c' => c'.semJanela = c.semJanela)
      fun e _ => ¬ Interrupcao.Devolvida e := by
  unfold slideTail
  refine Runs.get_bind (Runs.ite ?_ ?_)
  · intro _
    exact evictar_runs amb _ c
  · intro _
    exact Runs.pure_intro rfl

theorem slideTail_semDisco (h : c.store = none) : slideTail amb c = .ok () c := by
  unfold slideTail
  rw [get_bind_run, if_neg (by simp [h])]
  rfl

end

/-! ## Accepting -/

section

variable {amb : Ambiente} {c c' : Blockchain} {block : Block} {now : ℤ}

theorem conferir_eq_ok {α : Type} {x : Falha α} {c c' : Blockchain} {a : α} :
    conferir x c = .ok a c' ↔ x = .ok a ∧ c' = c := by
  unfold conferir
  rw [lift_eq_ok]
  cases x <;> simp [Except.mapError]

theorem conferir_eq_error {α : Type} {x : Falha α} {c c' : Blockchain} {e : Interrupcao} :
    (conferir x : Cadeia α) c = .error e c' ↔ (∃ msg, x = .error msg ∧ e = .erro msg) ∧ c' = c := by
  unfold conferir
  rw [lift_eq_error]
  cases x <;> simp [Except.mapError, eq_comm]

theorem simularBloco_eq_ok {recibos : Recibos} {sim : State}
    (h : c.simularBloco amb block = .ok (recibos, sim)) :
    c.simulate amb block c.state = .ok recibos sim ∧ conferirStateRoot amb block sim = .ok () := by
  unfold simularBloco at h
  obtain ⟨⟨rs, t⟩, hexec, h₁⟩ := except_bind_eq_ok.mp h
  obtain ⟨_, hroot, h₂⟩ := except_bind_eq_ok.mp h₁
  cases h₂
  exact ⟨executar_eq_ok.mp hexec, hroot⟩

/-- The end of every acceptance: the disk first, then the memory and the window. -/
theorem gravarBloco_ok {sim : State} {recibos : Recibos}
    (h : gravarBloco amb block sim recibos c = .ok () c') :
    ∃ c₁, SoDisco c c₁ ∧ slideTail amb (c₁.aceitar block sim recibos) = .ok () c' := by
  unfold gravarBloco at h
  obtain ⟨_, c₁, hdisco, h₁⟩ := bind_eq_ok.mp h
  exact ⟨c₁, (noDisco_runs _ _ c).ok hdisco, h₁⟩

theorem addBlock_eq_ok : addBlock amb block now c = .ok () c' ↔
    c.conferirBloco amb block now = .ok () ∧ ∃ recibos sim,
      c.simularBloco amb block = .ok (recibos, sim) ∧
        gravarBloco amb block sim recibos c = .ok () c' := by
  unfold addBlock
  rw [get_bind_run]
  constructor
  · intro h
    obtain ⟨_, t, hconf, h₁⟩ := bind_eq_ok.mp h
    obtain ⟨hconf, rfl⟩ := conferir_eq_ok.mp hconf
    obtain ⟨⟨recibos, sim⟩, t', hsim, h₂⟩ := bind_eq_ok.mp h₁
    obtain ⟨hsim, rfl⟩ := conferir_eq_ok.mp hsim
    exact ⟨hconf, recibos, sim, hsim, h₂⟩
  · rintro ⟨hconf, recibos, sim, hsim, hgrava⟩
    refine bind_eq_ok.mpr ⟨(), c, conferir_eq_ok.mpr ⟨hconf, rfl⟩, ?_⟩
    exact bind_eq_ok.mpr ⟨_, c, conferir_eq_ok.mpr ⟨hsim, rfl⟩, hgrava⟩

theorem addBlock_ok (h : addBlock amb block now c = .ok () c') :
    ∃ recibos sim, Aceita amb c now block recibos sim ∧
      gravarBloco amb block sim recibos c = .ok () c' := by
  obtain ⟨hconf, recibos, sim, hsim, hgrava⟩ := addBlock_eq_ok.mp h
  exact ⟨recibos, sim, ⟨hconf, (simularBloco_eq_ok hsim).1⟩, hgrava⟩

theorem gravarBloco_erro {sim : State} {recibos : Recibos} {e : Interrupcao}
    (h : gravarBloco amb block sim recibos c = .error e c') (he : Interrupcao.Devolvida e) :
    SoDisco c c' := by
  unfold gravarBloco at h
  rcases bind_eq_error.mp h with h₁ | ⟨_, c₁, -, h₁⟩
  · exact ((noDisco_runs _ _ c).error h₁).1
  · exact absurd he ((slideTail_runs amb _).error h₁)

theorem addBlock_erro {e : Interrupcao} (h : addBlock amb block now c = .error e c')
    (he : Interrupcao.Devolvida e) : SoDisco c c' := by
  unfold addBlock at h
  rw [get_bind_run] at h
  rcases bind_eq_error.mp h with h₁ | ⟨_, t, hconf, h₁⟩
  · obtain ⟨-, rfl⟩ := conferir_eq_error.mp h₁
    exact SoDisco.refl _
  · obtain ⟨-, rfl⟩ := conferir_eq_ok.mp hconf
    rcases bind_eq_error.mp h₁ with h₂ | ⟨p, t', hsim, h₂⟩
    · obtain ⟨-, rfl⟩ := conferir_eq_error.mp h₂
      exact SoDisco.refl _
    · obtain ⟨-, rfl⟩ := conferir_eq_ok.mp hsim
      exact gravarBloco_erro h₂ he

/-- Without a disk the window does not move either. -/
theorem addBlock_semDisco (hst : c.store = none) (h : addBlock amb block now c = .ok () c') :
    ∃ recibos sim, Aceita amb c now block recibos sim ∧ c' = c.aceitar block sim recibos := by
  obtain ⟨recibos, sim, ha, hg⟩ := addBlock_ok h
  refine ⟨recibos, sim, ha, ?_⟩
  unfold gravarBloco at hg
  obtain ⟨_, c₁, hdisco, h₁⟩ := bind_eq_ok.mp hg
  have hc₁ : c₁ = c := by
    unfold noDisco at hdisco
    rw [get_bind_run] at hdisco
    simp only [hst] at hdisco
    exact (pure_eq_ok.mp hdisco).2
  subst hc₁
  rw [modify_bind_run] at h₁
  have hlivre : slideTail amb (c₁.aceitar block sim recibos) = .ok () _ := slideTail_semDisco hst
  rw [hlivre] at h₁
  cases h₁
  rfl

end

/-! ## Reorganising -/

/-- The reorganisation passes every check and its candidate is longer. -/
structure Substitui (amb : Ambiente) (c : Blockchain) (common : ℤ) (novos : List Block) (now : ℤ)
    (cand : Blockchain) : Prop where
  positivo : 0 ≤ common
  dentro : common ≤ c.height
  longos : c.height < common + novos.length
  permitido : c.podeReorganizar common = .ok ()
  aceitos : experimentar amb c common.toNat novos now = .ok cand
  maior : c.height < cand.height

theorem reorg_of_substitui {amb : Ambiente} {c cand : Blockchain} {common now : ℤ}
    {novos : List Block} (h : Substitui amb c common novos now cand) :
    reorg amb common novos now c = substituir amb common.toNat novos cand c := by
  have hgen : c.hasGenesis ≠ false := by
    intro hc
    have halt : c.height = -1 := by
      have : c.tail = [] := by simpa [hasGenesis] using hc
      unfold height head
      rw [this]
      rfl
    have := h.positivo
    have := h.dentro
    omega
  have hfork : ¬ (common < 0 ∨ c.height < common) := by
    have := h.positivo
    have := h.dentro
    omega
  have hpassa : ∀ {p : Prop} [Decidable p] {msg : String}, ¬ p →
      (conferir (falharSe p msg) : Cadeia Unit) c = .ok () c := fun hp =>
    conferir_eq_ok.mpr ⟨falharSe_eq_ok.mpr hp, rfl⟩
  have hcand : (Base.lift (experimentar amb c common.toNat novos now) : Cadeia Blockchain) c =
      .ok cand c := lift_eq_ok.mpr ⟨h.aceitos, rfl⟩
  have hpode : conferir (c.podeReorganizar common) c = .ok () c :=
    conferir_eq_ok.mpr ⟨h.permitido, rfl⟩
  unfold reorg
  rw [get_bind_run, bind_run_ok (hpassa hgen), bind_run_ok (hpassa hfork),
    if_neg (not_le.mpr h.longos), bind_run_ok hpode]
  exact (bind_run_ok hcand _).trans (congrFun (if_neg (not_le.mpr h.maior)) c)

/-- A reorganisation that does not replace anything leaves the whole chain alone. -/
theorem reorg_cases (amb : Ambiente) (c : Blockchain) (common : ℤ) (novos : List Block) (now : ℤ) :
    (∃ cand, Substitui amb c common novos now cand ∧
      reorg amb common novos now c = substituir amb common.toNat novos cand c) ∨
    reorg amb common novos now c = .ok .manteve c ∨
    ∃ e, reorg amb common novos now c = .error e c := by
  cases hr : reorg amb common novos now c with
  | ok r c' =>
    unfold reorg at hr
    rw [get_bind_run] at hr
    obtain ⟨_, t, hgen, h₁⟩ := bind_eq_ok.mp hr
    obtain ⟨-, rfl⟩ := conferir_eq_ok.mp hgen
    obtain ⟨_, t', hfork, h₂⟩ := bind_eq_ok.mp h₁
    obtain ⟨hfork, rfl⟩ := conferir_eq_ok.mp hfork
    have hfork := falharSe_eq_ok.mp hfork
    rw [not_or, not_lt, not_lt] at hfork
    by_cases hcurto : common + novos.length ≤ t'.height
    · rw [if_pos hcurto] at h₂
      obtain ⟨rfl, rfl⟩ := pure_eq_ok.mp h₂
      exact .inr (.inl rfl)
    · rw [if_neg hcurto] at h₂
      obtain ⟨_, t, hpode, h₃⟩ := bind_eq_ok.mp h₂
      obtain ⟨hpode, rfl⟩ := conferir_eq_ok.mp hpode
      obtain ⟨cand, t', hcand, h₄⟩ := bind_eq_ok.mp h₃
      obtain ⟨hcand, rfl⟩ := lift_eq_ok.mp hcand
      by_cases hmenor : cand.height ≤ t'.height
      · rw [if_pos hmenor] at h₄
        obtain ⟨rfl, rfl⟩ := pure_eq_ok.mp h₄
        exact .inr (.inl rfl)
      · rw [if_neg hmenor] at h₄
        refine .inl ⟨cand, ⟨hfork.1, hfork.2, not_le.mp hcurto, hpode, hcand, not_le.mp hmenor⟩, ?_⟩
        exact h₄.symm
  | error e c' =>
    unfold reorg at hr
    rw [get_bind_run] at hr
    rcases bind_eq_error.mp hr with h₁ | ⟨_, t, hgen, h₁⟩
    · obtain ⟨-, rfl⟩ := conferir_eq_error.mp h₁
      exact .inr (.inr ⟨e, rfl⟩)
    obtain ⟨-, rfl⟩ := conferir_eq_ok.mp hgen
    rcases bind_eq_error.mp h₁ with h₂ | ⟨_, t', hfork, h₂⟩
    · obtain ⟨-, rfl⟩ := conferir_eq_error.mp h₂
      exact .inr (.inr ⟨e, rfl⟩)
    obtain ⟨hfork, rfl⟩ := conferir_eq_ok.mp hfork
    have hfork := falharSe_eq_ok.mp hfork
    rw [not_or, not_lt, not_lt] at hfork
    by_cases hcurto : common + novos.length ≤ t'.height
    · rw [if_pos hcurto] at h₂
      cases h₂
    rw [if_neg hcurto] at h₂
    rcases bind_eq_error.mp h₂ with h₃ | ⟨_, t, hpode, h₃⟩
    · obtain ⟨-, rfl⟩ := conferir_eq_error.mp h₃
      exact .inr (.inr ⟨e, rfl⟩)
    obtain ⟨hpode, rfl⟩ := conferir_eq_ok.mp hpode
    rcases bind_eq_error.mp h₃ with h₄ | ⟨cand, t', hcand, h₄⟩
    · obtain ⟨-, rfl⟩ := lift_eq_error.mp h₄
      exact .inr (.inr ⟨e, rfl⟩)
    obtain ⟨hcand, rfl⟩ := lift_eq_ok.mp hcand
    by_cases hmenor : cand.height ≤ t'.height
    · rw [if_pos hmenor] at h₄
      cases h₄
    rw [if_neg hmenor] at h₄
    refine .inl ⟨cand, ⟨hfork.1, hfork.2, not_le.mp hcurto, hpode, hcand, not_le.mp hmenor⟩, ?_⟩
    exact h₄.symm

end Eav7.Blockchain
