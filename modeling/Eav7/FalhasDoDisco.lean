import Eav7.Bifurcacao
import Eav7.RedeIdeal

/-!
# What a failed call leaves in memory

A refused block leaves the memory as it was. A reorganisation splits the window
before it writes the disk, so a refused write leaves the window cut at the fork:
exactly when the memory is kept is stated and proved here.
-/

namespace Eav7.Blockchain

open Base

/-- One of the next writes of the disk is refused. -/
def recusaEm (d : Disco) (n : ℕ) : Bool := (d.falhas.take n).any id

/-- The writes of a reorganisation: the truncation, when the file reaches the
fork, and one append for each new block. -/
def escritas (d : Disco) (common : ℕ) (novos : List Block) : ℕ :=
  (if common + 1 < d.linhas.length then 1 else 0) + novos.length

/-- The disk of the chain refuses one of the writes of the reorganisation. -/
def DiscoRecusa (c : Blockchain) (common : ℕ) (novos : List Block) : Prop :=
  c.loading = false ∧ ∃ d ∈ c.store, recusaEm d (escritas d common novos) = true

/-! ## One write -/

theorem escrever_falha {d : Disco} {linhas : List Block} (h : (d.escrever linhas).1 = false)
    (n : ℕ) : recusaEm d (n + 1) = true := by
  unfold Disco.escrever at h
  cases hf : d.falhas with
  | nil => simp [hf] at h
  | cons f fs =>
    cases f with
    | true => simp [recusaEm, hf]
    | false => simp [hf] at h

theorem escrever_passa {d : Disco} {linhas : List Block} (h : (d.escrever linhas).1 = true)
    (n : ℕ) : recusaEm d (n + 1) = recusaEm (d.escrever linhas).2 n := by
  unfold Disco.escrever at h ⊢
  cases hf : d.falhas with
  | nil => simp [recusaEm, hf]
  | cons f fs =>
    cases f with
    | true => simp [hf] at h
    | false => simp [recusaEm, hf]

/-! ## The writes of a reorganisation -/

/-- The run returned an error. -/
def Falhou {α : Type} (r : EStateM.Result Interrupcao Blockchain α) : Prop :=
  ∃ e c', r = .error e c'

theorem gravarNovos_falhou {novos : List Block} {c : Blockchain} {d : Disco}
    (hst : c.store = some d) (hl : c.loading = false) :
    Falhou (gravarNovos novos c) ↔ recusaEm d novos.length = true := by
  induction novos generalizing c d with
  | nil =>
    constructor
    · rintro ⟨e, c', h⟩
      cases h
    · intro h
      simp [recusaEm] at h
  | cons b novos ih =>
    rw [List.length_cons]
    have hrun := noDisco_run (fun d => d.append b) s!"persistir bloco {b.height}" hst hl
    by_cases hok : (d.append b).1 = true
    · rw [if_pos hok] at hrun
      rw [escrever_passa hok]
      have hih := ih (c := { c with store := some (d.append b).2 }) rfl hl
      refine Iff.trans ?_ hih
      constructor
      · rintro ⟨e, c', h⟩
        rcases bind_eq_error.mp h with h | ⟨_, t, ht, h⟩
        · rw [hrun] at h
          cases h
        · rw [hrun] at ht
          cases ht
          exact ⟨e, c', h⟩
      · rintro ⟨e, c', h⟩
        exact ⟨e, c', bind_eq_error.mpr (.inr ⟨(), _, hrun, h⟩)⟩
    · rw [if_neg hok] at hrun
      refine iff_of_true ?_ (escrever_falha (Bool.eq_false_iff.mpr hok) _)
      exact ⟨_, _, bind_eq_error.mpr (.inl hrun)⟩

theorem gravarNovos_livre {novos : List Block} {c : Blockchain}
    (h : c.store = none ∨ c.loading = true) : gravarNovos novos c = .ok () c := by
  induction novos with
  | nil => rfl
  | cons b novos ih => exact bind_eq_ok.mpr ⟨(), c, noDisco_livre h, ih⟩

theorem reescreverDisco_falhou {common : ℕ} {novos : List Block} {c : Blockchain} :
    Falhou (reescreverDisco common novos c) ↔ DiscoRecusa c common novos := by
  by_cases hlivre : c.store = none ∨ c.loading = true
  · have hrun : reescreverDisco common novos c = .ok () c :=
      bind_eq_ok.mpr ⟨(), c, noDisco_livre hlivre, gravarNovos_livre hlivre⟩
    rw [hrun]
    refine iff_of_false ?_ ?_
    · rintro ⟨e, c', h⟩
      cases h
    · rintro ⟨hl, d, hd, -⟩
      rcases hlivre with h | h
      · rw [h] at hd
        cases hd
      · rw [h] at hl
        cases hl
  rw [not_or, Bool.not_eq_true] at hlivre
  obtain ⟨hsome, hl⟩ := hlivre
  obtain ⟨d, hst⟩ := Option.ne_none_iff_exists'.mp hsome
  have hrun := noDisco_run (fun d => d.truncateFrom (common + 1))
    "truncar o rabo antigo no disco" hst hl
  have hrecusa : DiscoRecusa c common novos ↔ recusaEm d (escritas d common novos) = true := by
    constructor
    · rintro ⟨-, d', hd', h⟩
      rw [hst] at hd'
      cases hd'
      exact h
    · intro h
      exact ⟨hl, d, hst, h⟩
  rw [hrecusa]
  by_cases hcurto : common + 1 < d.linhas.length
  · have htr : d.truncateFrom (common + 1) = d.escrever (d.linhas.take (common + 1)) := if_pos hcurto
    have hn : escritas d common novos = novos.length + 1 := by
      unfold escritas
      rw [if_pos hcurto, Nat.add_comm]
    rw [hn]
    by_cases hok : (d.escrever (d.linhas.take (common + 1))).1 = true
    · rw [htr, if_pos hok] at hrun
      rw [escrever_passa hok]
      refine Iff.trans ?_ (gravarNovos_falhou (c := { c with
        store := some (d.escrever (d.linhas.take (common + 1))).2 }) rfl hl)
      constructor
      · rintro ⟨e, c', h⟩
        rcases bind_eq_error.mp h with h | ⟨_, t, ht, h⟩
        · rw [hrun] at h
          cases h
        · rw [hrun] at ht
          cases ht
          exact ⟨e, c', h⟩
      · rintro ⟨e, c', h⟩
        exact ⟨e, c', bind_eq_error.mpr (.inr ⟨(), _, hrun, h⟩)⟩
    · rw [htr, if_neg hok] at hrun
      refine iff_of_true ?_ (escrever_falha (Bool.eq_false_iff.mpr hok) _)
      exact ⟨_, _, bind_eq_error.mpr (.inl hrun)⟩
  · have htr : d.truncateFrom (common + 1) = (true, d) := if_neg hcurto
    have hn : escritas d common novos = novos.length := by
      unfold escritas
      rw [if_neg hcurto, Nat.zero_add]
    rw [htr, if_pos rfl] at hrun
    rw [hn]
    refine Iff.trans ?_ (gravarNovos_falhou (c := { c with store := some d }) rfl hl)
    constructor
    · rintro ⟨e, c', h⟩
      rcases bind_eq_error.mp h with h | ⟨_, t, ht, h⟩
      · rw [hrun] at h
        cases h
      · rw [hrun] at ht
        cases ht
        exact ⟨e, c', h⟩
    · rintro ⟨e, c', h⟩
      exact ⟨e, c', bind_eq_error.mpr (.inr ⟨(), _, hrun, h⟩)⟩

/-! ## The memory after a failed call -/

/-- The two calls that take blocks from a peer. -/
inductive Chamada where
  | addBlock (block : Block) (now : ℤ)
  | reorg (common : ℤ) (novos : List Block) (now : ℤ)

def Chamada.executa (amb : Ambiente) : Chamada → Cadeia Unit
  | addBlock block now => Blockchain.addBlock amb block now
  | reorg common novos now => do
    let _ ← Blockchain.reorg amb common novos now

/-- A call that returns an error leaves the memory as it was. -/
def PreservaMemoria (amb : Ambiente) (c : Blockchain) (ch : Chamada) : Prop :=
  ∀ msg c', ch.executa amb c = .error (.erro msg) c' → c'.semDisco = c.semDisco

/-- A reorganisation that goes through every check discards no block, or every
write it makes is accepted by the disk. -/
def DiscoComporta (amb : Ambiente) (c : Blockchain) : Chamada → Prop
  | .addBlock _ _ => True
  | .reorg common novos now => ∀ cand, Substitui amb c common novos now cand →
      c.tail.length ≤ common.toNat + 1 - c.tailStart ∨ ¬ DiscoRecusa c common.toNat novos

section

variable {amb : Ambiente} {c : Blockchain} {common now : ℤ} {novos : List Block}
  {cand : Blockchain}

theorem substituir_error_of_recusa {k : ℕ} (h : DiscoRecusa c k novos) :
    ∃ msg c', substituir amb k novos cand c = .error (.erro msg) c' ∧
      c'.tail = c.tail.take (k + 1 - c.tailStart) := by
  have h' : DiscoRecusa { c with tail := c.tail.take (k + 1 - c.tailStart) } k novos := h
  obtain ⟨e, c', hrun⟩ := reescreverDisco_falhou.mpr h'
  obtain ⟨⟨st, rfl⟩, msg, rfl⟩ := (reescreverDisco_runs _ _ _).error hrun
  have hsub : substituir amb k novos cand c = .error (.erro msg)
      { c with tail := c.tail.take (k + 1 - c.tailStart), store := st } := by
    unfold substituir
    rw [get_bind_run, set_bind_run]
    exact bind_eq_error.mpr (.inl hrun)
  exact ⟨msg, _, hsub, rfl⟩

theorem substituir_erro {k : ℕ} {msg : String} {c' : Blockchain}
    (h : substituir amb k novos cand c = .error (.erro msg) c') :
    DiscoRecusa c k novos ∧ SoDisco { c with tail := c.tail.take (k + 1 - c.tailStart) } c' := by
  unfold substituir at h
  rw [get_bind_run, set_bind_run] at h
  rcases bind_eq_error.mp h with hdisco | ⟨_, c₁, -, h₁⟩
  · have hrecusa : DiscoRecusa { c with tail := c.tail.take (k + 1 - c.tailStart) } k novos :=
      reescreverDisco_falhou.mp ⟨_, _, hdisco⟩
    exact ⟨hrecusa, ((reescreverDisco_runs _ _ _).error hdisco).1⟩
  · rw [modify_bind_run] at h₁
    rcases bind_eq_error.mp h₁ with h₂ | ⟨_, c₂, -, h₂⟩
    · exact absurd ⟨msg, rfl⟩ ((slideTail_runs amb _).error h₂)
    · cases h₂

/-- A refused write leaves the window cut at the fork. -/
theorem naoPreserva (hsub : Substitui amb c common novos now cand)
    (hlen : common.toNat + 1 - c.tailStart < c.tail.length)
    (hrecusa : DiscoRecusa c common.toNat novos) :
    ¬ PreservaMemoria amb c (.reorg common novos now) := by
  intro h
  obtain ⟨msg, c', hrun, htail⟩ := substituir_error_of_recusa hrecusa
  rw [← reorg_of_substitui hsub] at hrun
  have hsem := h msg c' (bind_eq_error.mpr (.inl hrun))
  have htail' : c'.tail = c.tail := congrArg (·.tail) hsem
  have hlen' := congrArg List.length (htail.symm.trans htail')
  rw [List.length_take] at hlen'
  omega

/-- A failed call keeps the memory exactly when the disk takes the writes of a
reorganisation that discards blocks. -/
theorem preservaMemoria_iff (amb : Ambiente) (c : Blockchain) (ch : Chamada) :
    PreservaMemoria amb c ch ↔ DiscoComporta amb c ch := by
  cases ch with
  | addBlock block now =>
    refine iff_of_true ?_ trivial
    intro msg c' hrun
    exact (addBlock_erro hrun ⟨msg, rfl⟩).semDisco_eq
  | reorg common novos now =>
    constructor
    · intro h cand hsub
      by_contra hno
      rw [not_or, not_not, not_le] at hno
      exact naoPreserva hsub hno.1 hno.2 h
    · intro h msg c' hrun
      rcases bind_eq_error.mp hrun with hrun | ⟨r, t, -, hpure⟩
      · rcases reorg_cases amb c common novos now with ⟨cand, hsub, heq⟩ | heq | ⟨e, heq⟩
        · rw [heq] at hrun
          obtain ⟨hrecusa, hdisco⟩ := substituir_erro hrun
          rcases h cand hsub with hcurto | hno
          · rw [hdisco.semDisco_eq, List.take_of_length_le hcurto]
          · exact absurd hrecusa hno
        · rw [heq] at hrun
          cases hrun
        · rw [heq] at hrun
          cases hrun
          rfl
      · cases hpure

end

/-! ## A refused truncation -/

/-- A disk that refuses the truncation of one reorganisation. -/
theorem recusa_trio : ∃ (bs novos : List Block) (c cand : Blockchain),
    Coerente ambienteIdeal geneseTrio bs c ∧
      Substitui ambienteIdeal c ((0 : ℕ) : ℤ) novos (10 ^ 9) cand ∧
      ((0 : ℕ) : ℤ).toNat + 1 - c.tailStart < c.tail.length ∧
      DiscoRecusa c ((0 : ℕ) : ℤ).toNat novos := by
  obtain ⟨bs, c, hcres⟩ := cresce_trio [1] (by decide) (by decide) (by decide)
  have hcoer : Coerente ambienteIdeal geneseTrio bs c :=
    coerente_trio.addBlocks hcres.aceitos
  have hum : bs.length = 1 := by
    have := congrArg List.length hcres.instantes
    rwa [List.length_map] at this
  -- The disk holds the chain and refuses its next write.
  let d : Disco := { linhas := geneseTrio :: bs, falhas := [true] }
  let cd : Blockchain := { c with store := some d }
  have hcd : Coerente ambienteIdeal geneseTrio ([] ++ bs) cd := hcoer.soDisco ⟨some d, rfl⟩
  have hts : cd.tailStart = 0 := hcres.tailStart
  obtain ⟨c₀, hcand, hpronta, hcab, -⟩ :=
    pronta_trio.candidato coerente_trio hcd (by rw [hts]; exact Nat.zero_le _)
  have hinicio : ∀ u, c₀.head = some u → slotFor u.timestamp ≤ ((0 : ℕ) : ℤ) := by
    rw [hcab]
    rintro u ⟨⟩
    decide
  obtain ⟨novos, cand, hnovos⟩ := hpronta.cresce digere_ideal trio_capaz trio_distinto (by decide)
    le_rfl [2, 3] hinicio (by decide) (by decide) (by decide)
  have hpode : cd.podeReorganizar ((0 : ℕ) : ℤ) = .ok () := by
    obtain ⟨vs, hvs, hnomes⟩ := hcres.pronta.rede
    have hlen : vs.length = 3 := by
      have := congrArg List.length hnomes
      rwa [List.length_map] at this
    refine podeReorganizar_of_final (finalizedHeight_curto (c := cd) hvs ?_) (by decide) ?_
    · rw [hcd.height, List.nil_append, hum, hlen]
      decide
    · rw [hts]
      decide
  have hsub := substitui_of_cresceu hcd hpode hcand hnovos (by rw [hum]; decide)
  refine ⟨[] ++ bs, novos, cd, cand, hcd, hsub, ?_, ?_⟩
  · rw [hcd.janela.tail_length, hts, List.length_cons, List.nil_append, hum]
    decide
  · refine ⟨hcres.pronta.emUso, d, rfl, ?_⟩
    have hgrande : escritas d 0 novos = novos.length + 1 := by
      unfold escritas
      rw [if_pos, Nat.add_comm]
      change 0 + 1 < (geneseTrio :: bs).length
      rw [List.length_cons, hum]
      decide
    exact congrArg (recusaEm d) hgrande

/-- The window still holds the blocks above the fork although the call failed. -/
theorem truncagem_recusada_corta_a_janela :
    ¬ ∀ (amb : Ambiente) (c : Blockchain) (ch : Chamada), PreservaMemoria amb c ch := by
  obtain ⟨bs, novos, c, cand, -, hsub, hlen, hrecusa⟩ := recusa_trio
  intro h
  exact naoPreserva hsub hlen hrecusa (h ambienteIdeal c _)

end Eav7.Blockchain
