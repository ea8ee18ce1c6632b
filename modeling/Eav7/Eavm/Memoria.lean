import Eav7.Eavm.Copia

/-!
# What a memory costs

The price of a memory is quadratic with a floor, and an expansion pays the difference of two
prices. Over the life of a frame the differences add up to the price of the largest size, and
the buffer, which doubles, never falls behind the size that was paid.
-/

namespace Eav7.Eavm

open Base

/-- The price of a memory of `w` words, without the limits of the machine. -/
def precoMem (w : ℕ) : ℕ := gasMemWord * w + w * w / 512

theorem precoMem_mono {a b : ℕ} (h : a ≤ b) : precoMem a ≤ precoMem b := custoMem_mono h

section

variable {σ : Type} {i : Interp σ}

/-! ## One expansion -/

/-- What the memory of a frame keeps: the size within the limit, the buffer whole words, enough
for the size and at most twice the limit. -/
structure EmDia (i : Interp σ) : Prop where
  limite : i.memWords ≤ limiteMemoria / 32
  cobre : 32 * i.memWords ≤ i.mem.length
  inteira : 32 ∣ i.mem.length
  teto : i.mem.length ≤ 2 * limiteMemoria

theorem emDia_inicial (p : ExecParams) (s : σ) : EmDia (interpInicial p s) :=
  ⟨Nat.zero_le _, Nat.le_refl _, Dvd.intro 0 rfl, Nat.zero_le _⟩

/-- An expansion to a size pays the difference of the prices, once. -/
structure PagaExpansao (i : Interp σ) (words : ℕ) (j : Interp σ) : Prop where
  memWords : j.memWords = max i.memWords words
  gas : precoMem (max i.memWords words) - precoMem i.memWords ≤ i.gasLeft
  gasLeft : j.gasLeft = i.gasLeft - (precoMem (max i.memWords words) - precoMem i.memWords)

theorem spend_runs (g : ℕ) : Runs (spend g) i
    (fun _ j => g ≤ i.gasLeft ∧ j = { i with gasLeft := i.gasLeft - g }) fun e _ => EFalha e := by
  unfold spend exige
  refine Runs.get_bind (Runs.bind (Runs.ite (fun hg => ?_) fun _ => ?_))
  · exact Runs.pure_intro (Runs.set_intro ⟨hg, rfl⟩)
  · exact Runs.throw_intro ⟨_, rfl⟩

theorem cobraExpansao_runs {words : ℕ} (hi : EmDia i) (h : words ≤ limiteMemoria / 32) :
    Runs (cobraExpansao words) i (fun _ j => PagaExpansao i words j ∧ j.mem = i.mem)
      fun e _ => EFalha e := by
  unfold cobraExpansao
  refine Runs.get_bind (Runs.ite (fun hlt => ?_) fun hge => ?_)
  · have hmax : max i.memWords words = words := max_eq_right hlt.le
    refine Runs.lift_bind_ok (custoMem_ok h) (Runs.lift_bind_ok (custoMem_ok hi.limite) ?_)
    refine Runs.lift_bind_ok (u64Sub_ok (custoMem_mono hlt.le)) (Runs.bind ?_)
    refine (spend_runs _).mono ?_ fun _ _ he => he
    rintro _ _ ⟨hgas, rfl⟩
    refine Runs.modify_intro ⟨⟨hmax.symm, ?_, ?_⟩, rfl⟩ <;> rw [hmax]
    · exact hgas
    · rfl
  · have hmax : max i.memWords words = i.memWords := max_eq_left (not_lt.mp hge)
    refine Runs.pure_intro ⟨⟨hmax.symm, ?_, ?_⟩, rfl⟩ <;> rw [hmax, Nat.sub_self]
    · exact Nat.zero_le _
    · rfl

/-- The buffer grows to what was asked or to its double, and stays whole words. -/
theorem cresceMem_runs {words fim : ℕ} (hteto : i.mem.length ≤ 2 * limiteMemoria)
    (hinteira : 32 ∣ i.mem.length) (h : words ≤ limiteMemoria / 32) (hfim : fim ≤ limiteMemoria)
    (hwords : words = divCeil fim 32) :
    Runs (cresceMem words fim) i
      (fun _ j => j.memWords = i.memWords ∧ j.gasLeft = i.gasLeft ∧
        i.mem.length ≤ j.mem.length ∧ 32 * words ≤ j.mem.length ∧ 32 ∣ j.mem.length ∧
        j.mem.length ≤ 2 * limiteMemoria)
      fun e _ => EFalha e := by
  have hw : words ≤ 3125000 := h
  have hceil : fim ≤ words * 32 ∧ words * 32 < fim + 32 := by
    unfold divCeil at hwords
    omega
  unfold limiteMemoria at hfim hteto ⊢
  unfold cresceMem
  refine Runs.get_bind (Runs.ite (fun hlt => ?_) fun hge => ?_)
  · refine Runs.lift_bind_ok (dentro_ok (by unfold usizeMax; omega)) ?_
    refine Runs.lift_bind_ok (dentro_ok (by unfold usizeMax; omega)) (Runs.set_intro ?_)
    refine ⟨rfl, rfl, ?_⟩
    dsimp only
    rw [rightPad_length]
    omega
  · exact Runs.pure_intro (by omega)

/-- A range that a frame asks for. -/
structure Pedido where
  offset : Word
  size : Word

namespace Pedido

/-- The words up to the end of the range. An empty range asks for none. -/
def palavras (p : Pedido) : ℕ :=
  if p.size = 0 then 0 else divCeil (p.offset.toNat + p.size.toNat) 32

/-- The range lies inside a memory, and the indices of the machine are not saturated. -/
structure Coberto (p : Pedido) (mem : Bytes) : Prop where
  offset : usizeSat p.offset = p.offset.toNat
  size : usizeSat p.size = p.size.toNat
  limite : p.offset.toNat + p.size.toNat ≤ limiteMemoria
  fim : p.offset.toNat + p.size.toNat ≤ mem.length

theorem Coberto.mono {p : Pedido} {antes depois : Bytes} (h : p.Coberto antes)
    (hlen : antes.length ≤ depois.length) : p.Coberto depois :=
  { h with fim := h.fim.trans hlen }

end Pedido

/-- An expansion leaves a memory in order that covers the range, or the frame fails: no
product and no sum leaves the machine words. -/
theorem memExpand_runs (hi : EmDia i) (p : Pedido) :
    Runs (memExpand p.offset p.size) i
      (fun _ j => EmDia j ∧ PagaExpansao i p.palavras j ∧ i.mem.length ≤ j.mem.length ∧
        (p.size ≠ 0 → p.Coberto j.mem))
      fun e _ => EFalha e := by
  unfold memExpand Pedido.palavras
  refine Runs.ite (fun hzero => Runs.pure_intro ?_) fun hzero => ?_
  · rw [if_pos hzero]
    refine ⟨hi, ⟨(max_eq_left (Nat.zero_le _)).symm, ?_, ?_⟩, Nat.le_refl _,
      fun hne => absurd hzero hne⟩
    · rw [max_eq_left (Nat.zero_le _), Nat.sub_self]
      exact Nat.zero_le _
    · rw [max_eq_left (Nat.zero_le _), Nat.sub_self, Nat.sub_zero]
  rw [if_neg hzero]
  unfold exige
  refine Runs.bind (Runs.ite (fun hlimite => Runs.pure_intro ?_) fun _ =>
    Runs.throw_intro ⟨_, rfl⟩)
  have hsoma : min (u128Sat p.offset + u128Sat p.size) u128Max =
      p.offset.toNat + p.size.toNat := by
    unfold u128Sat u128Max limiteMemoria at *
    omega
  rw [hsoma] at hlimite ⊢
  have hwords : divCeil (p.offset.toNat + p.size.toNat) 32 ≤ limiteMemoria / 32 :=
    divCeil_le (by decide) hlimite
  refine Runs.bind ((cobraExpansao_runs hi hwords).mono ?_ fun _ _ he => he)
  rintro _ t ⟨hpaga, hmem⟩
  refine (cresceMem_runs (by rw [hmem]; exact hi.teto) (by rw [hmem]; exact hi.inteira) hwords
    hlimite rfl).mono ?_ fun _ _ he => he
  rintro _ j ⟨hmemWords, hgas, hcresce, hcabe, hinteira, hteto⟩
  rw [hmem] at hcresce
  have hcobre := hi.cobre
  refine ⟨⟨?_, ?_, hinteira, hteto⟩, ⟨?_, hpaga.gas, ?_⟩, hcresce, fun _ => ?_⟩
  · rw [hmemWords, hpaga.memWords]
    exact max_le hi.limite hwords
  · rw [hmemWords, hpaga.memWords]
    omega
  · rw [hmemWords, hpaga.memWords]
  · rw [hgas, hpaga.gasLeft]
  · refine ⟨usizeSat_of_le (by omega), usizeSat_of_le (by omega), hlimite, ?_⟩
    unfold divCeil at hcabe
    omega

/-! ## The life of a frame -/

/-- The life of a frame, seen from its memory: the ranges its expansions asked for, the last one
first, and the gas they took. What else the frame does keeps the size and the length of the
buffer. -/
inductive Expansoes : Interp σ → List Pedido → ℕ → Prop
  | inicio (p : ExecParams) (s : σ) : Expansoes (interpInicial p s) [] 0
  | expande {i j : Interp σ} {ps : List Pedido} {gasto : ℕ} (p : Pedido) :
      Expansoes i ps gasto → memExpand p.offset p.size i = .ok () j →
      Expansoes j (p :: ps) (gasto + (i.gasLeft - j.gasLeft))
  | resto {i j : Interp σ} {ps : List Pedido} {gasto : ℕ} : Expansoes i ps gasto →
      j.memWords = i.memWords → j.mem.length = i.mem.length → Expansoes j ps gasto

/-- The largest size that some ranges ask for. -/
def maiorPedido (ps : List Pedido) : ℕ := ps.foldr (fun p w => max w p.palavras) 0

variable {ps : List Pedido} {gasto : ℕ}

theorem Expansoes.emDia (h : Expansoes i ps gasto) : EmDia i := by
  induction h with
  | inicio p s => exact emDia_inicial p s
  | expande p _ hexpande ih => exact ((memExpand_runs ih p).ok hexpande).1
  | resto _ hwords hlen ih => exact ⟨hwords ▸ ih.limite, by rw [hwords, hlen]; exact ih.cobre,
      hlen ▸ ih.inteira, hlen ▸ ih.teto⟩

/-- The prices paid add up to the price of the largest size. -/
theorem Expansoes.telescopa (h : Expansoes i ps gasto) :
    i.memWords = maiorPedido ps ∧ gasto = precoMem (maiorPedido ps) := by
  induction h with
  | inicio p s => exact ⟨rfl, rfl⟩
  | @expande i j ps gasto p hantes hexpande ih =>
    obtain ⟨hwords, hgasto⟩ := ih
    obtain ⟨-, hpaga, -⟩ := (memExpand_runs hantes.emDia p).ok hexpande
    have hmaior : max i.memWords p.palavras = maiorPedido (p :: ps) := by
      rw [hwords]
      rfl
    refine ⟨hpaga.memWords.trans hmaior, ?_⟩
    have hgas := hpaga.gas
    have hmono : precoMem i.memWords ≤ precoMem (maiorPedido (p :: ps)) :=
      precoMem_mono (hmaior ▸ le_max_left _ _)
    rw [hmaior] at hgas
    rw [hgasto, hpaga.gasLeft, hmaior, ← hwords]
    omega
  | resto _ hwords _ ih => exact ⟨hwords.trans ih.1, ih.2⟩

/-- What was asked for once is covered from then on. -/
theorem Expansoes.coberto (h : Expansoes i ps gasto) :
    ∀ p ∈ ps, p.size ≠ 0 → p.Coberto i.mem := by
  induction h with
  | inicio p s => nofun
  | expande p hantes hexpande ih =>
    obtain ⟨-, -, hcresce, hnovo⟩ := (memExpand_runs hantes.emDia p).ok hexpande
    intro r hr hne
    rcases List.mem_cons.mp hr with rfl | hr
    · exact hnovo hne
    · exact (ih r hr hne).mono hcresce
  | resto _ _ hlen ih => exact fun r hr hne => (ih r hr hne).mono hlen.ge

/-! ## Reads and writes -/

/-- A computation that makes this expansion and no other: it goes on with the life of the frame
or fails as a frame fails. -/
def Prossegue (p : Pedido) (m : Passo σ α) (i : Interp σ) (P : α → Prop) : Prop :=
  ∀ ps gasto, Expansoes i ps gasto →
    Runs m i (fun a j => Expansoes j (p :: ps) (gasto + (i.gasLeft - j.gasLeft)) ∧ P a)
      fun e _ => EFalha e

theorem prossegue_memExpand (p : Pedido) :
    Prossegue p (memExpand p.offset p.size) i fun _ => True := by
  intro ps gasto h
  have hruns := memExpand_runs h.emDia p
  exact Runs.intro (fun _ _ hj => ⟨h.expande p hj, trivial⟩) fun _ _ he => hruns.error he

/-- What follows the expansion may count on the range. -/
theorem prossegue_bind {p : Pedido} {f : Unit → Passo σ α} {P : α → Prop}
    (hf : ∀ j, (p.size ≠ 0 → p.Coberto j.mem) →
      Runs (f ()) j (fun a t => (t.memWords = j.memWords ∧ t.mem.length = j.mem.length ∧
        t.gasLeft = j.gasLeft) ∧ P a) fun e _ => EFalha e) :
    Prossegue p (memExpand p.offset p.size >>= f) i P := by
  intro ps gasto h
  have hruns := memExpand_runs h.emDia p
  refine Runs.bind (Runs.intro (fun _ j hj => ?_) fun _ _ he => hruns.error he)
  have hcoberto : p.size ≠ 0 → p.Coberto j.mem := (hruns.ok hj).2.2.2
  refine (hf j hcoberto).mono ?_ fun _ _ he => he
  rintro a t ⟨⟨hwords, hlen, hgas⟩, ha⟩
  rw [hgas]
  exact ⟨(h.expande p hj).resto hwords hlen, ha⟩

theorem prossegue_memRead (p : Pedido) :
    Prossegue p (memRead p.offset p.size) i fun b => b.length = p.size.toNat := by
  unfold memRead
  refine prossegue_bind fun j hcoberto => Runs.ite (fun hzero => ?_) fun hne => ?_
  · rw [hzero]
    exact Runs.pure_intro ⟨⟨rfl, rfl, rfl⟩, rfl⟩
  · have hp := hcoberto hne
    have hlimite := hp.limite
    rw [hp.offset, hp.size]
    refine Runs.get_bind (Runs.lift_bind_ok (dentro_ok ?_) ?_)
    · unfold usizeMax limiteMemoria at *
      omega
    · rw [fatiaDe_ok (Nat.le_add_right _ _) hp.fim]
      refine Runs.pure_intro ⟨⟨rfl, rfl, rfl⟩, ?_⟩
      rw [length_fatia hp.fim, Nat.add_sub_cancel_left]

theorem escreve_runs {ini : ℕ} {fonte : Bytes} (h : ini + fonte.length ≤ i.mem.length) :
    Runs (escreve ini fonte) i
      (fun _ j => (j.memWords = i.memWords ∧ j.mem.length = i.mem.length ∧
        j.gasLeft = i.gasLeft) ∧ True) fun e _ => EFalha e := by
  unfold escreve
  refine Runs.get_bind (Runs.lift_bind_ok (copiaEm_ok h) (Runs.set_intro ⟨⟨rfl, ?_, rfl⟩, trivial⟩))
  simp only [List.length_append, List.length_take, List.length_drop]
  omega

/-- The range that a buffer of so many bytes asks for. -/
def faixaDe (offset : Word) (n : ℕ) : Pedido := ⟨offset, BitVec.ofNat 256 n⟩

theorem toNat_faixaDe (offset : Word) {n : ℕ} (h : n ≤ u64Max) :
    (faixaDe offset n).size.toNat = n := toNat_ofNat_of_le h

theorem faixaDe_ne_zero (offset : Word) {n : ℕ} (h : n ≤ u64Max) (hne : n ≠ 0) :
    (faixaDe offset n).size ≠ 0 := by
  intro hzero
  have := toNat_faixaDe offset h
  rw [hzero] at this
  exact hne this.symm

theorem prossegue_memWrite (offset : Word) {bytes : Bytes} (h : bytes.length ≤ isizeMax) :
    Prossegue (faixaDe offset bytes.length) (memWrite offset bytes) i fun _ => True := by
  have hlen : bytes.length ≤ u64Max := h.trans (by decide)
  unfold memWrite
  refine prossegue_bind fun j hcoberto => Runs.ite (fun _ => ?_) fun hne => ?_
  · exact Runs.pure_intro ⟨⟨rfl, rfl, rfl⟩, trivial⟩
  · have hp := hcoberto (faixaDe_ne_zero offset hlen fun hz => hne (List.length_eq_zero_iff.mp hz))
    have hfim := hp.fim
    rw [toNat_faixaDe offset hlen] at hfim
    have hoffset : usizeSat offset = offset.toNat := hp.offset
    rw [hoffset]
    exact escreve_runs hfim

theorem prossegue_copiaParaMem (dest : Word) (src : Bytes) (srcOff : ℕ) {size : ℕ}
    (h : size ≤ usizeMax) :
    Prossegue (faixaDe dest size) (copiaParaMem dest src srcOff size) i fun _ => True := by
  unfold copiaParaMem
  refine prossegue_bind fun j hcoberto => Runs.ite (fun _ => ?_) fun hne => ?_
  · exact Runs.pure_intro ⟨⟨rfl, rfl, rfl⟩, trivial⟩
  refine Runs.ite (fun hsobra => ?_) fun _ => Runs.pure_intro ⟨⟨rfl, rfl, rfl⟩, trivial⟩
  have hp := hcoberto (faixaDe_ne_zero dest h hne)
  have hfim := hp.fim
  rw [toNat_faixaDe dest h] at hfim
  have hdest : usizeSat dest = dest.toNat := hp.offset
  refine Runs.lift_bind_ok (fatiaDe_ok hsobra.le (min_le_right _ _)) ?_
  rw [hdest]
  refine escreve_runs ?_
  rw [length_fatia (min_le_right _ _)]
  change dest.toNat + size ≤ j.mem.length at hfim
  omega

/-- Over the life of a frame the expansions cost the price of the largest size reached, the
buffer holds it, and no read or write after an expansion leaves the buffer. -/
theorem gas_da_memoria (h : Expansoes i ps gasto) :
    gasto = 3 * maiorPedido ps + maiorPedido ps * maiorPedido ps / 512 ∧
      i.memWords = maiorPedido ps ∧ 32 * maiorPedido ps ≤ i.mem.length ∧
      (∀ p ∈ ps, p.size ≠ 0 → p.Coberto i.mem) ∧
      (∀ p : Pedido, Prossegue p (memExpand p.offset p.size) i fun _ => True) ∧
      (∀ p : Pedido, Prossegue p (memRead p.offset p.size) i fun b => b.length = p.size.toNat) ∧
      (∀ offset bytes, bytes.length ≤ isizeMax →
        Prossegue (faixaDe offset bytes.length) (memWrite offset bytes) i fun _ => True) ∧
      (∀ dest src srcOff size, size ≤ usizeMax →
        Prossegue (faixaDe dest size) (copiaParaMem dest src srcOff size) i fun _ => True) := by
  obtain ⟨hwords, hgasto⟩ := h.telescopa
  refine ⟨hgasto, hwords, hwords ▸ h.emDia.cobre, h.coberto, prossegue_memExpand,
    prossegue_memRead, fun offset _ hlen => prossegue_memWrite offset hlen,
    fun dest src srcOff _ hsize => prossegue_copiaParaMem dest src srcOff hsize⟩

end

/-- Two expansions of one frame, to two words and then to three in a buffer of four. -/
theorem gas_de_tres_palavras : ∃ i : Interp Unit, ∃ ps, Expansoes i ps 9 ∧
    maiorPedido ps = 3 ∧ i.memWords = 3 ∧ 96 ≤ i.mem.length := by
  have hantes : Expansoes (interpInicial paramsDaCopia ()) [] 0 := .inicio paramsDaCopia ()
  have hduas := hantes.expande (j := { interpInicial paramsDaCopia () with
    gasLeft := 94, memWords := 2, mem := List.replicate 64 0 }) ⟨0, 33⟩ rfl
  have htres := hduas.expande (j := { interpInicial paramsDaCopia () with
    gasLeft := 91, memWords := 3, mem := List.replicate 128 0 }) ⟨64, 1⟩ rfl
  obtain ⟨-, hwords, hlen, -⟩ := gas_da_memoria htres
  exact ⟨_, _, htres, rfl, hwords, hlen⟩

end Eav7.Eavm
