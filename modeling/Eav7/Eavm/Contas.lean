import Eav7.Eavm.Instrucoes
import Eav7.Ideal

/-!
# The gas of nested frames

No precompiled contract panics on an input that fits in memory, and a call or a
creation answers with at most the gas it was forwarded. The nesting ends because
the host refuses the depth it cannot go below.
-/

namespace Eav7
namespace Eavm

open Base

/-! ## Precompiled contracts -/

section

variable {α β : Type}

/-- A computation without panic, whose result satisfies `P`. -/
def Limpo (x : Except Parada α) (P : α → Prop) : Prop :=
  match x with
  | .ok a => P a
  | .error e => EFalha e

theorem Limpo.bind {x : Except Parada α} {f : α → Except Parada β} {P : α → Prop} {R : β → Prop}
    (hx : Limpo x P) (hf : ∀ a, P a → Limpo (f a) R) : Limpo (x >>= f) R := by
  cases x with
  | ok a => exact hf a hx
  | error e => exact hx

theorem Limpo.pure_intro {a : α} {P : α → Prop} (h : P a) : Limpo (pure a) P := h

theorem limpo_erro {P : α → Prop} (mensagem : String) : Limpo (erroHost mensagem) P :=
  ⟨_, rfl⟩

theorem limpo_dentro {limite n : ℕ} {P : ℕ → Prop} (h : n ≤ limite) (hp : P n) :
    Limpo (dentro limite n) P := by
  rw [dentro_ok h]
  exact hp

theorem Limpo.ite {c : Prop} [Decidable c] {x y : Except Parada α} {P : α → Prop}
    (h : c → Limpo x P) (h' : ¬ c → Limpo y P) : Limpo (if c then x else y) P := by
  by_cases hc : c
  · rw [if_pos hc]
    exact h hc
  · rw [if_neg hc]
    exact h' hc

/-- A computation without panic, run in any state. -/
theorem Limpo.runs {σ : Type} {x : Except Parada α} {P : α → Prop} (h : Limpo x P) (s : σ) :
    Runs (lift x) s (fun a _ => P a) fun e _ => EFalha e := by
  cases x with
  | ok a => exact Runs.pure_intro h
  | error e => exact Runs.throw_intro h

end

/-- The bound of an input read from memory. -/
def CabeNaMemoria (input : Bytes) : Prop := input.length ≤ limiteMemoria

theorem gasPorPalavra_limpo {fixo porPalavra n : ℕ} (hf : fixo ≤ 600) (hp : porPalavra ≤ 120)
    (hn : n ≤ limiteMemoria) : Limpo (gasPorPalavra fixo porPalavra n) fun _ => True := by
  have hw : wordsDe n ≤ limiteMemoria := divCeil_le (by decide) (by omega)
  have hm : porPalavra * wordsDe n ≤ 120 * limiteMemoria := Nat.mul_le_mul hp hw
  unfold limiteMemoria at hm
  refine Limpo.bind (limpo_dentro (P := fun c => c ≤ 120 * 100000000)
    (by unfold u64Max; omega) hm) fun c hc => ?_
  exact limpo_dentro (by unfold u64Max; omega) trivial

theorem modexpLengths_limpo (input : Bytes) :
    Limpo (modexpLengths input) fun l =>
      l.1 ≤ modexpMaxLen ∧ l.2.1 ≤ modexpMaxLen ∧ l.2.2 ≤ modexpMaxLen := by
  unfold modexpLengths
  refine Limpo.ite (fun _ => limpo_erro _) fun h => ?_
  exact Limpo.pure_intro (by simp only; omega)

theorem modexpGas_limpo {bl el ml expHead : ℕ} (hb : bl ≤ modexpMaxLen) (hm : ml ≤ modexpMaxLen) :
    Limpo (modexpGas bl el ml expHead) fun _ => True := by
  have hw : divCeil (max bl ml) 8 ≤ 128 :=
    divCeil_le (by decide) (by unfold modexpMaxLen at hb hm; omega)
  have hq : divCeil (max bl ml) 8 * divCeil (max bl ml) 8 ≤ 128 * 128 := Nat.mul_le_mul hw hw
  unfold modexpGas
  refine Limpo.bind (limpo_dentro (P := fun c => c ≤ 128 * 128)
    (by unfold u64Max; omega) hq) fun c hc => ?_
  exact Limpo.bind (limpo_dentro (P := fun _ => True) (by unfold u64Max; omega) trivial)
    fun _ _ => Limpo.pure_intro trivial

theorem modexpGasFromInput_limpo (input : Bytes) :
    Limpo (modexpGasFromInput input) fun _ => True := by
  unfold modexpGasFromInput
  exact Limpo.bind (modexpLengths_limpo input) fun l hl => modexpGas_limpo hl.1 hl.2.2

theorem blake2fForma_limpo (input : Bytes) : Limpo (blake2fForma input) fun _ => True := by
  unfold blake2fForma
  refine Limpo.ite (fun _ => limpo_erro _) fun _ => Limpo.ite (fun _ => limpo_erro _) fun _ => ?_
  exact Limpo.pure_intro trivial

theorem precompileGas_limpo (id : ℕ) {input : Bytes} (h : CabeNaMemoria input) :
    Limpo (precompileGas id input) fun _ => True := by
  unfold precompileGas
  split
  · exact Limpo.pure_intro trivial
  · exact gasPorPalavra_limpo (by decide) (by decide) h
  · exact gasPorPalavra_limpo (by decide) (by decide) h
  · exact gasPorPalavra_limpo (by decide) (by decide) h
  · exact modexpGasFromInput_limpo input
  · exact Limpo.pure_intro trivial
  · exact Limpo.pure_intro trivial
  · exact Limpo.ite (fun _ => limpo_erro _) fun _ => Limpo.pure_intro trivial
  · exact Limpo.bind (blake2fForma_limpo input) fun _ _ => Limpo.pure_intro trivial
  · exact limpo_erro _

/-- The output of a precompiled contract is a `Vec`. -/
def CabeNoVec (out : Bytes) : Prop := out.length ≤ isizeMax

theorem pad32_length (b : Bytes) : (pad32 b).length = 32 := by
  simp only [pad32, List.length_append, List.length_replicate, List.length_drop]
  omega

theorem ecrecover_length (cr : Cripto) (input : Bytes) : (ecrecover cr input).length ≤ 32 := by
  unfold ecrecover
  dsimp only
  split_ifs
  · exact Nat.zero_le _
  · exact Nat.zero_le _
  all_goals
    split
    · exact Nat.le_of_eq (pad32_length _)
    · exact Nat.zero_le _

theorem modexpRun_limpo (input : Bytes) : Limpo (modexpRun input) CabeNoVec := by
  unfold modexpRun
  refine Limpo.bind (modexpLengths_limpo input) fun l hl => Limpo.ite (fun _ => ?_) fun _ => ?_
  · exact Limpo.pure_intro (Nat.zero_le _)
  · refine Limpo.pure_intro ?_
    rw [CabeNoVec, bytesDeNatural_length]
    exact hl.2.2.trans (by decide)

theorem readFq_limpo (b : Bytes) (off : ℕ) : Limpo (readFq b off) fun _ => True := by
  unfold readFq
  exact Limpo.ite (fun _ => limpo_erro _) fun _ => Limpo.pure_intro trivial

section

variable (pc : Precompilados)

theorem readG1_limpo (b : Bytes) (off : ℕ) : Limpo (readG1 pc b off) fun _ => True := by
  unfold readG1
  refine Limpo.bind (readFq_limpo b off) fun x _ => Limpo.bind (readFq_limpo b _) fun y _ => ?_
  refine Limpo.ite (fun _ => Limpo.pure_intro trivial) fun _ => ?_
  exact Limpo.ite (fun _ => limpo_erro _) fun _ => Limpo.pure_intro trivial

theorem readG2_limpo (b : Bytes) (off : ℕ) : Limpo (readG2 pc b off) fun _ => True := by
  unfold readG2
  refine Limpo.bind (readFq_limpo b off) fun xIm _ => Limpo.bind (readFq_limpo b _) fun xRe _ => ?_
  refine Limpo.bind (readFq_limpo b _) fun yIm _ => Limpo.bind (readFq_limpo b _) fun yRe _ => ?_
  refine Limpo.ite (fun _ => Limpo.pure_intro trivial) fun _ => ?_
  refine Limpo.ite (fun _ => limpo_erro _) fun _ => ?_
  exact Limpo.ite (fun _ => limpo_erro _) fun _ => Limpo.pure_intro trivial

theorem lePares_limpo (input : Bytes) (k off : ℕ) : Limpo (lePares pc input k off) fun _ => True := by
  induction k generalizing off with
  | zero => exact Limpo.pure_intro trivial
  | succ k ih =>
    unfold lePares
    refine Limpo.bind (readG1_limpo pc input off) fun p _ => ?_
    refine Limpo.bind (readG2_limpo pc input _) fun q _ => Limpo.bind (ih _) fun resto _ => ?_
    split <;> exact Limpo.pure_intro trivial

theorem writeG1_length (p : G1) : (writeG1 p).length = 64 := by
  unfold writeG1
  split
  · exact List.length_replicate
  · rw [List.length_append, bytesDeNatural_length, bytesDeNatural_length]

theorem blake2f_length (fora : List UInt64) : (fora.flatMap paraLeBytes).length = fora.length * 8 := by
  induction fora with
  | nil => rfl
  | cons x xs ih =>
    rw [List.flatMap_cons, List.length_append, ih, paraLeBytes, List.length_reverse,
      bytesDeNatural_length, List.length_cons]
    omega

theorem precompileRun_limpo (cr : Cripto) (id : ℕ) {input : Bytes} (h : CabeNaMemoria input) :
    Limpo (precompileRun cr pc id input) CabeNoVec := by
  unfold precompileRun
  split
  · exact Limpo.pure_intro ((ecrecover_length cr input).trans (by decide))
  · refine Limpo.pure_intro ?_
    rw [CabeNoVec, pc.sha256_length]
    decide
  · refine Limpo.pure_intro ?_
    rw [CabeNoVec, pad32_length]
    decide
  · exact Limpo.pure_intro (h.trans (by decide))
  · exact modexpRun_limpo input
  · refine Limpo.bind (readG1_limpo pc _ _) fun a _ => Limpo.bind (readG1_limpo pc _ _) fun b _ => ?_
    refine Limpo.pure_intro ?_
    rw [CabeNoVec, writeG1_length]
    decide
  · refine Limpo.bind (readG1_limpo pc _ _) fun a _ => Limpo.pure_intro ?_
    rw [CabeNoVec, writeG1_length]
    decide
  · refine Limpo.ite (fun _ => limpo_erro _) fun _ => Limpo.bind (lePares_limpo pc _ _ _) ?_
    refine fun pares _ => Limpo.pure_intro ?_
    simp [CabeNoVec, isizeMax]
  · refine Limpo.bind (blake2fForma_limpo input) fun _ _ => Limpo.pure_intro ?_
    rw [CabeNoVec, blake2f_length, blake2bCompress, List.length_map, List.length_range]
    decide
  · exact limpo_erro _

end

/-! ## Calls and creations -/

section

variable {σ α : Type} {w : World σ} {cr : Cripto} {pc : Precompilados} {h : Host (EavmHost σ)}

/-- Whatever `m` does short of a panic, `tenta m` answers. -/
theorem tenta_responde {τ : Type} {m : EStateM Parada τ α} {s : τ} {P : α → τ → Prop}
    (hm : Runs m s P fun e _ => EFalha e) :
    Runs (tenta m) s (fun r s' => ∀ a, r = .ok a → P a s') fun _ _ => False := by
  refine Runs.intro ?_ ?_
  · rintro r s' hr a rfl
    exact (tenta_runs hm).ok hr
  · intro e s' hr
    obtain ⟨x, rfl⟩ := (tenta_runs hm).error hr
    unfold tenta at hr
    split at hr
    case h_1 => cases hr
    case h_2 => cases hr
    case h_3 e' t hne hms =>
      obtain ⟨rfl, rfl⟩ := hr
      exact hne x rfl

theorem revertWorld_runs (snap : ℕ) (s : EavmHost σ) :
    Runs (revertWorld w snap) s (fun _ _ => True) fun _ _ => False :=
  Runs.modify_intro trivial

/-- What a call owes the frame that made it. -/
def Devido (gas : ℕ) (r : CallOutcome) : Prop :=
  r.gasUsed ≤ gas ∧ r.returnData.length ≤ isizeMax

theorem devido_vazio {gas : ℕ} {success : Bool} : Devido gas { success := success } :=
  ⟨Nat.zero_le _, Nat.zero_le _⟩

theorem devido_falhouTudo (p : CallRequest) : Devido p.gas (falhouTudo p) :=
  ⟨Nat.le_refl _, Nat.zero_le _⟩

theorem rodaPrecompile_limpo (id : ℕ) {p : CallRequest} (hp : CabeNaMemoria p.input) :
    Limpo (rodaPrecompile cr pc id p) fun r => r.2 ≤ p.gas ∧ CabeNoVec r.1 := by
  unfold rodaPrecompile
  refine Limpo.bind (precompileGas_limpo id hp) fun gas _ => ?_
  refine Limpo.ite (fun _ => ⟨_, rfl⟩) fun hgas => ?_
  refine Limpo.bind (precompileRun_limpo pc cr id hp) fun out hout => ?_
  exact Limpo.pure_intro ⟨by omega, hout⟩

theorem snapshot_bind {f : ℕ → NoMundo σ α} {Q : α → EavmHost σ → Prop}
    {E : Parada → EavmHost σ → Prop} {s : EavmHost σ}
    (hf : ∀ n s', Runs (f n) s' Q E) : Runs (snapshotWorld w >>= f) s Q E :=
  Runs.bind (Runs.intro (fun n s' _ => hf n s') fun e s' he => by cases he)

theorem moveValue_bind {de para : Address} {value : Word} {kind : TransferKind}
    {f : Bool → NoMundo σ α} {Q : α → EavmHost σ → Prop} {E : Parada → EavmHost σ → Prop}
    {s : EavmHost σ} (hf : ∀ b s', Runs (f b) s' Q E) :
    Runs (moveValueWorld w de para value kind >>= f) s Q E := by
  refine Runs.bind (Runs.intro (fun b s' _ => hf b s') fun e s' he => ?_)
  unfold moveValueWorld at he
  split_ifs at he

theorem chamaPrecompile_runs {p : CallRequest} (hp : CabeNaMemoria p.input) (id : ℕ)
    (s : EavmHost σ) :
    Runs (chamaPrecompile w cr pc p id) s (fun r _ => Devido p.gas r) fun _ _ => False := by
  unfold chamaPrecompile
  refine snapshot_bind fun snap s => moveValue_bind fun moveu s => Runs.ite (fun _ => ?_) fun _ => ?_
  · exact Runs.bind ((revertWorld_runs snap s).mono (fun _ _ _ => Runs.pure_intro devido_vazio)
      fun _ _ he => he)
  · refine Runs.bind ((tenta_responde ((rodaPrecompile_limpo id hp).runs s)).mono ?_ fun _ _ he => he)
    intro r s' hr
    cases r with
    | ok o => exact Runs.pure_intro ⟨(hr o rfl).1, (hr o rfl).2⟩
    | error e =>
      exact Runs.bind ((revertWorld_runs snap s').mono
        (fun _ _ _ => Runs.pure_intro (devido_falhouTudo p)) fun _ _ he => he)

theorem fechado_devido {gas : ℕ} {r : ExecResult} (hr : Fechado gas r) :
    r.gasUsed ≤ gas ∧ r.returnData.length ≤ isizeMax :=
  ⟨hr.1 ▸ Nat.le_add_right _ _, hr.2.trans (by decide)⟩

theorem rodaCall_runs {p : CallRequest} {code : Bytes} {snap : ℕ}
    (hrun : ∀ osaka s, Runs (runEavm cr h (paramsDeCall p code osaka)) s
      (fun r _ => Fechado p.gas r) fun e _ => EFalha e) (s : EavmHost σ) :
    Runs (rodaCall w cr h p code snap) s (fun r _ => Devido p.gas r) fun _ _ => False := by
  unfold rodaCall
  refine Runs.get_bind (Runs.bind ((tenta_responde (hrun s.osakaHeight s)).mono ?_ fun _ _ he => he))
  intro r s' hr
  cases r with
  | ok res =>
    have hd := fechado_devido (hr res rfl)
    refine Runs.ite (fun _ => Runs.pure_intro hd) fun _ => ?_
    exact Runs.bind ((revertWorld_runs snap s').mono (fun _ _ _ => Runs.pure_intro hd)
      fun _ _ he => he)
  | error e =>
    exact Runs.bind ((revertWorld_runs snap s').mono
      (fun _ _ _ => Runs.pure_intro (devido_falhouTudo p)) fun _ _ he => he)

/-- A call always answers, within the gas it got, when its frame does. -/
theorem executaCall_runs {p : CallRequest} (hp : CabeNaMemoria p.input)
    (hrun : p.depth < maxCallDepth → ∀ (t : EavmHost σ) osaka s,
      Runs (runEavm cr h (paramsDeCall p (w.getCode t.world p.codeAddr) osaka)) s
        (fun r _ => Fechado p.gas r) fun e _ => EFalha e) (s : EavmHost σ) :
    Runs (executaCall w cr pc h p) s (fun r _ => Devido p.gas r) fun _ _ => False := by
  unfold executaCall
  refine Runs.ite (fun _ => Runs.pure_intro devido_vazio) fun hdepth => Runs.get_bind ?_
  cases precompileId p.para (s.osakaHeight ≤ p.block.number) with
  | some id => exact chamaPrecompile_runs hp id s
  | none =>
    refine snapshot_bind fun snap s => moveValue_bind fun moveu s => ?_
    refine Runs.ite (fun _ => ?_) fun _ => Runs.get_bind (Runs.ite (fun _ => ?_) fun _ => ?_)
    · exact Runs.bind ((revertWorld_runs snap s).mono (fun _ _ _ => Runs.pure_intro devido_vazio)
        fun _ _ he => he)
    · exact Runs.pure_intro devido_vazio
    · exact rodaCall_runs (hrun (Nat.lt_of_not_le hdepth) s) s

/-- What a creation owes the frame that made it. -/
def DevidoCreate (gas : ℕ) (r : CreateOutcome) : Prop :=
  r.gasUsed ≤ gas ∧ r.returnData.length ≤ isizeMax

theorem devidoCreate_vazio {gas : ℕ} {success : Bool} {address : Address} :
    DevidoCreate gas { success := success, address := address } :=
  ⟨Nat.zero_le _, Nat.zero_le _⟩

theorem devidoCreate_tudo {gas : ℕ} {address : Address} :
    DevidoCreate gas { address := address, gasUsed := gas } :=
  ⟨Nat.le_refl _, Nat.zero_le _⟩

theorem instala_runs {p : CreateRequest} {address : Address} {snap : ℕ} {res : ExecResult}
    (s : EavmHost σ) :
    Runs (instala w p address snap res) s (fun r _ => DevidoCreate p.gas r) fun _ _ => False := by
  unfold instala
  refine Runs.ite (fun _ => ?_) fun hcabe => Runs.modify_bind (Runs.pure_intro ⟨?_, Nat.zero_le _⟩)
  · exact Runs.bind ((revertWorld_runs snap s).mono
      (fun _ _ _ => Runs.pure_intro devidoCreate_tudo) fun _ _ he => he)
  · exact Nat.le_of_not_lt fun hlt => hcabe (.inr hlt)

theorem rodaCreate_runs {p : CreateRequest} {address : Address} {snap : ℕ}
    (hrun : ∀ osaka s, Runs (runEavm cr h (paramsDeCreate p address osaka)) s
      (fun r _ => Fechado p.gas r) fun e _ => EFalha e) (s : EavmHost σ) :
    Runs (rodaCreate w cr h p address snap) s (fun r _ => DevidoCreate p.gas r)
      fun _ _ => False := by
  unfold rodaCreate
  refine Runs.get_bind (Runs.bind ((tenta_responde (hrun s.osakaHeight s)).mono ?_ fun _ _ he => he))
  intro r s' hr
  cases r with
  | error e =>
    exact Runs.bind ((revertWorld_runs snap s').mono
      (fun _ _ _ => Runs.pure_intro devidoCreate_tudo) fun _ _ he => he)
  | ok res =>
    refine Runs.ite (fun _ => instala_runs s') fun _ => ?_
    exact Runs.bind ((revertWorld_runs snap s').mono
      (fun _ _ _ => Runs.pure_intro (fechado_devido (hr res rfl))) fun _ _ he => he)

theorem executaCreate_runs {p : CreateRequest}
    (hrun : p.depth < maxCallDepth → ∀ address osaka s,
      Runs (runEavm cr h (paramsDeCreate p address osaka)) s
        (fun r _ => Fechado p.gas r) fun e _ => EFalha e) (s : EavmHost σ) :
    Runs (executaCreate w cr h p) s (fun r _ => DevidoCreate p.gas r) fun _ _ => False := by
  unfold executaCreate
  refine Runs.ite (fun _ => Runs.pure_intro devidoCreate_vazio) fun hdepth => ?_
  refine Runs.bind (Runs.intro (fun nonce s' _ => Runs.get_bind ?_) fun e s' he => by cases he)
  refine Runs.ite (fun _ => Runs.pure_intro devidoCreate_vazio) fun _ => ?_
  refine snapshot_bind fun snap s => moveValue_bind fun moveu s => Runs.ite (fun _ => ?_) fun _ => ?_
  · exact Runs.bind ((revertWorld_runs snap s).mono
      (fun _ _ _ => Runs.pure_intro devidoCreate_vazio) fun _ _ he => he)
  · exact rodaCreate_runs (hrun (Nat.lt_of_not_le hdepth) _) s

/-! ## The host of a frame -/

/-- The world hands over code as a `Vec`. -/
def CodigoCabe (w : World σ) : Prop := ∀ s a, (w.getCode s a).length ≤ isizeMax

/-- `n` levels are enough for a frame at this depth. -/
structure Alcance (n : ℕ) (q : Quadro) : Prop where
  positivo : 0 < n
  niveis : maxCallDepth ≤ n + q.depth
  depth : q.depth < u32Max

theorem hostSeguro_of {q : Quadro} (hw : CodigoCabe w)
    {call : CallRequest → NoMundo σ CallOutcome} {create : CreateRequest → NoMundo σ CreateOutcome}
    (hcall : ∀ (req : CallRequest) s, req.depth = q.depth + 1 → CabeNaMemoria req.input →
      Runs (call req) s (fun r _ => Devido req.gas r) fun _ _ => False)
    (hcreate : ∀ (req : CreateRequest) s, req.depth = q.depth + 1 → CabeNaMemoria req.initCode →
      Runs (create req) s (fun r _ => DevidoCreate req.gas r) fun _ _ => False) :
    HostSeguro (hostBase w call create) q where
  sstore _ _ _ _ := Runs.modify_intro trivial
  tstore _ _ _ _ := Runs.modify_intro trivial
  code s a := hw s.world a
  call req s hd hl := (hcall req s hd hl).mono (fun _ _ hr => hr) fun _ _ he => he.elim
  create req s hd hl := (hcreate req s hd hl).mono (fun _ _ hr => hr) fun _ _ he => he.elim

/-- Frames that may still nest `n` levels answer every request of a frame at a
depth within reach. -/
theorem eavmHost_responde (hw : CodigoCabe w) (n : ℕ) : ∀ {q : Quadro}, Alcance n q →
    (∀ (req : CallRequest) s, req.depth = q.depth + 1 → CabeNaMemoria req.input →
      Runs ((eavmHost w cr pc n).call req) s (fun r _ => Devido req.gas r) fun _ _ => False) ∧
    (∀ (req : CreateRequest) s, req.depth = q.depth + 1 → CabeNaMemoria req.initCode →
      Runs ((eavmHost w cr pc n).create req) s (fun r _ => DevidoCreate req.gas r)
        fun _ _ => False) := by
  induction n with
  | zero => exact fun hal => absurd hal.positivo (Nat.lt_irrefl 0)
  | succ n ih =>
    intro q hal
    have hniveis := hal.niveis
    -- a frame one level down is within reach of one level less
    have desce : ∀ q' : Quadro, q'.depth = q.depth + 1 → q'.depth < maxCallDepth →
        HostSeguro (eavmHost w cr pc n) q' := by
      intro q' hd hlt
      have hal' : Alcance n q' :=
        { positivo := by unfold maxCallDepth at *; omega
          niveis := by omega
          depth := hlt.trans (by decide) }
      cases n with
      | zero => exact absurd hal'.positivo (Nat.lt_irrefl 0)
      | succ n => exact hostSeguro_of hw (ih hal').1 (ih hal').2
    constructor
    · intro req s hd hlen
      refine executaCall_runs hlen (fun hlt t osaka s => ?_) s
      have hq : Cabe (quadroDe (paramsDeCall req (w.getCode t.world req.codeAddr) osaka)) :=
        { code := hw t.world req.codeAddr, calldata := hlen.trans (by decide)
          depth := hlt.trans (by decide) }
      have hs := desce (quadroDe (paramsDeCall req (w.getCode t.world req.codeAddr) osaka)) hd hlt
      exact runEavm_runs _ hs hq s
    · intro req s hd hlen
      refine executaCreate_runs (fun hlt address osaka s => ?_) s
      have hq : Cabe (quadroDe (paramsDeCreate req address osaka)) :=
        { code := hlen.trans (by decide), calldata := Nat.zero_le _
          depth := hlt.trans (by decide) }
      exact runEavm_runs _ (desce (quadroDe (paramsDeCreate req address osaka)) hd hlt) hq s

theorem eavmHost_seguro (hw : CodigoCabe w) {n : ℕ} {q : Quadro} (hal : Alcance n q) :
    HostSeguro (eavmHost w cr pc n) q := by
  cases n with
  | zero => exact absurd hal.positivo (Nat.lt_irrefl 0)
  | succ n =>
    obtain ⟨hcall, hcreate⟩ := eavmHost_responde hw (n + 1) hal
    exact hostSeguro_of hw hcall hcreate

end

/-! ## What an instruction forwards -/

section

variable {σ α β : Type} {q : Quadro}

/-- `P` holds of the result, if there is one. -/
def Rende (m : Passo σ α) (P : α → Interp σ → Prop) : Prop :=
  ∀ i, Runs m i P fun _ _ => True

theorem Rende.depois {m : Passo σ α} {f : α → Passo σ β} {P : β → Interp σ → Prop}
    (hf : ∀ a, Rende (f a) P) : Rende (m >>= f) P := fun _ =>
  Runs.bind (Runs.intro (fun a i' _ => hf a i') fun _ _ _ => trivial)

theorem Rende.com {R : α → Prop} {m : Passo σ α} {f : α → Passo σ β} {P : β → Interp σ → Prop}
    (hm : Rende m fun a _ => R a) (hf : ∀ a, R a → Rende (f a) P) : Rende (m >>= f) P := fun i =>
  Runs.bind ((hm i).mono (fun a i' ha => hf a ha i') fun _ _ _ => trivial)

theorem exige_rende (c : Prop) [Decidable c] (e : EavmError) :
    Rende (exige c e : Passo σ Unit) fun _ _ => c := fun _ =>
  Runs.ite (fun hc => Runs.pure_intro hc) fun _ => Runs.throw_intro trivial

theorem dentro_rende (limite n : ℕ) :
    Rende (lift (dentro limite n) : Passo σ ℕ) fun a _ => a = n := fun _ =>
  Runs.lift_intro (fun a ha => by unfold dentro at ha; split_ifs at ha; injection ha with h; exact h.symm)
    fun _ _ => trivial

theorem memExpand_rende (offset size : Word) :
    Rende (memExpand offset size : Passo σ Unit) fun _ _ =>
      size ≠ 0 → offset.toNat + size.toNat ≤ limiteMemoria := by
  intro i
  unfold memExpand
  refine Runs.ite (fun h0 => Runs.pure_intro fun hne => absurd h0 hne) fun _ => ?_
  refine Rende.com (R := fun _ => _ ≤ limiteMemoria) (exige_rende _ _) (fun _ hfim => ?_) i
  refine Rende.depois fun _ j => Runs.intro (fun _ _ _ _ => ?_) fun _ _ _ => trivial
  unfold u128Sat u128Max limiteMemoria at *
  omega

theorem memRead_rende (offset size : Word) :
    Rende (memRead offset size : Passo σ Bytes) fun b _ => CabeNaMemoria b := by
  unfold memRead
  refine Rende.com (memExpand_rende offset size) fun _ hlim i => ?_
  refine Runs.ite (fun _ => Runs.pure_intro (Nat.zero_le _)) fun hne => Runs.get_bind ?_
  have hle := hlim hne
  rw [usizeSat_of_le (show offset.toNat ≤ _ by omega),
    usizeSat_of_le (show size.toNat ≤ _ by omega)]
  refine Rende.com (dentro_rende _ _) ?_ i
  rintro fim rfl j
  refine Runs.lift_intro (fun b hb => ?_) fun _ _ => trivial
  unfold fatiaDe at hb
  split_ifs at hb with h
  obtain rfl : _ = b := by injection hb
  rw [CabeNaMemoria, length_fatia h.2]
  omega

/-- A request for a call forwards at most what is left, one level down. -/
theorem preparaCall_rende (op : UInt8) (kind : CallKind) :
    Rende (preparaCall q op kind : Passo σ _) fun p i' =>
      p.1.gas ≤ i'.gasLeft ∧ p.1.depth = q.depth + 1 ∧ CabeNaMemoria p.1.input := by
  unfold preparaCall
  refine Rende.depois fun _ => Rende.depois fun reqGas => Rende.depois fun para => ?_
  refine Rende.depois fun callValue => Rende.depois fun _ => Rende.depois fun ao => ?_
  refine Rende.depois fun asz => Rende.depois fun ro => Rende.depois fun rsz => ?_
  refine Rende.depois fun _ => Rende.com (memRead_rende ao asz) fun input hin => ?_
  refine Rende.depois fun _ i => Runs.get_bind ?_
  refine Runs.bind (Runs.lift_intro (fun d hd => ?_) fun _ _ => trivial)
  obtain rfl : d = q.depth + 1 := by
    unfold u32Add dentro at hd
    split_ifs at hd
    injection hd with h
    exact h.symm
  exact Runs.pure_intro ⟨encaminha_le _ _ _, rfl, hin⟩

theorem preparaCreate_rende (op : UInt8) (comSalt : Bool) :
    Rende (preparaCreate q op comSalt : Passo σ _) fun req i' =>
      req.gas ≤ i'.gasLeft ∧ req.depth = q.depth + 1 ∧ CabeNaMemoria req.initCode := by
  unfold preparaCreate
  refine Rende.depois fun _ => Rende.depois fun _ => Rende.depois fun val => ?_
  refine Rende.depois fun o => Rende.depois fun s => Rende.depois fun salt => ?_
  refine Rende.com (memRead_rende o s) fun init hin i => Runs.get_bind ?_
  refine Runs.bind (Runs.lift_intro (fun d hd => ?_) fun _ _ => trivial)
  obtain rfl : d = q.depth + 1 := by
    unfold u32Add dentro at hd
    split_ifs at hd
    injection hd with h
    exact h.symm
  exact Runs.pure_intro ⟨Nat.sub_le _ _, rfl, hin⟩

theorem spend_run {i : Interp σ} {g : ℕ} (h : g ≤ i.gasLeft) :
    spend g i = .ok () { i with gasLeft := i.gasLeft - g } := by
  unfold spend exige
  rw [get_bind_run, if_pos h]
  rfl

theorem answered {τ ρ : Type} {m : EStateM Parada τ ρ} {s : τ} {P : ρ → τ → Prop}
    (h : Runs m s P fun _ _ => False) : ∃ r s', m s = .ok r s' ∧ P r s' := by
  cases hm : m s with
  | ok r s' => exact ⟨r, s', rfl, h.ok hm⟩
  | error e s' => exact (h.error hm).elim

end

/-- A nested frame at any depth within reach answers, and the frame that made it
can pay what it used. -/
def Paga {σ : Type} (w : World σ) (cr : Cripto) (pc : Precompilados) : Prop :=
  ∀ n q op i, Alcance n q →
    (∀ kind req ro rsz j, preparaCall q op kind i = .ok (req, ro, rsz) j →
      req.gas ≤ j.gasLeft ∧ ∃ r s, (eavmHost w cr pc n).call req j.host = .ok r s ∧
        r.gasUsed ≤ req.gas ∧
        spend r.gasUsed { j with host := s } =
          .ok () { j with host := s, gasLeft := j.gasLeft - r.gasUsed }) ∧
    (∀ comSalt req j, preparaCreate q op comSalt i = .ok req j →
      req.gas ≤ j.gasLeft ∧ ∃ r s, (eavmHost w cr pc n).create req j.host = .ok r s ∧
        r.gasUsed ≤ req.gas ∧
        spend r.gasUsed { j with host := s } =
          .ok () { j with host := s, gasLeft := j.gasLeft - r.gasUsed })

/-- A run returns or fails as a frame fails, never by a panic nor for lack of
fuel; its result accounts for all the gas; and nested frames are always paid. -/
theorem runEavm_presta_contas {σ : Type} (w : World σ) (cr : Cripto) (pc : Precompilados)
    (hw : CodigoCabe w) :
    (∀ (p : ExecParams) (s : EavmHost σ), p.code.length ≤ isizeMax →
      p.calldata.length ≤ isizeMax → p.depth < u32Max →
      (∃ r s', executaNoMundo w cr pc p s = .ok r s' ∧ r.gasUsed + r.gasLeft = p.gas) ∨
        ∃ e s', executaNoMundo w cr pc p s = .error (.falha e) s') ∧
    Paga w cr pc := by
  refine ⟨fun p s hcode hcalldata hdepth => ?_, fun n q op i hal => ⟨?_, ?_⟩⟩
  · have hal : Alcance maxCallDepth (quadroDe p) :=
      { positivo := by decide, niveis := Nat.le_add_right _ _, depth := hdepth }
    have hseguro : HostSeguro (eavmHost w cr pc maxCallDepth) (quadroDe p) :=
      eavmHost_seguro hw hal
    have hrun : Runs (executaNoMundo w cr pc p) s _ _ :=
      runEavm_runs p hseguro ⟨hcode, hcalldata, hdepth⟩ s
    cases hres : executaNoMundo w cr pc p s with
    | ok r s' => exact .inl ⟨r, s', rfl, (hrun.ok hres).1⟩
    | error e s' =>
      obtain ⟨x, rfl⟩ := hrun.error hres
      exact .inr ⟨x, s', rfl⟩
  · intro kind req ro rsz j hprep
    obtain ⟨hgas, hd, hin⟩ := (preparaCall_rende op kind i).ok hprep
    obtain ⟨r, s, hr, hdev⟩ := answered ((eavmHost_responde hw n hal).1 req j.host hd hin)
    exact ⟨hgas, r, s, hr, hdev.1, spend_run (hdev.1.trans hgas)⟩
  · intro comSalt req j hprep
    obtain ⟨hgas, hd, hin⟩ := (preparaCreate_rende op comSalt i).ok hprep
    obtain ⟨r, s, hr, hdev⟩ := answered ((eavmHost_responde hw n hal).2 req j.host hd hin)
    exact ⟨hgas, r, s, hr, hdev.1, spend_run (hdev.1.trans hgas)⟩

/-- A world where every address runs the same code and no value moves. -/
def mundoConstante (code : Bytes) : World Unit where
  getStorage _ _ _ := 0
  setStorage s _ _ _ := s
  getCode _ _ := code
  putCode s _ _ := s
  getBalance _ _ := 0
  moveValue s _ _ _ _ := (false, s)
  bumpNonce s _ := (0, s)
  blockHash _ _ := 0
  snapshot s := (0, s)
  revert s _ := s

/-- A loop of calls to itself: `JUMPDEST`, a call that forwards all the gas to
address 16, whose code is this one, and a jump back. -/
def lacoDeChamadas : Bytes :=
  [0x5b, 0x60, 0, 0x60, 0, 0x60, 0, 0x60, 0, 0x60, 0, 0x60, 16, 0x5a, 0xf1, 0x50, 0x60, 0, 0x56]

theorem runEavm_presta_contas_no_laco :
    ((∃ r s', executaNoMundo (mundoConstante lacoDeChamadas) criptoIdeal precompiladosIdeais
        { code := lacoDeChamadas, calldata := [], gas := Config.maxEavmGas, caller := zeroAddr,
          address := zeroAddr, origin := none, value := 0, block := ⟨1, 2, 0, 72020⟩,
          gasPrice := 0, depth := 0 } { world := () } = .ok r s' ∧
        r.gasUsed + r.gasLeft = Config.maxEavmGas) ∨
      ∃ e s', executaNoMundo (mundoConstante lacoDeChamadas) criptoIdeal precompiladosIdeais
        { code := lacoDeChamadas, calldata := [], gas := Config.maxEavmGas, caller := zeroAddr,
          address := zeroAddr, origin := none, value := 0, block := ⟨1, 2, 0, 72020⟩,
          gasPrice := 0, depth := 0 } { world := () } = .error (.falha e) s') :=
  (runEavm_presta_contas (mundoConstante lacoDeChamadas) criptoIdeal precompiladosIdeais
    fun _ _ => show lacoDeChamadas.length ≤ isizeMax by decide).1 _ _ (by decide) (by decide) (by decide)

end Eavm
end Eav7
