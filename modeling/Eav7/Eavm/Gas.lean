import Eav7.Eavm.Host

/-!
# Gas, memory and termination

`Custa q k i m P`: run from a sound machine `i`, the computation `m` either fails
as a frame fails or pays at least `k` and leaves a sound machine with `P`. No
panic is left, and an instruction that goes on costs at least one, which bounds
the loop and the nesting of the frames.
-/

namespace Eav7
namespace Eavm

open Base

/-- The failure of a frame, as opposed to a panic or the end of the fuel. -/
def EFalha (e : Parada) : Prop := ∃ x, e = .falha x

/-! ## Checked arithmetic that cannot fail -/

theorem dentro_ok {limite n : ℕ} (h : n ≤ limite) : dentro limite n = .ok n := if_pos h

theorem u64Sub_ok {a b : ℕ} (h : b ≤ a) : u64Sub a b = .ok (a - b) := if_pos h

theorem fatiaDe_ok {b : Bytes} {ini fim : ℕ} (h1 : ini ≤ fim) (h2 : fim ≤ b.length) :
    fatiaDe b ini fim = .ok ((b.take fim).drop ini) := if_pos ⟨h1, h2⟩

theorem length_fatia {b : Bytes} {ini fim : ℕ} (h : fim ≤ b.length) :
    ((b.take fim).drop ini).length = fim - ini := by
  rw [List.length_drop, List.length_take, Nat.min_eq_left h]

theorem divCeil_le {a b n : ℕ} (hb : 0 < b) (h : a ≤ n * b) : divCeil a b ≤ n := by
  unfold divCeil
  have hlt : (a + b - 1) / b < n + 1 := by
    rw [Nat.div_lt_iff_lt_mul hb, Nat.add_mul, Nat.one_mul]
    omega
  omega

theorem toNat_ofNat_of_le {n : ℕ} (h : n ≤ u64Max) : (BitVec.ofNat 256 n).toNat = n := by
  rw [BitVec.toNat_ofNat]
  unfold u64Max at h
  omega

theorem rightPad_length (b : Bytes) (n : ℕ) : (rightPad b n).length = n := by
  simp only [rightPad, List.length_append, List.length_take, List.length_replicate]
  omega

/-! ## Sound machines -/

section

variable {σ : Type} {α β : Type}

/-- The bounds every machine of a frame keeps. -/
structure Bom (q : Quadro) (i : Interp σ) : Prop where
  gas : i.gasLeft ≤ q.gasInicial
  words : i.memWords ≤ limiteMemoria / 32
  mem : i.mem.length ≤ 2 * limiteMemoria
  retorno : i.lastReturn.length ≤ isizeMax

/-- A sound machine at an instruction of the code. -/
structure Vivo (q : Quadro) (i : Interp σ) : Prop extends Bom q i where
  pc : i.pc ≤ isizeMax

def Custa (q : Quadro) (k : ℕ) (i : Interp σ) (m : Passo σ α) (P : α → Interp σ → Prop) : Prop :=
  Vivo q i → Runs m i (fun a i' => Vivo q i' ∧ i'.gasLeft + k ≤ i.gasLeft ∧ P a i')
    fun e _ => EFalha e

namespace Custa

variable {q : Quadro} {k k' : ℕ} {i : Interp σ} {P : α → Interp σ → Prop}

theorem mono {P' : α → Interp σ → Prop} {m : Passo σ α} (h : Custa q k i m P) (hk : k' ≤ k)
    (hP : ∀ a i', P a i' → P' a i') : Custa q k' i m P' := by
  intro hi
  refine (h hi).mono ?_ fun _ _ he => he
  rintro a i' ⟨hv, hg, hp⟩
  exact ⟨hv, by omega, hP a i' hp⟩

theorem bind {R : β → Interp σ → Prop} {m : Passo σ α} {f : α → Passo σ β}
    (hm : Custa q k i m P) (hf : ∀ a i', P a i' → Custa q k' i' (f a) R) :
    Custa q (k + k') i (m >>= f) R := by
  intro hi
  refine Runs.bind ((hm hi).mono ?_ fun _ _ he => he)
  rintro a i' ⟨hv, hg, hp⟩
  refine (hf a i' hp hv).mono ?_ fun _ _ he => he
  rintro b i'' ⟨hv', hg', hr⟩
  exact ⟨hv', by omega, hr⟩

/-- Sequencing after a computation that pays nothing. -/
theorem seq {R : β → Interp σ → Prop} {m : Passo σ α} {f : α → Passo σ β}
    (hm : Custa q 0 i m P) (hf : ∀ a i', P a i' → Custa q k i' (f a) R) :
    Custa q k i (m >>= f) R := by
  have h := hm.bind hf
  rwa [Nat.zero_add] at h

/-- Sequencing before a computation that pays nothing. -/
theorem paga {R : β → Interp σ → Prop} {m : Passo σ α} {f : α → Passo σ β}
    (hm : Custa q k i m P) (hf : ∀ a i', P a i' → Custa q 0 i' (f a) R) :
    Custa q k i (m >>= f) R :=
  hm.bind hf

theorem pure_intro {a : α} (h : Vivo q i → P a i) : Custa q 0 i (pure a) P := fun hi =>
  Runs.pure_intro ⟨hi, Nat.le_refl _, h hi⟩

theorem falha_intro (e : EavmError) : Custa q k i (falha e) P := fun _ =>
  Runs.throw_intro ⟨e, rfl⟩

theorem get_bind {f : Interp σ → Passo σ α} (h : Custa q k i (f i) P) :
    Custa q k i (get >>= f) P := fun hi => Runs.get_bind (h hi)

/-- The soundness of the machine is there for whoever needs it. -/
theorem vivo {m : Passo σ α} (h : Vivo q i → Custa q k i m P) : Custa q k i m P := fun hi =>
  h hi hi

theorem set_intro {j : Interp σ} {P : PUnit → Interp σ → Prop} (hv : Vivo q i → Vivo q j)
    (hg : j.gasLeft + k ≤ i.gasLeft) (hp : P ⟨⟩ j) : Custa q k i (set j) P := fun hi =>
  Runs.set_intro ⟨hv hi, hg, hp⟩

theorem modify_intro {g : Interp σ → Interp σ} {P : PUnit → Interp σ → Prop}
    (hv : Vivo q i → Vivo q (g i)) (hg : (g i).gasLeft + k ≤ i.gasLeft) (hp : P ⟨⟩ (g i)) :
    Custa q k i (modify g) P := fun hi =>
  Runs.modify_intro ⟨hv hi, hg, hp⟩

theorem lift_ok {x : Except Parada α} {a : α} (hx : x = .ok a) (h : P a i) :
    Custa q 0 i (lift x) P := by
  subst hx
  exact fun hi => Runs.pure_intro ⟨hi, Nat.le_refl _, h⟩

theorem ite {c : Prop} [Decidable c] {m m' : Passo σ α} (h : c → Custa q k i m P)
    (h' : ¬ c → Custa q k i m' P) : Custa q k i (if c then m else m') P := by
  by_cases hc : c
  · rw [if_pos hc]
    exact h hc
  · rw [if_neg hc]
    exact h' hc

end Custa

/-! ## The primitives -/

variable {q : Quadro} {k : ℕ} {i : Interp σ}

/-- Nothing to say about the outcome. -/
abbrev Tanto : α → Interp σ → Prop := fun _ _ => True

theorem exige_custa (c : Prop) [Decidable c] (e : EavmError) :
    Custa q 0 i (exige c e) fun _ i' => c ∧ i = i' := by
  unfold exige
  refine Custa.ite (fun hc => Custa.pure_intro fun _ => ⟨hc, rfl⟩) fun _ => ?_
  exact Custa.falha_intro e

/-- Paying keeps everything else. -/
theorem spend_custa (g : ℕ) : Custa q g i (spend g) fun _ i' =>
    g ≤ i.gasLeft ∧ i' = { i with gasLeft := i.gasLeft - g } := by
  unfold spend
  refine Custa.get_bind (Custa.seq (exige_custa _ _) ?_)
  rintro _ _ ⟨hg, rfl⟩
  refine Custa.set_intro (fun hi => ?_) (by simp only; omega) ⟨hg, rfl⟩
  exact { hi with gas := (Nat.sub_le _ _).trans hi.gas }

theorem push_custa (v : Word) : Custa q 0 i (push v) Tanto := by
  unfold push
  refine Custa.get_bind (Custa.seq (exige_custa _ _) ?_)
  rintro _ _ ⟨-, rfl⟩
  exact Custa.set_intro (fun hi => { hi with }) (Nat.le_refl _) trivial

/-- The part of a machine that the stack operations leave alone. -/
def foraDaPilha (i : Interp σ) : Interp σ := { i with stack := [] }

theorem pop_custa : Custa q 0 i pop fun _ i' => foraDaPilha i' = foraDaPilha i := by
  unfold pop
  refine Custa.get_bind ?_
  cases hs : i.stack with
  | nil => exact Custa.falha_intro _
  | cons v stack =>
    refine Custa.seq (P := fun _ i' => foraDaPilha i' = foraDaPilha i) ?_ ?_
    · exact Custa.set_intro (fun hi => { hi with }) (Nat.le_refl _) rfl
    · exact fun _ i' h => Custa.pure_intro fun _ => h

theorem peek_custa (n : ℕ) : Custa q 0 i (peek n) Tanto := by
  unfold peek
  refine Custa.get_bind ?_
  cases i.stack[n]? with
  | none => exact Custa.falha_intro _
  | some v => exact Custa.pure_intro fun _ => trivial

theorem popN_custa (n : ℕ) : Custa q 0 i (popN n) Tanto := by
  induction n generalizing i with
  | zero => exact Custa.pure_intro fun _ => trivial
  | succ n ih =>
    refine Custa.seq pop_custa fun v i' _ => Custa.seq ih fun vs i'' _ => ?_
    exact Custa.pure_intro fun _ => trivial

/-! ## Memory -/

theorem custoMem_ok {w : ℕ} (h : w ≤ limiteMemoria / 32) :
    custoMem w = .ok (gasMemWord * w + w * w / 512) := by
  have hw : w ≤ 3125000 := h
  have hq : w * w ≤ 3125000 * 3125000 := Nat.mul_le_mul hw hw
  have hd : w * w / 512 ≤ 3125000 * 3125000 := (Nat.div_le_self _ _).trans hq
  have h1 : u64Mul gasMemWord w = .ok (gasMemWord * w) :=
    dentro_ok (by unfold gasMemWord u64Max; omega)
  have h2 : u64Mul w w = .ok (w * w) := dentro_ok (by unfold u64Max; omega)
  have h3 : u64Add (gasMemWord * w) (w * w / 512) = .ok (gasMemWord * w + w * w / 512) :=
    dentro_ok (by unfold gasMemWord u64Max; omega)
  unfold custoMem
  rw [h1, h2]
  exact h3

theorem custoMem_mono {a b : ℕ} (h : a ≤ b) :
    gasMemWord * a + a * a / 512 ≤ gasMemWord * b + b * b / 512 :=
  Nat.add_le_add (Nat.mul_le_mul_left _ h) (Nat.div_le_div_right (Nat.mul_le_mul h h))

theorem cobraExpansao_custa {words : ℕ} (h : words ≤ limiteMemoria / 32) :
    Custa q 0 i (cobraExpansao words) fun _ i' => i'.mem = i.mem := by
  unfold cobraExpansao
  refine Custa.vivo fun hi => Custa.get_bind (Custa.ite (fun hlt => ?_) fun _ => ?_)
  · refine Custa.seq (Custa.lift_ok (P := fun a j => i = j ∧ a = _) (custoMem_ok h)
      ⟨rfl, rfl⟩) ?_
    rintro novo _ ⟨rfl, rfl⟩
    refine Custa.seq (Custa.lift_ok (P := fun a j => i = j ∧ a = _) (custoMem_ok hi.words)
      ⟨rfl, rfl⟩) ?_
    rintro atual _ ⟨rfl, rfl⟩
    refine Custa.seq (Custa.lift_ok (P := fun _ j => i = j)
      (u64Sub_ok (custoMem_mono (Nat.le_of_lt hlt))) rfl) ?_
    rintro delta _ rfl
    refine Custa.seq ((spend_custa delta).mono (Nat.zero_le _) fun _ _ h => h) ?_
    rintro _ i' ⟨-, rfl⟩
    refine Custa.modify_intro (fun hi' => ?_) (Nat.le_refl _) rfl
    exact { hi' with words := h }
  · exact Custa.pure_intro fun _ => rfl

theorem cresceMem_custa {words fim : ℕ} (h : words ≤ limiteMemoria / 32)
    (hfim : fim ≤ limiteMemoria) (hwf : fim ≤ words * 32) :
    Custa q 0 i (cresceMem words fim) fun _ i' =>
      i.mem.length ≤ i'.mem.length ∧ fim ≤ i'.mem.length := by
  have hw : words ≤ 3125000 := h
  unfold cresceMem
  refine Custa.get_bind (Custa.ite (fun hlt => ?_) fun hge => ?_)
  · have hl : i.mem.length ≤ 100000000 := by unfold limiteMemoria at hfim; omega
    refine Custa.seq (Custa.lift_ok (P := fun a j => i = j ∧ a = _)
      (dentro_ok (by unfold usizeMax; omega)) ⟨rfl, rfl⟩) ?_
    rintro pedido _ ⟨rfl, rfl⟩
    refine Custa.seq (Custa.lift_ok (P := fun a j => i = j ∧ a = _)
      (dentro_ok (by unfold usizeMax; omega)) ⟨rfl, rfl⟩) ?_
    rintro dobro _ ⟨rfl, rfl⟩
    refine Custa.set_intro (fun hi => ?_) (Nat.le_refl _) ?_
    · refine { hi with mem := ?_ }
      rw [rightPad_length]
      unfold limiteMemoria
      omega
    · rw [rightPad_length]
      omega
  · exact Custa.pure_intro fun _ => by omega

/-- After an expansion the range asked for is inside the buffer. -/
def Expandida (i : Interp σ) (offset size : Word) (i' : Interp σ) : Prop :=
  i.mem.length ≤ i'.mem.length ∧
    (size ≠ 0 → offset.toNat + size.toNat ≤ limiteMemoria ∧
      offset.toNat + size.toNat ≤ i'.mem.length)

theorem memExpand_custa (offset size : Word) :
    Custa q 0 i (memExpand offset size) fun _ i' => Expandida i offset size i' := by
  unfold memExpand
  refine Custa.ite (fun h0 => Custa.pure_intro fun _ => ?_) fun _ => ?_
  · exact ⟨Nat.le_refl _, fun hne => absurd h0 hne⟩
  refine Custa.seq (exige_custa _ _) ?_
  rintro _ _ ⟨hfim, rfl⟩
  have hl : min (u128Sat offset + u128Sat size) u128Max = offset.toNat + size.toNat := by
    unfold u128Sat u128Max limiteMemoria at *
    omega
  rw [hl] at hfim ⊢
  have hw : divCeil (offset.toNat + size.toNat) 32 ≤ limiteMemoria / 32 :=
    divCeil_le (by decide) hfim
  have hwf : offset.toNat + size.toNat ≤ divCeil (offset.toNat + size.toNat) 32 * 32 := by
    unfold divCeil
    omega
  refine Custa.seq (cobraExpansao_custa hw) fun _ i' hmem => ?_
  refine (cresceMem_custa hw hfim hwf).mono (Nat.le_refl _) fun _ i'' hc => ?_
  exact ⟨hmem ▸ hc.1, fun _ => ⟨hfim, hc.2⟩⟩

theorem usizeSat_of_le {w : Word} (h : w.toNat ≤ limiteMemoria) : usizeSat w = w.toNat := by
  unfold usizeSat u128Sat u128Max usizeMax
  unfold limiteMemoria at h
  omega

theorem copiaEm_ok {b fonte : Bytes} {ini : ℕ} (h : ini + fonte.length ≤ b.length) :
    copiaEm b ini fonte = .ok (b.take ini ++ fonte ++ b.drop (ini + fonte.length)) := if_pos h

theorem escreve_custa {ini : ℕ} {fonte : Bytes} (h : ini + fonte.length ≤ i.mem.length) :
    Custa q 0 i (escreve ini fonte) Tanto := by
  unfold escreve
  refine Custa.get_bind (Custa.seq (Custa.lift_ok (P := fun mem j =>
    i = j ∧ mem.length = i.mem.length) (copiaEm_ok h) ⟨rfl, ?_⟩) ?_)
  · simp only [List.length_append, List.length_take, List.length_drop]
    omega
  · rintro mem _ ⟨rfl, hlen⟩
    refine Custa.set_intro (fun hi => ?_) (Nat.le_refl _) trivial
    refine { hi with mem := ?_ }
    rw [hlen]
    exact hi.mem

theorem memWrite_custa (offset : Word) {bytes : Bytes} (hb : bytes.length ≤ isizeMax) :
    Custa q 0 i (memWrite offset bytes) Tanto := by
  have hsize : (BitVec.ofNat 256 bytes.length).toNat = bytes.length :=
    toNat_ofNat_of_le (hb.trans (by decide))
  unfold memWrite
  refine Custa.seq (memExpand_custa _ _) fun _ i' hexp => ?_
  refine Custa.ite (fun _ => Custa.pure_intro fun _ => trivial) fun hne => ?_
  have hpos : BitVec.ofNat 256 bytes.length ≠ 0 := by
    intro h0
    have hz := congrArg BitVec.toNat h0
    rw [hsize] at hz
    exact hne (List.length_eq_zero_iff.mp hz)
  obtain ⟨hlim, hmem⟩ := hexp.2 hpos
  rw [hsize] at hlim hmem
  rw [usizeSat_of_le (by omega)]
  exact escreve_custa hmem

theorem memRead_custa (offset size : Word) :
    Custa q 0 i (memRead offset size) fun b _ => b.length ≤ limiteMemoria := by
  unfold memRead
  refine Custa.seq (memExpand_custa _ _) fun _ i' hexp => ?_
  refine Custa.ite (fun _ => Custa.pure_intro fun _ => Nat.zero_le _) fun hne => ?_
  obtain ⟨hlim, hmem⟩ := hexp.2 hne
  rw [usizeSat_of_le (show offset.toNat ≤ _ by omega), usizeSat_of_le (show size.toNat ≤ _ by omega)]
  refine Custa.get_bind (Custa.seq (Custa.lift_ok (P := fun fim j => i' = j ∧ fim = _)
    (dentro_ok (by unfold usizeMax; unfold limiteMemoria at hlim; omega)) ⟨rfl, rfl⟩) ?_)
  rintro fim _ ⟨rfl, rfl⟩
  refine Custa.lift_ok (fatiaDe_ok (Nat.le_add_right _ _) hmem) ?_
  rw [length_fatia hmem]
  omega

theorem copiaParaMem_custa (dest : Word) {src : Bytes} (srcOff : ℕ) {size : ℕ}
    (hsize : size ≤ u64Max) :
    Custa q 0 i (copiaParaMem dest src srcOff size) Tanto := by
  have hword : (BitVec.ofNat 256 size).toNat = size := toNat_ofNat_of_le hsize
  unfold copiaParaMem
  refine Custa.seq (memExpand_custa _ _) fun _ i' hexp => ?_
  refine Custa.ite (fun _ => Custa.pure_intro fun _ => trivial) fun hne => ?_
  refine Custa.ite (fun hlt => ?_) fun _ => Custa.pure_intro fun _ => trivial
  have hpos : BitVec.ofNat 256 size ≠ 0 := by
    intro h0
    exact hne (hword ▸ congrArg BitVec.toNat h0)
  obtain ⟨hlim, hmem⟩ := hexp.2 hpos
  rw [hword] at hlim hmem
  refine Custa.seq (Custa.lift_ok (P := fun fonte j => i' = j ∧ fonte.length ≤ size)
    (fatiaDe_ok (Nat.le_of_lt hlt) (Nat.min_le_right _ _)) ⟨rfl, ?_⟩) ?_
  · rw [length_fatia (Nat.min_le_right _ _)]
    omega
  · rintro fonte _ ⟨rfl, hf⟩
    rw [usizeSat_of_le (by omega)]
    exact escreve_custa (by omega)

theorem copiaDentro_custa {dest orig n : ℕ} (ho : orig + n ≤ i.mem.length)
    (hd : dest + n ≤ i.mem.length) (hlim : orig + n ≤ limiteMemoria) :
    Custa q 0 i (copiaDentro dest orig n) Tanto := by
  unfold copiaDentro
  refine Custa.get_bind (Custa.seq (Custa.lift_ok (P := fun fim j => i = j ∧ fim = _)
    (dentro_ok (by unfold usizeMax; unfold limiteMemoria at hlim; omega)) ⟨rfl, rfl⟩) ?_)
  rintro fim _ ⟨rfl, rfl⟩
  refine Custa.seq (Custa.lift_ok (P := fun fonte j => i = j ∧ fonte.length = n)
    (fatiaDe_ok (Nat.le_add_right _ _) ho) ⟨rfl, ?_⟩) ?_
  · rw [length_fatia ho]
    omega
  · rintro fonte _ ⟨rfl, hf⟩
    exact escreve_custa (by omega)

end

end Eavm
end Eav7
