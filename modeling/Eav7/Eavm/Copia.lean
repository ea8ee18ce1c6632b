import Eav7.Eavm.Instrucoes
import Eav7.Ideal

/-!
# The copies into memory

`CALLDATACOPY`, `CODECOPY` and `EXTCODECOPY` expand the memory and write what the source
has of the range. What the source does not have is not written: the memory keeps there
what it had, which is zero only where nobody wrote before.
-/

namespace Eav7.Eavm

open Base

/-! ## What the primitives leave -/

section

variable {σ : Type} {i j : Interp σ}

theorem exige_eq_ok {c : Prop} [Decidable c] {e : EavmError} {u : Unit} :
    exige c e i = .ok u j ↔ c ∧ j = i := by
  unfold exige falha
  split_ifs with h
  · rw [pure_eq_ok]
    exact ⟨fun hj => ⟨h, hj.2⟩, fun hj => ⟨rfl, hj.2⟩⟩
  · exact ⟨nofun, fun hc => absurd hc.1 h⟩

theorem spend_eq_ok {g : ℕ} {u : Unit} :
    spend g i = .ok u j ↔ g ≤ i.gasLeft ∧ j = { i with gasLeft := i.gasLeft - g } := by
  unfold spend
  rw [get_bind_run, bind_eq_ok]
  constructor
  · rintro ⟨_, t, ht, hj⟩
    obtain ⟨hg, rfl⟩ := exige_eq_ok.mp ht
    cases hj
    exact ⟨hg, rfl⟩
  · rintro ⟨hg, rfl⟩
    exact ⟨(), i, exige_eq_ok.mpr ⟨hg, rfl⟩, rfl⟩

theorem pop_eq_ok {v : Word} :
    pop i = .ok v j ↔ ∃ stack, i.stack = v :: stack ∧ j = { i with stack := stack } := by
  unfold pop
  rw [get_bind_run]
  cases i.stack with
  | nil => exact ⟨nofun, nofun⟩
  | cons w stack =>
    constructor
    · intro h
      cases h
      exact ⟨stack, rfl, rfl⟩
    · rintro ⟨_, hv, rfl⟩
      cases hv
      rfl

/-- A grown memory: the same bytes, then zeros. -/
def Crescida (antes depois : Bytes) : Prop := ∃ n, depois = antes ++ List.replicate n 0

theorem Crescida.refl (b : Bytes) : Crescida b b := ⟨0, (List.append_nil b).symm⟩

theorem crescida_rightPad {b : Bytes} {n : ℕ} (h : b.length ≤ n) : Crescida b (rightPad b n) := by
  unfold rightPad
  rw [List.take_of_length_le h]
  exact ⟨_, rfl⟩

theorem Crescida.le {antes depois : Bytes} (h : Crescida antes depois) :
    antes.length ≤ depois.length := by
  obtain ⟨n, rfl⟩ := h
  rw [List.length_append]
  exact Nat.le_add_right _ _

/-- A byte of a buffer, zero past its end. -/
def byteEm (b : Bytes) (k : ℕ) : UInt8 := b.getD k 0

theorem byteEm_of_le {b : Bytes} {k : ℕ} (h : b.length ≤ k) : byteEm b k = 0 := by
  unfold byteEm
  rw [List.getD_eq_getElem?_getD, List.getElem?_eq_none h]
  rfl

theorem getElem?_eq_byteEm {b : Bytes} {k : ℕ} (h : k < b.length) : b[k]? = some (byteEm b k) := by
  unfold byteEm
  rw [List.getD_eq_getElem?_getD, List.getElem?_eq_getElem h]
  rfl

theorem Crescida.byteEm {antes depois : Bytes} (h : Crescida antes depois) (k : ℕ) :
    byteEm depois k = byteEm antes k := by
  obtain ⟨n, rfl⟩ := h
  unfold Eavm.byteEm
  simp only [List.getD_eq_getElem?_getD]
  by_cases hk : k < antes.length
  · rw [List.getElem?_append_left hk]
  · rw [List.getElem?_append_right (not_lt.mp hk), List.getElem?_eq_none (not_lt.mp hk),
      List.getElem?_replicate]
    split_ifs <;> rfl

theorem cobraExpansao_mem {words : ℕ} {u : Unit} (h : cobraExpansao words i = .ok u j) :
    j.mem = i.mem := by
  unfold cobraExpansao at h
  rw [get_bind_run] at h
  split_ifs at h
  · obtain ⟨novo, -, h⟩ := lift_bind_eq_ok.mp h
    obtain ⟨atual, -, h⟩ := lift_bind_eq_ok.mp h
    obtain ⟨delta, -, h⟩ := lift_bind_eq_ok.mp h
    obtain ⟨_, t, ht, h⟩ := bind_eq_ok.mp h
    obtain ⟨-, rfl⟩ := spend_eq_ok.mp ht
    cases h
    rfl
  · cases h
    rfl

theorem cresceMem_mem {words fim : ℕ} {u : Unit} (hwords : fim ≤ words * 32)
    (h : cresceMem words fim i = .ok u j) : Crescida i.mem j.mem ∧ fim ≤ j.mem.length := by
  unfold cresceMem at h
  rw [get_bind_run] at h
  split_ifs at h with hcurto
  · obtain ⟨pedido, hpedido, h⟩ := lift_bind_eq_ok.mp h
    obtain ⟨dobro, hdobro, h⟩ := lift_bind_eq_ok.mp h
    unfold usizeMul dentro at hpedido hdobro
    split_ifs at hpedido hdobro
    cases hpedido
    cases hdobro
    cases h
    dsimp only
    refine ⟨crescida_rightPad (by omega), ?_⟩
    rw [rightPad_length]
    omega
  · cases h
    exact ⟨Crescida.refl _, not_lt.mp hcurto⟩

/-- An expansion adds zeros, up to the end of the range that was asked for. -/
theorem memExpand_mem {offset size : Word} {u : Unit} (h : memExpand offset size i = .ok u j) :
    Crescida i.mem j.mem ∧ (size ≠ 0 → offset.toNat + size.toNat ≤ limiteMemoria ∧
      offset.toNat + size.toNat ≤ j.mem.length) := by
  unfold memExpand at h
  split_ifs at h with hzero
  · cases h
    exact ⟨Crescida.refl _, fun hne => absurd hzero hne⟩
  · obtain ⟨_, t, ht, hresto⟩ := bind_eq_ok.mp h
    obtain ⟨hfim, rfl⟩ := exige_eq_ok.mp ht
    have hsoma : min (u128Sat offset + u128Sat size) u128Max = offset.toNat + size.toNat := by
      unfold u128Sat u128Max limiteMemoria at *
      omega
    rw [hsoma] at hfim hresto
    obtain ⟨_, t', ht', hresto⟩ := bind_eq_ok.mp hresto
    have hwords : offset.toNat + size.toNat ≤ divCeil (offset.toNat + size.toNat) 32 * 32 := by
      unfold divCeil
      omega
    obtain ⟨hcresce, hlen⟩ := cresceMem_mem hwords hresto
    rw [cobraExpansao_mem ht'] at hcresce
    exact ⟨hcresce, fun _ => ⟨hfim, hlen⟩⟩

/-- A write replaces its range and nothing else. -/
theorem escreve_mem {ini : ℕ} {fonte : Bytes} {u : Unit} (h : escreve ini fonte i = .ok u j) :
    j.mem.length = i.mem.length ∧
      ∀ k, j.mem[k]? = if ini ≤ k ∧ k < ini + fonte.length then fonte[k - ini]? else i.mem[k]? := by
  unfold escreve at h
  rw [get_bind_run] at h
  obtain ⟨mem, hmem, h⟩ := lift_bind_eq_ok.mp h
  cases h
  unfold copiaEm at hmem
  split_ifs at hmem with hcabe
  cases hmem
  dsimp only
  refine ⟨?_, fun k => ?_⟩
  · simp only [List.length_append, List.length_take, List.length_drop]
    omega
  · have hini : (i.mem.take ini).length = ini := by
      rw [List.length_take]
      omega
    rcases Nat.lt_or_ge k ini with hantes | hk
    · rw [if_neg (by omega), List.append_assoc, List.getElem?_append_left (by omega),
        List.getElem?_take_of_lt hantes]
    · rcases Nat.lt_or_ge k (ini + fonte.length) with hdentro | hdepois
      · rw [if_pos ⟨hk, hdentro⟩, List.append_assoc, List.getElem?_append_right (by omega), hini,
          List.getElem?_append_left (by omega)]
      · rw [if_neg (by omega), List.getElem?_append_right
          (by rw [List.length_append, hini]; omega), List.length_append, hini,
          List.getElem?_drop]
        congr 1
        omega

end

/-! ## The copy -/

/-- What the source gives of a range: its bytes, then zeros. -/
structure CopiaExata (fonte : Bytes) (dest orig size : ℕ) (antes depois : Bytes) : Prop where
  dentro : ∀ k < size, depois[dest + k]? = some (byteEm fonte (orig + k))
  fora : ∀ k < antes.length, ¬ (dest ≤ k ∧ k < dest + size) → depois[k]? = antes[k]?

/-- Where the source has nothing for the range, the memory has no byte but zeros. -/
def RestoLimpo (fonte : Bytes) (dest orig size : ℕ) (mem : Bytes) : Prop :=
  ∀ k < size, fonte.length ≤ orig + k → byteEm mem (dest + k) = 0

section

variable {σ : Type} {i j : Interp σ} {dest orig size : Word} {fonte : Bytes}

/-- A saturated offset lies past the end of every vector. -/
theorem usizeSat_of_lt (h : usizeSat orig < fonte.length) (hfonte : fonte.length ≤ isizeMax) :
    usizeSat orig = orig.toNat := by
  unfold isizeMax at hfonte
  unfold usizeSat u128Sat u128Max usizeMax at *
  omega

theorem usizeSat_lt_iff (hfonte : fonte.length ≤ isizeMax) {k : ℕ} :
    usizeSat orig + k < fonte.length ↔ orig.toNat + k < fonte.length := by
  unfold isizeMax at hfonte
  unfold usizeSat u128Sat u128Max usizeMax
  omega

/-- What a copy leaves: the bytes that the source has, over the grown memory. -/
theorem copiaParaMem_mem {u : Unit} (hfonte : fonte.length ≤ isizeMax)
    (h : copiaParaMem dest fonte (usizeSat orig) (u64Sat size) i = .ok u j) :
    ∃ base, Crescida i.mem base ∧ (size ≠ 0 → dest.toNat + size.toNat ≤ base.length) ∧
      j.mem.length = base.length ∧
      ∀ k, j.mem[k]? = if dest.toNat ≤ k ∧ k < dest.toNat + size.toNat ∧
        orig.toNat + (k - dest.toNat) < fonte.length then fonte[orig.toNat + (k - dest.toNat)]?
        else base[k]? := by
  have hu64 : u64Sat size ≤ u64Max := u64Sat_le size
  have hof : (BitVec.ofNat 256 (u64Sat size)).toNat = u64Sat size := toNat_ofNat_of_le hu64
  have hzero : u64Sat size = 0 ↔ size = 0 := by
    rw [BitVec.toNat_eq]
    unfold u64Sat u64Max
    change _ ↔ size.toNat = 0
    omega
  unfold copiaParaMem at h
  obtain ⟨_, t, ht, h⟩ := bind_eq_ok.mp h
  obtain ⟨hcresce, hcabe⟩ := memExpand_mem ht
  rw [hof] at hcabe
  by_cases hsize : size = 0
  · rw [if_pos (hzero.mpr hsize)] at h
    obtain ⟨-, rfl⟩ := pure_eq_ok.mp h
    refine ⟨j.mem, hcresce, fun hne => absurd hsize hne, rfl, fun k => ?_⟩
    have hsize : size.toNat = 0 := congrArg BitVec.toNat hsize
    rw [if_neg (by omega)]
  · have hne : BitVec.ofNat 256 (u64Sat size) ≠ 0 := by
      intro hz
      have := congrArg BitVec.toNat hz
      rw [hof] at this
      exact hsize (hzero.mp this)
    obtain ⟨hlimite, hlen⟩ := hcabe hne
    -- The limit of the memory leaves no room for a saturated size.
    have hs : u64Sat size = size.toNat := by
      unfold u64Sat u64Max limiteMemoria at *
      omega
    rw [hs] at hlimite hlen h
    rw [if_neg (fun hz => hsize (hzero.mp (hs.trans hz)))] at h
    have hd : usizeSat dest = dest.toNat := usizeSat_of_le (by omega)
    rw [hd] at h
    have hfim : min (min (usizeSat orig + size.toNat) usizeMax) fonte.length =
        min (usizeSat orig + size.toNat) fonte.length := by
      unfold isizeMax at hfonte
      unfold usizeMax
      omega
    rw [hfim] at h
    refine ⟨t.mem, hcresce, fun _ => hlen, ?_⟩
    split_ifs at h with hsobra
    · obtain ⟨pedaco, hpedaco, h⟩ := lift_bind_eq_ok.mp h
      rw [fatiaDe_ok hsobra.le (min_le_right _ _)] at hpedaco
      cases hpedaco
      obtain ⟨hmesmo, hbytes⟩ := escreve_mem h
      have ho : usizeSat orig = orig.toNat := usizeSat_of_lt (by omega) hfonte
      rw [ho] at hbytes
      refine ⟨hmesmo, fun k => ?_⟩
      rw [hbytes k, length_fatia (min_le_right _ _)]
      by_cases hdentro : dest.toNat ≤ k ∧ k < dest.toNat + size.toNat ∧
          orig.toNat + (k - dest.toNat) < fonte.length
      · rw [if_pos (by omega), if_pos hdentro, List.getElem?_drop, List.getElem?_take_of_lt]
        omega
      · rw [if_neg (by omega), if_neg hdentro]
    · obtain ⟨-, rfl⟩ := pure_eq_ok.mp h
      refine ⟨rfl, fun k => ?_⟩
      have := @usizeSat_lt_iff orig fonte hfonte (k - dest.toNat)
      rw [if_neg (by omega)]

/-- A copy is exact when, and only when, nothing is left over from before where the source
ran out. -/
theorem copiaParaMem_exata_iff {u : Unit} (hfonte : fonte.length ≤ isizeMax)
    (h : copiaParaMem dest fonte (usizeSat orig) (u64Sat size) i = .ok u j) :
    CopiaExata fonte dest.toNat orig.toNat size.toNat i.mem j.mem ↔
      RestoLimpo fonte dest.toNat orig.toNat size.toNat i.mem := by
  obtain ⟨base, hcresce, hcabe, hlen, hbytes⟩ := copiaParaMem_mem hfonte h
  have hresto (k : ℕ) (hk : k < size.toNat) (hfim : fonte.length ≤ orig.toNat + k) :
      j.mem[dest.toNat + k]? = some (byteEm i.mem (dest.toNat + k)) := by
    have hne : size ≠ 0 := fun hz => by
      have : size.toNat = 0 := congrArg BitVec.toNat hz
      omega
    have hlt := hcabe hne
    rw [hbytes, if_neg (by omega), getElem?_eq_byteEm (by omega), hcresce.byteEm]
  constructor
  · intro hexata k hk hfim
    have hlido := (hresto k hk hfim).symm.trans (hexata.dentro k hk)
    rw [byteEm_of_le hfim] at hlido
    exact Option.some.inj hlido
  · intro hlimpo
    refine ⟨fun k hk => ?_, fun k hk hfora => ?_⟩
    · by_cases hfim : fonte.length ≤ orig.toNat + k
      · rw [hresto k hk hfim, hlimpo k hk hfim, byteEm_of_le hfim]
      · rw [hbytes, if_pos (by omega), Nat.add_sub_cancel_left, getElem?_eq_byteEm (by omega)]
    · rw [hbytes, if_neg (by omega)]
      obtain ⟨n, rfl⟩ := hcresce
      exact List.getElem?_append_left hk

end

/-! ## The three instructions -/

/-- The operands of a copy, and the bytes that it copies from. -/
structure Copia where
  fonte : Bytes
  dest : Word
  orig : Word
  size : Word

section

variable {σ : Type} (h : Host σ) (q : Quadro)

/-- What a copying instruction finds on the stack. -/
def copiaPedida (i : Interp σ) : Instrucao → Option Copia
  | .calldatacopy =>
    match i.stack with
    | d :: o :: s :: _ => some ⟨q.calldata, d, o, s⟩
    | _ => none
  | .codecopy =>
    match i.stack with
    | d :: o :: s :: _ => some ⟨q.code, d, o, s⟩
    | _ => none
  | .extcodecopy =>
    match i.stack with
    | w :: d :: o :: s :: _ => some ⟨h.code i.host (enderecoDeWord w), d, o, s⟩
    | _ => none
  | _ => none

variable {h q} {cr : Cripto} {i j : Interp σ} {op : UInt8} {f : Fluxo}

theorem copiaOp_run {fonte : Bytes} {d o s : Word} {resto : List Word}
    (hpilha : i.stack = d :: o :: s :: resto) (hrun : copiaOp fonte i = .ok f j) :
    ∃ t : Interp σ, t.mem = i.mem ∧ copiaParaMem d fonte (usizeSat o) (u64Sat s) t = .ok () j := by
  unfold copiaOp at hrun
  obtain ⟨_, t₁, h₁, hrun⟩ := bind_eq_ok.mp hrun
  obtain ⟨-, rfl⟩ := spend_eq_ok.mp h₁
  obtain ⟨d', t₂, h₂, hrun⟩ := bind_eq_ok.mp hrun
  obtain ⟨_, hd, rfl⟩ := pop_eq_ok.mp h₂
  obtain ⟨o', t₃, h₃, hrun⟩ := bind_eq_ok.mp hrun
  obtain ⟨_, rfl, rfl⟩ := pop_eq_ok.mp h₃
  obtain ⟨s', t₄, h₄, hrun⟩ := bind_eq_ok.mp hrun
  obtain ⟨_, rfl, rfl⟩ := pop_eq_ok.mp h₄
  obtain ⟨_, t₅, h₅, hrun⟩ := bind_eq_ok.mp hrun
  obtain ⟨-, rfl⟩ := spend_eq_ok.mp h₅
  obtain ⟨_, t₆, h₆, hrun⟩ := bind_eq_ok.mp hrun
  obtain ⟨-, rfl⟩ := pure_eq_ok.mp hrun
  cases hpilha.symm.trans hd
  refine ⟨_, ?_, h₆⟩
  rfl

theorem extcodecopyOp_run {w d o s : Word} {resto : List Word}
    (hpilha : i.stack = w :: d :: o :: s :: resto) (hrun : extcodecopyOp h i = .ok f j) :
    ∃ t, t.mem = i.mem ∧ copiaParaMem d (h.code i.host (enderecoDeWord w)) (usizeSat o)
      (u64Sat s) t = .ok () j := by
  unfold extcodecopyOp at hrun
  obtain ⟨_, t₁, h₁, hrun⟩ := bind_eq_ok.mp hrun
  obtain ⟨-, rfl⟩ := spend_eq_ok.mp h₁
  obtain ⟨w', t₂, h₂, hrun⟩ := bind_eq_ok.mp hrun
  obtain ⟨_, hw, rfl⟩ := pop_eq_ok.mp h₂
  obtain ⟨d', t₃, h₃, hrun⟩ := bind_eq_ok.mp hrun
  obtain ⟨_, rfl, rfl⟩ := pop_eq_ok.mp h₃
  obtain ⟨o', t₄, h₄, hrun⟩ := bind_eq_ok.mp hrun
  obtain ⟨_, rfl, rfl⟩ := pop_eq_ok.mp h₄
  obtain ⟨s', t₅, h₅, hrun⟩ := bind_eq_ok.mp hrun
  obtain ⟨_, rfl, rfl⟩ := pop_eq_ok.mp h₅
  obtain ⟨_, t₆, h₆, hrun⟩ := bind_eq_ok.mp hrun
  obtain ⟨-, rfl⟩ := spend_eq_ok.mp h₆
  rw [get_bind_run] at hrun
  obtain ⟨_, t₇, h₇, hrun⟩ := bind_eq_ok.mp hrun
  obtain ⟨-, rfl⟩ := pure_eq_ok.mp hrun
  cases hpilha.symm.trans hw
  refine ⟨_, ?_, h₇⟩
  rfl

/-- A copying instruction that does not fail leaves the exact copy if and only if the part of
the range that the source does not cover was clean. -/
theorem copia_exata_iff {instr : Instrucao} {c : Copia} (hpedida : copiaPedida h q i instr = some c)
    (hfonte : c.fonte.length ≤ isizeMax) (hrun : executa cr h q op instr i = .ok f j) :
    CopiaExata c.fonte c.dest.toNat c.orig.toNat c.size.toNat i.mem j.mem ↔
      RestoLimpo c.fonte c.dest.toNat c.orig.toNat c.size.toNat i.mem := by
  have hcopia : ∃ t, t.mem = i.mem ∧
      copiaParaMem c.dest c.fonte (usizeSat c.orig) (u64Sat c.size) t = .ok () j := by
    unfold copiaPedida at hpedida
    split at hpedida
    case h_1 =>
      split at hpedida
      · rename_i hpilha
        cases hpedida
        exact copiaOp_run hpilha hrun
      · cases hpedida
    case h_2 =>
      split at hpedida
      · rename_i hpilha
        cases hpedida
        exact copiaOp_run hpilha hrun
      · cases hpedida
    case h_3 =>
      split at hpedida
      · rename_i hpilha
        cases hpedida
        exact extcodecopyOp_run hpilha hrun
      · cases hpedida
    case h_4 => cases hpedida
  obtain ⟨t, hmem, hrun⟩ := hcopia
  rw [← hmem]
  exact copiaParaMem_exata_iff hfonte hrun

end

/-! ## A copy over a byte that was written before -/

/-- A world with nothing in it. -/
def semMundo : Host Unit where
  sload _ _ _ := 0
  sstore _ _ _ := pure ()
  tload _ _ _ := 0
  tstore _ _ _ := pure ()
  balance _ _ := 0
  code _ _ := []
  blockHash _ _ _ := 0
  call _ := pure {}
  create _ := pure {}

/-- `MSTORE8(0, 1)`, then `CALLDATACOPY(0, 0, 1)` of an empty calldata, then `RETURN(0, 1)`. -/
def programaDaCopia : Bytes :=
  [0x60, 0x01, 0x5f, 0x53, 0x60, 0x01, 0x5f, 0x5f, 0x37, 0x60, 0x01, 0x5f, 0xf3]

def paramsDaCopia : ExecParams :=
  { code := programaDaCopia, calldata := [], gas := 100, caller := zeroAddr, address := zeroAddr
    origin := none, value := 0, block := ⟨0, 0, 0, 0⟩, gasPrice := 0, depth := 0 }

/-- The machine of that program at its copy. -/
def antesDaCopia : Interp Unit :=
  { interpInicial paramsDaCopia () with stack := [0, 0, 1], mem := rightPad [1] 32, memWords := 1 }

/-- The copy should leave a zero where the calldata has nothing; the one stays. -/
theorem copia_sobre_memoria_suja :
    ¬ ∀ (i j : Interp Unit) (f : Fluxo) (instr : Instrucao) (c : Copia),
      copiaPedida semMundo (quadroDe paramsDaCopia) i instr = some c →
      c.fonte.length ≤ isizeMax →
      executa criptoIdeal semMundo (quadroDe paramsDaCopia) 0x37 instr i = .ok f j →
      CopiaExata c.fonte c.dest.toNat c.orig.toNat c.size.toNat i.mem j.mem := by
  intro hsempre
  have hmem : (match executa criptoIdeal semMundo (quadroDe paramsDaCopia) 0x37 .calldatacopy
      antesDaCopia with
    | .ok _ j => j.mem.head? == some 1
    | .error _ _ => false) = true := by decide +kernel
  cases hrun : executa criptoIdeal semMundo (quadroDe paramsDaCopia) 0x37 .calldatacopy
      antesDaCopia with
  | error e j =>
    rw [hrun] at hmem
    cases hmem
  | ok f j =>
    rw [hrun] at hmem
    have hexata := hsempre antesDaCopia j f .calldatacopy ⟨[], 0, 0, 1⟩ rfl (Nat.zero_le _) hrun
    have hzero : j.mem[0]? = some 0 := hexata.dentro 0 Nat.zero_lt_one
    rw [← List.head?_eq_getElem?, eq_of_beq hmem] at hzero
    cases hzero

/-- The program returns the byte that the copy should have cleared. -/
example : (match runEavm criptoIdeal semMundo paramsDaCopia () with
    | .ok r _ => r.returnData == [1]
    | .error _ _ => false) = true := by decide +kernel

/-- On a memory that nobody wrote the same copy is exact. -/
theorem copia_sobre_memoria_limpa : ∃ f j,
    executa criptoIdeal semMundo (quadroDe paramsDaCopia) 0x37 .calldatacopy
      { antesDaCopia with mem := [] } = .ok f j ∧
    (CopiaExata [] 0 0 1 [] j.mem ↔ RestoLimpo [] 0 0 1 []) := by
  cases hrun : executa criptoIdeal semMundo (quadroDe paramsDaCopia) 0x37 .calldatacopy
      { antesDaCopia with mem := [] } with
  | error e j =>
    have hok : (match executa criptoIdeal semMundo (quadroDe paramsDaCopia) 0x37 .calldatacopy
        { antesDaCopia with mem := [] } with
      | .ok _ _ => true
      | .error _ _ => false) = true := by decide +kernel
    rw [hrun] at hok
    cases hok
  | ok f j =>
    exact ⟨f, j, rfl, copia_exata_iff (c := ⟨[], 0, 0, 1⟩) rfl (Nat.zero_le _) hrun⟩

end Eav7.Eavm
