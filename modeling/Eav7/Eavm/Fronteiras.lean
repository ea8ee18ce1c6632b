import Mathlib.Logic.Relation
import Eav7.Eavm.Copia

/-!
# Where the program counter can be

The code is a row of instructions, decoded from the first byte on; the bytes of an
immediate are no instructions. The program counter of a run only stops where an
instruction starts, and a jump only goes where one starts with a `JUMPDEST`.
-/

namespace Eav7.Eavm

open Base

/-! ## The boundaries of a code -/

/-- The bytes of an immediate. -/
def imediatos (op : UInt8) : ℕ := if 0x60 ≤ op.toNat ∧ op.toNat ≤ 0x7f then op.toNat - 0x5f else 0

/-- The places where the linear decoding finds an instruction, or its end. -/
inductive Fronteira (code : Bytes) : ℕ → Prop
  | inicio : Fronteira code 0
  | segue {k : ℕ} {op : UInt8} (h : Fronteira code k) (hop : code[k]? = some op) :
    Fronteira code (k + 1 + imediatos op)

/-- A `JUMPDEST` that is an instruction. -/
def Destino (code : Bytes) (k : ℕ) : Prop := Fronteira code k ∧ code[k]? = some 0x5b

/-- A byte of the immediate of an instruction. -/
def Imediato (code : Bytes) (k : ℕ) : Prop :=
  ∃ m op, Fronteira code m ∧ code[m]? = some op ∧ m < k ∧ k ≤ m + imediatos op

section

variable {code : Bytes} {a b k : ℕ} {op : UInt8}

/-- No boundary lies inside an instruction. -/
theorem Fronteira.salta (hb : Fronteira code b) : ∀ {a op}, Fronteira code a → code[a]? = some op →
    a < b → a + 1 + imediatos op ≤ b := by
  induction b using Nat.strong_induction_on with
  | h b ih =>
    intro a op ha hop hab
    cases hb with
    | inicio => cases hab
    | @segue b' op' hb' hop' =>
      rcases lt_trichotomy a b' with h | h | h
      · have := ih b' (by omega) hb' ha hop h
        omega
      · subst h
        cases hop.symm.trans hop'
        exact le_refl _
      · have := ih a hab ha hb' hop' h
        omega

theorem Fronteira.fora_do_imediato (h : Fronteira code k) : ¬ Imediato code k := by
  rintro ⟨m, op, hm, hop, hmk, hk⟩
  have := h.salta hm hop hmk
  omega

/-- The scan finds the destinations from the next boundary on, and nothing else. -/
theorem mem_analisaJumpdests {i k t : ℕ} {rest : Bytes} :
    ∀ {antes : Bytes}, code = antes ++ rest → antes.length = i → Fronteira code (i + k) →
      (t ∈ analisaJumpdests i k rest ↔ i + k ≤ t ∧ Destino code t) := by
  induction rest generalizing i k with
  | nil =>
    rintro antes hcode hi -
    rw [List.append_nil] at hcode
    unfold analisaJumpdests
    refine iff_of_false (List.not_mem_nil) ?_
    rintro ⟨hle, -, hop⟩
    obtain ⟨hlt, -⟩ := List.getElem?_eq_some_iff.mp hop
    subst hcode
    omega
  | cons op rest ih =>
    rintro antes hcode hi hf
    have hcode' : code = (antes ++ [op]) ++ rest := by rw [hcode, List.append_assoc]; rfl
    have hi' : (antes ++ [op]).length = i + 1 := by rw [List.length_append, hi]; rfl
    cases k with
    | succ k =>
      rw [show i + (k + 1) = i + 1 + k by omega] at hf ⊢
      unfold analisaJumpdests
      exact ih hcode' hi' hf
    | zero =>
      have hop : code[i]? = some op := by
        rw [hcode, List.getElem?_append_right (by omega), hi, Nat.sub_self]
        rfl
      have hproxima := hf.segue hop
      -- After the instruction at `i` the next boundary is where its immediate ends.
      have hdepois (hdest : Destino code t) (hlt : i < t) : i + 1 + imediatos op ≤ t :=
        hdest.1.salta hf hop hlt
      unfold analisaJumpdests
      split_ifs with hjd hpush
      · subst hjd
        replace hproxima : Fronteira code (i + 1 + 0) := hproxima
        rw [List.mem_cons, ih hcode' hi' hproxima]
        constructor
        · rintro (rfl | ⟨hle, hdest⟩)
          · exact ⟨le_refl _, hf, hop⟩
          · exact ⟨by omega, hdest⟩
        · rintro ⟨hle, hdest⟩
          rcases hle.eq_or_lt with h | h
          · exact .inl h.symm
          · exact .inr ⟨h, hdest⟩
      all_goals
        have houtra (hdest : Destino code t) : i ≠ t := fun h => by
          subst h
          exact hjd (Option.some.inj (hop.symm.trans hdest.2))
        have him : imediatos op = if 0x60 ≤ op.toNat ∧ op.toNat ≤ 0x7f then op.toNat - 0x5f
          else 0 := rfl
      · rw [if_pos hpush] at him
        rw [him] at hproxima hdepois
        rw [ih hcode' hi' hproxima]
        refine and_congr_left fun hdest => ⟨fun hle => by omega, fun hle => ?_⟩
        exact hdepois hdest (lt_of_le_of_ne hle (houtra hdest))
      · rw [if_neg hpush] at him
        rw [him] at hproxima hdepois
        rw [ih hcode' hi' hproxima]
        refine and_congr_left fun hdest => ⟨fun hle => by omega, fun hle => ?_⟩
        exact hdepois hdest (lt_of_le_of_ne hle (houtra hdest))

/-- The table of a frame holds the destinations of its code. -/
theorem mem_jumpdests (p : ExecParams) {t : ℕ} :
    t ∈ (quadroDe p).jumpdests ↔ Destino p.code t := by
  have hinicio : p.code = [] ++ p.code := rfl
  have h := mem_analisaJumpdests (i := 0) (k := 0) (t := t) hinicio rfl .inicio
  rw [Nat.zero_add] at h
  exact h.trans (and_iff_right (Nat.zero_le t))

/-! ## What an instruction does to the program counter -/

/-- A `PUSH` has the immediate of its width, and no other instruction has one. -/
theorem decodifica_imediatos (op : UInt8) :
    (∃ n, decodifica op = .push n ∧ n.val = imediatos op) ∨
      (∀ n, decodifica op ≠ .push n) ∧ imediatos op = 0 := by
  have htabela : ∀ n < 256, (match decodifica (UInt8.ofNat n) with
      | .push k => decide (k.val = imediatos (UInt8.ofNat n))
      | _ => decide (imediatos (UInt8.ofNat n) = 0)) = true := by decide +kernel
  have h := htabela op.toNat op.toNat_lt
  rw [UInt8.ofNat_toNat] at h
  split at h
  · rename_i k hk
    exact .inl ⟨k, hk, of_decide_eq_true h⟩
  · rename_i hk
    exact .inr ⟨hk, of_decide_eq_true h⟩

end

section

variable {σ : Type} {α : Type} {P : Fluxo → Prop} {m : Passo σ Fluxo}

/-- Every outcome that is no failure satisfies a property. -/
def Devolve (P : Fluxo → Prop) (m : Passo σ Fluxo) : Prop := ∀ i f j, m i = .ok f j → P f

namespace Devolve

theorem pure_intro {f : Fluxo} (h : P f) : Devolve P (pure f : Passo σ Fluxo) := by
  intro i g j hrun
  obtain ⟨rfl, -⟩ := pure_eq_ok.mp hrun
  exact h

theorem falha_intro (e : EavmError) : Devolve P (falha e : Passo σ Fluxo) := nofun

/-- Only the end of a computation decides its outcome. -/
theorem bind {m : Passo σ α} {f : α → Passo σ Fluxo} (hf : ∀ a, Devolve P (f a)) :
    Devolve P (m >>= f) := by
  intro i g j hrun
  obtain ⟨a, t, -, h⟩ := bind_eq_ok.mp hrun
  exact hf a t g j h

theorem ite {c : Prop} [Decidable c] {m m' : Passo σ Fluxo} (h : Devolve P m)
    (h' : Devolve P m') : Devolve P (if c then m else m') := by
  split_ifs
  · exact h
  · exact h'

end Devolve

/-- The outcome of an instruction that does not move the program counter itself. -/
def NaoSalta (f : Fluxo) : Prop := ∀ np, f ≠ .salta np

theorem naoSalta_segue : Devolve NaoSalta (pure Fluxo.segue : Passo σ Fluxo) :=
  .pure_intro nofun

variable {cr : Cripto} {h : Host σ} {q : Quadro}

theorem opera_naoSalta (g n : ℕ) (f : List Word → Word) :
    Devolve NaoSalta (opera g n f : Passo σ Fluxo) :=
  .bind fun _ => .bind fun _ => .bind fun _ => naoSalta_segue

theorem empurra_naoSalta (g : ℕ) (f : Interp σ → Word) : Devolve NaoSalta (empurra g f) :=
  .bind fun _ => .bind fun _ => .bind fun _ => naoSalta_segue

theorem comOsaka_naoSalta {g : ℕ} {op : UInt8} (hm : Devolve NaoSalta m) :
    Devolve NaoSalta (comOsaka q g op m) :=
  .bind fun _ => .bind fun _ => hm

theorem done_naoSalta (success : Bool) (ret : Bytes) :
    Devolve NaoSalta (done q success ret : Passo σ Fluxo) :=
  .bind fun _ => .bind fun _ => .pure_intro nofun

theorem copiaOp_naoSalta (fonte : Bytes) : Devolve NaoSalta (copiaOp fonte : Passo σ Fluxo) :=
  .bind fun _ => .bind fun _ => .bind fun _ => .bind fun _ => .bind fun _ => .bind fun _ =>
    naoSalta_segue

theorem mstoreOp_naoSalta (bytes : Word → Bytes) :
    Devolve NaoSalta (mstoreOp bytes : Passo σ Fluxo) :=
  .bind fun _ => .bind fun _ => .bind fun _ => .bind fun _ => naoSalta_segue

theorem executa_naoSalta (op : UInt8) {instr : Instrucao} (hjump : instr ≠ .jump)
    (hjumpi : instr ≠ .jumpi) (hpush : ∀ n, instr ≠ .push n) :
    Devolve NaoSalta (executa cr h q op instr) := by
  cases instr with
  | jump => exact absurd rfl hjump
  | jumpi => exact absurd rfl hjumpi
  | push n => exact absurd rfl (hpush n)
  | stop => exact done_naoSalta _ _
  | binaria b => exact opera_naoSalta _ _ _
  | addmod => exact opera_naoSalta _ _ _
  | mulmod => exact opera_naoSalta _ _ _
  | exp =>
    exact .bind fun _ => .bind fun _ => .bind fun _ => .bind fun _ => .bind fun _ =>
      .bind fun _ => naoSalta_segue
  | iszero => exact opera_naoSalta _ _ _
  | not => exact opera_naoSalta _ _ _
  | clz => exact comOsaka_naoSalta (opera_naoSalta _ _ _)
  | keccak =>
    exact .bind fun _ => .bind fun _ => .bind fun _ => .bind fun _ => .bind fun _ =>
      .bind fun _ => naoSalta_segue
  | leitura l => exact empurra_naoSalta _ _
  | balance => exact .bind fun _ => opera_naoSalta _ _ _
  | selfbalance => exact empurra_naoSalta _ _
  | calldataload =>
    refine .bind fun _ => .bind fun w => ?_
    exact .ite (.bind fun _ => .bind fun _ => .bind fun _ => naoSalta_segue)
      (.bind fun _ => naoSalta_segue)
  | calldatacopy => exact copiaOp_naoSalta _
  | codecopy => exact copiaOp_naoSalta _
  | extcodesize => exact .bind fun _ => opera_naoSalta _ _ _
  | extcodecopy =>
    exact .bind fun _ => .bind fun _ => .bind fun _ => .bind fun _ => .bind fun _ =>
      .bind fun _ => .bind fun _ => .bind fun _ => naoSalta_segue
  | extcodehash =>
    exact .bind fun _ => .bind fun _ => .bind fun _ => .bind fun _ => .bind fun _ => naoSalta_segue
  | returndatacopy =>
    exact .bind fun _ => .bind fun _ => .bind fun _ => .bind fun _ => .bind fun _ =>
      .bind fun _ => .bind fun _ => .bind fun _ => .bind fun _ => .bind fun _ => .bind fun _ =>
        naoSalta_segue
  | blockhash => exact .bind fun _ => opera_naoSalta _ _ _
  | blobhash => exact comOsaka_naoSalta (opera_naoSalta _ _ _)
  | blobbasefee => exact comOsaka_naoSalta (opera_naoSalta _ _ _)
  | pop => exact .bind fun _ => .bind fun _ => naoSalta_segue
  | mload => exact .bind fun _ => .bind fun _ => .bind fun _ => .bind fun _ => naoSalta_segue
  | mstore => exact mstoreOp_naoSalta _
  | mstore8 => exact mstoreOp_naoSalta _
  | sload => exact .bind fun _ => opera_naoSalta _ _ _
  | sstore =>
    exact .bind fun _ => .bind fun _ => .bind fun _ => .bind fun _ => .bind fun _ =>
      .bind fun _ => naoSalta_segue
  | jumpdest => exact .bind fun _ => naoSalta_segue
  | tload => exact .bind fun _ => comOsaka_naoSalta (opera_naoSalta _ _ _)
  | tstore =>
    exact .bind fun _ => .bind fun _ => .bind fun _ => .bind fun _ => .bind fun _ =>
      .bind fun _ => naoSalta_segue
  | mcopy =>
    refine .bind fun _ => .bind fun _ => .bind fun _ => .bind fun _ => .bind fun _ =>
      .bind fun _ => .bind fun _ => .bind fun _ => ?_
    exact .ite naoSalta_segue (.bind fun _ => naoSalta_segue)
  | dup n => exact .bind fun _ => .bind fun _ => .bind fun _ => naoSalta_segue
  | swap n => exact .bind fun _ => .bind fun _ => .bind fun _ => .bind fun _ => naoSalta_segue
  | log n => exact .bind fun _ => .bind fun _ => naoSalta_segue
  | create comSalt =>
    exact .bind fun _ => .bind fun _ => .bind fun _ => .bind fun _ => .bind fun _ => naoSalta_segue
  | call kind =>
    exact .bind fun _ => .bind fun _ => .bind fun _ => .bind fun _ => .bind fun _ =>
      .bind fun _ => .bind fun _ => naoSalta_segue
  | sai success => exact .bind fun _ => .bind fun _ => .bind fun _ => done_naoSalta _ _
  | invalid => exact .falha_intro _
  | selfdestruct => exact .falha_intro _
  | desconhecido => exact .falha_intro _

/-- A `PUSH` moves past its immediate. -/
theorem pushOp_salta {n : ℕ} {i j : Interp σ} {f : Fluxo} (hrun : pushOp q n i = .ok f j) :
    f = .salta (i.pc + 1 + n) := by
  unfold pushOp at hrun
  obtain ⟨_, t, ht, hrun⟩ := bind_eq_ok.mp hrun
  obtain ⟨-, rfl⟩ := spend_eq_ok.mp ht
  rw [get_bind_run] at hrun
  obtain ⟨ini, hini, hrun⟩ := lift_bind_eq_ok.mp hrun
  obtain ⟨np, hnp, hrun⟩ := lift_bind_eq_ok.mp hrun
  obtain ⟨dados, -, hrun⟩ := lift_bind_eq_ok.mp hrun
  obtain ⟨_, t, -, hrun⟩ := bind_eq_ok.mp hrun
  obtain ⟨rfl, -⟩ := pure_eq_ok.mp hrun
  unfold usizeAdd dentro at hini hnp
  split_ifs at hini hnp
  cases hini
  cases hnp
  rfl

theorem saltaPara_eq_ok {t : Word} {i j : Interp σ} {f : Fluxo} :
    saltaPara q t i = .ok f j ↔ usizeSat t ∈ q.jumpdests ∧ f = .salta (usizeSat t) ∧ j = i := by
  unfold saltaPara
  rw [bind_eq_ok]
  constructor
  · rintro ⟨_, s, hs, hrun⟩
    obtain ⟨hdest, rfl⟩ := exige_eq_ok.mp hs
    exact ⟨hdest, pure_eq_ok.mp hrun⟩
  · rintro ⟨hdest, hf, hj⟩
    exact ⟨(), i, exige_eq_ok.mpr ⟨hdest, rfl⟩, pure_eq_ok.mpr ⟨hf, hj⟩⟩

end

/-! ## The runs of a frame -/

section

variable {σ : Type} (cr : Cripto) (h : Host σ)

/-- One turn of the loop, on to the next one. -/
def Passagem (q : Quadro) (i j : Interp σ) : Prop :=
  ∃ op, q.code[i.pc]? = some op ∧ passo cr h q op i = .ok none j

/-- The machines that a run of a frame goes through. -/
def Visita (p : ExecParams) (s : σ) (i : Interp σ) : Prop :=
  Relation.ReflTransGen (Passagem cr h (quadroDe p)) (interpInicial p s) i

variable {cr h} {q : Quadro} {i j : Interp σ}

/-- The loop takes its turns one after the other. -/
theorem laco_passagem (ht : Passagem cr h q i j) (n : ℕ) :
    laco cr h q (n + 1) i = laco cr h q n j := by
  obtain ⟨op, hop, hpasso⟩ := ht
  rw [laco, get_bind_run, hop]
  exact bind_run_ok hpasso _

/-- The loop goes through the machines of a run until its fuel is out or no turn follows. -/
theorem laco_percorre (n : ℕ) (i : Interp σ) :
    ∃ m j, Relation.ReflTransGen (Passagem cr h q) i j ∧ laco cr h q n i = laco cr h q m j ∧
      (m = 0 ∨ ∀ k, ¬ Passagem cr h q j k) := by
  induction n generalizing i with
  | zero => exact ⟨0, i, .refl, rfl, .inl rfl⟩
  | succ n ih =>
    by_cases hfim : ∃ k, Passagem cr h q i k
    · obtain ⟨k, hk⟩ := hfim
      obtain ⟨m, j, hvisita, hlaco, hfim⟩ := ih k
      exact ⟨m, j, .head hk hvisita, (laco_passagem hk n).trans hlaco, hfim⟩
    · exact ⟨n + 1, i, .refl, rfl, .inr (not_exists.mp hfim)⟩

/-- Where a turn leaves the program counter. -/
theorem passo_pc {op : UInt8} {r : Option ExecResult} (hrun : passo cr h q op i = .ok r j) :
    ∃ f t, executa cr h q op (decodifica op) i = .ok f t ∧
      (f = .segue ∧ r = none ∧ j.pc = i.pc + 1 ∨
        (∃ np, f = .salta np ∧ r = none ∧ j.pc = np) ∨ ∃ res, f = .fim res ∧ r = some res) := by
  unfold passo at hrun
  rw [get_bind_run] at hrun
  obtain ⟨seguinte, hseguinte, hrun⟩ := lift_bind_eq_ok.mp hrun
  obtain ⟨f, t, hexec, hrun⟩ := bind_eq_ok.mp hrun
  unfold usizeAdd dentro at hseguinte
  split_ifs at hseguinte
  cases hseguinte
  refine ⟨f, t, hexec, ?_⟩
  cases f with
  | segue =>
    cases hrun
    exact .inl ⟨rfl, rfl, rfl⟩
  | salta np =>
    cases hrun
    exact .inr (.inl ⟨np, rfl, rfl, rfl⟩)
  | fim res =>
    obtain ⟨rfl, -⟩ := pure_eq_ok.mp hrun
    exact .inr (.inr ⟨res, rfl, rfl⟩)

theorem saltaPara_destino {p : ExecParams} (hcode : p.code.length ≤ isizeMax) {t : Word}
    {f : Fluxo} : saltaPara (quadroDe p) t i = .ok f j ↔
      Destino p.code t.toNat ∧ f = .salta t.toNat ∧ j = i := by
  have hsat (hdest : Destino p.code (usizeSat t)) : usizeSat t = t.toNat :=
    usizeSat_of_lt (List.getElem?_eq_some_iff.mp hdest.2).choose hcode
  have hsat' (hdest : Destino p.code t.toNat) : usizeSat t = t.toNat := by
    have hlt := (List.getElem?_eq_some_iff.mp hdest.2).choose
    exact usizeSat_of_lt (Nat.lt_of_le_of_lt ((min_le_left _ _).trans (min_le_left _ _)) hlt) hcode
  rw [saltaPara_eq_ok, mem_jumpdests]
  constructor
  · rintro ⟨hdest, hf, hj⟩
    have htorto := hsat hdest
    rw [htorto] at hdest hf
    exact ⟨hdest, hf, hj⟩
  · rintro ⟨hdest, hf, hj⟩
    rw [hsat' hdest]
    exact ⟨hdest, hf, hj⟩

/-- What `JUMP` and `JUMPI` do once they are paid and have their operands. -/
theorem jumpOp_run {q : Quadro} {t : Word} {resto : List Word} (hpilha : i.stack = t :: resto)
    (hgas : gasMid ≤ i.gasLeft) :
    jumpOp q i = saltaPara q t { i with gasLeft := i.gasLeft - gasMid, stack := resto } := by
  unfold jumpOp
  have hpago := (spend_eq_ok (u := ())).mpr ⟨hgas, rfl⟩
  have htopo : pop { i with gasLeft := i.gasLeft - gasMid } = .ok t _ :=
    pop_eq_ok.mpr ⟨resto, hpilha, rfl⟩
  exact (bind_run_ok hpago _).trans (bind_run_ok htopo _)

theorem jumpiOp_run {q : Quadro} {t c : Word} {resto : List Word}
    (hpilha : i.stack = t :: c :: resto) (hgas : gasHigh ≤ i.gasLeft) :
    jumpiOp q i = (if c = 0 then pure .segue else saltaPara q t)
      { i with gasLeft := i.gasLeft - gasHigh, stack := resto } := by
  unfold jumpiOp
  have hpago := (spend_eq_ok (u := ())).mpr ⟨hgas, rfl⟩
  have htopo : pop { i with gasLeft := i.gasLeft - gasHigh } = .ok t _ :=
    pop_eq_ok.mpr ⟨c :: resto, hpilha, rfl⟩
  have hcond : pop { i with gasLeft := i.gasLeft - gasHigh, stack := c :: resto } = .ok c _ :=
    pop_eq_ok.mpr ⟨resto, rfl, rfl⟩
  exact (bind_run_ok hpago _).trans ((bind_run_ok htopo _).trans (bind_run_ok hcond _))

theorem jumpOp_salta {p : ExecParams} (hcode : p.code.length ≤ isizeMax) {f : Fluxo}
    (hrun : jumpOp (quadroDe p) i = .ok f j) : ∃ np, f = .salta np ∧ Fronteira p.code np := by
  unfold jumpOp at hrun
  obtain ⟨_, _, -, hrun⟩ := bind_eq_ok.mp hrun
  obtain ⟨t, _, -, hrun⟩ := bind_eq_ok.mp hrun
  obtain ⟨hdest, hf, -⟩ := (saltaPara_destino hcode).mp hrun
  exact ⟨_, hf, hdest.1⟩

theorem jumpiOp_salta {p : ExecParams} (hcode : p.code.length ≤ isizeMax) {f : Fluxo}
    (hrun : jumpiOp (quadroDe p) i = .ok f j) :
    f = .segue ∨ ∃ np, f = .salta np ∧ Fronteira p.code np := by
  unfold jumpiOp at hrun
  obtain ⟨_, _, -, hrun⟩ := bind_eq_ok.mp hrun
  obtain ⟨t, _, -, hrun⟩ := bind_eq_ok.mp hrun
  obtain ⟨c, _, -, hrun⟩ := bind_eq_ok.mp hrun
  split_ifs at hrun
  · exact .inl (pure_eq_ok.mp hrun).1
  · obtain ⟨hdest, hf, -⟩ := (saltaPara_destino hcode).mp hrun
    exact .inr ⟨_, hf, hdest.1⟩

/-- One turn takes the program counter from a boundary to a boundary. -/
theorem passagem_fronteira {p : ExecParams} (hcode : p.code.length ≤ isizeMax)
    (hi : Fronteira p.code i.pc) (ht : Passagem cr h (quadroDe p) i j) : Fronteira p.code j.pc := by
  obtain ⟨op, hop, hpasso⟩ := ht
  obtain ⟨f, t, hexec, hpc⟩ := passo_pc hpasso
  have hproxima := hi.segue hop
  rcases decodifica_imediatos op with ⟨n, hn, him⟩ | ⟨hnao, him⟩
  · rw [hn] at hexec
    have hf := pushOp_salta hexec
    obtain ⟨hsegue, -⟩ | ⟨np, hsalta, -, hj⟩ | ⟨res, -, hr⟩ := hpc
    · rw [hf] at hsegue
      cases hsegue
    · rw [hf] at hsalta
      cases hsalta
      rw [hj, him]
      exact hproxima
    · cases hr
  · rw [him] at hproxima
    obtain ⟨-, -, hj⟩ | ⟨np, rfl, -, hj⟩ | ⟨res, -, hr⟩ := hpc
    · rw [hj]
      exact hproxima
    · rw [hj]
      by_cases hjump : decodifica op = .jump
      · rw [hjump] at hexec
        obtain ⟨np', hnp, hdest⟩ := jumpOp_salta hcode hexec
        cases hnp
        exact hdest
      · by_cases hjumpi : decodifica op = .jumpi
        · rw [hjumpi] at hexec
          rcases jumpiOp_salta hcode hexec with hnada | ⟨np', hnp, hdest⟩
          · cases hnada
          · cases hnp
            exact hdest
        · exact absurd rfl (executa_naoSalta op hjump hjumpi hnao _ _ _ hexec np)
    · cases hr

/-- A jump to a word: it gets there if that is a destination, and otherwise it fails. -/
def SaltaSe (code : Bytes) (t : Word)
    (r : EStateM.Result Parada (Interp σ) (Option ExecResult)) : Prop :=
  ((∃ a j, r = .ok a j) ↔ Destino code t.toNat) ∧ ∀ a j, r = .ok a j → a = none ∧ j.pc = t.toNat

theorem passo_de_segue {op : UInt8} {t : Interp σ} (hpc : i.pc < usizeMax)
    (hexec : executa cr h q op (decodifica op) i = .ok .segue t) :
    passo cr h q op i = .ok none { t with pc := i.pc + 1 } := by
  have hseguinte : usizeAdd i.pc 1 = .ok (i.pc + 1) := dentro_ok hpc
  unfold passo
  rw [get_bind_run, lift_bind_run hseguinte, bind_run_ok hexec]
  rfl

theorem passo_de_salta {op : UInt8} {t : Interp σ} {np : ℕ} (hpc : i.pc < usizeMax)
    (hexec : executa cr h q op (decodifica op) i = .ok (.salta np) t) :
    passo cr h q op i = .ok none { t with pc := np } := by
  have hseguinte : usizeAdd i.pc 1 = .ok (i.pc + 1) := dentro_ok hpc
  unfold passo
  rw [get_bind_run, lift_bind_run hseguinte, bind_run_ok hexec]
  rfl

theorem saltaSe_passo {p : ExecParams} (hcode : p.code.length ≤ isizeMax) {op : UInt8} {t : Word}
    {s : Interp σ} (hpc : i.pc < usizeMax)
    (hexec : executa cr h (quadroDe p) op (decodifica op) i = saltaPara (quadroDe p) t s) :
    SaltaSe p.code t (passo cr h (quadroDe p) op i) := by
  refine ⟨⟨?_, fun hdest => ?_⟩, ?_⟩
  · rintro ⟨a, j, hrun⟩
    obtain ⟨f, u, hf, -⟩ := passo_pc hrun
    exact ((saltaPara_destino hcode).mp (hexec.symm.trans hf)).1
  · exact ⟨none, _, passo_de_salta hpc
      (hexec.trans ((saltaPara_destino hcode).mpr ⟨hdest, rfl, rfl⟩))⟩
  · intro a j hrun
    obtain ⟨f, u, hf, hfim⟩ := passo_pc hrun
    obtain ⟨-, rfl, -⟩ := (saltaPara_destino hcode).mp (hexec.symm.trans hf)
    obtain ⟨hsegue, -⟩ | ⟨np, hsalta, ha, hj⟩ | ⟨res, hres, -⟩ := hfim
    · cases hsegue
    · cases hsalta
      exact ⟨ha, hj⟩
    · cases hres

/-- In every run of a frame the program counter stays on the boundaries, so no byte of an
immediate is ever executed, and the jumps go to the destinations of the code and nowhere else. -/
theorem pc_nas_fronteiras {p : ExecParams} (hcode : p.code.length ≤ isizeMax) (s : σ)
    (hvisita : Visita cr h p s i) :
    (p.code.length ≤ i.pc ∨ Fronteira p.code i.pc) ∧ ¬ Imediato p.code i.pc ∧
      (p.code[i.pc]? = some 0x56 → ∀ t resto, i.stack = t :: resto → gasMid ≤ i.gasLeft →
        SaltaSe p.code t (passo cr h (quadroDe p) 0x56 i)) ∧
      (p.code[i.pc]? = some 0x57 → ∀ t c resto, i.stack = t :: c :: resto → gasHigh ≤ i.gasLeft →
        (c ≠ 0 → SaltaSe p.code t (passo cr h (quadroDe p) 0x57 i)) ∧
        (c = 0 → ∃ j, passo cr h (quadroDe p) 0x57 i = .ok none j ∧ j.pc = i.pc + 1)) := by
  have hfronteira : Fronteira p.code i.pc := by
    induction hvisita with
    | refl => exact .inicio
    | tail _ ht ih => exact passagem_fronteira hcode ih ht
  have hpc {op : UInt8} (hop : p.code[i.pc]? = some op) : i.pc < usizeMax := by
    have hlt := (List.getElem?_eq_some_iff.mp hop).choose
    unfold isizeMax at hcode
    unfold usizeMax
    omega
  refine ⟨.inr hfronteira, hfronteira.fora_do_imediato, ?_, ?_⟩
  · intro hop t resto hpilha hgas
    exact saltaSe_passo hcode (hpc hop) (jumpOp_run hpilha hgas)
  · intro hop t c resto hpilha hgas
    have hexec : executa cr h (quadroDe p) 0x57 (decodifica 0x57) i = _ := jumpiOp_run hpilha hgas
    refine ⟨fun hc => ?_, fun hc => ?_⟩
    · rw [if_neg hc] at hexec
      exact saltaSe_passo hcode (hpc hop) hexec
    · rw [if_pos hc] at hexec
      exact ⟨_, passo_de_segue (hpc hop) hexec, rfl⟩

/-- `JUMPDEST`, `PUSH0`, `JUMP`: the jump goes back to the start. -/
def paramsDoSalto : ExecParams :=
  { paramsDaCopia with code := [0x5b, 0x5f, 0x56] }

/-- The machine of that code at its jump. -/
def antesDoSalto : Interp Unit :=
  { interpInicial paramsDoSalto () with stack := [0], pc := 2, gasLeft := 97 }

theorem salta_para_o_inicio : ∃ i : Interp Unit, i.pc = 2 ∧
    SaltaSe paramsDoSalto.code 0 (passo criptoIdeal semMundo (quadroDe paramsDoSalto) 0x56 i) := by
  have hprimeira : Passagem criptoIdeal semMundo (quadroDe paramsDoSalto)
      (interpInicial paramsDoSalto ())
      { interpInicial paramsDoSalto () with pc := 1, gasLeft := 99 } := ⟨0x5b, rfl, rfl⟩
  have hsegunda : Passagem criptoIdeal semMundo (quadroDe paramsDoSalto)
      { interpInicial paramsDoSalto () with pc := 1, gasLeft := 99 } antesDoSalto :=
    ⟨0x5f, rfl, rfl⟩
  have hfronteiras := pc_nas_fronteiras (p := paramsDoSalto) (by decide) ()
    (.tail (.single hprimeira) hsegunda)
  exact ⟨antesDoSalto, rfl, hfronteiras.2.2.1 rfl 0 [] rfl (by decide)⟩

end

end Eav7.Eavm
