import Eav7.Eavm.Gas

/-!
# Every instruction pays or ends the frame

One lemma for each family of instructions, over any host that answers within the
gas it is given; the loop follows by induction on its fuel.
-/

namespace Eav7
namespace Eavm

open Base

/-- The bounds of the result of a frame that got `gas`. -/
def Fechado (gas : ℕ) (r : ExecResult) : Prop :=
  r.gasUsed + r.gasLeft = gas ∧ r.returnData.length ≤ limiteMemoria

section

variable {σ : Type} {cr : Cripto} {h : Host σ} {q : Quadro} {i : Interp σ} {k : ℕ}

/-- What the host of a frame promises: code is a `Vec`, and nested frames spend
at most the gas they are forwarded. -/
structure HostSeguro (h : Host σ) (q : Quadro) : Prop where
  sstore : ∀ a k v s, Runs (h.sstore a k v) s (fun _ _ => True) fun e _ => EFalha e
  tstore : ∀ a k v s, Runs (h.tstore a k v) s (fun _ _ => True) fun e _ => EFalha e
  code : ∀ s a, (h.code s a).length ≤ isizeMax
  call : ∀ (req : CallRequest) s, req.depth = q.depth + 1 → req.input.length ≤ limiteMemoria →
    Runs (h.call req) s (fun r _ => r.gasUsed ≤ req.gas ∧ r.returnData.length ≤ isizeMax)
      fun e _ => EFalha e
  create : ∀ (req : CreateRequest) s, req.depth = q.depth + 1 →
    req.initCode.length ≤ limiteMemoria →
    Runs (h.create req) s (fun r _ => r.gasUsed ≤ req.gas ∧ r.returnData.length ≤ isizeMax)
      fun e _ => EFalha e

/-- The byte vectors of a frame are vectors, and its depth is a counter with room. -/
structure Cabe (q : Quadro) : Prop where
  code : q.code.length ≤ isizeMax
  calldata : q.calldata.length ≤ isizeMax
  depth : q.depth < u32Max

/-! ## The instructions that stay inside the frame -/

theorem segue_custa : Custa q 0 i (pure Fluxo.segue) fun f _ => Continua f :=
  Custa.pure_intro fun _ => Continua.segue

/-- A last push. -/
theorem push_segue (v : Word) :
    Custa q 0 i (push v >>= fun _ => pure Fluxo.segue) fun f _ => Continua f :=
  Custa.seq (push_custa v) fun _ _ _ => segue_custa

theorem spend_seguida {α : Type} {g : ℕ} {m : Passo σ α} {P : α → Interp σ → Prop} (hk : k ≤ g)
    (hm : ∀ j, Custa q 0 j m P) : Custa q k i (spend g >>= fun _ => m) P :=
  (Custa.paga (spend_custa g) fun _ i' _ => hm i').mono hk fun _ _ h => h

theorem pop_seguida {α : Type} {f : Word → Passo σ α} {P : α → Interp σ → Prop}
    (hf : ∀ v j, Custa q k j (f v) P) : Custa q k i (pop >>= f) P :=
  Custa.seq pop_custa fun v i' _ => hf v i'

theorem opera_custa (g n : ℕ) (f : List Word → Word) :
    Custa q g i (opera g n f) fun f _ => Continua f := by
  unfold opera
  exact spend_seguida (Nat.le_refl _) fun _ => Custa.seq (popN_custa n) fun _ _ _ => push_segue _

theorem empurra_custa (g : ℕ) (f : Interp σ → Word) :
    Custa q g i (empurra g f) fun f _ => Continua f := by
  unfold empurra
  exact spend_seguida (Nat.le_refl _) fun _ => Custa.get_bind (push_segue _)

theorem comOsaka_custa {g : ℕ} {op : UInt8} {m : Passo σ Fluxo}
    (hm : ∀ j, Custa q 0 j m fun f _ => Continua f) :
    Custa q g i (comOsaka q g op m) fun f _ => Continua f := by
  unfold comOsaka exigeOsaka
  refine spend_seguida (Nat.le_refl _) fun j => Custa.seq (exige_custa _ _) fun _ i' _ => hm i'

theorem bitLen_le (w : Word) : bitLen w ≤ 256 := by
  unfold bitLen
  split_ifs with h0
  · exact Nat.zero_le _
  · have hne : w.toNat ≠ 0 := fun hz => h0 (BitVec.eq_of_toNat_eq hz)
    have hlog : w.toNat.log2 < 256 := (Nat.log2_lt hne).mpr w.isLt
    omega

theorem expOp_custa : Custa q 1 i expOp fun f _ => Continua f := by
  unfold expOp
  refine pop_seguida fun a j => pop_seguida fun e j => ?_
  have hb : divCeil (bitLen e) 8 ≤ 32 := divCeil_le (by decide) (bitLen_le e)
  refine Custa.seq (Custa.lift_ok (P := fun v _ => v ≤ 1600)
    (dentro_ok (by unfold u64Max; omega)) (by omega)) fun v j' hv => ?_
  refine Custa.seq (Custa.lift_ok (P := fun c _ => 1 ≤ c)
    (dentro_ok (by unfold gasHigh u64Max; omega)) (by unfold gasHigh; omega)) fun c j'' hc => ?_
  exact spend_seguida hc fun _ => push_segue _

theorem keccakOp_custa : Custa q 1 i (keccakOp cr) fun f _ => Continua f := by
  unfold keccakOp
  refine spend_seguida (by decide) fun _ => pop_seguida fun o _ => pop_seguida fun l _ => ?_
  refine spend_seguida (Nat.zero_le _) fun _ => Custa.seq (memRead_custa o l) fun b _ _ => ?_
  exact push_segue _

theorem calldataloadOp_custa (hq : Cabe q) :
    Custa q 1 i (calldataloadOp q) fun f _ => Continua f := by
  unfold calldataloadOp
  refine spend_seguida (by decide) fun _ => pop_seguida fun w j => ?_
  refine Custa.ite (fun hlt => ?_) fun _ => push_segue _
  have hcd := hq.calldata
  refine Custa.seq (Custa.lift_ok (P := fun p _ => p = usizeSat w + 32)
    (dentro_ok (by unfold isizeMax at hcd; unfold usizeMax; omega)) rfl) ?_
  rintro pedido j' rfl
  refine Custa.seq (Custa.lift_ok (P := Tanto)
    (fatiaDe_ok (by omega) (Nat.min_le_right _ _)) trivial) fun _ _ _ => push_segue _

theorem u64Sat_le (w : Word) : u64Sat w ≤ u64Max := Nat.min_le_right _ _

theorem copiaOp_custa (fonte : Bytes) :
    Custa q 1 i (copiaOp fonte) fun f _ => Continua f := by
  unfold copiaOp
  refine spend_seguida (by decide) fun _ => pop_seguida fun d _ => pop_seguida fun o _ => ?_
  refine pop_seguida fun s _ => spend_seguida (Nat.zero_le _) fun _ => ?_
  exact Custa.seq (copiaParaMem_custa d _ (u64Sat_le s)) fun _ _ _ => segue_custa

theorem extcodecopyOp_custa : Custa q 1 i (extcodecopyOp h) fun f _ => Continua f := by
  unfold extcodecopyOp
  refine spend_seguida (by decide) fun _ => pop_seguida fun w _ => pop_seguida fun d _ => ?_
  refine pop_seguida fun o _ => pop_seguida fun s _ => spend_seguida (Nat.zero_le _) fun _ => ?_
  refine Custa.get_bind (Custa.seq (copiaParaMem_custa d _ (u64Sat_le s)) fun _ _ _ => ?_)
  exact segue_custa

theorem extcodehashOp_custa : Custa q 1 i (extcodehashOp cr h) fun f _ => Continua f := by
  unfold extcodehashOp
  refine spend_seguida (by decide) fun _ => pop_seguida fun w _ => Custa.get_bind ?_
  exact spend_seguida (Nat.zero_le _) fun _ => push_segue _

theorem returndatacopyOp_custa : Custa q 1 i returndatacopyOp fun f _ => Continua f := by
  unfold returndatacopyOp
  refine spend_seguida (by decide) fun _ => pop_seguida fun d _ => pop_seguida fun o _ => ?_
  refine pop_seguida fun s j => Custa.vivo fun hj => Custa.get_bind ?_
  have hret := hj.retorno
  refine Custa.seq (exige_custa _ _) ?_
  rintro _ _ ⟨hfim, rfl⟩
  have hle : usizeSat o + usizeSat s ≤ j.lastReturn.length := by
    unfold usizeSat u128Sat u128Max usizeMax at *
    unfold isizeMax at hret
    omega
  refine Custa.seq ((spend_custa _).mono (Nat.zero_le _) fun _ _ h => h) ?_
  rintro _ _ ⟨-, rfl⟩
  refine Custa.get_bind (Custa.seq (Custa.lift_ok (P := fun fim j' =>
    { j with gasLeft := _ } = j' ∧ fim = usizeSat o + usizeSat s)
    (dentro_ok (by unfold isizeMax at hret; unfold usizeMax; omega)) ⟨rfl, rfl⟩) ?_)
  rintro fim _ ⟨rfl, rfl⟩
  refine Custa.seq (Custa.lift_ok (P := fun b _ => b.length ≤ isizeMax)
    (fatiaDe_ok (Nat.le_add_right _ _) hle) ?_) fun b _ hb => ?_
  · rw [length_fatia hle]
    omega
  · exact Custa.seq (memWrite_custa d hb) fun _ _ _ => segue_custa

theorem mloadOp_custa : Custa q 1 i mloadOp fun f _ => Continua f := by
  unfold mloadOp
  refine spend_seguida (by decide) fun _ => pop_seguida fun o _ => ?_
  exact Custa.seq (memRead_custa o 32) fun _ _ _ => push_segue _

theorem mstoreOp_custa {bytes : Word → Bytes} (hb : ∀ v, (bytes v).length ≤ isizeMax) :
    Custa q 1 i (mstoreOp bytes) fun f _ => Continua f := by
  unfold mstoreOp
  refine spend_seguida (by decide) fun _ => pop_seguida fun o _ => pop_seguida fun v _ => ?_
  exact Custa.seq (memWrite_custa o (hb v)) fun _ _ _ => segue_custa

theorem saltaPara_custa (t : Word) : Custa q 0 i (saltaPara q t) fun f _ => Continua f := by
  unfold saltaPara
  refine Custa.seq (exige_custa _ _) fun _ _ _ => ?_
  exact Custa.pure_intro fun _ => Continua.salta _

theorem jumpOp_custa : Custa q 1 i (jumpOp q) fun f _ => Continua f := by
  unfold jumpOp
  exact spend_seguida (by decide) fun _ => pop_seguida fun t _ => saltaPara_custa t

theorem jumpiOp_custa : Custa q 1 i (jumpiOp q) fun f _ => Continua f := by
  unfold jumpiOp
  refine spend_seguida (by decide) fun _ => pop_seguida fun t _ => pop_seguida fun c _ => ?_
  exact Custa.ite (fun _ => segue_custa) fun _ => saltaPara_custa t

theorem mcopyOp_custa (op : UInt8) : Custa q 1 i (mcopyOp q op) fun f _ => Continua f := by
  unfold mcopyOp exigeOsaka
  refine spend_seguida (by decide) fun _ => Custa.seq (exige_custa _ _) fun _ _ _ => ?_
  refine pop_seguida fun d _ => pop_seguida fun o _ => pop_seguida fun s _ => ?_
  refine spend_seguida (Nat.zero_le _) fun _ => ?_
  refine Custa.seq (memExpand_custa o s) fun _ j ho => Custa.seq (memExpand_custa d s) ?_
  refine fun _ j' hd => Custa.ite (fun _ => segue_custa) fun hne => ?_
  obtain ⟨holim, homem⟩ := ho.2 hne
  obtain ⟨hdlim, hdmem⟩ := hd.2 hne
  have hgrow := hd.1
  rw [usizeSat_of_le (show d.toNat ≤ _ by omega), usizeSat_of_le (show o.toNat ≤ _ by omega),
    usizeSat_of_le (show s.toNat ≤ _ by omega)]
  exact Custa.seq (copiaDentro_custa (by omega) hdmem holim) fun _ _ _ => segue_custa

theorem imediato_ok {code : Bytes} {ini fim : ℕ} (hfim : fim ≤ code.length) :
    ∃ dados, imediato code ini fim = .ok dados := by
  unfold imediato
  split_ifs with hlt
  · exact ⟨_, fatiaDe_ok (Nat.le_of_lt hlt) hfim⟩
  · exact ⟨_, rfl⟩

theorem pushOp_custa (hq : Cabe q) {n : ℕ} (hn : n ≤ 32) :
    Custa q 1 i (pushOp q n) fun f _ => Continua f := by
  have hcode := hq.code
  unfold isizeMax at hcode
  unfold pushOp
  refine spend_seguida (by decide) fun j => Custa.vivo fun hj => Custa.get_bind ?_
  have hpc := hj.pc
  unfold isizeMax at hpc
  refine Custa.seq (Custa.lift_ok (P := fun ini _ => ini = j.pc + 1)
    (dentro_ok (by unfold usizeMax; omega)) rfl) ?_
  rintro ini j' rfl
  refine Custa.seq (Custa.lift_ok (P := fun np _ => np = j.pc + 1 + n)
    (dentro_ok (by unfold usizeMax; omega)) rfl) ?_
  rintro np j'' rfl
  obtain ⟨dados, hdados⟩ := imediato_ok
    (Nat.min_le_right (j.pc + 1 + n) q.code.length)
  refine Custa.seq (Custa.lift_ok (P := Tanto) hdados trivial) fun _ _ _ => ?_
  refine Custa.seq (push_custa _) fun _ _ _ => ?_
  exact Custa.pure_intro fun _ => Continua.salta _

theorem dupOp_custa (n : ℕ) : Custa q 1 i (dupOp n) fun f _ => Continua f := by
  unfold dupOp
  exact spend_seguida (by decide) fun _ => Custa.seq (peek_custa n) fun _ _ _ => push_segue _

theorem swapOp_custa (n : ℕ) : Custa q 1 i (swapOp n) fun f _ => Continua f := by
  unfold swapOp
  refine spend_seguida (by decide) fun _ => Custa.seq (peek_custa 0) fun _ _ _ => ?_
  refine Custa.seq (peek_custa n) fun _ _ _ => Custa.seq (P := Tanto) ?_ fun _ _ _ => segue_custa
  exact Custa.modify_intro (fun hi => { hi with }) (Nat.le_refl _) trivial

theorem preparaLog_custa (op : UInt8) (n : Fin 5) :
    Custa q 1 i (preparaLog q op n) Tanto := by
  unfold preparaLog exigeEscrita
  refine Custa.seq (exige_custa _ _) fun _ _ _ => pop_seguida fun o _ => pop_seguida fun s _ => ?_
  refine Custa.seq (popN_custa n) fun topics _ _ => spend_seguida ?_ fun _ => ?_
  · unfold saturatingAdd gasLog u64Max
    omega
  · exact Custa.seq (memRead_custa o s) fun data _ _ => Custa.pure_intro fun _ => trivial

theorem logOp_custa (op : UInt8) (n : Fin 5) :
    Custa q 1 i (logOp q op n) fun f _ => Continua f := by
  unfold logOp
  refine Custa.paga (preparaLog_custa op n) fun log _ _ => ?_
  refine Custa.seq (P := Tanto) ?_ fun _ _ _ => segue_custa
  exact Custa.modify_intro (fun hi => { hi with }) (Nat.le_refl _) trivial

/-! ## Writes through the host -/

theorem noHost_custa {α : Type} {m : EStateM Parada σ α} {P : α → Prop}
    (hm : ∀ s, Runs m s (fun a _ => P a) fun e _ => EFalha e) :
    Custa q 0 i (noHost m) fun a i' => P a ∧ ∃ s, i' = { i with host := s } := by
  refine fun hi => Runs.intro ?_ ?_
  · intro a i' hrun
    unfold noHost at hrun
    cases hms : m i.host with
    | ok b s =>
      rw [hms] at hrun
      obtain ⟨rfl, rfl⟩ := hrun
      exact ⟨{ hi with }, Nat.le_refl _, (hm i.host).ok hms, s, rfl⟩
    | error e s =>
      rw [hms] at hrun
      cases hrun
  · intro e i' hrun
    unfold noHost at hrun
    cases hms : m i.host with
    | ok b s =>
      rw [hms] at hrun
      cases hrun
    | error e' s =>
      rw [hms] at hrun
      obtain ⟨rfl, rfl⟩ := hrun
      exact (hm i.host).error hms

theorem sstoreOp_custa (hh : HostSeguro h q) (op : UInt8) :
    Custa q 1 i (sstoreOp h q op) fun f _ => Continua f := by
  unfold sstoreOp exigeEscrita
  refine Custa.seq (exige_custa _ _) fun _ _ _ => pop_seguida fun k _ => pop_seguida fun v _ => ?_
  refine Custa.get_bind (spend_seguida ?_ fun _ => ?_)
  · split_ifs
    · decide
    · decide
  · exact Custa.seq (noHost_custa fun s => hh.sstore _ _ _ s) fun _ _ _ => segue_custa

theorem tstoreOp_custa (hh : HostSeguro h q) (op : UInt8) :
    Custa q 1 i (tstoreOp h q op) fun f _ => Continua f := by
  unfold tstoreOp exigeEscrita exigeOsaka
  refine spend_seguida (by decide) fun _ => Custa.seq (exige_custa _ _) fun _ _ _ => ?_
  refine Custa.seq (exige_custa _ _) fun _ _ _ => pop_seguida fun k _ => pop_seguida fun v _ => ?_
  exact Custa.seq (noHost_custa fun s => hh.tstore _ _ _ s) fun _ _ _ => segue_custa

/-! ## Creations and calls -/

theorem popSalt_custa (comSalt : Bool) : Custa q 0 i (popSalt comSalt) Tanto := by
  unfold popSalt
  refine Custa.ite (fun _ => ?_) fun _ => Custa.pure_intro fun _ => trivial
  exact pop_seguida fun v _ => Custa.pure_intro fun _ => trivial

theorem popValor_custa (kind : CallKind) : Custa q 0 i (popValor kind) Tanto := by
  unfold popValor
  refine Custa.ite (fun _ => ?_) fun _ => Custa.pure_intro fun _ => trivial
  exact pop_custa.mono (Nat.le_refl _) fun _ _ _ => trivial

/-- What a request for a nested frame leaves behind: gas for all it forwards. -/
theorem preparaCreate_custa (hq : Cabe q) (op : UInt8) (comSalt : Bool) :
    Custa q 1 i (preparaCreate q op comSalt) fun req i' =>
      req.gas ≤ i'.gasLeft ∧ req.depth = q.depth + 1 ∧ req.initCode.length ≤ limiteMemoria := by
  unfold preparaCreate exigeEscrita
  refine Custa.seq (exige_custa _ _) fun _ _ _ => spend_seguida (by decide) fun _ => ?_
  refine pop_seguida fun val _ => pop_seguida fun o _ => pop_seguida fun s _ => ?_
  refine Custa.seq (popSalt_custa comSalt) fun salt _ _ => ?_
  refine Custa.seq (memRead_custa o s) fun init j hinit => Custa.get_bind ?_
  refine Custa.seq (Custa.lift_ok (P := fun d j' => j = j' ∧ d = q.depth + 1)
    (dentro_ok (by have := hq.depth; omega)) ⟨rfl, rfl⟩) ?_
  rintro d _ ⟨rfl, rfl⟩
  exact Custa.pure_intro fun _ => ⟨Nat.sub_le _ _, rfl, hinit⟩

theorem encaminha_le (pedido gasLeft : ℕ) (comValor : Bool) :
    encaminha pedido gasLeft comValor ≤ gasLeft := Nat.min_le_right _ _

theorem preparaCall_custa (hq : Cabe q) (op : UInt8) (kind : CallKind) :
    Custa q 1 i (preparaCall q op kind) fun p i' =>
      p.1.gas ≤ i'.gasLeft ∧ p.1.depth = q.depth + 1 ∧ p.1.input.length ≤ limiteMemoria := by
  unfold preparaCall
  refine spend_seguida (by decide) fun _ => pop_seguida fun reqGas _ => ?_
  refine pop_seguida fun para _ => Custa.seq (popValor_custa kind) fun callValue _ _ => ?_
  refine Custa.seq (exige_custa _ _) fun _ _ _ => pop_seguida fun ao _ => ?_
  refine pop_seguida fun asz _ => pop_seguida fun ro _ => pop_seguida fun rsz _ => ?_
  refine spend_seguida (Nat.zero_le _) fun _ => Custa.seq (memRead_custa ao asz) ?_
  refine fun input _ hin => Custa.seq (memExpand_custa ro rsz) fun _ j _ => Custa.get_bind ?_
  refine Custa.seq (Custa.lift_ok (P := fun d j' => j = j' ∧ d = q.depth + 1)
    (dentro_ok (by have := hq.depth; omega)) ⟨rfl, rfl⟩) ?_
  rintro d _ ⟨rfl, rfl⟩
  exact Custa.pure_intro fun _ => ⟨encaminha_le _ _ _, rfl, hin⟩

theorem concluiCreate_custa {r : CreateOutcome} (hr : r.returnData.length ≤ isizeMax) :
    Custa q 0 i (concluiCreate r) fun f _ => Continua f := by
  unfold concluiCreate
  refine spend_seguida (Nat.zero_le _) fun j => Custa.seq (P := Tanto) ?_ fun _ _ _ => push_segue _
  refine Custa.modify_intro (fun hj => ?_) (Nat.le_refl _) trivial
  refine { hj with retorno := ?_ }
  show (if r.success = true then [] else r.returnData).length ≤ isizeMax
  split_ifs
  · exact Nat.zero_le _
  · exact hr

theorem devolve_custa {ret : Bytes} (hret : ret.length ≤ isizeMax) (ro rsz : Word) :
    Custa q 0 i (devolve ro rsz ret) Tanto := by
  unfold devolve
  refine Custa.ite (fun _ => Custa.pure_intro fun _ => trivial) fun _ => memWrite_custa ro ?_
  rw [List.length_take]
  omega

theorem concluiCall_custa {r : CallOutcome} (hr : r.returnData.length ≤ isizeMax) (ro rsz : Word) :
    Custa q 0 i (concluiCall r ro rsz) fun f _ => Continua f := by
  unfold concluiCall
  refine spend_seguida (Nat.zero_le _) fun j => Custa.seq (P := Tanto) ?_ fun _ _ _ => ?_
  · exact Custa.modify_intro (fun hj => { hj with retorno := hr }) (Nat.le_refl _) trivial
  · refine Custa.seq (devolve_custa hr ro rsz) fun _ _ _ => Custa.seq (P := Tanto) ?_ ?_
    · exact Custa.modify_intro (fun hj => { hj with }) (Nat.le_refl _) trivial
    · exact fun _ _ _ => push_segue _

theorem createOp_custa (hh : HostSeguro h q) (hq : Cabe q) (op : UInt8) (comSalt : Bool) :
    Custa q 1 i (createOp h q op comSalt) fun f _ => Continua f := by
  unfold createOp
  refine Custa.paga (preparaCreate_custa hq op comSalt) ?_
  rintro req j ⟨-, hdepth, hlen⟩
  refine Custa.seq (noHost_custa fun s => hh.create req s hdepth hlen) ?_
  rintro r j' ⟨⟨-, hret⟩, -⟩
  exact concluiCreate_custa hret

theorem callOp_custa (hh : HostSeguro h q) (hq : Cabe q) (op : UInt8) (kind : CallKind) :
    Custa q 1 i (callOp h q op kind) fun f _ => Continua f := by
  unfold callOp
  refine Custa.paga (preparaCall_custa hq op kind) ?_
  rintro ⟨req, ro, rsz⟩ j ⟨-, hdepth, hlen⟩
  refine Custa.seq (noHost_custa fun s => hh.call req s hdepth hlen) ?_
  rintro r j' ⟨⟨-, hret⟩, -⟩
  exact concluiCall_custa hret ro rsz

/-! ## One turn, and the loop -/

/-- The end of a frame closes its account; anything else pays. -/
def Turno (q : Quadro) (i : Interp σ) (i' : Interp σ) : Fluxo → Prop
  | .fim r => Fechado q.gasInicial r
  | .segue | .salta _ => i'.gasLeft < i.gasLeft

theorem Custa.turno {m : Passo σ Fluxo} (hm : Custa q 1 i m fun f _ => Continua f) (hi : Vivo q i) :
    Runs m i (fun f i' => Bom q i' ∧ Turno q i i' f) fun e _ => EFalha e := by
  refine (hm hi).mono ?_ fun _ _ he => he
  rintro f i' ⟨hv, hg, hc⟩
  refine ⟨hv.toBom, ?_⟩
  cases f with
  | segue => exact Nat.lt_of_succ_le hg
  | salta np => exact Nat.lt_of_succ_le hg
  | fim r => exact absurd rfl (hc r)

theorem done_runs {success : Bool} {ret : Bytes} (hret : ret.length ≤ limiteMemoria)
    (hi : Bom q i) : Runs (done q success ret) i
      (fun f i' => i' = i ∧ ∃ r, f = .fim r ∧ Fechado q.gasInicial r) fun e _ => EFalha e := by
  unfold done
  refine Runs.get_bind (Runs.bind ?_)
  rw [u64Sub_ok hi.gas]
  refine Runs.lift_intro (fun b hb => ?_) fun e he => by cases he
  obtain rfl : q.gasInicial - i.gasLeft = b := by injection hb
  refine Runs.pure_intro ⟨rfl, _, rfl, ?_, hret⟩
  exact Nat.sub_add_cancel hi.gas

theorem saiOp_runs (success : Bool) (hi : Vivo q i) :
    Runs (saiOp q success) i (fun f i' => Bom q i' ∧ Turno q i i' f) fun e _ => EFalha e := by
  have hlido : Custa q 0 i (do
      let o ← pop
      let s ← pop
      memRead o s) fun b _ => b.length ≤ limiteMemoria :=
    pop_seguida fun o _ => pop_seguida fun s _ => memRead_custa o s
  have hrun := hlido hi
  have heq : (saiOp q success : Passo σ Fluxo) = (do
      let o ← pop
      let s ← pop
      memRead o s) >>= done q success := by
    simp only [saiOp, bind_assoc]
  rw [heq]
  refine Runs.bind (hrun.mono ?_ fun _ _ he => he)
  rintro ret j ⟨hj, -, hlen⟩
  refine (done_runs hlen hj.toBom).mono ?_ fun _ _ he => he
  rintro f j' ⟨rfl, r, rfl, hr⟩
  exact ⟨hj.toBom, hr⟩

theorem executa_runs (hh : HostSeguro h q) (hq : Cabe q) (op : UInt8) (instr : Instrucao)
    (hi : Vivo q i) : Runs (executa cr h q op instr) i
      (fun f i' => Bom q i' ∧ Turno q i i' f) fun e _ => EFalha e := by
  have fica : ∀ {m : Passo σ Fluxo} {g : ℕ}, Custa q g i m (fun f _ => Continua f) → 1 ≤ g →
      Runs m i (fun f i' => Bom q i' ∧ Turno q i i' f) fun e _ => EFalha e :=
    fun hm hg => (hm.mono hg fun _ _ hc => hc).turno hi
  cases instr with
  | stop =>
    refine (done_runs (Nat.zero_le _) hi.toBom).mono ?_ fun _ _ he => he
    rintro f j ⟨rfl, r, rfl, hr⟩
    exact ⟨hi.toBom, hr⟩
  | binaria b =>
    refine fica (opera_custa b.gas 2 _) ?_
    cases b <;> decide
  | addmod => exact fica (opera_custa gasMid 3 _) (by decide)
  | mulmod => exact fica (opera_custa gasMid 3 _) (by decide)
  | exp => exact fica expOp_custa (Nat.le_refl _)
  | iszero => exact fica (opera_custa gasVerylow 1 _) (by decide)
  | not => exact fica (opera_custa gasVerylow 1 _) (by decide)
  | clz => exact fica (comOsaka_custa fun _ => opera_custa 0 1 _) (by decide)
  | keccak => exact fica keccakOp_custa (Nat.le_refl _)
  | leitura l => exact fica (empurra_custa gasBase _) (by decide)
  | balance => exact fica (Custa.get_bind (opera_custa gasExtcode 1 _)) (by decide)
  | selfbalance => exact fica (empurra_custa gasLow _) (by decide)
  | calldataload => exact fica (calldataloadOp_custa hq) (Nat.le_refl _)
  | calldatacopy => exact fica (copiaOp_custa _) (Nat.le_refl _)
  | codecopy => exact fica (copiaOp_custa _) (Nat.le_refl _)
  | extcodesize => exact fica (Custa.get_bind (opera_custa gasExtcode 1 _)) (by decide)
  | extcodecopy => exact fica extcodecopyOp_custa (Nat.le_refl _)
  | extcodehash => exact fica extcodehashOp_custa (Nat.le_refl _)
  | returndatacopy => exact fica returndatacopyOp_custa (Nat.le_refl _)
  | blockhash => exact fica (Custa.get_bind (opera_custa gasExtcode 1 _)) (by decide)
  | blobhash => exact fica (comOsaka_custa fun _ => opera_custa 0 1 _) (by decide)
  | blobbasefee => exact fica (comOsaka_custa fun _ => opera_custa 0 0 _) (by decide)
  | pop =>
    exact fica (spend_seguida (Nat.le_refl gasBase) fun _ => pop_seguida fun _ _ => segue_custa)
      (by decide)
  | mload => exact fica mloadOp_custa (Nat.le_refl _)
  | mstore =>
    refine fica (mstoreOp_custa fun v => ?_) (Nat.le_refl _)
    rw [paraBeBytes, bytesDeNatural_length]
    decide
  | mstore8 =>
    refine fica (mstoreOp_custa fun v => ?_) (Nat.le_refl _)
    rw [List.length_drop, paraBeBytes, bytesDeNatural_length]
    decide
  | sload => exact fica (Custa.get_bind (opera_custa gasSload 1 _)) (by decide)
  | sstore => exact fica (sstoreOp_custa hh op) (Nat.le_refl _)
  | jump => exact fica jumpOp_custa (Nat.le_refl _)
  | jumpi => exact fica jumpiOp_custa (Nat.le_refl _)
  | jumpdest => exact fica (spend_seguida (Nat.le_refl gasJumpdest) fun _ => segue_custa) (by decide)
  | tload =>
    exact fica (Custa.get_bind (comOsaka_custa fun _ => opera_custa 0 1 _)) (by decide)
  | tstore => exact fica (tstoreOp_custa hh op) (Nat.le_refl _)
  | mcopy => exact fica (mcopyOp_custa op) (Nat.le_refl _)
  | push n => exact fica (pushOp_custa hq (Nat.lt_succ_iff.mp n.isLt)) (Nat.le_refl _)
  | dup n => exact fica (dupOp_custa n) (Nat.le_refl _)
  | swap n => exact fica (swapOp_custa n) (Nat.le_refl _)
  | log n => exact fica (logOp_custa op n) (Nat.le_refl _)
  | create comSalt => exact fica (createOp_custa hh hq op comSalt) (Nat.le_refl _)
  | call kind => exact fica (callOp_custa hh hq op kind) (Nat.le_refl _)
  | sai success => exact saiOp_runs success hi
  | invalid => exact fica (g := 1) (Custa.falha_intro _) (Nat.le_refl _)
  | selfdestruct => exact fica (g := 1) (Custa.falha_intro _) (Nat.le_refl _)
  | desconhecido => exact fica (g := 1) (Custa.falha_intro _) (Nat.le_refl _)

/-- A turn that goes on has paid. -/
theorem passo_runs (hh : HostSeguro h q) (hq : Cabe q) (op : UInt8) (hi : Vivo q i) :
    Runs (passo cr h q op) i (fun r i' => Bom q i' ∧
        match r with
        | some r => Fechado q.gasInicial r
        | none => i'.gasLeft < i.gasLeft) fun e _ => EFalha e := by
  unfold passo
  refine Runs.get_bind (Runs.bind ?_)
  have hpc := hi.pc
  rw [usizeAdd, dentro_ok (by unfold isizeMax at hpc; unfold usizeMax; omega)]
  refine Runs.lift_intro (fun seguinte _ => ?_) fun e he => by cases he
  refine Runs.bind ((executa_runs hh hq op _ hi).mono ?_ fun _ _ he => he)
  rintro f j ⟨hj, hf⟩
  cases f with
  | segue => exact Runs.modify_bind (Runs.pure_intro ⟨{ hj with }, hf⟩)
  | salta np => exact Runs.modify_bind (Runs.pure_intro ⟨{ hj with }, hf⟩)
  | fim r => exact Runs.pure_intro ⟨hj, hf⟩

theorem paraNoFim_runs (hi : Bom q i) :
    Runs (paraNoFim q) i (fun r _ => Fechado q.gasInicial r) fun e _ => EFalha e := by
  unfold paraNoFim
  refine Runs.get_bind (Runs.bind ?_)
  rw [u64Sub_ok hi.gas]
  refine Runs.lift_intro (fun b hb => ?_) fun e he => by cases he
  obtain rfl : q.gasInicial - i.gasLeft = b := by injection hb
  exact Runs.pure_intro ⟨Nat.sub_add_cancel hi.gas, Nat.zero_le _⟩

/-- The gas of the frame is fuel enough: the loop ends in a result or in a failure
of the frame, and the result closes the account. -/
theorem laco_runs (hh : HostSeguro h q) (hq : Cabe q) (n : ℕ) :
    ∀ {i : Interp σ}, Bom q i → i.gasLeft < n →
      Runs (laco cr h q n) i (fun r _ => Fechado q.gasInicial r) fun e _ => EFalha e := by
  induction n with
  | zero => exact fun _ hlt => absurd hlt (Nat.not_lt_zero _)
  | succ n ih =>
    intro i hi hlt
    unfold laco
    refine Runs.get_bind ?_
    cases hop : q.code[i.pc]? with
    | none => exact paraNoFim_runs hi
    | some op =>
      have hpc : i.pc < q.code.length := (List.getElem?_eq_some_iff.mp hop).1
      have hv : Vivo q i := { hi with pc := (Nat.le_of_lt hpc).trans hq.code }
      refine Runs.bind ((passo_runs hh hq op hv).mono ?_ fun _ _ he => he)
      rintro r j ⟨hj, hr⟩
      cases r with
      | some r => exact Runs.pure_intro hr
      | none => exact ih hj (by simp only at hr; omega)

/-- A frame returns or fails, and a result accounts for all of its gas. -/
theorem runEavm_runs (p : ExecParams) (hh : HostSeguro h (quadroDe p)) (hq : Cabe (quadroDe p))
    (s : σ) : Runs (runEavm cr h p) s (fun r _ => Fechado p.gas r) fun e _ => EFalha e := by
  have hi : Bom (quadroDe p) (interpInicial p s) :=
    { gas := Nat.le_refl _, words := Nat.zero_le _, mem := Nat.zero_le _, retorno := Nat.zero_le _ }
  have hrun : Runs (laco cr h (quadroDe p) (p.gas + 1)) (interpInicial p s) _ _ :=
    laco_runs hh hq (p.gas + 1) hi (Nat.lt_succ_self _)
  refine Runs.intro ?_ ?_
  · intro r s' hr
    unfold runEavm at hr
    split at hr
    case h_1 r' i hl =>
      obtain ⟨rfl, rfl⟩ := hr
      exact hrun.ok hl
    case h_2 => cases hr
  · intro e s' hr
    unfold runEavm at hr
    split at hr
    case h_1 => cases hr
    case h_2 e' i hl =>
      obtain ⟨rfl, rfl⟩ := hr
      exact hrun.error hl

end
end Eavm
end Eav7
