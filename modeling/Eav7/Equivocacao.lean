import Eav7.Carga
import Eav7.Evidencia
import Eav7.Malha
import Eav7.Pares

/-!
# Punishing an equivocation

Two blocks that one key signed for one account at one height can be brought as evidence
exactly when both carry their keys: an accusation is judged without the keys that a chain
remembers.
-/

namespace Eav7

open Base Blockchain

/-! ## What a penalty takes -/

/-- The queued withdrawals of an account. -/
def emUnbonding (dono : String) (fila : List (String × Amount × ℕ)) : ℕ :=
  ((fila.filter fun u => u.1 = dono).map (·.2.1)).sum

/-- What an offender can lose. -/
def emRisco (s : State) (infrator : String) : ℕ :=
  (s.account infrator).staked + emUnbonding infrator s.unbonding

def penalidadeDe (s : State) (infrator : String) : ℕ :=
  emRisco s infrator * Config.slashPercent / 100

def premioDe (s : State) (infrator : String) : ℕ :=
  penalidadeDe s infrator * Config.slashReporterPercent / 100

/-- The amounts of a penalty fit in their words. -/
structure Cabe (s : State) (infrator denunciante : String) : Prop where
  penalidade : emRisco s infrator * Config.slashPercent < u128Limit
  queimado : s.totalBurned + (penalidadeDe s infrator - premioDe s infrator) < u128Limit
  saldo : s.balanceOf denunciante + premioDe s infrator < u128Limit

section

variable {s t : State} {infrator : String}

theorem somaUnbonding_eq_ok {dono : String} {fila : List (String × Amount × ℕ)} {total n : ℕ}
    (htotal : total < u128Limit) : somaUnbonding dono fila total = .ok n ↔
      n = total + emUnbonding dono fila ∧ total + emUnbonding dono fila < u128Limit := by
  induction fila generalizing total with
  | nil =>
    rw [somaUnbonding]
    simp [emUnbonding, htotal, eq_comm]
  | cons u fila ih =>
    rw [somaUnbonding]
    by_cases hu : u.1 = dono
    · have hsoma : emUnbonding dono (u :: fila) = u.2.1 + emUnbonding dono fila := by
        simp [emUnbonding, hu]
      rw [if_pos hu, hsoma, ← Nat.add_assoc, except_bind_eq_ok]
      constructor
      · rintro ⟨m, hm, hn⟩
        obtain ⟨rfl, hlt⟩ := soma_eq_ok.mp hm
        exact (ih hlt).mp hn
      · rintro ⟨rfl, hlt⟩
        have hparte : total + u.2.1 < u128Limit := by omega
        exact ⟨_, soma_eq_ok.mpr ⟨rfl, hparte⟩, (ih hparte).mpr ⟨rfl, hlt⟩⟩
    · have hsoma : emUnbonding dono (u :: fila) = emUnbonding dono fila := by
        simp [emUnbonding, hu]
      rw [if_neg hu, hsoma]
      exact ih htotal

/-- No balance and no burned amount moved. -/
structure MesmosSaldos (s t : State) : Prop where
  saldo : ∀ a, t.balanceOf a = s.balanceOf a
  queimado : t.totalBurned = s.totalBurned

theorem MesmosSaldos.trans {s t u : State} (h : MesmosSaldos s t) (h' : MesmosSaldos t u) :
    MesmosSaldos s u :=
  ⟨fun a => (h'.saldo a).trans (h.saldo a), h'.queimado.trans h.queimado⟩

theorem MesmosSaldos.refl (s : State) : MesmosSaldos s s := ⟨fun _ => rfl, rfl⟩

/-- A write of an account other than its balance. -/
theorem MesmosSaldos.comConta (h : MesmosSaldos s t) (endereco : String) {f : Account → Account}
    (hf : ∀ c, (f c).balance = c.balance) : MesmosSaldos s (t.comConta endereco f) := by
  refine h.trans ⟨fun a => ?_, rfl⟩
  unfold State.balanceOf
  rw [State.account_comConta]
  split_ifs with ha
  · rw [hf, ha]
  · rfl

theorem MesmosSaldos.comDelegacoes (h : MesmosSaldos s t)
    (d : OrdMap String (OrdMap String Amount)) : MesmosSaldos s { t with delegations := d } :=
  ⟨h.saldo, h.queimado⟩

theorem MesmosSaldos.comUnbonding (h : MesmosSaldos s t) (u : List (String × Amount × ℕ)) :
    MesmosSaldos s { t with unbonding := u } :=
  ⟨h.saldo, h.queimado⟩

theorem cortaDelegacoes_saldos (infrator : String) (es : List (String × Amount))
    (excesso : Amount) (h : MesmosSaldos s t) :
    MesmosSaldos s (cortaDelegacoes infrator es excesso t) := by
  induction es generalizing excesso t with
  | nil => exact h
  | cons e es ih =>
    unfold cortaDelegacoes
    split_ifs
    · exact h
    · have hconta := h.comConta e.1 (f := fun c =>
        { c with delegatedIn := c.delegatedIn - min e.2 excesso }) fun _ => rfl
      refine ih _ ?_
      split
      · exact hconta
      · exact hconta.comDelegacoes _

theorem rebaixaDelegado_saldos (infrator : String) (h : MesmosSaldos s t) :
    MesmosSaldos s (rebaixaDelegado infrator t) := by
  unfold rebaixaDelegado
  dsimp only
  split_ifs
  · exact h
  · refine MesmosSaldos.comConta ?_ infrator fun _ => rfl
    have hcorta := cortaDelegacoes_saldos infrator (t.delegations.getD infrator ∅).entries
      ((t.account infrator).delegatedOut - (t.account infrator).staked) h
    split
    · split_ifs
      · exact hcorta.comDelegacoes _
      · exact hcorta
    · exact hcorta

theorem penaliza_saldos (infrator : String) (penalidade : Amount) (s : State) :
    MesmosSaldos s (penaliza infrator penalidade s) := by
  have hconta := (MesmosSaldos.refl s).comConta infrator (f := fun c =>
    { c with staked := c.staked - min (s.account infrator).staked penalidade }) fun _ => rfl
  unfold penaliza
  dsimp only
  split_ifs
  · exact rebaixaDelegado_saldos infrator (hconta.comUnbonding _)
  · exact rebaixaDelegado_saldos infrator hconta

end

/-! ## What an accusation is judged by -/

section

variable {cr : Cripto} {s t : State} {tx : Tx} {ctx : Ctx} {infrator chave : String}

/-- The accused headers differ in their hash only, of what the accusation compares. -/
structure Acusacao (s : State) (va vb : JsonValue) (infrator chave : String) : Prop where
  produtor : JsonValue.camposIguais (va.campo "producer") (vb.campo "producer") = true
  altura : JsonValue.camposIguais (va.campo "height") (vb.campo "height") = true
  hash : JsonValue.camposIguais (va.campo "hash") (vb.campo "hash") = false
  conta : texto (va.campo "producerAccount") = texto (vb.campo "producerAccount")
  nome : infrator =
    (texto (va.campo "producerAccount")).getD ((texto (va.campo "producer")).getD "")
  witness : ∀ ca ∈ texto (va.campo "producerAccount"),
    (s.permissions.get? ca).bind (·.witness) = some ((texto (va.campo "producer")).getD "")
  registro : ∃ h : ℤ, va.campo "height" = some (.int h) ∧ 0 ≤ h ∧ chave = s!"{infrator}:{h}"

theorem creditar_iff {endereco : String} {valor : Amount} :
    (∃ u t, creditar endereco valor s = .ok u t) ↔ s.balanceOf endereco + valor < u128Limit := by
  unfold creditar
  rw [get_bind_run, set_bind_run]
  constructor
  · rintro ⟨u, t, h⟩
    obtain ⟨saldo, _, hsoma, -⟩ := bind_eq_ok.mp h
    exact (soma_eq_ok.mp (lift_eq_ok.mp hsoma).1).2
  · intro h
    exact ⟨_, _, bind_eq_ok.mpr ⟨_, _, lift_eq_ok.mpr ⟨soma_eq_ok.mpr ⟨rfl, h⟩, rfl⟩, rfl⟩⟩

theorem infratorDe_eq_ok {va vb : JsonValue} :
    infratorDe s va vb = .ok (infrator, chave) ↔ Acusacao s va vb infrator chave := by
  unfold infratorDe
  constructor
  · intro h
    obtain ⟨_, hprod, h⟩ := except_bind_eq_ok.mp h
    obtain ⟨_, halt, h⟩ := except_bind_eq_ok.mp h
    obtain ⟨_, hhash, h⟩ := except_bind_eq_ok.mp h
    obtain ⟨_, hconta, h⟩ := except_bind_eq_ok.mp h
    obtain ⟨_, hwit, h⟩ := except_bind_eq_ok.mp h
    have hprod := recusar_eq_ok.mp hprod
    have halt := recusar_eq_ok.mp halt
    rw [Bool.not_eq_true', Bool.not_eq_false] at hprod halt
    dsimp only at h
    split at h
    · next altura hcampo =>
      split_ifs at h with hpos
      · cases h
        refine ⟨hprod, halt, Bool.eq_false_iff.mpr (recusar_eq_ok.mp hhash),
          not_not.mp (recusar_eq_ok.mp hconta), rfl, fun ca hca => ?_, altura, hcampo, hpos, rfl⟩
        by_contra hno
        exact recusar_eq_ok.mp hwit ⟨ca, hca, hno⟩
      · cases h
    · cases h
  · rintro ⟨hprod, halt, hhash, hconta, hnome, hwit, altura, hcampo, hpos, rfl⟩
    refine except_bind_eq_ok.mpr ⟨(), recusar_eq_ok.mpr (by simp [hprod]), ?_⟩
    refine except_bind_eq_ok.mpr ⟨(), recusar_eq_ok.mpr (by simp [halt]), ?_⟩
    refine except_bind_eq_ok.mpr ⟨(), recusar_eq_ok.mpr (by simp [hhash]), ?_⟩
    refine except_bind_eq_ok.mpr ⟨(), recusar_eq_ok.mpr (not_not.mpr hconta), ?_⟩
    refine except_bind_eq_ok.mpr ⟨(), recusar_eq_ok.mpr ?_, ?_⟩
    · rintro ⟨ca, hca, hno⟩
      exact hno (hwit ca hca)
    · dsimp only
      rw [hcampo, hnome]
      dsimp only
      rw [if_pos hpos]
      rfl

/-- The penalty is charged when the burned amount and the reward fit. -/
theorem cobranca_iff {penalidade premio : Amount} {denunciante : String} :
    (∃ u t, (do
      modify (penaliza infrator penalidade)
      let s ← get
      let queimado ← soma s.totalBurned (penalidade - premio)
      set { s with totalBurned := queimado }
      creditar denunciante premio
      modify fun s => { s with slashed := s.slashed.insert chave true } : Op Unit) s = .ok u t) ↔
      s.totalBurned + (penalidade - premio) < u128Limit ∧
        s.balanceOf denunciante + premio < u128Limit := by
  obtain ⟨hsaldo, hqueima⟩ := penaliza_saldos infrator penalidade s
  rw [← hsaldo, ← hqueima]
  constructor
  · rintro ⟨u, t, h⟩
    rw [modify_bind_run, get_bind_run] at h
    obtain ⟨queimado, hqueimado, h⟩ := lift_bind_eq_ok.mp h
    rw [set_bind_run] at h
    obtain ⟨_, t', hcredita, -⟩ := bind_eq_ok.mp h
    have hpremio := creditar_iff.mp ⟨_, t', hcredita⟩
    exact ⟨(soma_eq_ok.mp hqueimado).2, hpremio⟩
  · rintro ⟨hqueimado, hpremio⟩
    obtain ⟨u, t, hcredita⟩ := creditar_iff (s := { penaliza infrator penalidade s with
      totalBurned := (penaliza infrator penalidade s).totalBurned + (penalidade - premio) }) |>.mpr
      hpremio
    refine ⟨(), { t with slashed := t.slashed.insert chave true }, ?_⟩
    rw [modify_bind_run, get_bind_run]
    refine lift_bind_eq_ok.mpr ⟨_, soma_eq_ok.mpr ⟨rfl, hqueimado⟩, ?_⟩
    rw [set_bind_run]
    exact bind_eq_ok.mpr ⟨u, t, hcredita, rfl⟩

/-- An accusation is accepted exactly when its headers conflict, both blocks verify with
the keys they carry, and the offender has something left to lose that fits. -/
theorem slashDoubleSign_iff : (∃ u t, slashDoubleSign cr tx ctx s = .ok u t) ↔
    ∃ pa pb infrator chave, tx.campo "blockA" = some (.map pa) ∧
      tx.campo "blockB" = some (.map pb) ∧ Acusacao s (.map pa) (.map pb) infrator chave ∧
      s.slashed.getD chave false = false ∧ emRisco s infrator ≠ 0 ∧
      evidencia cr "A" (.map pa) = .ok () ∧ evidencia cr "B" (.map pb) = .ok () ∧
      Cabe s infrator tx.de := by
  have hlimite : 0 < u128Limit := by decide
  unfold slashDoubleSign
  simp only [get_bind_run]
  constructor
  · rintro ⟨u, t, h⟩
    generalize hva : tx.campo "blockA" = va at h ⊢
    generalize hvb : tx.campo "blockB" = vb at h ⊢
    split at h
    case h_2 => cases h
    next pa pb =>
    obtain ⟨⟨va, vb⟩, hlidas, h⟩ := lift_bind_eq_ok.mp h
    cases hlidas
    obtain ⟨⟨infrator, chave⟩, hinfrator, h⟩ := lift_bind_eq_ok.mp h
    obtain ⟨_, hnova, h⟩ := lift_bind_eq_ok.mp h
    obtain ⟨fila, hfila, h⟩ := lift_bind_eq_ok.mp h
    obtain ⟨risco, hrisco, h⟩ := lift_bind_eq_ok.mp h
    obtain ⟨_, hpos, h⟩ := lift_bind_eq_ok.mp h
    obtain ⟨_, ha, h⟩ := lift_bind_eq_ok.mp h
    obtain ⟨_, hb, h⟩ := lift_bind_eq_ok.mp h
    obtain ⟨bruto, hbruto, h⟩ := lift_bind_eq_ok.mp h
    obtain ⟨premio, hpremio, h⟩ := lift_bind_eq_ok.mp h
    obtain ⟨rfl, -⟩ := (somaUnbonding_eq_ok hlimite).mp hfila
    obtain ⟨hrisco, -⟩ := soma_eq_ok.mp hrisco
    rw [Nat.zero_add] at hrisco
    have hrisco : risco = emRisco s infrator := hrisco
    subst hrisco
    obtain ⟨rfl, hcabe⟩ := produto_eq_ok.mp hbruto
    obtain ⟨rfl, -⟩ := produto_eq_ok.mp hpremio
    obtain ⟨hqueimado, hsaldo⟩ := cobranca_iff.mp ⟨u, t, h⟩
    exact ⟨pa, pb, infrator, chave, rfl, rfl, infratorDe_eq_ok.mp hinfrator,
      Bool.not_eq_true _ ▸ recusar_eq_ok.mp hnova, recusar_eq_ok.mp hpos, ha, hb, hcabe,
      hqueimado, hsaldo⟩
  · rintro ⟨pa, pb, infrator, chave, hva, hvb, hacusa, hnova, hpos, ha, hb, hcabe⟩
    have hcobra := @cobranca_iff s infrator chave (penalidadeDe s infrator) (premioDe s infrator)
    obtain ⟨u, t, hfim⟩ := hcobra.mpr ⟨hcabe.queimado, hcabe.saldo⟩
    have hdez : emRisco s infrator * 10 < u128Limit := hcabe.penalidade
    have hrisco : emRisco s infrator < u128Limit := by omega
    have hpremio : penalidadeDe s infrator * Config.slashReporterPercent < u128Limit := by
      change emRisco s infrator * 10 / 100 * 10 < u128Limit
      omega
    have hfila : 0 + emUnbonding infrator s.unbonding < u128Limit := by
      unfold emRisco at hrisco
      omega
    have hsoma : (s.account infrator).staked + (0 + emUnbonding infrator s.unbonding) =
        emRisco s infrator := by
      rw [Nat.zero_add]
      rfl
    refine ⟨u, t, ?_⟩
    rw [hva, hvb]
    refine lift_bind_eq_ok.mpr ⟨_, rfl, ?_⟩
    refine lift_bind_eq_ok.mpr ⟨_, infratorDe_eq_ok.mpr hacusa, ?_⟩
    refine lift_bind_eq_ok.mpr ⟨(), recusar_eq_ok.mpr (by rw [hnova]; exact Bool.noConfusion), ?_⟩
    refine lift_bind_eq_ok.mpr ⟨_, (somaUnbonding_eq_ok hlimite).mpr ⟨rfl, hfila⟩, ?_⟩
    refine lift_bind_eq_ok.mpr ⟨emRisco s infrator, soma_eq_ok.mpr ⟨hsoma.symm, ?_⟩, ?_⟩
    · rw [hsoma]
      exact hrisco
    refine lift_bind_eq_ok.mpr ⟨(), recusar_eq_ok.mpr hpos, ?_⟩
    refine lift_bind_eq_ok.mpr ⟨_, ha, lift_bind_eq_ok.mpr ⟨_, hb, ?_⟩⟩
    refine lift_bind_eq_ok.mpr ⟨_, produto_eq_ok.mpr ⟨rfl, hcabe.penalidade⟩, ?_⟩
    exact lift_bind_eq_ok.mpr ⟨_, produto_eq_ok.mpr ⟨rfl, hpremio⟩, hfim⟩

end

/-! ## Equivocations -/

section

variable {cr : Cripto} {a b : Block} {v : JsonValue}

theorem evidencia_iff {nome : String} : evidencia cr nome v = .ok () ↔
    ∃ b, blockFromJson v = .ok b ∧ cr.verifyBlockIntegrity b = .ok () := by
  constructor
  · exact evidencia_eq_ok
  · rintro ⟨b, hb, hint⟩
    have hlida : (do cr.verifyBlockIntegrity (← blockFromJson v) : Falha Unit) = .ok () :=
      except_bind_eq_ok.mpr ⟨b, hb, hint⟩
    unfold evidencia
    rw [hlida]

/-- The fields of a written block that the accusation compares. -/
theorem campo_blockToJson (h : (b.height : ℤ) ≤ i64Max) :
    (blockToJson b).campo "height" = some (.int b.height) ∧
      (blockToJson b).campo "producer" = some (.str b.producer) ∧
      (blockToJson b).campo "hash" = some (.str b.hash) ∧
      (blockToJson b).campo "producerAccount" = b.producerAccount.map .str := by
  have halt : min (b.height : ℤ) i64Max = b.height := min_eq_left h
  refine ⟨?_, rfl, ?_, ?_⟩
  · rw [← halt]
    rfl
  all_goals
    unfold blockToJson Block.core campoOpcional JsonValue.campo
    cases b.stateRoot <;> cases b.genesis <;> cases b.producerAccount <;> rfl

theorem texto_of_textoOuNulo {x : Option JsonValue} {conta : Option String}
    (h : textoOuNulo x = .ok conta) : texto x = conta := by
  unfold textoOuNulo at h
  split at h
  · cases h
    rfl
  · cases h
    rfl
  · cases h
    rfl
  · cases h

/-- What an accusation reads of a block that was read back. -/
theorem acusado_of_lida (h : blockFromJson v = .ok a) :
    texto (v.campo "producerAccount") = a.producerAccount ∧
      (texto (v.campo "producer")).getD "" = a.producer ∧
      textoOuVazio (v.campo "hash") = a.hash := by
  obtain ⟨-, hprod, hhash, hconta⟩ := blockFromJson_campos h
  exact ⟨texto_of_textoOuNulo hconta, hprod.symm, hhash.symm⟩

end

namespace Blockchain

/-- A chain in use that descends from the genesis accepted the block. -/
def Aceito (amb : Ambiente) (g b : Block) : Prop :=
  ∃ blocos now c c', Instancia amb (g :: blocos) c ∧ addBlock amb b now c = .ok () c'

/-- Two blocks of one height that one key signed for one account, both accepted over one
genesis. -/
structure Equivocacao (amb : Ambiente) (g a b : Block) : Prop where
  aceito : Aceito amb g a
  aceito' : Aceito amb g b
  distintos : a ≠ b
  altura : a.height = b.height
  produtor : a.producer = b.producer
  conta : a.producerAccount = b.producerAccount

/-- The account of the block has funds at risk, no penalty for the height, and the key that
signed as its witness. -/
structure Exposta (s : State) (b : Block) : Prop where
  risco : emRisco s b.validator ≠ 0
  nova : s.slashed.getD s!"{b.validator}:{(b.height : ℤ)}" false = false
  witness : ∀ conta ∈ b.producerAccount,
    (s.permissions.get? conta).bind (·.witness) = some b.producer

/-- The transaction accuses the two blocks: its evidence is what their producer signed. -/
def Acusa (a b : Block) (tx : Tx) : Prop :=
  ∃ va vb a' b', tx.campo "blockA" = some va ∧ tx.campo "blockB" = some vb ∧
    blockFromJson va = .ok a' ∧ blockFromJson vb = .ok b' ∧
    a'.payload = a.payload ∧ b'.payload = b.payload

/-- An account can have the offender punished for the two blocks. -/
def Punivel (cr : Cripto) (a b : Block) (s : State) (ctx : Ctx) (denunciante : String) : Prop :=
  ∃ tx u t, tx.de = denunciante ∧ Acusa a b tx ∧ slashDoubleSign cr tx ctx s = .ok u t

section

variable {amb : Ambiente} {cr : Cripto} {g a b a' b' : Block} {s : State} {ctx : Ctx}
  {denunciante : String} {ks : Option (String × String)}

theorem Aceito.integro (h : Aceito amb g b) :
    b.height ≠ 0 ∧ ∃ ks, amb.cripto.verifyBlockIntegrityEx b ks = .ok () := by
  obtain ⟨blocos, now, c, c', -, hadd⟩ := h
  obtain ⟨hint, u, -, helo⟩ := conferirBloco_cabeca (addBlock_eq_ok.mp hadd).1
  refine ⟨?_, _, hint⟩
  rw [helo.1]
  exact Nat.succ_ne_zero _

theorem altura_cabe (h : cr.verifyBlockIntegrityEx b ks = .ok ()) : (b.height : ℤ) ≤ i64Max := by
  have hmax := altura_of_integrity h
  have h64 : (maxSafeInteger : ℤ) ≤ i64Max := by decide
  omega

/-- Evidence of what the producer signed has the height and the hash of its block, and the
keys only when the block carries them. -/
theorem evidencia_of_payload (hpos : a.height ≠ 0)
    (hint : cr.verifyBlockIntegrityEx a ks = .ok ()) (hpay : a'.payload = a.payload)
    (hint' : cr.verifyBlockIntegrity a' = .ok ()) :
    a'.height = a.height ∧ a'.hash = a.hash ∧ a.publicKey ≠ none := by
  have halt := Carga.altura_of_payload (altura_of_integrity hint') (altura_of_integrity hint) hpay
  obtain ⟨-, hpk, -, -⟩ := Carga.autoria_of_payload hpay
  refine ⟨halt, ?_, ?_⟩
  · rw [hash_of_integrity hint, hash_of_integrity hint', hpay]
  · rcases (verifyBlockIntegrityEx_outras (halt ▸ hpos) hint').mp hint' with hno | ⟨_, hks, -⟩
    · exact hpk ▸ hno
    · cases hks

theorem hash_distinto (hd : cr.Digere) {va vb : JsonValue} (ha : blockFromJson va = .ok a)
    (hb : blockFromJson vb = .ok b) (hint : cr.verifyBlockIntegrity a = .ok ())
    (hint' : cr.verifyBlockIntegrity b = .ok ())
    (h : JsonValue.camposIguais (va.campo "hash") (vb.campo "hash") = false) :
    a.hash ≠ b.hash := by
  obtain ⟨-, -, hha⟩ := acusado_of_lida ha
  obtain ⟨-, -, hhb⟩ := acusado_of_lida hb
  intro hmesmo
  have hca := JsonValue.campo_of_textoOuVazio (hha ▸ hash_ne_vazio hd hint)
  have hcb := JsonValue.campo_of_textoOuVazio (hhb ▸ hash_ne_vazio hd hint')
  rw [hca, hcb, hha, hhb, hmesmo] at h
  have hsi : JsonValue.camposIguais (some (.str b.hash)) (some (.str b.hash)) = true :=
    beq_self_eq_true b.hash
  rw [hsi] at h
  cases h

/-- An accepted accusation of two blocks names the account of the first one. -/
theorem acusacao_of_punivel (hd : cr.Digere) (hpos : a.height ≠ 0) (hpos' : b.height ≠ 0)
    {ks' : Option (String × String)} (ha : cr.verifyBlockIntegrityEx a ks = .ok ())
    (hb : cr.verifyBlockIntegrityEx b ks' = .ok ()) (h : Punivel cr a b s ctx denunciante) :
    a.publicKey ≠ none ∧ b.publicKey ≠ none ∧ a.hash ≠ b.hash ∧
      Cabe s a.validator denunciante := by
  obtain ⟨tx, u, t, rfl, ⟨va, vb, a', b', hva, hvb, hla, hlb, hpa, hpb⟩, hrun⟩ := h
  obtain ⟨pa, pb, infrator, chave, hca, hcb, hacusa, -, -, hea, heb, hcabe⟩ :=
    slashDoubleSign_iff.mp ⟨u, t, hrun⟩
  obtain rfl : va = .map pa := Option.some.inj (hva.symm.trans hca)
  obtain rfl : vb = .map pb := Option.some.inj (hvb.symm.trans hcb)
  obtain ⟨a₂, hla₂, hia⟩ := evidencia_iff.mp hea
  obtain ⟨b₂, hlb₂, hib⟩ := evidencia_iff.mp heb
  obtain rfl : a' = a₂ := Except.ok.inj (hla.symm.trans hla₂)
  obtain rfl : b' = b₂ := Except.ok.inj (hlb.symm.trans hlb₂)
  obtain ⟨-, hha, hka⟩ := evidencia_of_payload hpos ha hpa hia
  obtain ⟨-, hhb, hkb⟩ := evidencia_of_payload hpos' hb hpb hib
  refine ⟨hka, hkb, ?_, ?_⟩
  · rw [← hha, ← hhb]
    exact hash_distinto hd hla hlb hia hib hacusa.hash
  · obtain ⟨hconta, hprod, -⟩ := acusado_of_lida hla
    obtain ⟨hprodutor, -, -, hcontas⟩ := Carga.autoria_of_payload hpa
    have hnome : infrator = a.validator := by
      rw [hacusa.nome, hconta, hprod, hprodutor, hcontas]
      rfl
    exact hnome ▸ hcabe

/-- The accusation that carries both blocks whole. -/
def acusacao (denunciante : String) (a b : Block) : Tx :=
  { txType := "SLASH_DOUBLE_SIGN", de := denunciante, nonce := 0, timestamp := 1, fee := "0"
    data := some (.map [("blockA", blockToJson a), ("blockB", blockToJson b)]) }

theorem blockToJson_map (b : Block) : ∃ ps, blockToJson b = .map ps := ⟨_, rfl⟩

/-- Blocks that carry their keys are accepted as evidence. -/
theorem punivel_of_chaves {ks' : Option (String × String)}
    (hpos : a.height ≠ 0) (hpos' : b.height ≠ 0)
    (ha : cr.verifyBlockIntegrityEx a ks = .ok ()) (hb : cr.verifyBlockIntegrityEx b ks' = .ok ())
    (haltura : a.height = b.height) (hprodutor : a.producer = b.producer)
    (hconta : a.producerAccount = b.producerAccount) (hs : Exposta s a)
    (hka : a.publicKey ≠ none) (hkb : b.publicKey ≠ none) (hhash : a.hash ≠ b.hash)
    (hcabe : Cabe s a.validator denunciante) : Punivel cr a b s ctx denunciante := by
  have hla := blockFromJson_blockToJson (altura_cabe ha)
  have hlb := blockFromJson_blockToJson (altura_cabe hb)
  have hea : evidencia cr "A" (blockToJson a) = .ok () :=
    evidencia_iff.mpr ⟨a, hla, (verifyBlockIntegrityEx_outras hpos ha).mpr (.inl hka)⟩
  have heb : evidencia cr "B" (blockToJson b) = .ok () :=
    evidencia_iff.mpr ⟨b, hlb, (verifyBlockIntegrityEx_outras hpos' hb).mpr (.inl hkb)⟩
  obtain ⟨haa, hap, hah, hac⟩ := campo_blockToJson (altura_cabe ha)
  obtain ⟨hba, hbp, hbh, hbc⟩ := campo_blockToJson (altura_cabe hb)
  have htexto : ∀ x : Option String, texto (x.map .str) = x := by
    intro x
    cases x <;> rfl
  have hacusa : Acusacao s (blockToJson a) (blockToJson b) a.validator
      s!"{a.validator}:{(a.height : ℤ)}" := by
    constructor
    · rw [hap, hbp, hprodutor]
      exact beq_self_eq_true b.producer
    · rw [haa, hba, haltura]
      exact beq_self_eq_true (b.height : ℤ)
    · rw [hah, hbh]
      exact beq_eq_false_iff_ne.mpr hhash
    · rw [hac, hbc, hconta]
    · rw [hac, hap, htexto]
      rfl
    · rw [hac, hap, htexto]
      exact hs.witness
    · exact ⟨a.height, haa, Int.natCast_nonneg _, rfl⟩
  obtain ⟨pa, hpa⟩ := blockToJson_map a
  obtain ⟨pb, hpb⟩ := blockToJson_map b
  have hiff := @slashDoubleSign_iff cr s (acusacao denunciante a b) ctx
  obtain ⟨u, t, hrun⟩ := hiff.mpr ⟨pa, pb, a.validator, _, congrArg some hpa, congrArg some hpb,
    hpa ▸ hpb ▸ hacusa, hs.nova, hs.risco, hpa ▸ hea, hpb ▸ heb, hcabe⟩
  exact ⟨_, u, t, rfl, ⟨_, _, a, b, rfl, rfl, hla, hlb, rfl, rfl⟩, hrun⟩

/-- An equivocation can be punished exactly when both blocks carry their public keys. -/
theorem punivel_iff (hd : amb.cripto.Digere) (h : Equivocacao amb g a b) (hs : Exposta s a) :
    Punivel amb.cripto a b s ctx denunciante ↔
      (a.publicKey ≠ none ∧ b.publicKey ≠ none) ∧ a.hash ≠ b.hash ∧
        Cabe s a.validator denunciante := by
  obtain ⟨hpos, ks, ha⟩ := h.aceito.integro
  obtain ⟨hpos', ks', hb⟩ := h.aceito'.integro
  constructor
  · intro hpune
    obtain ⟨hka, hkb, hhash, hcabe⟩ := acusacao_of_punivel hd hpos hpos' ha hb hpune
    exact ⟨⟨hka, hkb⟩, hhash, hcabe⟩
  · rintro ⟨⟨hka, hkb⟩, hhash, hcabe⟩
    exact punivel_of_chaves hpos hpos' ha hb h.altura h.produtor h.conta hs hka hkb hhash hcabe

/-! ## A producer with two blocks of one height -/

theorem produceBlock_conta {c c' : Blockchain} {signer : BlockSigner} {transactions : List Tx}
    {timestamp now : ℤ} {producerAccount : Option String}
    (h : produceBlock amb signer transactions timestamp producerAccount now c = .ok b c') :
    b.producerAccount = producerAccount := by
  obtain ⟨recibos, sim, hm, -⟩ := produceBlock_ok h
  obtain ⟨cabeca, raiz, omite, -, -, hb⟩ := montarBloco_ok hm
  exact (buildBlock_campos hb).2.1

/-- Two blocks that a producer signs after one chain are an equivocation. -/
theorem equivocacao_of_produz {blocos : List Block} {c c₁ c₂ : Blockchain} {signer : BlockSigner}
    {transactions : List Tx} {ts ts' now : ℤ} {producerAccount : Option String}
    (hc : Instancia amb (g :: blocos) c)
    (ha : produceBlock amb signer transactions ts producerAccount now c = .ok a c₁)
    (hb : produceBlock amb signer transactions ts' producerAccount now c = .ok b c₂)
    (haltura : a.height = b.height) (hprodutor : a.producer = b.producer)
    (hdif : a.timestamp ≠ b.timestamp) : Equivocacao amb g a b := by
  refine ⟨⟨blocos, now, c, c₁, hc, addBlock_of_produceBlock ha⟩,
    ⟨blocos, now, c, c₂, hc, addBlock_of_produceBlock hb⟩, ?_, haltura, hprodutor, ?_⟩
  · rintro rfl
    exact hdif rfl
  · rw [produceBlock_conta ha, produceBlock_conta hb]

/-- The second validator of the trio has funds at risk at the start. -/
theorem exposta_trio (hprod : a.producer = enderecoB) (hconta : a.producerAccount = none) :
    Exposta estadoTrio a ∧ Cabe estadoTrio a.validator enderecoA := by
  have hval : a.validator = enderecoB := by
    rw [Block.validator, hconta, hprod]
    rfl
  have hrisco : emRisco estadoTrio enderecoB = 2000000000 := by decide +kernel
  have hsaldo : estadoTrio.balanceOf enderecoA = 0 := by decide +kernel
  refine ⟨⟨?_, rfl, ?_⟩, ?_⟩
  · rw [hval, hrisco]
    decide
  · rw [hconta]
    rintro conta ⟨⟩
  · rw [hval]
    constructor
    · rw [hrisco]
      decide
    · rw [penalidadeDe, premioDe, penalidadeDe, hrisco]
      decide
    · rw [premioDe, penalidadeDe, hrisco, hsaldo]
      decide

theorem inicioDoSlot_inj {m n : ℕ} (h : m ≠ n) : inicioDoSlot m ≠ inicioDoSlot n := by
  unfold inicioDoSlot Config.blockTimeMs
  omega

/-- Two compact blocks of one producer are no evidence. -/
theorem equivocacao_compacta_impune : ¬ ∀ (amb : Ambiente) (g a b : Block) (s : State) (ctx : Ctx)
    (denunciante : String), amb.cripto.Digere → Equivocacao amb g a b → Exposta s a →
    Cabe s a.validator denunciante → Punivel amb.cripto a b s ctx denunciante := by
  intro hpune
  have hp : trio[1 % trio.length]? = some (produtorDe (chaveIdeal 1) enderecoB) := rfl
  obtain ⟨b₁, c₁, hprod, hpronta, -, hlembra, hcab⟩ := lembrado_trio hp
  obtain ⟨a, c₂, ha, hka, hta⟩ :=
    compacto_no_slot (k := 4) hpronta hlembra hcab rfl (by decide) (by decide)
  obtain ⟨b, c₃, hb, -, htb⟩ :=
    compacto_no_slot (k := 7) hpronta hlembra hcab rfl (by decide) (by decide)
  have hequivoca : Equivocacao ambienteIdeal geneseTrio a b := by
    refine equivocacao_of_produz (instancia_trio.produz hprod) ha hb ?_ ?_ ?_
    · rw [hta.altura, htb.altura]
    · rw [hta.produtor, htb.produtor]
    · rw [hta.instante, htb.instante]
      exact inicioDoSlot_inj (by decide)
  obtain ⟨hexposta, hcabe⟩ := exposta_trio hta.produtor (produceBlock_conta ha)
  obtain ⟨hpos, ks, hinta⟩ := hequivoca.aceito.integro
  obtain ⟨hpos', ks', hintb⟩ := hequivoca.aceito'.integro
  have hd : ambienteIdeal.cripto.Digere := digere_ideal
  have hpunida := hpune ambienteIdeal geneseTrio a b estadoTrio ⟨1, 1, 0⟩ enderecoA hd hequivoca
    hexposta hcabe
  exact (acusacao_of_punivel hd hpos hpos' hinta hintb hpunida).1 hka

/-- Two first blocks of one producer carry its keys, and are punished. -/
theorem equivocacao_punida_trio : ∃ a b, Equivocacao ambienteIdeal geneseTrio a b ∧
    Punivel criptoIdeal a b estadoTrio ⟨1, 1, 0⟩ enderecoA := by
  obtain ⟨a, c₁, ha, -, hta, hha⟩ := P2p.trio_produz 1 rfl (by decide) (by decide)
  obtain ⟨b, c₂, hb, -, htb, hhb⟩ := P2p.trio_produz 4 rfl (by decide) (by decide)
  have hequivoca : Equivocacao ambienteIdeal geneseTrio a b := by
    refine equivocacao_of_produz instancia_trio ha hb ?_ ?_ ?_
    · rw [hta.altura, htb.altura]
    · rw [hta.produtor, htb.produtor]
    · rw [hta.instante, htb.instante]
      exact inicioDoSlot_inj (by decide)
  obtain ⟨hexposta, hcabe⟩ := exposta_trio hta.produtor (produceBlock_conta ha)
  refine ⟨a, b, hequivoca, (punivel_iff digere_ideal hequivoca hexposta).mpr ⟨⟨?_, ?_⟩, ?_, hcabe⟩⟩
  · rw [(chaves_trio hta).1]
    exact Option.some_ne_none _
  · rw [(chaves_trio htb).1]
    exact Option.some_ne_none _
  · intro hmesmo
    exact P2p.hashes_dos_slots.out (hha.trans ((congrArg some hmesmo).trans hhb.symm))

end

end Blockchain

end Eav7
