import Eav7.Aplicacao
import Eav7.Eavm.Carteira
import Eav7.Linha

/-!
# What a transaction id fixes

The id of a signed transaction covers all of it but the signatures. That of an envelope
covers its raw text only: the effect is fixed up to what the object around it adds, its
fee, its nonce where doubles are not exact, and its length in the quota.
-/

namespace Eav7

open Base

/-! ## The text under an id -/

/-- What `txDedupId` digests. -/
def Tx.textoDoId (tx : Tx) : String :=
  match tx.data.bind (·.campo "raw") with
  | some (.str raw) => if tx.scheme = eavmScheme then s!"EAV7-EAVM-TX:{raw}" else tx.signingPayload
  | _ => tx.signingPayload

theorem txDedupId_eq (cr : Cripto) (tx : Tx) : cr.txDedupId tx = cr.eavHashOne tx.textoDoId := by
  unfold Cripto.txDedupId Tx.textoDoId Cripto.txId
  cases tx.data.bind (·.campo "raw") with
  | none => rfl
  | some v =>
    cases v with
    | str raw => exact (apply_ite cr.eavHashOne _ _ _).symm
    | null | bool _ | int _ | list _ | map _ => rfl

/-- The transaction without what its id does not cover. -/
def Tx.semSelo (tx : Tx) : Tx := { tx with signature := none, pqSignature := none, id := none }

theorem signingPayload_eq (tx : Tx) : tx.signingPayload = canonicalJson (txToJson tx.semSelo) := by
  have hcampos : tx.camposBase = tx.camposBase ++ [] ++ [] ++ [] := by
    simp only [List.append_nil]
  exact congrArg (fun pares => canonicalJson (.map pares)) hcampos

/-- The signed payload is read back as the transaction that was signed. -/
theorem semSelo_of_signingPayload {t₁ t₂ : Tx} (h₁ : t₁.Tipada) (h₂ : t₂.Tipada)
    (h : t₁.signingPayload = t₂.signingPayload) : t₁.semSelo = t₂.semSelo := by
  have ht₁ : t₁.semSelo.Tipada := ⟨h₁.nonce, h₁.timestamp, h₁.data⟩
  have ht₂ : t₂.semSelo.Tipada := ⟨h₂.nonce, h₂.timestamp, h₂.data⟩
  rw [signingPayload_eq, signingPayload_eq] at h
  have hordem := ordenado_of_canonicalJson (txToJson_legivel ht₁) (txToJson_legivel ht₂) h
  have hlida := ht₁.relida
  rw [hordem, ht₂.relida] at hlida
  exact (Except.ok.inj hlida).symm

theorem head_signingPayload (tx : Tx) : tx.signingPayload.toList.head? = some '\x7b' := by
  unfold Tx.signingPayload canonicalJson
  rw [String.toList_ofList]
  rfl

theorem textoDoId_of_hibrido {tx : Tx} (h : tx.scheme ≠ eavmScheme) :
    tx.textoDoId = tx.signingPayload := by
  unfold Tx.textoDoId
  split
  · exact if_neg h
  · rfl

theorem textoDoId_of_conferido {cr : Cripto} {tx : Tx} {parsed : ParsedTx}
    (h : Conferido cr tx parsed) : tx.textoDoId = "EAV7-EAVM-TX:" ++ rawDe tx := by
  have hcampo : tx.data.bind (·.campo "raw") = some (.str (rawDe tx)) := campo_raw h.raw
  unfold Tx.textoDoId
  rw [hcampo]
  exact if_pos h.scheme

/-! ## Signatures are not read -/

/-- No handler reads a signature. -/
theorem applyTransaction_semSelo (amb : Ambiente) (tx : Tx) (height blockTs : ℕ) :
    applyTransaction amb tx height blockTs =
      applyTransaction amb { tx.semSelo with id := tx.id } height blockTs := rfl

/-! ## What is read of an envelope -/

/-- Two transactions that the handlers of envelopes read alike. -/
structure MesmaLeitura (t₁ t₂ : Tx) : Prop where
  txType : t₁.txType = t₂.txType
  scheme : t₁.scheme = t₂.scheme
  de : t₁.de = t₂.de
  para : t₁.para = t₂.para
  amount : t₁.amount = t₂.amount
  fee : t₁.fee = t₂.fee
  nonce : t₁.nonce = t₂.nonce
  bytes : t₁.usefulTxBytes = t₂.usefulTxBytes
  code : EavmTx.campoTexto t₁ "code" = EavmTx.campoTexto t₂ "code"
  destino : EavmTx.campoTexto t₁ "to" = EavmTx.campoTexto t₂ "to"
  input : EavmTx.campoTexto t₁ "input" = EavmTx.campoTexto t₂ "input"
  eavmFrom : EavmTx.campoTexto t₁ "eavmFrom" = EavmTx.campoTexto t₂ "eavmFrom"

namespace MesmaLeitura

variable {amb : Ambiente} {t₁ t₂ : Tx} (h : MesmaLeitura t₁ t₂)
include h

theorem consumo : consumoGb t₁ = consumoGb t₂ := by
  unfold consumoGb
  rw [h.bytes, h.txType]

theorem entrada (s : State) : conferirEntrada s t₁ = conferirEntrada s t₂ := by
  unfold conferirEntrada conferirNonce
  rw [h.de, h.nonce, h.fee]

theorem gb (s : State) (height feeLimit : ℕ) :
    EavmTx.apurarGb s t₁ height feeLimit = EavmTx.apurarGb s t₂ height feeLimit := by
  unfold EavmTx.apurarGb
  rw [h.de, h.consumo]

theorem transfer (height feeLimit : ℕ) :
    EavmTx.aplicarTransfer t₁ height feeLimit = EavmTx.aplicarTransfer t₂ height feeLimit := by
  unfold EavmTx.aplicarTransfer EavmTx.valorDaTx
  simp only [h.gb, h.de, h.para, h.amount]

theorem preparo (s : State) (height feeLimit : ℕ) :
    EavmTx.preparar amb.cripto s t₁ height feeLimit =
      EavmTx.preparar amb.cripto s t₂ height feeLimit := by
  unfold EavmTx.preparar EavmTx.valorDaTx EavmTx.energiaOrcada EavmTx.senderEavmForm
    EavmTx.alvoDeploy EavmTx.alvoCall
  simp only [h.txType, h.amount, h.de, h.scheme, h.eavmFrom, h.code, h.destino]

theorem vm (height blockTs feeLimit : ℕ) :
    EavmTx.aplicarVm amb t₁ height blockTs feeLimit =
      EavmTx.aplicarVm amb t₂ height blockTs feeLimit := by
  unfold EavmTx.aplicarVm EavmTx.executar EavmTx.paramsDe EavmTx.cobrarVm
  simp only [h.preparo, h.input, h.de, h.consumo]

theorem eavm (height blockTs recebido : ℕ) :
    aplicarEavm amb t₁ height blockTs recebido = aplicarEavm amb t₂ height blockTs recebido := by
  unfold aplicarEavm EavmTx.aplicar EavmTx.feeLimitDe
  simp only [h.fee, h.txType, h.de, h.transfer, h.vm]

theorem stake (ctx : Ctx) : Eav7.stake t₁ ctx = Eav7.stake t₂ ctx := by
  unfold Eav7.stake amountDaTx
  simp only [h.amount, h.de, h.scheme]

theorem unstake (ctx : Ctx) : Eav7.unstake t₁ ctx = Eav7.unstake t₂ ctx := by
  unfold Eav7.unstake amountDaTx
  simp only [h.amount, h.de]

theorem nativa (hop : t₂.txType = "STAKE" ∨ t₂.txType = "UNSTAKE") (s : State)
    (height blockTs recebido : ℕ) :
    aplicarNativa amb s t₁ height blockTs recebido =
      aplicarNativa amb s t₂ height blockTs recebido := by
  have htaxa : apurarTaxa s t₁ height = apurarTaxa s t₂ height := by
    unfold apurarTaxa
    simp only [h.fee, h.gb]
  have hdespacho : ∀ ctx, despachar amb t₁ ctx = despachar amb t₂ ctx := by
    intro ctx
    unfold despachar
    rw [h.txType]
    rcases hop with hop | hop
    · rw [hop]
      exact h.stake ctx
    · rw [hop]
      exact h.unstake ctx
  unfold aplicarNativa
  simp only [htaxa, hdespacho, h.de]

theorem apply (htipo : t₂.txType = "STAKE" ∨ t₂.txType = "UNSTAKE" ∨ t₂.txType ∈ EavmTx.tipos)
    (height blockTs : ℕ) :
    applyTransaction amb t₁ height blockTs = applyTransaction amb t₂ height blockTs := by
  unfold applyTransaction
  rw [h.txType]
  split_ifs with hvm
  · simp only [h.entrada, h.eavm]
  · have hop : t₂.txType = "STAKE" ∨ t₂.txType = "UNSTAKE" := by
      rcases htipo with h | h | h
      · exact .inl h
      · exact .inr h
      · exact absurd h hvm
    simp only [h.entrada, h.nativa hop]

end MesmaLeitura

/-! ## Envelopes of one raw text -/

section

variable {cr : Cripto} {tx : Tx} {parsed : ParsedTx}

theorem campoTexto_of_texto {chave s : String} (h : texto (tx.campo chave) = some s) :
    EavmTx.campoTexto tx chave = s := by
  unfold EavmTx.campoTexto
  rw [h]
  rfl

theorem campoTexto_of_nulo {chave : String} (h : nuloOuAusente tx chave = true) :
    EavmTx.campoTexto tx chave = "" := by
  unfold nuloOuAusente at h
  unfold EavmTx.campoTexto
  split at h
  · rename_i hcampo
    rw [hcampo]
    rfl
  · rename_i hcampo
    rw [hcampo]
    rfl
  · cases h

/-- The contract fields are those of the signed bytes. -/
theorem campos_of_verifyContrato {tipo : EnvelopeType}
    (h : verifyContrato cr tx parsed tipo = .ok ()) :
    EavmTx.campoTexto tx "code" = (if tipo = .deploy then parsed.dataHex else "") ∧
      EavmTx.campoTexto tx "to" =
        (if tipo = .call then cr.toLowercase (parsed.para.getD "") else "") ∧
      EavmTx.campoTexto tx "input" = (if tipo = .call then parsed.dataHex else "") := by
  unfold verifyContrato at h
  cases tipo with
  | deploy =>
    obtain ⟨_, hcode, h⟩ := except_bind_eq_ok.mp h
    obtain ⟨hpara, hinput⟩ := not_or.mp (falharSe_eq_ok.mp h)
    exact ⟨campoTexto_of_texto (falharSe_ne.mp hcode),
      campoTexto_of_nulo (Bool.eq_true_of_not_eq_false hpara),
      campoTexto_of_nulo (Bool.eq_true_of_not_eq_false hinput)⟩
  | call =>
    obtain ⟨_, hpara, h⟩ := except_bind_eq_ok.mp h
    obtain ⟨_, hinput, h⟩ := except_bind_eq_ok.mp h
    exact ⟨campoTexto_of_nulo (Bool.eq_true_of_not_eq_false (falharSe_eq_ok.mp h)),
      campoTexto_of_texto (falharSe_ne.mp hpara), campoTexto_of_texto (falharSe_ne.mp hinput)⟩
  | stake | unstake | transfer =>
    simp only [falharSe_eq_ok, not_or, Bool.not_eq_false] at h
    exact ⟨campoTexto_of_nulo h.1, campoTexto_of_nulo h.2.1, campoTexto_of_nulo h.2.2⟩

theorem para_of_verifyDestino {tipo : EnvelopeType}
    (h : verifyDestinoEavm cr tx parsed tipo = .ok ()) :
    tx.para = if tipo.op.isSome ∨ tipo.isContract then none
      else (destE7For cr (parsed.para.getD "")).toOption := by
  unfold verifyDestinoEavm at h
  split_ifs at h ⊢ with hop
  · exact Option.not_isSome_iff_eq_none.mp (falharSe_eq_ok.mp h)
  · obtain ⟨e7, he7, h⟩ := except_bind_eq_ok.mp h
    rw [falharSe_ne.mp h, embrulha_eq_ok.mp he7]
    rfl

theorem eavmFrom_of_conferido (h : Conferido cr tx parsed) :
    EavmTx.campoTexto tx "eavmFrom" = parsed.de := by
  obtain ⟨_, hmetadados, -⟩ := except_bind_eq_ok.mp h.metadados
  obtain ⟨-, hfrom, -⟩ := by simpa only [not_or, not_not] using falharSe_eq_ok.mp hmetadados
  exact campoTexto_of_texto hfrom

end

/-- Two envelopes of one raw text are read alike, up to what the raw text does not fix. -/
theorem mesmaLeitura_of_conferido {cr : Cripto} {t₁ t₂ : Tx} {parsed₁ parsed₂ : ParsedTx}
    (h₁ : Conferido cr t₁ parsed₁) (h₂ : Conferido cr t₂ parsed₂) (hraw : rawDe t₁ = rawDe t₂)
    (hfee : t₁.fee = t₂.fee) (hnonce : t₁.nonce = t₂.nonce)
    (hbytes : t₁.usefulTxBytes = t₂.usefulTxBytes) : MesmaLeitura t₁ t₂ := by
  have hlido := h₁.lido
  rw [hraw] at hlido
  obtain rfl := h₂.unico hlido
  obtain ⟨hcode₁, hpara₁, hinput₁⟩ := campos_of_verifyContrato h₁.contrato
  obtain ⟨hcode₂, hpara₂, hinput₂⟩ := campos_of_verifyContrato h₂.contrato
  exact ⟨h₁.tipo.trans h₂.tipo.symm, h₁.scheme.trans h₂.scheme.symm,
    Option.some.inj (h₁.de.symm.trans h₂.de),
    (para_of_verifyDestino h₁.destino).trans (para_of_verifyDestino h₂.destino).symm,
    h₁.amount.trans h₂.amount.symm, hfee, hnonce, hbytes, hcode₁.trans hcode₂.symm,
    hpara₁.trans hpara₂.symm, hinput₁.trans hinput₂.symm,
    (eavmFrom_of_conferido h₁).trans (eavmFrom_of_conferido h₂).symm⟩

theorem tipo_of_conferido {cr : Cripto} {tx : Tx} {parsed : ParsedTx}
    (h : Conferido cr tx parsed) :
    tx.txType = "STAKE" ∨ tx.txType = "UNSTAKE" ∨ tx.txType ∈ EavmTx.tipos := by
  rw [h.tipo]
  cases classify cr parsed <;> decide

/-! ## The effect of an id -/

/-- Accepted transactions with one id have one effect in every state, when they agree
besides. -/
def MesmoEfeito (concordam : Tx → Tx → Prop) : Prop :=
  ∀ (amb : Ambiente) (t₁ t₂ : Tx), amb.verifyEavmEnvelope = verifyEavmEnvelope amb.cripto →
    amb.verifyTransaction t₁ = .ok () → amb.verifyTransaction t₂ = .ok () →
    t₁.Tipada → t₂.Tipada → amb.cripto.txDedupId t₁ = amb.cripto.txDedupId t₂ →
    (amb.cripto.eavHashOne t₁.textoDoId = amb.cripto.eavHashOne t₂.textoDoId →
      t₁.textoDoId = t₂.textoDoId) → concordam t₁ t₂ →
    ∀ (height blockTs : ℕ) (s : State),
      applyTransaction amb t₁ height blockTs s = applyTransaction amb t₂ height blockTs s

/-- The objects around a raw text give it one fee, one nonce and one length. -/
def ObjetoConcorda (t₁ t₂ : Tx) : Prop :=
  t₁.scheme = eavmScheme →
    t₁.fee = t₂.fee ∧ t₁.nonce = t₂.nonce ∧ t₁.usefulTxBytes = t₂.usefulTxBytes

theorem efeito_do_id : MesmoEfeito ObjetoConcorda := by
  intro amb t₁ t₂ henv h₁ h₂ ht₁ ht₂ hid hcolisao hobjeto height blockTs s
  rw [txDedupId_eq, txDedupId_eq] at hid
  have htexto := hcolisao hid
  have hconferido : ∀ {tx : Tx}, amb.verifyTransaction tx = .ok () → tx.scheme = eavmScheme →
      ∃ parsed, Conferido amb.cripto tx parsed := by
    intro tx h hscheme
    unfold Ambiente.verifyTransaction at h
    rw [if_pos hscheme, henv] at h
    exact verifyEavmEnvelope_iff.mp h
  -- The text of an envelope is no JSON object.
  have hdistintos : ∀ {tx tx' : Tx}, amb.verifyTransaction tx = .ok () →
      tx.scheme = eavmScheme → tx'.scheme ≠ eavmScheme → tx.textoDoId ≠ tx'.textoDoId := by
    intro tx tx' h hscheme hhibrido heq
    obtain ⟨parsed, hconf⟩ := hconferido h hscheme
    have hchave := head_signingPayload tx'
    rw [← textoDoId_of_hibrido hhibrido, ← heq, textoDoId_of_conferido hconf,
      String.toList_append] at hchave
    exact absurd (Option.some.inj hchave) (by decide)
  by_cases hscheme₁ : t₁.scheme = eavmScheme
  · have hscheme₂ : t₂.scheme = eavmScheme := by
      by_contra hhibrido
      exact hdistintos h₁ hscheme₁ hhibrido htexto
    obtain ⟨parsed₁, hconf₁⟩ := hconferido h₁ hscheme₁
    obtain ⟨parsed₂, hconf₂⟩ := hconferido h₂ hscheme₂
    rw [textoDoId_of_conferido hconf₁, textoDoId_of_conferido hconf₂] at htexto
    have hraw : rawDe t₁ = rawDe t₂ := by
      have hcs := congrArg String.toList htexto
      rw [String.toList_append, String.toList_append] at hcs
      exact String.toList_inj.mp (List.append_cancel_left hcs)
    obtain ⟨hfee, hnonce, hbytes⟩ := hobjeto hscheme₁
    rw [(mesmaLeitura_of_conferido hconf₁ hconf₂ hraw hfee hnonce hbytes).apply
      (tipo_of_conferido hconf₂)]
  · have hscheme₂ : t₂.scheme ≠ eavmScheme := fun hscheme₂ =>
      hdistintos h₂ hscheme₂ hscheme₁ htexto.symm
    rw [textoDoId_of_hibrido hscheme₁, textoDoId_of_hibrido hscheme₂] at htexto
    have hselo := semSelo_of_signingPayload ht₁ ht₂ htexto
    have hids : t₁.id = t₂.id := by
      rw [id_of_verifyTransaction henv h₁, id_of_verifyTransaction henv h₂, txDedupId_eq,
        txDedupId_eq, hid]
    rw [applyTransaction_semSelo, applyTransaction_semSelo amb t₂, hselo, hids]

/-! ## The same raw text in two envelopes -/

/-- The fields of `data` that the verification reads. -/
def camposConferidos : List String :=
  ["raw", "code", "to", "input", "eavmTo", "op", "eavmHash", "eavmFrom"]

/-- The verification allows another fee, nonce, timestamp and other fields in `data`. -/
theorem Conferido.troca {cr : Cripto} {tx tx' : Tx} {parsed : ParsedTx}
    (h : Conferido cr tx parsed)
    (hresto : { tx with fee := "", nonce := 0, timestamp := 0, data := none } =
      { tx' with fee := "", nonce := 0, timestamp := 0, data := none })
    (hcampos : ∀ k ∈ camposConferidos, tx'.campo k = tx.campo k)
    (hfee : tx'.fee = tx.fee ∨ tx'.fee = "0") (hnonce : nonceConfere tx'.nonce parsed.nonce = true)
    (hts : 0 < tx'.timestamp ∧ tx'.timestamp ≤ maxSafeInteger) : Conferido cr tx' parsed := by
  simp only [camposConferidos, List.forall_mem_cons] at hcampos
  obtain ⟨hraw, hcode, hto, hinput, heavmTo, hop, hhash, hfrom, -⟩ := hcampos
  simp only [Tx.mk.injEq] at hresto
  obtain ⟨hprotocol, hscheme, htipo, hde, hpara, hamount, -, -, -, -, -, -, -, -, hid⟩ := hresto
  have hrawDe : rawDe tx' = rawDe tx := by
    unfold rawDe
    rw [hraw]
  have hdestino := h.destino
  have hcontrato := h.contrato
  have hmetadados := h.metadados
  unfold verifyDestinoEavm at hdestino
  unfold verifyContrato nuloOuAusente at hcontrato
  unfold verifyMetadados eavmToConfere opConfere at hmetadados
  rw [hpara] at hdestino
  rw [← hcode, ← hto, ← hinput] at hcontrato
  rw [← heavmTo, ← hop, ← hhash, ← hfrom] at hmetadados
  refine ⟨hprotocol ▸ h.protocol, hscheme ▸ h.scheme, hrawDe ▸ h.raw, hrawDe ▸ h.lido, h.checado,
    htipo ▸ h.tipo, ?_, hde ▸ h.de, hdestino, hcontrato, hamount ▸ h.amount, hnonce, hts, hmetadados,
    ?_⟩
  · rcases hfee with hfee | hfee
    · exact hfee ▸ h.taxa
    · exact .inr hfee
  · rw [hrawDe, ← hid]
    exact h.id

/-- A transfer of nothing signed with the nonce `2 ^ 53 - 1`, in the envelopes that a
third party can put around it. -/
def txFixa (fee : String) (nonce timestamp : ℤ) (extra : List (String × JsonValue)) : Tx :=
  { protocol := "eav20"
    scheme := "eav7-eavm-1"
    txType := "EAVM_TRANSFER"
    de := "E7F00E19ED5A6AC2F40E054A0F2FD5810D"
    para := some "E7732C6A40D95397CB0E069743ECC64C5F"
    amount := "0"
    fee := fee
    nonce := nonce
    timestamp := timestamp
    data := some (.map ([("eavmFrom", .str "0x3f17f1962b36e491b30a40b2405849e597ba5fb5"),
      ("eavmHash", .str "0xd2d5a5df44e25f7b50007c8653a97ba4fbca8f0eb9a4d8ffcec1e34fd536efb4"),
      ("eavmTo", .str "0x1111111111111111111111111111111111111111"),
      ("raw", .str ("0x02ea83011954871fffffffffffff8080809411111111111111111111111111111111" ++
        "111111118080c0800101"))] ++ extra))
    id := some "3f53f0a6e0e35a5266d250c6eebc804727cc7f889eed2ef634b58c18cc313f04" }

def ambienteCarteira : Ambiente :=
  { ambienteIdeal with
    cripto := criptoCarteira, verifyEavmEnvelope := verifyEavmEnvelope criptoCarteira }

instance verifica_fixa : Fact
    ((verifyEavmEnvelope criptoCarteira (txFixa "10000" (2 ^ 53) 1 [])).toOption.isSome = true) where
  out := by
    rw [criptoCarteira_eq]
    decide +kernel

/-- The nonce after the signed one is the same double as the next integer. -/
theorem doubles_iguais :
    Binary64.nearest ((2 ^ 53 + 1 : ℤ) : ℚ) = Binary64.nearest ((2 ^ 53 : ℤ) : ℚ) := by
  decide +kernel

/-- A list that weighs in the quota and is under no signature. -/
def listaLonga : List (String × JsonValue) := [("x", .list (List.replicate 130 .null))]

/-- The envelopes that are put around the signed transfer. -/
def envelopesFixos : List Tx :=
  [txFixa "10000" (2 ^ 53) 1 [], txFixa "0" (2 ^ 53) 10001 [], txFixa "10000" (2 ^ 53 + 1) 1 [],
    txFixa "10000" (2 ^ 53) 1 listaLonga]

/-- An account with its quota spent and just enough for the fee of the signed envelope. -/
def estadoFixo : State :=
  { accounts := OrdMap.ofList [("E7F00E19ED5A6AC2F40E054A0F2FD5810D",
      { balance := 5200, nonce := 2 ^ 53 - 1, gbUsed := 10 ^ 9, gbBlock := 1 })] }

/-- The first envelope is applied and the others are refused. -/
instance efeitos_fixos : Fact
    (conclui (applyTransaction ambienteCarteira (txFixa "10000" (2 ^ 53) 1 []) 1 1) estadoFixo =
      true ∧ ∀ tx ∈ envelopesFixos.tail,
        conclui (applyTransaction ambienteCarteira tx 1 1) estadoFixo = false) where
  out := by
    unfold applyTransaction aplicarNativa apurarTaxa EavmTx.apurarGb aplicarEavm EavmTx.aplicar
      EavmTx.aplicarTransfer EavmTx.apurarGb
    rw [consumoGb_eq]
    decide +kernel

instance bytes_fixos : Fact ((txFixa "10000" (2 ^ 53) 1 []).usefulTxBytes =
      (txFixa "0" (2 ^ 53) 10001 []).usefulTxBytes ∧
    (txFixa "10000" (2 ^ 53) 1 []).usefulTxBytes =
      (txFixa "10000" (2 ^ 53 + 1) 1 []).usefulTxBytes) where
  out := by
    unfold Tx.usefulTxBytes
    simp only [canonicalJsonLen_eq]
    decide +kernel

theorem conferido_fixo : ∃ parsed, ∀ tx ∈ envelopesFixos, Conferido criptoCarteira tx parsed := by
  obtain ⟨parsed, h⟩ := verifyEavmEnvelope_iff.mp (eq_ok_of_isSome verifica_fixa.out)
  have hproximo : nonceConfere (2 ^ 53 + 1) parsed.nonce = true := by
    have hnonce := h.nonce
    unfold nonceConfere at hnonce ⊢
    split at hnonce
    · rw [doubles_iguais]
      exact hnonce
    · cases hnonce
  have htroca : ∀ (fee : String) (nonce timestamp : ℤ) (extra : List (String × JsonValue)),
      (∀ k ∈ camposConferidos, extra.lookup k = none) →
      fee = "10000" ∨ fee = "0" → nonceConfere nonce parsed.nonce = true →
      0 < timestamp ∧ timestamp ≤ maxSafeInteger →
      Conferido criptoCarteira (txFixa fee nonce timestamp extra) parsed := by
    intro fee nonce timestamp extra hextra hfee hnonce hts
    refine h.troca rfl (fun k hk => ?_) hfee hnonce hts
    unfold Tx.campo txFixa JsonValue.campo
    simp only [Option.bind_some, List.lookup_append, hextra k hk, List.lookup_nil]
  have hfora : ∀ k ∈ camposConferidos, listaLonga.lookup k = none := by
    unfold camposConferidos listaLonga
    simp only [List.forall_mem_cons]
    exact ⟨rfl, rfl, rfl, rfl, rfl, rfl, rfl, rfl, List.forall_mem_nil _⟩
  refine ⟨parsed, ?_⟩
  unfold envelopesFixos
  simp only [List.forall_mem_cons]
  exact ⟨h, htroca "0" _ 10001 [] (fun _ _ => rfl) (.inr rfl) h.nonce (by decide),
    htroca "10000" _ 1 [] (fun _ _ => rfl) (.inl rfl) hproximo (by decide),
    htroca "10000" _ 1 listaLonga hfora (.inl rfl) h.nonce (by decide), List.forall_mem_nil _⟩

theorem tipada_fixa : ∀ tx ∈ envelopesFixos, tx.Tipada := by
  have htipada : ∀ (fee : String) (nonce timestamp : ℤ) (extra : List (String × JsonValue)),
      (i64Min ≤ nonce ∧ nonce ≤ i64Max) → (i64Min ≤ timestamp ∧ timestamp ≤ i64Max) →
      extra = [] ∨ extra = listaLonga → (txFixa fee nonce timestamp extra).Tipada := by
    intro fee nonce timestamp extra hnonce hts hextra
    refine ⟨hnonce, hts, ?_⟩
    rintro d ⟨⟩
    rcases hextra with rfl | rfl
    · exact ⟨by decide, trivial, trivial, trivial, trivial, trivial⟩
    · refine ⟨?_, trivial, trivial, trivial, trivial, JsonValue.validoItens_iff.mpr ?_, trivial⟩
      · change (["eavmFrom", "eavmHash", "eavmTo", "raw", "x"] : List String).Pairwise (· < ·)
        decide
      · intro v hv
        rw [List.eq_of_mem_replicate hv]
        trivial
  unfold envelopesFixos
  simp only [List.forall_mem_cons]
  exact ⟨htipada _ _ _ _ (by decide) (by decide) (.inl rfl),
    htipada _ _ _ _ (by decide) (by decide) (.inl rfl),
    htipada _ _ _ _ (by decide) (by decide) (.inl rfl),
    htipada _ _ _ _ (by decide) (by decide) (.inr rfl), List.forall_mem_nil _⟩

/-- Envelopes of one text with different ends refute that agreeing so far is enough. -/
theorem naoMesmoEfeito {concordam : Tx → Tx → Prop} {tx : Tx} (htx : tx ∈ envelopesFixos.tail)
    (hconcordam : concordam (txFixa "10000" (2 ^ 53) 1 []) tx) : ¬ MesmoEfeito concordam := by
  intro h
  obtain ⟨parsed, hconf⟩ := conferido_fixo
  have hbase : txFixa "10000" (2 ^ 53) 1 [] ∈ envelopesFixos := List.mem_cons_self
  have hmem : tx ∈ envelopesFixos := List.mem_of_mem_tail htx
  have hverifica : ∀ tx ∈ envelopesFixos, ambienteCarteira.verifyTransaction tx = .ok () := by
    intro tx hmem
    unfold Ambiente.verifyTransaction
    rw [if_pos (hconf tx hmem).scheme]
    exact verifyEavmEnvelope_iff.mpr ⟨parsed, hconf tx hmem⟩
  have hraw : ∀ tx ∈ envelopesFixos, rawDe tx = rawDe (txFixa "10000" (2 ^ 53) 1 []) := by
    unfold envelopesFixos
    simp only [List.forall_mem_cons]
    exact ⟨trivial, rfl, rfl, rfl, List.forall_mem_nil _⟩
  have htexto : (txFixa "10000" (2 ^ 53) 1 []).textoDoId = tx.textoDoId := by
    rw [textoDoId_of_conferido (hconf _ hbase), textoDoId_of_conferido (hconf _ hmem), hraw _ hmem]
  have hid : criptoCarteira.txDedupId (txFixa "10000" (2 ^ 53) 1 []) =
      criptoCarteira.txDedupId tx := by
    rw [txDedupId_eq, txDedupId_eq, htexto]
  have higual := h ambienteCarteira _ tx rfl (hverifica _ hbase) (hverifica _ hmem)
    (tipada_fixa _ hbase) (tipada_fixa _ hmem) hid (fun _ => htexto) hconcordam 1 1 estadoFixo
  obtain ⟨hpaga, hrecusa⟩ := efeitos_fixos.out
  have hmesmo := conclui_congr higual
  rw [hpaga, hrecusa tx htx] at hmesmo
  exact Bool.false_ne_true hmesmo.symm

/-- An id does not fix the effect by itself, nor with any two of the fee, the nonce and the
length. -/
theorem mesmo_id_outro_efeito : ¬ MesmoEfeito (fun _ _ => True) ∧
    ¬ MesmoEfeito (fun t₁ t₂ => t₁.nonce = t₂.nonce ∧ t₁.usefulTxBytes = t₂.usefulTxBytes) ∧
    ¬ MesmoEfeito (fun t₁ t₂ => t₁.fee = t₂.fee ∧ t₁.usefulTxBytes = t₂.usefulTxBytes) ∧
    ¬ MesmoEfeito (fun t₁ t₂ => t₁.fee = t₂.fee ∧ t₁.nonce = t₂.nonce) := by
  have htaxa : txFixa "0" (2 ^ 53) 10001 [] ∈ envelopesFixos.tail := List.mem_cons_self
  have hnonce : txFixa "10000" (2 ^ 53 + 1) 1 [] ∈ envelopesFixos.tail :=
    List.mem_cons_of_mem _ List.mem_cons_self
  have hbytes : txFixa "10000" (2 ^ 53) 1 listaLonga ∈ envelopesFixos.tail :=
    List.mem_cons_of_mem _ (List.mem_cons_of_mem _ List.mem_cons_self)
  exact ⟨naoMesmoEfeito htaxa trivial, naoMesmoEfeito htaxa ⟨rfl, bytes_fixos.out.1⟩,
    naoMesmoEfeito hnonce ⟨rfl, bytes_fixos.out.2⟩, naoMesmoEfeito hbytes ⟨rfl, rfl⟩⟩

/-- A signature added to the envelope changes nothing. -/
theorem efeito_do_id_fixo :
    applyTransaction ambienteCarteira (txFixa "10000" (2 ^ 53) 1 []) 1 1 estadoFixo =
      applyTransaction ambienteCarteira
        { txFixa "10000" (2 ^ 53) 1 [] with signature := some "AA==" } 1 1 estadoFixo := by
  obtain ⟨parsed, hconf⟩ := conferido_fixo
  have hbase : txFixa "10000" (2 ^ 53) 1 [] ∈ envelopesFixos := List.mem_cons_self
  have hverifica : ambienteCarteira.verifyTransaction (txFixa "10000" (2 ^ 53) 1 []) = .ok () := by
    unfold Ambiente.verifyTransaction
    rw [if_pos (hconf _ hbase).scheme]
    exact verifyEavmEnvelope_iff.mpr ⟨parsed, hconf _ hbase⟩
  have htipada := tipada_fixa _ hbase
  exact efeito_do_id ambienteCarteira _
    { txFixa "10000" (2 ^ 53) 1 [] with signature := some "AA==" } rfl hverifica hverifica htipada
    ⟨htipada.nonce, htipada.timestamp, htipada.data⟩ rfl (fun _ => rfl)
    (fun _ => ⟨rfl, rfl, rfl⟩) 1 1 estadoFixo

end Eav7
