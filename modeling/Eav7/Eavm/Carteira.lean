import Eav7.Base.Arredondamento
import Eav7.Eavm.Conferencia
import Eav7.Ideal

/-!
# Wrapping signed transactions

The envelope that the node builds around a raw transaction, and an idealised wallet that
signs some.
-/

namespace Eav7

open Base Eavm

section

variable (cr : Cripto)

/-- The `data` of an envelope, in the order of its keys. -/
def dataDoEnvelope (raw : String) (parsed : ParsedTx) (nonce : ℤ) (tipo : EnvelopeType) :
    List (String × JsonValue) :=
  let code := if tipo = .deploy then [("code", .str parsed.dataHex)] else []
  let input := if tipo = .call then [("input", .str parsed.dataHex)] else []
  let alvo := if tipo = .call then [("to", .str (cr.toLowercase (parsed.para.getD "")))] else []
  code ++ ([("eavmFrom", .str parsed.de), ("eavmHash", .str parsed.eavmHash),
    ("eavmNonce", .int nonce), ("eavmTo", parsed.para.elim .null .str)] : List (String × JsonValue)) ++
    input ++ ([("op", tipo.op.elim .null .str), ("raw", .str raw)] : List (String × JsonValue)) ++
    alvo

/-- The nonce of a built envelope is a safe integer. -/
def nonceDoEnvelope (parsed : ParsedTx) : Falha ℤ :=
  match parsed.nonce with
  | some q =>
    if 0 ≤ q ∧ q ≤ Binary64.nearest ((maxSafeInteger - 1 : ℤ) : ℚ) then .ok q.floor
    else falhar "nonce EAVM acima do inteiro seguro (guarda do construtor)"
  | none => falhar "nonce EAVM acima do inteiro seguro (guarda do construtor)"

/-- Only a transfer has a destination of the protocol. -/
def paraDoEnvelope (parsed : ParsedTx) (tipo : EnvelopeType) : Falha (Option String) :=
  match tipo, parsed.para with
  | .transfer, some to0x => (destE7For cr to0x).map some
  | _, _ => .ok none

/-- The transaction of the protocol around the raw one. -/
def montaEnvelope (raw : String) (parsed : ParsedTx) (de : String) (para : Option String)
    (fee : Amount) (nonce timestamp : ℤ) : Tx :=
  let tipo := classify cr parsed
  { protocol := Config.protocol
    scheme := eavmScheme
    txType := tipo.asStr
    de := de
    para := para
    amount := toString (parsed.value / Config.eavmWeiPerE7)
    fee := toString fee
    nonce := nonce + 1
    timestamp := timestamp
    data := some (.map (dataDoEnvelope cr raw parsed nonce tipo))
    id := some (cr.eavHashOne s!"EAV7-EAVM-TX:{raw}") }

theorem data_montaEnvelope {cr : Cripto} {raw de : String} {parsed : ParsedTx}
    {para : Option String} {fee : Amount} {nonce timestamp : ℤ} :
    (montaEnvelope cr raw parsed de para fee nonce timestamp).data =
      some (.map (dataDoEnvelope cr raw parsed nonce (classify cr parsed))) := rfl

def buildEavmEnvelope (rawHex : String) (timestamp : ℤ) (feeExempt : String → Bool) : Falha Tx := do
  falharSe (maxRawChars < rawHex.utf8ByteSize) "transação raw inválida"
  let raw := cr.toLowercase rawHex
  let parsed ← decodeRawTransaction cr raw
  checkParsed cr parsed
  let tipo := classify cr parsed
  match cr.eavmToE7 parsed.de with
  | none => falhar "endereço EAVM inválido"
  | some de => do
    let fee := if feeExempt de then 0 else tipo.fee
    let nonce ← nonceDoEnvelope parsed
    let para ← paraDoEnvelope cr parsed tipo
    return montaEnvelope cr raw parsed de para fee nonce timestamp

end

/-! ## What is built is accepted -/

section

variable {cr : Cripto} {parsed : ParsedTx} {tipo : EnvelopeType} {tx : Tx} {raw : String}

theorem nonceConfere_of_nonceDoEnvelope {n : ℕ} {nonce : ℤ}
    (hparsed : parsed.nonce = Binary64.ofRat n) (h : nonceDoEnvelope parsed = .ok nonce) :
    nonceConfere (nonce + 1) parsed.nonce = true := by
  unfold nonceDoEnvelope at h
  cases hq : parsed.nonce with
  | none =>
    rw [hq] at h
    cases h
  | some q =>
    rw [hq] at h
    dsimp only at h
    split_ifs at h with hfaixa
    · cases h
      have hint := Binary64.int_of_ofRat (hparsed.symm.trans hq)
      unfold nonceConfere Binary64.add
      dsimp only
      rw [Int.cast_add, hint, Int.cast_one]
      exact beq_self_eq_true _
    · cases h

theorem nonce_of_decodeRawTransaction (h : decodeRawTransaction cr raw = .ok parsed) :
    ∃ n : ℕ, parsed.nonce = Binary64.ofRat n := by
  unfold decodeRawTransaction at h
  obtain ⟨_, -, h⟩ := except_bind_eq_ok.mp h
  obtain ⟨c, -, h⟩ := except_bind_eq_ok.mp h
  obtain ⟨_, -, h⟩ := except_bind_eq_ok.mp h
  cases h
  exact ⟨c.nonce, rfl⟩

theorem transfer_of_classify (h : classify cr parsed = .transfer) : parsed.para.isSome = true := by
  unfold classify at h
  cases hpara : parsed.para with
  | some a => rfl
  | none =>
    rw [hpara] at h
    cases h

theorem verifyDestino_of_para {para : Option String} (hpara : tx.para = para)
    (hconstroi : paraDoEnvelope cr parsed (classify cr parsed) = .ok para) :
    verifyDestinoEavm cr tx parsed (classify cr parsed) = .ok () := by
  unfold verifyDestinoEavm
  unfold paraDoEnvelope at hconstroi
  cases htipo : classify cr parsed with
  | transfer =>
    obtain ⟨to0x, hto⟩ := Option.isSome_iff_exists.mp (transfer_of_classify htipo)
    rw [htipo, hto] at hconstroi
    dsimp only at hconstroi
    rw [hto, if_neg (by decide), Option.getD_some]
    cases hdest : destE7For cr to0x with
    | error e =>
      rw [hdest] at hconstroi
      cases hconstroi
    | ok e7 =>
      rw [hdest] at hconstroi
      obtain rfl := Except.ok.inj hconstroi
      exact except_bind_eq_ok.mpr ⟨e7, rfl, falharSe_eq_ok.mpr (not_not.mpr hpara)⟩
  | stake | unstake | deploy | call =>
    rw [htipo] at hconstroi
    obtain rfl := Except.ok.inj hconstroi
    rw [if_pos (by decide)]
    exact falharSe_eq_ok.mpr (by rw [hpara]; decide)

section

variable {nonce : ℤ} (hdata : tx.data = some (.map (dataDoEnvelope cr raw parsed nonce tipo)))
include hdata

theorem campos_of_data :
    texto (tx.campo "raw") = some raw ∧ texto (tx.campo "eavmHash") = some parsed.eavmHash ∧
      texto (tx.campo "eavmFrom") = some parsed.de ∧
      tx.campo "eavmTo" = some (parsed.para.elim .null .str) ∧
      tx.campo "op" = some (tipo.op.elim .null .str) := by
  unfold Tx.campo
  rw [hdata]
  cases tipo <;> exact ⟨rfl, rfl, rfl, rfl, rfl⟩

theorem contrato_of_data :
    tx.campo "code" = (if tipo = .deploy then some (.str parsed.dataHex) else none) ∧
      tx.campo "input" = (if tipo = .call then some (.str parsed.dataHex) else none) ∧
      tx.campo "to" =
        (if tipo = .call then some (.str (cr.toLowercase (parsed.para.getD ""))) else none) := by
  unfold Tx.campo
  rw [hdata]
  cases tipo <;> exact ⟨rfl, rfl, rfl⟩

theorem verifyContrato_of_data : verifyContrato cr tx parsed tipo = .ok () := by
  obtain ⟨hcode, hinput, hpara⟩ := contrato_of_data hdata
  unfold verifyContrato nuloOuAusente
  cases tipo <;> simp [hcode, hinput, hpara, falharSe, texto, JsonValue.texto?] <;> rfl

theorem verifyMetadados_of_data : verifyMetadados tx parsed tipo = .ok () := by
  obtain ⟨-, hhash, hde, hpara, hop⟩ := campos_of_data hdata
  have hparaConfere : eavmToConfere tx parsed = true := by
    unfold eavmToConfere
    rw [hpara]
    cases parsed.para <;> simp
  have hopConfere : opConfere tx tipo.op = true := by
    unfold opConfere
    rw [hop]
    cases tipo.op <;> simp
  exact except_bind_eq_ok.mpr ⟨(), falharSe_eq_ok.mpr (by simp [hhash, hde, hparaConfere]),
    falharSe_eq_ok.mpr (by simp [hopConfere])⟩

end

theorem verify_montaEnvelope {de : String} {para : Option String} {fee : Amount}
    {nonce timestamp : ℤ} {n : ℕ} (hraw : verifyRaw raw = .ok ())
    (hparsed : decodeRawTransaction cr raw = .ok parsed) (hcheck : checkParsed cr parsed = .ok ())
    (hde : cr.eavmToE7 parsed.de = some de)
    (hpara : paraDoEnvelope cr parsed (classify cr parsed) = .ok para)
    (hfee : fee = (classify cr parsed).fee ∨ fee = 0) (hn : parsed.nonce = Binary64.ofRat n)
    (hnonce : nonceDoEnvelope parsed = .ok nonce) (hpositivo : 0 < timestamp)
    (hseguro : timestamp ≤ maxSafeInteger) :
    verifyEavmEnvelope cr (montaEnvelope cr raw parsed de para fee nonce timestamp) = .ok () := by
  have hdata : (montaEnvelope cr raw parsed de para fee nonce timestamp).data =
      some (.map (dataDoEnvelope cr raw parsed nonce (classify cr parsed))) := rfl
  have hrawDe : rawDe (montaEnvelope cr raw parsed de para fee nonce timestamp) = raw := by
    unfold rawDe
    rw [(campos_of_data hdata).1]
    rfl
  have htaxa : (montaEnvelope cr raw parsed de para fee nonce timestamp).fee =
      toString (classify cr parsed).fee ∨
      (montaEnvelope cr raw parsed de para fee nonce timestamp).fee = "0" := by
    rcases hfee with rfl | rfl
    · exact .inl rfl
    · exact .inr rfl
  rw [← hrawDe] at hraw hparsed
  refine verifyEavmEnvelope_iff.mpr ⟨parsed, rfl, rfl, hraw, hparsed, hcheck, rfl, htaxa, hde,
    verifyDestino_of_para rfl hpara, verifyContrato_of_data hdata, rfl,
    nonceConfere_of_nonceDoEnvelope hn hnonce, ⟨hpositivo, hseguro⟩,
    verifyMetadados_of_data hdata, ?_⟩
  rw [hrawDe]
  rfl

/-- What the node builds around a raw text is accepted, when its lower-case form is a raw
text and the timestamp is a safe integer. -/
theorem verify_of_buildEavmEnvelope {rawHex : String} {timestamp : ℤ} {isenta : String → Bool}
    (h : buildEavmEnvelope cr rawHex timestamp isenta = .ok tx)
    (hraw : verifyRaw (cr.toLowercase rawHex) = .ok ()) (hpositivo : 0 < timestamp)
    (hseguro : timestamp ≤ maxSafeInteger) :
    verifyEavmEnvelope cr tx = .ok () ∧ rawDe tx = cr.toLowercase rawHex := by
  unfold buildEavmEnvelope at h
  obtain ⟨_, -, h⟩ := except_bind_eq_ok.mp h
  obtain ⟨parsed, hparsed, h⟩ := except_bind_eq_ok.mp h
  obtain ⟨_, hcheck, h⟩ := except_bind_eq_ok.mp h
  dsimp only at h
  split at h
  · cases h
  · rename_i de hde
    obtain ⟨nonce, hnonce, h⟩ := except_bind_eq_ok.mp h
    obtain ⟨para, hpara, h⟩ := except_bind_eq_ok.mp h
    obtain ⟨n, hn⟩ := nonce_of_decodeRawTransaction hparsed
    obtain rfl := Except.ok.inj h
    refine ⟨verify_montaEnvelope hraw hparsed hcheck hde hpara ?_ hn hnonce hpositivo hseguro, ?_⟩
    · split_ifs
      · exact .inr rfl
      · exact .inl rfl
    · unfold rawDe
      rw [(campos_of_data data_montaEnvelope).1]
      rfl

end

/-! ## An idealised wallet -/

/-- Every signature is by one key, and has one recovery bit. -/
def criptoCarteira : Cripto :=
  { criptoIdeal with
    recupera := fun _ _ _ i => if i = 0 then some (List.replicate 64 0) else none }

def carteiraDireta : Cripto :=
  { criptoDireta with
    recupera := fun _ _ _ i => if i = 0 then some (List.replicate 64 0) else none }

theorem criptoCarteira_eq : criptoCarteira = carteiraDireta := by
  unfold criptoCarteira carteiraDireta
  rw [← criptoIdeal_eq]

/-- A signed transfer of nothing, with the given recovery field. -/
def itensCarteira (nonce : ℕ) (recuperacao : Rlp) : List Rlp :=
  [.bytes (Rlp.minBytes Config.eavmChainId), .bytes (Rlp.minBytes nonce), .bytes [], .bytes [],
    .bytes [], .bytes (List.replicate 20 0x11), .bytes [], .bytes [], .lista [], recuperacao,
    .bytes [1], .bytes [1]]

def rawCarteira (nonce : ℕ) (recuperacao : Rlp) : String :=
  "0x" ++ hexEncode (0x02 :: Rlp.encode (.lista (itensCarteira nonce recuperacao)))

/-- The envelope of a signed transfer, of an account that pays fees or not. -/
def txCarteira (nonce : ℕ) (recuperacao : Rlp) (isenta : Bool) : Tx :=
  (buildEavmEnvelope criptoCarteira (rawCarteira nonce recuperacao) 1 fun _ => isenta).toOption.getD
    { txType := "", de := "", nonce := 0, timestamp := 0 }

/-- What evaluation has to show for the envelope of a signed transfer to be accepted. -/
def aceitaCarteira (nonce : ℕ) (recuperacao : Rlp) (isenta : Bool) : Bool :=
  let raw := rawCarteira nonce recuperacao
  (buildEavmEnvelope criptoCarteira raw 1 fun _ => isenta).toOption.isSome &&
    (verifyRaw raw).toOption.isSome && criptoCarteira.toLowercase raw == raw

theorem verify_txCarteira {nonce : ℕ} {recuperacao : Rlp} {isenta : Bool}
    (h : aceitaCarteira nonce recuperacao isenta = true) :
    verifyEavmEnvelope criptoCarteira (txCarteira nonce recuperacao isenta) = .ok () ∧
      rawDe (txCarteira nonce recuperacao isenta) = rawCarteira nonce recuperacao := by
  unfold aceitaCarteira at h
  simp only [Bool.and_eq_true, beq_iff_eq] at h
  obtain ⟨⟨hconstroi, hraw⟩, hminusculo⟩ := h
  unfold txCarteira
  cases htx : buildEavmEnvelope criptoCarteira (rawCarteira nonce recuperacao) 1
    fun _ => isenta with
  | error e =>
    rw [htx] at hconstroi
    cases hconstroi
  | ok tx =>
    have hok : verifyRaw (criptoCarteira.toLowercase (rawCarteira nonce recuperacao)) = .ok () := by
      rw [hminusculo]
      cases hr : verifyRaw (rawCarteira nonce recuperacao) with
      | ok u => rfl
      | error e =>
        rw [hr] at hraw
        cases hraw
    obtain ⟨hverifica, hrawDe⟩ := verify_of_buildEavmEnvelope htx hok (by decide) (by decide)
    exact ⟨hverifica, hrawDe.trans hminusculo⟩

end Eav7
