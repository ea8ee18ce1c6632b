import Eav7.Eavm.Carteira
import Eav7.Eavm.RlpCanonico
import Eav7.Octetos

/-!
# Malleability of the envelopes

The signature covers every field of the signed bytes but its own three. Two raw texts of
one signature are the same text when their recovery fields are byte strings; a list in
that field is read as a number too, and gives another text.
-/

namespace Eav7

open Base Eavm

/-! ## Hexadecimal -/

theorem addrHex_inj {a b : Address} (h : addrHex a = addrHex b) : a = b := by
  apply hexEncode_inj
  have hcs := congrArg String.toList h
  unfold addrHex at hcs
  rw [String.toList_append, String.toList_append] at hcs
  exact String.toList_inj.mp (List.append_cancel_left hcs)

/-- A lower-case digit is the one that is written for its value. -/
theorem digito_of_hexMinusculo {c : Char} (h : hexMinusculo c = true) :
    ∃ d < 16, digito? 16 c = some d ∧ hexDigito d = c := by
  have htodos : ∀ n < 103, hexMinusculo (Char.ofNat n) = true →
      ∃ d < 16, digito? 16 (Char.ofNat n) = some d ∧ hexDigito d = Char.ofNat n := by decide
  have hcurto : c.toNat < 103 := by
    unfold hexMinusculo at h
    rcases Bool.or_eq_true_iff.mp h with h | h
    all_goals
      obtain ⟨-, h⟩ := Bool.and_eq_true_iff.mp h
      have hle : c.toNat ≤ _ := of_decide_eq_true h
      exact hle.trans_lt (by decide)
  have hc := htodos c.toNat hcurto
  rw [Char.ofNat_toNat] at hc
  exact hc h

theorem hexByte_paresHex : ∀ {cs : List Char}, cs.all hexMinusculo = true →
    cs.length % 2 = 0 → (paresHex cs).flatMap (hexByte false) = cs
  | [], _, _ => rfl
  | [_], _, hpar => absurd hpar Nat.one_ne_zero
  | a :: b :: cs, hmin, hpar => by
    obtain ⟨ha, hresto⟩ := Bool.and_eq_true_iff.mp hmin
    obtain ⟨hb, houtros⟩ := Bool.and_eq_true_iff.mp hresto
    rw [List.length_cons, List.length_cons] at hpar
    obtain ⟨d, hd, hda, rfl⟩ := digito_of_hexMinusculo ha
    obtain ⟨e, he, heb, rfl⟩ := digito_of_hexMinusculo hb
    have ih := hexByte_paresHex houtros (by omega)
    have hbyte := Rlp.toNat_ofNat (n := d * 16 + e) (by omega)
    unfold paresHex
    rw [hda, heb]
    dsimp only
    rw [List.flatMap_cons, ih, hexByte_false, hbyte,
      show (d * 16 + e) / 16 = d by omega, show (d * 16 + e) % 16 = e by omega]
    rfl

/-- A checked raw text with an even number of digits is its bytes. -/
theorem raw_inj {a b : String} (ha : verifyRaw a = .ok ()) (hb : verifyRaw b = .ok ())
    (hpara : a.toList.length % 2 = 0) (hparb : b.toList.length % 2 = 0)
    (h : bytesDoRaw a = bytesDoRaw b) : a = b := by
  have htexto : ∀ s : String, verifyRaw s = .ok () → s.toList.length % 2 = 0 →
      s.toList = ['0', 'x'] ++ (bytesDoRaw s).flatMap (hexByte false) := by
    intro s hs hpar
    obtain ⟨hprefixo, -, hmin, -⟩ : s.toList.take 2 = ['0', 'x'] ∧ s.toList.drop 2 ≠ [] ∧
        (s.toList.drop 2).all hexMinusculo = true ∧ s.toList.length ≤ maxRawChars := by
      simpa [not_or] using falharSe_eq_ok.mp hs
    unfold bytesDoRaw
    rw [hexByte_paresHex hmin (by rw [List.length_drop]; omega), ← hprefixo,
      List.take_append_drop]
  apply String.toList_inj.mp
  rw [htexto a ha hpara, htexto b hb hparb, h]

/-! ## The parts of the signed bytes -/

/-- The items of the list that the buffer encodes. -/
def itensDoRlp (b : Bytes) : List Rlp :=
  match Rlp.decode b with
  | .ok (.lista itens) => itens
  | _ => []

/-- The recovery field: `yParity`, or `v` of the legacy format. -/
def campoDeRecuperacao (raw : Bytes) : Option Rlp :=
  if raw.head? = some 0x02 then (itensDoRlp raw.tail)[9]? else (itensDoRlp raw)[6]?

/-- The signed items of a legacy list; the number in `v` says whether the chain is one. -/
def assinadosLegacy (itens : List Rlp) : List Rlp :=
  let v := (itens[6]?.bind fun v => (v.strictInt "v").toOption).getD 0
  itens.take 6 ++
    if 35 ≤ v then [Rlp.bytes (Rlp.minBytes ((v - 35) / 2)), Rlp.bytes [], Rlp.bytes []] else []

/-- The bytes under the signature, those that `signingHash` digests. -/
def preImagem (raw : Bytes) : Bytes :=
  if raw.head? = some 0x02 then 0x02 :: Rlp.encode (.lista ((itensDoRlp raw.tail).take 9))
  else Rlp.encode (.lista (assinadosLegacy (itensDoRlp raw)))

section

variable {cr : Cripto} {raw : Bytes} {c : CamposEavm}

/-- What the EIP-1559 reader accepts: nine signed items, the recovery field and the
signature. -/
theorem partes_of_camposTipo2 {resto : Bytes} (h : camposTipo2 cr resto = .ok c) :
    ∃ (assinados : List Rlp) (recuperacao : Rlp) (n : ℕ), assinados.length = 9 ∧
      Rlp.decode resto = .ok (.lista (assinados ++
        [recuperacao, Rlp.bytes (Rlp.minBytes c.r), Rlp.bytes (Rlp.minBytes c.s)])) ∧
      recuperacao.strictInt "yParity" = .ok n ∧ c.recId = some n ∧ c.tipo = 2 ∧
      c.signingHash = cr.keccak256 (0x02 :: Rlp.encode (.lista assinados)) := by
  unfold camposTipo2 at h
  obtain ⟨v, hv, h⟩ := except_bind_eq_ok.mp h
  split at h
  · rename_i cid nonce maxPrio maxFee gas para value data accessList yParity r s
    obtain ⟨_, -, h⟩ := except_bind_eq_ok.mp h
    obtain ⟨_, -, h⟩ := except_bind_eq_ok.mp h
    obtain ⟨_, -, h⟩ := except_bind_eq_ok.mp h
    obtain ⟨_, -, h⟩ := except_bind_eq_ok.mp h
    obtain ⟨_, -, h⟩ := except_bind_eq_ok.mp h
    obtain ⟨_, -, h⟩ := except_bind_eq_ok.mp h
    obtain ⟨nr, hr, h⟩ := except_bind_eq_ok.mp h
    obtain ⟨ns, hs, h⟩ := except_bind_eq_ok.mp h
    obtain ⟨_, -, h⟩ := except_bind_eq_ok.mp h
    obtain ⟨n, hn, h⟩ := except_bind_eq_ok.mp h
    obtain ⟨_, hbytes, h⟩ := except_bind_eq_ok.mp h
    cases h
    have hbytes := Rlp.eLista_of_exigeBytes hbytes
    obtain rfl : r = .bytes (Rlp.minBytes nr) :=
      Rlp.item_of_strictInt (hbytes ("r", r) (by simp)) hr
    obtain rfl : s = .bytes (Rlp.minBytes ns) :=
      Rlp.item_of_strictInt (hbytes ("s", s) (by simp)) hs
    exact ⟨[cid, nonce, maxPrio, maxFee, gas, para, value, data, accessList], yParity, n, rfl,
      hv, hn, rfl, rfl, rfl⟩
  · cases h

/-- What the legacy reader accepts: six signed items, `v` and the signature. -/
theorem partes_of_camposLegacy (h : camposLegacy cr raw = .ok c) :
    ∃ (assinados : List Rlp) (v : Rlp) (n : ℕ), assinados.length = 6 ∧
      Rlp.decode raw = .ok (.lista (assinados ++
        [v, Rlp.bytes (Rlp.minBytes c.r), Rlp.bytes (Rlp.minBytes c.s)])) ∧
      v.strictInt "v" = .ok n ∧ c.tipo = 0 ∧
      (35 ≤ n → c.recId = some ((n - 35) % 2) ∧ c.chainId = some ((n - 35) / 2) ∧
        c.signingHash = cr.keccak256 (Rlp.encode (.lista (assinados ++
          [Rlp.bytes (Rlp.minBytes ((n - 35) / 2)), Rlp.bytes [], Rlp.bytes []])))) ∧
      (n < 35 → c.chainId = none) := by
  unfold camposLegacy at h
  obtain ⟨item, hitem, h⟩ := except_bind_eq_ok.mp h
  split at h
  · rename_i nonce gasPrice gas para value data v r s
    obtain ⟨_, -, h⟩ := except_bind_eq_ok.mp h
    obtain ⟨_, -, h⟩ := except_bind_eq_ok.mp h
    obtain ⟨_, -, h⟩ := except_bind_eq_ok.mp h
    obtain ⟨_, -, h⟩ := except_bind_eq_ok.mp h
    obtain ⟨nr, hr, h⟩ := except_bind_eq_ok.mp h
    obtain ⟨ns, hs, h⟩ := except_bind_eq_ok.mp h
    obtain ⟨n, hn, h⟩ := except_bind_eq_ok.mp h
    obtain ⟨_, hbytes, h⟩ := except_bind_eq_ok.mp h
    cases h
    have hbytes := Rlp.eLista_of_exigeBytes hbytes
    obtain rfl : r = .bytes (Rlp.minBytes nr) :=
      Rlp.item_of_strictInt (hbytes ("r", r) (by simp)) hr
    obtain rfl : s = .bytes (Rlp.minBytes ns) :=
      Rlp.item_of_strictInt (hbytes ("s", s) (by simp)) hs
    refine ⟨[nonce, gasPrice, gas, para, value, data], v, n, rfl, hitem, hn, rfl, ?_, ?_⟩
    · intro h35
      exact ⟨if_pos h35, if_pos h35,
        congrArg (fun itens => cr.keccak256 (Rlp.encode (.lista itens))) (if_pos h35)⟩
    · intro h35
      exact if_neg (Nat.not_le_of_lt h35)
  · cases h

theorem de_of_recuperar {de : Address} (h : recuperar cr c = .ok de) :
    ∃ i, c.recId = some i ∧ recoverEthAddress cr c.signingHash c.r c.s i = some de := by
  unfold recuperar at h
  obtain ⟨_, -, h⟩ := except_bind_eq_ok.mp h
  obtain ⟨_, -, h⟩ := except_bind_eq_ok.mp h
  split at h
  · cases h
  · rename_i i hi
    obtain ⟨_, -, h⟩ := except_bind_eq_ok.mp h
    split at h
    · cases h
    · rename_i a ha
      cases h
      exact ⟨i, hi, ha⟩

/-- What an accepted raw text holds. -/
theorem partes_of_decodeRawTransaction {rawHex : String} {parsed : ParsedTx}
    (h : decodeRawTransaction cr rawHex = .ok parsed) :
    ∃ c de, camposDoRaw cr (bytesDoRaw rawHex) = .ok c ∧ recuperar cr c = .ok de ∧
      parsed.de = addrHex de ∧ parsed.chainId = c.chainId ∧ parsed.eavmType = c.tipo := by
  unfold decodeRawTransaction at h
  obtain ⟨_, -, h⟩ := except_bind_eq_ok.mp h
  obtain ⟨c, hc, h⟩ := except_bind_eq_ok.mp h
  obtain ⟨de, hde, h⟩ := except_bind_eq_ok.mp h
  cases h
  exact ⟨c, de, hc, hde, rfl, rfl, rfl⟩

theorem chainId_of_checkParsed {parsed : ParsedTx} (h : checkParsed cr parsed = .ok ()) :
    parsed.chainId = some Config.eavmChainId := by
  unfold checkParsed at h
  obtain ⟨_, hchain, -⟩ := except_bind_eq_ok.mp h
  exact not_not.mp (falharSe_eq_ok.mp hchain)

end

/-! ## Both formats as one -/

/-- Where a format keeps what: the bytes before the list, the items that are signed
after those of the transaction, the name of the recovery field and its number for each
recovery bit. -/
structure Formato where
  cabeca : Bytes
  cauda : List Rlp
  campo : String
  numero : ℕ → ℕ

def formatoDe (tipo : ℕ) : Formato :=
  if tipo = 2 then { cabeca := [0x02], cauda := [], campo := "yParity", numero := fun i => i }
  else {
    cabeca := []
    cauda := [.bytes (Rlp.minBytes Config.eavmChainId), .bytes [], .bytes []]
    campo := "v"
    numero := fun i => 35 + 2 * Config.eavmChainId + i }

section

variable {cr : Cripto} {raw : Bytes} {c : CamposEavm}

theorem itensDoRlp_eq {b : Bytes} {itens : List Rlp} (h : Rlp.decode b = .ok (.lista itens)) :
    itensDoRlp b = itens := by
  unfold itensDoRlp
  rw [h]

theorem assinadosLegacy_eq {itens : List Rlp} {v : Rlp} {n : ℕ} (hv : itens[6]? = some v)
    (hn : v.strictInt "v" = .ok n) (h35 : 35 ≤ n) : assinadosLegacy itens =
      itens.take 6 ++ [Rlp.bytes (Rlp.minBytes ((n - 35) / 2)), Rlp.bytes [], Rlp.bytes []] := by
  have hvalor : (itens[6]?.bind fun v => (v.strictInt "v").toOption).getD 0 = n := by
    rw [hv, Option.bind_some, hn]
    rfl
  unfold assinadosLegacy
  simp only [hvalor, if_pos h35]

/-- The raw bytes of a transaction of this chain, in parts. -/
theorem partes_of_camposDoRaw (h : camposDoRaw cr raw = .ok c)
    (hchain : c.chainId = some Config.eavmChainId) :
    ∃ (assinados : List Rlp) (recuperacao : Rlp) (i : ℕ), c.recId = some i ∧
      recuperacao.strictInt (formatoDe c.tipo).campo = .ok ((formatoDe c.tipo).numero i) ∧
      campoDeRecuperacao raw = some recuperacao ∧
      raw = (formatoDe c.tipo).cabeca ++ Rlp.encode (.lista (assinados ++
        [recuperacao, Rlp.bytes (Rlp.minBytes c.r), Rlp.bytes (Rlp.minBytes c.s)])) ∧
      preImagem raw = (formatoDe c.tipo).cabeca ++
        Rlp.encode (.lista (assinados ++ (formatoDe c.tipo).cauda)) ∧
      c.signingHash = cr.keccak256 (preImagem raw) := by
  cases raw with
  | nil => cases h
  | cons primeiro resto =>
    unfold camposDoRaw at h
    dsimp only at h
    split_ifs at h with hdois hlegacy
    · obtain rfl := hdois
      obtain ⟨assinados, recuperacao, n, hnove, hdecode, hn, hrec, htipo, hhash⟩ :=
        partes_of_camposTipo2 h
      have himagem : preImagem (0x02 :: resto) = 0x02 :: Rlp.encode (.lista assinados) := by
        unfold preImagem
        rw [if_pos (List.head?_cons), List.tail_cons, itensDoRlp_eq hdecode, ← hnove, List.take_left]
      rw [htipo]
      refine ⟨assinados, recuperacao, n, hrec, hn, ?_, ?_, ?_, himagem ▸ hhash⟩
      · unfold campoDeRecuperacao
        rw [if_pos (List.head?_cons), List.tail_cons, itensDoRlp_eq hdecode,
          List.getElem?_append_right hnove.le, hnove]
        rfl
      · exact congrArg (0x02 :: ·) (Rlp.encode_of_decode hdecode)
      · rw [himagem]
        exact (congrArg (fun itens => 0x02 :: Rlp.encode (.lista itens))
          (List.append_nil assinados)).symm
    · obtain ⟨assinados, v, n, hseis, hdecode, hn, htipo, hcom, hsem⟩ :=
        partes_of_camposLegacy h
      have h35 : 35 ≤ n := by
        by_contra hmenor
        rw [hsem (Nat.lt_of_not_le hmenor)] at hchain
        cases hchain
      obtain ⟨hrec, hcid, hhash⟩ := hcom h35
      have hcid : (n - 35) / 2 = Config.eavmChainId := Option.some.inj (hcid.symm.trans hchain)
      have hcabeca : ¬ (primeiro :: resto).head? = some 0x02 := fun h =>
        hdois (Option.some.inj h)
      have hv : (itensDoRlp (primeiro :: resto))[6]? = some v := by
        rw [itensDoRlp_eq hdecode, List.getElem?_append_right hseis.le, hseis]
        rfl
      have himagem : preImagem (primeiro :: resto) = Rlp.encode (.lista (assinados ++
          [Rlp.bytes (Rlp.minBytes Config.eavmChainId), Rlp.bytes [], Rlp.bytes []])) := by
        unfold preImagem
        rw [if_neg hcabeca, assinadosLegacy_eq hv hn h35, hcid, itensDoRlp_eq hdecode, ← hseis,
          List.take_left]
      rw [htipo]
      refine ⟨assinados, v, (n - 35) % 2, hrec, ?_, ?_, Rlp.encode_of_decode hdecode, himagem, ?_⟩
      · have hnumero : n = 35 + 2 * Config.eavmChainId + (n - 35) % 2 := by omega
        exact hn.trans (congrArg Except.ok hnumero)
      · unfold campoDeRecuperacao
        rw [if_neg hcabeca]
        exact hv
      · rw [himagem, hhash, hcid]
    · cases h

theorem cauda_curta (tipo : ℕ) : (Rlp.encodeItens (formatoDe tipo).cauda).length ≤ 8 := by
  unfold formatoDe
  split_ifs <;> decide

theorem paresHex_length_le : ∀ cs : List Char, (paresHex cs).length ≤ cs.length
  | [] => le_rfl
  | [_] => Nat.zero_le _
  | a :: b :: cs => by
    have ih := paresHex_length_le cs
    unfold paresHex
    split
    · rw [List.length_cons, List.length_cons, List.length_cons]
      omega
    · exact Nat.zero_le _

theorem bytesDoRaw_length_le {rawHex : String} (h : verifyRaw rawHex = .ok ()) :
    (bytesDoRaw rawHex).length ≤ maxRawChars := by
  have hcurto : rawHex.toList.length ≤ maxRawChars := by
    have hraw := falharSe_eq_ok.mp h
    simp only [not_or, not_lt] at hraw
    exact hraw.2.2.2
  unfold bytesDoRaw
  refine (paresHex_length_le _).trans ?_
  rw [List.length_drop]
  omega

end

/-! ## One signature, one text -/

/-- The decoder finds one kind, one signing hash, one signature and one sender in both. -/
def MesmaAssinatura (cr : Cripto) (a b : String) : Prop :=
  ∃ c₁ c₂ parsed₁ parsed₂, camposDoRaw cr (bytesDoRaw a) = .ok c₁ ∧
    camposDoRaw cr (bytesDoRaw b) = .ok c₂ ∧ decodeRawTransaction cr a = .ok parsed₁ ∧
    decodeRawTransaction cr b = .ok parsed₂ ∧ c₁.tipo = c₂.tipo ∧
    c₁.signingHash = c₂.signingHash ∧ c₁.r = c₂.r ∧ c₁.s = c₂.s ∧ parsed₁.de = parsed₂.de

/-- The recovery bits of the signature recover different senders. -/
def RecuperaUm (cr : Cripto) (a : String) : Prop :=
  ∀ c, camposDoRaw cr (bytesDoRaw a) = .ok c → ∀ i j de,
    recoverEthAddress cr c.signingHash c.r c.s i = some de →
    recoverEthAddress cr c.signingHash c.r c.s j = some de → i = j

/-- The hash tells the signed bytes of the two texts apart. -/
def AssinadosDistintos (cr : Cripto) (a b : String) : Prop :=
  cr.keccak256 (preImagem (bytesDoRaw a)) = cr.keccak256 (preImagem (bytesDoRaw b)) →
    preImagem (bytesDoRaw a) = preImagem (bytesDoRaw b)

/-- Both recovery fields are byte strings, or they are the same item. -/
def RecuperacaoCanonica (a b : String) : Prop :=
  ∃ i j, campoDeRecuperacao (bytesDoRaw a) = some i ∧ campoDeRecuperacao (bytesDoRaw b) = some j ∧
    (i = j ∨ i.eLista = false ∧ j.eLista = false)

/-- Two accepted raw texts with one signature and one sender are equal exactly when their
recovery fields are written the same way. -/
theorem raw_unico_iff {cr : Cripto} {tx₁ tx₂ : Tx} (h₁ : verifyEavmEnvelope cr tx₁ = .ok ())
    (h₂ : verifyEavmEnvelope cr tx₂ = .ok ()) (hpar₁ : (rawDe tx₁).toList.length % 2 = 0)
    (hpar₂ : (rawDe tx₂).toList.length % 2 = 0)
    (hmesma : MesmaAssinatura cr (rawDe tx₁) (rawDe tx₂))
    (hcolisao : AssinadosDistintos cr (rawDe tx₁) (rawDe tx₂))
    (hrecupera : RecuperaUm cr (rawDe tx₁)) :
    rawDe tx₁ = rawDe tx₂ ↔ RecuperacaoCanonica (rawDe tx₁) (rawDe tx₂) := by
  obtain ⟨c₁, c₂, parsed₁, parsed₂, hc₁, hc₂, hparsed₁, hparsed₂, htipo, hhash, hr, hs, hde⟩ :=
    hmesma
  obtain ⟨_, hconf₁⟩ := verifyEavmEnvelope_iff.mp h₁
  obtain ⟨_, hconf₂⟩ := verifyEavmEnvelope_iff.mp h₂
  obtain rfl := hconf₁.unico hparsed₁
  obtain rfl := hconf₂.unico hparsed₂
  have hraw₁ := hconf₁.raw
  have hraw₂ := hconf₂.raw
  obtain ⟨_, de₁, hca₁, hrec₁, haddr₁, hchain₁, -⟩ := partes_of_decodeRawTransaction hparsed₁
  obtain ⟨_, de₂, hca₂, hrec₂, haddr₂, hchain₂, -⟩ := partes_of_decodeRawTransaction hparsed₂
  obtain rfl := Except.ok.inj (hc₁.symm.trans hca₁)
  obtain rfl := Except.ok.inj (hc₂.symm.trans hca₂)
  obtain ⟨assinados₁, rec₁, i₁, hi₁, hn₁, hcampo₁, hb₁, himagem₁, hsig₁⟩ :=
    partes_of_camposDoRaw hc₁ (hchain₁.symm.trans (chainId_of_checkParsed hconf₁.checado))
  obtain ⟨assinados₂, rec₂, i₂, hi₂, hn₂, hcampo₂, hb₂, himagem₂, hsig₂⟩ :=
    partes_of_camposDoRaw hc₂ (hchain₂.symm.trans (chainId_of_checkParsed hconf₂.checado))
  constructor
  · intro h
    rw [← h] at hcampo₂ ⊢
    exact ⟨rec₁, rec₁, hcampo₁, hcampo₁, .inl rfl⟩
  · rintro ⟨_, _, hitem₁, hitem₂, hcanonica⟩
    obtain rfl := Option.some.inj (hcampo₁.symm.trans hitem₁)
    obtain rfl := Option.some.inj (hcampo₂.symm.trans hitem₂)
    -- The recovery bit is that of the sender.
    have hbit : i₁ = i₂ := by
      obtain ⟨_, hj₁, ha₁⟩ := de_of_recuperar hrec₁
      obtain ⟨_, hj₂, ha₂⟩ := de_of_recuperar hrec₂
      obtain rfl := Option.some.inj (hi₁.symm.trans hj₁)
      obtain rfl := Option.some.inj (hi₂.symm.trans hj₂)
      have hmesmo : de₁ = de₂ := addrHex_inj (haddr₁.symm.trans (hde.trans haddr₂))
      rw [← hhash, ← hr, ← hs, ← hmesmo] at ha₂
      exact hrecupera _ hc₁ _ _ _ ha₁ ha₂
    have hrec : rec₁ = rec₂ := by
      rcases hcanonica with h | ⟨hbytes₁, hbytes₂⟩
      · exact h
      · rw [Rlp.item_of_strictInt hbytes₁ hn₁, Rlp.item_of_strictInt hbytes₂ hn₂, htipo, hbit]
    -- The signed items are those under the common hash.
    have hassinados : assinados₁ = assinados₂ := by
      have himagem := hcolisao (hsig₁.symm.trans (hhash.trans hsig₂))
      rw [himagem₁, himagem₂, htipo] at himagem
      have hcurto : (Rlp.encodeItens (assinados₁ ++ (formatoDe c₂.tipo).cauda)).length <
          2 ^ 16 := by
        have htotal := bytesDoRaw_length_le hraw₁
        have hcorpo := Rlp.encodeItens_le_encode
          (assinados₁ ++ [rec₁, .bytes (Rlp.minBytes c₁.r), .bytes (Rlp.minBytes c₁.s)])
        have hcauda := cauda_curta c₂.tipo
        rw [hb₁, List.length_append] at htotal
        rw [Rlp.encodeItens_append, List.length_append] at hcorpo ⊢
        unfold maxRawChars at htotal
        omega
      have hlista := Rlp.encode_inj (List.append_cancel_left himagem) (Rlp.encode_lista_lt hcurto)
      exact List.append_cancel_right (Rlp.lista.inj hlista)
    apply raw_inj hraw₁ hraw₂ hpar₁ hpar₂
    rw [hb₁, hb₂, htipo, hassinados, hrec, hr, hs]

/-! ## A list in the recovery field -/

theorem recuperaUm_carteira (a : String) : RecuperaUm criptoCarteira a := by
  have hzero : ∀ hash r s i de, recoverEthAddress criptoCarteira hash r s i = some de → i = 0 := by
    intro hash r s i de h
    by_contra hi
    have hnone : criptoCarteira.recupera hash (bytesDeNatural 32 r) (bytesDeNatural 32 s) i =
        none := if_neg hi
    unfold recoverEthAddress at h
    rw [hnone] at h
    cases h
  intro c _ i j de hi hj
  rw [hzero _ _ _ _ _ hi, hzero _ _ _ _ _ hj]

/-- What the decoder finds under the signature of a text. -/
def assinaturaLida (cr : Cripto) (a : String) : Option (ℕ × Bytes × ℕ × ℕ × String) :=
  (camposDoRaw cr (bytesDoRaw a)).toOption.bind fun c =>
    (decodeRawTransaction cr a).toOption.map fun parsed =>
      (c.tipo, c.signingHash, c.r, c.s, parsed.de)

theorem assinaturaLida_eq_some {cr : Cripto} {a : String} {x : ℕ × Bytes × ℕ × ℕ × String}
    (h : assinaturaLida cr a = some x) : ∃ c parsed, camposDoRaw cr (bytesDoRaw a) = .ok c ∧
      decodeRawTransaction cr a = .ok parsed ∧ x = (c.tipo, c.signingHash, c.r, c.s, parsed.de) := by
  obtain ⟨c, hc, h⟩ := Option.bind_eq_some_iff.mp h
  obtain ⟨parsed, hparsed, rfl⟩ := Option.map_eq_some_iff.mp h
  have hok : ∀ {α : Type} {m : Falha α} {x : α}, m.toOption = some x → m = .ok x := by
    intro α m x hm
    cases m with
    | ok y => exact congrArg Except.ok (Option.some.inj hm)
    | error e => cases hm
  exact ⟨c, parsed, hok hc, hok hparsed, rfl⟩

theorem mesmaAssinatura_of_lida {cr : Cripto} {a b : String}
    {x : ℕ × Bytes × ℕ × ℕ × String} (ha : assinaturaLida cr a = some x)
    (hb : assinaturaLida cr b = some x) : MesmaAssinatura cr a b := by
  obtain ⟨c₁, parsed₁, hc₁, hparsed₁, h₁⟩ := assinaturaLida_eq_some ha
  obtain ⟨c₂, parsed₂, hc₂, hparsed₂, h₂⟩ := assinaturaLida_eq_some hb
  have hcampos := h₁.symm.trans h₂
  simp only [Prod.mk.injEq] at hcampos
  exact ⟨c₁, c₂, parsed₁, parsed₂, hc₁, hc₂, hparsed₁, hparsed₂, hcampos⟩

/-- The wallet's transfer is accepted with a byte string in the recovery field. -/
instance carteira_aceita : Fact (aceitaCarteira 0 (.bytes []) false = true) where
  out := by
    unfold aceitaCarteira
    rw [criptoCarteira_eq]
    decide +kernel

/-- The same transfer is accepted with a list there. -/
instance carteira_com_lista : Fact (aceitaCarteira 0 (.lista []) false = true) where
  out := by
    unfold aceitaCarteira
    rw [criptoCarteira_eq]
    decide +kernel

/-- The two texts differ, and carry one signature. -/
instance raws_carteira : Fact (assinaturaLida criptoCarteira (rawCarteira 0 (.bytes [])) =
      assinaturaLida criptoCarteira (rawCarteira 0 (.lista [])) ∧
    (assinaturaLida criptoCarteira (rawCarteira 0 (.lista []))).isSome = true ∧
    (rawCarteira 0 (.bytes [])).toList.length % 2 = 0 ∧
    (rawCarteira 0 (.lista [])).toList.length % 2 = 0 ∧
    preImagem (bytesDoRaw (rawCarteira 0 (.bytes []))) =
      preImagem (bytesDoRaw (rawCarteira 0 (.lista []))) ∧
    rawCarteira 0 (.bytes []) ≠ rawCarteira 0 (.lista [])) where
  out := by
    rw [criptoCarteira_eq]
    decide +kernel

theorem mesma_carteira :
    MesmaAssinatura criptoCarteira (rawCarteira 0 (.bytes [])) (rawCarteira 0 (.lista [])) := by
  obtain ⟨hlidas, hlida, -⟩ := raws_carteira.out
  obtain ⟨x, hx⟩ := Option.isSome_iff_exists.mp hlida
  exact mesmaAssinatura_of_lida (hlidas.trans hx) hx

/-- One signature is accepted in two texts: the recovery bit as the empty byte string, and
as the empty list. -/
theorem dois_raws_da_mesma_assinatura : ¬ ∀ (cr : Cripto) (tx₁ tx₂ : Tx),
    verifyEavmEnvelope cr tx₁ = .ok () → verifyEavmEnvelope cr tx₂ = .ok () →
    (rawDe tx₁).toList.length % 2 = 0 → (rawDe tx₂).toList.length % 2 = 0 →
    MesmaAssinatura cr (rawDe tx₁) (rawDe tx₂) →
    AssinadosDistintos cr (rawDe tx₁) (rawDe tx₂) → RecuperaUm cr (rawDe tx₁) →
    rawDe tx₁ = rawDe tx₂ := by
  intro h
  obtain ⟨hver₁, hraw₁⟩ := verify_txCarteira carteira_aceita.out
  obtain ⟨hver₂, hraw₂⟩ := verify_txCarteira carteira_com_lista.out
  obtain ⟨-, -, hpar₁, hpar₂, himagem, hdistintos⟩ := raws_carteira.out
  have higuais := h criptoCarteira _ _ hver₁ hver₂
  rw [hraw₁, hraw₂] at higuais
  exact hdistintos (higuais hpar₁ hpar₂ mesma_carteira (fun _ => himagem) (recuperaUm_carteira _))

/-- The wallet's transfer with a byte string in the recovery field, and itself. -/
theorem raw_unico_carteira : RecuperacaoCanonica (rawDe (txCarteira 0 (.bytes []) false))
    (rawDe (txCarteira 0 (.bytes []) false)) := by
  obtain ⟨hver, hraw⟩ := verify_txCarteira carteira_aceita.out
  have hmesma : MesmaAssinatura criptoCarteira (rawCarteira 0 (.bytes []))
      (rawCarteira 0 (.bytes [])) := by
    obtain ⟨c, -, parsed, -, hc, -, hparsed, -⟩ := mesma_carteira
    exact ⟨c, c, parsed, parsed, hc, hc, hparsed, hparsed, rfl, rfl, rfl, rfl, rfl⟩
  rw [← hraw] at hmesma
  have hpar : (rawDe (txCarteira 0 (.bytes []) false)).toList.length % 2 = 0 := by
    rw [hraw]
    exact raws_carteira.out.2.2.1
  exact (raw_unico_iff hver hver hpar hpar hmesma (fun _ => rfl) (recuperaUm_carteira _)).mp rfl

end Eav7
