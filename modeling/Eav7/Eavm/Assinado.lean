import Mathlib.Data.String.Basic
import Eav7.EfeitoDoId

/-!
# What a raw text fixes of its envelope

The builder and the verifier of envelopes map the fields of a signed transaction alike: what
the first builds the second accepts, and what the second accepts is a function of the raw text,
up to the nonces that a double cannot tell apart.
-/

namespace Eav7

open Base Eavm

/-! ## The lower case of a raw text -/

/-- What the lower case of the standard library does on ASCII text, and that no other character
has a hexadecimal digit or an `x` for its lower case. -/
structure MinusculasDoPadrao (lower : String → String) : Prop where
  ascii : ∀ s, (∀ c ∈ s.toList, c.toNat < 128) → lower s = minusculas s
  hexadecimal : ∀ s, (∀ c ∈ (lower s).toList, (digito? 16 c).isSome = true ∨ c = 'x') →
    ∀ c ∈ s.toList, c.toNat < 128

theorem length_le_utf8ByteSize (s : String) : s.toList.length ≤ s.utf8ByteSize := by
  have h : ∀ cs : List Char, cs.length ≤ String.utf8Len cs := by
    intro cs
    induction cs with
    | nil => exact Nat.zero_le _
    | cons c cs ih =>
      rw [String.utf8Len_cons, List.length_cons]
      exact Nat.add_le_add ih c.utf8Size_pos
  calc s.toList.length ≤ String.utf8Len s.toList := h _
    _ = s.utf8ByteSize := by rw [← String.utf8ByteSize_ofList, String.ofList_toList]

theorem hexMinusculo_of_minuscula {c : Char} (hc : c.toNat < 128)
    (h : (digito? 16 (asciiMinuscula c)).isSome = true) : hexMinusculo (asciiMinuscula c) = true := by
  have htabela : ∀ n < 128, (digito? 16 (asciiMinuscula (Char.ofNat n))).isSome = true →
      hexMinusculo (asciiMinuscula (Char.ofNat n)) = true := by decide
  have hletra := htabela c.toNat hc
  rw [Char.ofNat_toNat] at hletra
  exact hletra h

section

variable {cr : Cripto} {rawHex : String} {parsed : ParsedTx}

/-- A raw text in lower case that can be read is one that the verifier takes. -/
theorem verifyRaw_of_lido (hlower : MinusculasDoPadrao cr.toLowercase)
    (htamanho : rawHex.utf8ByteSize ≤ maxRawChars)
    (h : decodeRawTransaction cr (cr.toLowercase rawHex) = .ok parsed) :
    verifyRaw (cr.toLowercase rawHex) = .ok () := by
  unfold decodeRawTransaction at h
  obtain ⟨_, hforma, -⟩ := except_bind_eq_ok.mp h
  obtain ⟨hprefixo, hforma⟩ := not_or.mp (falharSe_eq_ok.mp hforma)
  obtain ⟨hcorpo, hdigitos⟩ := not_or.mp hforma
  have hdigito : ∀ c ∈ (cr.toLowercase rawHex).toList.drop 2, (digito? 16 c).isSome = true := by
    intro c hc
    rw [List.any_eq_true] at hdigitos
    exact Option.isSome_iff_ne_none.mpr fun hnada =>
      hdigitos ⟨c, hc, Option.isNone_iff_eq_none.mpr hnada⟩
  have hhexadecimal : ∀ c ∈ (cr.toLowercase rawHex).toList,
      (digito? 16 c).isSome = true ∨ c = 'x' := by
    intro c hc
    rw [← List.take_append_drop 2 (cr.toLowercase rawHex).toList, List.mem_append,
      not_not.mp hprefixo] at hc
    rcases hc with hc | hc
    · rcases List.mem_pair.mp hc with rfl | rfl
      · exact .inl (by decide)
      · exact .inr rfl
    · exact .inl (hdigito c hc)
  have hascii := hlower.hexadecimal rawHex hhexadecimal
  have hmesmas := hlower.ascii rawHex hascii
  unfold verifyRaw
  refine falharSe_eq_ok.mpr (not_or.mpr ⟨hprefixo, not_or.mpr ⟨?_, not_or.mpr ⟨?_, ?_⟩⟩⟩)
  · intro hvazio
    rw [hvazio] at hcorpo
    exact hcorpo (by decide)
  · refine ne_false_of_eq_true (List.all_eq_true.mpr fun c hc => ?_)
    have hletra : c ∈ (minusculas rawHex).toList := by
      rw [← hmesmas]
      exact List.mem_of_mem_drop hc
    unfold minusculas at hletra
    rw [String.toList_ofList] at hletra
    obtain ⟨d, hd, rfl⟩ := List.mem_map.mp hletra
    exact hexMinusculo_of_minuscula (hascii d hd) (hdigito _ hc)
  · rw [hmesmas, minusculas, String.toList_ofList, List.length_map]
    exact not_lt.mpr ((length_le_utf8ByteSize rawHex).trans htamanho)

end

/-! ## What the signed bytes fix -/

/-- The fields of an envelope that its execution reads. -/
structure Assinado where
  txType : String
  de : String
  para : Option String
  amount : String
  code : String
  alvo : String
  input : String
  deriving DecidableEq

def Tx.assinado (tx : Tx) : Assinado :=
  { txType := tx.txType, de := tx.de, para := tx.para, amount := tx.amount
    code := EavmTx.campoTexto tx "code", alvo := EavmTx.campoTexto tx "to"
    input := EavmTx.campoTexto tx "input" }

/-- The same fields, from the raw text alone. -/
def assinadoDoRaw (cr : Cripto) (raw : String) : Option Assinado := do
  let parsed ← (decodeRawTransaction cr raw).toOption
  let de ← cr.eavmToE7 parsed.de
  let tipo := classify cr parsed
  return {
    txType := tipo.asStr
    de := de
    para := if tipo.op.isSome ∨ tipo.isContract then none
      else (destE7For cr (parsed.para.getD "")).toOption
    amount := toString (parsed.value / Config.eavmWeiPerE7)
    code := if tipo = .deploy then parsed.dataHex else ""
    alvo := if tipo = .call then cr.toLowercase (parsed.para.getD "") else ""
    input := if tipo = .call then parsed.dataHex else "" }

/-- The signed nonce, as a double. -/
def nonceDoRaw (cr : Cripto) (raw : String) : Option ℚ :=
  (decodeRawTransaction cr raw).toOption.bind (·.nonce)

section

variable {cr : Cripto} {tx : Tx} {parsed : ParsedTx}

theorem assinado_of_conferido (h : Conferido cr tx parsed) :
    assinadoDoRaw cr (rawDe tx) = some tx.assinado := by
  obtain ⟨hcode, halvo, hinput⟩ := campos_of_verifyContrato h.contrato
  unfold assinadoDoRaw Tx.assinado
  rw [h.lido, hcode, halvo, hinput, h.tipo, h.amount, para_of_verifyDestino h.destino]
  change (cr.eavmToE7 parsed.de).bind _ = _
  rw [h.de]
  rfl

/-- A nonce that a double tells apart is the one after the signed nonce. -/
theorem nonce_of_confere {nonce : ℤ} {n : ℕ} (hn : n + 1 < 2 ^ 53)
    (h : nonceConfere nonce (some (n : ℚ)) = true) : nonce = n + 1 := by
  have hproximo : Binary64.nearest (nonce : ℚ) = ((n + 1 : ℕ) : ℚ) := by
    rw [← Binary64.nearest_of_lt hn, Nat.cast_add, Nat.cast_one]
    exact beq_iff_eq.mp h
  cases nonce with
  | ofNat k =>
    rw [Int.ofNat_eq_natCast, Int.cast_natCast] at hproximo
    have hk : k < 2 ^ 53 := by
      by_contra hgrande
      have hpotencia := Binary64.two_pow_le_nearest (by decide) (not_lt.mp hgrande)
      rw [hproximo] at hpotencia
      exact absurd (by exact_mod_cast hpotencia) (not_le.mpr hn)
    rw [Binary64.nearest_of_lt hk] at hproximo
    have hmesmo : k = n + 1 := by exact_mod_cast hproximo
    rw [hmesmo]
    rfl
  | negSucc k =>
    have hnegativo : Binary64.nearest ((Int.negSucc k : ℤ) : ℚ) ≤ 0 :=
      Binary64.nearest_nonpos (by exact_mod_cast (Int.negSucc_lt_zero k).le)
    rw [hproximo] at hnegativo
    exact absurd (by exact_mod_cast hnegativo) (Nat.not_succ_le_zero n)

end

theorem ascii_of_digito {c : Char} (h : (digito? 16 c).isSome = true ∨ c = 'x') : c.toNat < 128 := by
  rcases h with h | rfl
  · unfold digito? at h
    have hfaixa : ∀ {a b : Char}, b.toNat < 128 → a ≤ c ∧ c ≤ b → c.toNat < 128 :=
      fun hb hc => lt_of_le_of_lt hc.2 hb
    dsimp only at h
    split_ifs at h with hdigito hminuscula hmaiuscula
    · exact hfaixa (by decide) hdigito
    · exact hfaixa (by decide) hminuscula
    · exact hfaixa (by decide) hmaiuscula
    · cases h
  · decide

theorem toLower_de_fora {c : Char} (h : ¬ c.toNat < 128) : c.toLower = c := by
  unfold Char.toLower
  rw [dif_neg]
  rintro ⟨-, hz⟩
  exact h (lt_of_le_of_lt (UInt32.le_iff_toNat_le.mp hz) (by decide))

theorem minusculasDoPadrao_toLower : MinusculasDoPadrao String.toLower where
  ascii s h := by
    have htabela : ∀ n < 128, (Char.ofNat n).toLower = asciiMinuscula (Char.ofNat n) := by decide
    refine String.toList_inj.mp ?_
    unfold String.toLower minusculas
    rw [String.toList_map, String.toList_ofList]
    refine List.map_congr_left fun c hc => ?_
    have hletra := htabela c.toNat (h c hc)
    rwa [Char.ofNat_toNat] at hletra
  hexadecimal s h c hc := by
    by_contra hfora
    refine hfora (ascii_of_digito (h c ?_))
    unfold String.toLower
    rw [String.toList_map]
    exact List.mem_map.mpr ⟨c, hc, toLower_de_fora hfora⟩

/-- The wallet's fifth transfer has an envelope, with any timestamp. -/
instance quinta_da_carteira : Fact ((∀ timestamp ∈ [0, 1],
      (buildEavmEnvelope criptoCarteira (rawCarteira 4 (.bytes [])) timestamp
        fun _ => false).toOption.map (·.timestamp) = some timestamp) ∧
    nonceDoRaw criptoCarteira (rawDe (txCarteira 4 (.bytes []) false)) = some ((4 : ℕ) : ℚ)) where
  out := by
    unfold txCarteira
    rw [criptoCarteira_eq]
    decide +kernel

end Eav7
