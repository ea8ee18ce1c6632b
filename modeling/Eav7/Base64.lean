import Eav7.Base.Bits
import Eav7.Consenso
import Eav7.IdaEVolta

/-!
# The Base64 of keys and signatures

The decoder works on the bytes of the text with a 32-bit accumulator that it never clears.
Both directions are read as sequences of bits: six for a letter, eight for a byte.
-/

namespace Eav7

open Base.Bits Leitor

/-! ## The decoder on bytes -/

def base64ValorByte (c : UInt8) : Option UInt32 :=
  if 65 ≤ c ∧ c ≤ 90 then some (c - 65).toUInt32
  else if 97 ≤ c ∧ c ≤ 122 then some ((c - 97).toUInt32 + 26)
  else if 48 ≤ c ∧ c ≤ 57 then some ((c - 48).toUInt32 + 52)
  else if c = 43 ∨ c = 45 then some 62
  else if c = 47 ∨ c = 95 then some 63
  else none

/-- The loop over the bytes, with the accumulator and the pending bits as machine words. -/
def base64Percorre : Bytes → (acumulador bits : UInt32) → Bytes
  | [], _, _ => []
  | c :: cs, acumulador, bits =>
    if c = 61 then []
    else match base64ValorByte c with
      | none => base64Percorre cs acumulador bits
      | some v =>
        let acumulador := acumulador <<< 6 ||| v
        let bits := bits + 6
        if 8 ≤ bits then
          (acumulador >>> (bits - 8)).toUInt8 :: base64Percorre cs acumulador (bits - 8)
        else base64Percorre cs acumulador bits

def base64DecodeStr (entrada : String) : Option Bytes :=
  some (base64Percorre (bytesDe entrada) 0 0)

/-! ## The letters -/

def base64UrlAlfabeto : List Char :=
  "ABCDEFGHIJKLMNOPQRSTUVWXYZabcdefghijklmnopqrstuvwxyz0123456789-_".toList

def base64Letra (c : Char) : Bool := c ∈ base64Alfabeto || c ∈ base64UrlAlfabeto

/-- The letter of the classic alphabet for one of either alphabet. -/
def base64Classica (c : Char) : Char :=
  if c = '-' then '+' else if c = '_' then '/' else c

/-- The text up to the first padding sign, its letters only, in the classic alphabet. -/
def base64Limpo (cs : List Char) : List Char :=
  ((cs.takeWhile (· ≠ '=')).filter base64Letra).map base64Classica

def base64Valores (cs : List Char) : List ℕ := (cs.takeWhile (· ≠ '=')).filterMap base64Valor

/-- The bits a text stands for. -/
def base64Bits (cs : List Char) : List Bool := (base64Valores cs).flatMap (escrita 6)

def bitsDosBytes (bs : Bytes) : List Bool := (bs.map UInt8.toNat).flatMap (escrita 8)

/-! ## The tables -/

/-- The bytes of an alphabet: letters, digits and its two signs. -/
def letrasCom (sinais : List ℕ) : List Char :=
  (List.range' 65 26 ++ List.range' 97 26 ++ List.range' 48 10 ++ sinais).map Char.ofNat

/-- What the tables of the two alphabets say, entry by entry. -/
structure TabelasBase64 : Prop where
  valorByte : ∀ n < 128,
    (base64ValorByte (UInt8.ofNat n)).map UInt32.toNat = base64Valor (Char.ofNat n) ∧
      (base64Valor (Char.ofNat n)).isSome = base64Letra (Char.ofNat n)
  limite : ∀ n < 256,
    (base64ValorByte (UInt8.ofNat n)).all (fun v => decide (n < 128 ∧ v.toNat < 64)) = true
  letras : (base64Alfabeto ++ base64UrlAlfabeto).all (fun c => decide (c.toNat < 128)) = true
  classica : (base64Alfabeto ++ base64UrlAlfabeto).all (fun c => decide
    (base64Classica c ∈ base64Alfabeto ∧ base64Valor (base64Classica c) = base64Valor c)) = true
  digito : ∀ n < 64, base64Alfabeto.getD n 'A' ≠ '=' ∧
    base64Valor (base64Alfabeto.getD n 'A') = some n
  sinal : base64Alfabeto.all (· != '=') = true

instance tabelasBase64 : Fact TabelasBase64 where
  out := by
    have halfabeto : base64Alfabeto = letrasCom [43, 47] := by decide +kernel
    have hurl : base64UrlAlfabeto = letrasCom [45, 95] := by decide +kernel
    refine ⟨?_, ?_, ?_, ?_, ?_, ?_⟩
    · simp only [base64Letra, halfabeto, hurl]
      decide +kernel
    · decide +kernel
    · rw [halfabeto, hurl]
      decide +kernel
    · rw [halfabeto, hurl]
      decide +kernel
    · rw [halfabeto]
      decide +kernel
    · rw [halfabeto]
      decide +kernel

/-- The table of the bytes against the one of the letters. -/
theorem base64ValorByte_ofNat {n : ℕ} (h : n < 128) :
    (base64ValorByte (UInt8.ofNat n)).map UInt32.toNat = base64Valor (Char.ofNat n) ∧
      (base64Valor (Char.ofNat n)).isSome = base64Letra (Char.ofNat n) :=
  tabelasBase64.out.valorByte n h

theorem base64ValorByte_lt {c : UInt8} {v : UInt32} (h : base64ValorByte c = some v) :
    c.toNat < 128 ∧ v.toNat < 64 := by
  have htabela := tabelasBase64.out.limite c.toNat c.toNat_lt
  rw [UInt8.ofNat_toNat, h] at htabela
  exact of_decide_eq_true htabela

theorem base64Valor_baixo {c : Char} (h : c.toNat < 128) {b : UInt8} (hb : b.toNat = c.toNat) :
    (base64ValorByte b).map UInt32.toNat = base64Valor c ∧
      (base64Valor c).isSome = base64Letra c := by
  have htabela := base64ValorByte_ofNat h
  rwa [← hb, UInt8.ofNat_toNat, hb, Char.ofNat_toNat] at htabela

theorem base64Letra_lt {c : Char} (h : base64Letra c = true) : c.toNat < 128 := by
  refine of_decide_eq_true (List.all_eq_true.mp tabelasBase64.out.letras c ?_)
  refine List.mem_append.mpr ?_
  simpa [base64Letra] using h

theorem base64Valor_alto {c : Char} (h : 128 ≤ c.toNat) : base64Valor c = none := by
  have hle : ∀ {d : Char}, d.toNat < 128 → ¬ c ≤ d := by
    intro d hd hc
    have hcd : c.toNat ≤ d.toNat := UInt32.le_iff_toNat_le.mp (Char.le_def.mp hc)
    omega
  have hne : ∀ {d : Char}, d.toNat < 128 → c ≠ d := fun hd hc => hle hd (le_of_eq hc)
  unfold base64Valor
  rw [if_neg fun hc => hle (by decide) hc.2, if_neg fun hc => hle (by decide) hc.2,
    if_neg fun hc => hle (by decide) hc.2,
    if_neg (not_or.mpr ⟨hne (by decide), hne (by decide)⟩),
    if_neg (not_or.mpr ⟨hne (by decide), hne (by decide)⟩)]

theorem isSome_base64Valor (c : Char) : (base64Valor c).isSome = base64Letra c := by
  by_cases h : c.toNat < 128
  · obtain ⟨b, -, hb, -⟩ := utf8_ascii h
    exact (base64Valor_baixo h hb).2
  · rw [base64Valor_alto (Nat.le_of_not_lt h)]
    exact (Bool.eq_false_iff.mpr fun hletra => h (base64Letra_lt hletra)).symm

theorem base64Valor_lt {c : Char} {v : ℕ} (h : base64Valor c = some v) : v < 64 := by
  by_cases hc : c.toNat < 128
  · obtain ⟨b, -, hb, -⟩ := utf8_ascii hc
    rw [← (base64Valor_baixo hc hb).1] at h
    obtain ⟨w, hw, rfl⟩ := Option.map_eq_some_iff.mp h
    exact (base64ValorByte_lt hw).2
  · rw [base64Valor_alto (Nat.le_of_not_lt hc)] at h
    cases h

theorem base64Classica_mem {c : Char} (h : base64Letra c = true) :
    base64Classica c ∈ base64Alfabeto ∧ base64Valor (base64Classica c) = base64Valor c := by
  refine of_decide_eq_true (List.all_eq_true.mp tabelasBase64.out.classica c ?_)
  refine List.mem_append.mpr ?_
  simpa [base64Letra] using h

theorem base64Valor_digito (n : ℕ) :
    base64Digito n ≠ '=' ∧ base64Valor (base64Digito n) = some (n % 64) :=
  tabelasBase64.out.digito (n % 64) (Nat.mod_lt n (by decide))

/-! ## The values of a text -/

theorem base64Valores_cons {c : Char} (h : c ≠ '=') (cs : List Char) :
    base64Valores (c :: cs) = (base64Valor c).toList ++ base64Valores cs := by
  unfold base64Valores
  rw [List.takeWhile_cons_of_pos (by simpa using h), List.filterMap_cons]
  cases base64Valor c <;> rfl

theorem lt_of_mem_base64Valores {cs : List Char} : ∀ v ∈ base64Valores cs, v < 2 ^ 6 := by
  intro v hv
  obtain ⟨c, -, hc⟩ := List.mem_filterMap.mp hv
  exact base64Valor_lt hc

/-- What is not a letter of either alphabet changes nothing. -/
theorem base64Valores_limpo (cs : List Char) :
    base64Valores (base64Limpo cs) = base64Valores cs := by
  induction cs with
  | nil => rfl
  | cons c cs ih =>
    by_cases hfim : c = '='
    · rw [hfim]
      rfl
    have hcorta : base64Limpo (c :: cs) =
        (if base64Letra c then [base64Classica c] else []) ++ base64Limpo cs := by
      unfold base64Limpo
      rw [List.takeWhile_cons_of_pos (by simpa using hfim), List.filter_cons]
      split_ifs <;> rfl
    rw [hcorta, base64Valores_cons hfim]
    by_cases hletra : base64Letra c = true
    · obtain ⟨hmem, hvalor⟩ := base64Classica_mem hletra
      have hsinal := bne_iff_ne.mp (List.all_eq_true.mp tabelasBase64.out.sinal _ hmem)
      rw [if_pos hletra, List.singleton_append, base64Valores_cons hsinal, hvalor, ih]
    · have hvalor : base64Valor c = none := by
        rwa [← isSome_base64Valor, Bool.not_eq_true, Option.isSome_eq_false_iff,
          Option.isNone_iff_eq_none] at hletra
      rw [if_neg hletra, hvalor, List.nil_append, ih]
      rfl

theorem mem_alfabeto_of_limpo {cs : List Char} : ∀ c ∈ base64Limpo cs, c ∈ base64Alfabeto := by
  intro c hc
  obtain ⟨d, hd, rfl⟩ := List.mem_map.mp hc
  exact (base64Classica_mem (List.mem_filter.mp hd).2).1

/-- The values the loop over the bytes sees. -/
def base64ValoresBytes (bs : Bytes) : List ℕ :=
  (bs.takeWhile (· ≠ 61)).filterMap fun b => (base64ValorByte b).map UInt32.toNat

theorem base64ValoresBytes_cons {b : UInt8} (h : b ≠ 61) (bs : Bytes) :
    base64ValoresBytes (b :: bs) =
      ((base64ValorByte b).map UInt32.toNat).toList ++ base64ValoresBytes bs := by
  unfold base64ValoresBytes
  rw [List.takeWhile_cons_of_pos (by simpa using h), List.filterMap_cons]
  cases base64ValorByte b <;> rfl

theorem base64ValoresBytes_alto {bs resto : Bytes} (h : ∀ b ∈ bs, 128 ≤ b.toNat) :
    base64ValoresBytes (bs ++ resto) = base64ValoresBytes resto := by
  induction bs with
  | nil => rfl
  | cons b bs ih =>
    obtain ⟨hb, hbs⟩ := List.forall_mem_cons.mp h
    have hfim : b ≠ 61 := by
      rintro rfl
      exact absurd hb (by decide)
    have hvalor : base64ValorByte b = none := by
      rw [← Option.not_isSome_iff_eq_none, Option.isSome_iff_exists]
      rintro ⟨v, hv⟩
      exact absurd (base64ValorByte_lt hv).1 (by omega)
    rw [List.cons_append, base64ValoresBytes_cons hfim, hvalor, ih hbs]
    rfl

theorem base64ValoresBytes_utf8 (cs : List Char) :
    base64ValoresBytes (cs.flatMap String.utf8EncodeChar) = base64Valores cs := by
  induction cs with
  | nil => rfl
  | cons c cs ih =>
    rw [List.flatMap_cons]
    by_cases hc : c.toNat < 128
    · obtain ⟨b, hutf8, hb, -⟩ := utf8_ascii hc
      rw [hutf8, List.singleton_append]
      by_cases hfim : c = '='
      · have hb61 : b = 61 := UInt8.toNat_inj.mp (by rw [hb, hfim]; rfl)
        rw [hfim, hb61]
        rfl
      · have hb61 : b ≠ 61 := by
          rintro rfl
          exact hfim (Char.toNat_inj.mp hb.symm)
        rw [base64ValoresBytes_cons hb61, base64Valores_cons hfim, (base64Valor_baixo hc hb).1, ih]
    · have halto := Nat.le_of_not_lt hc
      have hfim : c ≠ '=' := by
        rintro rfl
        exact hc (by decide)
      rw [base64ValoresBytes_alto fun b hb => utf8_alto halto hb, base64Valores_cons hfim,
        base64Valor_alto halto, ih]
      rfl

/-! ## The two loops as the machine of six to eight bits -/

theorem toNat_acumula (acumulador : UInt32) {v : UInt32} (hv : v.toNat < 64) :
    (acumulador <<< 6 ||| v).toNat = acumulador.toNat * 2 ^ 6 % 2 ^ 32 + v.toNat := by
  have hmod : acumulador.toNat * 2 ^ 6 % 2 ^ 32 = 2 ^ 6 * (acumulador.toNat % 2 ^ 26) := by
    rw [Nat.mul_comm, show (2 : ℕ) ^ 32 = 2 ^ 6 * 2 ^ 26 by norm_num, Nat.mul_mod_mul_left]
  rw [UInt32.toNat_or, UInt32.toNat_shiftLeft, Nat.shiftLeft_eq]
  change acumulador.toNat * 2 ^ 6 % 2 ^ 32 ||| v.toNat = _
  rw [hmod, Nat.two_pow_add_eq_or_of_lt hv]

theorem base64Percorre_eq (cs : Bytes) (acumulador : UInt32) {bits : UInt32}
    (hbits : bits.toNat < 8) :
    (base64Percorre cs acumulador bits).map UInt8.toNat =
      regrupa 6 8 32 (base64ValoresBytes cs) acumulador.toNat bits.toNat := by
  induction cs generalizing acumulador bits with
  | nil => rfl
  | cons c cs ih =>
    unfold base64Percorre
    split_ifs with hfim
    · rw [hfim]
      rfl
    rw [base64ValoresBytes_cons hfim]
    cases hvalor : base64ValorByte c with
    | none => exact ih acumulador hbits
    | some v =>
      have hseis : (bits + 6).toNat = bits.toNat + 6 := by
        rw [UInt32.toNat_add]
        exact Nat.mod_eq_of_lt (by change bits.toNat + 6 < _; omega)
      have hacumula := toNat_acumula acumulador (base64ValorByte_lt hvalor).2
      have hcompleto : (8 : UInt32) ≤ bits + 6 ↔ 8 ≤ bits.toNat + 6 := by
        rw [UInt32.le_iff_toNat_le, hseis]
        rfl
      simp only [Option.map_some, Option.toList_some, List.singleton_append, regrupa]
      by_cases h : 8 ≤ bits.toNat + 6
      · have hsobra : (bits + 6 - 8).toNat = bits.toNat + 6 - 8 := by
          rw [UInt32.toNat_sub_of_le _ _ (hcompleto.mpr h), hseis]
          rfl
        rw [if_pos (hcompleto.mpr h), if_pos h, List.map_cons, ih _ (by omega), hsobra, hacumula,
          UInt32.toNat_toUInt8, UInt32.toNat_shiftRight, hsobra, hacumula,
          Nat.mod_eq_of_lt (show bits.toNat + 6 - 8 < 32 by omega), Nat.shiftRight_eq_div_pow]
      · rw [if_neg fun h' => h (hcompleto.mp h'), if_neg h, ih _ (by omega), hseis, hacumula]

theorem base64Laco_eq (cs : List Char) (acumulador bits : ℕ) :
    (base64Laco cs acumulador bits).map UInt8.toNat =
      regrupa 6 8 32 (base64Valores cs) acumulador bits := by
  induction cs generalizing acumulador bits with
  | nil => rfl
  | cons c cs ih =>
    unfold base64Laco
    split_ifs with hfim
    · rw [hfim]
      rfl
    rw [base64Valores_cons hfim]
    cases hvalor : base64Valor c with
    | none => exact ih acumulador bits
    | some v =>
      simp only [Option.toList_some, List.singleton_append, regrupa]
      split_ifs with h
      · rw [List.map_cons, ih, UInt8.toNat_ofNat']
        rfl
      · exact ih _ _

/-- The decoder gives the bytes of the bits of the text, without a last incomplete one. -/
theorem base64DecodeStr_grupos (s : String) :
    ∃ saida, base64DecodeStr s = some saida ∧
      saida.map UInt8.toNat = grupos 8 (base64Bits s.toList) := by
  refine ⟨_, rfl, ?_⟩
  rw [base64Percorre_eq _ 0 (by decide), bytesDe_eq, base64ValoresBytes_utf8]
  exact regrupa_eq_grupos (by decide) (by decide) (by decide) lt_of_mem_base64Valores (by decide)

theorem toNat_injetiva : Function.Injective (List.map UInt8.toNat) :=
  List.map_injective_iff.mpr fun _ _ h => UInt8.toNat_inj.mp h

theorem base64DecodeStr_congr {s t : String} (h : base64Bits s.toList = base64Bits t.toList) :
    base64DecodeStr s = base64DecodeStr t := by
  obtain ⟨a, hs, ha⟩ := base64DecodeStr_grupos s
  obtain ⟨b, ht, hb⟩ := base64DecodeStr_grupos t
  rw [hs, ht, toNat_injetiva (ha.trans ((congrArg (grupos 8) h).trans hb.symm))]

/-- The decoder of the keys, on the letters, is the one on the bytes. -/
theorem base64DecodeStr_eq_decode (s : String) :
    base64DecodeStr s = some (base64Decode s.toList) := by
  unfold base64DecodeStr base64Decode
  refine congrArg some (toNat_injetiva ?_)
  rw [base64Percorre_eq _ 0 (by decide), base64Laco_eq, bytesDe_eq, base64ValoresBytes_utf8]
  rfl

/-! ## The encoder -/

theorem base64Bits_fim (cs : List Char) : base64Bits ('=' :: cs) = [] := rfl

theorem base64Bits_digito (n : ℕ) (cs : List Char) :
    base64Bits (base64Digito n :: cs) = escrita 6 n ++ base64Bits cs := by
  obtain ⟨hfim, hvalor⟩ := base64Valor_digito n
  unfold base64Bits
  rw [base64Valores_cons hfim, hvalor, Option.toList_some, List.singleton_append,
    List.flatMap_cons, escrita_congr (Nat.mod_mod n 64)]

theorem bitsDosBytes_cons (b : UInt8) (bs : Bytes) :
    bitsDosBytes (b :: bs) = escrita 8 b.toNat ++ bitsDosBytes bs := by
  unfold bitsDosBytes
  rw [List.map_cons, List.flatMap_cons]

/-- The text of some bytes stands for their bits, and a last letter for some zeros more. -/
theorem base64Bits_chars (bs : Bytes) :
    ∃ k < 8, base64Bits (base64Chars bs) = bitsDosBytes bs ++ List.replicate k false := by
  induction bs using base64Chars.induct with
  | case1 => exact ⟨0, by decide, rfl⟩
  | case2 a =>
    refine ⟨4, by decide, ?_⟩
    have hletras : escrita 12 (a.toNat * 65536 / 4096) =
        escrita 6 (a.toNat * 65536 / 262144) ++ escrita 6 (a.toNat * 65536 / 4096) := by
      rw [escrita_add 6 6, Nat.div_div_eq_div_mul]
      rfl
    have hbyte : escrita 12 (a.toNat * 65536 / 4096) = escrita 8 a.toNat ++ escrita 4 0 := by
      rw [show a.toNat * 65536 / 4096 = a.toNat * 2 ^ 4 + 0 by omega]
      exact escrita_concat 8 a.toNat (show 0 < 2 ^ 4 by decide)
    unfold base64Chars
    rw [base64Bits_digito, base64Bits_digito, base64Bits_fim, List.append_nil, ← hletras, hbyte,
      escrita_zero, bitsDosBytes_cons]
    rw [show bitsDosBytes [] = [] from rfl, List.append_nil]
  | case3 a b =>
    refine ⟨2, by decide, ?_⟩
    have hletras : ∀ n, escrita 18 (n / 64) =
        escrita 6 (n / 262144) ++ (escrita 6 (n / 4096) ++ escrita 6 (n / 64)) := by
      intro n
      rw [escrita_add 6 12, escrita_add 6 6, Nat.div_div_eq_div_mul, Nat.div_div_eq_div_mul]
      rfl
    have hbytes : escrita 18 ((a.toNat * 65536 + b.toNat * 256) / 64) =
        escrita 8 a.toNat ++ (escrita 8 b.toNat ++ escrita 2 0) := by
      have hb := b.toNat_lt
      have hprimeiro := escrita_concat 8 a.toNat (show b.toNat * 2 ^ 2 + 0 < 2 ^ 10 by omega)
      rw [escrita_concat 8 b.toNat (show 0 < 2 ^ 2 by decide)] at hprimeiro
      rw [← hprimeiro]
      exact congrArg _ (by omega)
    unfold base64Chars
    rw [base64Bits_digito, base64Bits_digito, base64Bits_digito, base64Bits_fim, List.append_nil,
      ← hletras, hbytes, escrita_zero, bitsDosBytes_cons, bitsDosBytes_cons]
    rw [show bitsDosBytes [] = [] from rfl, List.append_nil, List.append_assoc]
  | case4 a b d resto ih =>
    obtain ⟨k, hk, hresto⟩ := ih
    refine ⟨k, hk, ?_⟩
    have hletras : ∀ n, escrita 24 n = escrita 6 (n / 262144) ++
        (escrita 6 (n / 4096) ++ (escrita 6 (n / 64) ++ escrita 6 n)) := by
      intro n
      rw [escrita_add 6 18, escrita_add 6 12, escrita_add 6 6]
      rfl
    have hbytes : escrita 24 (a.toNat * 65536 + b.toNat * 256 + d.toNat) =
        escrita 8 a.toNat ++ (escrita 8 b.toNat ++ escrita 8 d.toNat) := by
      have hb := b.toNat_lt
      have hd := d.toNat_lt
      have hprimeiro := escrita_concat 8 a.toNat (show b.toNat * 2 ^ 8 + d.toNat < 2 ^ 16 by omega)
      rw [escrita_concat 8 b.toNat hd] at hprimeiro
      rw [← hprimeiro]
      exact congrArg _ (by omega)
    have hvinte := hletras (a.toNat * 65536 + b.toNat * 256 + d.toNat)
    rw [hbytes] at hvinte
    unfold base64Chars
    rw [base64Bits_digito, base64Bits_digito, base64Bits_digito, base64Bits_digito, hresto,
      bitsDosBytes_cons, bitsDosBytes_cons, bitsDosBytes_cons]
    simp only [← List.append_assoc] at hvinte ⊢
    rw [hvinte]

theorem base64DecodeStr_encode (bs : Bytes) : base64DecodeStr (base64Encode bs) = some bs := by
  obtain ⟨saida, hdecode, hsaida⟩ := base64DecodeStr_grupos (base64Encode bs)
  obtain ⟨k, hk, hbits⟩ := base64Bits_chars bs
  have hlt : ∀ n ∈ bs.map UInt8.toNat, n < 2 ^ 8 := by
    intro n hn
    obtain ⟨b, -, rfl⟩ := List.mem_map.mp hn
    exact b.toNat_lt
  have hbytes : saida.map UInt8.toNat = bs.map UInt8.toNat := by
    rw [hsaida, base64Encode, String.toList_ofList, hbits]
    exact grupos_flatMap_escrita (by decide) hlt (by rwa [List.length_replicate])
  rw [hdecode, toNat_injetiva hbytes]

theorem base64_ida_e_volta :
    (∀ bs : Bytes, base64DecodeStr (base64Encode bs) = some bs) ∧
      ∀ s : String,
        base64DecodeStr s = base64DecodeStr (String.ofList (base64Limpo s.toList)) ∧
        (∀ c ∈ base64Limpo s.toList, c ∈ base64Alfabeto) ∧
        ∃ saida, base64DecodeStr s = some saida ∧
          saida.map UInt8.toNat = grupos 8 (base64Bits s.toList) := by
  refine ⟨base64DecodeStr_encode, fun s => ⟨?_, mem_alfabeto_of_limpo, base64DecodeStr_grupos s⟩⟩
  refine base64DecodeStr_congr ?_
  rw [String.toList_ofList, base64Bits, base64Bits, base64Valores_limpo]

end Eav7
