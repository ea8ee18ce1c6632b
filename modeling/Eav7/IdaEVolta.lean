import Eav7.Carga
import Eav7.LeituraJson

/-!
# JSON text, written and read back

The reader returns the value whose canonical text it meets, whatever stands after the
text. So the canonical text determines the value, and nothing that is read nests deeper
than the reader allows.
-/

namespace Eav7

open Base

namespace JsonValue

mutual
/-- How many lists and maps are open at the deepest place of a value. -/
def profundidade : JsonValue → ℕ
  | .list itens => 1 + profundidadeItens itens
  | .map pares => 1 + profundidadePares pares
  | _ => 0

def profundidadeItens : List JsonValue → ℕ
  | [] => 0
  | v :: vs => max v.profundidade (profundidadeItens vs)

def profundidadePares : List (String × JsonValue) → ℕ
  | [] => 0
  | e :: es => max e.2.profundidade (profundidadePares es)
end

mutual
/-- What the source's type can hold: integers of 64 bits, and maps in the order of
their keys. -/
def Valido : JsonValue → Prop
  | .int n => i64Min ≤ n ∧ n ≤ i64Max
  | .list itens => ValidoItens itens
  | .map pares => (pares.map Prod.fst).Pairwise (· < ·) ∧ ValidoPares pares
  | _ => True

def ValidoItens : List JsonValue → Prop
  | [] => True
  | v :: vs => v.Valido ∧ ValidoItens vs

def ValidoPares : List (String × JsonValue) → Prop
  | [] => True
  | e :: es => e.2.Valido ∧ ValidoPares es
end

mutual
/-- A value that can be written as it is: no key of a map occurs twice. -/
def Legivel : JsonValue → Prop
  | .int n => i64Min ≤ n ∧ n ≤ i64Max
  | .list itens => LegivelItens itens
  | .map pares => (pares.map Prod.fst).Nodup ∧ LegivelPares pares
  | _ => True

def LegivelItens : List JsonValue → Prop
  | [] => True
  | v :: vs => v.Legivel ∧ LegivelItens vs

def LegivelPares : List (String × JsonValue) → Prop
  | [] => True
  | e :: es => e.2.Legivel ∧ LegivelPares es
end

mutual
/-- The value with every map in the order of its keys. -/
def ordenado : JsonValue → JsonValue
  | .list itens => .list (ordenaItens itens)
  | .map pares => .map (OrdMap.ofList (ordenaPares pares)).entries
  | v => v

def ordenaItens : List JsonValue → List JsonValue
  | [] => []
  | v :: vs => v.ordenado :: ordenaItens vs

def ordenaPares : List (String × JsonValue) → List (String × JsonValue)
  | [] => []
  | e :: es => (e.1, e.2.ordenado) :: ordenaPares es
end

theorem ordenaItens_eq_map (vs : List JsonValue) : ordenaItens vs = vs.map ordenado := by
  induction vs with
  | nil => rfl
  | cons v vs ih => rw [ordenaItens, ih, List.map_cons]

theorem ordenaPares_eq_map (es : List (String × JsonValue)) :
    ordenaPares es = es.map fun e => (e.1, e.2.ordenado) := by
  induction es with
  | nil => rfl
  | cons e es ih => rw [ordenaPares, ih, List.map_cons]

theorem map_fst_ordenaPares (es : List (String × JsonValue)) :
    (ordenaPares es).map Prod.fst = es.map Prod.fst := by
  rw [ordenaPares_eq_map, List.map_map]
  rfl

mutual

/-- A value of the type can be written, and its maps are in order already. -/
theorem Valido.legivel : ∀ {v : JsonValue}, v.Valido → v.Legivel ∧ v.ordenado = v
  | .null, _ => ⟨trivial, rfl⟩
  | .bool _, _ => ⟨trivial, rfl⟩
  | .str _, _ => ⟨trivial, rfl⟩
  | .int _, h => ⟨h, rfl⟩
  | .list itens, h => by
    obtain ⟨hleg, hord⟩ := legivel_of_validoItens itens h
    exact ⟨hleg, congrArg JsonValue.list hord⟩
  | .map pares, h => by
    obtain ⟨hleg, hord⟩ := legivel_of_validoPares pares h.2
    refine ⟨⟨h.1.imp fun hlt => hlt.ne, hleg⟩, ?_⟩
    rw [ordenado, hord]
    exact congrArg (JsonValue.map ·.entries)
      (OrdMap.ofList_entries ⟨pares, List.pairwise_map.mp h.1⟩)

theorem legivel_of_validoItens : ∀ (vs : List JsonValue), ValidoItens vs →
    LegivelItens vs ∧ ordenaItens vs = vs
  | [], _ => ⟨trivial, rfl⟩
  | v :: vs, h => by
    obtain ⟨hv, hordv⟩ := Valido.legivel h.1
    obtain ⟨hvs, hordvs⟩ := legivel_of_validoItens vs h.2
    refine ⟨⟨hv, hvs⟩, ?_⟩
    rw [ordenaItens, hordv, hordvs]

theorem legivel_of_validoPares : ∀ (es : List (String × JsonValue)), ValidoPares es →
    LegivelPares es ∧ ordenaPares es = es
  | [], _ => ⟨trivial, rfl⟩
  | e :: es, h => by
    obtain ⟨he, horde⟩ := Valido.legivel h.1
    obtain ⟨hes, hordes⟩ := legivel_of_validoPares es h.2
    refine ⟨⟨he, hes⟩, ?_⟩
    rw [ordenaPares, horde, hordes]

end

theorem validoItens_iff {vs : List JsonValue} : ValidoItens vs ↔ ∀ v ∈ vs, v.Valido := by
  induction vs with
  | nil => simp [ValidoItens]
  | cons v vs ih => rw [ValidoItens, ih, List.forall_mem_cons]

theorem validoPares_iff {es : List (String × JsonValue)} :
    ValidoPares es ↔ ∀ e ∈ es, e.2.Valido := by
  induction es with
  | nil => simp [ValidoPares]
  | cons e es ih => rw [ValidoPares, ih, List.forall_mem_cons]

theorem legivelItens_iff {vs : List JsonValue} : LegivelItens vs ↔ ∀ v ∈ vs, v.Legivel := by
  induction vs with
  | nil => simp [LegivelItens]
  | cons v vs ih => rw [LegivelItens, ih, List.forall_mem_cons]

theorem legivelPares_iff {es : List (String × JsonValue)} :
    LegivelPares es ↔ ∀ e ∈ es, e.2.Legivel := by
  induction es with
  | nil => simp [LegivelPares]
  | cons e es ih => rw [LegivelPares, ih, List.forall_mem_cons]

theorem profundidadeItens_le {vs : List JsonValue} {k : ℕ} :
    profundidadeItens vs ≤ k ↔ ∀ v ∈ vs, v.profundidade ≤ k := by
  induction vs with
  | nil => simp [profundidadeItens]
  | cons v vs ih => rw [profundidadeItens, max_le_iff, ih, List.forall_mem_cons]

theorem profundidadePares_le {es : List (String × JsonValue)} {k : ℕ} :
    profundidadePares es ≤ k ↔ ∀ e ∈ es, e.2.profundidade ≤ k := by
  induction es with
  | nil => simp [profundidadePares]
  | cons e es ih => rw [profundidadePares, max_le_iff, ih, List.forall_mem_cons]

end JsonValue

namespace Leitor

/-! ## Texts as bytes -/

/-- The bytes of a text. -/
def utf8 (cs : List Char) : Bytes := cs.flatMap String.utf8EncodeChar

@[simp] theorem utf8_nil : utf8 [] = [] := rfl

@[simp] theorem utf8_cons (c : Char) (cs : List Char) :
    utf8 (c :: cs) = String.utf8EncodeChar c ++ utf8 cs := List.flatMap_cons

@[simp] theorem utf8_append (cs ds : List Char) : utf8 (cs ++ ds) = utf8 cs ++ utf8 ds :=
  List.flatMap_append

theorem length_lt_utf8 (c : Char) (cs : List Char) (r : Bytes) :
    r.length < (utf8 (c :: cs) ++ r).length := by
  have hpos := c.utf8Size_pos
  rw [utf8_cons, List.length_append, List.length_append, String.length_utf8EncodeChar]
  omega

theorem utf8_ascii {c : Char} (h : c.toNat < 128) :
    ∃ b, String.utf8EncodeChar c = [b] ∧ b.toNat = c.toNat ∧ letra b = c := by
  have hb : (UInt8.ofNat c.toNat).toNat = c.toNat := by
    rw [UInt8.toNat_ofNat']
    omega
  refine ⟨UInt8.ofNat c.toNat, ?_, hb, ?_⟩
  · unfold String.utf8EncodeChar
    exact if_pos (show c.val.toNat ≤ 127 by exact Nat.le_of_lt_succ h)
  · rw [letra, hb, Char.ofNat_toNat]

/-- Every byte of a character outside ASCII is at least 128. -/
theorem utf8_alto {c : Char} (h : 128 ≤ c.toNat) {b : UInt8}
    (hb : b ∈ String.utf8EncodeChar c) : 128 ≤ b.toNat := by
  have hv : ¬ c.val.toNat ≤ 127 := not_le.mpr h
  have hmax : c.val.toNat < 0x110000 := by
    rcases c.valid with hc | hc
    · exact hc.trans (by decide)
    · exact hc.2
  have halto : ∀ n, 128 ≤ n → n < 256 → 128 ≤ (UInt8.ofNat n).toNat := by
    intro n hn hlt
    rw [UInt8.toNat_ofNat']
    omega
  unfold String.utf8EncodeChar at hb
  dsimp only at hb
  rw [if_neg hv] at hb
  split_ifs at hb <;> simp only [List.mem_cons, List.not_mem_nil, or_false] at hb
  · rcases hb with rfl | rfl <;> exact halto _ (by omega) (by omega)
  · rcases hb with rfl | rfl | rfl <;> exact halto _ (by omega) (by omega)
  · rcases hb with rfl | rfl | rfl | rfl <;> exact halto _ (by omega) (by omega)

theorem toNat_letra (b : UInt8) : (letra b).toNat = b.toNat := by
  have hv : Nat.isValidChar b.toNat := .inl (b.toNat_lt.trans (by decide))
  unfold letra Char.ofNat
  rw [dif_pos hv]
  rfl

theorem letra_ne {b : UInt8} {c : Char} (h : b.toNat ≠ c.toNat) : letra b ≠ c := by
  rintro rfl
  exact h (toNat_letra b).symm

/-! ## What a reader gives -/

variable {α : Type} {t : ℕ}

/-- The reader gives this value and leaves this rest. -/
def Leu (f : (b : Bytes) → Falha (α × Resto b)) (b : Bytes) (v : α) (r : Bytes) : Prop :=
  ∃ h, f b = .ok (v, ⟨r, h⟩)

/-! ### Strings -/

/-- A byte that stands for itself in a string. -/
theorem stringLaco_cru {acc r r' : Bytes} {b : UInt8} {s : String} (haspas : b.toNat ≠ 34)
    (hbarra : b.toNat ≠ 92) (hcontrole : 32 ≤ b.toNat)
    (h : Leu (stringLaco t (acc ++ [b])) r s r') :
    Leu (stringLaco t acc) (b :: r) s r' := by
  obtain ⟨hlt, h⟩ := h
  have hle : ¬ b ≤ 0x1f := fun hc => absurd (UInt8.le_iff_toNat_le.mp hc) (by simp; omega)
  refine ⟨hlt.trans (Nat.lt_succ_self _), ?_⟩
  rw [stringLaco, if_neg (letra_ne haspas), if_neg (letra_ne hbarra), if_neg hle]
  exact except_bind_eq_ok.mpr ⟨_, h, rfl⟩

theorem stringLaco_crus {bs acc r r' : Bytes} {s : String}
    (hbs : ∀ b ∈ bs, b.toNat ≠ 34 ∧ b.toNat ≠ 92 ∧ 32 ≤ b.toNat)
    (h : Leu (stringLaco t (acc ++ bs)) r s r') :
    Leu (stringLaco t acc) (bs ++ r) s r' := by
  induction bs generalizing acc with
  | nil => rwa [List.append_nil] at h
  | cons b bs ih =>
    obtain ⟨⟨haspas, hbarra, hcontrole⟩, hbs⟩ := List.forall_mem_cons.mp hbs
    refine stringLaco_cru haspas hbarra hcontrole (ih hbs ?_)
    rwa [List.append_assoc]

theorem stringLaco_escape {acc bs r r₁ r' : Bytes} {s : String}
    (hescape : Leu (escape t) r bs r₁)
    (h : Leu (stringLaco t (acc ++ bs)) r₁ s r') :
    Leu (stringLaco t acc) (92 :: r) s r' := by
  obtain ⟨hlt₁, hescape⟩ := hescape
  obtain ⟨hlt, h⟩ := h
  refine ⟨(hlt.trans hlt₁).trans (Nat.lt_succ_self _), ?_⟩
  rw [stringLaco, if_neg (by decide), if_pos (by decide)]
  refine except_bind_eq_ok.mpr ⟨_, hescape, ?_⟩
  exact except_bind_eq_ok.mpr ⟨_, h, rfl⟩

/-- The four digits of a control character. -/
theorem escape_controle {n : ℕ} (hn : n < 32) (r : Bytes) :
    Leu (escape t) (utf8 ['u', '0', '0', hexDigito (n / 16), hexDigito (n % 16)] ++ r)
      [UInt8.ofNat n] r := by
  interval_cases n <;> exact ⟨length_lt_utf8 _ _ r, rfl⟩

theorem escape_escreveChar (c : Char) {acc r r' : Bytes} {s : String}
    (h : Leu (stringLaco t (acc ++ String.utf8EncodeChar c)) r s r') :
    Leu (stringLaco t acc) (utf8 (escreveChar c) ++ r) s r' := by
  have hum : ∀ (e : Char) (b : UInt8), String.utf8EncodeChar c = [b] →
      (∀ r, Leu (escape t) (utf8 [e] ++ r) [b] r) →
      Leu (stringLaco t acc) (utf8 ['\\', e] ++ r) s r' := by
    intro e b hc he
    rw [hc] at h
    exact stringLaco_escape (he r) h
  unfold escreveChar
  split_ifs with h1 h2 h3 h4 h5 h6 h7 h8
  · exact hum '"' 34 (h1 ▸ rfl) fun r => ⟨length_lt_utf8 _ _ r, rfl⟩
  · exact hum '\\' 92 (h2 ▸ rfl) fun r => ⟨length_lt_utf8 _ _ r, rfl⟩
  · exact hum 'b' 8 (Carga.eq_ofNat h3 ▸ rfl) fun r => ⟨length_lt_utf8 _ _ r, rfl⟩
  · exact hum 'f' 12 (Carga.eq_ofNat h4 ▸ rfl) fun r => ⟨length_lt_utf8 _ _ r, rfl⟩
  · exact hum 'n' 10 (h5 ▸ rfl) fun r => ⟨length_lt_utf8 _ _ r, rfl⟩
  · exact hum 'r' 13 (h6 ▸ rfl) fun r => ⟨length_lt_utf8 _ _ r, rfl⟩
  · exact hum 't' 9 (h7 ▸ rfl) fun r => ⟨length_lt_utf8 _ _ r, rfl⟩
  · obtain ⟨b, hc, hb, -⟩ := utf8_ascii (c := c) (by omega)
    obtain rfl : b = UInt8.ofNat c.toNat := by rw [← hb, UInt8.ofNat_toNat]
    rw [hc] at h
    exact stringLaco_escape (escape_controle h8 r) h
  · rw [utf8_cons, utf8_nil, List.append_nil]
    refine stringLaco_crus ?_ h
    intro b hb
    have haspas : c.toNat ≠ 34 := fun hc => h1 (Carga.eq_ofNat hc)
    have hbarra : c.toNat ≠ 92 := fun hc => h2 (Carga.eq_ofNat hc)
    by_cases halto : 128 ≤ c.toNat
    · have := utf8_alto halto hb
      omega
    · obtain ⟨b', hc, hb', -⟩ := utf8_ascii (not_le.mp halto)
      rw [hc, List.mem_singleton] at hb
      subst hb
      omega

theorem stringLaco_escreve (cs : List Char) {s : String} {acc : Bytes} (r : Bytes)
    (hs : utf8De (acc ++ utf8 cs) = some s) :
    Leu (stringLaco t acc) (utf8 (cs.flatMap escreveChar) ++ (34 :: r)) s r := by
  induction cs generalizing acc with
  | nil =>
    rw [utf8_nil, List.append_nil] at hs
    refine ⟨Nat.lt_succ_self _, ?_⟩
    change stringLaco t acc (34 :: r) = _
    rw [stringLaco, if_pos (by decide), hs]
    rfl
  | cons c cs ih =>
    rw [List.flatMap_cons, utf8_append, List.append_assoc]
    refine escape_escreveChar c (ih ?_)
    rw [List.append_assoc, ← utf8_cons]
    exact hs

theorem string_escreve (s : String) (r : Bytes) :
    Leu (string t) (utf8 (escreveString s) ++ r) s r := by
  have hs : utf8De ([] ++ utf8 s.toList) = some s := by
    rw [List.nil_append, utf8, ← bytesDe_eq, utf8De_bytesDe]
  have htexto : utf8 (escreveString s) ++ r =
      34 :: (utf8 (s.toList.flatMap escreveChar) ++ 34 :: r) := by
    unfold escreveString
    rw [utf8_append, utf8_cons, List.append_assoc, List.append_assoc]
    rfl
  obtain ⟨hlt, h⟩ := stringLaco_escreve s.toList r hs (t := t)
  rw [htexto]
  refine ⟨hlt.trans (Nat.lt_succ_self _), ?_⟩
  rw [string, if_pos (by decide)]
  exact except_bind_eq_ok.mpr ⟨_, h, rfl⟩

/-! ### Words and numbers -/

theorem palavra_escreve (lit : String) (hlit : lit.toList ≠ []) (v : JsonValue) (r : Bytes) :
    Leu (palavra t lit v) (utf8 lit.toList ++ r) v r := by
  obtain ⟨c, cs, hcs⟩ := List.exists_cons_of_ne_nil hlit
  have hlt := length_lt_utf8 c cs r
  have hb : bytesDe lit = utf8 lit.toList := bytesDe_eq lit
  rw [← hcs, ← hb] at hlt
  rw [← hb]
  have hpos : 0 < (bytesDe lit).length := by
    rw [List.length_append] at hlt
    omega
  refine ⟨hlt, ?_⟩
  unfold palavra
  rw [dif_pos ⟨List.isPrefixOf_iff_prefix.mpr (List.prefix_append _ _), hpos, by omega⟩]
  simp only [List.drop_left]

/-- The rest of a text where a value may end. -/
def Parada (r : Bytes) : Prop := ∀ b ∈ r.head?, letra b ∈ [',', ']', '\x7d']

theorem digito_of_isDigit {c : Char} (h : '0' ≤ c ∧ c ≤ '9') :
    ∃ b, String.utf8EncodeChar c = [b] ∧ digito b = true ∧ b.toNat = c.toNat ∧ letra b = c := by
  have hle : c.toNat ≤ 57 := UInt32.le_iff_toNat_le.mp (Char.le_def.mp h.2)
  obtain ⟨b, hb, hn, hl⟩ := utf8_ascii (c := c) (by omega)
  refine ⟨b, hb, ?_, hn, hl⟩
  rw [digito, hl]
  simpa [Char.isDigit, Char.le_def] using h

/-- Digits as bytes. -/
theorem utf8_digitos {ds : List Char} (h : ∀ c ∈ ds, '0' ≤ c ∧ c ≤ '9') :
    (∀ b ∈ utf8 ds, digito b = true) ∧ (utf8 ds).map letra = ds ∧
      ∀ acc, (utf8 ds).foldl (fun n d => 10 * n + (d.toNat - 48)) acc =
        Nat.ofDigitChars 10 ds acc := by
  induction ds with
  | nil => exact ⟨by simp, rfl, fun _ => rfl⟩
  | cons c ds ih =>
    obtain ⟨hc, hds⟩ := List.forall_mem_cons.mp h
    obtain ⟨b, hb, hdigito, hn, hl⟩ := digito_of_isDigit hc
    obtain ⟨hmem, hletras, hvalor⟩ := ih hds
    rw [utf8_cons, hb, List.singleton_append]
    refine ⟨List.forall_mem_cons.mpr ⟨hdigito, hmem⟩, ?_, fun acc => ?_⟩
    · rw [List.map_cons, hl, hletras]
    · rw [List.foldl_cons, hvalor, Nat.ofDigitChars_cons, hn]
      rfl

/-- A number is read when its digits are followed by the end of the value. -/
theorem numero_ok {b digitos r : Bytes} {n : ℤ}
    (hcorpo : (if atual b = some '-' then b.tail else b) = digitos ++ r)
    (hd : ∀ x ∈ digitos, digito x = true) (hne : digitos ≠ [])
    (hzero : ¬ (atual digitos = some '0' ∧ 1 < digitos.length)) (hr : Parada r)
    (hn : n = if atual b = some '-' then -(decimal digitos : ℤ) else decimal digitos)
    (hfaixa : i64Min ≤ n ∧ n ≤ i64Max) : Leu (numero t) b (.int n) r := by
  have hfim : ∀ x ∈ r.head?, digito x = false := by
    intro x hx
    have := hr x hx
    simp only [List.mem_cons, List.not_mem_nil, or_false] at this
    rcases this with h | h | h <;> rw [digito, h] <;> rfl
  have hdrop : r.dropWhile digito = r := by
    cases r with
    | nil => rfl
    | cons x r => rw [List.dropWhile_cons_of_neg (by simp [hfim x rfl])]
  have htake : r.takeWhile digito = [] := by
    cases r with
    | nil => rfl
    | cons x r => rw [List.takeWhile_cons_of_neg (by simp [hfim x rfl])]
  have hponto : ¬ atual r ∈ [some '.', some 'e', some 'E'] := by
    intro h
    cases r with
    | nil => simp [atual] at h
    | cons x r =>
      have := hr x rfl
      simp only [atual, List.head?_cons, Option.map_some] at h
      simp only [List.mem_cons, List.not_mem_nil, or_false] at this
      rcases this with h' | h' | h' <;> rw [h'] at h <;> simp at h
  have hlt : r.length < b.length := by
    have hlen := congrArg List.length hcorpo
    have hpos := List.length_pos_iff.mpr hne
    rw [List.length_append] at hlen
    split_ifs at hlen
    · rw [List.length_tail] at hlen
      omega
    · omega
  refine ⟨hlt, ?_⟩
  unfold numero
  simp only [hcorpo, List.takeWhile_append_of_pos hd, List.dropWhile_append_of_pos hd, htake, hdrop,
    List.append_nil, dif_neg hne, if_neg hzero, if_neg hponto, ← hn, if_pos hfaixa]

theorem toString_int (n : ℤ) : (toString n).toList =
    if 0 ≤ n then Nat.toDigits 10 n.natAbs else '-' :: Nat.toDigits 10 n.natAbs := by
  cases n with
  | ofNat m => exact Carga.nat_toString_toList m
  | negSucc m =>
    change ("-" ++ toString (m + 1)).toList = _
    rw [String.toList_append, Carga.nat_toString_toList, if_neg (Int.negSucc_lt_zero m).not_ge]
    rfl

theorem numero_escreve {n : ℤ} (hn : i64Min ≤ n ∧ n ≤ i64Max) {r : Bytes} (hr : Parada r) :
    Leu (numero t) (utf8 (toString n).toList ++ r) (.int n) r := by
  generalize hds : Nat.toDigits 10 n.natAbs = ds
  have hfaixa : ∀ c ∈ ds, '0' ≤ c ∧ c ≤ '9' := hds ▸ fun c hc => Carga.faixa_of_mem hc
  obtain ⟨hdigito, hletras, hvalor⟩ := utf8_digitos hfaixa
  have hdecimal : decimal (utf8 ds) = n.natAbs := by
    rw [decimal, hvalor, ← hds, Nat.ofDigitChars_ten_toDigits]
  have hne : utf8 ds ≠ [] := by
    intro h
    rw [h] at hletras
    exact Nat.toDigits_ne_nil (hds.trans hletras.symm)
  have hatual : ∀ r, atual (utf8 ds ++ r) = ds.head? := by
    intro r
    rw [atual, List.head?_append_of_ne_nil _ hne, ← List.head?_map, hletras]
  have hzero : ¬ (atual (utf8 ds) = some '0' ∧ 1 < (utf8 ds).length) := by
    rintro ⟨hcab, hlen⟩
    rw [← List.append_nil (utf8 ds), hatual, ← hds] at hcab
    rw [← List.length_map (f := letra), hletras, ← hds] at hlen
    rcases Nat.eq_zero_or_pos n.natAbs with h0 | hpos
    · rw [h0] at hlen
      exact absurd hlen (by decide)
    · exact Carga.head_toDigits hpos hcab
  have hsinal : ds.head? ≠ some '-' := by
    intro h
    exact absurd (hfaixa '-' (List.mem_of_mem_head? h)) (by decide)
  rw [toString_int, hds]
  split_ifs with hpos
  · refine numero_ok ?_ hdigito hne hzero hr ?_ hn
    · rw [hatual, if_neg hsinal]
    · rw [hatual, if_neg hsinal, hdecimal, Int.natAbs_of_nonneg hpos]
  · refine numero_ok (b := utf8 ('-' :: ds) ++ r) ?_ hdigito hne hzero hr ?_ hn
    · exact if_pos rfl
    · rw [hdecimal]
      refine Eq.trans ?_ (if_pos rfl).symm
      omega

/-! ### Lists and maps -/

/-- A text that begins with no white space. -/
theorem pulaEspaco_utf8 {c : Char} (h : c.toNat < 128) (hc : c ∉ [' ', '\t', '\n', '\r'])
    (cs : List Char) (r : Bytes) : pulaEspaco (utf8 (c :: cs) ++ r) = utf8 (c :: cs) ++ r := by
  obtain ⟨b, hb, -, hl⟩ := utf8_ascii h
  rw [utf8_cons, hb, List.singleton_append, List.cons_append, pulaEspaco]
  refine List.dropWhile_cons_of_neg ?_
  rw [espacoJson, hl, decide_eq_true_eq]
  exact hc

/-- The first letter of a value. -/
theorem inicio_escreveValor (v : JsonValue) : ∃ c cs, escreveValor v = c :: cs ∧ c.toNat < 128 ∧
    c ∉ [' ', '\t', '\n', '\r'] ∧ c ≠ ']' := by
  cases v with
  | null | list _ | map _ | str _ => exact ⟨_, _, rfl, by decide, by decide, by decide⟩
  | bool b => cases b <;> exact ⟨_, _, rfl, by decide, by decide, by decide⟩
  | int n =>
    rw [escreveValor]
    obtain ⟨c, cs, hcs⟩ := List.exists_cons_of_ne_nil
      (Nat.toDigits_ne_nil (b := 10) (n := n.natAbs))
    have hc := Carga.faixa_of_mem (hcs ▸ List.mem_cons_self : c ∈ Nat.toDigits 10 n.natAbs)
    rw [toString_int, hcs]
    split_ifs
    · have hle : c.toNat ≤ 57 := UInt32.le_iff_toNat_le.mp (Char.le_def.mp hc.2)
      refine ⟨c, cs, rfl, by omega, ?_, ?_⟩
      · intro h
        simp only [List.mem_cons, List.not_mem_nil, or_false] at h
        rcases h with rfl | rfl | rfl | rfl <;> exact absurd hc (by decide)
      · rintro rfl
        exact absurd hc (by decide)
    · exact ⟨_, _, rfl, by decide, by decide, by decide⟩

theorem pulaEspaco_escreveValor (v : JsonValue) (r : Bytes) :
    pulaEspaco (utf8 (escreveValor v) ++ r) = utf8 (escreveValor v) ++ r := by
  obtain ⟨c, cs, hcs, hlt, hc, -⟩ := inicio_escreveValor v
  rw [hcs]
  exact pulaEspaco_utf8 hlt hc cs r

theorem atual_escreveValor (v : JsonValue) (r : Bytes) :
    atual (utf8 (escreveValor v) ++ r) ≠ some ']' := by
  obtain ⟨c, cs, hcs, hlt, -, hc⟩ := inicio_escreveValor v
  obtain ⟨b, hb, -, hl⟩ := utf8_ascii hlt
  rw [hcs, utf8_cons, hb, List.append_assoc, List.singleton_append, atual, List.head?_cons,
    Option.map_some, hl]
  exact fun h => hc (Option.some.inj h)

theorem pulaEspaco_byte {b : UInt8} (h : espacoJson b = false) (r : Bytes) :
    pulaEspaco (b :: r) = b :: r := List.dropWhile_cons_of_neg (by simp [h])

section

variable {filho : (b : Bytes) → Falha (JsonValue × Resto b)} {b r r₂ : Bytes} {c : UInt8}
  {v : JsonValue}

theorem itens_ultimo {acc : List JsonValue} (hv : Leu filho (pulaEspaco b) v r)
    (hfim : pulaEspaco r = c :: r₂) (hc : letra c = ']') :
    Leu (itens t filho acc) b (.list (acc ++ [v])) r₂ := by
  obtain ⟨hlt, hv⟩ := hv
  have h₀ := pulaEspaco_length b
  have h₁ := pulaEspaco_length r
  have h₂ := congrArg List.length hfim
  rw [List.length_cons] at h₂
  refine ⟨by omega, ?_⟩
  rw [itens]
  refine except_bind_eq_ok.mpr ⟨_, hv, ?_⟩
  dsimp only
  split
  · rename_i h
    rw [hfim] at h
    cases h
  · rename_i h
    rw [hfim] at h
    cases h
    rw [if_neg (by rw [hc]; decide), if_pos hc]
    rfl

theorem itens_proximo {acc : List JsonValue} {w : JsonValue} {r₃ : Bytes}
    (hv : Leu filho (pulaEspaco b) v r) (hfim : pulaEspaco r = c :: r₂) (hc : letra c = ',')
    (hresto : Leu (itens t filho (acc ++ [v])) r₂ w r₃) :
    Leu (itens t filho acc) b w r₃ := by
  obtain ⟨hlt, hv⟩ := hv
  obtain ⟨hlt', hresto⟩ := hresto
  have h₀ := pulaEspaco_length b
  have h₁ := pulaEspaco_length r
  have h₂ := congrArg List.length hfim
  rw [List.length_cons] at h₂
  refine ⟨by omega, ?_⟩
  rw [itens]
  refine except_bind_eq_ok.mpr ⟨_, hv, ?_⟩
  dsimp only
  split
  · rename_i h
    rw [hfim] at h
    cases h
  · rename_i h
    rw [hfim] at h
    cases h
    rw [if_pos hc]
    exact except_bind_eq_ok.mpr ⟨_, hresto, rfl⟩

/-- One field, and the brace or the further fields after it. -/
theorem par_ok {acc : OrdMap String JsonValue} {chave : String} {r₁ r₃ r₄ : Bytes} {d : UInt8}
    {w : JsonValue} (hk : Leu (string t) (pulaEspaco b) chave r)
    (hponto : pulaEspaco r = c :: r₁) (hc : letra c = ':') (hv : Leu filho (pulaEspaco r₁) v r₂)
    (hnova : acc.get? chave = none) (hfim : pulaEspaco r₂ = d :: r₃)
    (hresto : (letra d = '\x7d' ∧ w = .map (acc.insert chave v).entries ∧ r₄ = r₃) ∨
      (letra d = ',' ∧ Leu (pares t filho (acc.insert chave v)) r₃ w r₄)) :
    Leu (pares t filho acc) b w r₄ := by
  obtain ⟨hltk, hk⟩ := hk
  obtain ⟨hltv, hv⟩ := hv
  have h₀ := pulaEspaco_length b
  have h₁ := pulaEspaco_length r
  have h₂ := pulaEspaco_length r₁
  have h₃ := pulaEspaco_length r₂
  have h₄ := congrArg List.length hponto
  have h₅ := congrArg List.length hfim
  rw [List.length_cons] at h₄ h₅
  have hcontem : ¬ acc.contains chave = true := by
    rw [OrdMap.contains, hnova]
    simp
  have hlt : r₄.length < b.length := by
    rcases hresto with ⟨-, -, rfl⟩ | ⟨-, hlt, -⟩ <;> omega
  refine ⟨hlt, ?_⟩
  rw [pares]
  refine except_bind_eq_ok.mpr ⟨_, hk, ?_⟩
  dsimp only
  split
  · rename_i h
    rw [hponto] at h
    cases h
  · rename_i h
    rw [hponto] at h
    cases h
    rw [if_pos hc]
    refine except_bind_eq_ok.mpr ⟨_, hv, ?_⟩
    refine except_bind_eq_ok.mpr ⟨(), falharSe_eq_ok.mpr hcontem, ?_⟩
    dsimp only
    split
    · rename_i h
      rw [hfim] at h
      cases h
    · rename_i h
      rw [hfim] at h
      cases h
      rcases hresto with ⟨hd, rfl, rfl⟩ | ⟨hd, hlt', hresto⟩
      · rw [if_neg (by rw [hd]; decide), if_pos hd]
        rfl
      · rw [if_pos hd]
        exact except_bind_eq_ok.mpr ⟨_, hresto, rfl⟩

/-- The value is read wherever its text may end. -/
def Lido (filho : (b : Bytes) → Falha (JsonValue × Resto b)) (v : JsonValue) : Prop :=
  ∀ r, Parada r → Leu filho (utf8 (escreveValor v) ++ r) v.ordenado r

theorem intercalate_cons (a b : List Char) (l : List (List Char)) :
    [','].intercalate (a :: b :: l) = a ++ ',' :: [','].intercalate (b :: l) := rfl

theorem parada_cons {b : UInt8} (h : letra b ∈ [',', ']', '\x7d']) (r : Bytes) :
    Parada (b :: r) := by
  rintro b' ⟨⟩
  exact h

theorem itens_escreve {vs : List JsonValue} (hvs : ∀ v ∈ vs, Lido filho v) (r : Bytes) :
    ∀ acc, vs ≠ [] → Leu (itens t filho acc)
      (utf8 ([','].intercalate (escreveItens vs)) ++ (93 :: r))
      (.list (acc ++ vs.map JsonValue.ordenado)) r := by
  induction vs with
  | nil => exact fun _ h => absurd rfl h
  | cons v vs ih =>
    intro acc _
    obtain ⟨hv, hvs⟩ := List.forall_mem_cons.mp hvs
    cases vs with
    | nil =>
      have hlido := hv (93 :: r) (parada_cons (by decide) r)
      rw [← pulaEspaco_escreveValor] at hlido
      have hunico : [','].intercalate (escreveItens [v]) = escreveValor v := List.append_nil _
      rw [hunico]
      exact itens_ultimo hlido (pulaEspaco_byte (by decide) r) rfl
    | cons w vs =>
      generalize hresto : utf8 ([','].intercalate (escreveItens (w :: vs))) ++ 93 :: r = resto
      have hlido := hv (44 :: resto) (parada_cons (by decide) resto)
      rw [← pulaEspaco_escreveValor] at hlido
      have hseguinte := ih hvs (acc ++ [v.ordenado]) (List.cons_ne_nil w vs)
      rw [hresto, List.append_assoc] at hseguinte
      have htexto : utf8 ([','].intercalate (escreveItens (v :: w :: vs))) ++ 93 :: r =
          utf8 (escreveValor v) ++ 44 :: resto := by
        rw [← hresto, escreveItens, escreveItens, intercalate_cons, utf8_append, utf8_cons,
          List.append_assoc]
        rfl
      rw [htexto]
      exact itens_proximo hlido (pulaEspaco_byte (by decide) resto) rfl hseguinte

/-- The text of a field. -/
def escreveCampo (e : String × JsonValue) : List Char :=
  escreveString e.1 ++ ':' :: escreveValor e.2

theorem pares_escreve {es : List (String × JsonValue)} (hes : ∀ e ∈ es, Lido filho e.2)
    (r : Bytes) : ∀ (acc : OrdMap String JsonValue), es ≠ [] → (es.map Prod.fst).Nodup →
      (∀ e ∈ es, acc.get? e.1 = none) → Leu (pares t filho acc)
        (utf8 ([','].intercalate (es.map escreveCampo)) ++ (125 :: r))
        (.map ((JsonValue.ordenaPares es).foldl (fun m e => m.insert e.1 e.2) acc).entries) r := by
  induction es with
  | nil => exact fun _ h => absurd rfl h
  | cons e es ih =>
    intro acc _ hnodup hnovas
    obtain ⟨he, hes⟩ := List.forall_mem_cons.mp hes
    obtain ⟨hnova, hnovas⟩ := List.forall_mem_cons.mp hnovas
    rw [List.map_cons, List.nodup_cons] at hnodup
    -- The text of the field up to the byte `d` that follows it.
    have hcampo : ∀ {d : UInt8} {resto r₄ : Bytes} {w : JsonValue}, letra d ∈ [',', ']', '\x7d'] →
        espacoJson d = false →
        (letra d = '\x7d' ∧ w = .map (acc.insert e.1 e.2.ordenado).entries ∧ r₄ = resto) ∨
          (letra d = ',' ∧ Leu (pares t filho (acc.insert e.1 e.2.ordenado)) resto w r₄) →
        Leu (pares t filho acc) (utf8 (escreveCampo e) ++ d :: resto) w r₄ := by
      intro d resto r₄ w hd hespaco hresto
      have htexto : utf8 (escreveCampo e) ++ d :: resto =
          utf8 (escreveString e.1) ++ 58 :: (utf8 (escreveValor e.2) ++ d :: resto) := by
        rw [escreveCampo, utf8_append, utf8_cons, List.append_assoc]
        rfl
      have hk := string_escreve (t := t) e.1 (58 :: (utf8 (escreveValor e.2) ++ d :: resto))
      have hfirme := pulaEspaco_escreveValor (.str e.1)
      rw [escreveValor] at hfirme
      rw [← hfirme] at hk
      have hv := he (d :: resto) (parada_cons hd resto)
      rw [← pulaEspaco_escreveValor] at hv
      rw [htexto]
      exact par_ok hk (pulaEspaco_byte (by decide) _) rfl hv hnova (pulaEspaco_byte hespaco resto)
        hresto
    cases es with
    | nil =>
      have hunico : [','].intercalate ([e].map escreveCampo) = escreveCampo e := List.append_nil _
      rw [hunico]
      exact hcampo (by decide) (by decide) (.inl ⟨rfl, rfl, rfl⟩)
    | cons f es =>
      generalize hresto : utf8 ([','].intercalate ((f :: es).map escreveCampo)) ++ 125 :: r = resto
      have hseguinte := ih hes (acc.insert e.1 e.2.ordenado) (List.cons_ne_nil f es)
        hnodup.2 (by
        intro g hg
        have hne : g.1 ≠ e.1 := fun h => hnodup.1 (List.mem_map.mpr ⟨g, hg, h⟩)
        rw [OrdMap.get?_insert_of_ne _ hne]
        exact hnovas g hg)
      rw [hresto] at hseguinte
      have htexto : utf8 ([','].intercalate ((e :: f :: es).map escreveCampo)) ++ 125 :: r =
          utf8 (escreveCampo e) ++ 44 :: resto := by
        rw [← hresto, List.map_cons, List.map_cons, intercalate_cons, utf8_append, utf8_cons,
          List.append_assoc]
        rfl
      rw [htexto]
      exact hcampo (by decide) (by decide) (.inr ⟨rfl, hseguinte⟩)

theorem lista_vazia (r : Bytes) : Leu (token t (some filho)) (91 :: 93 :: r) (.list []) r := by
  refine ⟨(Nat.lt_succ_self _).trans (Nat.lt_succ_self _), ?_⟩
  change lista t filho (91 :: 93 :: r) (List.cons_ne_nil _ _) = _
  unfold lista
  rw [if_pos (by rfl)]
  rfl

theorem lista_cheia (hb : pulaEspaco b = b) (hfim : atual b ≠ some ']')
    (h : Leu (itens t filho []) b v r) : Leu (token t (some filho)) (91 :: b) v r := by
  have h : Leu (itens t filho []) (pulaEspaco b) v r := by rwa [hb]
  obtain ⟨hlt, h⟩ := h
  refine ⟨(hlt.trans_le (pulaEspaco_length b)).trans (Nat.lt_succ_self _), ?_⟩
  change lista t filho (91 :: b) (List.cons_ne_nil _ _) = _
  unfold lista
  rw [if_neg (by rwa [List.tail_cons, hb])]
  exact except_bind_eq_ok.mpr ⟨_, h, rfl⟩

theorem objeto_vazio (r : Bytes) : Leu (token t (some filho)) (123 :: 125 :: r) (.map []) r := by
  refine ⟨(Nat.lt_succ_self _).trans (Nat.lt_succ_self _), ?_⟩
  change objeto t filho (123 :: 125 :: r) (List.cons_ne_nil _ _) = _
  unfold objeto
  rw [if_pos (by rfl)]
  rfl

theorem objeto_cheio (hb : pulaEspaco b = b) (hfim : atual b ≠ some '\x7d')
    (h : Leu (pares t filho ∅) b v r) : Leu (token t (some filho)) (123 :: b) v r := by
  have h : Leu (pares t filho ∅) (pulaEspaco b) v r := by rwa [hb]
  obtain ⟨hlt, h⟩ := h
  refine ⟨(hlt.trans_le (pulaEspaco_length b)).trans (Nat.lt_succ_self _), ?_⟩
  change objeto t filho (123 :: b) (List.cons_ne_nil _ _) = _
  unfold objeto
  rw [if_neg (by rwa [List.tail_cons, hb])]
  exact except_bind_eq_ok.mpr ⟨_, h, rfl⟩

theorem lista_escreve {vs : List JsonValue} (hvs : ∀ v ∈ vs, Lido filho v) (r : Bytes) :
    Leu (token t (some filho)) (utf8 (escreveLista (escreveItens vs)) ++ r)
      (JsonValue.list vs).ordenado r := by
  have htexto : utf8 (escreveLista (escreveItens vs)) ++ r =
      91 :: (utf8 ([','].intercalate (escreveItens vs)) ++ 93 :: r) := by
    rw [escreveLista, utf8_append, utf8_cons, List.append_assoc, List.append_assoc]
    rfl
  rw [htexto]
  cases vs with
  | nil => exact lista_vazia r
  | cons v vs =>
    have hinicio : ∃ cs, [','].intercalate (escreveItens (v :: vs)) = escreveValor v ++ cs := by
      cases vs with
      | nil => exact ⟨[], rfl⟩
      | cons w vs => exact ⟨_, rfl⟩
    have hcorpo := itens_escreve (t := t) hvs r [] (List.cons_ne_nil v vs)
    obtain ⟨cs, hcs⟩ := hinicio
    rw [List.nil_append, ← JsonValue.ordenaItens_eq_map] at hcorpo
    rw [hcs, utf8_append, List.append_assoc] at hcorpo ⊢
    exact lista_cheia (pulaEspaco_escreveValor v _) (atual_escreveValor v _) hcorpo

/-- The fields of a map are written in another order. -/
theorem ordenaChaves_perm (ps : List (String × JsonValue)) :
    ∃ qs, qs.Perm ps ∧ ordenaChaves (escrevePares ps) = escrevePares qs := by
  induction ps with
  | nil => exact ⟨[], List.Perm.refl _, rfl⟩
  | cons p ps ih =>
    obtain ⟨qs, hperm, hqs⟩ := ih
    have hinsere : ∀ qs, ∃ rs, rs.Perm (p :: qs) ∧
        insereOrdenado (p.1, escreveValor p.2) (escrevePares qs) = escrevePares rs := by
      intro qs
      induction qs with
      | nil => exact ⟨[p], List.Perm.refl _, rfl⟩
      | cons q qs ih =>
        rw [escrevePares, insereOrdenado]
        split_ifs
        · obtain ⟨rs, hrs, htexto⟩ := ih
          refine ⟨q :: rs, (hrs.cons q).trans (List.Perm.swap p q qs), ?_⟩
          rw [htexto, escrevePares]
        · exact ⟨p :: q :: qs, List.Perm.refl _, rfl⟩
    obtain ⟨rs, hrs, htexto⟩ := hinsere qs
    refine ⟨rs, hrs.trans (hperm.cons p), ?_⟩
    rw [← htexto, ← hqs]
    rfl

theorem mapa_escreve {ps : List (String × JsonValue)} (hps : ∀ e ∈ ps, Lido filho e.2)
    (hchaves : (ps.map Prod.fst).Nodup) (r : Bytes) :
    Leu (token t (some filho)) (utf8 (escreveMapa (escrevePares ps)) ++ r)
      (JsonValue.map ps).ordenado r := by
  obtain ⟨qs, hperm, hqs⟩ := ordenaChaves_perm ps
  have hnodup : (qs.map Prod.fst).Nodup :=
    (hperm.map Prod.fst).nodup_iff.mpr hchaves
  have hcampos : (escrevePares qs).map (fun e => escreveString e.1 ++ ':' :: e.2) =
      qs.map escreveCampo := by
    rw [Carga.escrevePares_eq_map, List.map_map]
    rfl
  have htexto : utf8 (escreveMapa (escrevePares ps)) ++ r =
      123 :: (utf8 ([','].intercalate (qs.map escreveCampo)) ++ 125 :: r) := by
    unfold escreveMapa
    dsimp only
    rw [hqs, hcampos, utf8_append, utf8_cons, List.append_assoc, List.append_assoc]
    rfl
  have hlidos : ∀ e ∈ qs, Lido filho e.2 := fun e he => hps e (hperm.mem_iff.mp he)
  have hmapa : (JsonValue.ordenaPares qs).foldl (fun m e => m.insert e.1 e.2) ∅ =
      OrdMap.ofList (JsonValue.ordenaPares ps) := by
    refine OrdMap.ofList_eq_of_perm ?_ ?_
    · rw [JsonValue.map_fst_ordenaPares]
      exact hnodup
    · rw [JsonValue.ordenaPares_eq_map, JsonValue.ordenaPares_eq_map]
      exact hperm.map _
  rw [htexto]
  cases qs with
  | nil =>
    obtain rfl := hperm.nil_eq
    exact objeto_vazio r
  | cons e es =>
    have hinicio : ∃ cs, [','].intercalate ((e :: es).map escreveCampo) =
        escreveValor (.str e.1) ++ cs := by
      cases es with
      | nil =>
        refine ⟨':' :: escreveValor e.2, ?_⟩
        exact List.append_nil _
      | cons f es =>
        refine ⟨':' :: escreveValor e.2 ++
          ',' :: [','].intercalate ((f :: es).map escreveCampo), ?_⟩
        rw [List.map_cons, List.map_cons, intercalate_cons, escreveCampo, List.append_assoc]
        rfl
    have hcorpo := pares_escreve (t := t) hlidos r ∅ (List.cons_ne_nil e es) hnodup
      fun _ _ => rfl
    rw [hmapa] at hcorpo
    obtain ⟨cs, hcs⟩ := hinicio
    rw [hcs, utf8_append, List.append_assoc] at hcorpo ⊢
    refine objeto_cheio (pulaEspaco_escreveValor _ _) ?_ hcorpo
    have haspas : ∀ resto, atual (utf8 (escreveValor (.str e.1)) ++ resto) = some '"' :=
      fun _ => rfl
    rw [haspas]
    decide

end

/-! ### Values -/

theorem token_numero {filho : Option ((b : Bytes) → Falha (JsonValue × Resto b))} {b : UInt8}
    {r : Bytes} (h : letra b = '-' ∨ (letra b).isDigit = true) :
    token t filho (b :: r) = numero t (b :: r) := by
  have hnao : ∀ c : Char, c ≠ '-' → c.isDigit = false → letra b ≠ c := by
    rintro c hc hd rfl
    rcases h with h | h
    · exact hc h
    · rw [hd] at h
      cases h
  unfold token
  dsimp only
  split
  case h_7 => exact if_pos h
  all_goals exact absurd ‹letra b = _› (hnao _ (by decide) (by decide))

theorem int_escreve {filho : Option ((b : Bytes) → Falha (JsonValue × Resto b))} {n : ℤ}
    (hn : i64Min ≤ n ∧ n ≤ i64Max) {r : Bytes} (hr : Parada r) :
    Leu (token t filho) (utf8 (toString n).toList ++ r) (.int n) r := by
  obtain ⟨hlt, h⟩ := numero_escreve (t := t) hn hr
  have hinicio : ∃ b bs, utf8 (toString n).toList ++ r = b :: bs ∧
      (letra b = '-' ∨ (letra b).isDigit = true) := by
    rw [toString_int]
    split_ifs
    · obtain ⟨c, cs, hcs⟩ := List.exists_cons_of_ne_nil
        (Nat.toDigits_ne_nil (b := 10) (n := n.natAbs))
      have hc := Carga.faixa_of_mem (hcs ▸ List.mem_cons_self : c ∈ Nat.toDigits 10 n.natAbs)
      obtain ⟨b, hb, hd, -⟩ := digito_of_isDigit hc
      rw [hcs, utf8_cons, hb]
      exact ⟨b, _, rfl, .inr hd⟩
    · exact ⟨45, _, rfl, .inl rfl⟩
  obtain ⟨b, bs, hb, hletra⟩ := hinicio
  refine ⟨hlt, ?_⟩
  rw [← h]
  clear h
  revert hlt
  rw [hb]
  exact fun _ => token_numero hletra

theorem string_token {filho : Option ((b : Bytes) → Falha (JsonValue × Resto b))} (s : String)
    (r : Bytes) : Leu (token t filho) (utf8 (escreveString s) ++ r) (.str s) r := by
  obtain ⟨hlt, h⟩ := string_escreve (t := t) s r
  exact ⟨hlt, except_bind_eq_ok.mpr ⟨_, h, rfl⟩⟩

mutual

/-- A value is read back from its text, with what stands after the text left over. -/
theorem valor_escreve : ∀ (v : JsonValue) {k : ℕ}, v.Legivel → v.profundidade ≤ k →
    Lido (valor t k) v
  | .null, k, _, _ => fun r _ => by
    have h := palavra_escreve (t := t) "null" (by decide) .null r
    cases k <;> exact h
  | .bool true, k, _, _ => fun r _ => by
    have h := palavra_escreve (t := t) "true" (by decide) (.bool true) r
    cases k <;> exact h
  | .bool false, k, _, _ => fun r _ => by
    have h := palavra_escreve (t := t) "false" (by decide) (.bool false) r
    cases k <;> exact h
  | .int n, k, hv, _ => fun r hr => by
    cases k <;> exact int_escreve hv hr
  | .str s, k, _, _ => fun r _ => by
    cases k <;> exact string_token s r
  | .list vs, k, hv, hp => fun r _ => by
    cases k with
    | zero => exact absurd hp (by simp [JsonValue.profundidade])
    | succ k =>
      rw [JsonValue.profundidade, Nat.add_comm] at hp
      exact lista_escreve (itens_lidos vs hv (Nat.le_of_succ_le_succ hp)) r
  | .map ps, k, hv, hp => fun r _ => by
    cases k with
    | zero => exact absurd hp (by simp [JsonValue.profundidade])
    | succ k =>
      rw [JsonValue.profundidade, Nat.add_comm] at hp
      exact mapa_escreve (pares_lidos ps hv.2 (Nat.le_of_succ_le_succ hp)) hv.1 r

theorem itens_lidos : ∀ (vs : List JsonValue) {k : ℕ}, JsonValue.LegivelItens vs →
    JsonValue.profundidadeItens vs ≤ k → ∀ v ∈ vs, Lido (valor t k) v
  | [], _, _, _ => by simp
  | v :: vs, _, hv, hp => by
    rw [JsonValue.profundidadeItens, max_le_iff] at hp
    exact List.forall_mem_cons.mpr ⟨valor_escreve v hv.1 hp.1, itens_lidos vs hv.2 hp.2⟩

theorem pares_lidos : ∀ (ps : List (String × JsonValue)) {k : ℕ}, JsonValue.LegivelPares ps →
    JsonValue.profundidadePares ps ≤ k → ∀ e ∈ ps, Lido (valor t k) e.2
  | [], _, _, _ => by simp
  | e :: es, _, hv, hp => by
    rw [JsonValue.profundidadePares, max_le_iff] at hp
    exact List.forall_mem_cons.mpr ⟨valor_escreve e.2 hv.1 hp.1, pares_lidos es hv.2 hp.2⟩

end

/-! ### What is read -/

/-- A value that the type holds, within a nesting. -/
def Cabe (k : ℕ) (v : JsonValue) : Prop := v.Valido ∧ v.profundidade ≤ k

theorem palavra_eq_ok {lit : String} {v w : JsonValue} {b : Bytes} {r : Resto b}
    (h : palavra t lit v b = .ok (w, r)) : w = v := by
  unfold palavra at h
  split_ifs at h
  · cases h
    rfl
  · cases h

theorem numero_eq_ok {w : JsonValue} {b : Bytes} {r : Resto b}
    (h : numero t b = .ok (w, r)) : ∃ n, w = .int n ∧ i64Min ≤ n ∧ n ≤ i64Max := by
  unfold numero at h
  dsimp only at h
  split_ifs at h
  all_goals first
    | exact ⟨_, (Prod.mk.inj (Except.ok.inj h)).1.symm, ‹_›⟩
    | cases h

section

variable {filho : (b : Bytes) → Falha (JsonValue × Resto b)} {k : ℕ}

theorem itens_cabem
    (hfilho : ∀ {b : Bytes} {v : JsonValue} {r : Resto b}, filho b = .ok (v, r) → Cabe k v) :
    ∀ (n : ℕ) {b : Bytes} {acc : List JsonValue} {w : JsonValue} {r : Resto b}, b.length < n →
      (∀ v ∈ acc, Cabe k v) → itens t filho acc b = .ok (w, r) →
      ∃ vs, w = .list vs ∧ ∀ v ∈ vs, Cabe k v := by
  intro n
  induction n with
  | zero => exact fun h => absurd h (Nat.not_lt_zero _)
  | succ n ih =>
    intro b acc w r hlen hacc h
    rw [itens] at h
    obtain ⟨⟨v, r₁⟩, hv, h⟩ := except_bind_eq_ok.mp h
    have hcabem : ∀ u ∈ acc ++ [v], Cabe k u := by
      intro u hu
      rcases List.mem_append.mp hu with hu | hu
      · exact hacc u hu
      · exact List.mem_singleton.mp hu ▸ hfilho hv
    dsimp only at h
    split at h
    · cases h
    · rename_i c r₂ hfim
      split_ifs at h
      · obtain ⟨⟨w', r₃⟩, hresto, h⟩ := except_bind_eq_ok.mp h
        cases h
        have h₀ := pulaEspaco_length b
        have h₁ := r₁.2
        have h₂ := pulaEspaco_length r₁.1
        rw [hfim, List.length_cons] at h₂
        exact ih (by omega) hcabem hresto
      · cases h
        exact ⟨_, rfl, hcabem⟩
      · cases h

theorem pares_cabem
    (hfilho : ∀ {b : Bytes} {v : JsonValue} {r : Resto b}, filho b = .ok (v, r) → Cabe k v) :
    ∀ (n : ℕ) {b : Bytes} {acc : OrdMap String JsonValue} {w : JsonValue} {r : Resto b},
      b.length < n → (∀ e ∈ acc.entries, Cabe k e.2) → pares t filho acc b = .ok (w, r) →
      ∃ m : OrdMap String JsonValue, w = .map m.entries ∧ ∀ e ∈ m.entries, Cabe k e.2 := by
  intro n
  induction n with
  | zero => exact fun h => absurd h (Nat.not_lt_zero _)
  | succ n ih =>
    intro b acc w r hlen hacc h
    rw [pares] at h
    obtain ⟨⟨chave, r₁⟩, hk, h⟩ := except_bind_eq_ok.mp h
    dsimp only at h
    split at h
    · cases h
    · rename_i c r₂ hponto
      split_ifs at h
      · obtain ⟨⟨v, r₃⟩, hv, h⟩ := except_bind_eq_ok.mp h
        obtain ⟨_, -, h⟩ := except_bind_eq_ok.mp h
        have hcabem : ∀ e ∈ (acc.insert chave v).entries, Cabe k e.2 := by
          intro e he
          have he : (acc.insert chave v).get? e.1 = some e.2 := OrdMap.mem_entries_iff.mp he
          rw [OrdMap.get?_insert] at he
          split_ifs at he
          · exact Option.some.inj he ▸ hfilho hv
          · exact hacc e (OrdMap.mem_entries_iff.mpr he)
        dsimp only at h
        split at h
        · cases h
        · rename_i d r₄ hfim
          split_ifs at h
          · obtain ⟨⟨w', r₅⟩, hresto, h⟩ := except_bind_eq_ok.mp h
            cases h
            have h₀ := pulaEspaco_length b
            have h₁ := r₁.2
            have h₂ := pulaEspaco_length r₁.1
            have h₃ := pulaEspaco_length r₂
            have h₄ := r₃.2
            have h₅ := pulaEspaco_length r₃.1
            rw [hponto, List.length_cons] at h₂
            rw [hfim, List.length_cons] at h₅
            exact ih (by omega) hcabem hresto
          · cases h
            exact ⟨_, rfl, hcabem⟩
          · cases h
      · cases h

end

theorem cabe_escalar {filho : Option ((b : Bytes) → Falha (JsonValue × Resto b))} {k : ℕ}
    {b : Bytes} {v : JsonValue} {r : Resto b} (h : token t filho b = .ok (v, r))
    (hlista : ∀ {f} {b : Bytes} {hb : b ≠ []} {v : JsonValue} {r : Resto b}, filho = some f →
      lista t f b hb = .ok (v, r) → Cabe k v)
    (hobjeto : ∀ {f} {b : Bytes} {hb : b ≠ []} {v : JsonValue} {r : Resto b}, filho = some f →
      objeto t f b hb = .ok (v, r) → Cabe k v) : Cabe k v := by
  unfold token at h
  split at h
  · cases h
  · split at h
    · obtain rfl := palavra_eq_ok h
      exact ⟨trivial, Nat.zero_le _⟩
    · obtain rfl := palavra_eq_ok h
      exact ⟨trivial, Nat.zero_le _⟩
    · obtain rfl := palavra_eq_ok h
      exact ⟨trivial, Nat.zero_le _⟩
    · obtain ⟨⟨s, r₁⟩, -, h⟩ := except_bind_eq_ok.mp h
      cases h
      exact ⟨trivial, Nat.zero_le _⟩
    · split at h
      · exact hlista rfl h
      · cases h
    · split at h
      · exact hobjeto rfl h
      · cases h
    · split_ifs at h
      · obtain ⟨n, rfl, hn⟩ := numero_eq_ok h
        exact ⟨hn, Nat.zero_le _⟩
      · cases h

/-- What is read is a value of the type, and nests no deeper than the reader allows. -/
theorem valor_cabe : ∀ (k : ℕ) {b : Bytes} {v : JsonValue} {r : Resto b},
    valor t k b = .ok (v, r) → Cabe k v := by
  intro k
  induction k with
  | zero => exact fun h => cabe_escalar h (fun h => by cases h) (fun h => by cases h)
  | succ k ih =>
    intro b v r h
    refine cabe_escalar h ?_ ?_
    · rintro f b hb v r ⟨⟩ h
      unfold lista at h
      split_ifs at h
      · cases h
        exact ⟨trivial, Nat.succ_le_succ (Nat.zero_le k)⟩
      · obtain ⟨⟨w, r₁⟩, hitens, h⟩ := except_bind_eq_ok.mp h
        cases h
        obtain ⟨vs, rfl, hvs⟩ := itens_cabem ih _ (Nat.lt_succ_self _) (by simp) hitens
        refine ⟨JsonValue.validoItens_iff.mpr fun v hv => (hvs v hv).1, ?_⟩
        rw [JsonValue.profundidade, Nat.add_comm]
        exact Nat.succ_le_succ (JsonValue.profundidadeItens_le.mpr fun v hv => (hvs v hv).2)
    · rintro f b hb v r ⟨⟩ h
      unfold objeto at h
      split_ifs at h
      · cases h
        exact ⟨⟨.nil, trivial⟩, Nat.succ_le_succ (Nat.zero_le k)⟩
      · obtain ⟨⟨w, r₁⟩, hpares, h⟩ := except_bind_eq_ok.mp h
        cases h
        obtain ⟨m, rfl, hm⟩ := pares_cabem ih _ (Nat.lt_succ_self _) (by rintro e ⟨⟩) hpares
        refine ⟨⟨List.pairwise_map.mpr m.sorted,
          JsonValue.validoPares_iff.mpr fun e he => (hm e he).1⟩, ?_⟩
        rw [JsonValue.profundidade, Nat.add_comm]
        exact Nat.succ_le_succ (JsonValue.profundidadePares_le.mpr fun e he => (hm e he).2)

end Leitor

open Leitor

/-- What is read back is the value with its maps in order. -/
theorem parseJson_canonicalJson {v : JsonValue} (hv : v.Legivel)
    (hp : v.profundidade ≤ MAX_JSON_DEPTH) : parseJson (canonicalJson v) = .ok v.ordenado := by
  have htexto : bytesDe (canonicalJson v) = utf8 (escreveValor v) := bytesDe_ofList _
  have hlido := valor_escreve (t := (bytesDe (canonicalJson v)).length) v hv hp []
    (by rintro b ⟨⟩)
  rw [← pulaEspaco_escreveValor, List.append_nil, ← htexto] at hlido
  obtain ⟨hlt, h⟩ := hlido
  refine except_bind_eq_ok.mpr ⟨_, h, ?_⟩
  exact except_bind_eq_ok.mpr ⟨(), falharSe_eq_ok.mpr (not_not.mpr rfl), rfl⟩

theorem cabe_of_parseJson {texto : String} {v : JsonValue} (h : parseJson texto = .ok v) :
    Cabe MAX_JSON_DEPTH v := by
  obtain ⟨⟨w, r⟩, hv, h⟩ := except_bind_eq_ok.mp h
  obtain ⟨_, -, h⟩ := except_bind_eq_ok.mp h
  cases h
  exact valor_cabe _ hv

/-- A text says everything of a value but the order of the keys of its maps. -/
theorem ordenado_of_canonicalJson {v w : JsonValue} (hv : v.Legivel) (hw : w.Legivel)
    (h : canonicalJson v = canonicalJson w) : v.ordenado = w.ordenado := by
  have htexto : escreveValor v = escreveValor w := by
    have := congrArg String.toList h
    unfold canonicalJson at this
    rwa [String.toList_ofList, String.toList_ofList] at this
  have hlido := valor_escreve (t := 0) (k := max v.profundidade w.profundidade) v hv
    (le_max_left _ _) [] (by rintro b ⟨⟩)
  have hlido' := valor_escreve (t := 0) (k := max v.profundidade w.profundidade) w hw
    (le_max_right _ _) [] (by rintro b ⟨⟩)
  rw [htexto] at hlido
  obtain ⟨hlt, h⟩ := hlido
  obtain ⟨hlt', h'⟩ := hlido'
  exact (Prod.mk.inj (Except.ok.inj (h.symm.trans h'))).1

theorem escreveValor_inj {v w : JsonValue} (hv : v.Valido) (hw : w.Valido)
    (h : canonicalJson v = canonicalJson w) : v = w := by
  obtain ⟨hv, hordv⟩ := hv.legivel
  obtain ⟨hw, hordw⟩ := hw.legivel
  rw [← hordv, ← hordw]
  exact ordenado_of_canonicalJson hv hw h

/-- The writer and the reader of JSON text are inverse to each other as far as the reader
goes; so a text stands for one value only, and no text makes the reader go deeper or fail
to answer. -/
theorem json_ida_e_volta :
    (∀ v : JsonValue, v.Valido → v.profundidade ≤ MAX_JSON_DEPTH →
      parseJson (canonicalJson v) = .ok v) ∧
    (∀ v w : JsonValue, v.Valido → w.Valido → canonicalJson v = canonicalJson w → v = w) ∧
    ∀ texto : String, (∃ e, parseJson texto = .error e) ∨
      ∃ v, parseJson texto = .ok v ∧ v.Valido ∧ v.profundidade ≤ MAX_JSON_DEPTH := by
  refine ⟨fun v hv hp => ?_, fun v w => escreveValor_inj, fun texto => ?_⟩
  · obtain ⟨hleg, hord⟩ := hv.legivel
    rw [parseJson_canonicalJson hleg hp, hord]
  · cases h : parseJson texto with
    | error e => exact .inl ⟨e, rfl⟩
    | ok v => exact .inr ⟨v, rfl, cabe_of_parseJson h⟩

end Eav7
