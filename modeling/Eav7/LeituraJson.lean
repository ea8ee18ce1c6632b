import Eav7.Canonica

/-!
# Reading JSON text

The strict reader of the lines that the chain keeps on disk: integers only, no repeated
key, bounded nesting, nothing after the value. Positions in the errors count bytes.
-/

namespace Eav7

open Base

def MAX_JSON_DEPTH : ℕ := 512

/-- A byte as the character with its number. -/
def letra (b : UInt8) : Char := Char.ofNat b.toNat

namespace Leitor

/-- What is left after a value was read. -/
def Resto (r : Bytes) := { r' : Bytes // r'.length < r.length }

def espacoJson (b : UInt8) : Bool := letra b ∈ [' ', '\t', '\n', '\r']

def pulaEspaco (r : Bytes) : Bytes := r.dropWhile espacoJson

theorem pulaEspaco_length (r : Bytes) : (pulaEspaco r).length ≤ r.length :=
  (List.dropWhile_suffix _).length_le

def atual (r : Bytes) : Option Char := r.head?.map letra

section

-- The length of the whole text.
variable (total : ℕ)

def posicao (r : Bytes) : ℕ := total - r.length

/-- An exact reserved word, of at least one letter. -/
def palavra (lit : String) (v : JsonValue) (r : Bytes) : Falha (JsonValue × Resto r) :=
  if h : (bytesDe lit).isPrefixOf r ∧ 0 < (bytesDe lit).length ∧ 0 < r.length then
    .ok (v, ⟨r.drop (bytesDe lit).length, by rw [List.length_drop]; omega⟩)
  else falhar s!"esperava `{lit}` na posição {posicao total r}"

/-- Decimal digits as a number. -/
def decimal (ds : Bytes) : ℕ := ds.foldl (fun n d => 10 * n + (d.toNat - 48)) 0

def digito (b : UInt8) : Bool := (letra b).isDigit

/-- An integer of 64 bits: no leading zero, fraction or exponent. -/
def numero (r : Bytes) : Falha (JsonValue × Resto r) :=
  let negativo := atual r = some '-'
  let corpo := if negativo then r.tail else r
  let digitos := corpo.takeWhile digito
  let depois := corpo.dropWhile digito
  if hd : digitos = [] then falhar s!"número sem dígitos na posição {posicao total r}"
  else if atual digitos = some '0' ∧ 1 < digitos.length then
    falhar s!"zero à esquerda na posição {posicao total r}"
  else if atual depois ∈ [some '.', some 'e', some 'E'] then
    falhar (s!"número não inteiro na posição {posicao total r}: " ++
      "o estado de consenso não admite ponto flutuante")
  else
    let n : ℤ := if negativo then -decimal digitos else decimal digitos
    if i64Min ≤ n ∧ n ≤ i64Max then
      .ok (.int n, ⟨depois, by
        have hpartes := congrArg List.length
          (List.takeWhile_append_dropWhile (p := digito) (l := corpo))
        have hcorpo : corpo.length ≤ r.length := by
          dsimp only [corpo]
          split_ifs <;> simp
        have hpos : 0 < digitos.length := List.length_pos_iff.mpr hd
        rw [List.length_append] at hpartes
        dsimp only [digitos, depois] at hpos ⊢
        omega⟩)
    else
      let bruto := String.ofList ((r.take (r.length - depois.length)).map letra)
      falhar s!"inteiro fora da faixa de i64 na posição {posicao total r}: {bruto}"

/-- The value of hexadecimal digits, read from a position on. -/
def hexLaco (onde acc : ℕ) : Bytes → Falha ℕ
  | [] => .ok acc
  | b :: r =>
    match digito? 16 (letra b) with
    | some d => hexLaco (onde + 1) (16 * acc + d) r
    | none => falhar s!"dígito hexadecimal inválido no escape `\\u` na posição {onde}"

def hex4 (r : Bytes) : Falha (ℕ × Resto r) :=
  if h : r.length < 4 then falhar "escape `\\u` truncado"
  else do
    let n ← hexLaco (posicao total r) 0 (r.take 4)
    return (n, ⟨r.drop 4, by rw [List.length_drop]; omega⟩)

def alto? (n : ℕ) : Bool := 0xd800 ≤ n && n ≤ 0xdbff
def baixo? (n : ℕ) : Bool := 0xdc00 ≤ n && n ≤ 0xdfff

/-- The bytes of a code unit that follows `\u`, or of a surrogate pair. -/
def unidade (r : Bytes) : Falha (Bytes × Resto r) := do
  let (alto, r₁) ← hex4 total r
  if alto? alto then
    if r₁.1.take 2 = bytesDe "\\u" then do
      let (baixo, r₂) ← hex4 total (r₁.1.drop 2)
      if baixo? baixo then
        let ponto := 0x10000 + (alto - 0xd800) * 0x400 + (baixo - 0xdc00)
        return (String.utf8EncodeChar (Char.ofNat ponto), ⟨r₂.1, by
          have h₁ := r₁.2
          have h₂ := r₂.2
          have h₃ := List.length_drop (i := 2) (l := r₁.1)
          omega⟩)
      else falhar s!"par substituto malformado na posição {posicao total r₂.1}"
    else falhar s!"substituto alto sem par na posição {posicao total r₁.1}"
  else if baixo? alto then falhar s!"substituto baixo solto na posição {posicao total r₁.1}"
  else return (String.utf8EncodeChar (Char.ofNat alto), r₁)

/-- What an escape stands for, read after its backslash. -/
def escape : (r : Bytes) → Falha (Bytes × Resto r)
  | [] => falhar "escape truncado no fim da entrada"
  | e :: r =>
    let um (b : UInt8) : Falha (Bytes × Resto (e :: r)) := .ok ([b], ⟨r, by simp⟩)
    match letra e with
    | '"' => um 34
    | '\\' => um 92
    | '/' => um 47
    | 'b' => um 8
    | 'f' => um 12
    | 'n' => um 10
    | 'r' => um 13
    | 't' => um 9
    | 'u' => do
      let (bs, r₁) ← unidade total r
      return (bs, ⟨r₁.1, by have := r₁.2; simp; omega⟩)
    | c => falhar s!"escape desconhecido `\\{c}` na posição {posicao total (e :: r)}"

/-- The rest of a string after its opening quote. -/
def stringLaco (acc : Bytes) : (r : Bytes) → Falha (String × Resto r)
  | [] => falhar "string sem fechamento (JSON truncado)"
  | c :: r =>
    if letra c = '"' then
      match utf8De acc with
      | some s => .ok (s, ⟨r, by simp⟩)
      | none => falhar "string com UTF-8 inválido"
    else if letra c = '\\' then do
      let (bs, r₁) ← escape total r
      have := r₁.2
      let (s, r₂) ← stringLaco (acc ++ bs) r₁.1
      return (s, ⟨r₂.1, by have := r₂.2; simp; omega⟩)
    else if c ≤ 0x1f then
      falhar s!"caractere de controle cru em string na posição {posicao total (c :: r)}"
    else do
      let (s, r₂) ← stringLaco (acc ++ [c]) r
      return (s, ⟨r₂.1, by have := r₂.2; simp; omega⟩)
termination_by r => r.length
decreasing_by all_goals simp; try omega

def string : (r : Bytes) → Falha (String × Resto r)
  | [] => falhar s!"esperava `\"` na posição {posicao total []}"
  | c :: r =>
    if letra c = '"' then do
      let (s, r₁) ← stringLaco total [] r
      return (s, ⟨r₁.1, by have := r₁.2; simp; omega⟩)
    else falhar s!"esperava `\"` na posição {posicao total (c :: r)}"

section

-- The reader of a value one level deeper.
variable (filho : (r : Bytes) → Falha (JsonValue × Resto r))

/-- The values of a list and its closing bracket. -/
def itens (acc : List JsonValue) (r : Bytes) : Falha (JsonValue × Resto r) := do
  let (v, r₁) ← filho (pulaEspaco r)
  have h₀ := pulaEspaco_length r
  have h₁ := r₁.2
  have h₂ := pulaEspaco_length r₁.1
  match h : pulaEspaco r₁.1 with
  | [] => falhar s!"esperava `,` ou `]` na posição {posicao total []}"
  | c :: r₂ =>
    have h₃ := congrArg List.length h
    if letra c = ',' then do
      let (w, r₃) ← itens (acc ++ [v]) r₂
      return (w, ⟨r₃.1, by have := r₃.2; simp at h₃; omega⟩)
    else if letra c = ']' then return (.list (acc ++ [v]), ⟨r₂, by simp at h₃; omega⟩)
    else falhar s!"esperava `,` ou `]` na posição {posicao total (c :: r₂)}"
termination_by r.length
decreasing_by simp at h₃; omega

/-- A list, from its opening bracket. -/
def lista (r : Bytes) (hr : r ≠ []) : Falha (JsonValue × Resto r) :=
  have hpos := List.length_pos_iff.mpr hr
  have h₀ := pulaEspaco_length r.tail
  if atual (pulaEspaco r.tail) = some ']' then
    .ok (.list [], ⟨(pulaEspaco r.tail).tail, by simp at h₀ ⊢; omega⟩)
  else do
    let (v, r₁) ← itens total filho [] (pulaEspaco r.tail)
    return (v, ⟨r₁.1, by have := r₁.2; simp at h₀; omega⟩)

/-- The pairs of an object and its closing brace. -/
def pares (acc : OrdMap String JsonValue) (r : Bytes) : Falha (JsonValue × Resto r) := do
  let (chave, r₁) ← string total (pulaEspaco r)
  have h₀ := pulaEspaco_length r
  have h₁ := r₁.2
  have h₂ := pulaEspaco_length r₁.1
  match h : pulaEspaco r₁.1 with
  | [] => falhar s!"esperava `:` na posição {posicao total []}"
  | c :: r₂ =>
    if letra c = ':' then do
      have h₃ := congrArg List.length h
      let (v, r₃) ← filho (pulaEspaco r₂)
      have h₄ := pulaEspaco_length r₂
      have h₅ := r₃.2
      falharSe (acc.contains chave)
        s!"chave repetida `{chave}` na posição {posicao total (pulaEspaco r)}"
      have h₆ := pulaEspaco_length r₃.1
      match h' : pulaEspaco r₃.1 with
      | [] => falhar s!"esperava `,` ou `\x7d` na posição {posicao total []}"
      | d :: r₄ =>
        have h₇ := congrArg List.length h'
        if letra d = ',' then do
          let (w, r₅) ← pares (acc.insert chave v) r₄
          return (w, ⟨r₅.1, by have := r₅.2; simp at h₃ h₇; omega⟩)
        else if letra d = '}' then
          return (.map (acc.insert chave v).entries, ⟨r₄, by simp at h₃ h₇; omega⟩)
        else falhar s!"esperava `,` ou `\x7d` na posição {posicao total (d :: r₄)}"
    else falhar s!"esperava `:` na posição {posicao total (c :: r₂)}"
termination_by r.length
decreasing_by simp at h₃ h₇; omega

/-- An object, from its opening brace. -/
def objeto (r : Bytes) (hr : r ≠ []) : Falha (JsonValue × Resto r) :=
  have hpos := List.length_pos_iff.mpr hr
  have h₀ := pulaEspaco_length r.tail
  if atual (pulaEspaco r.tail) = some '}' then
    .ok (.map [], ⟨(pulaEspaco r.tail).tail, by simp at h₀ ⊢; omega⟩)
  else do
    let (v, r₁) ← pares total filho ∅ (pulaEspaco r.tail)
    return (v, ⟨r₁.1, by have := r₁.2; simp at h₀; omega⟩)

end

def fundoDemais {r' : Bytes} (r : Bytes) : Falha (JsonValue × Resto r') :=
  falhar s!"aninhamento acima de {MAX_JSON_DEPTH} níveis na posição {posicao total r}"

/-- A value by its first byte; without a reader for the next level no list or object may
open. -/
def token (filho : Option ((r : Bytes) → Falha (JsonValue × Resto r))) :
    (r : Bytes) → Falha (JsonValue × Resto r)
  | [] => falhar "JSON vazio ou truncado: esperava um valor"
  | b :: r =>
    match letra b with
    | 'n' => palavra total "null" .null (b :: r)
    | 't' => palavra total "true" (.bool true) (b :: r)
    | 'f' => palavra total "false" (.bool false) (b :: r)
    | '"' => do
      let (s, r₁) ← string total (b :: r)
      return (.str s, r₁)
    | '[' =>
      match filho with
      | some f => lista total f (b :: r) (List.cons_ne_nil b r)
      | none => fundoDemais total (b :: r)
    | '{' =>
      match filho with
      | some f => objeto total f (b :: r) (List.cons_ne_nil b r)
      | none => fundoDemais total (b :: r)
    | c =>
      if c = '-' ∨ c.isDigit then numero total (b :: r)
      else falhar s!"token inesperado na posição {posicao total (b :: r)}"

/-- A value with room for some levels of nesting. -/
def valor : ℕ → (r : Bytes) → Falha (JsonValue × Resto r)
  | 0 => token total none
  | niveis + 1 => token total (some (valor niveis))

end

end Leitor

def parseJson (texto : String) : Falha JsonValue := do
  let b := bytesDe texto
  let (v, r) ← Leitor.valor b.length MAX_JSON_DEPTH (Leitor.pulaEspaco b)
  let depois := Leitor.pulaEspaco r.1
  falharSe (depois ≠ []) s!"lixo após o valor JSON na posição {Leitor.posicao b.length depois}"
  return v

/-! ## Line breaks and blank texts -/

theorem quebra_nao_ocorre_char {c : Char} (h : c ≠ '\n') :
    (10 : UInt8) ∉ String.utf8EncodeChar c := by
  have hv : c.val.toNat ≠ 10 := by
    intro hc
    exact h (Char.ext (UInt32.toNat_inj.mp hc))
  have hbyte : ∀ n, n % 256 ≠ 10 → (10 : UInt8) ≠ UInt8.ofNat n := by
    intro n hn heq
    have := congrArg UInt8.toNat heq
    rw [UInt8.toNat_ofNat'] at this
    exact hn this.symm
  unfold String.utf8EncodeChar
  dsimp only
  split_ifs <;> simp only [List.mem_cons, List.not_mem_nil, or_false, not_or]
  · exact hbyte _ (by omega)
  · exact ⟨hbyte _ (by omega), hbyte _ (by omega)⟩
  · exact ⟨hbyte _ (by omega), hbyte _ (by omega), hbyte _ (by omega)⟩
  · exact ⟨hbyte _ (by omega), hbyte _ (by omega), hbyte _ (by omega), hbyte _ (by omega)⟩

/-- The byte of a line break stands for one only. -/
theorem quebra_nao_ocorre {s : String} (h : '\n' ∉ s.toList) : (10 : UInt8) ∉ bytesDe s := by
  rw [bytesDe_eq, List.mem_flatMap]
  rintro ⟨c, hc, hb⟩
  refine quebra_nao_ocorre_char (c := c) ?_ hb
  rintro rfl
  exact h hc

/-- The bytes that a blank character may begin with, apart from the white space of JSON. -/
def inicioEmBranco : Bytes := [11, 12, 194, 225, 226, 227]

/-- A blank character is white space of JSON, or its first byte starts no value. -/
def apagavel (c : Char) : Bool :=
  match String.utf8EncodeChar c with
  | [] => false
  | b :: r => (r.isEmpty && Leitor.espacoJson b) || b ∈ inicioEmBranco

theorem apagavel_of_rustEspaco {c : Char} (h : rustEspaco c = true) : apagavel c = true := by
  have htodos : ∀ n ∈ List.range' 9 5 ++ [0x20, 0x85, 0xa0, 0x1680, 0x2028, 0x2029, 0x202f, 0x205f,
      0x3000] ++ List.range' 0x2000 11, apagavel (Char.ofNat n) = true := by decide
  rw [← Char.ofNat_toNat c]
  refine htodos c.toNat ?_
  unfold rustEspaco at h
  simp only [Bool.or_eq_true, Bool.and_eq_true, decide_eq_true_eq] at h
  rw [List.mem_append, List.mem_append, List.mem_range'_1, List.mem_range'_1]
  rcases h with (h | h) | h
  · exact .inl (.inl (by omega))
  · exact .inl (.inr h)
  · exact .inr (by omega)

theorem inicio_nao_pula : ∀ b ∈ inicioEmBranco, Leitor.espacoJson b = false := by decide +kernel

theorem token_em_branco (total : ℕ)
    (f : Option ((r : Bytes) → Falha (JsonValue × Leitor.Resto r))) {b : UInt8} (r : Bytes)
    (h : b ∈ inicioEmBranco) : ∃ e, Leitor.token total f (b :: r) = .error e := by
  simp only [inicioEmBranco, List.mem_cons, List.not_mem_nil, or_false] at h
  rcases h with rfl | rfl | rfl | rfl | rfl | rfl <;> exact ⟨_, rfl⟩

theorem valor_em_branco (total niveis : ℕ) {cs : List Char} (h : cs.all rustEspaco = true) :
    ∃ e, Leitor.valor total niveis (Leitor.pulaEspaco (cs.flatMap String.utf8EncodeChar)) =
      .error e := by
  induction cs with
  | nil => cases niveis <;> exact ⟨_, rfl⟩
  | cons c cs ih =>
    obtain ⟨hc, hcs⟩ := Bool.and_eq_true_iff.mp h
    have hapaga := apagavel_of_rustEspaco hc
    unfold apagavel at hapaga
    rw [List.flatMap_cons]
    split at hapaga
    · cases hapaga
    · next b r hbytes =>
      rw [hbytes]
      rcases Bool.or_eq_true_iff.mp hapaga with hum | hb
      · obtain ⟨hr, hb⟩ := Bool.and_eq_true_iff.mp hum
        rw [List.isEmpty_iff.mp hr, List.singleton_append, Leitor.pulaEspaco,
          List.dropWhile_cons_of_pos hb]
        exact ih hcs
      · have hb := of_decide_eq_true hb
        have hnao : Leitor.espacoJson b = false := inicio_nao_pula b hb
        rw [List.cons_append, Leitor.pulaEspaco, List.dropWhile_cons_of_neg (by rw [hnao]; decide)]
        cases niveis <;> exact token_em_branco _ _ _ hb

/-- A blank text is no JSON. -/
theorem parseJson_em_branco {texto : String} (h : texto.toList.all rustEspaco = true) :
    ∃ e, parseJson texto = .error e := by
  have hvalor := valor_em_branco (bytesDe texto).length MAX_JSON_DEPTH h
  rw [← bytesDe_eq] at hvalor
  obtain ⟨e, he⟩ := hvalor
  refine ⟨e, ?_⟩
  unfold parseJson
  dsimp only
  rw [he]
  rfl

end Eav7
