import Eav7.Codificacao

/-!
# The canonical encoding is unambiguous

No encoding of a value is a prefix of the encoding of another one: the tag gives
the shape and the length gives the end.
-/

namespace Eav7

theorem bytesDe_injective : Function.Injective bytesDe := by
  intro s t h
  unfold bytesDe at h
  exact String.toByteArray_inj.mp (ByteArray.ext (Array.toList_inj.mp h))

/-- Text from bytes, when they are UTF-8. -/
def utf8De (bs : Bytes) : Option String :=
  if h : (ByteArray.mk bs.toArray).IsValidUTF8 then some ⟨⟨bs.toArray⟩, h⟩ else none

theorem utf8De_bytesDe (s : String) : utf8De (bytesDe s) = some s := by
  have hbytes : ByteArray.mk (bytesDe s).toArray = s.toByteArray := by
    unfold bytesDe
    rw [Array.toArray_toList]
  unfold utf8De
  rw [dif_pos (hbytes ▸ s.isValidUTF8)]
  exact congrArg some (String.toByteArray_inj.mp hbytes)

theorem bytesDe_of_utf8De {bs : Bytes} {s : String} (h : utf8De bs = some s) : bytesDe s = bs := by
  unfold utf8De at h
  split_ifs at h with hv
  cases h
  rfl

namespace Value

/-- The decimal digits of an integer in canonical form: no leading zero, no minus zero. -/
def intStr (s : String) : Option Value :=
  let corpo := match s.toList with
    | '-' :: resto => resto
    | cs => cs
  if corpo = [] ∨ corpo.all eDigito = false then none
  else if 1 < corpo.length ∧ corpo.head? = some '0' then none
  else if s = "-0" then none
  else some (.int s)

theorem intStr_of_digitos {s : String} {c : Char} {cs : List Char} (hs : s.toList = c :: cs)
    (hmenos : c ≠ '-') (hdigitos : s.toList.all eDigito = true)
    (hzero : ¬ (1 < s.toList.length ∧ s.toList.head? = some '0')) :
    intStr s = some (.int s) := by
  have hcorpo : (match s.toList with
      | '-' :: resto => resto
      | cs => cs) = s.toList := by
    rw [hs]
    split
    · rename_i h
      exact absurd (List.cons.inj h).1 hmenos
    · rfl
  have hmenosZero : s ≠ "-0" := by
    rintro rfl
    exact hmenos (List.cons.inj hs).1.symm
  have hcheio : s.toList ≠ [] := hs ▸ List.cons_ne_nil c cs
  unfold intStr
  rw [hcorpo, if_neg (not_or.mpr ⟨hcheio, ne_of_eq_of_ne hdigitos Bool.noConfusion⟩),
    if_neg hzero, if_neg hmenosZero]

/-- The four bytes of a length. -/
def quatro (n : ℕ) : Bytes :=
  [UInt8.ofNat (n / 2 ^ 24), UInt8.ofNat (n / 2 ^ 16), UInt8.ofNat (n / 2 ^ 8), UInt8.ofNat n]

theorem escreveLen_eq_ok {n : ℕ} {bs : Bytes} :
    escreveLen n = .ok bs ↔ n < 2 ^ 32 ∧ bs = quatro n := by
  unfold escreveLen
  by_cases h : n < 2 ^ 32
  · rw [if_pos h]
    exact ⟨fun he => ⟨h, (Except.ok.inj he).symm⟩, fun he => congrArg _ he.2.symm⟩
  · rw [if_neg h]
    exact iff_of_false (fun he => nomatch he) fun he => h he.1

theorem quatro_inj {n m : ℕ} (hn : n < 2 ^ 32) (hm : m < 2 ^ 32) (h : quatro n = quatro m) :
    n = m := by
  simp only [quatro, List.cons.injEq, and_true] at h
  obtain ⟨h3, h2, h1, h0⟩ := h
  have e3 := congrArg UInt8.toNat h3
  have e2 := congrArg UInt8.toNat h2
  have e1 := congrArg UInt8.toNat h1
  have e0 := congrArg UInt8.toNat h0
  simp only [UInt8.toNat_ofNat'] at e3 e2 e1 e0
  omega

/-- A length and what follows it come apart in one way. -/
theorem quatro_append_inj {n m : ℕ} (hn : n < 2 ^ 32) (hm : m < 2 ^ 32) {r t : Bytes}
    (h : quatro n ++ r = quatro m ++ t) : n = m ∧ r = t := by
  obtain ⟨h1, h2⟩ := List.append_inj h rfl
  exact ⟨quatro_inj hn hm h1, h2⟩

theorem escreveTexto_eq_ok {tag : UInt8} {s : String} {bs : Bytes} :
    escreveTexto tag s = .ok bs ↔
      (bytesDe s).length < 2 ^ 32 ∧ bs = tag :: quatro (bytesDe s).length ++ bytesDe s := by
  unfold escreveTexto
  dsimp only
  constructor
  · intro h
    obtain ⟨n, hn, h⟩ := Base.except_bind_eq_ok.mp h
    obtain ⟨hlt, rfl⟩ := escreveLen_eq_ok.mp hn
    exact ⟨hlt, (Except.ok.inj h).symm⟩
  · rintro ⟨hlt, rfl⟩
    exact Base.except_bind_eq_ok.mpr ⟨_, escreveLen_eq_ok.mpr ⟨hlt, rfl⟩, rfl⟩

theorem escreveTexto_prefixo {tag : UInt8} {s s' : String} {a b r t : Bytes}
    (ha : escreveTexto tag s = .ok a) (hb : escreveTexto tag s' = .ok b) (h : a ++ r = b ++ t) :
    s = s' ∧ r = t := by
  obtain ⟨hlt, rfl⟩ := escreveTexto_eq_ok.mp ha
  obtain ⟨hlt', rfl⟩ := escreveTexto_eq_ok.mp hb
  simp only [List.cons_append, List.append_assoc, List.cons.injEq, true_and] at h
  obtain ⟨hlen, h⟩ := quatro_append_inj hlt hlt' h
  obtain ⟨hs, hr⟩ := List.append_inj h hlen
  exact ⟨bytesDe_injective hs, hr⟩

/-- The tag of the shape of a value. -/
def tag : Value → UInt8
  | .null => 0x00
  | .bool false => 0x01
  | .bool true => 0x02
  | .int _ => 0x03
  | .str _ => 0x04
  | .list _ => 0x05
  | .map _ => 0x06

theorem encode_list_eq_ok {itens : List Value} {bs : Bytes} :
    encode (.list itens) = .ok bs ↔ itens.length < 2 ^ 32 ∧
      ∃ corpo, encodeItens itens = .ok corpo ∧ bs = 0x05 :: quatro itens.length ++ corpo := by
  rw [encode]
  constructor
  · intro h
    obtain ⟨n, hn, h⟩ := Base.except_bind_eq_ok.mp h
    obtain ⟨corpo, hcorpo, h⟩ := Base.except_bind_eq_ok.mp h
    obtain ⟨hlt, rfl⟩ := escreveLen_eq_ok.mp hn
    exact ⟨hlt, corpo, hcorpo, (Except.ok.inj h).symm⟩
  · rintro ⟨hlt, corpo, hcorpo, rfl⟩
    refine Base.except_bind_eq_ok.mpr ⟨_, escreveLen_eq_ok.mpr ⟨hlt, rfl⟩, ?_⟩
    exact Base.except_bind_eq_ok.mpr ⟨corpo, hcorpo, rfl⟩

theorem encode_map_eq_ok {pares : List (String × Value)} {bs : Bytes} :
    encode (.map pares) = .ok bs ↔ pares.length < 2 ^ 32 ∧
      ∃ corpo, encodePares pares = .ok corpo ∧ bs = 0x06 :: quatro pares.length ++ corpo := by
  rw [encode]
  constructor
  · intro h
    obtain ⟨n, hn, h⟩ := Base.except_bind_eq_ok.mp h
    obtain ⟨corpo, hcorpo, h⟩ := Base.except_bind_eq_ok.mp h
    obtain ⟨hlt, rfl⟩ := escreveLen_eq_ok.mp hn
    exact ⟨hlt, corpo, hcorpo, (Except.ok.inj h).symm⟩
  · rintro ⟨hlt, corpo, hcorpo, rfl⟩
    refine Base.except_bind_eq_ok.mpr ⟨_, escreveLen_eq_ok.mpr ⟨hlt, rfl⟩, ?_⟩
    exact Base.except_bind_eq_ok.mpr ⟨corpo, hcorpo, rfl⟩

theorem encodeItens_cons_eq_ok {v : Value} {vs : List Value} {bs : Bytes} :
    encodeItens (v :: vs) = .ok bs ↔
      ∃ a b, encode v = .ok a ∧ encodeItens vs = .ok b ∧ bs = a ++ b := by
  rw [encodeItens]
  constructor
  · intro h
    obtain ⟨a, ha, h⟩ := Base.except_bind_eq_ok.mp h
    obtain ⟨b, hb, h⟩ := Base.except_bind_eq_ok.mp h
    exact ⟨a, b, ha, hb, (Except.ok.inj h).symm⟩
  · rintro ⟨a, b, ha, hb, rfl⟩
    exact Base.except_bind_eq_ok.mpr ⟨a, ha, Base.except_bind_eq_ok.mpr ⟨b, hb, rfl⟩⟩

theorem encodePares_cons_eq_ok {e : String × Value} {es : List (String × Value)} {bs : Bytes} :
    encodePares (e :: es) = .ok bs ↔ ∃ k a b, escreveTexto 0x04 e.1 = .ok k ∧
      encode e.2 = .ok a ∧ encodePares es = .ok b ∧ bs = k ++ a ++ b := by
  rw [encodePares]
  constructor
  · intro h
    obtain ⟨k, hk, h⟩ := Base.except_bind_eq_ok.mp h
    obtain ⟨a, ha, h⟩ := Base.except_bind_eq_ok.mp h
    obtain ⟨b, hb, h⟩ := Base.except_bind_eq_ok.mp h
    exact ⟨k, a, b, hk, ha, hb, (Except.ok.inj h).symm⟩
  · rintro ⟨k, a, b, hk, ha, hb, rfl⟩
    refine Base.except_bind_eq_ok.mpr ⟨k, hk, Base.except_bind_eq_ok.mpr ⟨a, ha, ?_⟩⟩
    exact Base.except_bind_eq_ok.mpr ⟨b, hb, rfl⟩

/-- An encoding starts with the tag of its value. -/
theorem head_encode {v : Value} {bs : Bytes} (h : encode v = .ok bs) :
    ∃ resto, bs = v.tag :: resto := by
  cases v with
  | null => exact ⟨[], (Except.ok.inj h).symm⟩
  | bool b =>
    cases b with
    | false => exact ⟨[], (Except.ok.inj h).symm⟩
    | true => exact ⟨[], (Except.ok.inj h).symm⟩
  | int d => exact ⟨_, (escreveTexto_eq_ok.mp h).2⟩
  | str s => exact ⟨_, (escreveTexto_eq_ok.mp h).2⟩
  | list itens =>
    obtain ⟨-, corpo, -, rfl⟩ := encode_list_eq_ok.mp h
    exact ⟨_, rfl⟩
  | map pares =>
    obtain ⟨-, corpo, -, rfl⟩ := encode_map_eq_ok.mp h
    exact ⟨_, rfl⟩

theorem tag_eq_of_prefixo {v w : Value} {a b r t : Bytes} (ha : encode v = .ok a)
    (hb : encode w = .ok b) (h : a ++ r = b ++ t) : v.tag = w.tag := by
  obtain ⟨_, rfl⟩ := head_encode ha
  obtain ⟨_, rfl⟩ := head_encode hb
  exact (List.cons.inj h).1

mutual

theorem encode_prefixo : ∀ (v w : Value) {a b r t : Bytes}, encode v = .ok a → encode w = .ok b →
    a ++ r = b ++ t → v = w ∧ r = t
  | .null, w, _, _, _, _, ha, hb, h => by
    have htag := tag_eq_of_prefixo ha hb h
    cases w with
    | null =>
      cases ha
      cases hb
      exact ⟨rfl, (List.cons.inj h).2⟩
    | bool b => cases b <;> cases htag
    | int _ | str _ | list _ | map _ => cases htag
  | .bool x, w, _, _, _, _, ha, hb, h => by
    have htag := tag_eq_of_prefixo ha hb h
    cases w with
    | bool y =>
      cases x <;> cases y <;> cases ha <;> cases hb <;>
        first | exact ⟨rfl, (List.cons.inj h).2⟩ | cases htag
    | null | int _ | str _ | list _ | map _ => cases x <;> cases htag
  | .int d, w, _, _, _, _, ha, hb, h => by
    have htag := tag_eq_of_prefixo ha hb h
    cases w with
    | int d' =>
      obtain ⟨rfl, hr⟩ := escreveTexto_prefixo ha hb h
      exact ⟨rfl, hr⟩
    | bool b => cases b <;> cases htag
    | null | str _ | list _ | map _ => cases htag
  | .str s, w, _, _, _, _, ha, hb, h => by
    have htag := tag_eq_of_prefixo ha hb h
    cases w with
    | str s' =>
      obtain ⟨rfl, hr⟩ := escreveTexto_prefixo ha hb h
      exact ⟨rfl, hr⟩
    | bool b => cases b <;> cases htag
    | null | int _ | list _ | map _ => cases htag
  | .list vs, w, _, _, _, _, ha, hb, h => by
    have htag := tag_eq_of_prefixo ha hb h
    cases w with
    | list ws =>
      obtain ⟨hlt, corpo, hcorpo, rfl⟩ := encode_list_eq_ok.mp ha
      obtain ⟨hlt', corpo', hcorpo', rfl⟩ := encode_list_eq_ok.mp hb
      simp only [List.cons_append, List.append_assoc, List.cons.injEq, true_and] at h
      obtain ⟨hlen, h⟩ := quatro_append_inj hlt hlt' h
      obtain ⟨rfl, hr⟩ := encodeItens_prefixo vs ws hlen hcorpo hcorpo' h
      exact ⟨rfl, hr⟩
    | bool b => cases b <;> cases htag
    | null | int _ | str _ | map _ => cases htag
  | .map es, w, _, _, _, _, ha, hb, h => by
    have htag := tag_eq_of_prefixo ha hb h
    cases w with
    | map fs =>
      obtain ⟨hlt, corpo, hcorpo, rfl⟩ := encode_map_eq_ok.mp ha
      obtain ⟨hlt', corpo', hcorpo', rfl⟩ := encode_map_eq_ok.mp hb
      simp only [List.cons_append, List.append_assoc, List.cons.injEq, true_and] at h
      obtain ⟨hlen, h⟩ := quatro_append_inj hlt hlt' h
      obtain ⟨rfl, hr⟩ := encodePares_prefixo es fs hlen hcorpo hcorpo' h
      exact ⟨rfl, hr⟩
    | bool b => cases b <;> cases htag
    | null | int _ | str _ | list _ => cases htag

theorem encodeItens_prefixo : ∀ (vs ws : List Value) {a b r t : Bytes}, vs.length = ws.length →
    encodeItens vs = .ok a → encodeItens ws = .ok b → a ++ r = b ++ t → vs = ws ∧ r = t
  | [], [], _, _, _, _, _, ha, hb, h => by
    cases ha
    cases hb
    exact ⟨rfl, h⟩
  | v :: vs, w :: ws, _, _, _, _, hlen, ha, hb, h => by
    obtain ⟨a, as, hv, hvs, rfl⟩ := encodeItens_cons_eq_ok.mp ha
    obtain ⟨b, bs, hw, hws, rfl⟩ := encodeItens_cons_eq_ok.mp hb
    rw [List.append_assoc, List.append_assoc] at h
    obtain ⟨rfl, h⟩ := encode_prefixo v w hv hw h
    obtain ⟨rfl, hr⟩ := encodeItens_prefixo vs ws (Nat.succ.inj hlen) hvs hws h
    exact ⟨rfl, hr⟩

theorem encodePares_prefixo : ∀ (es fs : List (String × Value)) {a b r t : Bytes},
    es.length = fs.length → encodePares es = .ok a → encodePares fs = .ok b → a ++ r = b ++ t →
    es = fs ∧ r = t
  | [], [], _, _, _, _, _, ha, hb, h => by
    cases ha
    cases hb
    exact ⟨rfl, h⟩
  | (k, v) :: es, (l, w) :: fs, _, _, _, _, hlen, ha, hb, h => by
    obtain ⟨ka, a, as, hk, hv, hvs, rfl⟩ := encodePares_cons_eq_ok.mp ha
    obtain ⟨lb, b, bs, hl, hw, hws, rfl⟩ := encodePares_cons_eq_ok.mp hb
    rw [List.append_assoc, List.append_assoc, List.append_assoc, List.append_assoc] at h
    obtain ⟨rfl, h⟩ := escreveTexto_prefixo hk hl h
    obtain ⟨rfl, h⟩ := encode_prefixo v w hv hw h
    obtain ⟨rfl, hr⟩ := encodePares_prefixo es fs (Nat.succ.inj hlen) hvs hws h
    exact ⟨rfl, hr⟩

end

/-- Two values with the same bytes are the same value. -/
theorem encode_injective {v w : Value} {bs : Bytes} (hv : encode v = .ok bs)
    (hw : encode w = .ok bs) : v = w :=
  (encode_prefixo v w (r := []) (t := []) hv hw rfl).1

end Value
end Eav7
