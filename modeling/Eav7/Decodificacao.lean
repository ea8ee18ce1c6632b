import Eav7.Canonica

/-!
# Reading the canonical encoding

The reader of snapshots. It accepts exactly what the writer writes: every accepted text is
the encoding of the value it gives, and every value in canonical form that does not nest
too deep is read back.
-/

namespace Eav7

open Base

/-- What is wrong with the bytes, and where. -/
inductive ErroDecode where
  | truncado (posicao : ℕ)
  | tagDesconhecida (posicao : ℕ) (tag : UInt8)
  | textoInvalido (posicao : ℕ)
  | intNaoCanonico (s : String)
  | chaveNaoTextual (posicao : ℕ)
  | mapaForaDeOrdem (posicao : ℕ)
  | muitoProfundo (posicao : ℕ)
  | lixoNoFim (posicao : ℕ)
  deriving DecidableEq

namespace Value

def MAX_PROFUNDIDADE : ℕ := 64

abbrev Lido := Except ErroDecode

def errarSe (c : Prop) [Decidable c] (e : ErroDecode) : Lido Unit :=
  if c then .error e else .ok ()

theorem errarSe_eq_ok {c : Prop} [Decidable c] {e : ErroDecode} {u : Unit} :
    errarSe c e = .ok u ↔ ¬ c := by
  unfold errarSe
  split_ifs with h <;> simp [h]

section

-- The length of the whole text; a position is where the rest starts.
variable (total : ℕ)

def leLen (r : Bytes) : Lido (ℕ × Bytes) :=
  match r with
  | a :: b :: c :: d :: r =>
    .ok (((a.toNat * 256 + b.toNat) * 256 + c.toNat) * 256 + d.toNat, r)
  | _ => .error (.truncado (total - r.length))

def leBytes (r : Bytes) (n : ℕ) : Lido (Bytes × Bytes) :=
  if n ≤ r.length then .ok (r.take n, r.drop n) else .error (.truncado (total - r.length))

/-- The text of an integer or of a string whose tag stands at `inicio`. -/
def leTexto (inicio : ℕ) (r : Bytes) : Lido (String × Bytes) := do
  let (n, r) ← leLen total r
  let (corpo, r) ← leBytes total r n
  match utf8De corpo with
  | some s => .ok (s, r)
  | none => .error (.textoInvalido inicio)

section

-- The reader of a value one level deeper.
variable (filho : Bytes → Lido (Value × Bytes))

def decodeItens : ℕ → Bytes → Lido (List Value × Bytes)
  | 0, r => .ok ([], r)
  | n + 1, r => do
    let (v, r) ← filho r
    let (vs, r) ← decodeItens n r
    return (v :: vs, r)

/-- The entries of a map, whose keys go up strictly from the one before. -/
def decodePares : Option String → ℕ → Bytes → Lido (List (String × Value) × Bytes)
  | _, 0, r => .ok ([], r)
  | anterior, n + 1, r => do
    let (chave, r₁) ← filho r
    match chave with
    | .str k => do
      errarSe (∃ p ∈ anterior, k ≤ p) (.mapaForaDeOrdem (total - r.length))
      let (v, r₂) ← filho r₁
      let (es, r₃) ← decodePares (some k) n r₂
      return ((k, v) :: es, r₃)
    | _ => .error (.chaveNaoTextual (total - r.length))

end

/-- The value at the head of a text, with the levels that it may still take. -/
def decodeEm : ℕ → Bytes → Lido (Value × Bytes)
  | 0, r => .error (.muitoProfundo (total - r.length))
  | _ + 1, [] => .error (.truncado total)
  | niveis + 1, tag :: r =>
    let inicio := total - (r.length + 1)
    if tag = 0x00 then .ok (.null, r)
    else if tag = 0x01 then .ok (.bool false, r)
    else if tag = 0x02 then .ok (.bool true, r)
    else if tag = 0x03 then do
      let (s, r) ← leTexto total inicio r
      match intStr s with
      | some v => .ok (v, r)
      | none => .error (.intNaoCanonico s)
    else if tag = 0x04 then do
      let (s, r) ← leTexto total inicio r
      return (.str s, r)
    else if tag = 0x05 then do
      let (n, r) ← leLen total r
      let (itens, r) ← decodeItens (decodeEm niveis) n r
      return (.list itens, r)
    else if tag = 0x06 then do
      let (n, r) ← leLen total r
      let (pares, r) ← decodePares total (decodeEm niveis) none n r
      return (.map pares, r)
    else .error (.tagDesconhecida inicio tag)

end

def decode (bytes : Bytes) : Lido Value := do
  let (v, r) ← decodeEm bytes.length (MAX_PROFUNDIDADE + 1) bytes
  errarSe (r ≠ []) (.lixoNoFim (bytes.length - r.length))
  return v

/-! ## Values in canonical form -/

mutual
/-- Integers in canonical form and keys in strict order. -/
def Canonico : Value → Prop
  | .int d => intStr d = some (.int d)
  | .list itens => CanonicoItens itens
  | .map pares => (pares.map Prod.fst).Pairwise (· < ·) ∧ CanonicoPares pares
  | _ => True

def CanonicoItens : List Value → Prop
  | [] => True
  | v :: vs => v.Canonico ∧ CanonicoItens vs

def CanonicoPares : List (String × Value) → Prop
  | [] => True
  | e :: es => e.2.Canonico ∧ CanonicoPares es
end

mutual
/-- How many levels stand below a value. A key stands one level below its map. -/
def profundidade : Value → ℕ
  | .list itens => profundidadeItens itens
  | .map pares => profundidadePares pares
  | _ => 0

def profundidadeItens : List Value → ℕ
  | [] => 0
  | v :: vs => max (v.profundidade + 1) (profundidadeItens vs)

def profundidadePares : List (String × Value) → ℕ
  | [] => 0
  | e :: es => max (e.2.profundidade + 1) (profundidadePares es)
end

mutual
/-- Every length fits in 32 bits. -/
def CabeU32 : Value → Prop
  | .int d => (bytesDe d).length < 2 ^ 32
  | .str s => (bytesDe s).length < 2 ^ 32
  | .list itens => itens.length < 2 ^ 32 ∧ CabeItens itens
  | .map pares => pares.length < 2 ^ 32 ∧ CabePares pares
  | _ => True

def CabeItens : List Value → Prop
  | [] => True
  | v :: vs => v.CabeU32 ∧ CabeItens vs

def CabePares : List (String × Value) → Prop
  | [] => True
  | e :: es => (bytesDe e.1).length < 2 ^ 32 ∧ e.2.CabeU32 ∧ CabePares es
end

mutual

theorem encode_of_cabe : ∀ (v : Value), v.CabeU32 → ∃ bs, encode v = .ok bs
  | .null, _ => ⟨_, rfl⟩
  | .bool true, _ => ⟨_, rfl⟩
  | .bool false, _ => ⟨_, rfl⟩
  | .int _, h => ⟨_, escreveTexto_eq_ok.mpr ⟨h, rfl⟩⟩
  | .str _, h => ⟨_, escreveTexto_eq_ok.mpr ⟨h, rfl⟩⟩
  | .list itens, h => by
    obtain ⟨hlen, hitens⟩ := h
    obtain ⟨corpo, hcorpo⟩ := encodeItens_of_cabe itens hitens
    exact ⟨_, encode_list_eq_ok.mpr ⟨hlen, corpo, hcorpo, rfl⟩⟩
  | .map pares, h => by
    obtain ⟨hlen, hpares⟩ := h
    obtain ⟨corpo, hcorpo⟩ := encodePares_of_cabe pares hpares
    exact ⟨_, encode_map_eq_ok.mpr ⟨hlen, corpo, hcorpo, rfl⟩⟩

theorem encodeItens_of_cabe : ∀ (vs : List Value), CabeItens vs → ∃ bs, encodeItens vs = .ok bs
  | [], _ => ⟨_, rfl⟩
  | v :: vs, h => by
    obtain ⟨a, ha⟩ := encode_of_cabe v h.1
    obtain ⟨b, hb⟩ := encodeItens_of_cabe vs h.2
    exact ⟨_, encodeItens_cons_eq_ok.mpr ⟨a, b, ha, hb, rfl⟩⟩

theorem encodePares_of_cabe : ∀ (es : List (String × Value)), CabePares es →
    ∃ bs, encodePares es = .ok bs
  | [], _ => ⟨_, rfl⟩
  | e :: es, h => by
    obtain ⟨a, ha⟩ := encode_of_cabe e.2 h.2.1
    obtain ⟨b, hb⟩ := encodePares_of_cabe es h.2.2
    have hk : escreveTexto 0x04 e.1 = .ok _ := escreveTexto_eq_ok.mpr ⟨h.1, rfl⟩
    exact ⟨_, encodePares_cons_eq_ok.mpr ⟨_, a, b, hk, ha, hb, rfl⟩⟩

end

/-! ## What the pieces read -/

section

variable {total inicio n : ℕ} {b r : Bytes}

theorem leLen_quatro (h : n < 2 ^ 32) : leLen total (quatro n ++ r) = .ok (n, r) := by
  unfold leLen quatro
  simp only [List.cons_append, List.nil_append, UInt8.toNat_ofNat', Except.ok.injEq, Prod.mk.injEq,
    and_true]
  omega

theorem leLen_eq_ok (h : leLen total b = .ok (n, r)) : n < 2 ^ 32 ∧ b = quatro n ++ r := by
  unfold leLen at h
  split at h
  · rename_i c₃ c₂ c₁ c₀ resto
    cases h
    have h₃ := c₃.toNat_lt
    have h₂ := c₂.toNat_lt
    have h₁ := c₁.toNat_lt
    have h₀ := c₀.toNat_lt
    have hbyte : ∀ (c : UInt8) (m : ℕ), m % 256 = c.toNat → UInt8.ofNat m = c := by
      intro c m hm
      refine UInt8.toNat_inj.mp ?_
      rw [UInt8.toNat_ofNat', hm]
    refine ⟨by omega, ?_⟩
    unfold quatro
    rw [hbyte c₃ _ (by omega), hbyte c₂ _ (by omega), hbyte c₁ _ (by omega), hbyte c₀ _ (by omega)]
    rfl
  · cases h

theorem leBytes_append (a : Bytes) : leBytes total (a ++ r) a.length = .ok (a, r) := by
  simp [leBytes]

theorem leBytes_eq_ok {a : Bytes} (h : leBytes total b n = .ok (a, r)) :
    a.length = n ∧ b = a ++ r := by
  unfold leBytes at h
  split_ifs at h with hn
  cases h
  exact ⟨List.length_take_of_le hn, (List.take_append_drop n b).symm⟩

theorem leTexto_append {s : String} (h : (bytesDe s).length < 2 ^ 32) :
    leTexto total inicio (quatro (bytesDe s).length ++ (bytesDe s ++ r)) = .ok (s, r) := by
  refine except_bind_eq_ok.mpr ⟨_, leLen_quatro h, ?_⟩
  refine except_bind_eq_ok.mpr ⟨_, leBytes_append (bytesDe s), ?_⟩
  dsimp only
  rw [utf8De_bytesDe]

theorem leTexto_eq_ok {s : String} (h : leTexto total inicio b = .ok (s, r)) :
    (bytesDe s).length < 2 ^ 32 ∧ b = quatro (bytesDe s).length ++ (bytesDe s ++ r) := by
  obtain ⟨⟨n, r₁⟩, hlen, hresto⟩ := except_bind_eq_ok.mp h
  obtain ⟨⟨corpo, r₂⟩, hcorpo, hfim⟩ := except_bind_eq_ok.mp hresto
  obtain ⟨hn, rfl⟩ := leLen_eq_ok hlen
  obtain ⟨rfl, rfl⟩ := leBytes_eq_ok hcorpo
  dsimp only at hfim
  split at hfim
  · rename_i s' hs
    cases hfim
    rw [bytesDe_of_utf8De hs]
    exact ⟨hn, rfl⟩
  · cases hfim

end

/-! ## Reading what was written -/

theorem decodeEm_str {total k : ℕ} {s : String} {a r : Bytes} (h : encode (.str s) = .ok a) :
    decodeEm total (k + 1) (a ++ r) = .ok (.str s, r) := by
  obtain ⟨hlt, rfl⟩ := escreveTexto_eq_ok.mp h
  simp only [List.cons_append, List.append_assoc]
  exact except_bind_eq_ok.mpr ⟨_, leTexto_append hlt, rfl⟩

mutual

theorem decodeEm_encode {total : ℕ} : ∀ (v : Value) {k : ℕ} {a r : Bytes}, v.Canonico →
    v.profundidade ≤ k → encode v = .ok a → decodeEm total (k + 1) (a ++ r) = .ok (v, r)
  | .null, _, _, _, _, _, h => by
    cases h
    rfl
  | .bool false, _, _, _, _, _, h => by
    cases h
    rfl
  | .bool true, _, _, _, _, _, h => by
    cases h
    rfl
  | .int d, _, _, r, hc, _, h => by
    obtain ⟨hlt, rfl⟩ := escreveTexto_eq_ok.mp h
    simp only [List.cons_append, List.append_assoc]
    refine except_bind_eq_ok.mpr ⟨_, leTexto_append hlt, ?_⟩
    have hc : intStr d = some (.int d) := hc
    dsimp only
    rw [hc]
  | .str _, _, _, _, _, _, h => decodeEm_str h
  | .list vs, k, _, r, hc, hp, h => by
    obtain ⟨hlt, corpo, hcorpo, rfl⟩ := encode_list_eq_ok.mp h
    simp only [List.cons_append, List.append_assoc]
    refine except_bind_eq_ok.mpr ⟨_, leLen_quatro hlt, ?_⟩
    exact except_bind_eq_ok.mpr ⟨_, decodeItens_encode vs hc hp hcorpo, rfl⟩
  | .map es, k, _, r, hc, hp, h => by
    obtain ⟨hlt, corpo, hcorpo, rfl⟩ := encode_map_eq_ok.mp h
    simp only [List.cons_append, List.append_assoc]
    refine except_bind_eq_ok.mpr ⟨_, leLen_quatro hlt, ?_⟩
    refine except_bind_eq_ok.mpr ⟨_, decodePares_encode es none hc.2 hc.1 (by simp) hp hcorpo, rfl⟩

theorem decodeItens_encode {total : ℕ} : ∀ (vs : List Value) {k : ℕ} {a r : Bytes},
    CanonicoItens vs → profundidadeItens vs ≤ k → encodeItens vs = .ok a →
    decodeItens (decodeEm total k) vs.length (a ++ r) = .ok (vs, r)
  | [], _, _, _, _, _, h => by
    cases h
    rfl
  | v :: vs, k, _, r, hc, hp, h => by
    obtain ⟨a, b, ha, hb, rfl⟩ := encodeItens_cons_eq_ok.mp h
    rw [profundidadeItens, max_le_iff] at hp
    obtain ⟨m, rfl⟩ := Nat.exists_eq_add_of_lt hp.1
    rw [List.append_assoc]
    refine except_bind_eq_ok.mpr ⟨_, decodeEm_encode v hc.1 (by omega) ha, ?_⟩
    exact except_bind_eq_ok.mpr ⟨_, decodeItens_encode vs hc.2 hp.2 hb, rfl⟩

theorem decodePares_encode {total : ℕ} : ∀ (es : List (String × Value)) (anterior : Option String)
    {k : ℕ} {a r : Bytes}, CanonicoPares es → (es.map Prod.fst).Pairwise (· < ·) →
    (∀ p ∈ anterior, ∀ e ∈ es, p < e.1) → profundidadePares es ≤ k → encodePares es = .ok a →
    decodePares total (decodeEm total k) anterior es.length (a ++ r) = .ok (es, r)
  | [], _, _, _, _, _, _, _, _, h => by
    cases h
    rfl
  | e :: es, anterior, k, _, r, hc, hordem, hantes, hp, h => by
    obtain ⟨c, a, b, hk, ha, hb, rfl⟩ := encodePares_cons_eq_ok.mp h
    rw [profundidadePares, max_le_iff] at hp
    obtain ⟨m, rfl⟩ := Nat.exists_eq_add_of_lt hp.1
    rw [List.map_cons, List.pairwise_cons] at hordem
    have hchave : decodeEm total (e.2.profundidade + m + 1) (c ++ (a ++ (b ++ r))) =
        .ok (.str e.1, a ++ (b ++ r)) := decodeEm_str hk
    rw [List.append_assoc, List.append_assoc]
    refine except_bind_eq_ok.mpr ⟨_, hchave, ?_⟩
    refine except_bind_eq_ok.mpr ⟨(), errarSe_eq_ok.mpr ?_, ?_⟩
    · rintro ⟨p, hmem, hle⟩
      exact absurd (hantes p hmem e List.mem_cons_self) (not_lt.mpr hle)
    · refine except_bind_eq_ok.mpr ⟨_, decodeEm_encode e.2 hc.1 (by omega) ha, ?_⟩
      refine except_bind_eq_ok.mpr
        ⟨_, decodePares_encode es (some e.1) hc.2 hordem.2 ?_ hp.2 hb, rfl⟩
      rintro p ⟨⟩ d hd
      exact hordem.1 _ (List.mem_map_of_mem hd)

end

/-! ## Nothing else is read -/

theorem intStr_eq_some {s : String} {v : Value} (h : intStr s = some v) : v = .int s := by
  unfold intStr at h
  dsimp only at h
  split_ifs at h
  exact (Option.some.inj h).symm

/-- What a reader accepts is what the writer writes for the value, in canonical form. -/
def Fiel (total niveis : ℕ) : Prop :=
  ∀ {b r : Bytes} {v : Value}, decodeEm total niveis b = .ok (v, r) →
    v.Canonico ∧ v.profundidade + 1 ≤ niveis ∧ ∃ a, encode v = .ok a ∧ b = a ++ r

section

variable {total niveis : ℕ}

theorem encode_of_decodeItens (hfilho : Fiel total niveis) : ∀ {n : ℕ} {b r : Bytes}
    {vs : List Value}, decodeItens (decodeEm total niveis) n b = .ok (vs, r) →
    vs.length = n ∧ CanonicoItens vs ∧ profundidadeItens vs ≤ niveis ∧
      ∃ a, encodeItens vs = .ok a ∧ b = a ++ r := by
  intro n
  induction n with
  | zero =>
    intro b r vs h
    cases h
    exact ⟨rfl, trivial, Nat.zero_le _, [], rfl, rfl⟩
  | succ n ih =>
    intro b r vs h
    obtain ⟨⟨v, r₁⟩, hv, h⟩ := except_bind_eq_ok.mp h
    obtain ⟨⟨ws, r₂⟩, hvs, h⟩ := except_bind_eq_ok.mp h
    cases h
    obtain ⟨hcv, hpv, a, ha, rfl⟩ := hfilho hv
    obtain ⟨hlen, hc, hp, b, hb, rfl⟩ := ih hvs
    refine ⟨congrArg (· + 1) hlen, ⟨hcv, hc⟩, max_le hpv hp, a ++ b, ?_, ?_⟩
    · exact encodeItens_cons_eq_ok.mpr ⟨a, b, ha, hb, rfl⟩
    · rw [List.append_assoc]

theorem encode_of_decodePares (hfilho : Fiel total niveis) : ∀ {n : ℕ} {anterior : Option String}
    {b r : Bytes} {es : List (String × Value)},
    decodePares total (decodeEm total niveis) anterior n b = .ok (es, r) →
    es.length = n ∧ (es.map Prod.fst).Pairwise (· < ·) ∧ (∀ p ∈ anterior, ∀ e ∈ es, p < e.1) ∧
      CanonicoPares es ∧ profundidadePares es ≤ niveis ∧
        ∃ a, encodePares es = .ok a ∧ b = a ++ r := by
  intro n
  induction n with
  | zero =>
    intro anterior b r es h
    cases h
    exact ⟨rfl, .nil, by simp, trivial, Nat.zero_le _, [], rfl, rfl⟩
  | succ n ih =>
    intro anterior b r es h
    obtain ⟨⟨chave, r₁⟩, hk, h⟩ := except_bind_eq_ok.mp h
    dsimp only at h
    cases chave with
    | str k =>
      obtain ⟨_, hordem, h⟩ := except_bind_eq_ok.mp h
      obtain ⟨⟨v, r₂⟩, hv, h⟩ := except_bind_eq_ok.mp h
      obtain ⟨⟨fs, r₃⟩, hes, h⟩ := except_bind_eq_ok.mp h
      cases h
      obtain ⟨-, -, c, hc, rfl⟩ := hfilho hk
      obtain ⟨hcv, hpv, a, ha, rfl⟩ := hfilho hv
      obtain ⟨hlen, hsorted, hdepois, hcs, hp, b, hb, rfl⟩ := ih hes
      have hordem := errarSe_eq_ok.mp hordem
      have hantes : ∀ p ∈ anterior, p < k := fun p hmem =>
        not_le.mp fun hle => hordem ⟨p, hmem, hle⟩
      refine ⟨congrArg (· + 1) hlen, ?_, ?_, ⟨hcv, hcs⟩, max_le hpv hp, c ++ a ++ b, ?_, ?_⟩
      · rw [List.map_cons, List.pairwise_cons]
        refine ⟨fun d hd => ?_, hsorted⟩
        obtain ⟨e, he, rfl⟩ := List.mem_map.mp hd
        exact hdepois k rfl e he
      · intro p hmem e he
        rcases List.mem_cons.mp he with rfl | he
        · exact hantes p hmem
        · exact (hantes p hmem).trans (hdepois k rfl e he)
      · exact encodePares_cons_eq_ok.mpr ⟨c, a, b, hc, ha, hb, rfl⟩
      · simp only [List.append_assoc]
    | null | bool _ | int _ | list _ | map _ => cases h

theorem fiel (total : ℕ) : ∀ niveis, Fiel total niveis := by
  intro niveis
  induction niveis with
  | zero =>
    intro b r v h
    cases h
  | succ niveis ih =>
    intro b r v h
    cases b with
    | nil => cases h
    | cons tag b =>
      rw [decodeEm] at h
      dsimp only at h
      split_ifs at h with h0 h1 h2 h3 h4 h5 h6
      · cases h
        exact ⟨trivial, by simp [profundidade], _, rfl, by rw [h0]; rfl⟩
      · cases h
        exact ⟨trivial, by simp [profundidade], _, rfl, by rw [h1]; rfl⟩
      · cases h
        exact ⟨trivial, by simp [profundidade], _, rfl, by rw [h2]; rfl⟩
      · obtain ⟨⟨s, r₁⟩, hs, hfim⟩ := except_bind_eq_ok.mp h
        obtain ⟨hlt, rfl⟩ := leTexto_eq_ok hs
        dsimp only at hfim
        split at hfim
        · rename_i v' hint
          cases hfim
          obtain rfl := intStr_eq_some hint
          refine ⟨hint, by simp [profundidade], _, escreveTexto_eq_ok.mpr ⟨hlt, rfl⟩, ?_⟩
          simp only [h3, List.cons_append, List.append_assoc]
        · cases hfim
      · obtain ⟨⟨s, r₁⟩, hs, h⟩ := except_bind_eq_ok.mp h
        cases h
        obtain ⟨hlt, rfl⟩ := leTexto_eq_ok hs
        refine ⟨trivial, by simp [profundidade], _, escreveTexto_eq_ok.mpr ⟨hlt, rfl⟩, ?_⟩
        simp only [h4, List.cons_append, List.append_assoc]
      · obtain ⟨⟨n, r₁⟩, hn, h⟩ := except_bind_eq_ok.mp h
        obtain ⟨⟨vs, r₂⟩, hvs, h⟩ := except_bind_eq_ok.mp h
        cases h
        obtain ⟨hlt, rfl⟩ := leLen_eq_ok hn
        obtain ⟨rfl, hc, hp, a, ha, rfl⟩ := encode_of_decodeItens ih hvs
        refine ⟨hc, Nat.succ_le_succ hp, _, encode_list_eq_ok.mpr ⟨hlt, a, ha, rfl⟩, ?_⟩
        simp only [h5, List.cons_append, List.append_assoc]
      · obtain ⟨⟨n, r₁⟩, hn, h⟩ := except_bind_eq_ok.mp h
        obtain ⟨⟨es, r₂⟩, hes, h⟩ := except_bind_eq_ok.mp h
        cases h
        obtain ⟨hlt, rfl⟩ := leLen_eq_ok hn
        obtain ⟨rfl, hordem, -, hc, hp, a, ha, rfl⟩ := encode_of_decodePares ih hes
        refine ⟨⟨hordem, hc⟩, Nat.succ_le_succ hp, _, encode_map_eq_ok.mpr ⟨hlt, a, ha, rfl⟩, ?_⟩
        simp only [h6, List.cons_append, List.append_assoc]

end

/-- The reader and the writer are inverse to each other: a value in canonical form whose
depth and lengths are within the limits is written and read back, and whatever is read is
such a value and the text is the one written for it. -/
theorem codec_bijetivo :
    (∀ v : Value, v.Canonico → v.profundidade ≤ MAX_PROFUNDIDADE → v.CabeU32 →
      ∃ b, encode v = .ok b ∧ decode b = .ok v) ∧
    ∀ (b : Bytes) (v : Value), decode b = .ok v →
      encode v = .ok b ∧ v.Canonico ∧ v.profundidade ≤ MAX_PROFUNDIDADE := by
  constructor
  · intro v hc hp hcabe
    obtain ⟨b, hb⟩ := encode_of_cabe v hcabe
    have hlido : decodeEm b.length _ (b ++ []) = .ok (v, []) := decodeEm_encode v hc hp hb
    rw [List.append_nil] at hlido
    refine ⟨b, hb, except_bind_eq_ok.mpr ⟨_, hlido, ?_⟩⟩
    exact except_bind_eq_ok.mpr ⟨(), errarSe_eq_ok.mpr (not_not.mpr rfl), rfl⟩
  · intro b v h
    obtain ⟨⟨w, r⟩, hlido, h⟩ := except_bind_eq_ok.mp h
    obtain ⟨_, hfim, h⟩ := except_bind_eq_ok.mp h
    cases h
    obtain ⟨hc, hp, a, ha, rfl⟩ := fiel b.length _ hlido
    obtain rfl : r = [] := not_not.mp (errarSe_eq_ok.mp hfim)
    rw [List.append_nil]
    exact ⟨ha, hc, Nat.le_of_succ_le_succ hp⟩

end Value
end Eav7
