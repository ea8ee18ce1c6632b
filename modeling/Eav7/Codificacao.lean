import Mathlib.Data.Nat.Digits.Defs
import Eav7.Leaves

/-!
# Values that can be encoded

The canonical encoding fails only on a length of 32 bits or more. A bound on the
size of a value rules that out, and the size of the records of a small state is
bounded by their fields.
-/

namespace Eav7

open Base

/-! ## The length of texts -/

theorem bytesDe_ofList_length (cs : List Char) :
    (bytesDe (String.ofList cs)).length ≤ 4 * cs.length := by
  have hsize : ∀ s : String, (bytesDe s).length = s.utf8ByteSize := fun s => by
    rw [bytesDe, Array.length_toList]
    rfl
  rw [hsize]
  induction cs with
  | nil => simp
  | cons c cs ih =>
    have hc : String.ofList (c :: cs) = String.ofList [c] ++ String.ofList cs := by
      rw [← String.ofList_append, List.singleton_append]
    have h4 := c.utf8Size_le_four
    have h1 : (String.ofList [c]).utf8ByteSize = c.utf8Size := by
      simp
    rw [hc, String.utf8ByteSize_append, h1, List.length_cons]
    omega

theorem bytesDe_length_le (s : String) : (bytesDe s).length ≤ 4 * s.toList.length := by
  have h := bytesDe_ofList_length s.toList
  rwa [String.ofList_toList] at h

/-- A 128-bit number has at most 39 digits. -/
theorem toString_length_le {n : ℕ} (h : n < u128Limit) : (toString n).toList.length ≤ 39 := by
  have h39 : n < 10 ^ 39 := lt_trans h (by decide)
  exact Nat.repr_length n 39 (by decide) h39

namespace Value

mutual
/-- An upper bound of the length of the encoding. -/
def tamanho : Value → ℕ
  | .null => 1
  | .bool _ => 1
  | .int d => 5 + (bytesDe d).length
  | .str s => 5 + (bytesDe s).length
  | .list itens => 5 + tamanhoItens itens
  | .map pares => 5 + tamanhoPares pares

def tamanhoItens : List Value → ℕ
  | [] => 0
  | v :: vs => v.tamanho + tamanhoItens vs

def tamanhoPares : List (String × Value) → ℕ
  | [] => 0
  | e :: es => 5 + (bytesDe e.1).length + e.2.tamanho + tamanhoPares es
end

theorem tamanho_pos (v : Value) : 0 < v.tamanho := by
  cases v <;> simp [tamanho]

theorem escreveLen_ok {n : ℕ} (h : n < 2 ^ 32) : ∃ bs, escreveLen n = .ok bs := by
  unfold escreveLen
  rw [if_pos h]
  exact ⟨_, rfl⟩

theorem escreveTexto_ok {s : String} (h : (bytesDe s).length < 2 ^ 32) (tag : UInt8) :
    ∃ bs, escreveTexto tag s = .ok bs := by
  obtain ⟨n, hn⟩ := escreveLen_ok h
  unfold escreveTexto
  dsimp only
  rw [hn]
  exact ⟨_, rfl⟩

theorem length_le_tamanhoItens (vs : List Value) : vs.length ≤ tamanhoItens vs := by
  induction vs with
  | nil => simp
  | cons v vs ih =>
    have := v.tamanho_pos
    rw [tamanhoItens, List.length_cons]
    omega

theorem length_le_tamanhoPares (es : List (String × Value)) : es.length ≤ tamanhoPares es := by
  induction es with
  | nil => simp
  | cons e es ih =>
    rw [tamanhoPares, List.length_cons]
    omega

mutual

theorem encode_ok : ∀ (v : Value), v.tamanho < 2 ^ 32 → ∃ bs, encode v = .ok bs
  | .null, _ => ⟨_, rfl⟩
  | .bool true, _ => ⟨_, rfl⟩
  | .bool false, _ => ⟨_, rfl⟩
  | .int d, h => by
    rw [tamanho] at h
    exact escreveTexto_ok (by omega) 0x03
  | .str s, h => by
    rw [tamanho] at h
    exact escreveTexto_ok (by omega) 0x04
  | .list itens, h => by
    rw [tamanho] at h
    have hl := length_le_tamanhoItens itens
    obtain ⟨n, hn⟩ := escreveLen_ok (n := itens.length) (by omega)
    obtain ⟨bs, hbs⟩ := encodeItens_ok itens (by omega)
    rw [encode, hn, hbs]
    exact ⟨_, rfl⟩
  | .map pares, h => by
    rw [tamanho] at h
    have hl := length_le_tamanhoPares pares
    obtain ⟨n, hn⟩ := escreveLen_ok (n := pares.length) (by omega)
    obtain ⟨bs, hbs⟩ := encodePares_ok pares (by omega)
    rw [encode, hn, hbs]
    exact ⟨_, rfl⟩

theorem encodeItens_ok : ∀ (vs : List Value), tamanhoItens vs < 2 ^ 32 →
    ∃ bs, encodeItens vs = .ok bs
  | [], _ => ⟨_, rfl⟩
  | v :: vs, h => by
    rw [tamanhoItens] at h
    obtain ⟨a, ha⟩ := encode_ok v (by omega)
    obtain ⟨b, hb⟩ := encodeItens_ok vs (by omega)
    rw [encodeItens, ha, hb]
    exact ⟨_, rfl⟩

theorem encodePares_ok : ∀ (es : List (String × Value)), tamanhoPares es < 2 ^ 32 →
    ∃ bs, encodePares es = .ok bs
  | [], _ => ⟨_, rfl⟩
  | e :: es, h => by
    rw [tamanhoPares] at h
    obtain ⟨k, hk⟩ := escreveTexto_ok (s := e.1) (by omega) 0x04
    obtain ⟨a, ha⟩ := encode_ok e.2 (by omega)
    obtain ⟨b, hb⟩ := encodePares_ok es (by omega)
    rw [encodePares, hk, ha, hb]
    exact ⟨_, rfl⟩

end

/-! ## The size of maps -/

def tamanhoPar (k : String) (v : Value) : ℕ := 5 + (bytesDe k).length + v.tamanho

theorem tamanhoPares_eq_sum (es : List (String × Value)) :
    tamanhoPares es = (es.map fun e => tamanhoPar e.1 e.2).sum := by
  induction es with
  | nil => rfl
  | cons e es ih =>
    rw [tamanhoPares, ih]
    rfl

theorem total_ofList_le (f : String → Value → ℕ) (es : List (String × Value)) :
    (OrdMap.ofList es).total f ≤ (es.map fun e => f e.1 e.2).sum := by
  have hgeral : ∀ m : OrdMap String Value,
      (es.foldl (fun m e => m.insert e.1 e.2) m).total f ≤
        m.total f + (es.map fun e => f e.1 e.2).sum := by
    induction es with
    | nil => intro m; simp
    | cons e es ih =>
      intro m
      have h := ih (m.insert e.1 e.2)
      have hi := OrdMap.total_insert f m e.1 e.2
      rw [List.foldl_cons, List.map_cons, List.sum_cons]
      omega
  have hvazio : (OrdMap.empty : OrdMap String Value).total f = 0 := rfl
  have h := hgeral OrdMap.empty
  rwa [hvazio, Nat.zero_add] at h

theorem tamanho_campos_le (ps : List (String × Value)) :
    (campos ps).tamanho ≤ 5 + tamanhoPares ps := by
  unfold campos
  rw [tamanho, tamanhoPares_eq_sum, tamanhoPares_eq_sum]
  exact Nat.add_le_add_left (total_ofList_le tamanhoPar ps) 5

theorem tamanho_uint_le {n : ℕ} (h : n < u128Limit) : (uint n).tamanho ≤ 161 := by
  have h1 := bytesDe_length_le (toString n)
  have h2 := toString_length_le h
  rw [uint, tamanho]
  omega

theorem sum_le_of_forall {α : Type} (f : α → ℕ) {es : List α} {b : ℕ} (h : ∀ e ∈ es, f e ≤ b) :
    (es.map f).sum ≤ b * es.length := by
  induction es with
  | nil => simp
  | cons e es ih =>
    have h1 := h e List.mem_cons_self
    have h2 := ih fun e' he' => h e' (List.mem_cons_of_mem e he')
    rw [List.map_cons, List.sum_cons, List.length_cons, Nat.mul_succ]
    omega

/-- A map of entries each of at most `b` bytes. -/
theorem tamanho_mapaCom_le {ν : Type} (f : ν → Value) (m : OrdMap String ν) {b : ℕ}
    (h : ∀ k v, m.get? k = some v → tamanhoPar k (f v) ≤ b) :
    (mapaCom f m).tamanho ≤ 5 + b * m.size := by
  unfold mapaCom
  rw [tamanho, tamanhoPares_eq_sum, List.map_map]
  refine Nat.add_le_add_left (sum_le_of_forall _ fun e he => ?_) 5
  exact h e.1 e.2 (OrdMap.mem_entries_iff.mp he)

theorem tamanhoPar_le {k : String} {v : Value} {a b : ℕ} (hk : k.toList.length ≤ a)
    (hv : v.tamanho ≤ b) : tamanhoPar k v ≤ 5 + 4 * a + b := by
  have h := bytesDe_length_le k
  unfold tamanhoPar
  omega

/-- A record of named 128-bit numbers. -/
theorem tamanho_campos_uint_le (qs : List (String × ℕ)) {a : ℕ}
    (h : ∀ q ∈ qs, q.1.toList.length ≤ a ∧ q.2 < u128Limit) :
    (campos (qs.map fun q => (q.1, uint q.2))).tamanho ≤ 5 + (166 + 4 * a) * qs.length := by
  refine (tamanho_campos_le _).trans ?_
  rw [tamanhoPares_eq_sum, List.map_map]
  refine Nat.add_le_add_left (sum_le_of_forall _ fun q hq => ?_) 5
  obtain ⟨hk, hv⟩ := h q hq
  exact (tamanhoPar_le hk (tamanho_uint_le hv)).trans (by omega)

theorem tamanho_str_le {s : String} {a : ℕ} (h : s.toList.length ≤ a) :
    (Value.str s).tamanho ≤ 5 + 4 * a := by
  have hb := bytesDe_length_le s
  rw [tamanho]
  omega

end Value

/-! ## A leaf for every record -/

theorem Cripto.folhas_ok (cr : Cripto) {es : List Registro}
    (h : ∀ e ∈ es, e.2.2.tamanho < 2 ^ 32) : ∃ fs, cr.folhas es = .ok fs := by
  induction es with
  | nil => exact ⟨[], rfl⟩
  | cons e es ih =>
    obtain ⟨bs, hbs⟩ := Value.encode_ok e.2.2 (h e List.mem_cons_self)
    obtain ⟨fs, hfs⟩ := ih fun e' he' => h e' (List.mem_cons_of_mem e he')
    rw [Cripto.folhas, Cripto.leaf, hbs, hfs]
    exact ⟨_, rfl⟩

theorem Cripto.stateRootOf_ok (cr : Cripto) {s : State}
    (h : ∀ e ∈ s.enumerar, e.2.2.tamanho < 2 ^ 32) : ∃ raiz, cr.stateRootOf s = .ok raiz := by
  obtain ⟨fs, hfs⟩ := cr.folhas_ok h
  unfold Cripto.stateRootOf Cripto.stateLeaves
  rw [hfs]
  exact ⟨_, rfl⟩

end Eav7
