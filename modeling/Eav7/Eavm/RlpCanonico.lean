import Eav7.Base.Fallible
import Eav7.Eavm.Rlp

/-!
# RLP is canonical

The decoder accepts exactly the encodings: what it reads is written back as it was, and
what is written is read back. Items are self-delimiting, so equal encodings are of equal
items.
-/

namespace Eav7.Eavm

open Base

/-! ## Numbers in big-endian order -/

theorem naturalDeBytes_concat (b : Bytes) (x : UInt8) :
    naturalDeBytes (b ++ [x]) = naturalDeBytes b * 256 + x.toNat := by
  unfold naturalDeBytes
  rw [List.foldl_append]
  rfl

theorem bytesDeNatural_succ (n x : ℕ) :
    bytesDeNatural (n + 1) x = bytesDeNatural n (x / 256) ++ [UInt8.ofNat x] := by
  have hdiv : ∀ i ∈ List.range n, UInt8.ofNat (x / 256 ^ (n + 1 - 1 - i)) =
      UInt8.ofNat (x / 256 / 256 ^ (n - 1 - i)) := by
    intro i hi
    have hi : i < n := List.mem_range.mp hi
    rw [Nat.div_div_eq_div_mul, ← pow_succ', show n - 1 - i + 1 = n + 1 - 1 - i by omega]
  unfold bytesDeNatural
  rw [List.range_succ, List.map_append, List.map_congr_left hdiv, List.map_singleton,
    Nat.add_sub_cancel, Nat.sub_self, pow_zero, Nat.div_one]

theorem naturalDeBytes_bytesDeNatural (n x : ℕ) :
    naturalDeBytes (bytesDeNatural n x) = x % 256 ^ n := by
  induction n generalizing x with
  | zero => simp [bytesDeNatural, naturalDeBytes, Nat.mod_one]
  | succ n ih =>
    rw [bytesDeNatural_succ, naturalDeBytes_concat, ih, UInt8.toNat_ofNat', pow_succ' 256 n,
      Nat.mod_mul]
    omega

theorem bytesDeNatural_naturalDeBytes (b : Bytes) :
    bytesDeNatural b.length (naturalDeBytes b) = b := by
  induction b using List.reverseRecOn with
  | nil => rfl
  | append_singleton b x ih =>
    have hx := x.toNat_lt
    have hdiv : (naturalDeBytes b * 256 + x.toNat) / 256 = naturalDeBytes b := by omega
    have hmod : UInt8.ofNat (naturalDeBytes b * 256 + x.toNat) = x := by
      apply UInt8.toNat_inj.mp
      rw [UInt8.toNat_ofNat']
      omega
    rw [List.length_append, List.length_singleton, naturalDeBytes_concat, bytesDeNatural_succ,
      hdiv, ih, hmod]

theorem naturalDeBytes_lt (b : Bytes) : naturalDeBytes b < 256 ^ b.length := by
  have h := naturalDeBytes_bytesDeNatural b.length (naturalDeBytes b)
  rw [bytesDeNatural_naturalDeBytes] at h
  rw [h]
  exact Nat.mod_lt _ (by positivity)

theorem naturalDeBytes_append (a b : Bytes) :
    naturalDeBytes (a ++ b) = naturalDeBytes a * 256 ^ b.length + naturalDeBytes b := by
  induction b using List.reverseRecOn with
  | nil => simp [naturalDeBytes]
  | append_singleton b x ih =>
    rw [← List.append_assoc, naturalDeBytes_concat, ih, naturalDeBytes_concat,
      List.length_append, List.length_singleton, pow_succ]
    ring

/-- A first byte that is not zero gives the size of the number. -/
theorem le_naturalDeBytes {a : UInt8} {b : Bytes} (h : a ≠ 0) :
    256 ^ b.length ≤ naturalDeBytes (a :: b) := by
  have ha : 1 ≤ a.toNat := Nat.one_le_iff_ne_zero.mpr fun h0 => h (UInt8.toNat_inj.mp h0)
  have hsoma := naturalDeBytes_append [a] b
  rw [List.singleton_append] at hsoma
  have hum : naturalDeBytes [a] = a.toNat := by simp [naturalDeBytes]
  rw [hsoma, hum]
  exact (Nat.le_mul_of_pos_left _ ha).trans (Nat.le_add_right _ _)

theorem log2_div_oito {n k : ℕ} (hle : 256 ^ k ≤ n) (hlt : n < 256 ^ (k + 1)) :
    n.log2 / 8 = k := by
  have hn : n ≠ 0 := by
    have : 0 < 256 ^ k := by positivity
    omega
  have h256 : ∀ j, 256 ^ j = 2 ^ (8 * j) := fun j => by rw [pow_mul]; rfl
  rw [h256] at hle hlt
  have hbaixo := (Nat.le_log2 hn).mpr hle
  have halto := (Nat.log2_lt hn).mpr hlt
  omega

namespace Rlp

/-- Without leading zeros, the bytes are those of the number. -/
theorem minBytes_naturalDeBytes {b : Bytes} (h : b.head? ≠ some 0) :
    minBytes (naturalDeBytes b) = b := by
  cases b with
  | nil => rfl
  | cons a b =>
    have ha : a ≠ 0 := fun h0 => h (congrArg some h0)
    have hle := le_naturalDeBytes (b := b) ha
    have hlt := naturalDeBytes_lt (a :: b)
    have hpos : naturalDeBytes (a :: b) ≠ 0 := by
      have : 0 < 256 ^ b.length := by positivity
      omega
    unfold minBytes
    rw [if_neg hpos, log2_div_oito hle hlt]
    exact bytesDeNatural_naturalDeBytes (a :: b)

theorem naturalDeBytes_minBytes (n : ℕ) : naturalDeBytes (minBytes n) = n := by
  unfold minBytes
  split_ifs with hn
  · rw [hn]
    rfl
  · rw [naturalDeBytes_bytesDeNatural]
    apply Nat.mod_eq_of_lt
    calc n < 2 ^ (n.log2 + 1) := Nat.lt_log2_self
      _ ≤ 2 ^ (8 * (n.log2 / 8 + 1)) := Nat.pow_le_pow_right (by decide) (by omega)
      _ = 256 ^ (n.log2 / 8 + 1) := by rw [pow_mul]; rfl

theorem head?_minBytes (n : ℕ) : (minBytes n).head? ≠ some 0 := by
  intro h
  obtain ⟨a, ha⟩ : ∃ r, minBytes n = 0 :: r := List.head?_eq_some_iff.mp h
  have hvalor := naturalDeBytes_minBytes n
  have htamanho : a.length + 1 = n.log2 / 8 + 1 := by
    have hlen := congrArg List.length ha
    unfold minBytes at hlen
    split_ifs at hlen with hn
    rw [bytesDeNatural_length, List.length_cons] at hlen
    exact hlen.symm
  have hn : n ≠ 0 := by
    rintro rfl
    cases ha
  have hzero : naturalDeBytes (0 :: a) = naturalDeBytes a := rfl
  rw [ha, hzero] at hvalor
  have hlt := naturalDeBytes_lt a
  rw [hvalor, show 256 = 2 ^ 8 from rfl, ← pow_mul] at hlt
  have hlog := (Nat.log2_lt hn).mpr hlt
  omega

theorem minBytes_length_le {n k : ℕ} (h : n < 256 ^ k) : (minBytes n).length ≤ k := by
  unfold minBytes
  split_ifs with hn
  · exact Nat.zero_le _
  · rw [bytesDeNatural_length]
    rw [show 256 = 2 ^ 8 from rfl, ← pow_mul] at h
    have hlog := (Nat.log2_lt hn).mpr h
    omega

/-! ## Lengths -/

theorem bufToInt_eq_ok {buf : Bytes} {n : ℕ} :
    bufToInt buf = .ok n ↔ buf = minBytes n ∧ n < 2 ^ 64 := by
  unfold bufToInt
  constructor
  · intro h
    obtain ⟨_, hzero, h⟩ := except_bind_eq_ok.mp h
    obtain ⟨_, hcabe, h⟩ := except_bind_eq_ok.mp h
    have hzero := falharSe_eq_ok.mp hzero
    have hcabe := falharSe_eq_ok.mp hcabe
    cases h
    exact ⟨(minBytes_naturalDeBytes hzero).symm, Nat.lt_of_not_le hcabe⟩
  · rintro ⟨rfl, hn⟩
    rw [naturalDeBytes_minBytes]
    exact except_bind_eq_ok.mpr ⟨(), falharSe_eq_ok.mpr (head?_minBytes n),
      except_bind_eq_ok.mpr ⟨(), falharSe_eq_ok.mpr (Nat.not_le_of_lt hn), rfl⟩⟩

theorem toNat_ofNat {n : ℕ} (h : n < 256) : (UInt8.ofNat n).toNat = n := by
  rw [UInt8.toNat_ofNat']
  exact Nat.mod_eq_of_lt h

theorem minBytes_length_pos {n : ℕ} (h : n ≠ 0) : 1 ≤ (minBytes n).length := by
  unfold minBytes
  rw [if_neg h, bytesDeNatural_length]
  exact Nat.le_add_left 1 _

/-! ## What is read is written back -/

theorem encode_ne_nil (v : Rlp) : encode v ≠ [] := by
  have hprefixo : ∀ n base, lengthPrefix n base ≠ [] := by
    intro n base
    unfold lengthPrefix
    split_ifs <;> exact List.cons_ne_nil _ _
  cases v with
  | bytes b =>
    unfold encode
    split_ifs with h
    · intro hb
      rw [hb] at h
      exact absurd h.1 (by decide)
    · exact fun h => hprefixo _ _ (List.append_eq_nil_iff.mp h).1
  | lista itens =>
    unfold encode
    exact fun h => hprefixo _ _ (List.append_eq_nil_iff.mp h).1

theorem itens_of_decodeItens {item : Bytes → Falha (Rlp × Bytes)}
    (hitem : ∀ b v r, item b = .ok (v, r) → b = encode v ++ r) {n : ℕ} {corpo : Bytes}
    {itens : List Rlp} (hn : corpo.length ≤ n) (h : decodeItens item n corpo = .ok itens) :
    corpo = encodeItens itens := by
  induction n generalizing corpo itens with
  | zero =>
    obtain rfl := List.eq_nil_of_length_eq_zero (Nat.le_zero.mp hn)
    cases h
    rfl
  | succ n ih =>
    cases corpo with
    | nil =>
      cases h
      rfl
    | cons x corpo =>
      unfold decodeItens at h
      obtain ⟨⟨v, resto⟩, hv, h⟩ := except_bind_eq_ok.mp h
      obtain ⟨outros, hresto, h⟩ := except_bind_eq_ok.mp h
      cases h
      have hb := hitem _ _ _ hv
      have hcurto : resto.length ≤ n := by
        have hlen := congrArg List.length hb
        have hpos := List.length_pos_iff.mpr (encode_ne_nil v)
        rw [List.length_append] at hlen
        omega
      rw [hb, ih hcurto hresto]
      rfl

theorem lengthPrefix_curto {n base : ℕ} {b : UInt8} (hn : n < 56)
    (h : b.toNat = base + n) : lengthPrefix n base = [b] := by
  unfold lengthPrefix
  rw [if_pos hn, ← h, UInt8.ofNat_toNat]

theorem lengthPrefix_longo {n base : ℕ} {b : UInt8} (hn : ¬ n < 56)
    (h : b.toNat = base + 55 + (minBytes n).length) :
    lengthPrefix n base = b :: minBytes n := by
  unfold lengthPrefix
  rw [if_neg hn]
  dsimp only
  rw [← h, UInt8.ofNat_toNat]

/-- A length read from `k` bytes fills them. -/
theorem take_of_bufToInt {resto : Bytes} {k n : ℕ} (h : bufToInt (resto.take k) = .ok n)
    (hk : k ≤ resto.length) :
    (minBytes n).length = k ∧ resto = minBytes n ++ resto.drop k := by
  obtain ⟨htake, -⟩ := bufToInt_eq_ok.mp h
  rw [← htake, List.length_take]
  exact ⟨Nat.min_eq_left hk, (List.take_append_drop k resto).symm⟩

/-- The three parts of a long item. -/
theorem partes_longas {resto : Bytes} {k n : ℕ} (h : bufToInt (resto.take k) = .ok n)
    (hn : k + n ≤ resto.length) :
    (minBytes n).length = k ∧ ((resto.drop k).take n).length = n ∧
      resto = minBytes n ++ (resto.drop k).take n ++ resto.drop (k + n) := by
  obtain ⟨hk, hresto⟩ := take_of_bufToInt h (by omega)
  have hmeio : resto.drop k = (resto.drop k).take n ++ resto.drop (k + n) := by
    rw [← List.drop_drop, List.take_append_drop]
  refine ⟨hk, ?_, ?_⟩
  · rw [List.length_take, List.length_drop]
    omega
  · rw [List.append_assoc, ← hmeio]
    exact hresto

theorem item_of_decodeItem {niveis : ℕ} : ∀ {buf : Bytes} {v : Rlp} {r : Bytes},
    decodeItem niveis buf = .ok (v, r) → buf = encode v ++ r := by
  induction niveis with
  | zero =>
    intro buf v r h
    cases h
  | succ niveis ih =>
    intro buf v r h
    cases buf with
    | nil => cases h
    | cons first resto =>
      have hfirst := first.toNat_lt
      unfold decodeItem at h
      split_ifs at h with hum hcurto hlongo
      · cases h
        unfold encode
        rw [if_pos ⟨rfl, hum⟩]
        rfl
      · obtain ⟨_, htrunca, h⟩ := except_bind_eq_ok.mp h
        obtain ⟨_, hcanonica, h⟩ := except_bind_eq_ok.mp h
        have htrunca := falharSe_eq_ok.mp htrunca
        have hcanonica := falharSe_eq_ok.mp hcanonica
        cases h
        have hlen : (resto.take (first.toNat - 0x80)).length = first.toNat - 0x80 := by
          rw [List.length_take]
          omega
        have hcheio : ¬ ((resto.take (first.toNat - 0x80)).length = 1 ∧
            ((resto.take (first.toNat - 0x80)).headD 0).toNat < 0x80) := by
          rw [hlen]
          rintro ⟨h1, h2⟩
          rw [h1] at h2
          refine hcanonica ⟨h1, ?_⟩
          cases resto with
          | nil => exact h2
          | cons y ys => exact h2
        unfold encode
        rw [if_neg hcheio, hlen, lengthPrefix_curto (b := first) (by omega) (by omega),
          List.append_assoc, List.take_append_drop]
        rfl
      · obtain ⟨n, hn, h⟩ := except_bind_eq_ok.mp h
        obtain ⟨_, hcanonica, h⟩ := except_bind_eq_ok.mp h
        obtain ⟨_, htrunca, h⟩ := except_bind_eq_ok.mp h
        have hcanonica := falharSe_eq_ok.mp hcanonica
        have htrunca := falharSe_eq_ok.mp htrunca
        cases h
        obtain ⟨hk, hlen, hresto⟩ := partes_longas hn (by omega)
        have hcheio : ¬ (((resto.drop (first.toNat - 0xb7)).take n).length = 1 ∧
            (((resto.drop (first.toNat - 0xb7)).take n).headD 0).toNat < 0x80) := by
          rw [hlen]
          omega
        unfold encode
        rw [if_neg hcheio, hlen, lengthPrefix_longo (b := first) hcanonica (by omega)]
        exact congrArg (first :: ·) hresto
      · obtain ⟨n, hn, h⟩ := except_bind_eq_ok.mp h
        obtain ⟨_, htrunca, h⟩ := except_bind_eq_ok.mp h
        obtain ⟨itens, hitens, h⟩ := except_bind_eq_ok.mp h
        have htrunca := falharSe_eq_ok.mp htrunca
        cases h
        unfold listLength at hn
        split_ifs at hn with hcurta
        · obtain rfl : first.toNat - 0xc0 = n := Except.ok.inj hn
          have hzero : first.toNat - 0xf7 = 0 := by omega
          rw [hzero, List.drop_zero] at hitens
          rw [hzero, Nat.zero_add] at htrunca ⊢
          have hlen : (resto.take (first.toNat - 0xc0)).length = first.toNat - 0xc0 := by
            rw [List.length_take]
            omega
          have hcorpo := itens_of_decodeItens (fun _ _ _ => ih) hlen.le hitens
          unfold encode
          dsimp only
          rw [← hcorpo, hlen, lengthPrefix_curto (b := first) (by omega) (by omega),
            List.append_assoc, List.take_append_drop]
          rfl
        · obtain ⟨m, hm, hn⟩ := except_bind_eq_ok.mp hn
          obtain ⟨_, hcanonica, hn⟩ := except_bind_eq_ok.mp hn
          have hcanonica := falharSe_eq_ok.mp hcanonica
          cases hn
          obtain ⟨hk, hlen, hresto⟩ := partes_longas hm (by omega)
          have hcorpo := itens_of_decodeItens (fun _ _ _ => ih) hlen.le hitens
          unfold encode
          dsimp only
          rw [← hcorpo, hlen, lengthPrefix_longo (b := first) hcanonica (by omega)]
          exact congrArg (first :: ·) hresto

/-- An accepted buffer is the encoding of what was read. -/
theorem encode_of_decode {b : Bytes} {v : Rlp} (h : decode b = .ok v) : b = encode v := by
  unfold decode at h
  obtain ⟨⟨w, resto⟩, hw, h⟩ := except_bind_eq_ok.mp h
  obtain ⟨_, hresto, h⟩ := except_bind_eq_ok.mp h
  have hresto := not_not.mp (falharSe_eq_ok.mp hresto)
  cases h
  rw [item_of_decodeItem hw, hresto, List.append_nil]

/-! ## What is written is read back -/

mutual
/-- The levels of an item, itself included. -/
def niveis : Rlp → ℕ
  | .bytes _ => 1
  | .lista itens => niveisItens itens + 1

def niveisItens : List Rlp → ℕ
  | [] => 0
  | item :: itens => max (niveis item) (niveisItens itens)
end

theorem toNat_lengthPrefix_longo {n k : ℕ} (hn : ¬ n < 56) (hcabe : n < 2 ^ 64)
    (hbase : k ≤ 0xc0) : ∃ first : UInt8, first.toNat = k + 55 + (minBytes n).length ∧
      1 ≤ (minBytes n).length ∧ (minBytes n).length ≤ 8 ∧
      lengthPrefix n k = first :: minBytes n := by
  have hpos := minBytes_length_pos (n := n) (by omega)
  have holito : (minBytes n).length ≤ 8 := minBytes_length_le (hcabe.trans_eq (by norm_num))
  have hfirst := toNat_ofNat (n := k + 55 + (minBytes n).length) (by omega)
  exact ⟨_, hfirst, hpos, holito, lengthPrefix_longo hn hfirst⟩

theorem length_le_encodeItens : ∀ itens : List Rlp, itens.length ≤ (encodeItens itens).length
  | [] => le_rfl
  | item :: itens => by
    have hpos := List.length_pos_iff.mpr (encode_ne_nil item)
    have hresto := length_le_encodeItens itens
    unfold encodeItens
    rw [List.length_append, List.length_cons]
    omega

/-- A length is read back from its bytes. -/
theorem bufToInt_longo {n : ℕ} (hcabe : n < 2 ^ 64) (r : Bytes) :
    bufToInt ((minBytes n ++ r).take (minBytes n).length) = .ok n := by
  rw [List.take_left]
  exact bufToInt_eq_ok.mpr ⟨rfl, hcabe⟩

theorem decodeItem_bytes {b r : Bytes} {n : ℕ} (hcabe : b.length < 2 ^ 64) :
    decodeItem (n + 1) (encode (.bytes b) ++ r) = .ok (.bytes b, r) := by
  unfold encode
  split_ifs with hum
  · obtain ⟨x, rfl⟩ := List.length_eq_one_iff.mp hum.1
    exact if_pos hum.2
  · by_cases hn : b.length < 56
    · have hfirst := toNat_ofNat (n := 0x80 + b.length) (by omega)
      have hlen : 0x80 + b.length - 0x80 = b.length := Nat.add_sub_cancel_left _ _
      rw [lengthPrefix_curto hn hfirst]
      unfold decodeItem
      simp only [List.cons_append, List.nil_append]
      rw [hfirst, if_neg (by omega), if_pos (by omega), hlen, List.take_left, List.drop_left]
      refine except_bind_eq_ok.mpr ⟨(), falharSe_eq_ok.mpr ?_, except_bind_eq_ok.mpr
        ⟨(), falharSe_eq_ok.mpr ?_, rfl⟩⟩
      · rw [List.length_append]
        omega
      · rintro ⟨h1, h2⟩
        obtain ⟨x, rfl⟩ := List.length_eq_one_iff.mp h1
        exact hum ⟨h1, h2⟩
    · obtain ⟨first, hfirst, hpos, holito, hprefixo⟩ :=
        toNat_lengthPrefix_longo (k := 0x80) hn hcabe (by omega)
      have hk : first.toNat - 0xb7 = (minBytes b.length).length := by omega
      rw [hprefixo, List.cons_append, List.cons_append, List.append_assoc]
      unfold decodeItem
      rw [if_neg (by omega), if_neg (by omega), if_pos (by omega), hk]
      refine except_bind_eq_ok.mpr ⟨_, bufToInt_longo hcabe _, except_bind_eq_ok.mpr
        ⟨(), falharSe_eq_ok.mpr hn, except_bind_eq_ok.mpr ⟨(), falharSe_eq_ok.mpr ?_, ?_⟩⟩⟩
      · rw [List.length_append, List.length_append]
        omega
      · rw [← List.drop_drop, List.drop_left, List.take_left, List.drop_left]
        rfl

theorem decodeItem_lista {itens : List Rlp} {r : Bytes} {n : ℕ}
    (hcabe : (encodeItens itens).length < 2 ^ 64)
    (hitens : decodeItens (decodeItem n) (encodeItens itens).length (encodeItens itens) =
      .ok itens) :
    decodeItem (n + 1) (encode (.lista itens) ++ r) = .ok (.lista itens, r) := by
  unfold encode
  dsimp only
  by_cases hn : (encodeItens itens).length < 56
  · have hfirst := toNat_ofNat (n := 0xc0 + (encodeItens itens).length) (by omega)
    have hlen : listLength (UInt8.ofNat (0xc0 + (encodeItens itens).length))
        (encodeItens itens ++ r) = .ok (encodeItens itens).length := by
      unfold listLength
      rw [hfirst, if_pos (by omega), Nat.add_sub_cancel_left]
    have hzero : 0xc0 + (encodeItens itens).length - 0xf7 = 0 := by omega
    rw [lengthPrefix_curto hn hfirst]
    unfold decodeItem
    simp only [List.cons_append, List.nil_append]
    rw [hfirst, if_neg (by omega), if_neg (by omega), if_neg (by omega), hzero]
    refine except_bind_eq_ok.mpr ⟨_, hlen, except_bind_eq_ok.mpr
      ⟨(), falharSe_eq_ok.mpr ?_, except_bind_eq_ok.mpr ⟨itens, ?_, ?_⟩⟩⟩
    · rw [List.length_append]
      omega
    · rw [List.drop_zero, List.take_left]
      exact hitens
    · rw [Nat.zero_add, List.drop_left]
      rfl
  · obtain ⟨first, hfirst, hpos, holito, hprefixo⟩ :=
      toNat_lengthPrefix_longo (k := 0xc0) hn hcabe le_rfl
    have hk : first.toNat - 0xf7 = (minBytes (encodeItens itens).length).length := by omega
    have hlen : listLength first (minBytes (encodeItens itens).length ++
        (encodeItens itens ++ r)) = .ok (encodeItens itens).length := by
      unfold listLength
      rw [if_neg (by omega), hk]
      exact except_bind_eq_ok.mpr ⟨_, bufToInt_longo hcabe _, except_bind_eq_ok.mpr
        ⟨(), falharSe_eq_ok.mpr hn, rfl⟩⟩
    rw [hprefixo, List.cons_append, List.cons_append, List.append_assoc]
    unfold decodeItem
    rw [if_neg (by omega), if_neg (by omega), if_neg (by omega), hk]
    refine except_bind_eq_ok.mpr ⟨_, hlen, except_bind_eq_ok.mpr
      ⟨(), falharSe_eq_ok.mpr ?_, except_bind_eq_ok.mpr ⟨itens, ?_, ?_⟩⟩⟩
    · rw [List.length_append, List.length_append]
      omega
    · rw [List.drop_left, List.take_left]
      exact hitens
    · rw [← List.drop_drop, List.drop_left, List.drop_left]
      rfl

theorem encodeItens_cons (item : Rlp) (itens : List Rlp) :
    encodeItens (item :: itens) = encode item ++ encodeItens itens := rfl

theorem encodeItens_le_encode (itens : List Rlp) :
    (encodeItens itens).length ≤ (encode (.lista itens)).length := by
  unfold encode
  rw [List.length_append]
  exact Nat.le_add_left _ _

theorem le_length_encode (b : Bytes) : b.length ≤ (encode (.bytes b)).length := by
  unfold encode
  split_ifs
  · exact le_rfl
  · rw [List.length_append]
    exact Nat.le_add_left _ _

mutual
theorem decodeItem_encode {n : ℕ} {r : Bytes} : ∀ {v : Rlp}, niveis v ≤ n →
    (encode v).length < 2 ^ 64 → decodeItem n (encode v ++ r) = .ok (v, r)
  | .bytes b, hn, hcabe => by
    cases n with
    | zero => cases hn
    | succ n => exact decodeItem_bytes ((le_length_encode b).trans_lt hcabe)
  | .lista itens, hn, hcabe => by
    have hcorpo := (encodeItens_le_encode itens).trans_lt hcabe
    cases n with
    | zero => cases hn
    | succ n =>
      exact decodeItem_lista hcorpo (decodeItens_encodeItens (Nat.le_of_succ_le_succ hn) hcorpo
        (length_le_encodeItens itens))

theorem decodeItens_encodeItens {n : ℕ} : ∀ {itens : List Rlp} {m : ℕ}, niveisItens itens ≤ n →
    (encodeItens itens).length < 2 ^ 64 → itens.length ≤ m →
    decodeItens (decodeItem n) m (encodeItens itens) = .ok itens
  | [], m, _, _, _ => by
    cases m <;> rfl
  | item :: itens, m, hn, hcabe, hm => by
    rw [encodeItens_cons, List.length_append] at hcabe
    obtain ⟨hitem, hitens⟩ := max_le_iff.mp hn
    cases m with
    | zero => cases hm
    | succ m =>
      have hum := decodeItem_encode (r := encodeItens itens) hitem (by omega)
      have houtros := decodeItens_encodeItens hitens (by omega) (Nat.le_of_succ_le_succ hm)
      obtain ⟨x, xs, hx⟩ := List.exists_cons_of_ne_nil (encode_ne_nil item)
      rw [encodeItens_cons]
      rw [hx, List.cons_append] at hum ⊢
      exact except_bind_eq_ok.mpr ⟨_, hum, except_bind_eq_ok.mpr ⟨_, houtros, rfl⟩⟩
end

/-- Encodings are of one item each. -/
theorem encode_inj {v w : Rlp} (h : encode v = encode w) (hcabe : (encode v).length < 2 ^ 64) :
    v = w := by
  have hv := decodeItem_encode (r := []) (le_max_left (niveis v) (niveis w)) hcabe
  have hw := decodeItem_encode (r := []) (le_max_right (niveis v) (niveis w)) (h ▸ hcabe)
  rw [h] at hv
  exact congrArg Prod.fst (Except.ok.inj (hv.symm.trans hw))

/-! ## Scalar fields -/

/-- A scalar byte string is the shortest writing of its number. -/
theorem item_of_strictInt {item : Rlp} {campo : String} {n : ℕ} (hbytes : item.eLista = false)
    (h : item.strictInt campo = .ok n) : item = .bytes (minBytes n) := by
  cases item with
  | lista itens => cases hbytes
  | bytes b =>
    unfold strictInt at h
    obtain ⟨_, hzero, h⟩ := except_bind_eq_ok.mp h
    have hzero := falharSe_eq_ok.mp hzero
    unfold toBigint itemLen at h
    dsimp only at h
    split_ifs at h with hvazio
    · obtain rfl := List.eq_nil_of_length_eq_zero hvazio
      cases h
      rfl
    · cases h
      rw [minBytes_naturalDeBytes hzero]

theorem eLista_of_exigeBytes : ∀ {campos : List (String × Rlp)}, exigeBytes campos = .ok () →
    ∀ p ∈ campos, p.2.eLista = false
  | [], _ => nofun
  | (nome, item) :: campos, h => by
    unfold exigeBytes at h
    obtain ⟨_, hitem, h⟩ := except_bind_eq_ok.mp h
    exact List.forall_mem_cons.mpr
      ⟨Bool.eq_false_of_not_eq_true (falharSe_eq_ok.mp hitem), eLista_of_exigeBytes h⟩

theorem encodeItens_append (a b : List Rlp) :
    encodeItens (a ++ b) = encodeItens a ++ encodeItens b := by
  induction a with
  | nil => rfl
  | cons item a ih =>
    rw [List.cons_append, encodeItens_cons, encodeItens_cons, ih, List.append_assoc]

theorem encode_lista_lt {itens : List Rlp} (h : (encodeItens itens).length < 2 ^ 16) :
    (encode (.lista itens)).length < 2 ^ 64 := by
  have hdois := minBytes_length_le (n := (encodeItens itens).length) (k := 2) (by omega)
  unfold encode lengthPrefix
  dsimp only
  rw [List.length_append]
  split_ifs
  · rw [List.length_singleton]
    omega
  · rw [List.length_cons]
    omega

end Rlp
end Eav7.Eavm
