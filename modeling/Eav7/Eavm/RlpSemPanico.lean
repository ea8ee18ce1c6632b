import Eav7.Eavm.RlpCanonico
import Eav7.Eavm.Gas

/-!
# The decoder of RLP never panics

The decoder with what can stop the process made visible: the additions of lengths, the
subtractions from the first byte, the indices and the slices. On a buffer that fits in
memory none of them stops it, and it gives what the plain decoder gives.
-/

namespace Eav7.Eavm.Rlp

open Base

/-! ## The decoder with its checks -/

/-- A computation that can refuse its input, or stop the process. -/
abbrev Corrida (α : Type) := ExceptT String (Except Parada) α

section

variable {α β : Type}

def rust (x : Except Parada α) : Corrida α := ExceptT.lift x

def devolve (x : Falha α) : Corrida α := ExceptT.mk (.ok x)

end

def u8Sub (a : UInt8) (b : ℕ) : Except Parada ℕ :=
  if b ≤ a.toNat then .ok (a.toNat - b) else .error .panico

/-- The byte `b[i]`. -/
def byteDe (b : Bytes) (i : ℕ) : Except Parada UInt8 :=
  match b[i]? with
  | some x => .ok x
  | none => .error .panico

/-- `checked_mul(256)` and `checked_add` of one more byte. -/
def acrescenta (n : ℕ) (b : UInt8) : Falha ℕ :=
  if n * 256 + b.toNat ≤ usizeMax then .ok (n * 256 + b.toNat)
  else falhar "RLP: comprimento excede o endereçável"

def bufToIntRust (buf : Bytes) : Corrida ℕ := do
  if buf.length = 0 then return 0
  let primeiro ← rust (byteDe buf 0)
  devolve (falharSe (primeiro = 0) "RLP: zeros à esquerda")
  devolve (buf.foldlM acrescenta 0)

/-- The bytes `buf[1..buf.len().min(1 + len_of_len)]`. -/
def pedaco (buf : Bytes) (lenOfLen : ℕ) : Except Parada Bytes := do
  let fim ← usizeAdd 1 lenOfLen
  fatiaDe buf 1 (min buf.length fim)

/-- Where the content of a list starts, and its length. -/
def listaRust (first : UInt8) (buf : Bytes) : Corrida (ℕ × ℕ) :=
  if first.toNat < 0xf8 then do
    let length ← rust (u8Sub first 0xc0)
    return (length, 1)
  else do
    let lenOfLen ← rust (u8Sub first 0xf7)
    let parte ← rust (pedaco buf lenOfLen)
    let length ← bufToIntRust parte
    devolve (falharSe (length < 56) "RLP: comprimento de lista não canônico")
    let start ← rust (usizeAdd 1 lenOfLen)
    return (length, start)

/-- `start.checked_add(length)`. -/
def checkedAdd (start length : ℕ) (msg : String) : Falha ℕ :=
  if start + length ≤ usizeMax then .ok (start + length) else falhar msg

/-- The loop over the content of a list; it must end before its turns are out. -/
def itensRust (item : Bytes → Corrida (Rlp × Bytes)) : ℕ → Bytes → Corrida (List Rlp)
  | _, [] => return []
  | 0, _ => rust (.error .semFim)
  | n + 1, corpo => do
    let (decodificado, resto) ← item corpo
    let itens ← itensRust item n resto
    return decodificado :: itens

/-- `decode_item`, with the levels that are left. -/
def decodeItemRust : ℕ → Bytes → Corrida (Rlp × Bytes)
  | 0, _ => devolve (falhar s!"RLP: aninhamento acima de {MAX_RLP_DEPTH} níveis")
  | _ + 1, [] => devolve (falhar "RLP: buffer vazio")
  | niveis + 1, first :: resto => do
    let buf := first :: resto
    if first.toNat < 0x80 then
      let depois ← rust (fatiaDe buf 1 buf.length)
      return (.bytes [first], depois)
    else if first.toNat < 0xb8 then
      let length ← rust (u8Sub first 0x80)
      let fim ← rust (usizeAdd 1 length)
      devolve (falharSe (buf.length < fim) "RLP: truncado")
      if length = 1 then
        let segundo ← rust (byteDe buf 1)
        devolve (falharSe (segundo.toNat < 0x80) "RLP: codificação não canônica")
      let conteudo ← rust (fatiaDe buf 1 fim)
      let depois ← rust (fatiaDe buf fim buf.length)
      return (.bytes conteudo, depois)
    else if first.toNat < 0xc0 then
      let lenOfLen ← rust (u8Sub first 0xb7)
      let parte ← rust (pedaco buf lenOfLen)
      let length ← bufToIntRust parte
      devolve (falharSe (length < 56) "RLP: comprimento não canônico")
      let start ← rust (usizeAdd 1 lenOfLen)
      let fim ← devolve (checkedAdd start length "RLP: truncado")
      devolve (falharSe (buf.length < fim) "RLP: truncado")
      let conteudo ← rust (fatiaDe buf start fim)
      let depois ← rust (fatiaDe buf fim buf.length)
      return (.bytes conteudo, depois)
    else
      let (length, start) ← listaRust first buf
      let fim ← devolve (checkedAdd start length "RLP: lista truncada")
      devolve (falharSe (buf.length < fim) "RLP: lista truncada")
      let corpo ← rust (fatiaDe buf start fim)
      let itens ← itensRust (decodeItemRust niveis) corpo.length corpo
      let depois ← rust (fatiaDe buf fim buf.length)
      return (.lista itens, depois)

/-- `rlp_decode`. -/
def rlpDecode (buffer : Bytes) : Except Parada (Falha Rlp) := ExceptT.run do
  let (valor, resto) ← decodeItemRust MAX_RLP_DEPTH buffer
  devolve (falharSe (resto ≠ []) "RLP: bytes excedentes após o item")
  return valor

/-! ## No check stops it -/

section

variable {α β : Type}

/-- The computation does not stop the process, and gives that. -/
def Da (m : Corrida α) (x : Falha α) : Prop := m.run = .ok x

namespace Da

theorem devolve (x : Falha α) : Da (devolve x) x := rfl

theorem pure (a : α) : Da (pure a : Corrida α) (.ok a) := rfl

theorem rust {a : α} {x : Except Parada α} (h : x = .ok a) : Da (rust x) (.ok a) := by
  subst h
  rfl

/-- One step after another, where the second is only asked for what the first gives. -/
theorem bind {m : Corrida α} {f : α → Corrida β} {x : Falha α} {g : α → Falha β} (hm : Da m x)
    (hf : ∀ a, x = .ok a → Da (f a) (g a)) : Da (m >>= f) (x >>= g) := by
  unfold Da at *
  rw [ExceptT.run_bind, hm]
  cases x with
  | error e => rfl
  | ok a => exact hf a rfl

/-- The same where the first step gives its result in another shape. -/
theorem bind_map {γ : Type} {m : Corrida γ} {f : γ → Corrida β} {h : α → γ} {x : Falha α}
    {g : α → Falha β} (hm : Da m (h <$> x)) (hf : ∀ a, x = .ok a → Da (f (h a)) (g a)) :
    Da (m >>= f) (x >>= g) := by
  unfold Da at *
  rw [ExceptT.run_bind, hm]
  cases x with
  | error e => rfl
  | ok a => exact hf a rfl

/-- A refusal under another writing of its condition. -/
theorem falharSe {c c' : Prop} [Decidable c] [Decidable c'] {msg : String} (h : c ↔ c') :
    Da (Rlp.devolve (Eav7.falharSe c msg)) (Eav7.falharSe c' msg) := by
  unfold Eav7.falharSe
  by_cases hc : c
  · rw [if_pos hc, if_pos (h.mp hc)]
    rfl
  · rw [if_neg hc, if_neg (mt h.mpr hc)]
    rfl

/-- A step that only the process can stop. -/
theorem depois {m : Corrida α} {f : α → Corrida β} {a : α} {y : Falha β} (hm : Da m (.ok a))
    (hf : Da (f a) y) : Da (m >>= f) y :=
  bind (g := fun _ => y) hm fun _ h => Except.ok.inj h ▸ hf

end Da

theorem le_foldl (buf : Bytes) (n : ℕ) : n ≤ buf.foldl (fun n x => n * 256 + x.toNat) n := by
  induction buf generalizing n with
  | nil => exact le_refl n
  | cons b buf ih => exact (by omega : n ≤ n * 256 + b.toNat).trans (ih _)

/-- The sum that is checked at each byte fails where the whole number does not fit. -/
theorem foldlM_acrescenta (buf : Bytes) {n : ℕ} (hn : n ≤ usizeMax) :
    buf.foldlM acrescenta n =
      if buf.foldl (fun n x => n * 256 + x.toNat) n ≤ usizeMax then
        .ok (buf.foldl (fun n x => n * 256 + x.toNat) n)
      else falhar "RLP: comprimento excede o endereçável" := by
  induction buf generalizing n with
  | nil => exact (if_pos hn).symm
  | cons b buf ih =>
    rw [List.foldlM_cons, List.foldl_cons]
    unfold acrescenta
    by_cases hsoma : n * 256 + b.toNat ≤ usizeMax
    · rw [if_pos hsoma]
      exact ih hsoma
    · have hpassa := le_foldl buf (n * 256 + b.toNat)
      rw [if_neg hsoma, if_neg (by omega)]
      rfl

theorem foldlM_da (buf : Bytes) :
    Da (devolve (buf.foldlM acrescenta 0)) (do
      falharSe (2 ^ 64 ≤ naturalDeBytes buf) "RLP: comprimento excede o endereçável"
      return naturalDeBytes buf) := by
  have hsoma := foldlM_acrescenta buf (Nat.zero_le usizeMax)
  change _ = if naturalDeBytes buf ≤ usizeMax then Except.ok (naturalDeBytes buf) else _ at hsoma
  rw [hsoma]
  unfold falharSe usizeMax
  by_cases h : 2 ^ 64 ≤ naturalDeBytes buf
  · rw [if_pos h, if_neg (by omega)]
    rfl
  · rw [if_neg h, if_pos (by omega)]
    rfl

theorem bufToIntRust_da (buf : Bytes) : Da (bufToIntRust buf) (bufToInt buf) := by
  unfold bufToIntRust
  cases buf with
  | nil => rfl
  | cons b buf =>
    rw [if_neg (by rw [List.length_cons]; omega)]
    unfold bufToInt
    refine .depois (.rust rfl) (.bind (.falharSe ?_) fun _ _ => ?_)
    · rw [List.head?_cons, Option.some_inj]
    · exact foldlM_da _

theorem usizeAdd_um {k : ℕ} (hk : k < usizeMax) : usizeAdd 1 k = .ok (1 + k) :=
  dentro_ok (by omega)

/-- The slice of a buffer after its first byte. -/
theorem fatiaDe_cons {first : UInt8} {resto : Bytes} {ini fim : ℕ} (hini : ini ≤ fim)
    (hfim : fim ≤ resto.length) :
    fatiaDe (first :: resto) (1 + ini) (1 + fim) = .ok ((resto.take fim).drop ini) := by
  rw [fatiaDe_ok (by omega) (by rw [List.length_cons]; omega), Nat.add_comm 1 ini,
    Nat.add_comm 1 fim]
  rfl

theorem fatiaDe_fim {first : UInt8} {resto : Bytes} {ini : ℕ} (hini : ini ≤ resto.length) :
    fatiaDe (first :: resto) (1 + ini) (first :: resto).length = .ok (resto.drop ini) := by
  have h : fatiaDe (first :: resto) (1 + ini) (1 + resto.length) = _ :=
    fatiaDe_cons hini (le_refl _)
  rw [List.take_length, Nat.add_comm 1 resto.length] at h
  exact h

/-- The content of a short item and what follows it. -/
theorem fatias_da (first : UInt8) {resto : Bytes} {length : ℕ} (hcabe : length ≤ resto.length) :
    Da (do
      let conteudo ← rust (fatiaDe (first :: resto) 1 (1 + length))
      let depois ← rust (fatiaDe (first :: resto) (1 + length) (first :: resto).length)
      return (bytes conteudo, depois)) (.ok (bytes (resto.take length), resto.drop length)) :=
  .depois (.rust (fatiaDe_cons (Nat.zero_le _) hcabe))
    (.depois (.rust (fatiaDe_fim hcabe)) (.pure _))

theorem pedaco_da {first : UInt8} {resto : Bytes} {k : ℕ} (hk : k ≤ 8) :
    pedaco (first :: resto) k = .ok (resto.take k) := by
  have hfim : usizeAdd 1 k = .ok (1 + k) := usizeAdd_um (by unfold usizeMax; omega)
  have hmin : min (first :: resto).length (1 + k) = 1 + min k resto.length := by
    rw [List.length_cons]
    omega
  unfold pedaco
  rw [hfim]
  change fatiaDe (first :: resto) (1 + 0) (min (first :: resto).length (1 + k)) = _
  rw [hmin, fatiaDe_cons (Nat.zero_le _) (min_le_right _ _), List.drop_zero,
    ← List.take_eq_take_min]

/-- What both long forms do once the length is known. -/
theorem checkedAdd_da {resto : Bytes} {k length : ℕ} (hcabe : resto.length < isizeMax)
    {first : UInt8} {msg : String} {m : ℕ → Corrida α} {x : Falha α}
    (hm : k + length ≤ resto.length → Da (m (1 + k + length)) x) :
    Da (do
      let fim ← devolve (checkedAdd (1 + k) length msg)
      devolve (falharSe ((first :: resto).length < fim) msg)
      m fim) (falharSe (resto.length < k + length) msg >>= fun _ => x) := by
  unfold checkedAdd
  by_cases h : resto.length < k + length
  · have hx : (falharSe (resto.length < k + length) msg >>= fun _ => x) = falhar msg := by
      unfold falharSe
      rw [if_pos h]
      rfl
    rw [hx]
    split_ifs
    · unfold falharSe
      refine .depois (.devolve _) ?_
      rw [if_pos (by rw [List.length_cons]; omega)]
      rfl
    · rfl
  · have hsoma : 1 + k + length ≤ usizeMax := by
      unfold isizeMax at hcabe
      unfold usizeMax
      omega
    rw [if_pos hsoma]
    refine .depois (.devolve _) (.bind ?_ fun _ _ => hm (by omega))
    unfold falharSe
    rw [if_neg h, if_neg (by rw [List.length_cons]; omega)]
    rfl

theorem itensRust_da {item : Bytes → Corrida (Rlp × Bytes)} {item' : Bytes → Falha (Rlp × Bytes)}
    {limite : ℕ} (hitem : ∀ b : Bytes, b.length ≤ limite → Da (item b) (item' b))
    (hconsome : ∀ b v r, item' b = .ok (v, r) → r.length < b.length) {n m : ℕ} {corpo : Bytes}
    (hcorpo : corpo.length ≤ limite) (hn : corpo.length ≤ n) (hm : corpo.length ≤ m) :
    Da (itensRust item n corpo) (decodeItens item' m corpo) := by
  induction n generalizing corpo m with
  | zero =>
    obtain rfl := List.eq_nil_of_length_eq_zero (Nat.le_zero.mp hn)
    cases m <;> rfl
  | succ n ih =>
    cases corpo with
    | nil => cases m <;> rfl
    | cons x corpo =>
      cases m with
      | zero => cases hm
      | succ m =>
        unfold itensRust decodeItens
        refine .bind (hitem _ hcorpo) fun par hv => ?_
        have hresto := hconsome _ par.1 par.2 hv
        exact .bind (ih (by omega) (by omega) (by omega)) fun itens _ => .pure _

theorem length_decodeItem {niveis : ℕ} {b r : Bytes} {v : Rlp}
    (h : decodeItem niveis b = .ok (v, r)) : r.length < b.length := by
  have hpos := List.length_pos_iff.mpr (encode_ne_nil v)
  rw [item_of_decodeItem h, List.length_append]
  omega

theorem listaRust_da {first : UInt8} {resto : Bytes} (hfirst : 0xc0 ≤ first.toNat) :
    Da (listaRust first (first :: resto))
      ((fun length => (length, 1 + (first.toNat - 0xf7))) <$> listLength first resto) := by
  have hbyte := first.toNat_lt
  unfold listaRust listLength
  by_cases hcurta : first.toNat < 0xf8
  · rw [if_pos hcurta, if_pos hcurta]
    refine .depois (.rust (if_pos hfirst)) ?_
    rw [show first.toNat - 0xf7 = 0 by omega]
    rfl
  · rw [if_neg hcurta, if_neg hcurta]
    refine .depois (.rust (if_pos (by omega))) (.depois (.rust (pedaco_da (by omega))) ?_)
    rw [map_bind]
    refine .bind (bufToIntRust_da _) fun length _ => ?_
    rw [map_bind]
    refine .bind (.devolve _) fun _ _ => ?_
    exact .depois (.rust (usizeAdd_um (by unfold usizeMax; omega))) (.pure _)

theorem decodeItemRust_da (niveis : ℕ) : ∀ b : Bytes, b.length ≤ isizeMax →
    Da (decodeItemRust niveis b) (decodeItem niveis b) := by
  induction niveis with
  | zero => exact fun b _ => rfl
  | succ niveis ih =>
    intro b hb
    cases b with
    | nil => rfl
    | cons first resto =>
      have hbyte := first.toNat_lt
      rw [List.length_cons] at hb
      have hresto : resto.length < isizeMax := hb
      have huza {k : ℕ} (hk : k ≤ 0xff) : usizeAdd 1 k = .ok (1 + k) :=
        usizeAdd_um (by unfold usizeMax; omega)
      unfold decodeItemRust decodeItem
      dsimp only
      by_cases h80 : first.toNat < 0x80
      · rw [if_pos h80, if_pos h80]
        exact .depois (.rust (fatiaDe_fim (Nat.zero_le _))) (.pure _)
      rw [if_neg h80, if_neg h80]
      by_cases hb8 : first.toNat < 0xb8
      · rw [if_pos hb8, if_pos hb8]
        refine .depois (.rust (if_pos (by omega))) (.depois (.rust (huza (by omega))) ?_)
        refine .bind (.falharSe (by rw [List.length_cons]; omega)) fun _ hcabe => ?_
        have hcabe := falharSe_eq_ok.mp hcabe
        have hfatias := fatias_da first (Nat.le_of_not_lt hcabe)
        by_cases hum : first.toNat - 0x80 = 1
        · rw [if_pos hum]
          cases resto with
          | nil => exact absurd (by rw [List.length_nil]; omega) hcabe
          | cons x resto =>
            refine .depois (.rust rfl) (.bind (.falharSe ?_) fun _ _ => hfatias)
            exact (and_iff_right hum).symm
        · rw [if_neg hum]
          have hpassa : falharSe (first.toNat - 0x80 = 1 ∧ (resto.headD 0).toNat < 0x80)
              "RLP: codificação não canônica" = .ok () := falharSe_eq_ok.mpr fun h => hum h.1
          rw [hpassa]
          exact hfatias
      rw [if_neg hb8, if_neg hb8]
      by_cases hc0 : first.toNat < 0xc0
      · rw [if_pos hc0, if_pos hc0]
        refine .depois (.rust (if_pos (by omega))) (.depois (.rust (pedaco_da (by omega))) ?_)
        refine .bind (bufToIntRust_da _) fun length _ => .bind (.devolve _) fun _ _ => ?_
        refine .depois (.rust (huza (by omega))) (checkedAdd_da hresto fun hcabe => ?_)
        rw [Nat.add_assoc 1]
        refine .depois (.rust (fatiaDe_cons (by omega) hcabe)) ?_
        refine .depois (.rust (fatiaDe_fim hcabe)) ?_
        rw [List.drop_take, Nat.add_sub_cancel_left]
        exact .pure _
      · rw [if_neg hc0, if_neg hc0]
        refine .bind_map (listaRust_da (by omega)) fun length _ => ?_
        refine checkedAdd_da hresto fun hcabe => ?_
        rw [Nat.add_assoc 1]
        refine .depois (.rust (fatiaDe_cons (by omega) hcabe)) ?_
        rw [List.drop_take, Nat.add_sub_cancel_left]
        have hcorpo : ((resto.drop (first.toNat - 0xf7)).take length).length ≤ length :=
          List.length_take_le _ _
        have hlimite : ((resto.drop (first.toNat - 0xf7)).take length).length ≤ isizeMax := by
          omega
        refine .bind (itensRust_da ih (fun _ _ _ => length_decodeItem) hlimite (le_refl _) hcorpo)
          fun itens _ => ?_
        exact .depois (.rust (fatiaDe_fim hcabe)) (.pure _)

/-- On a buffer that fits in memory the decoder returns, and what it returns is the
canonical decoding. -/
theorem rlpDecode_eq {b : Bytes} (hb : b.length ≤ isizeMax) : rlpDecode b = .ok (decode b) := by
  have hitem := decodeItemRust_da MAX_RLP_DEPTH b hb
  exact Da.bind hitem fun _ _ => .bind (.devolve _) fun _ _ => .pure _

/-- Each item within the levels of the decoder is read back from its encoding, each byte string
that is accepted is the encoding of its item, and the decoder returns on every byte string. -/
theorem rlp_canonico :
    (∀ v : Rlp, niveis v ≤ MAX_RLP_DEPTH → (encode v).length ≤ isizeMax →
        rlpDecode (encode v) = .ok (.ok v)) ∧
      ∀ b : Bytes, b.length ≤ isizeMax →
        (∃ r, rlpDecode b = .ok r) ∧ ∀ v, rlpDecode b = .ok (.ok v) → encode v = b := by
  refine ⟨fun v hniveis hcabe => ?_, fun b hb => ?_⟩
  · have h64 : (encode v).length < 2 ^ 64 := by
      unfold isizeMax at hcabe
      omega
    have hitem := decodeItem_encode (r := []) hniveis h64
    rw [List.append_nil] at hitem
    have hdecode : decode (encode v) = .ok v := by
      unfold decode
      rw [hitem]
      rfl
    rw [rlpDecode_eq hcabe, hdecode]
  · rw [rlpDecode_eq hb]
    refine ⟨⟨_, rfl⟩, fun v hv => ?_⟩
    exact (encode_of_decode (Except.ok.inj hv)).symm

/-- A list of one byte string, and what is written for it. -/
theorem rlp_canonico_lista : rlpDecode [0xc1, 0x05] = .ok (.ok (.lista [.bytes [0x05]])) :=
  rlp_canonico.1 (.lista [.bytes [0x05]]) (by decide) (by decide)

end

end Eav7.Eavm.Rlp
