import Mathlib.Data.List.Sort
import Mathlib.Data.String.Basic
import Eav7.Leaves
import Eav7.Recursos

/-!
# Canonical texts as bytes

Evaluation reaches the bytes of a text long before its characters. What `JSON.stringify`
escapes are characters of one byte, and no byte of a longer character looks like one of them,
so a canonical text is written here byte by byte, and hashed and measured with this one.
-/

namespace Eav7

open Base

/-! ## The escapes -/

/-- Whether a character of this code is escaped. -/
def escapado (n : ℕ) : Bool := Nat.blt n 0x20 || Nat.beq n 0x22 || Nat.beq n 0x5c

/-- The bytes of a text under the escapes of `JSON.stringify`. -/
def escapaOctetos : Bytes → Bytes
  | [] => []
  | b :: bs =>
    bif escapado b.toNat then
      (escreveChar (Char.ofNat b.toNat)).map (fun c => UInt8.ofNat c.toNat) ++ escapaOctetos bs
    else b :: escapaOctetos bs

theorem escapado_iff {n : ℕ} : escapado n = true ↔ n < 0x20 ∨ n = 0x22 ∨ n = 0x5c := by
  unfold escapado
  rw [Bool.or_eq_true, Bool.or_eq_true, Nat.blt_eq, Nat.beq_eq, Nat.beq_eq, or_assoc]

theorem escreveChar_livre {c : Char} (h : escapado c.toNat = false) : escreveChar c = [c] := by
  have hlivre : ¬ (c.toNat < 0x20 ∨ c.toNat = 0x22 ∨ c.toNat = 0x5c) := by
    rw [← escapado_iff, h]
    exact Bool.false_ne_true
  have hne : ∀ d : Char, d.toNat < 0x20 ∨ d.toNat = 0x22 ∨ d.toNat = 0x5c → c ≠ d := by
    rintro d hd rfl
    exact hlivre hd
  unfold escreveChar
  rw [if_neg (hne '"' (by decide)), if_neg (hne '\\' (by decide)), if_neg (by omega),
    if_neg (by omega), if_neg (hne '\n' (by decide)), if_neg (hne '\r' (by decide)),
    if_neg (hne '\t' (by decide)), if_neg (by omega)]

/-- The escape of a character is written in characters of one byte. -/
theorem escreveChar_escapado : ∀ n < 0x5d, escapado n = true →
    (escreveChar (Char.ofNat n)).flatMap String.utf8EncodeChar =
      (escreveChar (Char.ofNat n)).map fun c => UInt8.ofNat c.toNat := by decide +kernel

theorem le_of_mem_utf8EncodeChar {c : Char} (h : ¬ c.toNat < 128) :
    ∀ b ∈ String.utf8EncodeChar c, 128 ≤ b.toNat := by
  have hnao : ¬ c.val.toNat ≤ 0x7f := fun hle => h (Nat.lt_succ_of_le hle)
  intro b hb
  unfold String.utf8EncodeChar at hb
  rw [if_neg hnao] at hb
  split_ifs at hb <;> simp only [List.mem_cons, List.not_mem_nil, or_false] at hb
  · rcases hb with rfl | rfl <;> rw [UInt8.toNat_ofNat'] <;> omega
  · rcases hb with rfl | rfl | rfl <;> rw [UInt8.toNat_ofNat'] <;> omega
  · rcases hb with rfl | rfl | rfl | rfl <;> rw [UInt8.toNat_ofNat'] <;> omega

theorem escapaOctetos_livres {as : Bytes} (h : ∀ b ∈ as, 128 ≤ b.toNat) (bs : Bytes) :
    escapaOctetos (as ++ bs) = as ++ escapaOctetos bs := by
  induction as with
  | nil => rfl
  | cons a as ih =>
    obtain ⟨ha, has⟩ := List.forall_mem_cons.mp h
    have hlivre : escapado a.toNat = false := by
      rw [← Bool.not_eq_true, escapado_iff]
      omega
    rw [List.cons_append, escapaOctetos, hlivre, ih has]
    rfl

theorem escapaOctetos_eq (cs : List Char) : escapaOctetos (cs.flatMap String.utf8EncodeChar) =
    (cs.flatMap escreveChar).flatMap String.utf8EncodeChar := by
  induction cs with
  | nil => rfl
  | cons c cs ih =>
    rw [List.flatMap_cons, List.flatMap_cons, List.flatMap_append, ← ih]
    by_cases hc : c.toNat < 128
    · rw [utf8EncodeChar_ascii hc, List.singleton_append, escapaOctetos, toNat_byte hc,
        Char.ofNat_toNat]
      cases hesc : escapado c.toNat with
      | false =>
        rw [escreveChar_livre hesc, List.flatMap_singleton, utf8EncodeChar_ascii hc]
        rfl
      | true =>
        have hcurto : c.toNat < 0x5d := by
          have := escapado_iff.mp hesc
          omega
        have hescape := escreveChar_escapado c.toNat hcurto hesc
        rw [Char.ofNat_toNat] at hescape
        rw [hescape]
        rfl
    · have hesc : escapado c.toNat = false := by
        rw [← Bool.not_eq_true, escapado_iff]
        omega
      rw [escapaOctetos_livres (le_of_mem_utf8EncodeChar hc), escreveChar_livre hesc,
        List.flatMap_singleton]

/-! ## The order of the keys -/

/-- The order of two keys, read from their bytes when these tell it. -/
def chaveAteOctetos (a b : String) : Bool :=
  !((antecede (bytesDe b) (bytesDe a)).getD (decide (utf16 b < utf16 a)))

theorem chaveAteOctetos_eq (a b : String) : chaveAteOctetos a b = chaveAte a b := by
  have hmenor : (antecede (bytesDe b) (bytesDe a)).getD (decide (utf16 b < utf16 a)) =
      decide (utf16 b < utf16 a) := by
    rw [bytesDe_eq, bytesDe_eq]
    cases h : antecede (b.toList.flatMap String.utf8EncodeChar)
        (a.toList.flatMap String.utf8EncodeChar) with
    | none => rfl
    | some r =>
      have hordem := antecede_flatMap (f := fun c => if c.toNat < 0x10000 then [c.toNat]
        else [0xd800 + (c.toNat - 0x10000) / 0x400, 0xdc00 + (c.toNat - 0x10000) % 0x400])
        (fun c hc => if_pos (hc.trans (by decide))) (fun c => by split_ifs <;> simp) h
      exact Bool.eq_iff_iff.mpr (hordem.trans decide_eq_true_iff.symm)
  unfold chaveAteOctetos chaveAte
  rw [hmenor, ← decide_not]
  exact decide_eq_decide.mpr not_lt

/-! ## The text of a value -/

def octetosDaString (s : String) : Bytes := 0x22 :: escapaOctetos (bytesDe s) ++ [0x22]

def insereOctetos (e : String × Bytes) : List (String × Bytes) → List (String × Bytes)
  | [] => [e]
  | d :: ds => bif chaveAteOctetos d.1 e.1 then d :: insereOctetos e ds else e :: d :: ds

def octetosDaLista (itens : List Bytes) : Bytes := 0x5b :: ([0x2c].intercalate itens) ++ [0x5d]

def octetosDoMapa (pares : List (String × Bytes)) : Bytes :=
  let campos := (pares.foldr insereOctetos []).map fun e => octetosDaString e.1 ++ 0x3a :: e.2
  0x7b :: ([0x2c].intercalate campos) ++ [0x7d]

mutual
/-- The bytes of the canonical text of a value. -/
def octetosDe : JsonValue → Bytes
  | .null => [0x6e, 0x75, 0x6c, 0x6c]
  | .bool true => [0x74, 0x72, 0x75, 0x65]
  | .bool false => [0x66, 0x61, 0x6c, 0x73, 0x65]
  | .int n => bytesDe (toString n)
  | .str s => octetosDaString s
  | .list itens => octetosDaLista (octetosDosItens itens)
  | .map pares => octetosDoMapa (octetosDosPares pares)

def octetosDosItens : List JsonValue → List Bytes
  | [] => []
  | v :: vs => octetosDe v :: octetosDosItens vs

def octetosDosPares : List (String × JsonValue) → List (String × Bytes)
  | [] => []
  | e :: es => (e.1, octetosDe e.2) :: octetosDosPares es
end

/-- A text in bytes. -/
def emOctetos (cs : List Char) : Bytes := cs.flatMap String.utf8EncodeChar

theorem emOctetos_append (as bs : List Char) :
    emOctetos (as ++ bs) = emOctetos as ++ emOctetos bs := List.flatMap_append

theorem emOctetos_cons (c : Char) (cs : List Char) :
    emOctetos (c :: cs) = String.utf8EncodeChar c ++ emOctetos cs := rfl

theorem octetosDaString_eq (s : String) : octetosDaString s = emOctetos (escreveString s) := by
  unfold octetosDaString escreveString
  rw [emOctetos_append, emOctetos_cons, bytesDe_eq, escapaOctetos_eq]
  rfl

theorem intercalate_emOctetos (itens : List (List Char)) :
    emOctetos ([','].intercalate itens) = [0x2c].intercalate (itens.map emOctetos) := by
  induction itens with
  | nil => rfl
  | cons a itens ih =>
    cases itens with
    | nil => simp [List.intercalate, emOctetos]
    | cons b itens =>
      rw [List.map_cons, List.map_cons, List.intercalate_cons_cons, List.intercalate_cons_cons,
        emOctetos_append, emOctetos_append, ih]
      rfl

/-- A field of a map, its value in bytes. -/
def campoEmOctetos (e : String × List Char) : String × Bytes := (e.1, emOctetos e.2)

theorem insereOctetos_map (e : String × List Char) (ds : List (String × List Char)) :
    insereOctetos (campoEmOctetos e) (ds.map campoEmOctetos) =
      (insereOrdenado e ds).map campoEmOctetos := by
  induction ds with
  | nil => rfl
  | cons d ds ih =>
    rw [List.map_cons, insereOctetos, insereOrdenado, chaveAteOctetos_eq, cond_eq_ite, ih]
    change (if chaveAte d.1 e.1 = true then _ else _) = _
    split_ifs <;> rfl

theorem octetosDoMapa_map (pares : List (String × List Char)) :
    octetosDoMapa (pares.map campoEmOctetos) = emOctetos (escreveMapa pares) := by
  have hordena : (pares.map campoEmOctetos).foldr insereOctetos [] =
      (ordenaChaves pares).map campoEmOctetos := by
    induction pares with
    | nil => rfl
    | cons e pares ih =>
      rw [List.map_cons, List.foldr_cons, ih, insereOctetos_map]
      rfl
  have hcampo : (fun e => octetosDaString e.1 ++ 0x3a :: e.2) ∘ campoEmOctetos =
      emOctetos ∘ fun e => escreveString e.1 ++ ':' :: e.2 := by
    funext e
    rw [Function.comp_apply, Function.comp_apply, emOctetos_append, ← octetosDaString_eq]
    rfl
  unfold octetosDoMapa escreveMapa
  dsimp only
  rw [hordena, List.map_map, hcampo, ← List.map_map, emOctetos_append, emOctetos_cons,
    intercalate_emOctetos]
  rfl

mutual
theorem octetosDe_eq : ∀ v : JsonValue, octetosDe v = emOctetos (escreveValor v)
  | .null => by
    rw [octetosDe, escreveValor]
    decide
  | .bool true => by
    rw [octetosDe, escreveValor]
    decide
  | .bool false => by
    rw [octetosDe, escreveValor]
    decide
  | .int n => by
    rw [octetosDe, escreveValor]
    exact bytesDe_eq _
  | .str s => by rw [octetosDe, escreveValor, octetosDaString_eq]
  | .list itens => by
    rw [octetosDe, escreveValor, octetosDosItens_eq itens]
    unfold octetosDaLista escreveLista
    rw [emOctetos_append, emOctetos_cons, intercalate_emOctetos]
    rfl
  | .map pares => by rw [octetosDe, escreveValor, octetosDosPares_eq pares, octetosDoMapa_map]

theorem octetosDosItens_eq : ∀ vs : List JsonValue,
    octetosDosItens vs = (escreveItens vs).map emOctetos
  | [] => by
    rw [octetosDosItens, escreveItens]
    rfl
  | v :: vs => by
    rw [octetosDosItens, escreveItens, octetosDe_eq v, octetosDosItens_eq vs]
    rfl

theorem octetosDosPares_eq : ∀ es : List (String × JsonValue),
    octetosDosPares es = (escrevePares es).map campoEmOctetos
  | [] => by
    rw [octetosDosPares, escrevePares]
    rfl
  | e :: es => by
    rw [octetosDosPares, escrevePares, octetosDe_eq e.2, octetosDosPares_eq es]
    rfl
end

/-! ## Hashing and measuring -/

theorem bytesDe_canonicalJson (v : JsonValue) : bytesDe (canonicalJson v) = octetosDe v :=
  (bytesDe_ofList _).trans (octetosDe_eq v).symm

theorem Cripto.eavHashOne_canonicalJson (cr : Cripto) (v : JsonValue) :
    cr.eavHashOne (canonicalJson v) = cr.eavHash (octetosDe v) :=
  congrArg cr.eavHash (bytesDe_canonicalJson v)

theorem canonicalJsonLen_eq (v : JsonValue) : canonicalJsonLen v = (octetosDe v).length := by
  rw [octetosDe_eq]
  unfold emOctetos
  rw [List.length_flatMap]
  simp only [String.length_utf8EncodeChar]
  rfl

/-- The id of a transaction, from the bytes of its payload. -/
def Cripto.idPorOctetos (cr : Cripto) (tx : Tx) : String :=
  cr.eavHash (octetosDe (.map tx.camposBase))

theorem txId_eq_idPorOctetos (cr : Cripto) (tx : Tx) : cr.txId tx = cr.idPorOctetos tx :=
  cr.eavHashOne_canonicalJson _

/-- The weighted bytes of a transaction, counted in bytes. -/
def consumoPorOctetos (tx : Tx) : ℚ :=
  max (Binary64.mul (octetosDe (.map (tx.camposBase ++ campoOpcional "id" tx.id))).length
    (Config.energyCost tx.txType)) Config.gbMinWeighted

theorem consumoGb_eq : consumoGb = consumoPorOctetos := by
  funext tx
  unfold consumoGb consumoPorOctetos Tx.usefulTxBytes
  rw [canonicalJsonLen_eq]

/-! ## Hashes that differ -/

theorem hexByte_false (b : UInt8) :
    hexByte false b = [hexDigito (b.toNat / 16), hexDigito (b.toNat % 16)] := rfl

theorem digito_hexDigito : ∀ n < 16, digito? 16 (hexDigito n) = some n := by decide

theorem paresHex_hexByte (bs : Bytes) : paresHex (bs.flatMap (hexByte false)) = bs := by
  induction bs with
  | nil => rfl
  | cons b bs ih =>
    have hb := b.toNat_lt
    have hsoma : UInt8.ofNat (b.toNat / 16 * 16 + b.toNat % 16) = b := by
      rw [Nat.div_add_mod', UInt8.ofNat_toNat]
    rw [List.flatMap_cons, hexByte_false, List.cons_append, List.cons_append, List.nil_append]
    unfold paresHex
    rw [digito_hexDigito _ (by omega), digito_hexDigito _ (by omega)]
    dsimp only
    rw [hsoma, ih]

theorem hexEncode_inj {a b : Bytes} (h : hexEncode a = hexEncode b) : a = b := by
  have hcs := String.ofList_injective h
  rw [← paresHex_hexByte a, hcs, paresHex_hexByte]

/-- Contents with different digests have different hashes. -/
theorem Cripto.injOn_eavHash {cr : Cripto} {l : List Bytes} (h : (l.map cr.sha3).Nodup) :
    Set.InjOn cr.eavHash {y | y ∈ l} :=
  fun _ hx _ hy hxy => List.inj_on_of_nodup_map h hx hy (hexEncode_inj hxy)

theorem Cripto.injOn_eavHashOne {cr : Cripto} {l : List String}
    (h : (l.map fun s => cr.sha3 (bytesDe s)).Nodup) : Set.InjOn cr.eavHashOne {y | y ∈ l} := by
  intro x hx y hy hxy
  exact List.inj_on_of_nodup_map h hx hy (hexEncode_inj hxy)

/-! ## Digests -/

def digitoOcteto (n : ℕ) : UInt8 := UInt8.ofNat (bif Nat.blt n 10 then 48 + n else 87 + n)

/-- The bytes of the hexadecimal text of bytes. -/
def hexOctetos : Bytes → Bytes
  | [] => []
  | b :: bs => digitoOcteto (b.toNat / 16) :: digitoOcteto (b.toNat % 16) :: hexOctetos bs

theorem utf8EncodeChar_hexDigito : ∀ n < 16,
    String.utf8EncodeChar (hexDigito n) = [digitoOcteto n] := by decide

theorem bytesDe_hexEncode (bs : Bytes) : bytesDe (hexEncode bs) = hexOctetos bs := by
  refine (bytesDe_ofList _).trans ?_
  induction bs with
  | nil => rfl
  | cons b bs ih =>
    have hb := b.toNat_lt
    rw [List.flatMap_cons, List.flatMap_append, ih, hexByte_false, List.flatMap_cons,
      List.flatMap_singleton, utf8EncodeChar_hexDigito _ (by omega),
      utf8EncodeChar_hexDigito _ (by omega)]
    rfl

/-- The order of two hashes, on the bytes of their texts. -/
def resumoAte (a b : Bytes) : Bool :=
  !((antecede (hexOctetos b) (hexOctetos a)).getD (decide (hexEncode b < hexEncode a)))

theorem resumoAte_iff (a b : Bytes) : resumoAte a b = true ↔ hexEncode a ≤ hexEncode b := by
  have hmenor : (antecede (hexOctetos b) (hexOctetos a)).getD
      (decide (hexEncode b < hexEncode a)) = precede (hexEncode b) (hexEncode a) := by
    rw [← bytesDe_hexEncode, ← bytesDe_hexEncode]
    rfl
  unfold resumoAte
  rw [hmenor, Bool.not_eq_true', ← Bool.not_eq_true, precede_iff, not_lt]

def ordenaResumos (ds : List Bytes) : List Bytes := ds.insertionSort fun a b => resumoAte a b

theorem insertionSort_hexEncode (ds : List Bytes) :
    (ds.map hexEncode).insertionSort (· ≤ ·) = (ordenaResumos ds).map hexEncode :=
  (List.map_insertionSort _ _ _ _ fun a _ b _ => resumoAte_iff a b).symm

namespace Cripto

variable (cr : Cripto)

/-- The digest of the leaf of a record. -/
def resumo (e : Registro) : Falha Bytes := do
  let canonico ← e.2.2.encode
  return cr.sha3 (bytesDe e.1 ++ 0x1f :: bytesDe e.2.1 ++ 0x1f :: canonico)

def resumos : List Registro → Falha (List Bytes)
  | [] => .ok []
  | e :: es => do return (← cr.resumo e) :: (← resumos es)

theorem leaf_eq_resumo (e : Registro) : cr.leaf e = (cr.resumo e).map hexEncode := by
  unfold leaf resumo
  cases e.2.2.encode <;> rfl

theorem folhas_eq_resumos (es : List Registro) :
    cr.folhas es = (cr.resumos es).map (List.map hexEncode) := by
  induction es with
  | nil => rfl
  | cons e es ih =>
    rw [folhas, resumos, ih, leaf_eq_resumo]
    cases cr.resumo e with
    | error _ => rfl
    | ok _ => cases cr.resumos es <;> rfl

/-- The digest of a node, from those below it. -/
def noDeResumos (a b : Bytes) : Bytes := cr.sha3 (hexOctetos a ++ hexOctetos b)

theorem eavHash_noDeResumos (a b : Bytes) :
    cr.eavHash (bytesDe (hexEncode a) ++ bytesDe (hexEncode b)) =
      hexEncode (cr.noDeResumos a b) := by
  rw [bytesDe_hexEncode, bytesDe_hexEncode]
  rfl

def nivelDeResumos : List Bytes → List Bytes
  | [] => []
  | [a] => [cr.noDeResumos a a]
  | a :: b :: resto => cr.noDeResumos a b :: nivelDeResumos resto

def sobeResumos : ℕ → List Bytes → Option Bytes
  | 0, nivel => nivel.head?
  | fuel + 1, nivel =>
    match nivel with
    | [] => none
    | [raiz] => some raiz
    | _ => sobeResumos fuel (cr.nivelDeResumos nivel)

theorem merkleNivel_map (ds : List Bytes) :
    cr.merkleNivel (ds.map hexEncode) = (cr.nivelDeResumos ds).map hexEncode := by
  induction ds using nivelDeResumos.induct with
  | case1 => rfl
  | case2 a => exact congrArg (· :: []) (cr.eavHash_noDeResumos a a)
  | case3 a b resto ih =>
    rw [List.map_cons, List.map_cons, merkleNivel, nivelDeResumos, ih, eavHash_noDeResumos]
    rfl

theorem merkleSobe_map (n : ℕ) (ds : List Bytes) :
    cr.merkleSobe n (ds.map hexEncode) = ((cr.sobeResumos n ds).map hexEncode).getD "" := by
  induction n generalizing ds with
  | zero => cases ds <;> rfl
  | succ n ih =>
    match ds with
    | [] => rfl
    | [a] => rfl
    | a :: b :: ds =>
      have hacima := ih (cr.nivelDeResumos (a :: b :: ds))
      rw [← merkleNivel_map] at hacima
      exact hacima

/-- The root over sorted digests. -/
def raizDosResumos (ds : List Bytes) : String :=
  if ds = [] then cr.eavHashOne "EAV7-EMPTY-ROOT"
  else ((cr.sobeResumos ds.length ds).map hexEncode).getD ""

theorem computeStateRoot_map (ds : List Bytes) :
    cr.computeStateRoot (ds.map hexEncode) = cr.raizDosResumos (ordenaResumos ds) := by
  unfold computeStateRoot merkleRoot raizDosResumos
  rw [insertionSort_hexEncode, List.length_map, merkleSobe_map]
  exact if_congr List.map_eq_nil_iff rfl rfl

theorem stateRootOf_eq (s : State) : cr.stateRootOf s =
    (cr.resumos s.enumerar).map fun ds => cr.raizDosResumos (ordenaResumos ds) := by
  unfold stateRootOf stateLeaves
  rw [folhas_eq_resumos]
  cases cr.resumos s.enumerar with
  | error _ => rfl
  | ok ds => exact congrArg Except.ok (cr.computeStateRoot_map ds)

end Cripto

end Eav7
