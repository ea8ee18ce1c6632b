import Eav7.Eavm.Conferencia
import Eav7.IdaEVolta
import Eav7.ProvaServida

/-!
# The line of a block on disk

A block is kept as one line of canonical JSON. The line is read back as the same block
exactly when nothing in it nests deeper than the reader allows; a transaction stands three
levels down, so its data has three levels less than it had when it came alone.
-/

namespace Eav7

open Base

def blockToJsonLine (block : Block) : Falha String :=
  let linha := canonicalJson (blockToJson block)
  if '\n' ∈ linha.toList then falhar "linha do bloco contém quebra de linha" else .ok linha

/-! ## No line break in canonical text -/

theorem quebra_escreveChar (c : Char) : '\n' ∉ escreveChar c := by
  unfold escreveChar
  split_ifs with h1 h2 h3 h4 h5 h6 h7 h8
  · decide
  · decide
  · decide
  · decide
  · decide
  · decide
  · decide
  · have hlt : ∀ n < 16, hexDigito n ≠ '\n' := by decide
    have ha := hlt (c.toNat / 16) (by omega)
    have hb := hlt (c.toNat % 16) (Nat.mod_lt _ (by decide))
    simp [ha.symm, hb.symm]
  · exact fun h => h5 (List.mem_singleton.mp h).symm

theorem quebra_escreveString (s : String) : '\n' ∉ escreveString s := by
  unfold escreveString
  simp only [List.mem_append, List.mem_cons, List.mem_flatMap, not_or, not_exists, not_and]
  exact ⟨⟨by decide, fun c _ => quebra_escreveChar c⟩, by decide, by simp⟩

theorem quebra_intercalate {l : List (List Char)} (h : ∀ cs ∈ l, '\n' ∉ cs) :
    '\n' ∉ [','].intercalate l := by
  induction l with
  | nil => exact List.not_mem_nil
  | cons a l ih =>
    obtain ⟨ha, hl⟩ := List.forall_mem_cons.mp h
    cases l with
    | nil =>
      have hunico : [','].intercalate [a] = a := List.append_nil a
      rwa [hunico]
    | cons b l =>
      rw [Leitor.intercalate_cons, List.mem_append, List.mem_cons, not_or, not_or]
      exact ⟨ha, by decide, ih hl⟩

mutual

theorem quebra_escreveValor : ∀ v : JsonValue, '\n' ∉ escreveValor v
  | .null => by rw [escreveValor]; decide
  | .bool true => by rw [escreveValor]; decide
  | .bool false => by rw [escreveValor]; decide
  | .int n => by
    intro h
    rw [escreveValor, Leitor.toString_int] at h
    split_ifs at h
    · exact absurd (Carga.faixa_of_mem h) (by decide)
    · rcases List.mem_cons.mp h with h | h
      · exact absurd h (by decide)
      · exact absurd (Carga.faixa_of_mem h) (by decide)
  | .str s => quebra_escreveString s
  | .list itens => by
    have hitens := quebra_intercalate (quebra_escreveItens itens)
    simp [escreveValor, escreveLista, hitens]
  | .map pares => by
    rw [escreveValor, escreveMapa]
    have hpares : '\n' ∉ [','].intercalate
        ((ordenaChaves (escrevePares pares)).map fun e => escreveString e.1 ++ ':' :: e.2) := by
      refine quebra_intercalate fun cs hcs => ?_
      obtain ⟨e, he, rfl⟩ := List.mem_map.mp hcs
      have hvalor := quebra_escrevePares pares e (Carga.mem_ordenaChaves he)
      simp [quebra_escreveString, hvalor]
    simp [hpares]

theorem quebra_escreveItens : ∀ vs : List JsonValue, ∀ cs ∈ escreveItens vs, '\n' ∉ cs
  | [] => by simp [escreveItens]
  | v :: vs => by
    rw [escreveItens]
    exact List.forall_mem_cons.mpr ⟨quebra_escreveValor v, quebra_escreveItens vs⟩

theorem quebra_escrevePares : ∀ es : List (String × JsonValue),
    ∀ e ∈ escrevePares es, '\n' ∉ e.2
  | [] => by simp [escrevePares]
  | e :: es => by
    rw [escrevePares]
    exact List.forall_mem_cons.mpr ⟨quebra_escreveValor e.2, quebra_escrevePares es⟩

end

theorem blockToJsonLine_ok (b : Block) :
    blockToJsonLine b = .ok (canonicalJson (blockToJson b)) := by
  have h := quebra_escreveValor (blockToJson b)
  unfold blockToJsonLine canonicalJson
  dsimp only
  rw [String.toList_ofList, if_neg h]

/-! ## The fields of what is written -/

theorem map_fst_campoOpcional (chave : String) (x : Option String) :
    ((campoOpcional chave x).map Prod.fst).Sublist [chave] := by
  cases x with
  | none => exact List.nil_sublist _
  | some s => exact List.Sublist.refl _

theorem forall_campoOpcional {P : JsonValue → Prop} (hstr : ∀ s, P (.str s)) (chave : String)
    (x : Option String) : ∀ e ∈ campoOpcional chave x, P e.2 := by
  cases x with
  | none => simp [campoOpcional]
  | some s =>
    intro e he
    rw [List.mem_singleton.mp he]
    exact hstr s

/-- The fields of a written transaction: texts, nulls, two numbers and the data. -/
theorem txToJson_campos (tx : Tx) {P : JsonValue → Prop} (hstr : ∀ s, P (.str s)) (hnull : P .null)
    (hnonce : P (.int tx.nonce)) (hts : P (.int tx.timestamp)) (hdata : ∀ d ∈ tx.data, P d) :
    ∃ ps, txToJson tx = .map ps ∧ (ps.map Prod.fst).Nodup ∧ ∀ e ∈ ps, P e.2 := by
  refine ⟨_, rfl, ?_, ?_⟩
  · have hchaves : (["protocol", "scheme", "type", "from", "to", "amount", "fee", "nonce",
        "timestamp"] ++ ["data"] ++ ["publicKey"] ++ ["pqPublicKey"] ++ ["signature"] ++
        ["pqSignature"] ++ ["id"]).Nodup := by decide
    refine List.Nodup.sublist ?_ hchaves
    simp only [List.map_append]
    refine List.Sublist.append ?_ (map_fst_campoOpcional _ _)
    refine List.Sublist.append ?_ (map_fst_campoOpcional _ _)
    refine List.Sublist.append ?_ (map_fst_campoOpcional _ _)
    refine List.Sublist.append ?_ (map_fst_campoOpcional _ _)
    refine List.Sublist.append ?_ (map_fst_campoOpcional _ _)
    refine List.Sublist.append (List.Sublist.refl _) ?_
    cases tx.data with
    | none => exact List.nil_sublist _
    | some d => exact List.Sublist.refl _
  · have hpara : P (tx.para.elim .null .str) := by
      cases tx.para with
      | none => exact hnull
      | some s => exact hstr s
    have hopcional := @forall_campoOpcional P hstr
    simp only [List.forall_mem_append, List.forall_mem_cons]
    refine ⟨⟨⟨⟨⟨⟨⟨hstr _, hstr _, hstr _, hstr _, hpara, hstr _, hstr _, hnonce, hts, by simp⟩, ?_⟩,
      hopcional _ _⟩, hopcional _ _⟩, hopcional _ _⟩, hopcional _ _⟩, hopcional _ _⟩
    cases hd : tx.data with
    | none => simp
    | some d =>
      intro e he
      rw [List.mem_singleton.mp he]
      exact hdata d hd

/-- The fields of a written block: texts, nulls, four numbers, the allocations and the
transactions. -/
theorem blockToJson_campos (b : Block) {P : String × JsonValue → Prop}
    (hstr : ∀ k s, P (k, .str s)) (hnull : ∀ k, P (k, .null))
    (hversion : P ("version", .int b.version))
    (hheight : P ("height", .int (min b.height i64Max))) (hts : P ("timestamp", .int b.timestamp))
    (hcount : P ("txCount", .int b.txCount)) (hgenesis : ∀ g ∈ b.genesis, P ("genesis", g))
    (htxs : P ("transactions", .list (b.transactions.map txToJson))) :
    ∃ ps, blockToJson b = .map ps ∧ (ps.map Prod.fst).Nodup ∧ ∀ e ∈ ps, P e := by
  refine ⟨_, rfl, ?_, ?_⟩
  · have hchaves : (["protocol", "version", "scheme", "height", "timestamp", "previousHash",
        "txRoot", "txCount", "producer", "publicKey", "pqPublicKey"] ++ ["stateRoot"] ++
        ["producerAccount"] ++ ["genesis"] ++
        ["signature", "pqSignature", "hash", "transactions"]).Nodup := by decide
    refine List.Nodup.sublist ?_ hchaves
    simp only [List.map_append]
    refine List.Sublist.append ?_ (List.Sublist.refl _)
    refine List.Sublist.append ?_ ?_
    · refine List.Sublist.append ?_ (map_fst_campoOpcional _ _)
      refine List.Sublist.append (List.Sublist.refl _) ?_
      cases b.stateRoot with
      | some r => exact List.Sublist.refl _
      | none => cases b.genesis <;> simp
    · cases b.genesis with
      | none => exact List.nil_sublist _
      | some g => exact List.Sublist.refl _
  · have hchave : ∀ k (x : Option String), P (k, x.elim .null .str) := by
      intro k x
      cases x with
      | none => exact hnull k
      | some s => exact hstr k s
    have hconta : ∀ e ∈ campoOpcional "producerAccount" b.producerAccount, P e := by
      cases b.producerAccount with
      | none => simp [campoOpcional]
      | some conta =>
        intro e he
        rw [List.mem_singleton.mp he]
        exact hstr _ _
    simp only [List.forall_mem_append, List.forall_mem_cons]
    refine ⟨⟨⟨⟨⟨hstr _ _, hversion, hstr _ _, hheight, hts, hstr _ _, hstr _ _, hcount, hstr _ _,
      hchave _ _, hchave _ _, by simp⟩, ?_⟩, hconta⟩, ?_⟩, hstr _ _, hstr _ _, hstr _ _, htxs,
      by simp⟩
    · cases b.stateRoot with
      | some r =>
        intro e he
        rw [List.mem_singleton.mp he]
        exact hstr _ r
      | none =>
        cases b.genesis with
        | some g => simp
        | none =>
          intro e he
          rw [List.mem_singleton.mp he]
          exact hnull _
    · cases hg : b.genesis with
      | none => simp
      | some g =>
        intro e he
        rw [List.mem_singleton.mp he]
        exact hgenesis g hg

/-! ## What is read from a line -/

theorem lookup_eq_some_iff_mem {es : List (String × JsonValue)} (h : (es.map Prod.fst).Nodup)
    {k : String} {v : JsonValue} : es.lookup k = some v ↔ (k, v) ∈ es := by
  induction es with
  | nil => simp
  | cons e es ih =>
    rw [List.map_cons, List.nodup_cons] at h
    obtain ⟨a, w⟩ := e
    rw [List.lookup_cons, List.mem_cons, Prod.mk.injEq]
    by_cases hk : k = a
    · subst hk
      have hfora : (k, v) ∉ es := fun hm => h.1 (List.mem_map.mpr ⟨_, hm, rfl⟩)
      simp [hfora, eq_comm]
    · simp [beq_eq_false_iff_ne.mpr hk, hk, ih h.2]

/-- The fields of a map after its keys are put in order. -/
theorem campo_ordenado {ps : List (String × JsonValue)} (h : (ps.map Prod.fst).Nodup)
    (k : String) : (JsonValue.map ps).ordenado.campo k =
      ((JsonValue.map ps).campo k).map JsonValue.ordenado := by
  have hordem : ((JsonValue.ordenaPares ps).map Prod.fst).Nodup := by
    rwa [JsonValue.map_fst_ordenaPares]
  refine Option.ext fun w => ?_
  change List.lookup k (OrdMap.ofList (JsonValue.ordenaPares ps)).entries = some w ↔
    (ps.lookup k).map JsonValue.ordenado = some w
  rw [OrdMap.lookup_entries, OrdMap.get?_ofList hordem, JsonValue.ordenaPares_eq_map,
    List.mem_map, Option.map_eq_some_iff]
  constructor
  · rintro ⟨⟨k', v⟩, hmem, heq⟩
    obtain ⟨rfl, rfl⟩ := Prod.mk.inj heq
    exact ⟨v, (lookup_eq_some_iff_mem h).mpr hmem, rfl⟩
  · rintro ⟨v, hv, rfl⟩
    exact ⟨(k, v), (lookup_eq_some_iff_mem h).mp hv, rfl⟩

/-- Fields that are in order already are the same after ordering. -/
theorem campo_ordenado_fixo {ps : List (String × JsonValue)} (h : (ps.map Prod.fst).Nodup)
    {k : String} (hfixo : ∀ e ∈ ps, e.1 = k → e.2.ordenado = e.2) :
    (JsonValue.map ps).ordenado.campo k = (JsonValue.map ps).campo k := by
  rw [campo_ordenado h]
  cases hk : (JsonValue.map ps).campo k with
  | none => rfl
  | some v => exact congrArg some (hfixo (k, v) ((lookup_eq_some_iff_mem h).mp hk) rfl)

/-- The transaction came alone in a JSON text. -/
def Tx.DeJson (tx : Tx) : Prop := ∃ texto v, parseJson texto = .ok v ∧ txFromJson v = .ok tx

theorem inteiroComPadrao_cabe {v : Option JsonValue} {n : ℤ} (hv : ∀ w ∈ v, w.Valido)
    (h : inteiroComPadrao v 0 = .ok n) : i64Min ≤ n ∧ n ≤ i64Max := by
  unfold inteiroComPadrao at h
  split at h
  · cases h
    decide
  · cases h
    exact hv _ rfl
  · cases h

theorem campo_valido {v w : JsonValue} {k : String} (hv : v.Valido) (h : v.campo k = some w) :
    w.Valido ∧ w.profundidade + 1 ≤ v.profundidade := by
  unfold JsonValue.campo at h
  split at h
  · rename_i ps
    have hmem := (lookup_eq_some_iff_mem (hv.1.imp fun hlt => hlt.ne)).mp h
    refine ⟨JsonValue.validoPares_iff.mp hv.2 _ hmem, ?_⟩
    have hle : w.profundidade ≤ JsonValue.profundidadePares ps :=
      JsonValue.profundidadePares_le.mp le_rfl _ hmem
    rw [JsonValue.profundidade]
    omega
  · cases h

theorem txFromJson_campos {v : JsonValue} {tx : Tx} (h : txFromJson v = .ok tx) :
    inteiroComPadrao (v.campo "nonce") 0 = .ok tx.nonce ∧
      inteiroComPadrao (v.campo "timestamp") 0 = .ok tx.timestamp ∧ tx.data = v.campo "data" := by
  unfold txFromJson at h
  split at h
  · obtain ⟨_, -, h⟩ := except_bind_eq_ok.mp h
    obtain ⟨_, -, h⟩ := except_bind_eq_ok.mp h
    obtain ⟨_, -, h⟩ := except_bind_eq_ok.mp h
    obtain ⟨_, -, h⟩ := except_bind_eq_ok.mp h
    obtain ⟨_, -, h⟩ := except_bind_eq_ok.mp h
    obtain ⟨_, -, h⟩ := except_bind_eq_ok.mp h
    obtain ⟨_, -, h⟩ := except_bind_eq_ok.mp h
    obtain ⟨nonce, hnonce, h⟩ := except_bind_eq_ok.mp h
    obtain ⟨ts, hts, h⟩ := except_bind_eq_ok.mp h
    obtain ⟨_, -, h⟩ := except_bind_eq_ok.mp h
    obtain ⟨_, -, h⟩ := except_bind_eq_ok.mp h
    obtain ⟨_, -, h⟩ := except_bind_eq_ok.mp h
    obtain ⟨_, -, h⟩ := except_bind_eq_ok.mp h
    obtain ⟨_, -, h⟩ := except_bind_eq_ok.mp h
    cases h
    exact ⟨hnonce, hts, rfl⟩
  · cases h

/-- What the types of the source bound in a transaction. -/
structure Tx.Tipada (tx : Tx) : Prop where
  nonce : i64Min ≤ tx.nonce ∧ tx.nonce ≤ i64Max
  timestamp : i64Min ≤ tx.timestamp ∧ tx.timestamp ≤ i64Max
  data : ∀ d ∈ tx.data, d.Valido

theorem Tx.DeJson.tipada {tx : Tx} (h : tx.DeJson) : tx.Tipada := by
  obtain ⟨texto, v, hv, htx⟩ := h
  obtain ⟨hvalido, -⟩ := cabe_of_parseJson hv
  obtain ⟨hnonce, hts, hdata⟩ := txFromJson_campos htx
  refine ⟨inteiroComPadrao_cabe (fun w hw => (campo_valido hvalido hw).1) hnonce,
    inteiroComPadrao_cabe (fun w hw => (campo_valido hvalido hw).1) hts, fun d hd => ?_⟩
  rw [hdata] at hd
  exact (campo_valido hvalido hd).1

theorem txFromJson_congr {v w : JsonValue} (hv : ∃ ps, v = .map ps) (hw : ∃ ps, w = .map ps)
    (h : ∀ k, v.campo k = w.campo k) : txFromJson v = txFromJson w := by
  obtain ⟨ps, rfl⟩ := hv
  obtain ⟨qs, rfl⟩ := hw
  simp only [txFromJson, h]

/-- A transaction of a line is read back. -/
theorem Tx.Tipada.relida {tx : Tx} (h : tx.Tipada) :
    txFromJson (txToJson tx).ordenado = .ok tx := by
  obtain ⟨ps, hps, hnodup, hfixos⟩ := txToJson_campos tx (P := fun v => v.ordenado = v)
    (fun _ => rfl) rfl rfl rfl fun d hd => (h.data d hd).legivel.2
  have hmesma : txFromJson (txToJson tx).ordenado = txFromJson (txToJson tx) := by
    rw [hps]
    refine txFromJson_congr ⟨_, rfl⟩ ⟨_, rfl⟩ fun k => ?_
    exact campo_ordenado_fixo hnodup fun e he _ => hfixos e he
  rw [hmesma, txFromJson_txToJson]

theorem mapM_relidas {txs : List Tx} (h : ∀ tx ∈ txs, tx.Tipada) :
    ((txs.map txToJson).map JsonValue.ordenado).mapM txFromJson = .ok txs := by
  induction txs with
  | nil => rfl
  | cons tx txs ih =>
    obtain ⟨htx, htxs⟩ := List.forall_mem_cons.mp h
    rw [List.map_cons, List.map_cons, List.mapM_cons, htx.relida, ih htxs]
    rfl

/-- Two blocks in JSON that differ at most in how their transactions are written. -/
theorem blockFromJson_congr {ps qs : List (String × JsonValue)} {xs ys : List JsonValue}
    (h : ∀ k, k ≠ "transactions" → (JsonValue.map ps).campo k = (JsonValue.map qs).campo k)
    (hxs : (JsonValue.map ps).campo "transactions" = some (.list xs))
    (hys : (JsonValue.map qs).campo "transactions" = some (.list ys))
    (htxs : xs.mapM txFromJson = ys.mapM txFromJson) :
    blockFromJson (.map ps) = blockFromJson (.map qs) := by
  unfold blockFromJson
  dsimp only
  rw [hxs, hys, h "height" (by decide), h "txCount" (by decide), h "publicKey" (by decide),
    h "pqPublicKey" (by decide), h "stateRoot" (by decide), h "producerAccount" (by decide),
    h "protocol" (by decide), h "version" (by decide), h "scheme" (by decide),
    h "timestamp" (by decide), h "previousHash" (by decide), h "txRoot" (by decide),
    h "producer" (by decide), h "genesis" (by decide), h "signature" (by decide),
    h "pqSignature" (by decide), h "hash" (by decide)]
  dsimp only
  rw [htxs]

/-! ## The block of a line -/

/-- What the types of the source bound in a block. -/
structure Block.Tipado (b : Block) : Prop where
  version : i64Min ≤ b.version ∧ b.version ≤ i64Max
  txs : (b.transactions.length : ℤ) ≤ i64Max
  genesis : ∀ g ∈ b.genesis, g.Valido

/-- The line of the block is read back as the block, with its hash and the ids of its
transactions. -/
def Block.Relido (cr : Cripto) (b : Block) : Prop :=
  ∃ linha, blockToJsonLine b = .ok linha ∧ '\n' ∉ linha.toList ∧
    ∃ v, parseJson linha = .ok v ∧ blockFromJson v = .ok b ∧ cr.blockHash b.payload = b.hash ∧
      ∀ tx ∈ b.transactions, tx.id = some (cr.txDedupId tx)

/-- Nothing nests too deep for the line. -/
def Block.Raso (b : Block) : Prop :=
  (∀ tx ∈ b.transactions, ∀ d ∈ tx.data, d.profundidade + 3 ≤ MAX_JSON_DEPTH) ∧
    ∀ g ∈ b.genesis, g.profundidade + 1 ≤ MAX_JSON_DEPTH

section

variable {cr : Cripto} {b : Block}

theorem txToJson_legivel {tx : Tx} (h : tx.Tipada) : (txToJson tx).Legivel := by
  obtain ⟨ps, hps, hnodup, hlegiveis⟩ := txToJson_campos tx (P := JsonValue.Legivel)
    (fun _ => trivial) trivial h.nonce h.timestamp fun d hd => (h.data d hd).legivel.1
  rw [hps]
  exact ⟨hnodup, JsonValue.legivelPares_iff.mpr hlegiveis⟩

theorem txToJson_raso {tx : Tx} {k : ℕ} (h : ∀ d ∈ tx.data, d.profundidade ≤ k) :
    (txToJson tx).profundidade ≤ k + 1 := by
  obtain ⟨ps, hps, -, hrasos⟩ := txToJson_campos tx (P := fun v => v.profundidade ≤ k)
    (fun _ => Nat.zero_le k) (Nat.zero_le k) (Nat.zero_le k) (Nat.zero_le k) h
  rw [hps, JsonValue.profundidade, Nat.add_comm]
  exact Nat.succ_le_succ (JsonValue.profundidadePares_le.mpr hrasos)

/-- A transaction can come alone when its data leaves room for one level. -/
theorem Tx.Tipada.deJson {tx : Tx} (h : tx.Tipada)
    (hraso : ∀ d ∈ tx.data, d.profundidade + 1 ≤ MAX_JSON_DEPTH) : tx.DeJson := by
  have hfundo : (txToJson tx).profundidade ≤ MAX_JSON_DEPTH :=
    txToJson_raso (k := 511) fun d hd => Nat.le_of_succ_le_succ (hraso d hd)
  exact ⟨_, _, parseJson_canonicalJson (txToJson_legivel h) hfundo, h.relida⟩

theorem blockToJson_legivel (ht : b.Tipado)
    (hts : 0 < b.timestamp ∧ b.timestamp ≤ maxSafeInteger)
    (hcount : b.txCount = b.transactions.length) (htxs : ∀ tx ∈ b.transactions, tx.Tipada) :
    (blockToJson b).Legivel := by
  have hmin : i64Min ≤ 0 := by decide
  have hmax : (maxSafeInteger : ℤ) ≤ i64Max := by decide
  obtain ⟨ps, hps, hnodup, hlegiveis⟩ := blockToJson_campos b (P := fun e => e.2.Legivel)
    (fun _ _ => trivial) (fun _ => trivial) ht.version
    ⟨hmin.trans (le_min (Int.natCast_nonneg _) (by decide)), min_le_right _ _⟩
    ⟨by omega, hts.2.trans hmax⟩ ⟨by omega, hcount ▸ ht.txs⟩
    (fun g hg => (ht.genesis g hg).legivel.1) (JsonValue.legivelItens_iff.mpr fun v hv => by
      obtain ⟨tx, htx, rfl⟩ := List.mem_map.mp hv
      exact txToJson_legivel (htxs tx htx))
  rw [hps]
  exact ⟨hnodup, JsonValue.legivelPares_iff.mpr hlegiveis⟩

theorem blockToJson_raso (h : b.Raso) : (blockToJson b).profundidade ≤ MAX_JSON_DEPTH := by
  obtain ⟨htxs, hgenesis⟩ := h
  have hlista : (JsonValue.list (b.transactions.map txToJson)).profundidade ≤
      MAX_JSON_DEPTH - 1 := by
    rw [JsonValue.profundidade]
    have hitens : JsonValue.profundidadeItens (b.transactions.map txToJson) ≤
        MAX_JSON_DEPTH - 2 := by
      refine JsonValue.profundidadeItens_le.mpr fun v hv => ?_
      obtain ⟨tx, htx, rfl⟩ := List.mem_map.mp hv
      refine txToJson_raso fun d hd => ?_
      exact Nat.le_sub_of_add_le (htxs tx htx d hd)
    have hdois : 1 + (MAX_JSON_DEPTH - 2) = MAX_JSON_DEPTH - 1 := rfl
    omega
  obtain ⟨ps, hps, -, hrasos⟩ := blockToJson_campos b
    (P := fun e => e.2.profundidade ≤ MAX_JSON_DEPTH - 1) (fun _ _ => Nat.zero_le _)
    (fun _ => Nat.zero_le _) (Nat.zero_le _) (Nat.zero_le _) (Nat.zero_le _) (Nat.zero_le _)
    (fun g hg => Nat.le_sub_one_of_lt (hgenesis g hg)) hlista
  rw [hps, JsonValue.profundidade, Nat.add_comm]
  exact Nat.succ_le_succ (JsonValue.profundidadePares_le.mpr hrasos)

theorem blockFromJson_ordenado (halt : (b.height : ℤ) ≤ i64Max)
    (hgenesis : ∀ g ∈ b.genesis, g.Valido)
    (htxs : ∀ tx ∈ b.transactions, tx.Tipada) :
    blockFromJson (blockToJson b).ordenado = .ok b := by
  obtain ⟨ps, hps, hnodup, hfixos⟩ := blockToJson_campos b
    (P := fun e => e.1 ≠ "transactions" → e.2.ordenado = e.2) (fun _ _ _ => rfl) (fun _ _ => rfl)
    (fun _ => rfl) (fun _ => rfl) (fun _ => rfl) (fun _ => rfl)
    (fun g hg _ => (hgenesis g hg).legivel.2) (fun h => absurd rfl h)
  have htransacoes : (blockToJson b).campo "transactions" =
      some (.list (b.transactions.map txToJson)) := by
    unfold blockToJson Block.core
    cases b.stateRoot <;> cases b.genesis <;>
      simp [JsonValue.campo, List.lookup_append, lookup_campoOpcional, List.lookup_cons]
  have hmesmo : blockFromJson (blockToJson b).ordenado = blockFromJson (blockToJson b) := by
    have hordenado := campo_ordenado hnodup "transactions"
    rw [hps] at htransacoes ⊢
    rw [htransacoes] at hordenado
    refine blockFromJson_congr (fun k hk => ?_) hordenado htransacoes ?_
    · exact campo_ordenado_fixo hnodup fun e he hek => hfixos e he (hek ▸ hk)
    · rw [JsonValue.ordenaItens_eq_map, mapM_relidas htxs, List.mapM_map, mapM_txFromJson]
  rw [hmesmo, blockFromJson_blockToJson halt]

theorem mapM_mem {α β : Type} {f : α → Falha β} {as : List α} {bs : List β}
    (h : as.mapM f = .ok bs) : ∀ b ∈ bs, ∃ a ∈ as, f a = .ok b := by
  induction as generalizing bs with
  | nil =>
    cases h
    simp
  | cons a as ih =>
    rw [List.mapM_cons] at h
    obtain ⟨b, hb, h⟩ := except_bind_eq_ok.mp h
    obtain ⟨bs, hbs, h⟩ := except_bind_eq_ok.mp h
    cases h
    rw [List.forall_mem_cons]
    refine ⟨⟨a, List.mem_cons_self, hb⟩, fun b' hb' => ?_⟩
    obtain ⟨a', ha', hf⟩ := ih hbs b' hb'
    exact ⟨a', List.mem_cons_of_mem a ha', hf⟩

/-- What a block read from JSON holds stood in the text, with the nesting it had there. -/
theorem raso_of_blockFromJson {v : JsonValue} (hv : Leitor.Cabe MAX_JSON_DEPTH v)
    (h : blockFromJson v = .ok b) : b.Raso := by
  obtain ⟨hvalido, hfundo⟩ := hv
  unfold blockFromJson at h
  split at h
  · obtain ⟨altura, -, hresto⟩ := except_bind_eq_ok.mp h
    dsimp only at hresto
    split at hresto
    · rename_i itens hitens
      obtain ⟨txs, htxs, hresto⟩ := except_bind_eq_ok.mp hresto
      obtain ⟨_, -, hresto⟩ := except_bind_eq_ok.mp hresto
      obtain ⟨_, -, hresto⟩ := except_bind_eq_ok.mp hresto
      obtain ⟨_, -, hresto⟩ := except_bind_eq_ok.mp hresto
      obtain ⟨_, -, hresto⟩ := except_bind_eq_ok.mp hresto
      obtain ⟨_, -, hresto⟩ := except_bind_eq_ok.mp hresto
      cases hresto
      refine ⟨fun tx htx d hd => ?_, fun g hg => ?_⟩
      · obtain ⟨hlista, hdentro⟩ := campo_valido hvalido hitens
        obtain ⟨item, hitem, hlida⟩ := mapM_mem htxs tx htx
        obtain ⟨-, -, hdata⟩ := txFromJson_campos hlida
        rw [hdata] at hd
        have hfilho : item.profundidade ≤ JsonValue.profundidadeItens itens :=
          JsonValue.profundidadeItens_le.mp le_rfl item hitem
        obtain ⟨-, hneto⟩ := campo_valido (JsonValue.validoItens_iff.mp hlista item hitem) hd
        rw [JsonValue.profundidade] at hdentro
        omega
      · obtain ⟨-, hdentro⟩ := campo_valido hvalido hg
        omega
    · cases hresto
  · cases h

/-- A checked block is read back from its line exactly when it does not nest too deep and
its transactions carry their ids. -/
theorem relido_iff (ht : b.Tipado) (hcab : cr.verifyBlockHeader b = .ok ())
    (htxs : ∀ tx ∈ b.transactions, tx.Tipada) :
    b.Relido cr ↔ b.Raso ∧ ∀ tx ∈ b.transactions, tx.id = some (cr.txDedupId tx) := by
  constructor
  · rintro ⟨linha, -, -, v, hv, hb, -, hids⟩
    exact ⟨raso_of_blockFromJson (cabe_of_parseJson hv) hb, hids⟩
  · rintro ⟨hraso, hids⟩
    unfold Cripto.verifyBlockHeader at hcab
    obtain ⟨_, -, hcab⟩ := except_bind_eq_ok.mp hcab
    obtain ⟨_, -, hcab⟩ := except_bind_eq_ok.mp hcab
    obtain ⟨_, halt, hcab⟩ := except_bind_eq_ok.mp hcab
    obtain ⟨_, hts, hcab⟩ := except_bind_eq_ok.mp hcab
    obtain ⟨_, hcount, hcab⟩ := except_bind_eq_ok.mp hcab
    obtain ⟨_, -, hhash⟩ := except_bind_eq_ok.mp hcab
    have halt := falharSe_eq_ok.mp halt
    have hts := falharSe_eq_ok.mp hts
    have hcount := not_not.mp (falharSe_eq_ok.mp hcount)
    have hhash := not_not.mp (falharSe_eq_ok.mp hhash)
    have hmax : (maxSafeInteger : ℤ) ≤ i64Max := by decide
    have hlegivel := blockToJson_legivel ht (by omega) hcount htxs
    have hquebra : '\n' ∉ (canonicalJson (blockToJson b)).toList := by
      unfold canonicalJson
      rw [String.toList_ofList]
      exact quebra_escreveValor _
    refine ⟨_, blockToJsonLine_ok b, hquebra, _, parseJson_canonicalJson hlegivel
      (blockToJson_raso hraso), ?_, hhash.symm, hids⟩
    exact blockFromJson_ordenado (by omega) ht.genesis htxs

end

/-! ## Accepted blocks -/

theorem campo_raw {tx : Tx} (h : verifyRaw (rawDe tx) = .ok ()) :
    tx.campo "raw" = some (.str (rawDe tx)) := by
  have hvazio : rawDe tx ≠ "" := by
    intro hvazio
    rw [hvazio] at h
    exact absurd (.inl (by decide)) (falharSe_eq_ok.mp h)
  unfold rawDe texto at hvazio ⊢
  cases hcampo : tx.campo "raw" with
  | none =>
    rw [hcampo] at hvazio
    exact absurd rfl hvazio
  | some v =>
    rw [hcampo] at hvazio
    cases v with
    | str raw => rfl
    | null | bool _ | int _ | list _ | map _ => exact absurd rfl hvazio

/-- A verified transaction carries its id. -/
theorem id_of_verifyTransaction {amb : Ambiente}
    (henv : amb.verifyEavmEnvelope = verifyEavmEnvelope amb.cripto) {tx : Tx}
    (h : amb.verifyTransaction tx = .ok ()) : tx.id = some (amb.cripto.txDedupId tx) := by
  unfold Ambiente.verifyTransaction at h
  split_ifs at h with hscheme
  · rw [henv] at h
    obtain ⟨parsed, hconf⟩ := verifyEavmEnvelope_iff.mp h
    rw [hconf.id]
    unfold Cripto.txDedupId
    have hcampo : tx.data.bind (·.campo "raw") = some (.str (rawDe tx)) := campo_raw hconf.raw
    rw [hcampo]
    exact congrArg some (if_pos hscheme).symm
  · obtain ⟨_, -, h⟩ := except_bind_eq_ok.mp h
    obtain ⟨_, -, h⟩ := except_bind_eq_ok.mp h
    obtain ⟨_, -, h⟩ := except_bind_eq_ok.mp h
    obtain ⟨_, -, h⟩ := except_bind_eq_ok.mp h
    obtain ⟨_, -, hid⟩ := except_bind_eq_ok.mp h
    have hid := not_not.mp (falharSe_eq_ok.mp hid)
    rw [hid]
    unfold Cripto.txDedupId
    split
    · rw [if_neg hscheme]
    · rfl

namespace Blockchain

variable {amb : Ambiente} {c c' : Blockchain} {b : Block} {now : ℤ}

theorem verificadas_of_simulateTxs {height blockTs : ℕ} {txs : List Tx} {vistas : List String}
    {s s' : State} {recibos : Recibos}
    (h : c.simulateTxs amb height blockTs vistas txs s = .ok recibos s') :
    ∀ tx ∈ txs, amb.verifyTransaction tx = .ok () := by
  induction txs generalizing vistas s s' recibos with
  | nil => simp
  | cons tx txs ih =>
    rw [simulateTxs] at h
    obtain ⟨_, t, ht, h₁⟩ := bind_eq_ok.mp h
    obtain ⟨hconf, rfl⟩ := lift_eq_ok.mp ht
    obtain ⟨aplicada, t', -, h₂⟩ := bind_eq_ok.mp h₁
    obtain ⟨resto, t'', hresto, -⟩ := bind_eq_ok.mp h₂
    obtain ⟨_, hverifica, -⟩ := except_bind_eq_ok.mp hconf
    refine List.forall_mem_cons.mpr ⟨?_, ih hresto⟩
    cases hv : amb.verifyTransaction tx with
    | ok u => rfl
    | error e =>
      rw [hv] at hverifica
      cases hverifica

theorem cabecalho_of_integrity {cr : Cripto} {chaves : Option (String × String)}
    (h : cr.verifyBlockIntegrityEx b chaves = .ok ()) : cr.verifyBlockHeader b = .ok () := by
  obtain ⟨_, hcab, -⟩ := except_bind_eq_ok.mp h
  exact hcab

/-- The transactions of an accepted block that is no genesis carry their ids. -/
theorem ids_of_addBlock (henv : amb.verifyEavmEnvelope = verifyEavmEnvelope amb.cripto)
    (h : addBlock amb b now c = .ok () c') :
    amb.cripto.verifyBlockHeader b = .ok () ∧ 0 < b.height ∧
      ∀ tx ∈ b.transactions, tx.id = some (amb.cripto.txDedupId tx) := by
  obtain ⟨hconf, recibos, sim, hsim, -⟩ := addBlock_eq_ok.mp h
  obtain ⟨hint, u, -, helo⟩ := conferirBloco_cabeca hconf
  obtain ⟨hsim, -⟩ := simularBloco_eq_ok hsim
  obtain ⟨blockTs, t, -, hsim⟩ := bind_eq_ok.mp hsim
  obtain ⟨rs, t', htxs, -⟩ := bind_eq_ok.mp hsim
  refine ⟨cabecalho_of_integrity hint, by rw [helo.1]; exact Nat.succ_pos _, fun tx htx => ?_⟩
  exact id_of_verifyTransaction henv (verificadas_of_simulateTxs htxs tx htx)

theorem cabecalho_of_adoptGenesis (h : adoptGenesis amb b c = .ok () c') :
    amb.cripto.verifyBlockHeader b = .ok () ∧ b.height = 0 := by
  unfold adoptGenesis at h
  rw [get_bind_run] at h
  obtain ⟨estado, c₁, hconf, -⟩ := bind_eq_ok.mp h
  obtain ⟨hint, halt, -⟩ := conferirGenese_ok (conferir_eq_ok.mp hconf).1
  exact ⟨cabecalho_of_integrity hint, halt⟩

/-- An accepted block is read back from the line that the chain keeps of it exactly when the
data of each transaction nests at most 509 levels and the allocations at most 511; the
transactions of a genesis, that nobody verifies, must carry their ids besides. -/
theorem bloco_aceito_relido_iff (henv : amb.verifyEavmEnvelope = verifyEavmEnvelope amb.cripto)
    (h : addBlock amb b now c = .ok () c' ∨ adoptGenesis amb b c = .ok () c') (ht : b.Tipado)
    (htxs : ∀ tx ∈ b.transactions, tx.DeJson) :
    b.Relido amb.cripto ↔
      (∀ tx ∈ b.transactions, ∀ d ∈ tx.data, d.profundidade ≤ 509) ∧
        (∀ g ∈ b.genesis, g.profundidade ≤ 511) ∧
          (b.height = 0 → ∀ tx ∈ b.transactions, tx.id = some (amb.cripto.txDedupId tx)) := by
  have hraso : b.Raso ↔ (∀ tx ∈ b.transactions, ∀ d ∈ tx.data, d.profundidade ≤ 509) ∧
      ∀ g ∈ b.genesis, g.profundidade ≤ 511 := by
    have hlimite : MAX_JSON_DEPTH = 512 := rfl
    unfold Block.Raso
    rw [hlimite]
    simp only [← Nat.le_sub_iff_add_le (by decide : 3 ≤ 512),
      ← Nat.le_sub_iff_add_le (by decide : 1 ≤ 512)]
  have hcab : amb.cripto.verifyBlockHeader b = .ok () := by
    rcases h with h | h
    · exact (ids_of_addBlock henv h).1
    · exact (cabecalho_of_adoptGenesis h).1
  have hids : (∀ tx ∈ b.transactions, tx.id = some (amb.cripto.txDedupId tx)) ↔
      (b.height = 0 → ∀ tx ∈ b.transactions, tx.id = some (amb.cripto.txDedupId tx)) := by
    rcases h with h | h
    · obtain ⟨-, hpos, hids⟩ := ids_of_addBlock henv h
      exact ⟨fun _ _ => hids, fun _ => hids⟩
    · exact ⟨fun h _ => h, fun hgenese => hgenese (cabecalho_of_adoptGenesis h).2⟩
  rw [relido_iff ht hcab fun tx htx => (htxs tx htx).tipada, hraso, and_assoc]
  exact and_congr_right' (and_congr_right' hids)

/-! ## A block that is not read back -/

/-- The idealised environment with the envelopes of the source. -/
def ambienteComEnvelope : Ambiente :=
  { ambienteIdeal with verifyEavmEnvelope := verifyEavmEnvelope criptoIdeal }

/-- Lists inside one another. -/
def fundo : ℕ → JsonValue
  | 0 => .null
  | n + 1 => .list [fundo n]

theorem profundidade_fundo (n : ℕ) : (fundo n).profundidade = n := by
  induction n with
  | zero => rfl
  | succ n ih =>
    rw [fundo, JsonValue.profundidade, JsonValue.profundidadeItens, JsonValue.profundidadeItens, ih,
      Nat.max_zero, Nat.add_comm]

theorem valido_fundo (n : ℕ) : (fundo n).Valido := by
  induction n with
  | zero => trivial
  | succ n ih => exact ⟨ih, trivial⟩

/-- The size in bytes of a text. -/
def peso (v : JsonValue) : ℕ := ((escreveValor v).map Char.utf8Size).sum

theorem peso_fundo (n : ℕ) : peso (fundo n) = 2 * n + 4 := by
  induction n with
  | zero => decide
  | succ n ih =>
    have habre : Char.utf8Size '[' = 1 := by decide
    have hfecha : Char.utf8Size ']' = 1 := by decide
    have htexto : escreveValor (fundo (n + 1)) = '[' :: (escreveValor (fundo n) ++ [']']) := by
      have hunico : [','].intercalate [escreveValor (fundo n)] = escreveValor (fundo n) :=
        List.append_nil _
      rw [fundo, escreveValor, escreveItens, escreveItens, escreveLista, hunico, List.cons_append]
    unfold peso at ih ⊢
    rw [htexto, List.map_cons, List.map_append, List.sum_cons, List.sum_append, ih, habre]
    simp [hfecha]
    omega

/-- A flat list of the size of the deep one. -/
def plano : JsonValue := .list (.int 10 :: List.replicate 509 (.int 1))

theorem peso_plano : peso plano = 2 * 509 + 4 := by decide +kernel

def dadosCom (x : JsonValue) : JsonValue := .map [("percent", .int 10), ("x", x)]

/-- A change of commission with one more field. -/
def comissaoCom (x : JsonValue) : Tx := { camposComissao with data := some (dadosCom x) }

/-- The transaction as account A signs it, under an id. -/
def assinadaCom (x : JsonValue) (id : Option String) : Tx :=
  { (comissaoCom x).assinada criptoIdeal (chaveIdeal 0) enderecoA with id := id }

theorem peso_dadosCom {x y : JsonValue} (h : peso x = peso y) :
    canonicalJsonLen (dadosCom x) = canonicalJsonLen (dadosCom y) :=
  escreveMapa_mesmoPeso (.cons ⟨rfl, rfl⟩ (.cons ⟨rfl, h⟩ .nil))

/-- Data of one size weigh the same in the quota. -/
theorem usefulTxBytes_data {x y : JsonValue} (h : canonicalJsonLen x = canonicalJsonLen y)
    (tx : Tx) :
    { tx with data := some x }.usefulTxBytes = { tx with data := some y }.usefulTxBytes := by
  have hpeso : ∀ as bs : List (String × JsonValue),
      canonicalJsonLen (.map (as ++ ("data", x) :: bs)) =
        canonicalJsonLen (.map (as ++ ("data", y) :: bs)) := by
    intro as bs
    refine escreveMapa_mesmoPeso ?_
    induction as with
    | nil => exact .cons ⟨rfl, h⟩ (List.forall₂_same.mpr fun e _ => ⟨rfl, rfl⟩)
    | cons e es ih => exact .cons ⟨rfl, rfl⟩ ih
  have hcampos := hpeso ({ tx with data := none : Tx }.camposBase.take 9)
    (campoOpcional "publicKey" tx.publicKey ++ campoOpcional "pqPublicKey" tx.pqPublicKey ++
      campoOpcional "id" tx.id)
  unfold Tx.usefulTxBytes Tx.camposBase
  simp only [List.append_assoc, List.cons_append, List.nil_append] at hcampos ⊢
  exact hcampos

theorem apurarTaxa_com {x y : JsonValue} (h : peso x = peso y) (id : Option String) :
    apurarTaxa estadoAberto (assinadaCom x id) 1 =
      apurarTaxa estadoAberto (assinadaCom y id) 1 := by
  have hbytes := usefulTxBytes_data (peso_dadosCom h) (assinadaCom y id)
  have hx : assinadaCom x id = { assinadaCom y id with data := some (dadosCom x) } := by
    unfold assinadaCom Tx.assinada comissaoCom
    dsimp only
  have hy : assinadaCom y id = { assinadaCom y id with data := some (dadosCom y) } := by
    unfold assinadaCom Tx.assinada comissaoCom
    dsimp only
  rw [← hx, ← hy] at hbytes
  unfold apurarTaxa EavmTx.apurarGb consumoGb
  rw [hbytes]
  rfl

def comissaoFunda : Tx := comissaoCom (fundo 509)

def txFunda : Tx := comissaoFunda.assinada criptoIdeal (chaveIdeal 0) enderecoA

def cotaFunda : Peek := ⟨0, 1387⟩

theorem pronta_funda : pronta ambienteComEnvelope (chaveIdeal 0) enderecoA comissaoFunda
    .setCommission estadoAberto 1 3000 1 cotaFunda 0 = true := by
  have hpeso : peso (fundo 509) = peso plano := (peso_fundo 509).trans peso_plano.symm
  have hdados : dadosCabem comissaoFunda = true := by
    have hplano : dadosCabem (comissaoCom plano) = true := by decide +kernel
    have hlen := peso_dadosCom hpeso
    rw [canonicalJsonLen_eq, canonicalJsonLen_eq] at hlen
    unfold dadosCom at hlen
    unfold dadosCabem comissaoFunda comissaoCom dadosCom at *
    dsimp only at hplano ⊢
    rw [hlen]
    exact hplano
  have htaxa : ((apurarTaxa estadoAberto (assinadaCom (fundo 509) (some hashNulo)) 1).toOption.map
      fun r => (r.1.shortfall, r.1.usedAfter, r.2)) == some (0, 1387, 0) := by
    rw [apurarTaxa_com hpeso, ← taxaPorOctetos_eq]
    decide +kernel
  have hresto : ((Ambiente.verifyCampos comissaoFunda).toOption.isSome &&
      (ambienteComEnvelope.verifyDestino comissaoFunda).toOption.isSome &&
      Tipo.deTexto comissaoFunda.txType == some .setCommission &&
      (conferirEntrada estadoAberto txFunda).toOption == some 1 &&
      conclui (manipulador ambienteComEnvelope txFunda ⟨1, 3000, 0⟩ .setCommission) estadoAberto &&
      decide ((fim (manipulador ambienteComEnvelope txFunda ⟨1, 3000, 0⟩ .setCommission)
        estadoAberto).totalBurned + 0 < u128Limit)) = true := by decide +kernel
  simp only [Bool.and_eq_true] at hresto
  obtain ⟨⟨⟨⟨⟨hcampos, hdestino⟩, htipo⟩, hentrada⟩, hmanejo⟩, hqueima⟩ := hresto
  unfold pronta
  simp only [Bool.and_eq_true, taxaPorOctetos_eq]
  exact ⟨⟨⟨⟨⟨⟨⟨hcampos, hdestino⟩, hdados⟩, htipo⟩, hentrada⟩, htaxa⟩, hmanejo⟩, hqueima⟩

/-- What a simulation reads of the block. -/
def blocoFundo : Block := { blocoDaComissao with transactions := [txFunda] }

def pagoFundo : State :=
  depoisDe (fim (manipulador ambienteComEnvelope txFunda ⟨1, 3000, 0⟩ .setCommission) estadoAberto)
    txFunda 1 1 cotaFunda 0

def estadoFundo : State := fim (fechaBloco blocoFundo) pagoFundo

instance simulate_fundo : Fact (∃ recibos, cadeiaTrio.simulate ambienteComEnvelope
    (esboco ambienteComEnvelope (assinanteDe (chaveIdeal 0)) enderecoA geneseTrio [txFunda]
      (inicioDoSlot 3) none) estadoTrio = .ok recibos estadoFundo) where
  out := by
    have haceita := aceita_de_pronta (trio_capaz _ List.mem_cons_self) digere_ideal pronta_funda
    obtain ⟨⟨⟩, hfecha⟩ := conclui_iff.mp
      (show conclui (fechaBloco blocoFundo) pagoFundo = true by decide +kernel)
    cases haceita with
    | transacao hv haplica =>
      have hum := simulate_um (c := cadeiaTrio) (b := blocoFundo) (s := estadoTrio) rfl rfl hv rfl
        haplica hfecha
      have hmesmo : cadeiaTrio.simulate ambienteComEnvelope (esboco ambienteComEnvelope
          (assinanteDe (chaveIdeal 0)) enderecoA geneseTrio [txFunda] (inicioDoSlot 3) none) =
          cadeiaTrio.simulate ambienteComEnvelope blocoFundo := by
        refine simulate_mesmo ⟨?_, ?_, ?_, ?_⟩ ?_
        · rfl
        · rfl
        · exact hash_geneseTrio.out
        · rfl
        · unfold Block.validator esboco blocoFundo
          rfl
      exact ⟨_, (congrFun hmesmo estadoTrio).trans hum⟩

theorem tipado_of_buildBlock {cr : Cripto} {signer : BlockSigner} {p : BuildParams} {b : Block}
    (h : buildBlock cr signer p = .ok b) (htxs : (p.transactions.length : ℤ) ≤ i64Max) :
    b.Tipado := by
  unfold buildBlock at h
  obtain ⟨producer, -, h⟩ := except_bind_eq_ok.mp h
  obtain ⟨chaves, -, h⟩ := except_bind_eq_ok.mp h
  obtain ⟨assinaturas, -, h⟩ := except_bind_eq_ok.mp h
  cases h
  have hversao : i64Min ≤ 1 ∧ 1 ≤ i64Max := by decide
  exact ⟨hversao, htxs, by rintro g ⟨⟩⟩

/-- The trio takes the block of the deep transaction. -/
instance aceita_fundo : Fact (∃ b c, addBlock ambienteComEnvelope b (10 ^ 9) cadeiaTrio = .ok () c ∧
    b.transactions = [txFunda] ∧ b.Tipado) where
  out := by
    obtain ⟨recibos, hsim⟩ := simulate_fundo.out
    have hraiz : (criptoIdeal.stateRootOf estadoFundo).toOption.isSome = true := by decide +kernel
    obtain ⟨raiz, hraiz⟩ : ∃ raiz, criptoIdeal.stateRootOf estadoFundo = .ok raiz := by
      cases h : criptoIdeal.stateRootOf estadoFundo with
      | ok raiz => exact ⟨raiz, rfl⟩
      | error e =>
        rw [h] at hraiz
        cases hraiz
    have hideal := pronta_trio.apta (by decide)
    have hapta : Apta ambienteComEnvelope trio cadeiaTrio :=
      ⟨hideal.emUso, hideal.cabeca, hideal.rede, hideal.chaves⟩
    obtain ⟨b, hprod, -, hb⟩ := hapta.produz pronta_trio.semDisco digere_ideal 3 (u := geneseTrio) rfl
      (trio_capaz _ List.mem_cons_self) List.mem_cons_self rfl (by decide) (by decide)
      (le_refl (10 ^ 9 : ℤ)) (by decide) (by decide) hsim hraiz
    obtain ⟨_, _, hmonta, -⟩ := produceBlock_ok hprod
    obtain ⟨_, _, _, -, -, hconstroi⟩ := montarBloco_ok hmonta
    have huma : ([txFunda].length : ℤ) ≤ i64Max := by decide
    exact ⟨b, _, addBlock_of_produceBlock hprod, hb.txs, tipado_of_buildBlock hconstroi huma⟩

theorem tipada_funda : txFunda.Tipada := by
  refine ⟨by decide, by decide, ?_⟩
  rintro d ⟨⟩
  have hdez : i64Min ≤ 10 ∧ 10 ≤ i64Max := by decide
  exact ⟨by decide, hdez, valido_fundo 509, trivial⟩

theorem profundidade_dadosCom (x : JsonValue) :
    (dadosCom x).profundidade = x.profundidade + 1 := by
  simp [dadosCom, JsonValue.profundidade, JsonValue.profundidadePares, Nat.add_comm]

theorem deJson_funda : txFunda.DeJson := by
  refine tipada_funda.deJson ?_
  rintro d ⟨⟩
  rw [profundidade_dadosCom, profundidade_fundo]
  decide

/-- A block that a chain accepted is not always read back. -/
theorem bloco_aceito_nao_relido : ¬ ∀ (amb : Ambiente) (c c' : Blockchain) (b : Block) (now : ℤ),
    amb.verifyEavmEnvelope = verifyEavmEnvelope amb.cripto →
    (addBlock amb b now c = .ok () c' ∨ adoptGenesis amb b c = .ok () c') → b.Tipado →
    (∀ tx ∈ b.transactions, tx.DeJson) → b.Relido amb.cripto := by
  intro h
  obtain ⟨b, c, hadd, htxs, ht⟩ := aceita_fundo.out
  have hlidas : ∀ tx ∈ b.transactions, tx.DeJson := by
    rw [htxs]
    exact List.forall_mem_singleton.mpr deJson_funda
  obtain ⟨linha, -, -, v, hv, hb, -, -⟩ :=
    h ambienteComEnvelope cadeiaTrio c b (10 ^ 9) rfl (.inl hadd) ht hlidas
  obtain ⟨hraso, -⟩ := raso_of_blockFromJson (cabe_of_parseJson hv) hb
  rw [htxs] at hraso
  have hfundo := hraso txFunda List.mem_cons_self (dadosCom (fundo 509)) rfl
  rw [profundidade_dadosCom, profundidade_fundo] at hfundo
  exact absurd hfundo (by decide)

theorem valido_alocacoes : (JsonValue.map alocacoesTrio).Valido := by
  obtain ⟨hcb, hba⟩ := enderecos_ordenados
  have hchaves : (apostasTrio.map Prod.fst).Pairwise (· < ·) := by
    simp only [apostasTrio, List.map_cons, List.map_nil, List.pairwise_cons, List.forall_mem_cons]
    exact ⟨⟨hcb, hcb.trans hba, by simp⟩, ⟨hba, by simp⟩, by simp, .nil⟩
  exact ⟨List.pairwise_singleton _ _, ⟨hchaves, trivial, trivial, trivial, trivial⟩, trivial⟩

/-- The genesis of the trio is read back from its line. -/
theorem geneseTrio_relido : geneseTrio.Relido criptoIdeal := by
  let c := nova none none false
  have hadota : addBlock ambienteComEnvelope geneseTrio 0 c = .ok () cadeiaTrio ∨
      adoptGenesis ambienteComEnvelope geneseTrio c = .ok () cadeiaTrio :=
    .inr (adoptGenesis_geneseCom rfl rfl estadoGenese_trio)
  have hversao : i64Min ≤ geneseTrio.version ∧ geneseTrio.version ≤ i64Max := by decide
  refine (bloco_aceito_relido_iff rfl hadota
    ⟨hversao, by decide, ?_⟩ (by rintro tx ⟨⟩)).mpr ⟨by rintro tx ⟨⟩, ?_, by rintro - tx ⟨⟩⟩
  · rintro g ⟨⟩
    exact valido_alocacoes
  · rintro g ⟨⟩
    decide

end Blockchain

end Eav7
